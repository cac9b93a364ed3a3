import OpenMux.Lib.PyText
import OpenMux.Lib.Run

/-!
# What a script asks its operator

The prompts of a run with the queue that their answers come from, and what the run records of them. Other events of the run are left
out. A text keeps the prompt that was open when it was submitted, and every prompt how it ended.
-/

namespace OpenMux.Actions

open Py

inductive PromptKind
  | text
  | buttons
  | select
  | radio
deriving DecidableEq

structure Choice where
  label : Text
  value : Text
deriving DecidableEq

/-- The arguments of `prompt`; `timed` says that it has a timeout. -/
structure Prompt where
  text : Option Text := none
  kind : PromptKind := .text
  choices : List Choice := []
  color : Text := "none".toList
  timed : Bool := false
deriving DecidableEq

def validPromptColors : List Text :=
  ["none".toList, "red".toList, "green".toList, "blue".toList, "pink".toList, "yellow".toList, "orange".toList, "purple".toList]

namespace Prompt

/-- `prompt` raises for any other arguments. -/
def valid (p : Prompt) : Bool := (p.kind = .text || p.choices ≠ []) && validPromptColors.contains p.color

def waitForInput (text : Option Text) (color : Text) (timed : Bool) : Prompt where
  text
  color
  timed

def confirm (text color : Text) (timed : Bool) : Prompt where
  text := some text
  kind := .buttons
  choices := [⟨"Yes".toList, "yes".toList⟩, ⟨"No".toList, "no".toList⟩]
  color
  timed

/-- `choose`, `select` and `radio`. -/
def offer (kind : PromptKind) (text : Text) (choices : List Choice) (color : Text) (timed : Bool) : Prompt where
  text := some text
  kind
  choices
  color
  timed

end Prompt

/-- How a prompt ends. A cancel passes through it. -/
inductive PromptEnd
  | answered
  | expired
  | cancelled
deriving DecidableEq

inductive PromptEvent
  | waitingForOperator (promptId : Nat) (p : Prompt)
  | operatorPromptClosed (promptId : Option Nat) (reason : PromptEnd)
deriving DecidableEq

/-- A text with its number and the prompt that was open when it was submitted. -/
structure Submitted where
  text : Text
  number : Nat
  during : Option Nat
deriving DecidableEq

/-- The prompt that the script waits in. `clear` says that no text was waiting when it opened. -/
structure OpenPrompt where
  id : Nat
  prompt : Prompt
  clear : Bool
deriving DecidableEq

structure EndedPrompt where
  id : Nat
  prompt : Prompt
  ending : PromptEnd
deriving DecidableEq

structure PromptRun where
  promptSeq : Nat := 0
  pendingPromptId : Option Nat := none
  operatorInput : List Submitted := []
  opened : Option OpenPrompt := none
  running : Bool := true
  submissions : Nat := 0
  events : List PromptEvent := []
  /-- The prompts that have returned a text. -/
  answers : List (Nat × Submitted) := []
  ended : List EndedPrompt := []
deriving DecidableEq

inductive PromptAct
  | prompt (p : Prompt)
  /-- A call of `submit_operator_input` that the runner accepts. -/
  | submit (text : Text)
  /-- The prompt gets the first text of the queue. -/
  | answer
  | expire
  /-- A cancel reaches the script in the prompt. The script may go on. -/
  | cancel
  /-- A script of another run opens a prompt. -/
  | elsewhere
  | finish

namespace PromptRun

/-- `_next_prompt_id`, and the event of the prompt. -/
def openPrompt (s : PromptRun) (p : Prompt) : PromptRun :=
  { s with
    promptSeq := s.promptSeq + 1
    pendingPromptId := some (s.promptSeq + 1)
    opened := some ⟨s.promptSeq + 1, p, s.operatorInput.isEmpty⟩
    events := s.events ++ [.waitingForOperator (s.promptSeq + 1) p] }

/-- `_close_prompt`. -/
def closePrompt (s : PromptRun) (reason : PromptEnd) : PromptRun :=
  { s with pendingPromptId := none, events := s.events ++ [.operatorPromptClosed s.pendingPromptId reason] }

/-- The prompt is over for the script. -/
def leave (s : PromptRun) (o : OpenPrompt) (ending : PromptEnd) : PromptRun :=
  { s with opened := none, ended := s.ended ++ [⟨o.id, o.prompt, ending⟩] }

def submitOperatorInput (s : PromptRun) (text : Text) : PromptRun :=
  { s with
    operatorInput := s.operatorInput ++ [⟨text, s.submissions, s.opened.map (·.id)⟩]
    submissions := s.submissions + 1 }

def step (s : PromptRun) : PromptAct → Option PromptRun
  | .prompt p =>
      if s.running && s.opened.isNone then if p.valid then some (s.openPrompt p) else some s
      else none
  | .submit text => if s.running then some (s.submitOperatorInput text) else none
  | .answer =>
      match s.opened, s.operatorInput with
      | some o, x :: xs =>
          some (({ s with operatorInput := xs, answers := s.answers ++ [(o.id, x)] }.closePrompt .answered).leave o .answered)
      | _, _ => none
  | .expire =>
      match s.opened with
      | some o => if o.prompt.timed then some ((s.closePrompt .expired).leave o .expired) else none
      | none => none
  | .cancel =>
      match s.opened with
      | some o => some (s.leave o .cancelled)
      | none => none
  | .elsewhere => some { s with promptSeq := s.promptSeq + 1 }
  | .finish => if s.opened.isNone then some { s with running := false, pendingPromptId := none } else none

/-- The events that a prompt should leave. -/
def frames (e : EndedPrompt) : List PromptEvent :=
  [.waitingForOperator e.id e.prompt, .operatorPromptClosed (some e.id) e.ending]

/-- Every prompt is closed before the next, with its own id and as it ended. -/
def Recorded (s : PromptRun) : Prop :=
  s.events = s.ended.flatMap frames ++ s.opened.toList.map fun o => .waitingForOperator o.id o.prompt

/-- A prompt returns what was submitted while it was open, no text is returned twice, and the events tell the prompts. -/
structure Faithful (s : PromptRun) : Prop where
  during : ∀ a ∈ s.answers, a.2.during = some a.1
  once : (s.answers.map (·.2.number)).Nodup
  recorded : s.Recorded

/-- No text was waiting when the prompt opened that is answered, and no prompt is cancelled. -/
def Clean (s : PromptRun) : PromptAct → Prop
  | .answer => s.opened.all (·.clear) = true
  | .cancel => False
  | _ => True

instance Clean.decidable (s : PromptRun) : (a : PromptAct) → Decidable (s.Clean a)
  | .answer => inferInstanceAs (Decidable (_ = true))
  | .cancel => isFalse id
  | .prompt _ | .submit _ | .expire | .elsewhere | .finish => isTrue trivial

end PromptRun

end OpenMux.Actions
