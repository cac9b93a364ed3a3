import OpenMux.Actions.Runner
import OpenMux.Lib.PyValue

/-!
# Launches and their parameters

What a launch checks of the parameters that it is given, and what it does to the registries of the runner before and after.
-/

namespace OpenMux.Actions

open Py

inductive ParamType
  | str
  | int
  | float
  | bool
deriving DecidableEq

inductive Widget
  | text
  | select
  | radio
deriving DecidableEq

/-- A declared parameter. `choices` are the values of the normalized choices. -/
structure ActionParam where
  name : Text
  type : ParamType := .str
  required : Bool := true
  default : Tree := .none
  sensitive : Bool := false
  widget : Widget := .text
  choices : List Text := []
  choices_ne_nil : widget ≠ .text → choices ≠ [] := by decide

structure ActionScript where
  id : Text
  params : List ActionParam

/-- What `launch_run` raises; `other` is what `_coerce` does not catch. -/
inductive LaunchError
  | busy (portName : Text)
  | unknown (names : List Text)
  | missing (name : Text)
  | mistyped (name : Text) (type : ParamType)
  | other
deriving DecidableEq

def ParamType.text : ParamType → Text
  | str => "str".toList
  | int => "int".toList
  | float => "float".toList
  | bool => "bool".toList

/-- The text of an error; `repr` is the one of a text. -/
def LaunchError.message (repr : Text → Text) : LaunchError → Text
  | busy portName => "An action is already running on port ".toList ++ portName
  | unknown names => "Unknown parameter(s): ".toList ++ ", ".toList.intercalate names
  | missing name => "Missing required parameter: ".toList ++ name
  | mistyped name type => "Parameter ".toList ++ repr name ++ " must be of type ".toList ++ type.text
  | other => []

/-- How a conversion fails: with a `TypeError` or a `ValueError`, or with something else. -/
inductive Mismatch
  | typeOrValue
  | other
deriving DecidableEq

/-- The conversions as far as they depend on the texts of floats and on objects. -/
structure Builtins where
  /-- `str` of a float, a list, a dictionary or an object. -/
  str : Tree → Except Mismatch Text
  /-- `int` of an object. -/
  int : Tree → Except Mismatch Int
  /-- `float` of what is neither a float nor a boolean. -/
  float : Tree → Except Mismatch FloatVal

namespace Builtins

variable (b : Builtins)

def strOf : Tree → Except Mismatch Text
  | .none => .ok "None".toList
  | .bool x => .ok (if x then "True".toList else "False".toList)
  | .int n => (Py.str n).elim (.error .typeOrValue) .ok
  | .str t => .ok t
  | v => b.str v

def intOf : Tree → Except Mismatch Int
  | .bool x => .ok (if x then 1 else 0)
  | .int n => .ok n
  | .float (.fin q) => .ok (q.num.tdiv q.den)
  | .float .nan => .error .typeOrValue
  -- `OverflowError`
  | .float _ => .error .other
  | .str t => (Py.int t).elim (.error .typeOrValue) .ok
  | .object i x y => b.int (.object i x y)
  | _ => .error .typeOrValue

def floatOf : Tree → Except Mismatch FloatVal
  | .float x => .ok x
  | .bool x => .ok (.fin (if x then 1 else 0))
  | v => b.float v

def trueTexts : List Text := ["1".toList, "true".toList, "yes".toList, "on".toList]

def boolOf : Tree → Except Mismatch Bool
  | .bool x => .ok x
  | v => (b.strOf v).map fun t => trueTexts.contains ((strip t).map Char.toLower)

/-- The conversion of `_coerce`. -/
def convert : ParamType → Tree → Except Mismatch Tree
  | .str, v => (b.strOf v).map .str
  | .int, v => (b.intOf v).map .int
  | .float, v => (b.floatOf v).map .float
  | .bool, v => (b.boolOf v).map .bool

/-- `_coerce`. -/
def coerce (p : ActionParam) (v : Tree) : Except LaunchError Tree :=
  match b.convert p.type v with
  | .ok w => .ok w
  | .error .typeOrValue => .error (.mistyped p.name p.type)
  | .error .other => .error .other

end Builtins

namespace ActionScript

variable (action : ActionScript) (b : Builtins) (raw : Dict Text Tree)

/-- `declared` of `validate_params`. -/
def declared : Dict Text ActionParam := action.params.foldl (fun d p => d.set p.name p) ∅

/-- The value of a parameter before it is coerced. -/
def valueFor (p : ActionParam) : Except LaunchError Tree :=
  match raw.get? p.name, p.required, p.default with
  | some v, _, _ => .ok v
  | none, true, .none => .error (.missing p.name)
  | none, _, v => .ok v

def validateOne (p : ActionParam) : Except LaunchError Tree :=
  match valueFor raw p with
  | .error e => .error e
  | .ok .none => .ok .none
  | .ok v => b.coerce p v

def validateEach : List ActionParam → Dict Text Tree → Except LaunchError (Dict Text Tree)
  | [], result => .ok result
  | p :: ps, result =>
      match validateOne b raw p with
      | .error e => .error e
      | .ok v => validateEach ps (result.set p.name v)

def unknown : List Text := raw.keys.filter fun name => !action.declared.keys.contains name

/-- `validate_params`. -/
def validateParams : Except LaunchError (Dict Text Tree) :=
  if action.unknown raw ≠ [] then .error (.unknown ((action.unknown raw).insertionSort (· ≤ ·)))
  else validateEach b raw action.params ∅

/-- `redact_params`. -/
def redactParams (params : Dict Text Tree) : Dict Text Tree :=
  params.mapValues fun name v =>
    if ((action.params.filter (·.sensitive)).map (·.name)).contains name then .str "<redacted>".toList else v

end ActionScript

/-- The runner with what a launch registers: the parameters as they are shown, the queues of the viewers, the tasks with the
parameters of their scripts, and the runs whose `broadcast_run_closed` has been started. -/
structure Launcher where
  runner : Runner
  params : Dict Text (Dict Text Tree) := ∅
  subscribers : Dict Text (List Nat) := ∅
  tasks : Dict Text (Dict Text Tree) := ∅
  closing : List Text := []

namespace Launcher

/-- The run of the port that is finished and not closed. -/
def prior (s : Launcher) (portName : Text) : Option Text :=
  (s.runner.openFinishedByPort.get? portName).filter fun i => (s.runner.runs.get? i).any (!·.closed)

/-- Settles the finished run of the port. -/
def settle (s : Launcher) (portName : Text) : Launcher :=
  { s with runner := s.runner.closePrior portName, closing := s.closing ++ (s.prior portName).toList }

/-- `launch_run` with the id that `uuid4` draws; the parameters go to the script of the run. -/
def launchRun (b : Builtins) (s : Launcher) (runId : Text) (action : ActionScript) (l : Launch) (raw : Dict Text Tree) :
    Launcher × Except LaunchError (Dict Text Tree) :=
  if (s.runner.getActiveRun l.portName).isSome then (s, .error (.busy l.portName))
  else
    let s := s.settle l.portName
    match action.validateParams b raw with
    | .error e => (s, .error e)
    | .ok validated =>
        ({ s with
            runner := { s.runner with
              runs := s.runner.runs.set runId { launch := l }
              activeByPort := s.runner.activeByPort.set l.portName runId }
            params := s.params.set runId (action.redactParams validated)
            subscribers := s.subscribers.set runId []
            tasks := s.tasks.set runId validated }, .ok validated)

end Launcher

/-! ## Constraints -/

def ParamType.Holds : ParamType → Tree → Prop
  | str, .str _ | int, .int _ | float, .float _ | bool, .bool _ => True
  | _, _ => False

namespace ActionParam

variable (b : Builtins) (p : ActionParam)

/-- A value is what the declaration of its parameter says. -/
structure Satisfied (v : Tree) : Prop where
  given : p.required = true → v ≠ .none
  typed : v ≠ .none → p.type.Holds v
  chosen : p.widget ≠ .text → v ≠ .none → ∃ t ∈ p.choices, b.strOf v = .ok t

/-- The text of a value, once it has the type of the parameter, is one of the choices. -/
def Offers (v : Tree) : Prop := ∃ w, b.convert p.type v = .ok w ∧ ∃ t ∈ p.choices, b.strOf w = .ok t

/-- What the parameters that are given have to be for a declaration: no null for a required one, and a choice where there is a
list of them. -/
structure Fits (raw : Dict Text Tree) : Prop where
  given : p.required = true → raw.get? p.name ≠ some .none
  chosen : p.widget ≠ .text → ∀ v, (raw.get? p.name).getD p.default = v → v ≠ .none → p.Offers b v

end ActionParam

/-- The parameters of a script are those that its action declares, and each is what its declaration says. -/
structure ActionScript.Conforms (action : ActionScript) (b : Builtins) (validated : Dict Text Tree) : Prop where
  declared : ∀ name, action.declared.get? name = none → validated.get? name = none
  satisfied : ∀ name p, action.declared.get? name = some p → ∃ v, validated.get? name = some v ∧ p.Satisfied b v

namespace Launcher

variable (b : Builtins) (s : Launcher) (runId : Text) (action : ActionScript) (l : Launch) (raw : Dict Text Tree)

/-- A launch that is refused leaves everything as it is, and the script of one that is not gets what its action declares. -/
structure LaunchSafe : Prop where
  refused : ∀ t e, s.launchRun b runId action l raw = (t, .error e) → t = s
  launched : ∀ t validated, s.launchRun b runId action l raw = (t, .ok validated) →
    t.tasks.get? runId = some validated ∧ action.Conforms b validated

/-- The port is busy; or it has no finished run to settle, where the parameters are not valid, and otherwise the parameters fit
their declarations. -/
def LaunchFits : Prop :=
  (s.runner.getActiveRun l.portName).isSome = true ∨
    match action.validateParams b raw with
    | .error _ => s.runner.openFinishedByPort.get? l.portName = none
    | .ok _ => ∀ name p, action.declared.get? name = some p → p.Fits b raw

end Launcher

end OpenMux.Actions
