import OpenMux.Command.Lemmas.Idle
import OpenMux.Command.Lemmas.Streams
import OpenMux.Lib.Run

/-!
# Command ports
-/

namespace OpenMux.Command

open Transition

/-! ## Streams -/

/-- Where the streams are right, all that the child has written was handed over before the notice of its exit. -/
theorem told_of_faithful {p : CommandPort} {t : Child} (h : t.Faithful p) {sent : List UInt8} (htold : t.told = some sent) :
    sent = p.normalize (intercepted (t.seen ++ t.unread)) ∧ t.answers = (queries (t.seen ++ t.unread)).map response := by
  obtain ⟨hsent, hunread, hpending⟩ := h.told sent htold
  have hstream := h.stream
  rw [hpending, List.append_nil] at hstream
  rw [hunread, List.append_nil]
  exact ⟨hsent.trans hstream, h.answered⟩

/-- In any run of a child the output, the answers and the input are those of the whole streams, and all of the output comes before the
notice of the exit, exactly if no read and no batch ends in a query or between the two of `\r\n`, every query that is read is answered,
and nothing is left when the notice is handed over or all is over. -/
theorem streams_faithful (p : CommandPort) {t : Child} {run : List ChildAct} (h : exec (Child.step p) p.spawned run = some t) :
    t.Faithful p ↔ Along (Child.step p) (Child.Clean p) p.spawned run := by
  have hstart : p.spawned.Faithful p := faithful_iff.mpr ⟨streams_spawned p, ends_of_none rfl rfl⟩
  have hstep : ∀ s a u, Inv p s → Child.step p s a = some u → Inv p u ∧ (u.Faithful p ↔ s.Faithful p ∧ Child.Clean p s a) := by
    intro s a u hs hu
    have hspec := stepSpec a hs hu
    exact ⟨hspec.inv, hspec.faithful⟩
  rw [exec_iff_along hstep (inv_spawned p) h]
  exact and_iff_right hstart

def terminal : CommandPort := ⟨true, true⟩

def pipe : CommandPort := ⟨false, true⟩

/-- A line and a query, `ESC P + q TN ESC \`. -/
def prompt : List UInt8 := [0x24, 0x0D, 0x0A, 0x1B, 0x50, 0x2B, 0x71, 0x54, 0x4E, 0x1B, 0x5C]

/-- The line is read with its query and the last batch taken by the drain. -/
def lastLine : List ChildAct := [.batch false, .write prompt, .read 1024 [true], .chunk, .exit true, .tell, .batch false, .rest]

theorem streams_faithful_lastLine : ∃ t, exec (Child.step terminal) terminal.spawned lastLine = some t ∧ t.Faithful terminal := by
  have hclean : Along (Child.step terminal) (Child.Clean terminal) terminal.spawned lastLine := by decide
  obtain ⟨t, ht⟩ := Option.isSome_iff_exists.mp
    (show (exec (Child.step terminal) terminal.spawned lastLine).isSome = true by decide)
  exact ⟨t, ht, (streams_faithful terminal ht).mpr hclean⟩

/-- A pair in two reads becomes two lines; a query in two reads is text, and on a pipe it is removed without an answer; and the drain
looks for 0.2 s at a buffer that a slow read comes too late for. -/
theorem streams_faithful_fails :
    (∃ t, exec (Child.step pipe) pipe.spawned [.write [0x24, 0x0D, 0x0A], .read 2 [], .read 1 []] = some t ∧
      t.sent = [0x24, 0x0A, 0x0A] ∧ t.pending = [] ∧ pipe.normalize (intercepted t.seen) = [0x24, 0x0A]) ∧
    (∃ t, exec (Child.step terminal) terminal.spawned [.write prompt, .read 10 [], .read 1 []] = some t ∧
      t.pending = prompt ∧ terminal.normalize (intercepted t.seen) = [0x24, 0x0D, 0x0A] ∧ t.answers = []) ∧
    (∃ t, exec (Child.step pipe) pipe.spawned [.write prompt, .read 1024 []] = some t ∧
      t.answers = [] ∧ (queries t.seen).map response = [[0x1B, 0x50, 0x30, 0x2B, 0x72, 0x54, 0x4E, 0x1B, 0x5C]]) ∧
    ∃ t, exec (Child.step pipe) pipe.spawned ([.write [0x24], .exit true] ++ List.replicate 10 (.look true) ++
      [.tell, .read 1 []]) = some t ∧ t.told = some [] ∧ t.sent = [0x24] :=
  ⟨⟨_, rfl, by decide⟩, ⟨_, rfl, by decide⟩, ⟨_, rfl, by decide⟩, ⟨_, rfl, by decide⟩⟩

/-! ## The idle stop -/

/-- A client comes to a port that starts on demand and goes, and the timer stops the process. -/
def visit : List LifecycleAct := [.clients 1, .spawn, .spawned true, .watch, .clients 0, .fire 0, .stopped (some 0)]

end OpenMux.Command
