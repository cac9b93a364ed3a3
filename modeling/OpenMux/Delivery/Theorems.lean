import OpenMux.Delivery.Lemmas.Feed
import OpenMux.Lib.Run

/-!
# Delivery
-/

namespace OpenMux.Delivery

open Py Federation Origin Transition

namespace Feed

/-- In every state reached each client is served by the queue that it got when it attached, every queue has handed out and holds
what arrived for it in order without the oldest chunks that it gave up, each of them when the queue held 100 and counted once;
and a queue that never holds 100 when a chunk arrives gives up none. -/
theorem fan_out {kind : Kind} {maxReadWriteUsers : WriteMode} {scrollbackSize : Nat} {as : List Act} {s : Feed}
    (hrun : exec step (start kind maxReadWriteUsers scrollbackSize) as = some s) : s.Lossless ∧
      ∀ n, Along step (KeepsUp n) (start kind maxReadWriteUsers scrollbackSize) as → s.arrived n = s.handed n ++ s.items n := by
  constructor
  · exact (exec_invariant' (fun _ _ _ h hstep => inv_step h hstep) (inv_start kind maxReadWriteUsers scrollbackSize) hrun).lossless
  · intro n hkeeps
    have hzero : s.Inv ∧ s.missing n = 0 := by
      refine exec_invariant (I := fun s => s.Inv ∧ s.missing n = 0) ?_ ?_ hkeeps hrun
      · intro s a s' h hk hstep
        exact ⟨inv_step h.1 hstep, h.1.missing_keepsUp hk hstep h.2⟩
      · exact ⟨inv_start kind maxReadWriteUsers scrollbackSize, rfl⟩
    exact (hzero.1.kept n).complete hzero.2

/-- A client that attaches between two chunks, and attaches again. -/
theorem fan_out_attached : ∃ s, exec step (start .wrapper .one 0) [.data [1] none, .attach ⟨['c'], "u", .readOnly, 0⟩, .data [2] none,
      .attach ⟨['c'], "u", .readWrite, 1⟩, .data [3] none, .read 0] = some s ∧ s.handed 0 = [[2]] ∧ s.items 0 = [[3]] ∧
    s.Lossless ∧ s.arrived 0 = s.handed 0 ++ s.items 0 := by
  have hrun : exec step (start .wrapper .one 0) [.data [1] none, .attach ⟨['c'], "u", .readOnly, 0⟩, .data [2] none,
      .attach ⟨['c'], "u", .readWrite, 1⟩, .data [3] none, .read 0] = some _ := rfl
  obtain ⟨hlossless, hkeeps⟩ := fan_out hrun
  refine ⟨_, hrun, rfl, rfl, hlossless, hkeeps 0 (by decide)⟩

end Feed

end OpenMux.Delivery
