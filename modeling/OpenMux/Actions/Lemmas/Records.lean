import OpenMux.Actions.Release

/-!
# Records of the clients of runs

What the calls of the runs and the others do to the number of records that the client of a run has on a port.
-/

namespace OpenMux.Actions

open Py Origin Access

theorem actionClientId_inj {i j : Text} (h : actionClientId i = actionClientId j) : i = j := List.append_cancel_left h

theorem countP_updateClient {id x : Text} (f : Client → Client) (hf : ∀ c, c.clientId = id → (f c).clientId = id)
    (cs : List Client) : (Port.updateClient id f cs).countP (·.clientId = x) = cs.countP (·.clientId = x) := by
  induction cs with
  | nil => rfl
  | cons c cs ih =>
      rw [Port.updateClient]
      split
      · simp [List.countP_cons, hf c ‹_›, ‹c.clientId = id›]
      · simp [List.countP_cons, ih]

theorem countP_eraseP {α : Type} (p : α → Bool) (xs : List α) : (xs.eraseP p).countP p = xs.countP p - 1 := by
  induction xs with
  | nil => rfl
  | cons x xs ih =>
      by_cases h : p x = true
      · simp [List.eraseP_cons_of_pos h, List.countP_cons_of_pos h]
      · simp [List.eraseP_cons_of_neg h, List.countP_cons_of_neg h, ih]

theorem records_updatePort {s : Console} {name n i : Text} {f : Port → Port} {b : Nat}
    (hf : ∀ p, (f p).connectedClients.countP (·.clientId = actionClientId i) ≤
      max (p.connectedClients.countP (·.clientId = actionClientId i)) b) :
    records (s.updatePort name f) n i ≤ max (records s n i) b := by
  unfold records Console.updatePort
  cases hp : s.ports.get? name with
  | none => exact Nat.le_max_left _ _
  | some p =>
      by_cases hn : n = name
      · subst hn
        simpa [hp] using hf p
      · simp only [Dict.get?_set_ne _ _ hn]
        exact Nat.le_max_left _ _

theorem records_updatePort_le {s : Console} {name n i : Text} {f : Port → Port}
    (hf : ∀ p, (f p).connectedClients.countP (·.clientId = actionClientId i) ≤
      p.connectedClients.countP (·.clientId = actionClientId i)) : records (s.updatePort name f) n i ≤ records s n i := by
  rw [← Nat.max_zero (records s n i)]
  exact records_updatePort fun p => (hf p).trans (Nat.le_max_left _ _)

/-- A client that is added has at most one record more, and only where it has none. -/
theorem records_addClientToPort {s : Console} {name c n i : Text} {username : String} {mode : Mode} :
    records (s.addClientToPort name c username mode).1 n i ≤ max (records s n i) (if c = actionClientId i then 1 else 0) := by
  refine records_updatePort fun p => ?_
  unfold Port.addClient
  split
  · exact Nat.le_max_left _ _
  · split
    · exact (countP_updateClient _ (fun _ _ => rfl) _).le.trans (Nat.le_max_left _ _)
    · rename_i hany
      by_cases hc : c = actionClientId i
      · have hzero : p.connectedClients.countP (·.clientId = actionClientId i) = 0 := by
          refine List.countP_eq_zero.mpr fun d hd hdi => hany ?_
          exact List.any_eq_true.mpr ⟨d, hd, by simpa [hc] using hdi⟩
        simp [List.countP_append, hzero, hc]
      · simp [List.countP_append, hc]

theorem records_removeClientFromPort {s : Console} {name c n i : Text} :
    records (s.removeClientFromPort name c).1 n i ≤ records s n i :=
  records_updatePort_le fun _ => List.eraseP_sublist.countP_le

theorem records_promoteClient {s : Console} {name c n i : Text} :
    records (s.promoteClient name c).1 n i ≤ records s n i := by
  refine records_updatePort_le fun p => ?_
  unfold Port.promoteClient
  split
  · exact le_rfl
  · exact (countP_updateClient (fun c => { c with mode := .readWrite }) (fun _ h => h) _).le

theorem records_demoteClient {s : Console} {name c n i : Text} : records (s.demoteClient name c).1 n i ≤ records s n i :=
  records_updatePort_le fun _ => (countP_updateClient (fun c => { c with mode := .readOnly }) (fun _ h => h) _).le

/-- Only the run itself adds a record of its client. -/
theorem records_apply {s : Console} {i j n : Text} {l : Launch} {c : Call} :
    records (c.apply i l s).1 n j ≤ max (records s n j) (if i = j ∧ c = .add then 1 else 0) := by
  cases c with
  | add =>
      refine records_addClientToPort.trans ?_
      by_cases h : i = j
      · simp [h]
      · simp [h, mt actionClientId_inj h]
  | remove => exact records_removeClientFromPort.trans (Nat.le_max_left _ _)
  | demote => exact records_demoteClient.trans (Nat.le_max_left _ _)
  | promote => exact records_promoteClient.trans (Nat.le_max_left _ _)
  | attached | release | request | tell => exact Nat.le_max_left _ _

theorem records_apply_le {s : Console} {i j n : Text} {l : Launch} {c : Call} (h : ¬ (i = j ∧ c = .add)) :
    records (c.apply i l s).1 n j ≤ records s n j := by
  have hle := records_apply (s := s) (i := i) (j := j) (n := n) (l := l) (c := c)
  rwa [if_neg h, Nat.max_zero] at hle

/-- The one record of the client of a run goes. -/
theorem records_remove {s : Console} {i : Text} {l : Launch} (h : records s l.portName i ≤ 1) :
    records (Call.remove.apply i l s).1 l.portName i = 0 := by
  revert h
  unfold records Call.apply Console.removeClientFromPort Console.updatePort
  cases hp : s.ports.get? l.portName with
  | none => simp [hp]
  | some p =>
      intro h
      simp only [Dict.get?_set_self, Port.removeClient]
      have hcount := countP_eraseP (fun c : Client => decide (c.clientId = actionClientId i)) p.connectedClients
      simp only at h
      omega

theorem records_env {s s' : Console} {e : Env} {n i : Text} (h : e.apply s = some s') : records s' n i ≤ records s n i := by
  cases e <;> simp only [Env.apply, Option.some.injEq] at h
  case attach name c username mode =>
    split at h
    · cases h
    · rename_i hprefix
      cases h
      refine records_addClientToPort.trans (Nat.max_le.mpr ⟨le_rfl, ?_⟩)
      split
      · rename_i hc
        refine absurd ?_ hprefix
        rw [hc]
        exact List.isPrefixOf_iff_prefix.mpr (List.prefix_append _ _)
      · exact Nat.zero_le _
  case «open» name p =>
    subst h
    unfold records
    by_cases hn : n = name
    · subst hn; simp
    · simp [Dict.get?_set_ne _ _ hn]
  case close name =>
    subst h
    unfold records
    by_cases hn : n = name
    · subst hn; simp
    · simp [Dict.get?_pop_ne _ hn]
  all_goals subst h
  · exact records_removeClientFromPort
  · exact records_promoteClient
  · exact records_demoteClient
  · exact le_rfl
  · exact le_rfl

end OpenMux.Actions
