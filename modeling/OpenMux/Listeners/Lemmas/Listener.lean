import Mathlib
import OpenMux.Listeners.Listener

/-! What the starts and stops of single listeners come to. -/

namespace OpenMux.Listeners

open Py

namespace Conf

/-- The entry with the paths of the generated certificate. -/
def withCert (paths : CertPaths) (c : Conf) : Conf := { c with sslCert := .str paths.cert, sslKey := .str paths.key }

/-- What a start makes of an entry. -/
def Written (paths : CertPaths) (n c : Conf) : Prop := c = n ∨ n.enabled = true ∧ n.needsCert = true ∧ c = n.withCert paths

variable {paths : CertPaths} {n c d : Conf}

theorem Written.key (h : Written paths n c) : c.key = n.key := by
  rcases h with rfl | ⟨-, -, rfl⟩ <;> rfl

theorem Written.enabled (h : Written paths n c) : c.enabled = n.enabled := by
  rcases h with rfl | ⟨-, -, rfl⟩ <;> rfl

theorem enabled_of_eq (h : c.eq d = true) : c.enabled = d.enabled := by
  simp only [eq, Bool.and_eq_true, beq_iff_eq] at h
  simp only [h]

end Conf

/-! ## Configurations by key -/

/-- Every entry stands under its own key. -/
def Keyed (d : Dict Key Conf) : Prop := ∀ k c, d.get? k = some c → c.key = k

theorem byKey_append (cs : List Conf) (c : Conf) : byKey (cs ++ [c]) = (byKey cs).set c.key c := by
  simp [byKey, List.foldl_append]

theorem keyed_byKey (cs : List Conf) : Keyed (byKey cs) := by
  induction cs using List.reverseRecOn with
  | nil => exact fun k c h => by cases h
  | append_singleton cs c ih =>
      intro k c' h
      rw [byKey_append, Dict.get?_set] at h
      split at h
      · rename_i hk
        cases h
        exact hk.symm
      · exact ih k c' h

theorem mem_byKey {cs : List Conf} {k : Key} {c : Conf} (h : (byKey cs).get? k = some c) : c ∈ cs := by
  induction cs using List.reverseRecOn with
  | nil => cases h
  | append_singleton cs c' ih =>
      rw [byKey_append, Dict.get?_set] at h
      split at h
      · cases h
        simp
      · exact List.mem_append_left _ (ih h)

theorem byKey_eq_none {cs : List Conf} {k : Key} (h : ∀ c ∈ cs, c.key ≠ k) : (byKey cs).get? k = none := by
  cases hk : (byKey cs).get? k with
  | none => rfl
  | some c => exact absurd (keyed_byKey cs k c hk) (h c (mem_byKey hk))

/-- The entries of some keys, listed and keyed again. -/
theorem byKey_filterMap {d : Dict Key Conf} (hd : Keyed d) (ks : List Key) (k : Key) :
    (byKey (ks.filterMap d.get?)).get? k = if k ∈ ks then d.get? k else none := by
  induction ks using List.reverseRecOn with
  | nil => rfl
  | append_singleton ks k' ih =>
      rw [List.filterMap_append]
      cases hc : d.get? k' with
      | none =>
          have heq : List.filterMap d.get? [k'] = [] := by simp [hc]
          rw [heq, List.append_nil, ih]
          by_cases hk : k = k'
          · subst hk
            simp [hc]
          · simp [hk]
      | some c =>
          have heq : List.filterMap d.get? [k'] = [c] := by simp [hc]
          rw [heq, byKey_append, Dict.get?_set, hd k' c hc, ih]
          by_cases hk : k = k'
          · subst hk
            simp [hc]
          · simp [hk]

@[simp] theorem mem_sortKeys {k : Key} {ks : List Key} : k ∈ sortKeys ks ↔ k ∈ ks :=
  (List.perm_insertionSort _ ks).mem_iff

theorem nodup_sortKeys {ks : List Key} (h : ks.Nodup) : (sortKeys ks).Nodup := 
  (List.perm_insertionSort _ ks).nodup_iff.mpr h

namespace Adapter

variable {paths : CertPaths} {s s' : Adapter} {k k' : Key} {c : Conf} {a : Attempt}

/-- The servers and the addresses that they run at belong together. -/
structure Linked (s : Adapter) : Prop where
  iff : ∀ k n, s.servers.get? k = some n ↔ s.running.get? n = some k
  lt : ∀ n k, s.running.get? n = some k → n < s.made

theorem Linked.live_iff (h : s.Linked) : s.Live k ↔ (s.servers.get? k).isSome := by
  rw [Option.isSome_iff_exists]
  exact exists_congr fun n => ⟨And.left, fun hn => ⟨hn, (h.iff k n).mp hn⟩⟩

theorem Linked.stop (h : s.Linked) (k : Key) : (s.stopSingleListener k).Linked ∧
    (∀ k', (s.stopSingleListener k).servers.get? k' = if k' = k then none else s.servers.get? k') ∧
    (s.stopSingleListener k).listenersConf = s.listenersConf := by
  cases hn : s.servers.get? k with
  | none =>
      have heq : s.stopSingleListener k = s := by simp [stopSingleListener, hn]
      rw [heq]
      refine ⟨h, fun k' => ?_, rfl⟩
      split
      · rename_i hk
        rw [hk, hn]
      · rfl
  | some n =>
      have heq : s.stopSingleListener k = { s with servers := s.servers.pop k, running := s.running.pop n } := by
        simp [stopSingleListener, hn]
      rw [heq]
      refine ⟨⟨fun k' m => ?_, fun m k' hm => h.lt m k' (Dict.get?_of_get?_pop hm)⟩, fun k' => Dict.get?_pop _ _ _, rfl⟩
      rw [Dict.get?_pop, Dict.get?_pop]
      by_cases hk : k' = k
      · subst hk
        rw [if_pos rfl]
        by_cases hm : m = n
        · simp [hm]
        · rw [if_neg hm, ← h.iff, hn]
          simp [Ne.symm hm]
      · rw [if_neg hk]
        by_cases hm : m = n
        · subst hm
          rw [if_pos rfl, h.iff, (h.iff k m).mp hn]
          simp [Ne.symm hk]
        · rw [if_neg hm]
          exact h.iff k' m

theorem Linked.stopAll (h : s.Linked) (ks : List Key) : (ks.foldl stopSingleListener s).Linked ∧
    (∀ k, (ks.foldl stopSingleListener s).servers.get? k = if k ∈ ks then none else s.servers.get? k) ∧
    (ks.foldl stopSingleListener s).listenersConf = s.listenersConf := by
  induction ks generalizing s with
  | nil => exact ⟨h, fun k => rfl, rfl⟩
  | cons k ks ih =>
      obtain ⟨hlinked, hservers, hconf⟩ := h.stop k
      obtain ⟨hlinked', hservers', hconf'⟩ := ih hlinked
      refine ⟨hlinked', fun k' => ?_, hconf'.trans hconf⟩
      rw [List.foldl_cons, hservers', hservers]
      by_cases hk : k' = k <;> simp [hk]

/-! ## Starting one listener -/

theorem prepareListenerTls_written (hc : c.enabled = true) : Conf.Written paths c (prepareListenerTls paths a c).1 := by
  unfold prepareListenerTls
  by_cases hn : c.needsCert
  · simp only [hn, if_true, Bool.true_and]
    split
    · exact .inl rfl
    · split <;> exact .inr ⟨hc, hn, rfl⟩
  · simp only [hn, if_false, Bool.false_and, Bool.false_eq_true]
    split <;> exact .inl rfl

/-- A listener that comes up with a generated certificate has it in its entry. -/
theorem prepareListenerTls_needsCert (hn : c.needsCert = true) (hok : (prepareListenerTls paths a c).2 = true) :
    (prepareListenerTls paths a c).1 = c.withCert paths := by
  unfold prepareListenerTls at hok ⊢
  simp only [hn, if_true, Bool.true_and] at hok ⊢
  split at hok
  · cases hok
  · rename_i ha
    rw [if_neg ha]
    split <;> rfl

/-- The adapter with a server more. -/
def withServer (s : Adapter) (k : Key) : Adapter :=
  { s with servers := s.servers.set k s.made, running := s.running.set s.made k, made := s.made + 1 }

theorem startSingleListener_eq (s : Adapter) (k : Key) (a : Attempt) (c : Conf) : s.startSingleListener paths k a c =
    (if (prepareListenerTls paths a c).2 && a.bind then s.withServer k else s, (prepareListenerTls paths a c).1,
      (prepareListenerTls paths a c).2 && a.bind) := by
  unfold startSingleListener
  dsimp only
  split
  · rename_i h
    rw [h]
    rfl
  · rename_i h
    rw [eq_false_of_ne_true h]

theorem Linked.withServer (h : s.Linked) (hk : s.servers.get? k = none) : (s.withServer k).Linked := by
  have hfresh : s.running.get? s.made = none := by
    cases hr : s.running.get? s.made with
    | none => rfl
    | some k' => exact absurd (h.lt _ _ hr) (lt_irrefl _)
  constructor
  · intro k' n
    simp only [Adapter.withServer, Dict.get?_set]
    by_cases hk' : k' = k
    · subst hk'
      rw [if_pos rfl]
      by_cases hn : n = s.made
      · simp [hn]
      · rw [if_neg hn, ← h.iff, hk]
        simp [Ne.symm hn]
    · rw [if_neg hk']
      by_cases hn : n = s.made
      · subst hn
        rw [if_pos rfl, h.iff, hfresh]
        simp [Ne.symm hk']
      · rw [if_neg hn]
        exact h.iff k' n
  · intro n k' hn
    simp only [Adapter.withServer, Dict.get?_set] at hn ⊢
    split at hn
    · omega
    · exact (h.lt n k' hn).trans (Nat.lt_succ_self _)

end Adapter

end OpenMux.Listeners
