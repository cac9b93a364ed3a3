import OpenMux.Listeners.Lemmas.Listener

/-! The listeners after the start and after every reload. -/

namespace OpenMux.Listeners.Adapter

open Py

variable {paths : CertPaths} {s s' : Adapter} {k : Key} {c : Conf} {new : Dict Key Conf}

def up (s : Adapter) (k : Key) : Bool := (s.servers.get? k).isSome

/-- The entry in force and the entry as it was configured. -/
def Matching (paths : CertPaths) (old new : Option Conf) : Prop :=
  old = none ∧ new = none ∨ ∃ c n, old = some c ∧ new = some n ∧ Conf.Written paths n c

structure Inv (paths : CertPaths) (new : Dict Key Conf) (s : Adapter) : Prop where
  linked : s.Linked
  keyed : Keyed new
  confs : ∀ k, Matching paths ((byKey s.listenersConf).get? k) (new.get? k)
  /-- Only enabled listeners are up. -/
  enabled : ∀ k, s.up k = true → ∃ n, new.get? k = some n ∧ n.enabled = true

/-! ## The start -/

theorem up_withServer {k' : Key} : (s.withServer k).up k' = true ↔ k' = k ∨ s.up k' = true := by
  simp only [up, withServer, Dict.get?_set]
  by_cases hk : k' = k <;> simp [hk]

theorem startListener_eq (s : Adapter) (e : Conf × Attempt) : s.startListener paths e =
    { (if comesUp paths e then s.withServer e.1.key else s) with
      listenersConf := s.listenersConf ++ [if e.1.enabled then (prepareListenerTls paths e.2 e.1).1 else e.1] } := by
  unfold startListener
  split
  case isTrue he =>
    rw [startSingleListener_eq, comesUp, he, Bool.true_and]
    dsimp only
    split <;> rfl
  case isFalse he =>
    rw [comesUp, eq_false_of_ne_true he, Bool.false_and, Bool.false_and]
    rfl

theorem Inv.startListener (h : s.Inv paths new) {e : Conf × Attempt} (hdown : s.up e.1.key = false) :
    (s.startListener paths e).Inv paths (new.set e.1.key e.1) ∧
      ∀ k, (s.startListener paths e).up k = true ↔ k = e.1.key ∧ comesUp paths e = true ∨ s.up k = true := by
  have hnone : s.servers.get? e.1.key = none := by simpa [up] using hdown
  have hwritten : Conf.Written paths e.1 (if e.1.enabled then (prepareListenerTls paths e.2 e.1).1 else e.1) := by
    split
    · exact prepareListenerTls_written ‹_›
    · exact .inl rfl
  have hup : ∀ k, (s.startListener paths e).up k = true ↔ k = e.1.key ∧ comesUp paths e = true ∨ s.up k = true := by
    intro k
    rw [startListener_eq]
    by_cases hc : comesUp paths e
    · simp only [hc, if_true, and_true]
      exact up_withServer
    · simp only [hc, if_false, and_false, false_or, Bool.false_eq_true]
      rfl
  refine ⟨⟨?_, ?_, ?_, ?_⟩, hup⟩
  · rw [startListener_eq]
    split
    · exact ⟨(h.linked.withServer hnone).iff, (h.linked.withServer hnone).lt⟩
    · exact ⟨h.linked.iff, h.linked.lt⟩
  · intro k c hc
    rw [Dict.get?_set] at hc
    split at hc
    · cases hc
      exact ‹k = _›.symm
    · exact h.keyed k c hc
  · intro k
    rw [startListener_eq]
    simp only
    rw [byKey_append, hwritten.key, Dict.get?_set, Dict.get?_set]
    split
    · exact .inr ⟨_, _, rfl, rfl, hwritten⟩
    · exact h.confs k
  · intro k hk
    rw [Dict.get?_set]
    split
    case isTrue heq =>
      rcases (hup k).mp hk with ⟨-, hc⟩ | hs
      · simp only [comesUp, Bool.and_eq_true] at hc
        exact ⟨_, rfl, hc.1.1⟩
      · rw [heq, hdown] at hs
        cases hs
    case isFalse hne =>
      rcases (hup k).mp hk with ⟨heq, -⟩ | hs
      · exact absurd heq hne
      · exact h.enabled k hs

theorem inv_foldl_start {entries : List (Conf × Attempt)} (hdistinct : Distinct paths entries) {s : Adapter}
    (h : s.Inv paths new) (hdown : ∀ e ∈ entries, s.up e.1.key = false) :
    ∃ new, (entries.foldl (Adapter.startListener paths) s).Inv paths new := by
  induction entries generalizing s new with
  | nil => exact ⟨new, h⟩
  | cons e entries ih =>
      obtain ⟨hlater, hrest⟩ := List.pairwise_cons.mp hdistinct
      obtain ⟨hinv, hup⟩ := h.startListener (hdown e List.mem_cons_self)
      apply ih hrest hinv
      intro e' he'
      rw [← Bool.not_eq_true, hup]
      rintro (⟨heq, hc⟩ | hs)
      · exact hlater e' he' hc heq
      · rw [hdown e' (List.mem_cons_of_mem e he')] at hs
        cases hs

theorem inv_start {entries : List (Conf × Attempt)} (h : Distinct paths entries) :
    ∃ new, (start paths entries).Inv paths new := by
  have hempty : ({} : Adapter).Inv paths ∅ := by
    constructor
    · exact ⟨fun k n => by simp, fun n k h => by cases h⟩
    · exact fun k c h => by cases h
    · exact fun k => .inl ⟨rfl, rfl⟩
    · exact fun k h => by cases h
  exact inv_foldl_start h hempty fun _ _ => rfl

/-! ## The listeners that are added or updated -/

/-- What the loop over some listeners does. -/
structure Applied (paths : CertPaths) (ks : List Key) (acc acc' : Adapter × Dict Key Conf × List Text) : Prop where
  linked : acc'.1.Linked
  up : ∀ k, acc'.1.up k = true → acc.1.up k = true ∨ k ∈ ks ∧ ∃ c, acc.2.1.get? k = some c ∧ c.enabled = true
  stays : ∀ k n, acc.1.servers.get? k = some n → acc'.1.servers.get? k = some n
  live : ∀ k ∈ ks, ∀ c, acc.2.1.get? k = some c → c.enabled = true → acc'.1.up k = true ∨ name k ∈ acc'.2.2
  failed : ∀ t ∈ acc.2.2, t ∈ acc'.2.2
  same : ∀ k, k ∉ ks → acc'.2.1.get? k = acc.2.1.get? k
  written : ∀ k, acc.2.1.get? k = none ∧ acc'.2.1.get? k = none ∨
    ∃ n c, acc.2.1.get? k = some n ∧ acc'.2.1.get? k = some c ∧ Conf.Written paths n c

theorem applied_nil {acc : Adapter × Dict Key Conf × List Text} (h : acc.1.Linked) : Applied paths [] acc acc where
  linked := h
  up := fun _ => .inl
  stays := fun _ _ h => h
  live := fun _ hk => by cases hk
  failed := fun _ h => h
  same := fun _ _ => rfl
  written := fun k => by
    cases acc.2.1.get? k with
    | none => exact .inl ⟨rfl, rfl⟩
    | some c => exact .inr ⟨c, c, rfl, rfl, .inl rfl⟩

/-- One turn of the loop, for a listener that is down. -/
theorem applied_single (attempt : Key → Attempt) {acc : Adapter × Dict Key Conf × List Text} (h : acc.1.Linked)
    (hdown : acc.1.up k = false) : Applied paths [k] acc (applyListener paths attempt acc k) := by
  obtain ⟨s, confs, failed⟩ := acc
  have hnone : s.servers.get? k = none := by simpa [up] using hdown
  cases hc : confs.get? k with
  | none =>
      have heq : applyListener paths attempt (s, confs, failed) k = (s, confs, failed) := by simp [applyListener, hc]
      rw [heq]
      refine { applied_nil h with up := fun _ => .inl, live := ?_, same := fun _ _ => rfl }
      intro k' hk c hc'
      rw [List.mem_singleton.mp hk, hc] at hc'
      cases hc'
  | some c =>
      by_cases hen : c.enabled
      · have heq : applyListener paths attempt (s, confs, failed) k =
            (if (prepareListenerTls paths (attempt k) c).2 && (attempt k).bind then s.withServer k else s,
              confs.set k (prepareListenerTls paths (attempt k) c).1,
              if (prepareListenerTls paths (attempt k) c).2 && (attempt k).bind then failed else failed ++ [name k]) := by
          simp [applyListener, hc, hen, startSingleListener_eq]
        rw [heq]
        constructor
        · dsimp only
          split
          · exact h.withServer hnone
          · exact h
        · intro k' hup
          dsimp only at hup
          split at hup
          · rcases up_withServer.mp hup with rfl | hup
            · exact .inr ⟨by simp, c, hc, hen⟩
            · exact .inl hup
          · exact .inl hup
        · intro k' n hn
          dsimp only
          split
          · have hne : k' ≠ k := by
              rintro rfl
              rw [hnone] at hn
              cases hn
            exact (Dict.get?_set_ne _ _ hne).trans hn
          · exact hn
        · intro k' hk' _ _ _
          rw [List.mem_singleton.mp hk']
          dsimp only
          split
          · exact .inl (up_withServer.mpr (.inl rfl))
          · exact .inr (by simp)
        · intro t ht
          dsimp only
          split
          · exact ht
          · exact List.mem_append_left _ ht
        · exact fun k' hk' => Dict.get?_set_ne _ _ (by simpa using hk')
        · intro k'
          by_cases hk : k' = k
          · subst hk
            exact .inr ⟨c, _, hc, Dict.get?_set_self _ _ _, prepareListenerTls_written hen⟩
          · dsimp only
            rw [Dict.get?_set_ne _ _ hk]
            cases confs.get? k' with
            | none => exact .inl ⟨rfl, rfl⟩
            | some d => exact .inr ⟨d, d, rfl, rfl, .inl rfl⟩
      · have heq : applyListener paths attempt (s, confs, failed) k = (s, confs, failed) := by simp [applyListener, hc, hen]
        rw [heq]
        refine { applied_nil h with up := fun _ => .inl, live := ?_, same := fun _ _ => rfl }
        intro k' hk c' hc' hen'
        rw [List.mem_singleton.mp hk, hc] at hc'
        cases hc'
        exact absurd hen' hen

theorem applied_foldl (attempt : Key → Attempt) {ks : List Key} (hn : ks.Nodup) {acc : Adapter × Dict Key Conf × List Text}
    (h : acc.1.Linked) (hdown : ∀ k ∈ ks, acc.1.up k = false) :
    Applied paths ks acc (ks.foldl (applyListener paths attempt) acc) := by
  induction ks generalizing acc with
  | nil => exact applied_nil h
  | cons k ks ih =>
      obtain ⟨hnot, hrest⟩ := List.nodup_cons.mp hn
      have h₁ : Applied paths [k] acc _ := applied_single attempt h (hdown k List.mem_cons_self)
      have hdown' : ∀ k' ∈ ks, (applyListener paths attempt acc k).1.up k' = false := by
        intro k' hk'
        rw [← Bool.not_eq_true]
        intro hup
        rcases h₁.up k' hup with hs | ⟨heq, -⟩
        · rw [hdown k' (List.mem_cons_of_mem k hk')] at hs
          cases hs
        · exact hnot (List.mem_singleton.mp heq ▸ hk')
      have h₂ := ih hrest h₁.linked hdown'
      rw [List.foldl_cons]
      constructor
      · exact h₂.linked
      · intro k' hup
        rcases h₂.up k' hup with hup | ⟨hk', c, hc, hen⟩
        · rcases h₁.up k' hup with hup | ⟨hk', hc⟩
          · exact .inl hup
          · exact .inr ⟨List.mem_singleton.mp hk' ▸ List.mem_cons_self, hc⟩
        · have hne : k' ∉ [k] := fun h => hnot (List.mem_singleton.mp h ▸ hk')
          exact .inr ⟨List.mem_cons_of_mem k hk', c, (h₁.same k' hne) ▸ hc, hen⟩
      · exact fun k' n hn => h₂.stays k' n (h₁.stays k' n hn)
      · intro k' hk' c hc hen
        rcases List.mem_cons.mp hk' with rfl | hk'
        · rcases h₁.live k' (by simp) c hc hen with hup | hf
          · obtain ⟨n, hn⟩ := Option.isSome_iff_exists.mp hup
            exact .inl (Option.isSome_iff_exists.mpr ⟨n, h₂.stays k' n hn⟩)
          · exact .inr (h₂.failed _ hf)
        · have hne : k' ∉ [k] := fun h => hnot (List.mem_singleton.mp h ▸ hk')
          exact h₂.live k' hk' c ((h₁.same k' hne).trans hc) hen
      · exact fun t ht => h₂.failed t (h₁.failed t ht)
      · intro k' hk'
        rw [List.mem_cons, not_or] at hk'
        exact (h₂.same k' hk'.2).trans (h₁.same k' (by simpa using hk'.1))
      · intro k'
        by_cases hk' : k' = k
        · subst hk'
          rw [h₂.same k' hnot]
          exact h₁.written k'
        · rw [← h₁.same k' (by simpa using hk')]
          exact h₂.written k'

/-! ## Reloads -/

section

variable (old new : Dict Key Conf)

def removedKeys : List Key := sortKeys (old.keys.filter fun k => (new.get? k).isNone)

def addedKeys : List Key := sortKeys (new.keys.filter fun k => (old.get? k).isNone)

def commonKeys : List Key := sortKeys (old.keys.filter fun k => (new.get? k).isSome)

def updatedKeys : List Key := (commonKeys old new).filter (changed old new)

variable {old new}

theorem mem_removedKeys : k ∈ removedKeys old new ↔ (old.get? k).isSome ∧ new.get? k = none := by
  simp [removedKeys, Dict.mem_keys, Option.isSome_iff_exists]

theorem mem_addedKeys : k ∈ addedKeys old new ↔ (new.get? k).isSome ∧ old.get? k = none := by
  simp [addedKeys, Dict.mem_keys, Option.isSome_iff_exists]

theorem mem_commonKeys : k ∈ commonKeys old new ↔ (old.get? k).isSome ∧ (new.get? k).isSome := by
  simp [commonKeys, Dict.mem_keys, Option.isSome_iff_exists]

theorem mem_updatedKeys : k ∈ updatedKeys old new ↔ ∃ c d, old.get? k = some c ∧ new.get? k = some d ∧ c.eq d = false := by
  simp only [updatedKeys, List.mem_filter, mem_commonKeys, changed]
  cases old.get? k with
  | none => simp
  | some c => cases new.get? k <;> simp

theorem nodup_touched (old new : Dict Key Conf) : (addedKeys old new ++ updatedKeys old new).Nodup := by
  rw [List.nodup_append]
  refine ⟨nodup_sortKeys (new.nodup.filter _), (nodup_sortKeys (old.nodup.filter _)).filter _, ?_⟩
  rintro k hk k' hk' rfl
  obtain ⟨c, d, hc, -⟩ := mem_updatedKeys.mp hk'
  rw [(mem_addedKeys.mp hk).2] at hc
  cases hc

end

/-- The adapter without the listeners that are removed or updated. -/
def stopTouched (s : Adapter) (new : Dict Key Conf) : Adapter :=
  (removedKeys (byKey s.listenersConf) new ++ updatedKeys (byKey s.listenersConf) new).foldl stopSingleListener s

/-- The loop over the listeners that are added or updated. -/
def startTouched (paths : CertPaths) (s : Adapter) (attempt : Key → Attempt) (new : Dict Key Conf) :
    Adapter × Dict Key Conf × List Text :=
  (addedKeys (byKey s.listenersConf) new ++ updatedKeys (byKey s.listenersConf) new).foldl (applyListener paths attempt)
    (s.stopTouched new, new, [])

theorem reconcileListeners_eq (paths : CertPaths) (s : Adapter) (attempt : Key → Attempt) (new : Dict Key Conf) :
    s.reconcileListeners paths attempt new = { (s.startTouched paths attempt new).1 with
      listenersConf := (sortKeys new.keys).filterMap (s.startTouched paths attempt new).2.1.get?
      summary := {
        added := (addedKeys (byKey s.listenersConf) new).map name
        removed := (removedKeys (byKey s.listenersConf) new).map name
        updated := (updatedKeys (byKey s.listenersConf) new).map name
        unchanged := ((commonKeys (byKey s.listenersConf) new).filter
          fun k => !(updatedKeys (byKey s.listenersConf) new).contains k).map name
        startFailed := (s.startTouched paths attempt new).2.2 } } := rfl

/-- The entry that is kept in force, and its new form. -/
theorem untouched {old new : Dict Key Conf} {c : Conf} (hc : old.get? k = some c) (hr : k ∉ removedKeys old new)
    (hu : k ∉ updatedKeys old new) : ∃ d, new.get? k = some d ∧ c.eq d = true := by
  cases hd : new.get? k with
  | none => exact absurd (mem_removedKeys.mpr ⟨by rw [hc]; rfl, hd⟩) hr
  | some d =>
      refine ⟨d, rfl, ?_⟩
      rw [← Bool.not_eq_false]
      exact fun heq => hu (mem_updatedKeys.mpr ⟨c, d, hc, hd, heq⟩)

theorem Inv.get?_old (h : s.Inv paths new) {n : Conf} (hn : new.get? k = some n) :
    ∃ c, (byKey s.listenersConf).get? k = some c ∧ Conf.Written paths n c := by
  rcases h.confs k with ⟨-, hnone⟩ | ⟨c, n', hc, hn', hw⟩
  · rw [hn] at hnone
    cases hnone
  · cases hn.symm.trans hn'
    exact ⟨c, hc, hw⟩

theorem Inv.reconcile {prev : Dict Key Conf} (h : s.Inv paths prev) (attempt : Key → Attempt) (hnew : Keyed new) :
    (s.reconcileListeners paths attempt new).Inv paths new ∧
      ((∀ k c d, (byKey s.listenersConf).get? k = some c → new.get? k = some d → c.eq d = true → d.enabled = true →
        s.up k = true) → (s.reconcileListeners paths attempt new).Served new) := by
  set old := byKey s.listenersConf with hold
  obtain ⟨hlinked, hservers, -⟩ := h.linked.stopAll (removedKeys old new ++ updatedKeys old new)
  set stopped := (removedKeys old new ++ updatedKeys old new).foldl stopSingleListener s
  have hdown : ∀ k ∈ addedKeys old new ++ updatedKeys old new, stopped.up k = false := by
    intro k hk
    rw [up, hservers]
    rcases List.mem_append.mp hk with hk | hk
    · have hup : s.up k = false := by
        rw [← Bool.not_eq_true]
        intro hup
        obtain ⟨n, hn, -⟩ := h.enabled k hup
        obtain ⟨c, hc, -⟩ := h.get?_old hn
        rw [← hold, (mem_addedKeys.mp hk).2] at hc
        cases hc
      split
      · rfl
      · exact hup
    · rw [if_pos (List.mem_append_right _ hk)]
      rfl
  have happlied : Applied paths _ (stopped, new, []) (s.startTouched paths attempt new) :=
    applied_foldl attempt (nodup_touched old new) hlinked hdown
  have hs' := reconcileListeners_eq paths s attempt new
  set acc := s.startTouched paths attempt new
  -- a listener that is up and was not touched was up before, under an equal entry
  have huntouched : ∀ k, stopped.up k = true → s.up k = true ∧ ∃ d, new.get? k = some d ∧ d.enabled = true := by
    intro k hk
    rw [up, hservers] at hk
    split at hk
    · cases hk
    rename_i hnot
    rw [List.mem_append, not_or] at hnot
    obtain ⟨n, hn, hen⟩ := h.enabled k hk
    obtain ⟨c, hc, hw⟩ := h.get?_old hn
    obtain ⟨d, hd, heq⟩ := untouched hc hnot.1 hnot.2
    exact ⟨hk, d, hd, by rw [← Conf.enabled_of_eq heq, hw.enabled, hen]⟩
  have hinv : (s.reconcileListeners paths attempt new).Inv paths new := by
    rw [hs']
    constructor
    · exact ⟨happlied.linked.iff, happlied.linked.lt⟩
    · exact hnew
    · intro k
      have hkeyed : Keyed acc.2.1 := by
        intro k c hc
        rcases happlied.written k with ⟨-, hnone⟩ | ⟨n, c', hn, hc', hw⟩
        · rw [hc] at hnone
          cases hnone
        · cases hc.symm.trans hc'
          rw [hw.key, hnew k n hn]
      simp only
      rw [byKey_filterMap hkeyed]
      rcases happlied.written k with ⟨hn, hc⟩ | ⟨n, c, hn, hc, hw⟩
      · left
        refine ⟨?_, hn⟩
        split
        · exact hc
        · rfl
      · have hmem : k ∈ sortKeys new.keys := mem_sortKeys.mpr (Dict.mem_keys.mpr ⟨n, hn⟩)
        rw [if_pos hmem]
        exact .inr ⟨c, n, hc, hn, hw⟩
    · intro k hk
      rcases happlied.up k hk with hk | ⟨-, c, hc⟩
      · exact (huntouched k hk).2
      · exact ⟨c, hc⟩
  refine ⟨hinv, fun hretried => ⟨fun k c hc hen => ?_, fun n k hn => ?_⟩⟩
  · rw [hinv.linked.live_iff]
    by_cases hk : k ∈ addedKeys old new ++ updatedKeys old new
    · rw [hs']
      exact happlied.live k hk c hc hen
    · left
      rw [List.mem_append, not_or] at hk
      obtain ⟨c', hc'⟩ : ∃ c', old.get? k = some c' := by
        rw [← Option.isSome_iff_exists, ← Option.ne_none_iff_isSome]
        exact fun hnone => hk.1 (mem_addedKeys.mpr ⟨by rw [hc]; rfl, hnone⟩)
      have hr : k ∉ removedKeys old new := by
        intro hr
        rw [(mem_removedKeys.mp hr).2] at hc
        cases hc
      obtain ⟨d, hd, heq⟩ := untouched hc' hr hk.2
      cases hc.symm.trans hd
      obtain ⟨n, hn⟩ := Option.isSome_iff_exists.mp (hretried k c' c hc' hc heq hen)
      have hstay : stopped.servers.get? k = some n := by
        rw [hservers, if_neg (by rw [List.mem_append, not_or]; exact ⟨hr, hk.2⟩), hn]
      rw [hs']
      exact Option.isSome_iff_exists.mpr ⟨n, happlied.stays k n hstay⟩
  · exact hinv.enabled k (Option.isSome_iff_exists.mpr ⟨n, (hinv.linked.iff k n).mpr hn⟩)

/-- Nothing is stopped or started for an equal configuration, unless a certificate was written into it. -/
theorem Inv.idempotent (h : s.Inv paths new) (hcert : ∀ k c, new.get? k = some c → c.enabled = true → c.needsCert = false) :
    s.Idempotent paths new := by
  intro r cs hcs hsame _
  have hold : ∀ k, (byKey s.listenersConf).get? k = new.get? k := by
    intro k
    rcases h.confs k with ⟨hc, hn⟩ | ⟨c, n, hc, hn, rfl | ⟨hen, hneeds, -⟩⟩
    · rw [hc, hn]
    · rw [hc, hn]
    · rw [hcert k n hn hen] at hneeds
      cases hneeds
  have hiff : ∀ k, ((byKey s.listenersConf).get? k).isSome ↔ ((byKey cs).get? k).isSome := by
    intro k
    rw [hold]
    rcases hsame k with ⟨h₁, h₂⟩ | ⟨c, c', h₁, h₂, -⟩ <;> simp [h₁, h₂]
  have hremoved : removedKeys (byKey s.listenersConf) (byKey cs) = [] := by
    rw [List.eq_nil_iff_forall_not_mem]
    intro k hk
    obtain ⟨hsome, hnone⟩ := mem_removedKeys.mp hk
    rw [hiff, hnone] at hsome
    cases hsome
  have hadded : addedKeys (byKey s.listenersConf) (byKey cs) = [] := by
    rw [List.eq_nil_iff_forall_not_mem]
    intro k hk
    obtain ⟨hsome, hnone⟩ := mem_addedKeys.mp hk
    rw [← hiff, hnone] at hsome
    cases hsome
  have hupdated : updatedKeys (byKey s.listenersConf) (byKey cs) = [] := by
    rw [List.eq_nil_iff_forall_not_mem]
    intro k hk
    obtain ⟨c, d, hc, hd, heq⟩ := mem_updatedKeys.mp hk
    rw [hold] at hc
    rcases hsame k with ⟨hnone, -⟩ | ⟨c', d', hc', hd', hsame⟩
    · rw [hc] at hnone
      cases hnone
    · cases hc.symm.trans hc'
      cases hd.symm.trans hd'
      rw [heq] at hsame
      cases hsame
  have hcommon : commonKeys (byKey s.listenersConf) (byKey cs) = sortKeys (byKey s.listenersConf).keys := by
    rw [commonKeys, List.filter_eq_self.mpr]
    intro k hk
    rw [← hiff, Option.isSome_iff_exists]
    exact Dict.mem_keys.mp hk
  have hs' : s.reconcileListeners paths r.attempt (byKey cs) = { s with
      listenersConf := (sortKeys (byKey cs).keys).filterMap (byKey cs).get?
      summary := { unchanged := (sortKeys (byKey s.listenersConf).keys).map name } } := by
    rw [reconcileListeners_eq]
    simp [startTouched, stopTouched, hremoved, hadded, hupdated, hcommon]
  refine ⟨_, by rw [step, hcs, Option.map_some], ?_⟩
  rw [hs']
  refine ⟨rfl, rfl, rfl, fun k hk => ?_⟩
  rw [← hold, Option.isSome_iff_exists] at hk
  exact List.mem_map_of_mem (mem_sortKeys.mpr (Dict.mem_keys.mpr hk))

end OpenMux.Listeners.Adapter
