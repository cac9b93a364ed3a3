import OpenMux.Initiator.Lemmas.Reload

/-!
# Running sets

Every reload, whether it ends with a summary or raises, leaves ports that were built from their entries, under their names,
with numbers of their own.
-/

namespace OpenMux.Initiator

open Py

variable {B : Builtins}

namespace Adapter

variable {s s' : Adapter} {new : Dict Key Mapping} {n : Key}

/-- The name that a new entry is listed under is the text of its own. -/
def Named (B : Builtins) (n : Key) (cfg : Mapping) : Prop := ∀ t, n = .str t → B.str (Mapping.get "name".toList cfg) = some t

theorem Coherent.congr (h : s.Coherent B) (hports : s'.ports = s.ports) (hreg : s'.registry = s.registry)
    (hoid : s'.nextOid = s.nextOid) : s'.Coherent B where
  built := by rw [hports]; exact h.built
  named := by rw [hports]; exact h.named
  fresh := by rw [hports, hoid]; exact h.fresh
  freshWrapper := by rw [hreg, hoid]; exact h.freshWrapper

theorem Coherent.createPort (h : s.Coherent B) (f : Steps) {cfg : Mapping} (hn : Named B n cfg) :
    (s.createPort B f n cfg).1.Coherent B := by
  rcases createPort_spec (B := B) s f n cfg with ⟨-, heq⟩ | ⟨p, hp, -, hoid, hports, hreg⟩
  · rw [heq]; exact h
  · have hinit : Port.init B cfg = .ok p := by
      unfold started at hp
      split at hp
      · cases hp
      · split at hp
        · cases hp; assumption
        · cases hp
    have hconfig := (Port.material_init B hinit).1
    constructor
    · intro k r hr
      rw [hports] at hr
      split at hr
      · cases hr
        exact ⟨p, by rw [hconfig]; exact hinit, rfl⟩
      · exact h.built k r hr
    · intro t r hr
      rw [hports] at hr
      split at hr
      · cases hr
        rw [hconfig]
        exact hn t (Eq.symm ‹_›)
      · exact h.named t r hr
    · intro k r hr
      rw [hports] at hr
      rw [hoid]
      split at hr
      · cases hr
        exact Nat.lt_succ_self _
      · exact Nat.lt_succ_of_lt (h.fresh k r hr)
    · intro k w hw
      rw [hreg] at hw
      rw [hoid]
      split at hw
      · cases hw
        exact Nat.lt_succ_self _
      · exact Nat.lt_succ_of_lt (h.freshWrapper k w hw)

theorem Coherent.destroyPort (h : s.Coherent B) (n : Key) : (s.destroyPort n).Coherent B where
  built k r hr := by
    rw [(s.destroyPort_spec n k).1] at hr
    split at hr
    · cases hr
    · exact h.built k r hr
  named t r hr := by
    rw [(s.destroyPort_spec n _).1] at hr
    split at hr
    · cases hr
    · exact h.named t r hr
  fresh k r hr := by
    rw [(s.destroyPort_spec n k).1] at hr
    rw [destroyPort_nextOid]
    split at hr
    · cases hr
    · exact h.fresh k r hr
  freshWrapper k w hw := by
    rw [(s.destroyPort_spec n k).2] at hw
    rw [destroyPort_nextOid]
    split at hw
    · cases hw
    · exact h.freshWrapper k w hw

/-- An update in place of a running port. -/
theorem Coherent.inPlace (h : s.Coherent B) {r : Running} (hr : s.ports.get? n = some r) (cfg : Mapping) :
    ({ s with ports := s.ports.set n { r with port := r.port.inplaceUpdate B cfg } } : Adapter).Coherent B where
  built k r' hr' := by
    rw [Dict.get?_set] at hr'
    split at hr'
    · cases hr'
      obtain ⟨p, hp, hm⟩ := h.built n r hr
      exact ⟨p, by rw [Port.config_inplaceUpdate]; exact hp, by rw [Port.material_inplaceUpdate]; exact hm⟩
    · exact h.built k r' hr'
  named t r' hr' := by
    rw [Dict.get?_set] at hr'
    split at hr'
    · rename_i ht
      cases hr'
      rw [Port.config_inplaceUpdate]
      exact h.named t r (by rw [ht]; exact hr)
    · exact h.named t r' hr'
  fresh k r' hr' := by
    rw [Dict.get?_set] at hr'
    split at hr'
    · cases hr'
      exact h.fresh n r hr
    · exact h.fresh k r' hr'
  freshWrapper := h.freshWrapper

theorem Coherent.reconcileCommon (h : s.Coherent B) (new : Dict Key Mapping) (common : List Key) : (reconcileCommon B new common s).1.Coherent B := by
  induction common generalizing s with
  | nil => exact h
  | cons n common ih =>
      rw [Adapter.reconcileCommon]
      split
      · exact h
      · split
        · exact h
        · cases hr : s.ports.get? n with
          | none => exact ih h
          | some r =>
              dsimp only
              split
              · exact ih (h.inPlace hr _)
              · exact ih h

theorem Coherent.reconcileDestroy (h : s.Coherent B) (names : List Key) : (reconcileDestroy names s).Coherent B := by
  unfold Adapter.reconcileDestroy
  induction names generalizing s with
  | nil => exact h
  | cons n names ih => exact ih (h.destroyPort n)

theorem Coherent.reconcileRebuild (h : s.Coherent B) (f : Key → Steps) (hnew : ∀ k e, new.get? k = some e → Named B k e)
    (names : List Key) (refused : Dict Key Refusal) : (reconcileRebuild B f new names s refused).1.Coherent B := by
  induction names generalizing s refused with
  | nil => exact h
  | cons n names ih =>
      rw [Adapter.reconcileRebuild]
      cases he : new.get? n with
      | none => exact ih h refused
      | some e =>
          dsimp only
          have hc := h.createPort (f n) (hnew n e he)
          rcases hout : s.createPort B (f n) n e with ⟨s₁, _ | p⟩
          · rw [hout] at hc
            have hg : (s₁.recordConfigGap n .notStarted false).Coherent B := hc.congr rfl rfl rfl
            exact ih hg _
          · rw [hout] at hc
            exact ih hc _

theorem Coherent.reconcileChanges (h : s.Coherent B) (f : Key → Steps) (hnew : ∀ k e, new.get? k = some e → Named B k e)
    (added removed updated unchanged : List Key) :
    (s.reconcileChanges B f new added removed updated unchanged).1.Coherent B := by
  unfold Adapter.reconcileChanges
  dsimp only
  have hcand := prepareReconcileCandidates_state (B := B) new (added ++ updated) s ∅
  have hc : (prepareReconcileCandidates B new (added ++ updated) s ∅).1.Coherent B := h.congr hcand.1 hcand.2.1 hcand.2.2
  refine Coherent.congr ?_ (reconcileSnapshot_spec _ _).1 (reconcileSnapshot_spec _ _).2 ?_
  · exact (hc.reconcileDestroy _).reconcileRebuild f hnew _ _
  · unfold reconcileSnapshot
    split <;> rfl

/-- A reload keeps a running set coherent. -/
theorem Coherent.reconcilePorts (h : s.Coherent B) (f : Key → Steps) (newConfig : Tree) :
    (s.reconcilePorts B f newConfig).1.Coherent B := by
  unfold Adapter.reconcilePorts
  dsimp only
  cases hprune : s.pruneConfigGaps B (reconcileNormalize newConfig) with
  | none => exact h
  | some s₁ =>
      obtain ⟨hports, hreg, hoid⟩ := pruneConfigGaps_spec hprune
      have h₁ : s₁.Coherent B := h.congr hports hreg hoid
      cases hindex : indexByName B ∅ (reconcileNormalize newConfig) with
      | none => exact h₁
      | some new =>
          have hnew : ∀ k e, new.get? k = some e → Named B k e := by
            intro k e he t hk
            obtain ⟨t', ht', hstr⟩ := indexByName_text hindex k e he
            cases hk.symm.trans ht'
            exact hstr
          dsimp only
          split
          · have hcommon := h₁.reconcileCommon new ‹_›
            split
            · rename_i heq
              rw [heq] at hcommon
              exact hcommon
            · rename_i updated unchanged heq
              rw [heq] at hcommon
              exact hcommon.reconcileChanges f hnew _ _ updated unchanged
          · exact h₁

end Adapter

/-- The adapter of a running server. -/
structure RunningSet (B : Builtins) where
  adapter : Adapter
  coherent : adapter.Coherent B

namespace RunningSet

/-- An adapter with no ports yet. -/
def empty (B : Builtins) : RunningSet B where
  adapter := ⟨.dict [], ∅, ∅, ∅, [], 0⟩
  coherent := by constructor <;> intro _ _ h <;> cases h

/-- The running set after a reload. -/
def reload (s : RunningSet B) (f : Key → Steps) (newConfig : Tree) : RunningSet B where
  adapter := (s.adapter.reconcilePorts B f newConfig).1
  coherent := s.coherent.reconcilePorts f newConfig

end RunningSet

end OpenMux.Initiator
