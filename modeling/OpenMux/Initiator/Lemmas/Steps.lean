import OpenMux.Initiator.Adapter

/-!
# The loops of a reload
-/

namespace OpenMux.Initiator

open Py

variable {B : Builtins}

namespace Adapter

variable {s s' : Adapter} {new d : Dict Key Mapping}

/-! ## Names -/

/-- The names of the new entries are texts, and each is the text of its entry's name. -/
theorem indexByName_named {items : List Tree} (h : indexByName B d items = some new)
    (hd : ∀ k e, d.get? k = some e → ∃ t, k = .str t ∧ B.str (Mapping.get "name".toList e) = some t) :
    ∀ k e, new.get? k = some e → ∃ t, k = .str t ∧ B.str (Mapping.get "name".toList e) = some t := by
  induction items generalizing d with
  | nil => cases h; exact hd
  | cons item items ih =>
      cases item with
      | dict p =>
          rw [indexByName] at h
          split at h
          · split at h
            · rename_i name hname
              refine ih h fun k e he => ?_
              rw [Dict.get?_set] at he
              split at he
              · rename_i hk
                cases he
                exact ⟨name, hk, hname⟩
              · exact hd k e he
            · cases h
          · exact ih h hd
      | _ => exact ih h hd

theorem indexByName_text {items : List Tree} (h : indexByName B ∅ items = some new) :
    ∀ k e, new.get? k = some e → ∃ t, k = .str t ∧ B.str (Mapping.get "name".toList e) = some t :=
  indexByName_named h fun k e he => by simp at he

/-! ## Gaps -/

theorem clearConfigGap_foldl (ks : List Key) (s : Adapter) :
    (ks.foldl clearConfigGap s).ports = s.ports ∧ (ks.foldl clearConfigGap s).registry = s.registry ∧
      (ks.foldl clearConfigGap s).nextOid = s.nextOid := by
  induction ks generalizing s with
  | nil => exact ⟨rfl, rfl, rfl⟩
  | cons k ks ih => exact ih (s.clearConfigGap k)

theorem pruneConfigGaps_spec {items : List Tree} (h : s.pruneConfigGaps B items = some s') :
    s'.ports = s.ports ∧ s'.registry = s.registry ∧ s'.nextOid = s.nextOid := by
  obtain ⟨listed, -, rfl⟩ := Option.map_eq_some_iff.mp h
  exact clearConfigGap_foldl _ s

/-! ## Names that stay -/

/-- The running port of the name has the material fields of its entry. -/
def Alike (B : Builtins) (s : Adapter) (new : Dict Key Mapping) (k : Key) (r : Running) (e : Mapping) : Prop :=
  s.ports.get? k = some r ∧ new.get? k = some e ∧ ∃ m, materialCfg B e = some m ∧ (r.port.material B).eq m = true

theorem reconcileCommon_isSome {common : List Key} : (reconcileCommon B new common s).2.isSome = true ↔
    ∀ k ∈ common, ∃ e, new.get? k = some e ∧ (materialCfg B e).isSome = true := by
  induction common generalizing s with
  | nil => simp [reconcileCommon]
  | cons n common ih =>
      rw [List.forall_mem_cons]
      cases he : new.get? n with
      | none => simp [reconcileCommon, he]
      | some e =>
          cases hm : materialCfg B e with
          | none => simp [reconcileCommon, he, hm]
          | some m =>
              have hhead : ∃ e', some e = some e' ∧ (materialCfg B e').isSome = true := ⟨e, rfl, by simp [hm]⟩
              rw [and_iff_right hhead]
              cases hr : s.ports.get? n with
              | none => simp [reconcileCommon, he, hm, hr, ih]
              | some r =>
                  cases heq : (r.port.material B).eq m <;> simp [reconcileCommon, he, hm, hr, heq, ih]

/-- What the comparison finds and does. -/
structure Compared (B : Builtins) (new : Dict Key Mapping) (common : List Key) (s s' : Adapter)
    (updated unchanged : List Key) : Prop where
  registry : s'.registry = s.registry
  nextOid : s'.nextOid = s.nextOid
  stay : ∀ k, k ∈ unchanged ↔ k ∈ common ∧ ∃ r e, Alike B s new k r e
  change : ∀ k, k ∈ updated ↔ k ∈ common ∧ ¬ ∃ r e, Alike B s new k r e
  nodup : updated.Nodup
  ports : ∀ k, k ∉ unchanged → s'.ports.get? k = s.ports.get? k
  inPlace : ∀ k r e, k ∈ unchanged → Alike B s new k r e →
    s'.ports.get? k = some { r with port := r.port.inplaceUpdate B e }

/-- A name that differs goes to the updated ones. -/
theorem Compared.differs {common updated unchanged : List Key} {n : Key} (hn : n ∉ common)
    (h : Compared B new common s s' updated unchanged) (hne : ¬ ∃ r e, Alike B s new n r e) :
    Compared B new (n :: common) s s' (n :: updated) unchanged where
  registry := h.registry
  nextOid := h.nextOid
  stay k := by
    rw [h.stay, List.mem_cons]
    refine and_congr_left fun hk => ⟨.inr, fun hmem => hmem.resolve_left ?_⟩
    rintro rfl
    exact hne hk
  change k := by
    rw [List.mem_cons, h.change, List.mem_cons]
    constructor
    · rintro (rfl | ⟨hk, hd⟩)
      · exact ⟨.inl rfl, hne⟩
      · exact ⟨.inr hk, hd⟩
    · rintro ⟨rfl | hk, hd⟩
      · exact .inl rfl
      · exact .inr ⟨hk, hd⟩
  nodup := List.nodup_cons.mpr ⟨fun hk => hn ((h.change n).mp hk).1, h.nodup⟩
  ports := h.ports
  inPlace := h.inPlace

/-- The update of one port does not show at another name. -/
theorem alike_set {n k : Key} {r r' : Running} {e : Mapping} (hne : k ≠ n) :
    Alike B { s with ports := s.ports.set n r' } new k r e ↔ Alike B s new k r e := by
  simp [Alike, Dict.get?_set_ne _ _ hne]

/-- A name that is alike is updated in place. -/
theorem Compared.alike {common updated unchanged : List Key} {n : Key} {r : Running} {e : Mapping} (hn : n ∉ common)
    (ha : Alike B s new n r e)
    (h : Compared B new common { s with ports := s.ports.set n { r with port := r.port.inplaceUpdate B e } } s' updated
      unchanged) :
    Compared B new (n :: common) s s' updated (n :: unchanged) where
  registry := h.registry
  nextOid := h.nextOid
  stay k := by
    by_cases hk : k = n
    · subst hk; simpa using ⟨r, e, ha⟩
    · simp [h.stay, alike_set hk, hk]
  change k := by
    by_cases hk : k = n
    · subst hk
      have hmem : k ∉ updated := fun hk => hn ((h.change k).mp hk).1
      simpa [hmem] using ⟨r, e, ha⟩
    · simp [h.change, alike_set hk, hk]
  nodup := h.nodup
  ports k hk := by
    rw [List.mem_cons, not_or] at hk
    rw [h.ports k hk.2, Dict.get?_set_ne _ _ hk.1]
  inPlace k r' e' hk ha' := by
    by_cases hkn : k = n
    · subst hkn
      have hun : k ∉ unchanged := fun hk => hn ((h.stay k).mp hk).1
      obtain ⟨hr, he, -⟩ := ha
      obtain ⟨hr', he', -⟩ := ha'
      cases hr.symm.trans hr'
      cases he.symm.trans he'
      rw [h.ports k hun, Dict.get?_set_self]
    · exact h.inPlace k r' e' ((List.mem_cons.mp hk).resolve_left hkn) ((alike_set hkn).mpr ha')

theorem reconcileCommon_spec {common updated unchanged : List Key} (hn : common.Nodup)
    (h : reconcileCommon B new common s = (s', some (updated, unchanged))) :
    Compared B new common s s' updated unchanged := by
  induction common generalizing s updated unchanged with
  | nil =>
      cases h
      exact ⟨rfl, rfl, by simp, by simp, List.nodup_nil, fun _ _ => rfl, by simp⟩
  | cons n common ih =>
      rw [List.nodup_cons] at hn
      rw [reconcileCommon] at h
      cases he : new.get? n with
      | none => simp [he] at h
      | some e =>
          cases hm : materialCfg B e with
          | none => simp [he, hm] at h
          | some m =>
              simp only [he, hm] at h
              cases hr : s.ports.get? n with
              | none =>
                  simp only [hr, Prod.mk.injEq, Option.map_eq_some_iff, Prod.exists] at h
                  obtain ⟨rfl, up, un, hout, rfl, rfl⟩ := h
                  refine (ih hn.2 (Prod.ext rfl hout)).differs hn.1 ?_
                  rintro ⟨r, e', hr', -⟩
                  simp [hr] at hr'
              | some r =>
                  cases heq : (r.port.material B).eq m with
                  | true =>
                      simp only [hr, heq, ↓reduceIte, Prod.mk.injEq, Option.map_eq_some_iff, Prod.exists] at h
                      obtain ⟨rfl, up, un, hout, rfl, rfl⟩ := h
                      exact (ih hn.2 (Prod.ext rfl hout)).alike hn.1 ⟨hr, he, m, hm, heq⟩
                  | false =>
                      simp only [hr, heq, Bool.false_eq_true, ↓reduceIte, Prod.mk.injEq, Option.map_eq_some_iff,
                        Prod.exists] at h
                      obtain ⟨rfl, up, un, hout, rfl, rfl⟩ := h
                      refine (ih hn.2 (Prod.ext rfl hout)).differs hn.1 ?_
                      rintro ⟨r', e', hr', he', m', hm', heq'⟩
                      cases hr.symm.trans hr'
                      cases he.symm.trans he'
                      cases hm.symm.trans hm'
                      rw [heq] at heq'
                      cases heq'

/-! ## Candidates -/

theorem prepareReconcileCandidates_state (new : Dict Key Mapping) (names : List Key) (s : Adapter) (refused : Dict Key Refusal) :
    let s' := (prepareReconcileCandidates B new names s refused).1
    s'.ports = s.ports ∧ s'.registry = s.registry ∧ s'.nextOid = s.nextOid := by
  induction names generalizing s refused with
  | nil => exact ⟨rfl, rfl, rfl⟩
  | cons n names ih =>
      rw [prepareReconcileCandidates]
      cases new.get? n with
      | none => exact ih s refused
      | some e =>
          dsimp only
          cases Port.init B e with
          | ok p => exact ih s refused
          | error err => exact ih _ _

/-- The reason for which the constructor refuses the entry of a name. -/
def rejection (B : Builtins) (new : Dict Key Mapping) (k : Key) : Option Refusal :=
  match (new.get? k).map (Port.init B) with
  | some (.error e) => some e
  | _ => none

theorem prepareReconcileCandidates_refused (new : Dict Key Mapping) (names : List Key) (s : Adapter) (refused : Dict Key Refusal) (k : Key) :
    (prepareReconcileCandidates B new names s refused).2.get? k =
      if k ∈ names then (rejection B new k).or (refused.get? k) else refused.get? k := by
  induction names generalizing s refused with
  | nil => rfl
  | cons n names ih =>
      rw [prepareReconcileCandidates]
      by_cases hk : k = n
      · subst hk
        cases he : new.get? k with
        | none => simp [ih, rejection, he]
        | some e => cases hp : Port.init B e <;> simp [ih, rejection, he, hp]
      · cases he : new.get? n with
        | none => simp [ih, hk]
        | some e => cases hp : Port.init B e <;> simp [ih, hk, hp, Dict.get?_set_ne _ _ hk]

/-! ## Ports that go -/

theorem destroyPort_spec (s : Adapter) (n k : Key) :
    (s.destroyPort n).ports.get? k = (if k = n then none else s.ports.get? k) ∧
      (s.destroyPort n).registry.get? k = if k = n ∧ (s.ports.get? n).isSome = true then none else s.registry.get? k := by
  unfold destroyPort
  cases hr : s.ports.get? n with
  | none =>
      by_cases hk : k = n
      · subst hk; simp [hr]
      · simp [hk]
  | some r => simp [Dict.get?_pop]

theorem destroyPort_nextOid (s : Adapter) (n : Key) : (s.destroyPort n).nextOid = s.nextOid := by
  unfold destroyPort
  cases s.ports.get? n <;> rfl

theorem reconcileDestroy_nextOid (names : List Key) (s : Adapter) : (reconcileDestroy names s).nextOid = s.nextOid := by
  unfold reconcileDestroy
  induction names generalizing s with
  | nil => rfl
  | cons n names ih => rw [List.foldl_cons, ih, destroyPort_nextOid]

theorem reconcileDestroy_spec (names : List Key) (s : Adapter) (k : Key) :
    (reconcileDestroy names s).ports.get? k = (if k ∈ names then none else s.ports.get? k) ∧
      (reconcileDestroy names s).registry.get? k =
        if k ∈ names ∧ (s.ports.get? k).isSome = true then none else s.registry.get? k := by
  unfold reconcileDestroy
  induction names generalizing s with
  | nil => simp
  | cons n names ih =>
      rw [List.foldl_cons]
      obtain ⟨hports, hreg⟩ := ih (s.destroyPort n)
      obtain ⟨hp, hr⟩ := s.destroyPort_spec n k
      rw [hports, hreg, hp, hr]
      by_cases hk : k = n
      · subst hk; cases s.ports.get? k <;> simp
      · simp [hk]

/-! ## Ports that come -/

/-- The port that `create_port` starts. -/
def started (B : Builtins) (f : Steps) (cfg : Mapping) : Option Port :=
  match Port.init B cfg with
  | .error _ => none
  | .ok p => if f.create = true ∧ f.start = some true then some p else none

/-- `create_port` starts the port under a new number or does nothing. -/
theorem createPort_spec (s : Adapter) (f : Steps) (n : Key) (cfg : Mapping) :
    (started B f cfg = none ∧ s.createPort B f n cfg = (s, none)) ∨
      ∃ p, started B f cfg = some p ∧ (s.createPort B f n cfg).2 = some p ∧
        (s.createPort B f n cfg).1.nextOid = s.nextOid + 1 ∧
        (∀ k, (s.createPort B f n cfg).1.ports.get? k = if k = n then some ⟨s.nextOid, p⟩ else s.ports.get? k) ∧
        ∀ k, (s.createPort B f n cfg).1.registry.get? k =
          if k = n ∧ f.register = true then some ⟨true, s.nextOid, []⟩ else s.registry.get? k := by
  unfold started createPort
  cases Port.init B cfg with
  | error e => exact .inl ⟨rfl, rfl⟩
  | ok p =>
      cases hc : f.create with
      | false => left; simp
      | true =>
          rcases hs : f.start with _ | _ | _
          · left; simp
          · left; simp
          · right
            refine ⟨p, by simp, by simp, by cases f.register <;> rfl, fun k => ?_, fun k => ?_⟩
            · cases f.register <;> simp [clearConfigGap, Dict.get?_set]
            · cases hreg : f.register <;> simp [clearConfigGap, Dict.get?_set]

/-- What the rebuild of a list of names does to one name. -/
structure Rebuilt (B : Builtins) (f : Key → Steps) (new : Dict Key Mapping) (names : List Key) (s s' : Adapter)
    (refused refused' : Dict Key Refusal) : Prop where
  nextOid : s.nextOid ≤ s'.nextOid
  apart : ∀ k, k ∉ names → s'.ports.get? k = s.ports.get? k ∧ s'.registry.get? k = s.registry.get? k ∧
    refused'.get? k = refused.get? k
  fails : ∀ k e, k ∈ names → new.get? k = some e → started B (f k) e = none →
    s'.ports.get? k = s.ports.get? k ∧ s'.registry.get? k = s.registry.get? k ∧ refused'.get? k = some .notStarted
  starts : ∀ k e p, k ∈ names → new.get? k = some e → started B (f k) e = some p → ∃ oid, s.nextOid ≤ oid ∧
    oid < s'.nextOid ∧ s'.ports.get? k = some ⟨oid, p⟩ ∧
    s'.registry.get? k = (if (f k).register = true then some ⟨true, oid, []⟩ else s.registry.get? k) ∧
    refused'.get? k = refused.get? k

theorem Rebuilt.fails_cons {f : Key → Steps} {n : Key} {names : List Key} {e : Mapping} {refused refused' : Dict Key Refusal}
    (hn : n ∉ names) (he : new.get? n = some e) (hfail : started B (f n) e = none)
    (h : Rebuilt B f new names (s.recordConfigGap n .notStarted false) s' (refused.set n .notStarted) refused') :
    Rebuilt B f new (n :: names) s s' refused refused' where
  nextOid := h.nextOid
  apart k hk := by
    rw [List.mem_cons, not_or] at hk
    obtain ⟨hports, hreg, href⟩ := h.apart k hk.2
    exact ⟨hports, hreg, by rw [href, Dict.get?_set_ne _ _ hk.1]⟩
  fails k e' hk he' hf := by
    by_cases hkn : k = n
    · subst hkn
      obtain ⟨hports, hreg, href⟩ := h.apart k hn
      exact ⟨hports, hreg, by rw [href, Dict.get?_set_self]⟩
    · exact h.fails k e' ((List.mem_cons.mp hk).resolve_left hkn) he' hf
  starts k e' p hk he' hp := by
    by_cases hkn : k = n
    · subst hkn
      cases he.symm.trans he'
      rw [hfail] at hp
      cases hp
    · obtain ⟨oid, hle, hlt, hports, hreg, href⟩ := h.starts k e' p ((List.mem_cons.mp hk).resolve_left hkn) he' hp
      exact ⟨oid, hle, hlt, hports, hreg, by rw [href, Dict.get?_set_ne _ _ hkn]⟩

theorem Rebuilt.starts_cons {f : Key → Steps} {n : Key} {names : List Key} {e : Mapping} {p : Port} {s₁ : Adapter}
    {refused refused' : Dict Key Refusal} (hn : n ∉ names) (he : new.get? n = some e) (hp : started B (f n) e = some p)
    (hoid : s₁.nextOid = s.nextOid + 1)
    (hports : ∀ k, s₁.ports.get? k = if k = n then some ⟨s.nextOid, p⟩ else s.ports.get? k)
    (hreg : ∀ k, s₁.registry.get? k =
      if k = n ∧ (f n).register = true then some ⟨true, s.nextOid, []⟩ else s.registry.get? k)
    (h : Rebuilt B f new names s₁ s' refused refused') : Rebuilt B f new (n :: names) s s' refused refused' where
  nextOid := by have := h.nextOid; omega
  apart k hk := by
    rw [List.mem_cons, not_or] at hk
    obtain ⟨h₁, h₂, h₃⟩ := h.apart k hk.2
    exact ⟨by rw [h₁, hports, if_neg hk.1], by rw [h₂, hreg, if_neg (fun hc => hk.1 hc.1)], h₃⟩
  fails k e' hk he' hf := by
    by_cases hkn : k = n
    · subst hkn
      cases he.symm.trans he'
      rw [hp] at hf
      cases hf
    · obtain ⟨h₁, h₂, h₃⟩ := h.fails k e' ((List.mem_cons.mp hk).resolve_left hkn) he' hf
      exact ⟨by rw [h₁, hports, if_neg hkn], by rw [h₂, hreg, if_neg (fun hc => hkn hc.1)], h₃⟩
  starts k e' p' hk he' hp' := by
    by_cases hkn : k = n
    · subst hkn
      cases he.symm.trans he'
      cases hp.symm.trans hp'
      obtain ⟨h₁, h₂, h₃⟩ := h.apart k hn
      have hlt := h.nextOid
      exact ⟨s.nextOid, le_rfl, by omega, by rw [h₁, hports, if_pos rfl], by rw [h₂, hreg]; simp, h₃⟩
    · obtain ⟨oid, hle, hlt, h₁, h₂, h₃⟩ := h.starts k e' p' ((List.mem_cons.mp hk).resolve_left hkn) he' hp'
      have hsame : s₁.registry.get? k = s.registry.get? k := by rw [hreg, if_neg fun hc => hkn hc.1]
      exact ⟨oid, by omega, hlt, h₁, by rw [h₂, hsame], h₃⟩

theorem reconcileRebuild_spec {f : Key → Steps} {names : List Key} (hn : names.Nodup)
    (hnew : ∀ k ∈ names, ∃ e, new.get? k = some e) (s : Adapter) (refused : Dict Key Refusal) :
    Rebuilt B f new names s (reconcileRebuild B f new names s refused).1 refused
      (reconcileRebuild B f new names s refused).2 := by
  induction names generalizing s refused with
  | nil => exact ⟨le_rfl, fun _ _ => ⟨rfl, rfl, rfl⟩, by simp, by simp⟩
  | cons n names ih =>
      rw [List.nodup_cons] at hn
      rw [List.forall_mem_cons] at hnew
      obtain ⟨⟨e, he⟩, hnew⟩ := hnew
      rw [reconcileRebuild, he]
      dsimp only
      rcases createPort_spec (B := B) s (f n) n e with ⟨hfail, heq⟩ | ⟨p, hp, hsome, hoid, hports, hreg⟩
      · rw [heq]
        dsimp only
        have h := ih hn.2 hnew (s.recordConfigGap n .notStarted false) (refused.set n .notStarted)
        exact h.fails_cons hn.1 he hfail
      · obtain ⟨s₁, out, hs₁⟩ : ∃ s₁ out, s.createPort B (f n) n e = (s₁, out) := ⟨_, _, rfl⟩
        simp only [hs₁] at hsome hoid hports hreg ⊢
        subst hsome
        exact (ih hn.2 hnew s₁ refused).starts_cons hn.1 he hp hoid hports hreg

end Adapter

end OpenMux.Initiator
