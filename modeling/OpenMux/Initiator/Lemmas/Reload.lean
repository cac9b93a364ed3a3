import OpenMux.Initiator.Lemmas.Steps

/-!
# The whole reload, one name at a time
-/

namespace OpenMux.Initiator

open Py

variable {B : Builtins}

theorem mem_sortedNames {ks : List Key} (h : ∀ k ∈ ks, ∃ t, k = .str t) (k : Key) :
    k ∈ Adapter.sortedNames B ks ↔ k ∈ ks := by
  obtain ⟨ls, hls⟩ := Option.isSome_iff_exists.mp (B.sorted_text ks h)
  rw [Adapter.sortedNames, hls]
  exact (B.sorted_perm ks ls hls).mem_iff

namespace Adapter

variable {s s₀ s' : Adapter} {new : Dict Key Mapping} {f : Key → Steps}

/-- The names that a reload works on, and the ports that were updated in place, by the state it began in. -/
structure Planned (B : Builtins) (s₀ s : Adapter) (new : Dict Key Mapping) (added removed updated unchanged : List Key) :
    Prop where
  registry : s.registry = s₀.registry
  nextOid : s.nextOid = s₀.nextOid
  ports : ∀ k, k ∉ unchanged → s.ports.get? k = s₀.ports.get? k
  inPlace : ∀ k r e, k ∈ unchanged → Alike B s₀ new k r e →
    s.ports.get? k = some { r with port := r.port.inplaceUpdate B e }
  add : ∀ k, k ∈ added ↔ s₀.ports.get? k = none ∧ ∃ e, new.get? k = some e
  remove : ∀ k, k ∈ removed ↔ (∃ r, s₀.ports.get? k = some r) ∧ new.get? k = none
  stay : ∀ k, k ∈ unchanged ↔ ∃ r e, Alike B s₀ new k r e
  change : ∀ k, k ∈ updated ↔ (∃ r, s₀.ports.get? k = some r) ∧ (∃ e, new.get? k = some e) ∧ ¬ ∃ r e, Alike B s₀ new k r e
  nodup : (added ++ updated).Nodup
  text : ∀ k e, new.get? k = some e → ∃ t, k = .str t

/-- Names with an entry that asks for a port. -/
theorem Planned.mem_build {added removed updated unchanged : List Key} {k : Key}
    (h : Planned B s₀ s new added removed updated unchanged) :
    k ∈ added ++ updated ↔ (∃ e, new.get? k = some e) ∧ ¬ ∃ r e, Alike B s₀ new k r e := by
  rw [List.mem_append, h.add, h.change]
  constructor
  · rintro (⟨hr, he⟩ | ⟨-, he, hne⟩)
    · refine ⟨he, ?_⟩
      rintro ⟨r, e, hr', -⟩
      rw [hr] at hr'
      cases hr'
    · exact ⟨he, hne⟩
  · rintro ⟨he, hne⟩
    cases hr : s₀.ports.get? k with
    | none => exact .inl ⟨rfl, he⟩
    | some r => exact .inr ⟨⟨r, rfl⟩, he, hne⟩

/-- The reason for which the reload gives up the entry of a name. -/
def givenUp (B : Builtins) (f : Key → Steps) (new : Dict Key Mapping) (k : Key) : Option Refusal :=
  (rejection B new k).or <| match (new.get? k).bind (started B (f k)) with
    | some _ => none
    | none => some .notStarted

/-- The names whose entries the constructor takes. -/
def candidates (B : Builtins) (new : Dict Key Mapping) (names : List Key) : List Key :=
  names.filter fun n => (rejection B new n).isNone

theorem mem_candidates {names : List Key} {k : Key} :
    k ∈ candidates B new names ↔ k ∈ names ∧ rejection B new k = none := by
  simp [candidates, List.mem_filter]

theorem candidates_append (names names' : List Key) :
    candidates B new (names ++ names') = candidates B new names ++ candidates B new names' := List.filter_append ..

theorem reconcileSnapshot_spec (refused : List Key) (s : Adapter) : (reconcileSnapshot B new refused s).ports = s.ports ∧
    (reconcileSnapshot B new refused s).registry = s.registry := by
  unfold reconcileSnapshot
  split <;> exact ⟨rfl, rfl⟩

/-- The stages of a reload: the state after the candidates, after the ports that go, and after the ports that come. -/
structure Stages (B : Builtins) (f : Key → Steps) (new : Dict Key Mapping) (added removed updated unchanged : List Key)
    (s : Adapter) (out : Adapter × Summary) (s₂ s₃ : Adapter) (refused : Dict Key Refusal) (kept : List Key) : Prop where
  portsGo : ∀ k, s₂.ports.get? k = if k ∈ removed ++ candidates B new updated then none else s.ports.get? k
  registryGo : ∀ k, s₂.registry.get? k =
    if k ∈ removed ++ candidates B new updated ∧ (s.ports.get? k).isSome = true then none else s.registry.get? k
  nextOid : s₂.nextOid = s.nextOid
  come : ∃ failed, Rebuilt B f new (candidates B new added ++ candidates B new updated) s₂ s₃ ∅ failed
  givesUp : ∀ k, refused.get? k = if k ∈ added ++ updated then givenUp B f new k else none
  keeps : ∀ k, k ∈ kept ↔ k ∈ updated ∧ (rejection B new k).isSome = true
  state : out.1.ports = s₃.ports ∧ out.1.registry = s₃.registry
  summary : out.2 = reconcileSummary B (candidates B new added) removed (candidates B new updated) unchanged refused kept

theorem Planned.stages {added removed updated unchanged : List Key} (hp : Planned B s₀ s new added removed updated unchanged) :
    ∃ s₂ s₃ refused kept, Stages B f new added removed updated unchanged s
      (s.reconcileChanges B f new added removed updated unchanged) s₂ s₃ refused kept := by
  obtain ⟨s₁, refused, hcand⟩ : ∃ s₁ refused, prepareReconcileCandidates B new (added ++ updated) s ∅ = (s₁, refused) :=
    ⟨_, _, rfl⟩
  have hrefused : ∀ k, refused.get? k = if k ∈ added ++ updated then rejection B new k else none := by
    intro k
    have h := prepareReconcileCandidates_refused (B := B) new (added ++ updated) s ∅ k
    rw [hcand] at h
    simpa using h
  have hstate := prepareReconcileCandidates_state (B := B) new (added ++ updated) s ∅
  rw [hcand] at hstate
  obtain ⟨hports, hreg, hoid⟩ := hstate
  have hfilter : ∀ names : List Key, (∀ k ∈ names, k ∈ added ++ updated) →
      (names.filter fun n => n ∉ refused.keys) = candidates B new names := by
    intro names hnames
    refine List.filter_congr fun k hk => ?_
    have hkey : k ∈ refused.keys ↔ ∃ e, rejection B new k = some e := by
      rw [Dict.mem_keys, hrefused, if_pos (hnames k hk)]
    cases hrej : rejection B new k <;> simp [hkey, hrej]
  have hadded := hfilter added fun k hk => List.mem_append_left _ hk
  have hupdated := hfilter updated fun k hk => List.mem_append_right _ hk
  have hnodup : (candidates B new added ++ candidates B new updated).Nodup := by
    rw [← candidates_append]
    exact hp.nodup.filter _
  have hnew : ∀ k ∈ candidates B new added ++ candidates B new updated, ∃ e, new.get? k = some e := by
    intro k hk
    rw [← candidates_append] at hk
    exact (hp.mem_build.mp (mem_candidates.mp hk).1).1
  have hdestroy := reconcileDestroy_spec (removed ++ candidates B new updated) s₁
  have hbuild := reconcileRebuild_spec (B := B) (f := f) hnodup hnew
    (reconcileDestroy (removed ++ candidates B new updated) s₁) ∅
  obtain ⟨s₃, failed, hrebuild⟩ : ∃ s₃ failed, reconcileRebuild B f new (candidates B new added ++ candidates B new updated)
    (reconcileDestroy (removed ++ candidates B new updated) s₁) ∅ = (s₃, failed) := ⟨_, _, rfl⟩
  rw [hrebuild] at hbuild
  have hout : s.reconcileChanges B f new added removed updated unchanged =
      (reconcileSnapshot B new (refused.update failed).keys s₃,
        reconcileSummary B (candidates B new added) removed (candidates B new updated) unchanged (refused.update failed)
          (sortedNames B (refused.keys.filter fun n => n ∈ updated))) := by
    unfold reconcileChanges
    simp only [hcand, hadded, hupdated, hrebuild]
  rw [hout]
  refine ⟨_, s₃, refused.update failed, sortedNames B (refused.keys.filter fun n => n ∈ updated),
    ⟨fun k => by rw [(hdestroy k).1, hports], fun k => by rw [(hdestroy k).2, hports, hreg],
      by rw [reconcileDestroy_nextOid, hoid], ⟨failed, hbuild⟩, fun k => ?_, fun k => ?_, ?_, ?_⟩⟩
  · rw [Dict.get?_update, hrefused]
    by_cases hk : k ∈ added ++ updated
    · obtain ⟨e, he⟩ := (hp.mem_build.mp hk).1
      cases hrej : rejection B new k with
      | some err =>
          have hnot : k ∉ candidates B new added ++ candidates B new updated := by
            rw [← candidates_append, mem_candidates, hrej]
            simp
          simp [(hbuild.apart k hnot).2.2, hk, givenUp, hrej]
      | none =>
          have hmem : k ∈ candidates B new added ++ candidates B new updated := by
            rw [← candidates_append, mem_candidates]
            exact ⟨hk, hrej⟩
          cases hstart : started B (f k) e with
          | none => simp [(hbuild.fails k e hmem he hstart).2.2, hk, givenUp, hrej, he, hstart]
          | some p =>
              obtain ⟨oid, -, -, -, -, hnone⟩ := hbuild.starts k e p hmem he hstart
              simp [hnone, hk, givenUp, hrej, he, hstart]
    · have hnot : k ∉ candidates B new added ++ candidates B new updated := by
        rw [← candidates_append, mem_candidates]
        exact fun h => hk h.1
      simp [(hbuild.apart k hnot).2.2, hk]
  · have hkey : ∀ n, n ∈ refused.keys ↔ n ∈ added ++ updated ∧ (rejection B new n).isSome = true := by
      intro n
      rw [Dict.mem_keys]
      by_cases hn : n ∈ added ++ updated <;> simp [hrefused, hn, Option.isSome_iff_exists]
    rw [mem_sortedNames fun n hn => ?_]
    · simp only [List.mem_filter, hkey, List.mem_append, decide_eq_true_eq]
      tauto
    · obtain ⟨e, he⟩ := (hp.mem_build.mp ((hkey n).mp (List.mem_filter.mp hn).1).1).1
      exact hp.text n e he
  · exact reconcileSnapshot_spec _ s₃
  · rfl

/-! ## One name -/

/-- The kinds of names. -/
inductive Kind (B : Builtins) (s₀ : Adapter) (new : Dict Key Mapping) (f : Steps) (k : Key) : Verdict → Prop
  | absent (hr : s₀.ports.get? k = none) (he : new.get? k = none) : Kind B s₀ new f k .absent
  | removed {r} (hr : s₀.ports.get? k = some r) (he : new.get? k = none) : Kind B s₀ new f k .removed
  | unchanged {r e} (h : Alike B s₀ new k r e) : Kind B s₀ new f k (.unchanged (r.port.inplaceUpdate B e))
  | refused {e err} (he : new.get? k = some e) (hne : ¬ ∃ r e, Alike B s₀ new k r e) (hrej : rejection B new k = some err) :
      Kind B s₀ new f k (.refused err (s₀.ports.get? k).isSome)
  | notStarted {e} (he : new.get? k = some e) (hne : ¬ ∃ r e, Alike B s₀ new k r e) (hrej : rejection B new k = none)
      (hstart : started B f e = none) : Kind B s₀ new f k (.notStarted (s₀.ports.get? k).isSome)
  | created {e p} (he : new.get? k = some e) (hne : ¬ ∃ r e, Alike B s₀ new k r e) (hrej : rejection B new k = none)
      (hstart : started B f e = some p) : Kind B s₀ new f k (.created p (s₀.ports.get? k).isSome)

theorem kind_rebuilt (fk : Steps) {k : Key} {e : Mapping} (he : new.get? k = some e)
    (hne : ¬ ∃ r e, Alike B s₀ new k r e) : Kind B s₀ new fk k (rebuilt B e fk (s₀.ports.get? k).isSome) := by
  unfold rebuilt
  cases hp : Port.init B e with
  | error err => exact .refused he hne (by simp [rejection, he, hp])
  | ok p =>
      have hrej : rejection B new k = none := by simp [rejection, he, hp]
      dsimp only
      split
      · exact .created he hne hrej (by simp [started, hp, *])
      · exact .notStarted he hne hrej (by simp [started, hp, *])

/-- Each name is of the kind that its verdict says. -/
theorem kind_verdict (s₀ : Adapter) (new : Dict Key Mapping) (fk : Steps) (k : Key) :
    Kind B s₀ new fk k (verdict B (s₀.ports.get? k) (new.get? k) fk) := by
  cases hr : s₀.ports.get? k with
  | none =>
      cases he : new.get? k with
      | none => exact .absent hr he
      | some e =>
          have hne : ¬ ∃ r e, Alike B s₀ new k r e := by
            rintro ⟨r, e', hr', -⟩
            rw [hr] at hr'
            cases hr'
          have h := kind_rebuilt fk he hne
          rw [hr] at h
          exact h
  | some r =>
      cases he : new.get? k with
      | none => exact .removed hr he
      | some e =>
          have hrebuilt : (¬ ∃ r e, Alike B s₀ new k r e) → Kind B s₀ new fk k (rebuilt B e fk true) := by
            intro hne
            have h := kind_rebuilt fk he hne
            rw [hr] at h
            exact h
          unfold verdict
          dsimp only
          cases hm : materialCfg B e with
          | none =>
              refine hrebuilt ?_
              rintro ⟨r', e', -, he', m, hm', -⟩
              cases he.symm.trans he'
              rw [hm] at hm'
              cases hm'
          | some m =>
              dsimp only
              split
              · exact .unchanged ⟨hr, he, m, hm, ‹_›⟩
              · rename_i hdiff
                refine hrebuilt ?_
                rintro ⟨r', e', hr', he', m', hm', heq⟩
                cases hr.symm.trans hr'
                cases he.symm.trans he'
                cases hm.symm.trans hm'
                exact hdiff heq

variable {added removed updated unchanged : List Key} {out : Adapter × Summary} {s₂ s₃ : Adapter}
  {refused : Dict Key Refusal} {kept : List Key}

theorem leads_congr {s₁ : Adapter} (hports : s'.ports = s₁.ports) (hreg : s'.registry = s₁.registry) {k : Key}
    {register : Bool} {v : Verdict} (h : s₀.Leads s₁ k register v) : s₀.Leads s' k register v := by
  unfold Leads at h ⊢
  rwa [hports, hreg]

/-- The port of each name after the reload. -/
theorem Stages.leads (hp : Planned B s₀ s new added removed updated unchanged)
    (h : Stages B f new added removed updated unchanged s out s₂ s₃ refused kept) (k : Key) :
    s₀.Leads out.1 k (f k).register (verdict B (s₀.ports.get? k) (new.get? k) (f k)) := by
  obtain ⟨failed, hcome⟩ := h.come
  refine leads_congr h.state.1 h.state.2 ?_
  have hapart : k ∉ candidates B new added ++ candidates B new updated → k ∉ removed ++ candidates B new updated →
      s₃.ports.get? k = s.ports.get? k ∧ s₃.registry.get? k = s₀.registry.get? k := by
    intro hbuild hgo
    obtain ⟨hports, hreg, -⟩ := hcome.apart k hbuild
    rw [hports, hreg, h.portsGo, h.registryGo, if_neg hgo, if_neg fun hc => hgo hc.1, hp.registry]
    exact ⟨rfl, rfl⟩
  have hsame : k ∉ unchanged → s.ports.get? k = s₀.ports.get? k := hp.ports k
  have hstay := hp.stay k
  have hbuild := hp.mem_build (k := k)
  have hremove := hp.remove k
  have hcand : k ∈ candidates B new added ++ candidates B new updated ↔ k ∈ added ++ updated ∧ rejection B new k = none := by
    rw [← candidates_append, mem_candidates]
  have hgo : k ∈ removed ++ candidates B new updated ↔ k ∈ removed ∨ k ∈ updated ∧ rejection B new k = none := by
    rw [List.mem_append, mem_candidates]
  have hchange := hp.change k
  have hkind := kind_verdict (B := B) s₀ new (f k) k
  generalize verdict B (s₀.ports.get? k) (new.get? k) (f k) = v at hkind ⊢
  cases hkind with
  | absent hr he =>
      have hun : k ∉ unchanged := fun hk => by
        obtain ⟨r, e, hr', -⟩ := hstay.mp hk
        simp [hr] at hr'
      obtain ⟨hports, hreg⟩ := hapart (by simp [hcand, hbuild, he]) (by simp [hgo, hremove, hchange, hr])
      exact ⟨by rw [hports, hsame hun], hreg⟩
  | removed hr he =>
      have hun : k ∉ unchanged := fun hk => by
        obtain ⟨r, e, -, he', -⟩ := hstay.mp hk
        simp [he] at he'
      have hmem : k ∈ removed ++ candidates B new updated := hgo.mpr (.inl (hremove.mpr ⟨⟨_, hr⟩, he⟩))
      obtain ⟨hports, hreg, -⟩ := hcome.apart k (by simp [hcand, hbuild, he])
      show s₃.ports.get? k = none ∧ s₃.registry.get? k = none
      rw [hports, hreg, h.portsGo, h.registryGo, if_pos hmem, if_pos ⟨hmem, by rw [hsame hun, hr]; rfl⟩]
      exact ⟨rfl, rfl⟩
  | unchanged ha =>
      rename_i r e
      have hun : k ∈ unchanged := hstay.mpr ⟨r, e, ha⟩
      have hnot : k ∉ added ++ updated := fun hk => (hbuild.mp hk).2 ⟨r, e, ha⟩
      have hnotGo : k ∉ removed ++ candidates B new updated := by
        rw [hgo]
        rintro (hk | ⟨hk, -⟩)
        · have he := (hremove.mp hk).2
          simp [ha.2.1] at he
        · exact hnot (List.mem_append_right _ hk)
      obtain ⟨hports, hreg⟩ := hapart (fun hk => hnot (hcand.mp hk).1) hnotGo
      exact ⟨⟨r, ha.1, by rw [hports, hp.inPlace k r e hun ha]⟩, hreg⟩
  | refused he hne hrej =>
      have hun : k ∉ unchanged := fun hk => hne (hstay.mp hk)
      obtain ⟨hports, hreg⟩ := hapart (by simp [hcand, hrej]) (by simp [hgo, hremove, he, hrej])
      exact ⟨by rw [hports, hsame hun], hreg⟩
  | notStarted he hne hrej hstart =>
      have hun : k ∉ unchanged := fun hk => hne (hstay.mp hk)
      have hmem := hcand.mpr ⟨hbuild.mpr ⟨⟨_, he⟩, hne⟩, hrej⟩
      obtain ⟨hports, hreg, -⟩ := hcome.fails k _ hmem he hstart
      rw [h.portsGo, hsame hun] at hports
      rw [h.registryGo, hp.registry, hsame hun] at hreg
      cases hr : s₀.ports.get? k with
      | none =>
          have hnotGo : k ∉ removed ++ candidates B new updated := by simp [hgo, hremove, hchange, hr]
          rw [if_neg hnotGo] at hports
          rw [if_neg fun hc => hnotGo hc.1] at hreg
          exact ⟨hports, hreg⟩
      | some r =>
          have hmemGo : k ∈ removed ++ candidates B new updated :=
            hgo.mpr (.inr ⟨hchange.mpr ⟨⟨r, hr⟩, ⟨_, he⟩, hne⟩, hrej⟩)
          rw [if_pos hmemGo] at hports
          rw [if_pos ⟨hmemGo, by rw [hr]; rfl⟩] at hreg
          exact ⟨hports, hreg⟩
  | created he hne hrej hstart =>
      have hun : k ∉ unchanged := fun hk => hne (hstay.mp hk)
      have hmem := hcand.mpr ⟨hbuild.mpr ⟨⟨_, he⟩, hne⟩, hrej⟩
      obtain ⟨oid, hle, -, hports, hreg, -⟩ := hcome.starts k _ _ hmem he hstart
      refine ⟨oid, by rw [← hp.nextOid, ← h.nextOid]; exact hle, hports, ?_⟩
      rw [hreg, h.registryGo, hp.registry, hsame hun]
      cases hr : s₀.ports.get? k with
      | none => simp
      | some r =>
          have hmemGo : k ∈ removed ++ candidates B new updated :=
            hgo.mpr (.inr ⟨hchange.mpr ⟨⟨r, hr⟩, ⟨_, he⟩, hne⟩, hrej⟩)
          simp only [Option.isSome_some, if_pos hmemGo, and_true, ↓reduceIte]

theorem mem_reconcileSummary {refused : Dict Key Refusal} (htext : ∀ k ∈ refused.keys, ∃ t, k = .str t)
    (added removed updated unchanged kept : List Key) (k : Key) :
    let summary := reconcileSummary B added removed updated unchanged refused kept
    (k ∈ summary.added ↔ k ∈ added ∧ refused.get? k = none) ∧ (k ∈ summary.updated ↔ k ∈ updated ∧ refused.get? k = none) ∧
      (k ∈ summary.failed ↔ (refused.get? k).isSome = true) ∧
      (∀ e b, (k, e, b) ∈ summary.failedDetail ↔ refused.get? k = some e ∧ decide (k ∈ kept) = b) ∧
      (k ∈ summary.keptPrevious ↔ k ∈ kept ∧ (refused.get? k).isSome = true) := by
  have hkey : k ∈ refused.keys ↔ (refused.get? k).isSome = true := by rw [Dict.mem_keys, Option.isSome_iff_exists]
  have hfailed : k ∈ sortedNames B refused.keys ↔ (refused.get? k).isSome = true := by rw [mem_sortedNames htext, hkey]
  refine ⟨?_, ?_, hfailed, fun e b => ?_, ?_⟩
  · simp [reconcileSummary, List.mem_filter, hkey]
  · simp [reconcileSummary, List.mem_filter, hkey]
  · simp only [reconcileSummary, List.mem_filterMap, Option.map_eq_some_iff, Prod.mk.injEq]
    constructor
    · rintro ⟨n, -, e', he', rfl, rfl, rfl⟩
      exact ⟨he', rfl⟩
    · rintro ⟨he, rfl⟩
      exact ⟨k, hfailed.mpr (by simp [he]), e, he, rfl, rfl, rfl⟩
  · simp [reconcileSummary, List.mem_filter, hkey]

/-- The summary lists each name where its verdict says. -/
theorem Stages.lists (hp : Planned B s₀ s new added removed updated unchanged)
    (h : Stages B f new added removed updated unchanged s out s₂ s₃ refused kept) (k : Key) :
    out.2.Lists k (verdict B (s₀.ports.get? k) (new.get? k) (f k)).listing := by
  have htext : ∀ n ∈ refused.keys, ∃ t, n = .str t := by
    intro n hn
    obtain ⟨e, he⟩ := Dict.mem_keys.mp hn
    rw [h.givesUp] at he
    split at he
    · obtain ⟨e', he'⟩ := (hp.mem_build.mp ‹_›).1
      exact hp.text n e' he'
    · cases he
  obtain ⟨hadded, hupdated, hfailed, hdetail, hkept⟩ := mem_reconcileSummary (B := B) htext (candidates B new added) removed
    (candidates B new updated) unchanged kept k
  rw [← h.summary] at hadded hupdated hfailed hdetail hkept
  have hremoved : out.2.removed = removed := by rw [h.summary]; rfl
  have hunchanged : out.2.unchanged = unchanged := by rw [h.summary]; rfl
  have hgives := h.givesUp k
  have hstay := hp.stay k
  have hbuild := hp.mem_build (k := k)
  have hremove := hp.remove k
  have hadd := hp.add k
  have hchange := hp.change k
  have hkeep := h.keeps k
  rw [mem_candidates] at hadded hupdated
  have hkind := kind_verdict (B := B) s₀ new (f k) k
  generalize verdict B (s₀.ports.get? k) (new.get? k) (f k) = v at hkind ⊢
  cases hkind with
  | absent hr he =>
      have hb : k ∉ added ++ updated := by simp [hbuild, he]
      have hu : k ∉ updated := fun hk => hb (List.mem_append_right _ hk)
      have ha : k ∉ added := fun hk => hb (List.mem_append_left _ hk)
      have hr' : k ∉ removed := by simp [hremove, hr]
      have hs : k ∉ unchanged := by simp [hstay, Alike, hr]
      rw [if_neg hb] at hgives
      constructor <;> simp [Verdict.listing, hadded, hupdated, hremoved, hunchanged, hfailed, hdetail, hkept, hgives, ha, hu, hr', hs]
  | removed hr he =>
      have hb : k ∉ added ++ updated := by simp [hbuild, he]
      have hu : k ∉ updated := fun hk => hb (List.mem_append_right _ hk)
      have ha : k ∉ added := fun hk => hb (List.mem_append_left _ hk)
      have hr' : k ∈ removed := by simp [hremove, hr, he]
      have hs : k ∉ unchanged := by simp [hstay, Alike, he]
      rw [if_neg hb] at hgives
      constructor <;> simp [Verdict.listing, hadded, hupdated, hremoved, hunchanged, hfailed, hdetail, hkept, hgives, ha, hu, hr', hs]
  | unchanged ha =>
      have hs : k ∈ unchanged := hstay.mpr ⟨_, _, ha⟩
      have hb : k ∉ added ++ updated := fun hk => (hbuild.mp hk).2 ⟨_, _, ha⟩
      have hu : k ∉ updated := fun hk => hb (List.mem_append_right _ hk)
      have hr' : k ∉ removed := by simp [hremove, ha.2.1]
      have ha : k ∉ added := fun hk => hb (List.mem_append_left _ hk)
      rw [if_neg hb] at hgives
      constructor <;> simp [Verdict.listing, hadded, hupdated, hremoved, hunchanged, hfailed, hdetail, hkept, hgives, ha, hu, hr', hs]
  | refused he hne hrej =>
      have hs : k ∉ unchanged := fun hk => hne (hstay.mp hk)
      have hb : k ∈ added ++ updated := hbuild.mpr ⟨⟨_, he⟩, hne⟩
      have hr' : k ∉ removed := by simp [hremove, he]
      rw [if_pos hb, givenUp, hrej, Option.some_or] at hgives
      cases hr : s₀.ports.get? k with
      | none =>
          have hk : k ∉ kept := by simp [hkeep, hchange, hr]
          constructor <;>
            simp [Verdict.listing, hadded, hupdated, hremoved, hunchanged, hfailed, hdetail, hkept, hgives, hr', hs, hk, eq_comm]
      | some r =>
          have hk : k ∈ kept := by
            rw [hkeep, hchange, hrej]
            exact ⟨⟨⟨r, hr⟩, ⟨_, he⟩, hne⟩, rfl⟩
          constructor <;>
            simp [Verdict.listing, hadded, hupdated, hremoved, hunchanged, hfailed, hdetail, hkept, hgives, hr', hs, hk, eq_comm]
  | notStarted he hne hrej hstart =>
      have hs : k ∉ unchanged := fun hk => hne (hstay.mp hk)
      have hb : k ∈ added ++ updated := hbuild.mpr ⟨⟨_, he⟩, hne⟩
      have hr' : k ∉ removed := by simp [hremove, he]
      have hk : k ∉ kept := by simp [hkeep, hrej]
      have hgiven : givenUp B f new k = some .notStarted := by simp [givenUp, hrej, he, hstart]
      rw [if_pos hb, hgiven] at hgives
      constructor <;>
        simp [Verdict.listing, hadded, hupdated, hremoved, hunchanged, hfailed, hdetail, hkept, hgives, hr', hs, hk, eq_comm]
  | created he hne hrej hstart =>
      have hs : k ∉ unchanged := fun hk => hne (hstay.mp hk)
      have hb : k ∈ added ++ updated := hbuild.mpr ⟨⟨_, he⟩, hne⟩
      have hr' : k ∉ removed := by simp [hremove, he]
      have hgiven : givenUp B f new k = none := by simp [givenUp, hrej, he, hstart]
      rw [if_pos hb, hgiven] at hgives
      cases hr : s₀.ports.get? k with
      | none =>
          have ha : k ∈ added := hadd.mpr ⟨hr, _, he⟩
          have hu : k ∉ updated := by simp [hchange, hr]
          constructor <;>
            simp [Verdict.listing, hadded, hupdated, hremoved, hunchanged, hfailed, hdetail, hkept, hgives, hrej, ha, hu, hr', hs]
      | some r =>
          have ha : k ∉ added := by simp [hadd, hr]
          have hu : k ∈ updated := hchange.mpr ⟨⟨r, hr⟩, ⟨_, he⟩, hne⟩
          constructor <;>
            simp [Verdict.listing, hadded, hupdated, hremoved, hunchanged, hfailed, hdetail, hkept, hgives, hrej, ha, hu, hr', hs]

/-! ## The whole reload -/

/-- The reload can read the list: names and labels have texts, and the entries of running ports their material fields. -/
structure Readable (B : Builtins) (s : Adapter) (newConfig : Tree) (new : Dict Key Mapping) : Prop where
  index : indexByName B ∅ (reconcileNormalize newConfig) = some new
  labels : (listedLabels B 0 (reconcileNormalize newConfig)).isSome = true
  removed : (B.sorted (s.ports.keys.filter fun n => n ∉ new.keys)).isSome = true
  material : ∀ k r e, s.ports.get? k = some r → new.get? k = some e → (materialCfg B e).isSome = true

theorem sorted_filter_text (ks : List Key) (p : Key → Bool) (h : ∀ k ∈ ks, p k = true → ∃ t, k = .str t) :
    ∃ ls, B.sorted (ks.filter p) = some ls := by
  refine Option.isSome_iff_exists.mp (B.sorted_text _ fun k hk => ?_)
  obtain ⟨hmem, hp⟩ := List.mem_filter.mp hk
  exact h k hmem hp

theorem mem_sorted_filter {ks ls : List Key} {p : Key → Bool} (h : B.sorted (ks.filter p) = some ls) (k : Key) :
    k ∈ ls ↔ k ∈ ks ∧ p k = true := by
  rw [(B.sorted_perm _ _ h).mem_iff, List.mem_filter]

theorem nodup_sorted_filter {ks ls : List Key} {p : Key → Bool} (hn : ks.Nodup) (h : B.sorted (ks.filter p) = some ls) :
    ls.Nodup := (B.sorted_perm _ _ h).nodup_iff.mpr (hn.filter p)

/-- The plan that the comparison leaves. -/
theorem planned {s s₁ s₂ : Adapter} {removed added common updated unchanged : List Key} {newConfig : Tree}
    (hindex : indexByName B ∅ (reconcileNormalize newConfig) = some new)
    (hprune : s.pruneConfigGaps B (reconcileNormalize newConfig) = some s₁)
    (hremoved : B.sorted (s₁.ports.keys.filter fun n => n ∉ new.keys) = some removed)
    (hadded : B.sorted (new.keys.filter fun n => n ∉ s₁.ports.keys) = some added)
    (hcommon : B.sorted (s₁.ports.keys.filter fun n => n ∈ new.keys) = some common)
    (hcompare : reconcileCommon B new common s₁ = (s₂, some (updated, unchanged))) :
    Planned B s s₂ new added removed updated unchanged := by
  obtain ⟨hports, hreg, hoid⟩ := pruneConfigGaps_spec hprune
  have hcomp := reconcileCommon_spec (nodup_sorted_filter s₁.ports.nodup hcommon) hcompare
  have halike : ∀ k r e, Alike B s₁ new k r e ↔ Alike B s new k r e := by
    intro k r e
    simp [Alike, hports]
  have hmemCommon : ∀ k, k ∈ common ↔ (∃ r, s.ports.get? k = some r) ∧ ∃ e, new.get? k = some e := by
    intro k
    rw [mem_sorted_filter hcommon, hports, Dict.mem_keys]
    simp [Dict.mem_keys]
  have hadd : ∀ k, k ∈ added ↔ s.ports.get? k = none ∧ ∃ e, new.get? k = some e := by
    intro k
    rw [mem_sorted_filter hadded, hports, Dict.mem_keys, and_comm]
    simp [Dict.mem_keys, Option.eq_none_iff_forall_ne_some]
  have hchange : ∀ k, k ∈ updated ↔
      (∃ r, s.ports.get? k = some r) ∧ (∃ e, new.get? k = some e) ∧ ¬ ∃ r e, Alike B s new k r e := by
    intro k
    simp only [hcomp.change, hmemCommon, halike, and_assoc]
  refine ⟨hcomp.registry.trans hreg, hcomp.nextOid.trans hoid, fun k hk => by rw [hcomp.ports k hk, hports],
    fun k r e hk ha => hcomp.inPlace k r e hk ((halike k r e).mpr ha), hadd, fun k => ?_, fun k => ?_, hchange, ?_, fun k e he => ?_⟩
  · rw [mem_sorted_filter hremoved, hports, Dict.mem_keys]
    simp [Dict.mem_keys, Option.eq_none_iff_forall_ne_some]
  · rw [hcomp.stay, hmemCommon]
    simp only [halike]
    refine and_iff_right_of_imp ?_
    rintro ⟨r, e, hr, he, -⟩
    exact ⟨⟨r, hr⟩, e, he⟩
  · refine List.nodup_append.mpr ⟨nodup_sorted_filter new.nodup hadded, hcomp.nodup, fun a ha b hb hab => ?_⟩
    subst hab
    obtain ⟨r, hr⟩ := ((hchange a).mp hb).1
    rw [((hadd a).mp ha).1] at hr
    cases hr
  · obtain ⟨t, ht, -⟩ := indexByName_text hindex k e he
    exact ⟨t, ht⟩

/-- A reload that ends with a summary has read the list, and carried out a plan. -/
theorem reconcilePorts_some {newConfig : Tree} {summary : Summary} (h : s.reconcilePorts B f newConfig = (s', some summary)) :
    ∃ new, Readable B s newConfig new ∧ ∃ s₁ added removed updated unchanged,
      Planned B s s₁ new added removed updated unchanged ∧
        s₁.reconcileChanges B f new added removed updated unchanged = (s', summary) := by
  unfold reconcilePorts at h
  dsimp only at h
  cases hprune : s.pruneConfigGaps B (reconcileNormalize newConfig) with
  | none => simp [hprune] at h
  | some s₁ =>
  cases hindex : indexByName B ∅ (reconcileNormalize newConfig) with
  | none => simp [hprune, hindex] at h
  | some new =>
  cases hremoved : B.sorted (s₁.ports.keys.filter fun n => n ∉ new.keys) with
  | none => simp only [hprune, hindex, hremoved] at h; cases h
  | some removed =>
  cases hadded : B.sorted (new.keys.filter fun n => n ∉ s₁.ports.keys) with
  | none => simp only [hprune, hindex, hremoved, hadded] at h; cases h
  | some added =>
  cases hcommon : B.sorted (s₁.ports.keys.filter fun n => n ∈ new.keys) with
  | none => simp only [hprune, hindex, hremoved, hadded, hcommon] at h; cases h
  | some common =>
  cases hcompare : reconcileCommon B new common s₁ with
  | mk s₂ found =>
  cases found with
  | none => simp only [hprune, hindex, hremoved, hadded, hcommon, hcompare] at h; cases h
  | some found =>
      obtain ⟨updated, unchanged⟩ := found
      simp only [hprune, hindex, hremoved, hadded, hcommon, hcompare, Prod.mk.injEq, Option.some.injEq] at h
      obtain ⟨hports, -, -⟩ := pruneConfigGaps_spec hprune
      refine ⟨new, ⟨hindex, ?_, by rw [← hports, hremoved]; rfl, fun k r e hr he => ?_⟩, s₂, added, removed, updated, unchanged,
        planned hindex hprune hremoved hadded hcommon hcompare, Prod.ext h.1 h.2⟩
      · have hsome : (s.pruneConfigGaps B (reconcileNormalize newConfig)).isSome = true := by rw [hprune]; rfl
        simpa [pruneConfigGaps] using hsome
      · have hmem : k ∈ common := by
          rw [mem_sorted_filter hcommon, hports, Dict.mem_keys]
          exact ⟨⟨r, hr⟩, by simpa [Dict.mem_keys] using ⟨e, he⟩⟩
        have hsome : (reconcileCommon B new common s₁).2.isSome = true := by rw [hcompare]; rfl
        obtain ⟨e', he', hm⟩ := reconcileCommon_isSome.mp hsome k hmem
        cases he.symm.trans he'
        exact hm

/-- A reload that can read the list ends with a summary. -/
theorem Readable.completes {newConfig : Tree} (h : Readable B s newConfig new) (f : Key → Steps) :
    ∃ s' summary, s.reconcilePorts B f newConfig = (s', some summary) := by
  obtain ⟨labels, hlabels⟩ := Option.isSome_iff_exists.mp h.labels
  obtain ⟨s₁, hprune⟩ : ∃ s₁, s.pruneConfigGaps B (reconcileNormalize newConfig) = some s₁ :=
    ⟨_, by rw [pruneConfigGaps, hlabels]; rfl⟩
  obtain ⟨hports, -, -⟩ := pruneConfigGaps_spec hprune
  obtain ⟨removed, hremoved⟩ := Option.isSome_iff_exists.mp h.removed
  rw [← hports] at hremoved
  have htext : ∀ k ∈ new.keys, ∃ t, k = .str t := by
    intro k hk
    obtain ⟨e, he⟩ := Dict.mem_keys.mp hk
    obtain ⟨t, ht, -⟩ := indexByName_text h.index k e he
    exact ⟨t, ht⟩
  obtain ⟨added, hadded⟩ := sorted_filter_text (B := B) new.keys (fun n => n ∉ s₁.ports.keys) fun k hk _ => htext k hk
  obtain ⟨common, hcommon⟩ := sorted_filter_text (B := B) s₁.ports.keys (fun n => n ∈ new.keys)
    fun k _ hk => htext k (by simpa using hk)
  have hfound : (reconcileCommon B new common s₁).2.isSome = true := by
    refine reconcileCommon_isSome.mpr fun k hk => ?_
    rw [mem_sorted_filter hcommon, hports, Dict.mem_keys] at hk
    obtain ⟨⟨r, hr⟩, hmem⟩ := hk
    obtain ⟨e, he⟩ := Dict.mem_keys.mp (of_decide_eq_true hmem)
    exact ⟨e, he, h.material k r e hr he⟩
  obtain ⟨⟨updated, unchanged⟩, hfound⟩ := Option.isSome_iff_exists.mp hfound
  have hcompare : reconcileCommon B new common s₁ = ((reconcileCommon B new common s₁).1, some (updated, unchanged)) :=
    Prod.ext rfl hfound
  unfold reconcilePorts
  simp only [hprune, h.index, hremoved, hadded, hcommon]
  rw [hcompare]
  exact ⟨_, _, rfl⟩

/-- The outcome of a reload, one name at a time. -/
theorem reconcilePorts_spec {newConfig : Tree} {summary : Summary} (hindex : indexByName B ∅ (reconcileNormalize newConfig) = some new)
    (h : s.reconcilePorts B f newConfig = (s', some summary)) (k : Key) :
    s.Leads s' k (f k).register (verdict B (s.ports.get? k) (new.get? k) (f k)) ∧
      summary.Lists k (verdict B (s.ports.get? k) (new.get? k) (f k)).listing := by
  obtain ⟨new', hread, s₁, added, removed, updated, unchanged, hplan, hout⟩ := reconcilePorts_some h
  cases hindex.symm.trans hread.index
  obtain ⟨s₂, s₃, refused, kept, hstages⟩ := hplan.stages (f := f)
  rw [hout] at hstages
  exact ⟨hstages.leads hplan k, hstages.lists hplan k⟩

end Adapter

end OpenMux.Initiator
