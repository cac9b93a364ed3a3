import OpenMux.ConfigEditor.Apply

/-!
# What a save writes
-/

namespace OpenMux.ConfigEditor

open Py

variable {violates : Mapping → Bool} {cm : Manager} {r : Request} {payload prepared : Mapping} {name : Key}

theorem unmodified_of_not_mem {current new : Mapping} (h : name ∉ (current ++ new).map Prod.fst) :
    unmodified current new name = true := by
  have habsent : ∀ m : Mapping, name ∉ m.map Prod.fst → sectionValue m name = .none := by
    intro m hm
    unfold sectionValue
    cases hv : Dict.findList name m with
    | none => rfl
    | some v => exact absurd (List.mem_map_of_mem (f := Prod.fst) (Dict.mem_of_findList hv)) hm
  rw [List.map_append, List.mem_append, not_or] at h
  simp [unmodified, habsent current h.1, habsent new h.2, normalizeSectionValue, Tree.eq]

/-- A save is let through when no read-only section shows a difference. -/
theorem enforce_eq_nil : enforceWritableSections cm payload = [] ↔ Passes cm payload := by
  unfold enforceWritableSections Passes Manager.ReadOnly
  cases hpolicy : cm.getSecurityPolicy with
  | none => simp
  | some policy =>
      have hfilter : (if policy.configEditorWritableSections = [] then detectModifiedSections cm.config payload
          else (detectModifiedSections cm.config payload).filter fun name => !policy.writable name) =
          (detectModifiedSections cm.config payload).filter fun name => !policy.writable name := by
        split
        · rename_i hnil
          simp [SecurityPolicy.writable, hnil]
        · rfl
      dsimp only
      rw [hfilter, List.filter_eq_nil_iff]
      constructor
      · rintro h name ⟨_, hp, hw⟩
        cases hp
        by_contra hmod
        by_cases hmem : name ∈ (cm.config ++ payload).map Prod.fst
        · exact h name (List.mem_filter.mpr ⟨hmem, by simpa using hmod⟩) (by simp [hw])
        · exact hmod (unmodified_of_not_mem hmem)
      · intro h name hname hw
        have hmod := (List.mem_filter.mp hname).2
        rw [h name ⟨policy, rfl, by simpa using hw⟩] at hmod
        cases hmod

/-- The policy stays the same once it is kept. -/
theorem getSecurityPolicy_kept : Manager.getSecurityPolicy { cm with securityPolicy := cm.getSecurityPolicy } =
    cm.getSecurityPolicy := by
  unfold Manager.getSecurityPolicy
  cases h : cm.securityPolicy with
  | some policy => rfl
  | none =>
      dsimp only
      cases SecurityPolicy.fromMapping cm.securityFile.policyData <;> rfl

theorem enforce_kept : enforceWritableSections { cm with securityPolicy := cm.getSecurityPolicy } payload =
    enforceWritableSections cm payload := by
  unfold enforceWritableSections
  rw [getSecurityPolicy_kept]

/-- A valid payload has its accounts inline. -/
theorem find_of_validatePayload (h : validatePayload violates cm prepared = some payload) :
    ∃ auth, Mapping.find "authentication".toList payload = some (.dict auth) := by
  unfold validatePayload at h
  split at h
  · cases h
  · have hreq := (Option.filter_eq_some_iff.mp h).1
    unfold validateRequiredSections at hreq
    split at hreq
    · cases hreq
    · split at hreq
      · rename_i auth hauth
        cases hreq
        exact ⟨auth, hauth⟩
      · cases hreq
      · obtain ⟨auth, -, rfl⟩ := Option.map_eq_some_iff.mp hreq
        exact ⟨auth, Mapping.find_assign_self⟩

theorem findList_pop (h : name ≠ authentication) :
    Dict.findList name (Mapping.pop "authentication".toList payload) = Dict.findList name payload := by
  unfold Mapping.pop
  rw [Dict.findList_filter_ne]
  exact if_neg h

theorem saveConfig_unwritable (cm : Manager) (payload : Mapping) (h : r.writesServer = false) :
    (saveConfig cm r payload).serverYaml = none ∧ (saveConfig cm r payload).authYaml = none := by
  unfold saveConfig
  rw [h]
  exact ⟨rfl, rfl⟩

theorem saveConfig_writes {auth : Mapping} (h : r.writesServer = true)
    (hauth : Mapping.find "authentication".toList payload = some (.dict auth)) :
    (saveConfig cm r payload).serverYaml = some (Mapping.pop "authentication".toList payload) ∧
      (saveConfig cm r payload).authYaml = if r.writesAuth then some auth else none := by
  unfold saveConfig
  rw [h, hauth]
  cases r.writesAuth <;> exact ⟨rfl, rfl⟩

/-- What a save that is let through writes. -/
theorem handleApply_saves (h : Submits violates cm r payload) (hp : Passes cm payload) :
    ∃ auth, Dict.findList authentication payload = some (.dict auth) ∧
      (handleApply violates cm r).serverYaml = some (Mapping.pop "authentication".toList payload) ∧
      (handleApply violates cm r).authYaml = if r.writesAuth then some auth else none := by
  obtain ⟨hadmin, hcsrf, hwrites, m, prepared, hbody, hprepare, hvalid⟩ := h
  obtain ⟨auth, hauth⟩ := find_of_validatePayload hvalid
  have hsave : handleApply violates cm r =
      saveConfig { cm with securityPolicy := cm.getSecurityPolicy } r payload := by
    unfold handleApply
    simp only [hadmin, hcsrf, hbody, hprepare, hvalid, enforce_kept, enforce_eq_nil.mpr hp]
    rfl
  rw [hsave]
  exact ⟨auth, hauth, saveConfig_writes hwrites hauth⟩

/-- What is written was submitted and let through. -/
theorem of_handleApply (h : (handleApply violates cm r).serverYaml.isSome ∨ (handleApply violates cm r).authYaml.isSome) :
    ∃ payload, Submits violates cm r payload ∧ Passes cm payload := by
  unfold handleApply at h
  split at h
  · simp at h
  · rename_i hgate
    simp only [Bool.or_eq_true, Bool.not_eq_true', not_or, Bool.not_eq_false] at hgate
    split at h
    · simp at h
    · rename_i m hbody
      split at h
      · simp at h
      · rename_i prepared hprepare
        split at h
        · simp at h
        · rename_i payload hvalid
          dsimp only at h
          split at h
          · simp at h
          · rename_i hnil
            rw [not_not, enforce_kept, enforce_eq_nil] at hnil
            refine ⟨payload, ⟨hgate.1, hgate.2, ?_, m, prepared, hbody, hprepare, hvalid⟩, hnil⟩
            by_contra hw
            obtain ⟨hserver, hauth⟩ := saveConfig_unwritable { cm with securityPolicy := cm.getSecurityPolicy } payload
              (Bool.not_eq_true _ ▸ hw)
            rw [hserver, hauth] at h
            simp at h
    · simp at h

theorem keepsReadOnly_iff {β : Type*} (read : Key → Option Tree → β) :
    (handleApply violates cm r).KeepsReadOnly read cm ↔
      ∀ payload, Submits violates cm r payload → Passes cm payload → Honest read cm r payload := by
  constructor
  · intro h payload hs hp
    obtain ⟨auth, hauth, hserver, hauthYaml⟩ := handleApply_saves hs hp
    refine ⟨h.policy (.inl (by simp [hserver])), fun name hro hw => ?_⟩
    by_cases hname : name = authentication
    · subst hname
      rw [if_pos (hw rfl)] at hauthYaml
      rw [hauth]
      exact h.auth auth hauthYaml hro
    · have := h.server _ hserver name hro hname
      rwa [findList_pop hname] at this
  · intro h
    have hsaved : ∀ {p : Prop}, ((handleApply violates cm r).serverYaml.isSome ∨ (handleApply violates cm r).authYaml.isSome) →
        (∀ payload auth, Honest read cm r payload → Dict.findList authentication payload = some (.dict auth) →
          (handleApply violates cm r).serverYaml = some (Mapping.pop "authentication".toList payload) →
          (handleApply violates cm r).authYaml = (if r.writesAuth then some auth else none) → p) → p := by
      intro p hw hp
      obtain ⟨payload, hs, hpass⟩ := of_handleApply hw
      obtain ⟨auth, hauth, hserver, hauthYaml⟩ := handleApply_saves hs hpass
      exact hp payload auth (h payload hs hpass) hauth hserver hauthYaml
    refine ⟨fun hw => hsaved hw fun _ _ hh _ _ _ => hh.1, fun y hy name hro hname => ?_, fun y hy hro => ?_⟩
    · refine hsaved (.inl (by simp [hy])) fun payload auth hh _ hserver _ => ?_
      rw [hserver] at hy
      cases hy
      rw [findList_pop hname]
      exact hh.2 name hro fun he => absurd he hname
    · refine hsaved (.inr (by simp [hy])) fun payload auth hh hauth _ hauthYaml => ?_
      rw [hauthYaml] at hy
      split at hy
      · cases hy
        rw [← hauth]
        exact hh.2 authentication hro fun _ => ‹_›
      · cases hy

end OpenMux.ConfigEditor
