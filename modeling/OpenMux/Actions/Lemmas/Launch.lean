import OpenMux.Actions.Launch

/-!
# The checks of a launch
-/

namespace OpenMux.Actions

open Py

variable {b : Builtins} {action : ActionScript} {raw : Dict Text Tree} {p : ActionParam} {v w : Tree}

/-! ## Conversions -/

theorem eq_of_map_eq_ok {ε α β : Type} {f : α → β} {x : Except ε α} {y : β} (h : x.map f = .ok y) : ∃ a, f a = y := by
  cases x with
  | error e => cases h
  | ok a => exact ⟨a, Except.ok.inj h⟩

theorem Builtins.convert_holds {type : ParamType} (h : b.convert type v = .ok w) : type.Holds w ∧ w ≠ .none := by
  cases type <;> (
    obtain ⟨x, rfl⟩ := eq_of_map_eq_ok h
    exact ⟨trivial, by simp⟩)

theorem Builtins.coerce_eq_ok : b.coerce p v = .ok w ↔ b.convert p.type v = .ok w := by
  unfold coerce
  split <;> simp_all

/-! ## Declared parameters -/

/-- What is known of the result after some parameters: each has the value that its last declaration made of it. -/
def Matches (b : Builtins) (raw : Dict Text Tree) (d : Dict Text ActionParam) (result : Dict Text Tree) : Prop :=
  ∀ name, match d.get? name with
    | none => result.get? name = none
    | some p => p.name = name ∧ ∃ v, ActionScript.validateOne b raw p = .ok v ∧ result.get? name = some v

theorem matches_validateEach {d : Dict Text ActionParam} {ps : List ActionParam} {result validated : Dict Text Tree}
    (hd : Matches b raw d result) (h : ActionScript.validateEach b raw ps result = .ok validated) :
    Matches b raw (ps.foldl (fun d p => d.set p.name p) d) validated := by
  induction ps generalizing d result with
  | nil =>
      cases h
      exact hd
  | cons p ps ih =>
      simp only [ActionScript.validateEach] at h
      split at h
      · cases h
      · rename_i v hv
        apply ih _ h
        intro name
        by_cases hname : name = p.name
        · subst hname
          simpa using hv
        · rw [Dict.get?_set_ne _ _ hname, Dict.get?_set_ne _ _ hname]
          exact hd name

theorem matches_validateParams {validated : Dict Text Tree} (h : action.validateParams b raw = .ok validated) :
    Matches b raw action.declared validated := by
  unfold ActionScript.validateParams at h
  split at h
  · cases h
  · exact matches_validateEach (d := ∅) (fun name => by simp) h

/-! ## One parameter -/

theorem valueFor_of_get? (h : raw.get? p.name = some v) : ActionScript.valueFor raw p = .ok v := by
  simp [ActionScript.valueFor, h]

/-- A value that comes out is the default or the one given, and it is the null of a required parameter only if that was given. -/
theorem valueFor_eq_ok (h : ActionScript.valueFor raw p = .ok v) :
    (raw.get? p.name).getD p.default = v ∧ (p.required = true → v = .none → raw.get? p.name = some .none) := by
  unfold ActionScript.valueFor at h
  split at h
  · rename_i hget
    cases h
    exact ⟨by rw [hget]; rfl, fun _ hv => by rw [hget, hv]⟩
  · cases h
  · rename_i hget hnone
    cases h
    refine ⟨by rw [hget]; rfl, fun hrequired hv => ?_⟩
    exact absurd hv (hnone hrequired)

/-- What comes out for a parameter satisfies its declaration exactly if what went in fits it. -/
theorem satisfied_iff (h : ActionScript.validateOne b raw p = .ok w) : p.Satisfied b w ↔ p.Fits b raw := by
  unfold ActionScript.validateOne at h
  split at h
  · cases h
  · rename_i hvalue
    cases h
    obtain ⟨hget, hnull⟩ := valueFor_eq_ok hvalue
    constructor
    · intro hs
      refine ⟨fun hrequired => absurd rfl (hs.given hrequired), fun _ v hv hne => ?_⟩
      exact absurd (hv.symm.trans hget) hne
    · intro hf
      refine ⟨fun hrequired _ => hf.given hrequired (hnull hrequired rfl), ?_, ?_⟩
      · exact fun hne => absurd rfl hne
      · exact fun _ hne => absurd rfl hne
  · rename_i v hne hvalue
    obtain ⟨hget, -⟩ := valueFor_eq_ok hvalue
    have hconv := Builtins.coerce_eq_ok.mp h
    obtain ⟨hholds, hw⟩ := Builtins.convert_holds hconv
    constructor
    · intro hs
      refine ⟨fun _ hnull => ?_, fun hwidget v' hv' _ => ?_⟩
      · exact hne (hget.symm.trans (by rw [hnull]; rfl))
      · rw [← hv', hget]
        exact ⟨w, hconv, hs.chosen hwidget hw⟩
    · intro hf
      refine ⟨fun _ => hw, fun _ => hholds, fun hwidget _ => ?_⟩
      obtain ⟨w', hw', hchoice⟩ := hf.chosen hwidget v hget hne
      rw [hconv] at hw'
      cases hw'
      exact hchoice

/-- The parameters that come out conform exactly if those that went in fit the declarations. -/
theorem conforms_iff {validated : Dict Text Tree} (h : action.validateParams b raw = .ok validated) :
    action.Conforms b validated ↔ ∀ name p, action.declared.get? name = some p → p.Fits b raw := by
  have hmatches := matches_validateParams h
  constructor
  · intro hc name p hp
    have hone := hmatches name
    rw [hp] at hone
    obtain ⟨-, v, hv, hget⟩ := hone
    obtain ⟨v', hget', hs⟩ := hc.satisfied name p hp
    rw [hget] at hget'
    cases hget'
    exact (satisfied_iff hv).mp hs
  · intro hf
    refine ⟨fun name hp => ?_, fun name p hp => ?_⟩
    · have hone := hmatches name
      rwa [hp] at hone
    · have hone := hmatches name
      rw [hp] at hone
      obtain ⟨-, v, hv, hget⟩ := hone
      exact ⟨v, hget, (satisfied_iff hv).mpr (hf name p hp)⟩

/-! ## Launches -/

namespace Launcher

variable {s : Launcher} {runId : Text} {l : Launch}

/-- The launcher is the runner with what the parameters are. -/
theorem runner_launchRun :
    (s.launchRun b runId action l raw).1.runner = (s.runner.launchRun runId l (action.validateParams b raw).toBool).1 := by
  unfold launchRun Runner.launchRun
  by_cases hbusy : (s.runner.getActiveRun l.portName).isSome = true
  · rw [if_pos hbusy, if_pos hbusy]
  · rw [if_neg hbusy, if_neg hbusy]
    cases action.validateParams b raw <;> rfl

theorem settle_eq_iff {portName : Text} : s.settle portName = s ↔ s.runner.openFinishedByPort.get? portName = none := by
  constructor
  · intro h
    have hrunner : (s.runner.closePrior portName).openFinishedByPort.get? portName = s.runner.openFinishedByPort.get? portName :=
      congrArg (fun t : Launcher => t.runner.openFinishedByPort.get? portName) h
    rw [← hrunner, Runner.closePrior]
    split
    · assumption
    · simp [Runner.updateRun]
  · intro h
    simp [settle, prior, Runner.closePrior, h]

end Launcher

end OpenMux.Actions
