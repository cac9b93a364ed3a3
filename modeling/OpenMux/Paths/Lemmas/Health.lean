import Mathlib
import OpenMux.Paths.Failover
import OpenMux.Paths.Lemmas.Shape

/-!
# What the selector and the sweep choose

Each as the member that is primary afterwards; from this, when the choice is a good one.
-/

namespace OpenMux.Paths.Group

open Py

variable {cfg : Config} {env : Env} {g : Group} {m p : Member} {ms : List Member}

/-! ## The member that is primary -/

theorem primaryMember_of_mem (h : m ∈ g.conns.entries) (hp : g.primary = some m.1) : g.primaryMember = some m := by
  have hget : g.conns.get? m.1 = some m.2 := Dict.mem_entries.mp h
  simp [primaryMember, hp, hget]

theorem mem_of_primaryMember (h : g.primaryMember = some p) : g.primary = some p.1 ∧ p ∈ g.conns.entries := by
  obtain ⟨connId, hprimary, h⟩ := Option.bind_eq_some_iff.mp h
  obtain ⟨info, hinfo, rfl⟩ := Option.map_eq_some_iff.mp h
  exact ⟨hprimary, Dict.mem_entries.mpr hinfo⟩

theorem primaryMember_congr {g' : Group} (hc : g'.conns = g.conns) (hp : g'.primary = g.primary) :
    g'.primaryMember = g.primaryMember := by
  unfold primaryMember
  rw [hc, hp]

theorem pref_le_of_preferred (h : preferred ms = some m) (hp : p ∈ ms) : p.2.pref ≤ m.2.pref := by
  have hle := List.le_of_mem_argmax hp h
  have hcast : (p.2.pref : ℚ) ≤ m.2.pref := (Prod.Lex.le_iff.mp hle).elim le_of_lt fun he => he.1.le
  exact_mod_cast hcast

/-- The preferred member of those with a property has it. -/
theorem preferred_filter {P : Member → Bool} (h : preferred (ms.filter P) = some m) : m ∈ ms ∧ P m = true :=
  List.mem_filter.mp (mem_of_preferred h)

theorem exists_preferred (h : ms ≠ []) : ∃ m, preferred ms = some m :=
  Option.ne_none_iff_exists'.mp fun hnone => h (preferred_eq_none.mp hnone)

/-! ## The selector -/

theorem mem_selectable : m ∈ g.selectable cfg env ↔ m ∈ g.conns.entries ∧ mpathConnStale cfg env m = false := by
  simp [selectable]

theorem not_frozen_of_not_stale (h : mpathConnStale cfg env m = false) : env.frozen m.1 = false := by
  unfold mpathConnStale at h
  exact (Bool.or_eq_false_iff.mp h).2

theorem clearStale_some : g.mpathClearStalePrimary cfg env = some p ↔
    g.primaryMember = some p ∧ mpathConnStale cfg env p = false := by
  simp [mpathClearStalePrimary, Option.filter_eq_some_iff]

/-- The member that is primary after the selector. -/
theorem primaryMember_select : (g.selectMpathConnection cfg env).primaryMember =
    match g.mpathClearStalePrimary cfg env with
    | none => preferred (g.promotable cfg env)
    | some p =>
        if Preempts cfg then (preferred ((g.selectable cfg env).filter fun m => p.2.pref < m.2.pref)).or (some p) else some p := by
  unfold selectMpathConnection
  cases hcur : g.mpathClearStalePrimary cfg env with
  | none =>
      dsimp only
      cases hpref : preferred (g.promotable cfg env) with
      | none => simp [mpathPromotePrimary, hpref, primaryMember]
      | some m => exact primaryMember_of_mem (mem_of_promotable (mem_of_preferred hpref)) (by simp [mpathPromotePrimary, hpref])
  | some p =>
      have hp := (clearStale_some.mp hcur).1
      by_cases hpre : Preempts cfg
      · simp only [if_pos hpre]
        rw [if_pos (show cfg.mpathPreemptivePromote = true ∧ cfg.bestPref = true from hpre)]
        unfold mpathTryPreempt
        cases hpref : preferred ((g.selectable cfg env).filter fun m => p.2.pref < m.2.pref) with
        | none => simpa using hp
        | some m =>
            have hmem := (mem_selectable.mp (preferred_filter hpref).1).1
            exact primaryMember_of_mem (g := { g with primary := some m.1 }) hmem rfl
      · simp only [if_neg hpre]
        rw [if_neg (show ¬(cfg.mpathPreemptivePromote = true ∧ cfg.bestPref = true) from hpre)]
        exact hp

/-- A member that has had a frame within the window of the selector is not stale for the sweep. -/
theorem not_sweepStale (hwindow : 0 < cfg.mpathPrimaryStaleSec) (h : mpathConnStale cfg env m = false) :
    sweepStale cfg env m = false := by
  have hle : cfg.mpathPrimaryStaleSec ≤ effectiveStaleSec cfg := le_max_left _ _
  have hrx : env.now - cfg.mpathPrimaryStaleSec ≤ m.2.lastRxSeen := by
    unfold mpathConnStale selectCutoff at h
    rw [if_pos hwindow] at h
    simpa using (Bool.or_eq_false_iff.mp h).1
  have hactivity : m.2.lastRxSeen ≤ lastActivity env m := by
    unfold lastActivity
    split
    · exact le_max_left _ _
    · rename_i hzero
      rw [not_not] at hzero
      rw [hzero]
      exact (env.lastAck m.1).coe_nonneg.trans (le_max_right _ _)
  unfold sweepStale mflStaleWindow
  rw [if_pos (hwindow.trans_le hle)]
  simp only [decide_eq_false_iff_not, not_lt]
  linarith

theorem fresh_of_selectable (hwindow : 0 < cfg.mpathPrimaryStaleSec) (h : m ∈ g.selectable cfg env) : Fresh cfg env m :=
  ⟨not_sweepStale hwindow (mem_selectable.mp h).2, not_frozen_of_not_stale (mem_selectable.mp h).2⟩

/-- Only a member that is frozen can be stale for a selector without a window. -/
theorem window_of_stale (hfresh : Fresh cfg env m) (h : mpathConnStale cfg env m = true) : 0 < cfg.mpathPrimaryStaleSec := by
  by_contra hno
  unfold mpathConnStale selectCutoff at h
  simp [if_neg hno, hfresh.2] at h

theorem promotesFresh_iff : g.PromotesFresh cfg env ↔ PreferredIs (g.promotable cfg env) (Fresh cfg env) := by
  refine or_iff_right_of_imp ?_
  rintro ⟨hwindow, hne⟩
  have hpromotable : g.promotable cfg env = g.selectable cfg env := if_neg hne
  obtain ⟨m, hm⟩ := exists_preferred hne
  exact ⟨m, by rw [hpromotable, hm], fresh_of_selectable hwindow (mem_of_preferred hm)⟩

/-- The selector leaves a usable primary where it has none of its own to keep. -/
theorem select_promotesFresh (h : g.mpathClearStalePrimary cfg env = none) :
    PreferredIs (g.promotable cfg env) (Fresh cfg env) ↔
      ∃ m, (g.selectMpathConnection cfg env).primaryMember = some m ∧ Fresh cfg env m := by
  rw [primaryMember_select, h]
  rfl

/-! ## The sweep -/

theorem mem_alternatives {connId : Text} :
    m ∈ g.alternatives cfg env connId ↔ m ∈ g.conns.entries ∧ m.1 ≠ connId ∧ sweepStale cfg env m = false := by
  simp [alternatives]

/-- The selector does not read when the primary has last been changed. -/
theorem primaryMember_select_congr {g' : Group} (hc : g'.conns = g.conns) (hp : g'.primary = g.primary) :
    (g'.selectMpathConnection cfg env).primaryMember = (g.selectMpathConnection cfg env).primaryMember := by
  have hclear : g'.mpathClearStalePrimary cfg env = g.mpathClearStalePrimary cfg env := by
    simp only [mpathClearStalePrimary, primaryMember_congr hc hp]
  have hselectable : g'.selectable cfg env = g.selectable cfg env := by
    simp only [selectable, hc]
  have hpromotable : g'.promotable cfg env = g.promotable cfg env := by
    simp only [promotable, hselectable, hc]
  rw [primaryMember_select, primaryMember_select, hclear, hselectable, hpromotable]

theorem primaryMember_mflStalePromote {connId : Text}
    (hcalm : 3 / 2 * cfg.mpathFailoverCheckSec ≤ env.now - g.lastPrimaryChange.getD 0) :
    (g.mflStalePromote cfg env connId).primaryMember =
      if g.alternatives cfg env connId = [] then g.primaryMember else (g.selectMpathConnection cfg env).primaryMember := by
  unfold mflStalePromote
  split
  · rfl
  · rw [if_neg (not_lt.mpr hcalm)]
    dsimp only
    split
    · split <;> rfl
    · rfl

theorem primaryMember_mflPreemptiveScan (hp : g.primaryMember = some p)
    (hcalm : cfg.mpathFailoverCheckSec ≤ env.now - g.lastPrimaryChange.getD 0) :
    (g.mflPreemptiveScan cfg env p.1 p.2).primaryMember =
      (preferred ((g.alternatives cfg env p.1).filter fun m => p.2.pref < m.2.pref)).or (some p) := by
  unfold mflPreemptiveScan
  cases hpref : preferred ((g.alternatives cfg env p.1).filter fun m => p.2.pref < m.2.pref) with
  | none => simpa using hp
  | some m =>
      dsimp only
      rw [if_pos hcalm]
      have hmem := (mem_alternatives.mp (preferred_filter hpref).1).1
      exact primaryMember_of_mem
        (g := { g with primary := some m.1, lastPrimaryChange := some env.now }) hmem rfl

/-- The member that is primary after the sweep, out of the throttle. -/
theorem primaryMember_sweepPrimary (hcheck : 0 < cfg.mpathFailoverCheckSec) (hcalm : g.OutOfThrottle cfg env) :
    (g.sweepPrimary cfg env).primaryMember =
      match g.primaryMember with
      | none => (g.selectMpathConnection cfg env).primaryMember
      | some p =>
          if sweepStale cfg env p then
            if g.alternatives cfg env p.1 = [] then some p else (g.selectMpathConnection cfg env).primaryMember
          else if Preempts cfg then
            (preferred ((g.alternatives cfg env p.1).filter fun m => p.2.pref < m.2.pref)).or (some p)
          else some p := by
  unfold sweepPrimary
  cases hp : g.primaryMember with
  | none => rfl
  | some p =>
      have hchange := hcalm p hp
      dsimp only
      unfold mflEvalPrimary
      set g₀ : Group := { g with lastPrimaryChange := some (g.lastChange env p.2) } with hg₀
      have hp₀ : g₀.primaryMember = some p := (primaryMember_congr rfl rfl).trans hp
      by_cases hstale : sweepStale cfg env p = true
      · simp only [if_pos hstale]
        rw [primaryMember_mflStalePromote (by simpa [hg₀] using hchange), hp₀,
          show (g₀.selectMpathConnection cfg env).primaryMember = (g.selectMpathConnection cfg env).primaryMember from
            primaryMember_select_congr rfl rfl]
        rfl
      · simp only [if_neg hstale]
        by_cases hpre : Preempts cfg
        · rw [if_pos (show cfg.mpathPreemptivePromote = true ∧ cfg.bestPref = true from hpre), if_pos hpre,
            primaryMember_mflPreemptiveScan hp₀ (by simp [hg₀]; linarith)]
          rfl
        · rw [if_neg (show ¬(cfg.mpathPreemptivePromote = true ∧ cfg.bestPref = true) from hpre), if_neg hpre, hp₀]

/-! ## Good choices -/

theorem usable_iff (h : ∃ m ∈ g.conns.entries, Fresh cfg env m) :
    g.Usable cfg env ↔ ∃ m, g.primaryMember = some m ∧ Fresh cfg env m :=
  ⟨fun husable => husable h, fun hfresh _ => hfresh⟩

theorem promotesFresh_iff_select (h : g.mpathClearStalePrimary cfg env = none) :
    (∃ m, (g.selectMpathConnection cfg env).primaryMember = some m ∧ Fresh cfg env m) ↔ g.PromotesFresh cfg env := by
  rw [promotesFresh_iff, select_promotesFresh h]

theorem clearStale_none (hp : g.primaryMember = some p) (h : mpathConnStale cfg env p = true) :
    g.mpathClearStalePrimary cfg env = none := by
  simp [mpathClearStalePrimary, hp, h]

theorem or_some_iff {o : Option Member} {P : Member → Prop} :
    (∃ m, o.or (some p) = some m ∧ P m) ↔ (∃ m, o = some m ∧ P m) ∨ o = none ∧ P p := by
  cases o <;> simp

theorem fresh_of_preferred_selectable {P : Member → Bool}
    (h : preferred ((g.selectable cfg env).filter P) = some m) : Fresh cfg env m ↔ sweepStale cfg env m = false :=
  and_iff_left (not_frozen_of_not_stale (mem_selectable.mp (preferred_filter h).1).2)

/-- The selector, with a primary that is stale for the sweep only. -/
theorem fresh_preempted (hstale : sweepStale cfg env p = true) :
    (∃ m, (if Preempts cfg then (preferred ((g.selectable cfg env).filter fun m => p.2.pref < m.2.pref)).or (some p)
      else some p) = some m ∧ Fresh cfg env m) ↔
      Preempts cfg ∧ PreferredIs ((g.selectable cfg env).filter fun m => p.2.pref < m.2.pref) fun m =>
        sweepStale cfg env m = false := by
  have hnot : ¬ Fresh cfg env p := by
    simp [Fresh, hstale]
  by_cases hpre : Preempts cfg
  · rw [if_pos hpre, or_some_iff, or_iff_left fun h => hnot h.2, and_iff_right hpre]
    exact exists_congr fun m => and_congr_right fun hm => fresh_of_preferred_selectable hm
  · simp [hpre, hnot]

/-- The preemptive scan, with a primary that is not stale. -/
theorem fresh_scanned (hstale : sweepStale cfg env p = false) :
    (∃ m, (if Preempts cfg then
        (preferred ((g.alternatives cfg env p.1).filter fun m => p.2.pref < m.2.pref)).or (some p)
      else some p) = some m ∧ Fresh cfg env m) ↔
      if Preempts cfg ∧ ∃ m ∈ g.alternatives cfg env p.1, p.2.pref < m.2.pref then
        PreferredIs ((g.alternatives cfg env p.1).filter fun m => p.2.pref < m.2.pref) fun m => env.frozen m.1 = false
      else env.frozen p.1 = false := by
  have hp : Fresh cfg env p ↔ env.frozen p.1 = false := and_iff_right hstale
  by_cases hpre : Preempts cfg
  · rw [if_pos hpre, or_some_iff]
    by_cases hbetter : ∃ m ∈ g.alternatives cfg env p.1, p.2.pref < m.2.pref
    · have hne : preferred ((g.alternatives cfg env p.1).filter fun m => p.2.pref < m.2.pref) ≠ none := by
        obtain ⟨m, hm, hlt⟩ := hbetter
        rw [Ne, preferred_eq_none]
        exact List.ne_nil_of_mem (List.mem_filter.mpr ⟨hm, by simpa using hlt⟩)
      rw [if_pos ⟨hpre, hbetter⟩, or_iff_left fun h => hne h.1]
      exact exists_congr fun m => and_congr_right fun hm =>
        and_iff_right (mem_alternatives.mp (preferred_filter hm).1).2.2
    · have hnone : preferred ((g.alternatives cfg env p.1).filter fun m => p.2.pref < m.2.pref) = none := by
        rw [preferred_eq_none, List.filter_eq_nil_iff]
        intro m hm hlt
        exact hbetter ⟨m, hm, by simpa using hlt⟩
      rw [if_neg fun h => hbetter h.2, hnone]
      simpa using hp
  · rw [if_neg hpre, if_neg fun h => hpre h.1]
    simpa using hp

/-- The primary after the sweep is usable, if there is a fresh member, exactly if the group was recoverable. -/
theorem usable_sweepPrimary (hcheck : 0 < cfg.mpathFailoverCheckSec) (hcalm : g.OutOfThrottle cfg env) :
    (g.sweepPrimary cfg env).Usable cfg env ↔ g.Recoverable cfg env := by
  by_cases hfresh : ∃ m ∈ g.conns.entries, Fresh cfg env m
  · rw [usable_iff (conns_sweepPrimary (g := g) ▸ hfresh), primaryMember_sweepPrimary hcheck hcalm]
    have hsome : ¬ ∀ m ∈ g.conns.entries, ¬ Fresh cfg env m := by
      simpa using hfresh
    unfold Recoverable
    rw [or_iff_right hsome]
    cases hp : g.primaryMember with
    | none => exact promotesFresh_iff_select (by simp [mpathClearStalePrimary, hp])
    | some p =>
        dsimp only
        by_cases hstale : sweepStale cfg env p = true
        · -- The fresh member is another one than the primary.
          obtain ⟨m, hm, hmfresh⟩ := hfresh
          have hne : g.alternatives cfg env p.1 ≠ [] := by
            refine List.ne_nil_of_mem (mem_alternatives.mpr ⟨hm, ?_, hmfresh.1⟩)
            intro he
            have hsame := primaryMember_of_mem hm (he ▸ (mem_of_primaryMember hp).1)
            rw [hp, Option.some.injEq] at hsame
            rw [hsame, hmfresh.1] at hstale
            cases hstale
          rw [if_pos hstale, if_pos hstale, if_neg hne]
          by_cases hconn : mpathConnStale cfg env p = true
          · rw [if_pos hconn]
            exact promotesFresh_iff_select (clearStale_none hp hconn)
          · rw [if_neg hconn, primaryMember_select, clearStale_some.mpr ⟨hp, by simpa using hconn⟩]
            exact fresh_preempted hstale
        · rw [if_neg hstale, if_neg hstale]
          exact fresh_scanned (by simpa using hstale)
  · have hnone : ∀ m ∈ g.conns.entries, ¬ Fresh cfg env m := by
      simpa using hfresh
    refine iff_of_true (fun h => ?_) (.inl hnone)
    rw [conns_sweepPrimary] at h
    exact absurd h hfresh

/-- The selector keeps a fresh primary or finds a better one. -/
theorem steady_select : g.Steady cfg env (g.selectMpathConnection cfg env) ↔ g.KeepsFresh cfg env := by
  refine forall_congr' fun p => forall_congr' fun hp => forall_congr' fun hfresh => ?_
  rw [primaryMember_select]
  by_cases hconn : mpathConnStale cfg env p = true
  · rw [if_pos hconn, clearStale_none hp hconn]
    have hwindow := window_of_stale hfresh hconn
    by_cases hsel : g.selectable cfg env = []
    · rw [if_pos hsel, show g.promotable cfg env = g.conns.entries from if_pos hsel]
      rfl
    · rw [if_neg hsel, show g.promotable cfg env = g.selectable cfg env from if_neg hsel]
      constructor
      · rintro ⟨m, hm, rfl | ⟨_, hlt⟩⟩
        · exact absurd (mem_selectable.mp (mem_of_preferred hm)).2 (by simp [hconn])
        · exact ⟨m, mem_of_preferred hm, hlt⟩
      · rintro ⟨m, hm, hlt⟩
        obtain ⟨q, hq⟩ := exists_preferred hsel
        have hbetter : p.2.pref < q.2.pref := hlt.trans_le (pref_le_of_preferred hq hm)
        exact ⟨q, hq, .inr ⟨fresh_of_selectable hwindow (mem_of_preferred hq), hbetter⟩⟩
  · rw [if_neg hconn, clearStale_some.mpr ⟨hp, by simpa using hconn⟩]
    dsimp only
    by_cases hpre : Preempts cfg
    · rw [if_pos hpre, or_some_iff]
      cases hpref : preferred ((g.selectable cfg env).filter fun m => p.2.pref < m.2.pref) with
      | none => simp
      | some q =>
          obtain ⟨hq, hlt⟩ := preferred_filter hpref
          have hlt : p.2.pref < q.2.pref := by
            simpa using hlt
          have hne : q ≠ p := by
            rintro rfl
            exact lt_irrefl _ hlt
          have hstale : 0 < cfg.mpathPrimaryStaleSec → sweepStale cfg env q = false := fun hwindow =>
            (fresh_of_selectable hwindow hq).1
          have hq := fresh_of_preferred_selectable hpref
          simp only [Option.some.injEq, exists_eq_left', reduceCtorEq, false_and, or_false, hne, false_or, hlt, and_true, hq,
            hpre, not_true_eq_false, forall_eq']
          exact ⟨.inr, fun h => h.elim hstale id⟩
    · simp [hpre]

/-- The selector leaves a frozen primary only if every member is frozen. -/
theorem unfrozen_select : (g.selectMpathConnection cfg env).Unfrozen env ↔ g.AvoidsFrozen cfg env := by
  unfold Unfrozen AvoidsFrozen
  rw [primaryMember_select, conns_select]
  by_cases hsel : g.selectable cfg env = []
  · have hclear : g.mpathClearStalePrimary cfg env = none := by
      rw [Option.eq_none_iff_forall_ne_some]
      intro p hp
      have hp := clearStale_some.mp hp
      have hmem : p ∈ g.selectable cfg env := mem_selectable.mpr ⟨(mem_of_primaryMember hp.1).2, hp.2⟩
      rw [hsel] at hmem
      cases hmem
    rw [hclear, or_iff_right (not_not.mpr hsel), show g.promotable cfg env = g.conns.entries from if_pos hsel]
    constructor
    · intro h
      by_cases hall : ∀ m ∈ g.conns.entries, env.frozen m.1 = true
      · exact .inl hall
      · refine .inr fun m hm => ?_
        by_contra hfrozen
        exact hall (h m hm (by simpa using hfrozen))
    · rintro (hall | hfree) p hp hfrozen
      · exact hall
      · rw [hfree p hp] at hfrozen
        cases hfrozen
  · refine iff_of_true (fun p hp hfrozen => ?_) (.inl hsel)
    suffices hmem : mpathConnStale cfg env p = false by
      rw [not_frozen_of_not_stale hmem] at hfrozen
      cases hfrozen
    cases hclear : g.mpathClearStalePrimary cfg env with
    | none =>
        rw [hclear, show g.promotable cfg env = g.selectable cfg env from if_neg hsel] at hp
        exact (mem_selectable.mp (mem_of_preferred hp)).2
    | some q =>
        have hq := (clearStale_some.mp hclear).2
        rw [hclear] at hp
        dsimp only at hp
        by_cases hpre : Preempts cfg
        · rw [if_pos hpre] at hp
          cases hpref : preferred ((g.selectable cfg env).filter fun m => q.2.pref < m.2.pref) with
          | none =>
              rw [hpref, Option.none_or, Option.some.injEq] at hp
              exact hp ▸ hq
          | some m =>
              rw [hpref, Option.some_or, Option.some.injEq] at hp
              exact hp ▸ (mem_selectable.mp (preferred_filter hpref).1).2
        · rw [if_neg hpre, Option.some.injEq] at hp
          exact hp ▸ hq

end OpenMux.Paths.Group

namespace OpenMux.Paths.Node

open Py

variable {cfg : Config} {now : ℚ} {n : Node} {key : Text} {g : Group}

/-! ## The groups of a node -/

theorem get?_putGroup_self :
    (n.putGroup key g).groups.get? key = if g.conns.entries = [] then none else some g := by
  unfold putGroup
  split <;> simp

theorem get?_putGroup_ne {key' : Text} (h : key' ≠ key) : (n.putGroup key g).groups.get? key' = n.groups.get? key' := by
  unfold putGroup
  split
  · exact Dict.get?_pop_ne _ h
  · exact Dict.get?_set_ne _ _ h

theorem env_sweepGroup : (n.sweepGroup cfg now key).env now = n.env now := by
  unfold sweepGroup
  split
  · rfl
  · dsimp only
    split <;> rfl

theorem get?_sweepGroup_ne {key' : Text} (h : key' ≠ key) :
    (n.sweepGroup cfg now key).groups.get? key' = n.groups.get? key' := by
  unfold sweepGroup
  split
  · rfl
  · dsimp only
    split <;> exact get?_putGroup_ne h

theorem get?_sweepGroup_self :
    (n.sweepGroup cfg now key).groups.get? key = (n.groups.get? key).bind (Group.swept cfg (n.env now)) := by
  unfold sweepGroup
  cases hg : n.groups.get? key with
  | none => exact hg
  | some g =>
      simp only [Option.bind_some, Group.swept]
      split
      · rename_i hempty
        rw [get?_putGroup_self, if_pos hempty]
      · rename_i hne
        rw [get?_putGroup_self, Group.conns_sweepPrimary, if_neg hne]

/-- The sweep looks at every group once. -/
theorem get?_mflSweepOnce :
    (n.mflSweepOnce cfg now).groups.get? key = (n.groups.get? key).bind (Group.swept cfg (n.env now)) := by
  have hfold : ∀ (keys : List Text) (m : Node), keys.Nodup → m.env now = n.env now →
      (keys.foldl (fun n key => n.sweepGroup cfg now key) m).groups.get? key =
        if key ∈ keys then (m.groups.get? key).bind (Group.swept cfg (n.env now)) else m.groups.get? key := by
    intro keys
    induction keys with
    | nil => simp
    | cons k ks ih =>
        intro m hnodup henv
        obtain ⟨hk, hks⟩ := List.nodup_cons.mp hnodup
        rw [List.foldl_cons, ih _ hks (env_sweepGroup.trans henv)]
        by_cases he : key = k
        · subst he
          rw [if_neg hk, if_pos List.mem_cons_self, get?_sweepGroup_self, henv]
        · rw [get?_sweepGroup_ne he]
          simp [he]
  unfold mflSweepOnce
  rw [hfold n.groups.keys n n.groups.nodup rfl]
  split
  · rfl
  · rename_i hkey
    cases hg : n.groups.get? key with
    | none => rfl
    | some g => exact absurd (Dict.mem_keys.mpr ⟨g, hg⟩) hkey

theorem get?_selectMpathConnection :
    (n.selectMpathConnection cfg now key).groups.get? key =
      (n.groups.get? key).map (·.selectMpathConnection cfg (n.env now)) := by
  unfold selectMpathConnection
  cases hg : n.groups.get? key with
  | none => exact hg
  | some g => simp

end OpenMux.Paths.Node
