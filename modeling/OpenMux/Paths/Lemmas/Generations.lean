import OpenMux.Paths.Groups

/-!
# What the comparisons leave

Of two rivals the one that is compared later schedules the close of one of the two.
-/

namespace OpenMux.Paths

open Py

variable {n n' : Peers} {connId s i : Text} {current : ConnRecord} {c d e : Entry} {es : List Entry} {acc : List Text}

theorem ConnRecord.not_rivals_self (c : ConnRecord) : ¬ c.Rivals c := by
  rintro ⟨s, i, j, hi, hj, hne⟩
  rw [hi, Option.some.injEq, Prod.mk.injEq] at hj
  exact hne hj.2

theorem ConnRecord.Rivals.symm {c d : ConnRecord} (h : c.Rivals d) : d.Rivals c := by
  obtain ⟨s, i, j, hi, hj, hne⟩ := h
  exact ⟨s, j, i, hj, hi, hne.symm⟩

theorem generation_iff {c : ConnRecord} : c.generation = some (s, i) ↔ orNone c.serverId = some s ∧ orNone c.instanceId = some i := by
  unfold ConnRecord.generation
  split
  · rename_i hs hi
    simp [hs, hi]
  · rename_i h
    simpa using h s i

theorem orNone_eq_some {o : Option Text} {t : Text} : orNone o = some t ↔ o = some t ∧ t ≠ [] := by
  simp [orNone, Option.filter_eq_some_iff]

namespace Peers

/-! ## The scan -/

theorem scan_eq : scan connId current s i es acc =
    if es.any (fun e => isRival connId s i e && decide (current.openedAt < e.2.openedAt)) then [connId]
    else acc ++ (es.filter (isRival connId s i)).map Prod.fst := by
  induction es generalizing acc with
  | nil => simp [scan]
  | cons e es ih =>
      rw [scan]
      by_cases hr : isRival connId s i e = true
      · by_cases hle : e.2.openedAt ≤ current.openedAt
        · have hold : (isRival connId s i e && decide (current.openedAt < e.2.openedAt)) = false := by
            simp [not_lt.mpr hle]
          rw [if_pos hr, if_pos hle, ih, List.any_cons, hold, Bool.false_or, List.filter_cons, if_pos hr, List.map_cons,
            List.append_assoc, List.singleton_append]
        · rw [if_pos hr, if_neg hle]
          simp [hr, not_le.mp hle]
      · have hnone : (isRival connId s i e && decide (current.openedAt < e.2.openedAt)) = false := by simp [hr]
        rw [if_neg hr, ih, List.any_cons, hnone, Bool.false_or, List.filter_cons, if_neg hr]

theorem isRival_iff (hs : s ≠ []) : isRival connId s i e = true ↔
    e.1 ≠ connId ∧ ∃ j, e.2.generation = some (s, j) ∧ j ≠ i := by
  unfold isRival
  simp only [Bool.and_eq_true, decide_eq_true_eq, generation_iff, orNone_eq_some, Option.isSome_iff_exists]
  constructor
  · rintro ⟨⟨⟨hne, hserver⟩, j, hj, hjn⟩, hi⟩
    exact ⟨hne, j, ⟨⟨hserver, hs⟩, hj, hjn⟩, fun he => hi (by rw [hj, he])⟩
  · rintro ⟨hne, j, ⟨⟨hserver, -⟩, hj, hjn⟩, hi⟩
    exact ⟨⟨⟨hne, hserver⟩, j, hj, hjn⟩, fun he => hi (by rw [hj] at he; exact Option.some.inj he)⟩

/-- Who is scheduled: the current connection alone for a newer rival, or rivals that are no newer. -/
theorem retireOldGeneration_cases {cid : Text} (hid : cid ∈ n.retireOldGeneration connId) :
    ∃ current, n.connections.get? connId = some current ∧
      (n.retireOldGeneration connId = [connId] ∧
          (∃ d ∈ n.connections.entries, current.Rivals d.2 ∧ current.openedAt < d.2.openedAt) ∨
        ∀ cid ∈ n.retireOldGeneration connId, cid ≠ connId ∧
          ∃ info, (cid, info) ∈ n.connections.entries ∧ info.Rivals current ∧ info.openedAt ≤ current.openedAt) := by
  cases hcur : n.connections.get? connId with
  | none => simp [retireOldGeneration, hcur] at hid
  | some current =>
    cases hgen : current.generation with
    | none => simp [retireOldGeneration, hcur, hgen] at hid
    | some g =>
      obtain ⟨s, i⟩ := g
      have hs : s ≠ [] := (orNone_eq_some.mp (generation_iff.mp hgen).1).2
      have hscan : n.retireOldGeneration connId = scan connId current s i n.connections.entries [] := by
        simp only [retireOldGeneration, hcur, hgen]
      refine ⟨current, rfl, ?_⟩
      rw [hscan, scan_eq]
      split
      · rename_i hany
        obtain ⟨d, hd, hrival⟩ := List.any_eq_true.mp hany
        simp only [Bool.and_eq_true, decide_eq_true_eq] at hrival
        obtain ⟨-, j, hj, hne⟩ := (isRival_iff hs).mp hrival.1
        exact .inl ⟨rfl, d, hd, ⟨s, i, j, hgen, hj, hne.symm⟩, hrival.2⟩
      · rename_i hnone
        refine .inr fun cid hcid => ?_
        rw [List.nil_append] at hcid
        obtain ⟨d, hd, rfl⟩ := List.mem_map.mp hcid
        obtain ⟨hmem, hrival⟩ := List.mem_filter.mp hd
        obtain ⟨hne, j, hj, hji⟩ := (isRival_iff hs).mp hrival
        refine ⟨hne, d.2, hmem, ⟨s, j, i, hj, hgen, hji⟩, not_lt.mp fun hlt => hnone ?_⟩
        exact List.any_eq_true.mpr ⟨d, hmem, by simp [hrival, hlt]⟩

/-- Of two rivals one is scheduled. -/
theorem retires_one (hcur : n.connections.get? connId = some current) (he : e ∈ n.connections.entries)
    (h : current.Rivals e.2) : connId ∈ n.retireOldGeneration connId ∨ e.1 ∈ n.retireOldGeneration connId := by
  obtain ⟨s, i, j, hgen, hj, hne⟩ := h
  have hs : s ≠ [] := (orNone_eq_some.mp (generation_iff.mp hgen).1).2
  have hid : e.1 ≠ connId := by
    rintro rfl
    have hself : n.connections.get? e.1 = some e.2 := Dict.mem_entries.mp he
    rw [hcur] at hself
    cases hself
    rw [hgen, Option.some.injEq, Prod.mk.injEq] at hj
    exact hne hj.2
  have hrival : isRival connId s i e = true := (isRival_iff hs).mpr ⟨hid, j, hj, hne.symm⟩
  unfold retireOldGeneration
  simp only [hcur, hgen]
  rw [scan_eq]
  split
  · exact .inl List.mem_cons_self
  · exact .inr (List.mem_append_right _ (List.mem_map_of_mem (f := Prod.fst) (List.mem_filter.mpr ⟨he, hrival⟩)))

/-! ## Doomed connections -/

/-- The connection is retired, or its close is scheduled. -/
def Doomed (n : Peers) (e : Entry) : Prop := e ∈ n.retired ∨ e ∈ n.connections.entries ∧ e.1 ∈ n.closing

/-- The connection stays, or was closed for another reason. -/
def Stays (n : Peers) (e : Entry) : Prop := e ∈ n.lost ∨ e ∈ n.connections.entries ∧ e.1 ∉ n.closing

theorem mem_known : e ∈ n.known ↔ e ∈ n.connections.entries ∨ e ∈ n.retired ∨ e ∈ n.lost := by
  simp [known]

structure Inv (n : Peers) : Prop where
  scheduled : ∀ cid ∈ n.closing, cid ∈ n.known.map Prod.fst
  same : ∀ c ∈ n.connections.entries, ∀ d ∈ n.connections.entries, c.1 ∉ n.closing → c.1 ∉ n.awaiting →
    d.1 ∉ n.closing → d.1 ∉ n.awaiting → ¬ c.2.Rivals d.2
  superseded : ∀ c, n.Doomed c → ∃ d ∈ n.known, c.2.Rivals d.2 ∧ c.2.openedAt ≤ d.2.openedAt

theorem Inv.start : ({} : Peers).Inv where
  scheduled := nofun
  same := nofun
  superseded := by rintro c (hc | ⟨hc, -⟩) <;> cases hc

/-- A step that dooms nobody and forgets nobody. -/
structure Calm (n n' : Peers) : Prop where
  known : ∀ e ∈ n.known, e ∈ n'.known
  closing : ∀ cid ∈ n'.closing, cid ∈ n.closing
  entries : ∀ e ∈ n'.connections.entries, e.1 ∉ n'.awaiting →
    e ∈ n.connections.entries ∧ e.1 ∉ n.awaiting ∧ (e.1 ∈ n.closing → e.1 ∈ n'.closing)
  doomed : ∀ e, n'.Doomed e → n.Doomed e
  stays : ∀ e, n.Stays e → n'.Stays e

theorem Inv.of_calm (h : n.Inv) (hcalm : n.Calm n') : n'.Inv where
  scheduled cid hcid := by
    obtain ⟨e, he, rfl⟩ := List.mem_map.mp (h.scheduled cid (hcalm.closing cid hcid))
    exact List.mem_map_of_mem (f := Prod.fst) (hcalm.known e he)
  same c hc d hd hcc hca hdc hda := by
    obtain ⟨hc', hca', hcc'⟩ := hcalm.entries c hc hca
    obtain ⟨hd', hda', hdc'⟩ := hcalm.entries d hd hda
    exact h.same c hc' d hd' (fun hm => hcc (hcc' hm)) hca' (fun hm => hdc (hdc' hm)) hda'
  superseded c hc := by
    obtain ⟨d, hd, hr⟩ := h.superseded c (hcalm.doomed c hc)
    exact ⟨d, hcalm.known d hd, hr⟩

theorem mem_set_entries {conn : ConnRecord} {m : Dict Text ConnRecord} :
    e ∈ (m.set connId conn).entries ↔ e = (connId, conn) ∨ e.1 ≠ connId ∧ e ∈ m.entries := by
  obtain ⟨cid, info⟩ := e
  rw [Dict.mem_entries, Dict.get?_set, Dict.mem_entries]
  by_cases hc : cid = connId
  · simp [hc, eq_comm]
  · simp [hc]

theorem mem_pop_entries {m : Dict Text ConnRecord} : e ∈ (m.pop connId).entries ↔ e.1 ≠ connId ∧ e ∈ m.entries := by
  simp [Dict.pop, and_comm]

/-! ## The steps -/

theorem calm_greet {conn : ConnRecord} (h : n.Inv) (hnew : connId ∉ n.known.map Prod.fst) :
    n.Calm { n with connections := n.connections.set connId conn, awaiting := n.awaiting ++ [connId] } := by
  have hfresh : ∀ e ∈ n.connections.entries, e ∈ (n.connections.set connId conn).entries := fun e he =>
    mem_set_entries.mpr (.inr ⟨fun hid => hnew (hid ▸ List.mem_map_of_mem (f := Prod.fst) (mem_known.mpr (.inl he))), he⟩)
  refine ⟨fun e he => ?_, fun _ hc => hc, fun e he ha => ?_, fun e he => ?_, fun e he => ?_⟩
  · rcases mem_known.mp he with he | he
    · exact mem_known.mpr (.inl (hfresh e he))
    · exact mem_known.mpr (.inr he)
  · rcases mem_set_entries.mp he with rfl | ⟨-, he⟩
    · exact absurd (List.mem_append_right _ List.mem_cons_self) ha
    · exact ⟨he, fun hm => ha (List.mem_append_left _ hm), id⟩
  · rcases he with he | ⟨he, hc⟩
    · exact .inl he
    · rcases mem_set_entries.mp he with rfl | ⟨-, he⟩
      · exact absurd (h.scheduled connId hc) hnew
      · exact .inr ⟨he, hc⟩
  · exact he.imp_right fun he => ⟨hfresh e he.1, he.2⟩

theorem entry_eq {conn : ConnRecord} (hconn : n.connections.get? connId = some conn) (he : e ∈ n.connections.entries)
    (hid : e.1 = connId) : e = (connId, conn) := by
  have hget : n.connections.get? e.1 = some e.2 := Dict.mem_entries.mp he
  rw [hid, hconn] at hget
  exact Prod.ext hid (Option.some.inj hget).symm

/-- Who is scheduled now has a rival that was opened no earlier. -/
theorem superseded_now (hc : c ∈ n.connections.entries) (hid : c.1 ∈ n.retireOldGeneration connId) :
    ∃ d ∈ n.connections.entries, c.2.Rivals d.2 ∧ c.2.openedAt ≤ d.2.openedAt := by
  obtain ⟨current, hcur, ⟨hself, d, hd, hrival, hlt⟩ | hothers⟩ := retireOldGeneration_cases hid
  · rw [hself] at hid
    cases entry_eq hcur hc (List.mem_singleton.mp hid)
    exact ⟨d, hd, hrival, hlt.le⟩
  · obtain ⟨-, info, hinfo, hrival, hle⟩ := hothers c.1 hid
    rw [entry_eq (Dict.mem_entries.mp hinfo) hc rfl]
    exact ⟨(connId, current), Dict.mem_entries.mpr hcur, hrival, hle⟩

theorem Inv.compare (h : n.Inv) :
    ({ n with awaiting := n.awaiting.erase connId, closing := n.closing ++ n.retireOldGeneration connId } : Peers).Inv where
  scheduled cid hcid := by
    rcases List.mem_append.mp hcid with hcid | hcid
    · exact h.scheduled cid hcid
    · obtain ⟨current, hcur, ⟨hself, -⟩ | hothers⟩ := retireOldGeneration_cases hcid
      · rw [hself, List.mem_singleton] at hcid
        exact hcid ▸ List.mem_map_of_mem (f := Prod.fst) (mem_known.mpr (.inl (Dict.mem_entries.mpr hcur)))
      · obtain ⟨-, info, hinfo, -⟩ := hothers cid hcid
        exact List.mem_map_of_mem (f := Prod.fst) (mem_known.mpr (.inl hinfo))
  same c hc d hd hcc hca hdc hda hrival := by
    simp only [List.mem_append, not_or] at hcc hdc
    have hold {e : Entry} (hne : e.1 ≠ connId) (ha : e.1 ∉ n.awaiting.erase connId) : e.1 ∉ n.awaiting := fun hm =>
      ha ((List.mem_erase_of_ne hne).mpr hm)
    -- The connection that is compared has no rival left that is not scheduled.
    have hself {c d : Entry} (hc : c ∈ n.connections.entries) (hd : d ∈ n.connections.entries) (hid : c.1 = connId)
        (hcc : c.1 ∉ n.retireOldGeneration connId) (hdc : d.1 ∉ n.retireOldGeneration connId) : ¬ c.2.Rivals d.2 := by
      intro hrival
      rcases retires_one (hid ▸ Dict.mem_entries.mp hc) hd hrival with hm | hm
      · exact hcc (hid ▸ hm)
      · exact hdc hm
    by_cases hcid : c.1 = connId
    · exact hself hc hd hcid hcc.2 hdc.2 hrival
    · by_cases hdid : d.1 = connId
      · exact hself hd hc hdid hdc.2 hcc.2 hrival.symm
      · exact h.same c hc d hd hcc.1 (hold hcid hca) hdc.1 (hold hdid hda) hrival
  superseded c hc := by
    have hmono {d : Entry} (hd : d ∈ n.connections.entries) : d ∈ n.known := mem_known.mpr (.inl hd)
    rcases hc with hc | ⟨hc, hid⟩
    · exact h.superseded c (.inl hc)
    · rcases List.mem_append.mp hid with hid | hid
      · exact h.superseded c (.inr ⟨hc, hid⟩)
      · obtain ⟨d, hd, hr⟩ := superseded_now hc hid
        exact ⟨d, hmono hd, hr⟩

theorem calm_retire (hstep : n.step (.retire connId) = some n') : n.Calm n' := by
  have herase {e : Entry} (hne : e.1 ≠ connId) : e.1 ∈ n.closing.erase connId ↔ e.1 ∈ n.closing := List.mem_erase_of_ne hne
  simp only [step] at hstep
  split at hstep
  · rename_i hclosing
    split at hstep
    · rename_i hnone
      cases hstep
      have hne : ∀ e ∈ n.connections.entries, e.1 ≠ connId := by
        rintro e he rfl
        have hget : n.connections.get? e.1 = some e.2 := Dict.mem_entries.mp he
        rw [hnone] at hget
        cases hget
      refine ⟨fun _ he => he, fun _ hc => List.mem_of_mem_erase hc, fun e he ha => ⟨he, ha, (herase (hne e he)).mpr⟩,
        fun e he => ?_, fun e he => ?_⟩
      · exact he.imp_right fun he => ⟨he.1, List.mem_of_mem_erase he.2⟩
      · exact he.imp_right fun he => ⟨he.1, fun hc => he.2 (List.mem_of_mem_erase hc)⟩
    · rename_i conn hconn
      cases hstep
      refine ⟨fun e he => ?_, fun _ hc => List.mem_of_mem_erase hc, fun e he ha => ?_, fun e he => ?_, fun e he => ?_⟩
      · rcases mem_known.mp he with he | he | he
        · by_cases hid : e.1 = connId
          · rw [entry_eq hconn he hid]
            exact mem_known.mpr (.inr (.inl (List.mem_append_right _ List.mem_cons_self)))
          · exact mem_known.mpr (.inl (mem_pop_entries.mpr ⟨hid, he⟩))
        · exact mem_known.mpr (.inr (.inl (List.mem_append_left _ he)))
        · exact mem_known.mpr (.inr (.inr he))
      · obtain ⟨hid, he⟩ := mem_pop_entries.mp he
        exact ⟨he, ha, (herase hid).mpr⟩
      · rcases he with he | ⟨he, hc⟩
        · rcases List.mem_append.mp he with he | he
          · exact .inl he
          · cases List.mem_singleton.mp he
            exact .inr ⟨Dict.mem_entries.mpr hconn, hclosing⟩
        · exact .inr ⟨(mem_pop_entries.mp he).2, List.mem_of_mem_erase hc⟩
      · refine he.imp_right fun he => ⟨mem_pop_entries.mpr ⟨fun hid => he.2 (hid ▸ hclosing), he.1⟩, ?_⟩
        exact fun hc => he.2 (List.mem_of_mem_erase hc)
  · cases hstep

theorem calm_close (hstep : n.step (.close connId) = some n') : n.Calm n' := by
  simp only [step] at hstep
  split at hstep
  · cases hstep
    exact ⟨fun _ he => he, fun _ hc => hc, fun e he ha => ⟨he, ha, id⟩, fun _ he => he, fun _ he => he⟩
  · rename_i conn hconn
    cases hstep
    refine ⟨fun e he => ?_, fun _ hc => hc, fun e he ha => ⟨(mem_pop_entries.mp he).2, ha, id⟩, fun e he => ?_, fun e he => ?_⟩
    · rcases mem_known.mp he with he | he | he
      · by_cases hid : e.1 = connId
        · rw [entry_eq hconn he hid]
          exact mem_known.mpr (.inr (.inr (List.mem_append_right _ List.mem_cons_self)))
        · exact mem_known.mpr (.inl (mem_pop_entries.mpr ⟨hid, he⟩))
      · exact mem_known.mpr (.inr (.inl he))
      · exact mem_known.mpr (.inr (.inr (List.mem_append_left _ he)))
    · exact he.imp_right fun he => ⟨(mem_pop_entries.mp he.1).2, he.2⟩
    · rcases he with he | ⟨he, hc⟩
      · exact .inl (List.mem_append_left _ he)
      · by_cases hid : e.1 = connId
        · rw [entry_eq hconn he hid]
          exact .inl (List.mem_append_right _ List.mem_cons_self)
        · exact .inr ⟨mem_pop_entries.mpr ⟨hid, he⟩, hc⟩

/-- A step is calm, but for a comparison. -/
theorem Inv.calm_or_compare {a : PeerAct} (h : n.Inv) (hstep : n.step a = some n') :
    n.Calm n' ∨ ∃ connId, a = .compare connId ∧
      n' = { n with awaiting := n.awaiting.erase connId, closing := n.closing ++ n.retireOldGeneration connId } := by
  cases a with
  | greet connId conn =>
      simp only [step] at hstep
      split at hstep
      · cases hstep
      · rename_i hnew
        cases hstep
        exact .inl (calm_greet h hnew)
  | compare connId =>
      simp only [step] at hstep
      split at hstep
      · cases hstep
        exact .inr ⟨connId, rfl, rfl⟩
      · cases hstep
  | retire => exact .inl (calm_retire hstep)
  | close => exact .inl (calm_close hstep)

theorem Inv.step {a : PeerAct} (h : n.Inv) (hstep : n.step a = some n') : n'.Inv := by
  rcases h.calm_or_compare hstep with hcalm | ⟨connId, -, rfl⟩
  · exact h.of_calm hcalm
  · exact h.compare

/-! ## Who outlives whom -/

/-- A doomed connection is no newer than one of its peer that stays. -/
def Outlives (n : Peers) : Prop :=
  ∀ c, n.Doomed c → ∀ s i, c.2.generation = some (s, i) →
    ∃ d, n.Stays d ∧ (∃ j, d.2.generation = some (s, j)) ∧ c.2.openedAt ≤ d.2.openedAt

theorem Outlives.start : ({} : Peers).Outlives := by rintro c (hc | ⟨hc, -⟩) <;> cases hc

theorem Outlives.of_calm (h : n.Outlives) (hcalm : n.Calm n') : n'.Outlives := by
  intro c hc s i hgen
  obtain ⟨d, hd, hr⟩ := h c (hcalm.doomed c hc) s i hgen
  exact ⟨d, hcalm.stays d hd, hr⟩

/-- A connection that stayed before a comparison is no newer than one that stays after it. -/
theorem Outlives.compare_stays (h : n.Outlives) (hprompt : connId ∉ n.closing) (hd : n.Stays d) {j : Text}
    (hgen : d.2.generation = some (s, j)) :
    ∃ e, ({ n with awaiting := n.awaiting.erase connId, closing := n.closing ++ n.retireOldGeneration connId } : Peers).Stays e ∧
      (∃ j, e.2.generation = some (s, j)) ∧ d.2.openedAt ≤ e.2.openedAt := by
  rcases hd with hd | ⟨hd, hdc⟩
  · exact ⟨d, .inl hd, ⟨j, hgen⟩, le_rfl⟩
  · by_cases hid : d.1 ∈ n.retireOldGeneration connId
    · obtain ⟨current, hcur, ⟨hself, f, hf, hrival, hlt⟩ | hothers⟩ := retireOldGeneration_cases hid
      · -- The current connection loses to a newer rival, which stays, or for which another one does.
        rw [hself] at hid ⊢
        cases entry_eq hcur hd (List.mem_singleton.mp hid)
        obtain ⟨s', i', k, hi', hk, -⟩ := hrival
        rw [hgen, Option.some.injEq, Prod.mk.injEq] at hi'
        obtain ⟨rfl, rfl⟩ := hi'
        by_cases hfc : f.1 ∈ n.closing
        · obtain ⟨e, he, hpeer, hle⟩ := h f (.inr ⟨hf, hfc⟩) s k hk
          refine ⟨e, he.imp_right fun he => ⟨he.1, fun hm => ?_⟩, hpeer, hlt.le.trans hle⟩
          rcases List.mem_append.mp hm with hm | hm
          · exact he.2 hm
          · rw [entry_eq hcur he.1 (List.mem_singleton.mp hm)] at hle
            exact absurd hle (not_le.mpr hlt)
        · refine ⟨f, .inr ⟨hf, fun hm => ?_⟩, ⟨k, hk⟩, hlt.le⟩
          rcases List.mem_append.mp hm with hm | hm
          · exact hfc hm
          · rw [entry_eq hcur hf (List.mem_singleton.mp hm)] at hlt
            exact absurd hlt (lt_irrefl _)
      · obtain ⟨-, info, hinfo, ⟨s', i', k, hi', hk, -⟩, hle⟩ := hothers d.1 hid
        rw [entry_eq (Dict.mem_entries.mp hinfo) hd rfl] at hgen ⊢
        rw [hgen, Option.some.injEq, Prod.mk.injEq] at hi'
        obtain ⟨rfl, rfl⟩ := hi'
        refine ⟨(connId, current), .inr ⟨Dict.mem_entries.mpr hcur, fun hm => ?_⟩, ⟨k, hk⟩, hle⟩
        rcases List.mem_append.mp hm with hm | hm
        · exact hprompt hm
        · exact (hothers connId hm).1 rfl
    · exact ⟨d, .inr ⟨hd, by simp [hdc, hid]⟩, ⟨j, hgen⟩, le_rfl⟩

theorem Outlives.compare (h : n.Outlives) (hprompt : connId ∉ n.closing) :
    ({ n with awaiting := n.awaiting.erase connId, closing := n.closing ++ n.retireOldGeneration connId } : Peers).Outlives := by
  intro c hc s i hgen
  by_cases hold : n.Doomed c
  · obtain ⟨d, hd, ⟨j, hj⟩, hle⟩ := h c hold s i hgen
    obtain ⟨e, he, hpeer, hle'⟩ := h.compare_stays hprompt hd hj
    exact ⟨e, he, hpeer, hle.trans hle'⟩
  · rcases hc with hc | ⟨hc, -⟩
    · exact absurd (.inl hc) hold
    · exact h.compare_stays hprompt (.inr ⟨hc, fun hcc => hold (.inr ⟨hc, hcc⟩)⟩) hgen

theorem Inv.outlives {a : PeerAct} (h : n.Inv) (ho : n.Outlives) (hprompt : n.Prompt a) (hstep : n.step a = some n') :
    n'.Outlives := by
  rcases h.calm_or_compare hstep with hcalm | ⟨connId, rfl, rfl⟩
  · exact ho.of_calm hcalm
  · exact ho.compare hprompt

end Peers

end OpenMux.Paths
