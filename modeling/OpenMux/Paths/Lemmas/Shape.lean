import OpenMux.Paths.Shape

/-!
# What keeps the shape of the groups

Every member has a record and is in the group that the record names. From this the rest follows.
-/

namespace OpenMux.Paths

open Py

/-! ## Groups -/

namespace Group

variable {cfg : Config} {env : Env} {g g' : Group} {connId c : Text}

/-- The primary is a member, if there are any. -/
def Led (g : Group) : Prop := g.conns.entries ≠ [] → ∃ connId, g.primary = some connId ∧ g.Has connId

theorem has_iff : g.Has c ↔ ∃ info, g.conns.get? c = some info := Dict.mem_keys

theorem has_of_mem {m : Member} (h : m ∈ g.conns.entries) : g.Has m.1 := List.mem_map_of_mem (f := Prod.fst) h

theorem exists_has (h : g.conns.entries ≠ []) : ∃ connId, g.Has connId := by
  obtain ⟨m, hm⟩ := List.exists_mem_of_ne_nil _ h
  exact ⟨m.1, has_of_mem hm⟩

theorem ne_nil_of_has (h : g.Has c) : g.conns.entries ≠ [] := by
  intro he
  simp [Has, Dict.keys, he] at h

theorem conns_remove : (g.remove connId).conns = g.conns.pop connId := by
  unfold remove
  dsimp only
  split <;> rfl

theorem has_remove : (g.remove connId).Has c ↔ c ≠ connId ∧ g.Has c := by
  unfold Has
  rw [conns_remove, Dict.mem_keys_pop]

theorem Led.remove (h : g.Led) (connId : Text) : (g.remove connId).Led := by
  intro hne
  rw [conns_remove] at hne
  by_cases hp : g.primary = some connId
  · have hprimary : (g.remove connId).primary = (g.conns.pop connId).keys.head? := by
      simp [Group.remove, hp, first]
    obtain ⟨m, ms, hm⟩ := List.exists_cons_of_ne_nil hne
    refine ⟨m.1, ?_, ?_⟩
    · rw [hprimary, Dict.keys, hm]
      rfl
    · unfold Has
      rw [conns_remove, Dict.keys, hm]
      exact List.mem_cons_self
  · have hprimary : (g.remove connId).primary = g.primary := by
      simp [Group.remove, hp]
    have hold : g.conns.entries ≠ [] := by
      intro he
      simp [Dict.pop, he] at hne
    obtain ⟨p, hp', hhas⟩ := h hold
    exact ⟨p, hprimary.trans hp', has_remove.mpr ⟨fun he => hp (he ▸ hp'), hhas⟩⟩

theorem mem_of_preferred {ms : List Member} {m : Member} (h : preferred ms = some m) : m ∈ ms := List.argmax_mem h

theorem preferred_eq_none {ms : List Member} : preferred ms = none ↔ ms = [] := List.argmax_eq_none

/-! ## The selector and the sweep -/

theorem conns_select : (g.selectMpathConnection cfg env).conns = g.conns := by
  unfold selectMpathConnection
  split
  · rfl
  · split
    · unfold mpathTryPreempt
      split <;> rfl
    · rfl

theorem mem_of_selectable {m : Member} (h : m ∈ g.selectable cfg env) : m ∈ g.conns.entries := (List.mem_filter.mp h).1

theorem mem_of_promotable {m : Member} (h : m ∈ g.promotable cfg env) : m ∈ g.conns.entries := by
  unfold promotable at h
  split at h
  · exact h
  · exact mem_of_selectable h

theorem promotable_ne_nil (h : g.conns.entries ≠ []) : g.promotable cfg env ≠ [] := by
  unfold promotable
  split <;> assumption

theorem Led.select (h : g.Led) : (g.selectMpathConnection cfg env).Led := by
  intro hne
  rw [conns_select] at hne
  unfold selectMpathConnection
  split
  · have hpromotable : g.promotable cfg env ≠ [] := promotable_ne_nil hne
    obtain ⟨m, hm⟩ := Option.ne_none_iff_exists'.mp (fun hnone => hpromotable (preferred_eq_none.mp hnone))
    exact ⟨m.1, by simp [mpathPromotePrimary, hm], has_of_mem (mem_of_promotable (mem_of_preferred hm))⟩
  · split
    · unfold mpathTryPreempt
      split
      · exact h hne
      · rename_i m hm
        exact ⟨m.1, rfl, has_of_mem (mem_of_selectable (List.mem_filter.mp (mem_of_preferred hm)).1)⟩
    · exact h hne

theorem conns_sweepPrimary : (g.sweepPrimary cfg env).conns = g.conns := by
  unfold sweepPrimary
  split
  · exact conns_select
  · unfold mflEvalPrimary
    dsimp only
    split
    · unfold mflStalePromote
      split
      · rfl
      · split
        · rfl
        · dsimp only
          split
          · split <;> exact conns_select
          · exact conns_select
    · split
      · unfold mflPreemptiveScan
        split
        · rfl
        · split <;> rfl
      · rfl

theorem Led.of_eq (h : g.Led) (hc : g'.conns = g.conns) (hp : g'.primary = g.primary) : g'.Led := by
  unfold Led Has
  rw [hc, hp]
  exact h

theorem Led.sweepPrimary (h : g.Led) : (g.sweepPrimary cfg env).Led := by
  unfold Group.sweepPrimary
  split
  · exact h.select
  · rename_i m _
    have hstart : ({ g with lastPrimaryChange := some (g.lastChange env m.2) } : Group).Led := h.of_eq rfl rfl
    unfold mflEvalPrimary
    dsimp only
    split
    · unfold mflStalePromote
      split
      · exact hstart
      · split
        · exact hstart
        · dsimp only
          split
          · split
            · exact hstart.select.of_eq rfl rfl
            · exact hstart.select
          · exact hstart.select
    · split
      · unfold mflPreemptiveScan
        split
        · exact hstart
        · rename_i m' hm'
          split
          · intro _
            exact ⟨m'.1, rfl, has_of_mem (List.mem_filter.mp (List.mem_filter.mp (mem_of_preferred hm')).1).1⟩
          · exact hstart
      · exact hstart

theorem foldl_remove (closing : List Text) (ms : List Member) (h : g.Led) :
    let r := ms.foldl (fun (g, closing) m => (g.remove m.1, closing ++ [m.1])) (g, closing)
    r.1.Led ∧ ∀ c, r.1.Has c → g.Has c := by
  induction ms generalizing g closing with
  | nil => exact ⟨h, fun _ hc => hc⟩
  | cons m ms ih =>
      obtain ⟨hled, hhas⟩ := ih (closing ++ [m.1]) (h.remove m.1)
      exact ⟨hled, fun c hc => (has_remove.mp (hhas c hc)).2⟩

theorem Led.prune (h : g.Led) : (g.mflPruneIdle cfg env).1.Led ∧ ∀ c, (g.mflPruneIdle cfg env).1.Has c → g.Has c := by
  unfold mflPruneIdle
  split
  · exact foldl_remove [] _ h
  · exact ⟨h, fun _ hc => hc⟩

theorem Led.applyPromotion (h : g.Led) (hc : g.Has connId) : (g.applyPromotion cfg connId).Led := by
  unfold Group.applyPromotion
  split
  · exact h
  · split
    · exact fun _ => ⟨connId, rfl, hc⟩
    · exact h

theorem conns_applyPromotion : (g.applyPromotion cfg connId).conns = g.conns := by
  unfold Group.applyPromotion
  split
  · rfl
  · split <;> rfl

end Group

/-! ## Nodes -/

namespace Node

variable {cfg : Config} {n : Node} {key key' connId c : Text} {g : Group} {now : ℚ}

structure Shape (n : Node) : Prop where
  nonempty : ∀ key g, n.groups.get? key = some g → g.conns.entries ≠ []
  led : ∀ key g, n.groups.get? key = some g → g.Led
  /-- A member has a record that names the group. -/
  home : ∀ key g c, n.groups.get? key = some g → g.Has c → ∃ conn, n.connections.get? c = some conn ∧ key = keyOf c (some conn)

theorem Shape.wellShaped (h : n.Shape) : n.WellShaped where
  nonempty key g hg := Group.exists_has (h.nonempty key g hg)
  primary key g hg := h.led key g hg (h.nonempty key g hg)
  unique key key' c := by
    rintro ⟨g, hg, hc⟩ ⟨g', hg', hc'⟩
    obtain ⟨conn, hconn, rfl⟩ := h.home key g c hg hc
    obtain ⟨conn', hconn', rfl⟩ := h.home key' g' c hg' hc'
    rw [hconn] at hconn'
    cases hconn'
    rfl
  home key c := by
    rintro ⟨g, hg, hc⟩ -
    obtain ⟨conn, hconn, rfl⟩ := h.home key g c hg hc
    rw [derivePeerKey, hconn]
  closed key c hnone := by
    rintro ⟨g, hg, hc⟩
    obtain ⟨conn, hconn, -⟩ := h.home key g c hg hc
    rw [hnone] at hconn
    cases hconn

/-- A group in which every member has its record, in the place of another one. -/
theorem Shape.setGroup (h : n.Shape) (hne : g.conns.entries ≠ []) (hled : g.Led)
    (hhome : ∀ c, g.Has c → ∃ conn, n.connections.get? c = some conn ∧ key = keyOf c (some conn)) :
    ({ n with groups := n.groups.set key g } : Node).Shape where
  nonempty key' g' hg' := by
    simp only [Dict.get?_set] at hg'
    split at hg'
    · cases hg'
      exact hne
    · exact h.nonempty key' g' hg'
  led key' g' hg' := by
    simp only [Dict.get?_set] at hg'
    split at hg'
    · cases hg'
      exact hled
    · exact h.led key' g' hg'
  home key' g' c hg' hc := by
    simp only [Dict.get?_set] at hg'
    split at hg'
    · rename_i hk
      cases hg'
      exact hk ▸ hhome c hc
    · exact h.home key' g' c hg' hc

theorem Shape.popGroup (h : n.Shape) (key : Text) : ({ n with groups := n.groups.pop key } : Node).Shape where
  nonempty key' g' hg' := h.nonempty key' g' (Dict.get?_of_get?_pop hg')
  led key' g' hg' := h.led key' g' (Dict.get?_of_get?_pop hg')
  home key' g' c hg' := h.home key' g' c (Dict.get?_of_get?_pop hg')

/-- A group with members of the old one only. -/
theorem Shape.putGroup (h : n.Shape) {g' : Group} (hg : n.groups.get? key = some g) (hled : g'.Led)
    (hsub : ∀ c, g'.Has c → g.Has c) : (n.putGroup key g').Shape := by
  unfold Node.putGroup
  split
  · exact h.popGroup key
  · rename_i hne
    exact h.setGroup hne hled fun c hc => h.home key g c hg (hsub c hc)

theorem connections_putGroup : (n.putGroup key g).connections = n.connections := rfl

/-- The members of a group with one more that belongs there. -/
theorem Shape.home_set (h : n.Shape) (hconn : (n.connections.get? connId).isSome) (hkey : key = n.derivePeerKey connId)
    (info : PathMeta) (hc : c ∈ (((n.groups.get? key).getD {}).conns.set connId info).keys) :
    ∃ conn, n.connections.get? c = some conn ∧ key = keyOf c (some conn) := by
  obtain ⟨conn, hconn⟩ := Option.isSome_iff_exists.mp hconn
  rcases Dict.mem_keys_set.mp hc with rfl | hc
  · exact ⟨conn, hconn, by rw [hkey, derivePeerKey, hconn]⟩
  · cases hg : n.groups.get? key with
    | none =>
        rw [hg] at hc
        cases hc
    | some g =>
        rw [hg] at hc
        exact h.home key g c hg hc

/-- The primary of a group, new or not, is a member. -/
theorem Shape.primary_getD (h : n.Shape) {p : Text} (hp : ((n.groups.get? key).getD {}).primary = some p) :
    ((n.groups.get? key).getD {}).Has p := by
  cases hg : n.groups.get? key with
  | none =>
      rw [hg] at hp
      cases hp
  | some g =>
      obtain ⟨q, hq, hhas⟩ := h.led key g hg (h.nonempty key g hg)
      simp only [hg, Option.getD_some] at hp ⊢
      rw [hq] at hp
      cases hp
      exact hhas

theorem Shape.register (h : n.Shape) (hconn : (n.connections.get? connId).isSome) :
    (n.registerMpathConnection cfg now connId).Shape := by
  have hprimary (p : Text) (hp : ((n.groups.get? (n.derivePeerKey connId)).getD {}).primary = some p) := h.primary_getD hp
  have hhome (info : PathMeta) (c : Text) := h.home_set (c := c) hconn rfl info
  unfold registerMpathConnection
  dsimp only
  generalize (n.groups.get? (n.derivePeerKey connId)).getD {} = old at hprimary hhome
  generalize ({ openedAt := _, pref := _, lastSeen := _, lastRxSeen := _ } : PathMeta) = info
  have hself : connId ∈ (old.conns.set connId info).keys := Dict.mem_keys_set.mpr (.inl rfl)
  have hne : (old.conns.set connId info).entries ≠ [] := by
    intro he
    simp [Dict.keys, he] at hself
  split
  · exact h.setGroup hne (fun _ => ⟨connId, rfl, hself⟩) (hhome info)
  · rename_i p hp
    have hadded : ({ old with conns := old.conns.set connId info } : Group).Led := fun _ =>
      ⟨p, hp, Dict.mem_keys_set.mpr (.inr (hprimary p hp))⟩
    have hconns : (({ old with conns := old.conns.set connId info } : Group).applyPromotion cfg connId).conns =
        old.conns.set connId info := Group.conns_applyPromotion
    refine h.setGroup (by rwa [hconns]) (hadded.applyPromotion hself) fun c hc => hhome info c ?_
    unfold Group.Has at hc
    rwa [hconns] at hc

/-- Only a member that is not where its record says is moved. -/
theorem Shape.rekey (h : n.Shape) : (n.rekeyMpathConnection connId).Shape := by
  unfold rekeyMpathConnection
  dsimp only
  split
  · exact h
  · rename_i key hfind
    obtain ⟨e, he, rfl⟩ := Option.map_eq_some_iff.mp hfind
    have hg : n.groups.get? e.1 = some e.2 := Dict.mem_entries.mp (List.mem_of_find?_eq_some he)
    have hmember : (e.2.conns.get? connId).isSome := by simpa using List.find?_some he
    obtain ⟨info, hinfo⟩ := Option.isSome_iff_exists.mp hmember
    obtain ⟨conn, hconn, hkey⟩ := h.home e.1 e.2 connId hg (Group.has_iff.mpr ⟨info, hinfo⟩)
    rw [if_pos]
    · exact h
    · rw [hkey, derivePeerKey, hconn]

theorem Shape.unregister (h : n.Shape) : (n.unregisterMpathConnection connId).Shape := by
  unfold unregisterMpathConnection
  split
  · exact h
  · rename_i g hg
    exact h.putGroup hg ((h.led _ g hg).remove connId) fun c hc => (Group.has_remove.mp hc).2

/-- After the unregistration no group has the connection. -/
theorem Shape.not_has_unregister (h : n.Shape) {key : Text} {g : Group}
    (hg : (n.unregisterMpathConnection connId).groups.get? key = some g) : ¬ g.Has connId := by
  intro hhas
  -- A group that still has it is one that its record names, and from that it was taken out.
  have hother {key : Text} {g : Group} (hg : n.groups.get? key = some g) (hhas : g.Has connId) : key = n.derivePeerKey connId := by
    obtain ⟨conn, hconn, hkey⟩ := h.home key g connId hg hhas
    rw [hkey, derivePeerKey, hconn]
  unfold unregisterMpathConnection at hg
  split at hg
  · rename_i hnone
    rw [hother hg hhas, hnone] at hg
    cases hg
  · rename_i old hold
    unfold Node.putGroup at hg
    dsimp only at hg
    split at hg
    · rw [Dict.get?_pop] at hg
      split at hg
      · cases hg
      · rename_i hne
        exact hne (hother hg hhas)
    · rw [Dict.get?_set] at hg
      split at hg
      · cases hg
        exact (Group.has_remove.mp hhas).1 rfl
      · rename_i hne
        exact hne (hother hg hhas)

theorem connections_unregister : (n.unregisterMpathConnection connId).connections = n.connections := by
  unfold unregisterMpathConnection
  split
  · rfl
  · exact connections_putGroup

theorem Shape.close (h : n.Shape) : (n.closeConnection connId).Shape where
  nonempty := h.unregister.nonempty
  led := h.unregister.led
  home key g c hg hc := by
    obtain ⟨conn, hconn, hkey⟩ := h.unregister.home key g c hg hc
    have hne : c ≠ connId := by
      rintro rfl
      exact h.not_has_unregister hg hc
    refine ⟨conn, ?_, hkey⟩
    rw [closeConnection, Dict.get?_pop_ne _ hne]
    exact hconn

theorem Shape.select (h : n.Shape) : (n.selectMpathConnection cfg now key).Shape := by
  unfold selectMpathConnection
  split
  · exact h
  · rename_i g hg
    have hconns : (g.selectMpathConnection cfg (n.env now)).conns = g.conns := Group.conns_select
    refine h.setGroup (by rw [hconns]; exact h.nonempty key g hg) (h.led key g hg).select fun c hc => ?_
    unfold Group.Has at hc
    rw [hconns] at hc
    exact h.home key g c hg hc

theorem Shape.sweepGroup (h : n.Shape) : (n.sweepGroup cfg now key).Shape := by
  unfold Node.sweepGroup
  split
  · exact h
  · rename_i g hg
    have hpruned := @Group.Led.prune cfg (n.env now) g (h.led key g hg)
    obtain ⟨hled, hsub⟩ := hpruned
    dsimp only
    split
    · exact h.putGroup hg hled hsub
    · refine h.putGroup hg hled.sweepPrimary fun c hc => hsub c ?_
      unfold Group.Has at hc
      rwa [Group.conns_sweepPrimary] at hc

theorem Shape.sweep (h : n.Shape) : (n.mflSweepOnce cfg now).Shape := by
  unfold mflSweepOnce
  generalize n.groups.keys = keys
  induction keys generalizing n with
  | nil => exact h
  | cons key keys ih => exact ih h.sweepGroup

theorem Shape.touch (h : n.Shape) {info : PathMeta} : (n.touch key connId info).Shape := by
  unfold Node.touch
  split
  · exact h
  · rename_i g hg
    split
    · rename_i hhas
      have hsame (c : Text) : c ∈ (g.conns.set connId info).keys ↔ g.Has c := by
        rw [Dict.mem_keys_set]
        constructor
        · rintro (rfl | hc)
          · exact hhas
          · exact hc
        · exact .inr
      obtain ⟨p, hp, hpm⟩ := h.led key g hg (h.nonempty key g hg)
      exact h.setGroup (Group.ne_nil_of_has (g := { g with conns := g.conns.set connId info }) ((hsame connId).mpr hhas))
        (fun _ => ⟨p, hp, (hsame p).mpr hpm⟩) fun c hc => h.home key g c hg ((hsame c).mp hc)
    · exact h

theorem Shape.store (h : n.Shape) {conn : ConnRecord} (htimely : n.Timely (.store connId conn)) :
    ({ n with connections := n.connections.set connId conn } : Node).Shape where
  nonempty := h.nonempty
  led := h.led
  home key g c hg hc := by
    by_cases hid : c = connId
    · subst hid
      exact ⟨conn, Dict.get?_set_self .., htimely (key, g) (Dict.mem_entries.mpr hg) hc⟩
    · obtain ⟨old, hold, hkey⟩ := h.home key g c hg hc
      exact ⟨old, by rw [Dict.get?_set_ne _ _ hid, hold], hkey⟩

theorem Shape.step {n' : Node} {a : Act} (h : n.Shape) (htimely : n.Timely a) (hstep : n.step cfg a = some n') : n'.Shape := by
  cases a <;> cases hstep
  case store => exact h.store htimely
  case register => exact h.register htimely
  case rekey => exact h.rekey
  case unregister => exact h.unregister
  case close => exact h.close
  case select => exact h.select
  case sweep => exact h.sweep
  case touch => exact h.touch
  case heartbeat | freeze => exact ⟨h.nonempty, h.led, h.home⟩

/-- A step that is not timely spoils the shape at once. -/
theorem Shape.timely {n' : Node} {a : Act} (h : n.Shape) (hstep : n.step cfg a = some n') (hshaped : n'.WellShaped) :
    n.Timely a := by
  cases a with
  | store connId conn =>
      cases hstep
      intro e he hhas
      have hconn : ({ n with connections := n.connections.set connId conn } : Node).connections.get? connId = some conn :=
        Dict.get?_set_self ..
      have hkey := hshaped.home e.1 connId ⟨e.2, Dict.mem_entries.mp he, hhas⟩ (by rw [hconn]; rfl)
      rwa [derivePeerKey, hconn] at hkey
  | register now connId =>
      cases hstep
      rw [Timely, Option.isSome_iff_ne_none]
      intro hnone
      have hsame : (n.registerMpathConnection cfg now connId).connections = n.connections := by
        unfold registerMpathConnection
        dsimp only
        split <;> rfl
      refine hshaped.closed (n.derivePeerKey connId) connId (by rw [hsame, hnone]) ?_
      unfold registerMpathConnection InGroup
      dsimp only
      split
      · exact ⟨_, Dict.get?_set_self .., Dict.mem_keys_set.mpr (.inl rfl)⟩
      · refine ⟨_, Dict.get?_set_self .., ?_⟩
        unfold Group.Has
        rw [Group.conns_applyPromotion]
        exact Dict.mem_keys_set.mpr (.inl rfl)
  | rekey | unregister | close | select | sweep | touch | heartbeat | freeze => trivial

end Node

end OpenMux.Paths
