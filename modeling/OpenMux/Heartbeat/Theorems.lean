import OpenMux.Heartbeat.Lemmas.Silence

/-!
# Heartbeats and silent peers

The request of a pass is compared with the time of the same pass, and a request that is written counts as a sign of the peer. So
a silent peer is never found out by the loop.
-/

namespace OpenMux.Heartbeat.Adapter

open Py

variable {a b : Adapter} {cid : Text}

/-- A connection that no fault is injected into is still open after every silent run. -/
theorem Untroubled.stays_open {as : List Act} (h : a.Untroubled cid) (hr : a.SilentRun cid as b) :
    b.connections.get? cid ≠ none := by
  obtain ⟨conn, hg, -⟩ := (h.quiet.run hr).get?
  simp [hg]

theorem Untroubled.not_detectsSilence (h : a.Untroubled cid) : ¬ a.DetectsSilence cid := by
  rintro ⟨n, hn⟩
  obtain ⟨wake, hw⟩ := h.asleep
  obtain ⟨as, b, hr, hc, -⟩ := h.quiet.ticks hw n
  exact h.stays_open hr (hn as b hr hc.ge)

theorem Untroubled.not_detectsInTime (h : a.Untroubled cid) : ¬ a.DetectsInTime cid := by
  intro hd
  obtain ⟨wake, hw⟩ := h.asleep
  obtain ⟨as, b, hr, -, -, hl⟩ := h.quiet.ticks hw 8
  refine h.stays_open hr (hd as b wake _ hr hw hl ?_)
  have hp := a.interval_pos
  push_cast
  linarith

/-- A tick that is late enough marks the connection and its path as seen later than they were. -/
theorem Untroubled.seen_later (h : a.Untroubled cid) (t : ℚ) :
    ∃ as b now, a.SilentRun cid as b ∧ b.Quiet cid ∧ Keeps cid a b ∧ t < now ∧ b.SeenAt cid now := by
  obtain ⟨wake, hw⟩ := h.asleep
  obtain ⟨as, b, hr, -, hq, -, hk, hs⟩ := h.quiet.wholeTick hw (le_max_left wake (t + 1))
  exact ⟨as, b, _, hr, hq, hk, lt_max_of_lt_right (lt_add_one t), hs⟩

theorem Untroubled.not_seesPeerOnly (h : a.Untroubled cid) : ¬ a.SeesPeerOnly cid := by
  intro hp
  obtain ⟨conn, hg, -⟩ := h.quiet.get?
  obtain ⟨as, b, now, hr, hq, -, ht, hs⟩ := h.seen_later conn.lastSeen
  obtain ⟨conn', hg', -⟩ := hq.get?
  have hle := hp as b conn conn' hr hg hg'
  rw [hs.1 conn' hg'] at hle
  exact absurd hle (not_le.mpr ht)

theorem Untroubled.not_seesPeerOnPathOnly (h : a.Untroubled cid) (hpath : (a.paths.get? cid).isSome) :
    ¬ a.SeesPeerOnPathOnly cid := by
  intro hp
  obtain ⟨path, hg⟩ := Option.isSome_iff_exists.mp hpath
  obtain ⟨as, b, now, hr, -, hk, ht, hs⟩ := h.seen_later path.lastSeen
  rw [← hk.registered] at hpath
  obtain ⟨path', hg'⟩ := Option.isSome_iff_exists.mp hpath
  have hle := hp as b path path' hr hg hg'
  rw [hs.2 path' hg'] at hle
  exact absurd hle (not_le.mpr ht)

/-- The loop closes no silent connection, in whatever state of its heartbeat it begins, and the requests that it writes are
taken for signs of the peer. -/
theorem silence_undetected (h : a.Untroubled cid) :
    ¬ a.DetectsSilence cid ∧ ¬ a.DetectsInTime cid ∧ ¬ a.SeesPeerOnly cid ∧
      ((a.paths.get? cid).isSome → ¬ a.SeesPeerOnPathOnly cid) :=
  ⟨h.not_detectsSilence, h.not_detectsInTime, h.not_seesPeerOnly, h.not_seesPeerOnPathOnly⟩

/-- A connection of a minute ago that is registered with its group, at the default interval. -/
def linked : Adapter :=
  { start 30 (by decide) 60 with
    connections := (∅ : Dict Text Connection).set "out".toList { authenticated := true, lastSeen := 0 }
    paths := (∅ : Dict Text PathSeen).set "out".toList ⟨0, 0⟩ }

theorem linked_untroubled : linked.Untroubled "out".toList := ⟨⟨60, rfl⟩, by decide, by decide, by decide⟩

theorem silence_undetected_linked : ¬ linked.DetectsSilence "out".toList ∧ ¬ linked.DetectsInTime "out".toList ∧
    ¬ linked.SeesPeerOnly "out".toList ∧ ¬ linked.SeesPeerOnPathOnly "out".toList := by
  obtain ⟨hd, ht, hs, hp⟩ := silence_undetected linked_untroubled
  exact ⟨hd, ht, hs, hp (by decide)⟩

/-- A node comes to have that connection, and never finds out that its peer is silent. -/
theorem silence_undetected_reached :
    Transition.exec step (start 30 (by decide) 60) [.connect "out".toList true 0, .registerPath "out".toList 0] = some linked ∧
      ¬ (linked.DetectsSilence "out".toList ∧ linked.DetectsInTime "out".toList ∧ linked.SeesPeerOnly "out".toList ∧
        linked.SeesPeerOnPathOnly "out".toList) :=
  ⟨rfl, fun h => linked_untroubled.not_detectsSilence h.1⟩

end OpenMux.Heartbeat.Adapter
