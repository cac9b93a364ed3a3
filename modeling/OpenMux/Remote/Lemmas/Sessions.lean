import OpenMux.Remote.Sessions

/-!
# What each step leaves recorded

An id belongs to one client, and is in nobody's record before its OPEN is through.
-/

namespace OpenMux.Remote.Proxy

open Py

variable {n n' : Proxy} {key : Text} {sid s : ℕ}

/-! ## Sends -/

@[simp] theorem mem_opened_open : s ∈ (n.sendStreamOpen sid).opened ↔ n.link = .live ∧ s = sid ∨ s ∈ n.opened := by
  unfold sendStreamOpen
  split <;> simp [*]

@[simp] theorem mem_closed_close : s ∈ (n.sendStreamClose sid).closed ↔ n.link = .live ∧ s = sid ∨ s ∈ n.closed := by
  unfold sendStreamClose
  split <;> simp [*]

/-- A CLOSE ends the stream that it names, on a live path. -/
theorem live_close : (n.sendStreamClose sid).Live s ↔ n.Live s ∧ ¬ (n.link = .live ∧ s = sid) := by
  simp only [Live, mem_closed_close]
  simp only [sendStreamClose]
  tauto

/-- What is recorded depends on the two tables alone. -/
theorem recorded_congr (hc : n'.clientSessions = n.clientSessions) (hs : n'.staleSessions = n.staleSessions) :
    n'.Recorded s ↔ n.Recorded s := by
  unfold Recorded
  rw [hc, hs]

/-! ## The invariant -/

/-- The id is somewhere. -/
def Known (n : Proxy) (sid : ℕ) : Prop :=
  n.Recorded sid ∨ (n.opening.get? sid).isSome ∨ sid ∈ n.opened ∨ sid ∈ n.closed ∨ (∃ sids ∈ n.closingAll, sid ∈ sids) ∨
    ∃ sids ∈ n.closingStale, sid ∈ sids

/-- The id is recorded for the client. -/
def RecordedFor (n : Proxy) (key : Text) (sid : ℕ) : Prop :=
  n.clientSessions.get? key = some sid ∨ n.staleSessions.get? key = some sid

theorem recorded_iff : n.Recorded sid ↔ ∃ key, n.RecordedFor key sid := exists_or.symm

structure Inv (n : Proxy) : Prop where
  bound : ∀ sid, n.Known sid → sid ≤ n.nextStreamId
  owner : ∀ key key' sid, n.RecordedFor key sid → n.RecordedFor key' sid → key = key'
  unrecorded : ∀ sid, (n.opening.get? sid).isSome → ¬ n.Recorded sid

theorem Inv.start : ({} : Proxy).Inv where
  bound := by
    intro sid h
    simp [Known, Recorded] at h
  owner := by
    intro key key' sid h
    simp [RecordedFor] at h
  unrecorded := by
    intro sid h
    simp at h

theorem Inv.fresh (h : n.Inv) : ¬ n.Known (n.nextStreamId + 1) := fun hk =>
  absurd (h.bound _ hk) (by omega)

/-- A step that takes ids away, or moves them to another table of their client. -/
theorem Inv.shrink (h : n.Inv) (hnext : n.nextStreamId ≤ n'.nextStreamId) (hknown : ∀ sid, n'.Known sid → n.Known sid)
    (hrecorded : ∀ key sid, n'.RecordedFor key sid → n.RecordedFor key sid)
    (hopening : ∀ sid, (n'.opening.get? sid).isSome → (n.opening.get? sid).isSome) : n'.Inv where
  bound sid hk := Nat.le_trans (h.bound sid (hknown sid hk)) hnext
  owner key key' sid hr hr' := h.owner key key' sid (hrecorded _ _ hr) (hrecorded _ _ hr')
  unrecorded sid ho hr := by
    obtain ⟨key, hr⟩ := recorded_iff.mp hr
    exact h.unrecorded sid (hopening sid ho) (recorded_iff.mpr ⟨key, hrecorded _ _ hr⟩)

/-- The part that a send of a CLOSE has in the invariant. -/
theorem Inv.sendStreamClose (h : n.Inv) (hk : n.Known sid) : (n.sendStreamClose sid).Inv := by
  refine h.shrink (Nat.le_refl _) (fun s hs => ?_) (fun _ _ hr => hr) (fun _ ho => ho)
  simp only [Known, mem_closed_close] at hs ⊢
  rcases hs with hs | hs | hs | (⟨-, rfl⟩ | hs) | hs
  · exact .inl hs
  · exact .inr (.inl hs)
  · exact .inr (.inr (.inl hs))
  · exact hk
  · exact .inr (.inr (.inr (.inl hs)))
  · exact .inr (.inr (.inr (.inr hs)))

/-- A new id is recorded for a client. -/
theorem Inv.record (h : n.Inv) (hclient : n'.clientSessions = n.clientSessions.set key sid)
    (hstale : n'.staleSessions = n.staleSessions) (hnew : ¬ n.Recorded sid) (hle : sid ≤ n'.nextStreamId)
    (hnext : n.nextStreamId ≤ n'.nextStreamId) (hknown : ∀ s, n'.Known s → n.Known s ∨ s = sid)
    (hopening : ∀ s, (n'.opening.get? s).isSome → s ≠ sid ∧ (n.opening.get? s).isSome) : n'.Inv := by
  have hrecorded (k : Text) (s : ℕ) (hr : n'.RecordedFor k s) : k = key ∧ s = sid ∨ n.RecordedFor k s := by
    unfold RecordedFor at hr ⊢
    rw [hclient, hstale, Dict.get?_set] at hr
    split at hr
    · exact hr.imp (fun he => ⟨‹_›, (Option.some.inj he).symm⟩) .inr
    · exact .inr hr
  refine ⟨fun s hk => ?_, fun k k' s hr hr' => ?_, fun s ho hr => ?_⟩
  · rcases hknown s hk with hk | rfl
    · exact Nat.le_trans (h.bound s hk) hnext
    · exact hle
  · rcases hrecorded k s hr with ⟨rfl, rfl⟩ | hr <;> rcases hrecorded k' _ hr' with ⟨rfl, he⟩ | hr'
    · rfl
    · exact absurd (recorded_iff.mpr ⟨k', hr'⟩) hnew
    · exact absurd (recorded_iff.mpr ⟨k, he ▸ hr⟩) hnew
    · exact h.owner k k' s hr hr'
  · obtain ⟨hne, ho⟩ := hopening s ho
    obtain ⟨k, hr⟩ := recorded_iff.mp hr
    rcases hrecorded k s hr with ⟨-, he⟩ | hr
    · exact hne he
    · exact h.unrecorded s ho (recorded_iff.mpr ⟨k, hr⟩)

theorem known_set {d : Dict Text ℕ} (hr : (∃ k, (d.set key sid).get? k = some s)) : (∃ k, d.get? k = some s) ∨ s = sid := by
  obtain ⟨k, hk⟩ := hr
  rw [Dict.get?_set] at hk
  split at hk
  · exact .inr (Option.some.inj hk).symm
  · exact .inl ⟨k, hk⟩

theorem Inv.ensureSession (h : n.Inv) {suspends : Bool} : (n.ensureSession key suspends).Inv := by
  unfold Proxy.ensureSession
  cases hkey : n.clientSessions.get? key with
  | some sid => exact h
  | none =>
      have hfresh := h.fresh
      dsimp only
      split
      · constructor
        · intro sid hk
          simp only [Known, Recorded, mem_opened_open, Dict.get?_set] at hk
          by_cases he : sid = n.nextStreamId + 1
          · exact Nat.le_of_eq he
          · simp only [he, and_false, false_or, if_false] at hk
            exact Nat.le_succ_of_le (h.bound sid hk)
        · exact h.owner
        · intro sid ho hr
          rw [Dict.get?_set] at ho
          split at ho
          · rename_i he
            exact hfresh (he ▸ .inl hr)
          · exact h.unrecorded sid ho hr
      · refine h.record rfl rfl (fun hr => hfresh (.inl hr)) (Nat.le_refl _) (Nat.le_succ _) (fun s hk => ?_) fun s ho => ?_
        · simp only [Known, Recorded, mem_opened_open] at hk
          rcases hk with (hk | hk) | hk | (⟨-, hk⟩ | hk) | hk
          · exact (known_set hk).imp_left fun hk => .inl (.inl hk)
          · exact .inl (.inl (.inr hk))
          · exact .inl (.inr (.inl hk))
          · exact .inr hk
          · exact .inl (.inr (.inr (.inl hk)))
          · exact .inl (.inr (.inr (.inr hk)))
        · exact ⟨fun he => hfresh (he ▸ .inr (.inl ho)), ho⟩

theorem Inv.recordSession (h : n.Inv) (hstep : n.recordSession sid = some n') : n'.Inv := by
  obtain ⟨key, hkey, rfl⟩ := Option.map_eq_some_iff.mp hstep
  have hopening : (n.opening.get? sid).isSome := by
    simp [hkey]
  have hsid : n.Known sid := .inr (.inl hopening)
  have hpop (s : ℕ) (ho : ((n.opening.pop sid).get? s).isSome) : s ≠ sid ∧ (n.opening.get? s).isSome := by
    rw [Dict.get?_pop] at ho
    split at ho
    · cases ho
    · exact ⟨‹_›, ho⟩
  refine h.record rfl rfl (h.unrecorded sid hopening) (h.bound sid hsid) (Nat.le_refl _) (fun s hk => ?_) hpop
  simp only [Known, Recorded] at hk
  rcases hk with (hk | hk) | hk | hk
  · exact (known_set hk).imp_left fun hk => .inl (.inl hk)
  · exact .inl (.inl (.inr hk))
  · exact .inl (.inr (.inl (hpop s hk).2))
  · exact .inl (.inr (.inr hk))

theorem mem_values {d : Dict Text ℕ} : s ∈ d.entries.map Prod.snd ↔ ∃ key, d.get? key = some s := by
  simp only [List.mem_map, Prod.exists, exists_eq_right, Dict.mem_entries]

theorem Inv.closeStreamForClient (h : n.Inv) : (n.closeStreamForClient key).Inv := by
  unfold Proxy.closeStreamForClient
  cases hkey : n.clientSessions.get? key with
  | none => exact h
  | some sid =>
      have hpop (k : Text) (s : ℕ) (hk : (n.clientSessions.pop key).get? k = some s) : n.clientSessions.get? k = some s := by
        rw [Dict.get?_pop] at hk
        split at hk
        · cases hk
        · exact hk
      refine (h.sendStreamClose (.inl (.inl ⟨key, hkey⟩))).shrink (Nat.le_refl _) (fun s hk => ?_) (fun k s hr => ?_)
        fun _ ho => ho
      · exact hk.imp_left (Or.imp_left fun ⟨k, hk⟩ => ⟨k, hpop k s hk⟩)
      · exact hr.imp_left (hpop k s)

/-- The ids of a loop of CLOSEs are known. -/
theorem Inv.startClosing (h : n.Inv) {sids : List ℕ} (hsids : ∀ s ∈ sid :: sids, n.Known s)
    (hn : n' = { n with closingAll := n.closingAll ++ [sids] }.sendStreamClose sid ∨
      n' = { n with closingStale := n.closingStale ++ [sids] }.sendStreamClose sid) : n'.Inv := by
  have hclosed := h.sendStreamClose (hsids sid List.mem_cons_self)
  have hloop {l : List (List ℕ)} {s : ℕ} (hs : ∃ ids ∈ l ++ [sids], s ∈ ids) : (∃ ids ∈ l, s ∈ ids) ∨ s ∈ sids := by
    simpa [or_and_right, exists_or] using hs
  have hlast {s : ℕ} (hs : s ∈ sids) : (n.sendStreamClose sid).Known s := by
    refine (hsids s (List.mem_cons_of_mem sid hs)).imp_right (Or.imp_right (Or.imp_right (Or.imp_left ?_)))
    exact fun hc => mem_closed_close.mpr (.inr hc)
  rcases hn with rfl | rfl
  · refine hclosed.shrink (Nat.le_refl _) (fun s hk => ?_) (fun _ _ hr => hr) fun _ ho => ho
    rcases hk with hk | hk | hk | hk | hk | hk
    · exact .inl hk
    · exact .inr (.inl hk)
    · exact .inr (.inr (.inl hk))
    · exact .inr (.inr (.inr (.inl hk)))
    · rcases hloop hk with hk | hk
      · exact .inr (.inr (.inr (.inr (.inl hk))))
      · exact hlast hk
    · exact .inr (.inr (.inr (.inr (.inr hk))))
  · refine hclosed.shrink (Nat.le_refl _) (fun s hk => ?_) (fun _ _ hr => hr) fun _ ho => ho
    rcases hk with hk | hk | hk | hk | hk | hk
    · exact .inl hk
    · exact .inr (.inl hk)
    · exact .inr (.inr (.inl hk))
    · exact .inr (.inr (.inr (.inl hk)))
    · exact .inr (.inr (.inr (.inr (.inl hk))))
    · rcases hloop hk with hk | hk
      · exact .inr (.inr (.inr (.inr (.inr hk))))
      · exact hlast hk

theorem Inv.closeAllStreams (h : n.Inv) : n.closeAllStreams.Inv := by
  unfold Proxy.closeAllStreams
  cases hv : n.clientSessions.entries.map Prod.snd with
  | nil => exact h
  | cons sid sids => exact h.startClosing (fun s hs => .inl (.inl (mem_values.mp (hv ▸ hs)))) (.inl rfl)

theorem Inv.closeStaleProxySessions (h : n.Inv) : n.closeStaleProxySessions.Inv := by
  unfold Proxy.closeStaleProxySessions
  cases hv : n.staleSessions.entries.map Prod.snd with
  | nil => exact h
  | cons sid sids => exact h.startClosing (fun s hs => .inl (.inr (mem_values.mp (hv ▸ hs)))) (.inr rfl)

theorem get?_disconnect {k : Text} (hk : (n.staleSessions.update n.clientSessions).get? k = some s) : n.RecordedFor k s := by
  rw [Dict.get?_update, Option.or_eq_some_iff] at hk
  exact hk.imp_right And.right

theorem Inv.disconnect (h : n.Inv) : n.disconnect.Inv := by
  refine Inv.closeAllStreams (h.shrink (Nat.le_refl _) (fun s hk => ?_) (fun k s hr => ?_) fun _ ho => ho)
  · refine hk.imp_left ?_
    rintro (hk | ⟨k, hk⟩)
    · exact .inl hk
    · exact recorded_iff.mpr ⟨k, get?_disconnect hk⟩
  · rcases hr with hr | hr
    · exact .inl hr
    · exact get?_disconnect hr

theorem mem_set {l : List (List ℕ)} {i : ℕ} {sids : List ℕ} (hi : l[i]? = some (sid :: sids))
    (hs : ∃ ids ∈ l.set i sids, s ∈ ids) : ∃ ids ∈ l, s ∈ ids := by
  obtain ⟨ids, hids, hs⟩ := hs
  rcases List.mem_or_eq_of_mem_set hids with hids | rfl
  · exact ⟨ids, hids, hs⟩
  · exact ⟨sid :: ids, List.mem_of_getElem? hi, List.mem_cons_of_mem sid hs⟩

theorem mem_eraseIdx {l : List (List ℕ)} {i : ℕ} (hs : ∃ ids ∈ l.eraseIdx i, s ∈ ids) : ∃ ids ∈ l, s ∈ ids :=
  hs.imp fun _ h => ⟨List.mem_of_mem_eraseIdx h.1, h.2⟩

theorem Inv.closeAllNext (h : n.Inv) {i : ℕ} (hstep : n.closeAllNext i = some n') : n'.Inv := by
  unfold Proxy.closeAllNext at hstep
  split at hstep
  · cases hstep
  · cases hstep
    refine h.shrink (Nat.le_refl _) (fun s hk => ?_) (fun k s hr => ?_) fun _ ho => ho
    · rcases hk with (⟨_, hk⟩ | hk) | hk | hk | hk | hk | hk
      · cases hk
      · exact .inl (.inr hk)
      · exact .inr (.inl hk)
      · exact .inr (.inr (.inl hk))
      · exact .inr (.inr (.inr (.inl hk)))
      · exact .inr (.inr (.inr (.inr (.inl (mem_eraseIdx hk)))))
      · exact .inr (.inr (.inr (.inr (.inr hk))))
    · rcases hr with hr | hr
      · cases hr
      · exact .inr hr
  · rename_i sid sids hi
    cases hstep
    have hsid : n.Known sid :=
      .inr (.inr (.inr (.inr (.inl ⟨sid :: sids, List.mem_of_getElem? hi, List.mem_cons_self⟩))))
    refine (h.sendStreamClose hsid).shrink (Nat.le_refl _) (fun s hk => ?_) (fun _ _ hr => hr) fun _ ho => ho
    rcases hk with hk | hk | hk | hk | hk | hk
    · exact .inl hk
    · exact .inr (.inl hk)
    · exact .inr (.inr (.inl hk))
    · exact .inr (.inr (.inr (.inl hk)))
    · exact .inr (.inr (.inr (.inr (.inl (mem_set hi hk)))))
    · exact .inr (.inr (.inr (.inr (.inr hk))))

theorem Inv.closeStaleNext (h : n.Inv) {i : ℕ} (hstep : n.closeStaleNext i = some n') : n'.Inv := by
  unfold Proxy.closeStaleNext at hstep
  split at hstep
  · cases hstep
  · cases hstep
    refine h.shrink (Nat.le_refl _) (fun s hk => ?_) (fun k s hr => ?_) fun _ ho => ho
    · rcases hk with (hk | ⟨_, hk⟩) | hk | hk | hk | hk | hk
      · exact .inl (.inl hk)
      · cases hk
      · exact .inr (.inl hk)
      · exact .inr (.inr (.inl hk))
      · exact .inr (.inr (.inr (.inl hk)))
      · exact .inr (.inr (.inr (.inr (.inl hk))))
      · exact .inr (.inr (.inr (.inr (.inr (mem_eraseIdx hk)))))
    · rcases hr with hr | hr
      · exact .inl hr
      · cases hr
  · rename_i sid sids hi
    cases hstep
    have hsid : n.Known sid :=
      .inr (.inr (.inr (.inr (.inr ⟨sid :: sids, List.mem_of_getElem? hi, List.mem_cons_self⟩))))
    refine (h.sendStreamClose hsid).shrink (Nat.le_refl _) (fun s hk => ?_) (fun _ _ hr => hr) fun _ ho => ho
    rcases hk with hk | hk | hk | hk | hk | hk
    · exact .inl hk
    · exact .inr (.inl hk)
    · exact .inr (.inr (.inl hk))
    · exact .inr (.inr (.inr (.inl hk)))
    · exact .inr (.inr (.inr (.inr (.inl hk))))
    · exact .inr (.inr (.inr (.inr (.inr (mem_set hi hk)))))

theorem Inv.step (h : n.Inv) {a : ProxyAct} (hstep : n.step a = some n') : n'.Inv := by
  cases a with
  | record sid => exact h.recordSession hstep
  | closeAllNext i => exact h.closeAllNext hstep
  | closeStaleNext i => exact h.closeStaleNext hstep
  | ensure key suspends =>
      cases hstep
      exact h.ensureSession
  | closeClient key =>
      cases hstep
      exact h.closeStreamForClient
  | closeAll =>
      cases hstep
      exact h.closeAllStreams
  | disconnect =>
      cases hstep
      exact h.disconnect
  | closeStale =>
      cases hstep
      exact h.closeStaleProxySessions
  | link link =>
      cases hstep
      exact h.shrink (Nat.le_refl _) (fun _ hk => hk) (fun _ _ hr => hr) fun _ ho => ho
  | otherPort =>
      cases hstep
      exact h.shrink (Nat.le_succ _) (fun _ hk => hk) (fun _ _ hr => hr) fun _ ho => ho

/-! ## What a step forgets -/

theorem Live.known (h : n.Live sid) : n.Known sid := .inr (.inr (.inl h.1))

/-- A step after which the same ids are recorded, and no other is live. -/
theorem Accounted.keep (hacc : n.Accounted) (hlive : ∀ s, n'.Live s → n.Live s) (hrecorded : ∀ s, n.Recorded s → n'.Recorded s)
    (hopening : n'.opening = n.opening) : n'.Accounted := fun s hs => by
  rw [hopening]
  exact (hacc s (hlive s hs)).imp_left (hrecorded s)

theorem live_of_close (h : (n.sendStreamClose sid).Live s) : n.Live s := (live_close.mp h).1

theorem Accounted.ensureSession (h : n.Inv) (hacc : n.Accounted) {suspends : Bool} :
    (n.ensureSession key suspends).Accounted := by
  unfold Proxy.ensureSession
  cases hkey : n.clientSessions.get? key with
  | some sid => exact hacc
  | none =>
      have hlive {s : ℕ} (hs : (({ n with nextStreamId := n.nextStreamId + 1 } : Proxy).sendStreamOpen (n.nextStreamId + 1)).Live s) :
          s = n.nextStreamId + 1 ∨ n.Live s := by
        rcases mem_opened_open.mp hs.1 with ⟨-, he⟩ | ho
        · exact .inl he
        · exact .inr ⟨ho, hs.2⟩
      dsimp only
      split
      · intro s hs
        rcases hlive hs with rfl | hs
        · exact .inr (by simp)
        · refine (hacc s hs).imp_right fun ho => ?_
          rw [Dict.get?_set]
          split
          · rfl
          · exact ho
      · intro s hs
        rcases hlive hs with rfl | hs
        · exact .inl (.inl ⟨key, Dict.get?_set_self ..⟩)
        · refine (hacc s hs).imp_left (Or.imp_left ?_)
          rintro ⟨k, hk⟩
          have hne : k ≠ key := by
            rintro rfl
            rw [hkey] at hk
            cases hk
          exact ⟨k, (Dict.get?_set_ne _ _ hne).trans hk⟩

theorem accounted_recordSession (h : n.Inv) (hacc : n.Accounted) (hstep : n.recordSession sid = some n') :
    n'.Accounted ↔ n.Careful (.record sid) := by
  obtain ⟨key, hkey, rfl⟩ := Option.map_eq_some_iff.mp hstep
  have hnew : ¬ n.Recorded sid := h.unrecorded sid (by simp [hkey])
  constructor
  · intro hacc' key' hkey' old hold hlive
    cases hkey.symm.trans hkey'
    have hne : old ≠ sid := by
      rintro rfl
      exact hnew (.inl ⟨key, hold⟩)
    rcases hacc' old hlive with (⟨k, hk⟩ | hk) | ho
    · simp only [Dict.get?_set] at hk
      split at hk
      · exact absurd (Option.some.inj hk).symm hne
      · exact absurd (h.owner k key old (.inl hk) (.inl hold)) ‹_›
    · exact hk
    · simp only [Dict.get?_pop, if_neg hne] at ho
      exact absurd (.inl ⟨key, hold⟩) (h.unrecorded old ho)
  · intro hcareful s hs
    by_cases he : s = sid
    · exact .inl (.inl ⟨key, he ▸ Dict.get?_set_self ..⟩)
    · rcases hacc s hs with (⟨k, hk⟩ | hk) | ho
      · by_cases hke : k = key
        · exact .inl (.inr (hcareful key hkey s (hke ▸ hk) hs))
        · exact .inl (.inl ⟨k, (Dict.get?_set_ne _ _ hke).trans hk⟩)
      · exact .inl (.inr hk)
      · exact .inr ((Dict.get?_pop_ne _ he).symm ▸ ho)

theorem accounted_closeStreamForClient (h : n.Inv) (hacc : n.Accounted) :
    (n.closeStreamForClient key).Accounted ↔ n.Careful (.closeClient key) := by
  unfold Proxy.closeStreamForClient Careful
  cases hkey : n.clientSessions.get? key with
  | none => exact iff_of_true hacc fun sid hsid => by rw [hkey] at hsid; cases hsid
  | some sid =>
      dsimp only
      have hlive {s : ℕ} : (({ n with clientSessions := n.clientSessions.pop key } : Proxy).sendStreamClose sid).Live s ↔
          n.Live s ∧ ¬ (n.link = .live ∧ s = sid) := live_close
      constructor
      · intro hacc' sid' hsid' hs hlink
        cases hkey.symm.trans hsid'
        rcases hacc' sid (hlive.mpr ⟨hs, fun hl => hlink hl.1⟩) with (⟨k, hk⟩ | hk) | ho
        · have hne : k ≠ key := by
            rintro rfl
            exact absurd (hk.symm.trans (Dict.get?_pop_self ..)) (by simp)
          exact absurd (h.owner k key sid (.inl ((Dict.get?_pop_ne _ hne).symm.trans hk)) (.inl hkey)) hne
        · exact hk
        · exact absurd (.inl ⟨key, hkey⟩) (h.unrecorded sid ho)
      · intro hcareful s hs
        obtain ⟨hold, hnot⟩ := hlive.mp hs
        rcases hacc s hold with (⟨k, hk⟩ | hk) | ho
        · by_cases hke : k = key
          · subst hke
            cases hkey.symm.trans hk
            exact .inl (.inr (hcareful sid hkey hold fun hl => hnot ⟨hl, rfl⟩))
          · exact .inl (.inl ⟨k, (Dict.get?_pop_ne _ hke).trans hk⟩)
        · exact .inl (.inr hk)
        · exact .inr ho

theorem Accounted.closeAllStreams (hacc : n.Accounted) : n.closeAllStreams.Accounted := by
  unfold Proxy.closeAllStreams
  split
  · exact hacc
  · exact hacc.keep (fun _ hs => ⟨hs.1, (live_of_close hs).2⟩) (fun _ hr => hr) rfl

theorem Accounted.closeStaleProxySessions (hacc : n.Accounted) : n.closeStaleProxySessions.Accounted := by
  unfold Proxy.closeStaleProxySessions
  split
  · exact hacc
  · exact hacc.keep (fun _ hs => ⟨hs.1, (live_of_close hs).2⟩) (fun _ hr => hr) rfl

theorem accounted_closeAllNext (h : n.Inv) (hacc : n.Accounted) {i : ℕ} (hstep : n.closeAllNext i = some n') :
    n'.Accounted ↔ n.Careful (.closeAllNext i) := by
  unfold Proxy.closeAllNext at hstep
  unfold Careful
  split at hstep
  · cases hstep
  · rename_i hi
    cases hstep
    constructor
    · intro hacc' _ key sid hkey hs
      rcases hacc' sid hs with (⟨_, hk⟩ | hk) | ho
      · cases hk
      · exact hk
      · exact absurd (.inl ⟨key, hkey⟩) (h.unrecorded sid ho)
    · intro hcareful s hs
      rcases hacc s hs with (⟨k, hk⟩ | hk) | ho
      · exact .inl (.inr (hcareful hi k s hk hs))
      · exact .inl (.inr hk)
      · exact .inr ho
  · rename_i hi
    cases hstep
    refine iff_of_true ?_ fun hnil => by rw [hi] at hnil; cases hnil
    exact hacc.keep (fun _ hs => ⟨hs.1, (live_of_close hs).2⟩) (fun _ hr => hr) rfl

theorem accounted_closeStaleNext (h : n.Inv) (hacc : n.Accounted) {i : ℕ} (hstep : n.closeStaleNext i = some n') :
    n'.Accounted ↔ n.Careful (.closeStaleNext i) := by
  unfold Proxy.closeStaleNext at hstep
  unfold Careful
  split at hstep
  · cases hstep
  · rename_i hi
    cases hstep
    constructor
    · intro hacc' _ key sid hkey hs
      rcases hacc' sid hs with (hk | ⟨_, hk⟩) | ho
      · exact hk
      · cases hk
      · exact absurd (.inr ⟨key, hkey⟩) (h.unrecorded sid ho)
    · intro hcareful s hs
      rcases hacc s hs with (hk | ⟨k, hk⟩) | ho
      · exact .inl (.inl hk)
      · exact .inl (.inl (hcareful hi k s hk hs))
      · exact .inr ho
  · rename_i hi
    cases hstep
    refine iff_of_true ?_ fun hnil => by rw [hi] at hnil; cases hnil
    exact hacc.keep (fun _ hs => ⟨hs.1, (live_of_close hs).2⟩) (fun _ hr => hr) rfl

theorem recorded_closeAllStreams : n.closeAllStreams.Recorded s ↔ n.Recorded s := by
  unfold Proxy.closeAllStreams
  split <;> rfl

theorem opening_closeAllStreams : n.closeAllStreams.opening = n.opening := by
  unfold Proxy.closeAllStreams
  split <;> rfl

/-- A stream that is in no session of a client stays open. -/
theorem live_closeAllStreams (hs : n.Live s) (hno : ∀ key, n.clientSessions.get? key ≠ some s) : n.closeAllStreams.Live s := by
  unfold Proxy.closeAllStreams
  cases hv : n.clientSessions.entries.map Prod.snd with
  | nil => exact hs
  | cons sid sids =>
      refine live_close.mpr ⟨hs, ?_⟩
      rintro ⟨-, rfl⟩
      obtain ⟨key, hkey⟩ := mem_values.mp (hv ▸ List.mem_cons_self)
      exact hno key hkey

theorem accounted_disconnect (h : n.Inv) (hacc : n.Accounted) : n.disconnect.Accounted ↔ n.Careful .disconnect := by
  unfold Proxy.disconnect
  constructor
  · intro hacc' key stale sid hstale hclient hs
    by_contra hne
    have hno (k : Text) : n.clientSessions.get? k ≠ some stale := by
      intro hk
      cases h.owner k key stale (.inl hk) (.inr hstale)
      exact hne (Option.some.inj (hk.symm.trans hclient))
    rcases hacc' stale (live_closeAllStreams hs hno) with hr | ho
    · rcases recorded_closeAllStreams.mp hr with ⟨k, hk⟩ | ⟨k, hk⟩
      · exact hno k hk
      · rw [Dict.get?_update, Option.or_eq_some_iff] at hk
        rcases hk with hk | ⟨hnone, hk⟩
        · exact hno k hk
        · cases h.owner k key stale (.inr hk) (.inr hstale)
          cases hnone.symm.trans hclient
    · rw [opening_closeAllStreams] at ho
      exact h.unrecorded stale ho (.inr ⟨key, hstale⟩)
  · intro hcareful
    refine Accounted.closeAllStreams fun s hs => ?_
    rcases hacc s hs with (hk | ⟨k, hk⟩) | ho
    · exact .inl (.inl hk)
    · cases hclient : n.clientSessions.get? k with
      | none => exact .inl (.inr ⟨k, by rw [Dict.get?_update, hclient, Option.none_or, hk]⟩)
      | some sid => exact .inl (.inl ⟨k, by rw [hclient, hcareful k s sid hk hclient hs]⟩)
    · exact .inr ho

/-- A step forgets no stream that the origin has open exactly if it is careful. -/
theorem accounted_step (h : n.Inv) (hacc : n.Accounted) {a : ProxyAct} (hstep : n.step a = some n') :
    n'.Accounted ↔ n.Careful a := by
  cases a with
  | record sid => exact accounted_recordSession h hacc hstep
  | closeAllNext i => exact accounted_closeAllNext h hacc hstep
  | closeStaleNext i => exact accounted_closeStaleNext h hacc hstep
  | ensure key suspends =>
      cases hstep
      exact iff_of_true (hacc.ensureSession h) trivial
  | closeClient key =>
      cases hstep
      exact accounted_closeStreamForClient h hacc
  | closeAll =>
      cases hstep
      exact iff_of_true hacc.closeAllStreams trivial
  | disconnect =>
      cases hstep
      exact accounted_disconnect h hacc
  | closeStale =>
      cases hstep
      exact iff_of_true hacc.closeStaleProxySessions trivial
  | link link =>
      cases hstep
      exact iff_of_true hacc trivial
  | otherPort =>
      cases hstep
      exact iff_of_true hacc trivial

theorem careful_of_none {a : ProxyAct} (hstep : n.step a = none) : n.Careful a := by
  cases a with
  | record sid =>
      intro key hkey
      cases (Option.map_eq_none_iff.mp hstep).symm.trans hkey
  | closeAllNext i =>
      intro hi
      simp [Proxy.step, Proxy.closeAllNext, hi] at hstep
  | closeStaleNext i =>
      intro hi
      simp [Proxy.step, Proxy.closeStaleNext, hi] at hstep
  | ensure | closeClient | closeAll | disconnect | closeStale | link | otherPort => cases hstep

/-! ## Streams whose OPEN is suspended -/

/-- No stream that the origin has open waits for its record. -/
def NoneWaiting (n : Proxy) : Prop := ∀ sid, (n.opening.get? sid).isSome → ¬ n.Live sid

theorem noOrphans_iff (h : n.Inv) : n.NoOrphans ↔ n.Accounted ∧ n.NoneWaiting := by
  constructor
  · intro hno
    exact ⟨fun s hs => .inl (hno s hs), fun s ho hs => h.unrecorded s ho (hno s hs)⟩
  · rintro ⟨hacc, hnone⟩ s hs
    exact (hacc s hs).resolve_right fun ho => hnone s ho hs

theorem NoneWaiting.mono (h : n.NoneWaiting) (hopening : ∀ s, (n'.opening.get? s).isSome → (n.opening.get? s).isSome)
    (hlive : ∀ s, n'.Live s → n.Live s) : n'.NoneWaiting := fun s ho hs => h s (hopening s ho) (hlive s hs)

theorem NoneWaiting.closeAllStreams (h : n.NoneWaiting) : n.closeAllStreams.NoneWaiting := by
  unfold Proxy.closeAllStreams
  split
  · exact h
  · exact h.mono (fun _ ho => ho) fun _ hs => ⟨hs.1, (live_of_close hs).2⟩

/-- Only an OPEN that suspends leaves a stream waiting. -/
theorem NoneWaiting.step (h : n.NoneWaiting) {a : ProxyAct} (ha : ∀ key suspends, a ≠ .ensure key suspends)
    (hstep : n.step a = some n') : n'.NoneWaiting := by
  have hclose {m : Proxy} {sid : ℕ} (ho : m.opening = n.opening) (hopened : m.opened = n.opened) (hc : m.closed = n.closed) :
      (m.sendStreamClose sid).NoneWaiting :=
    h.mono (fun s hs => ho ▸ hs) fun _ hs => ⟨hopened ▸ hs.1, hc ▸ (live_of_close hs).2⟩
  cases a with
  | ensure key suspends => exact absurd rfl (ha key suspends)
  | record sid =>
      obtain ⟨key, _, rfl⟩ := Option.map_eq_some_iff.mp hstep
      refine h.mono (fun s ho => ?_) fun _ hs => hs
      rw [Dict.get?_pop] at ho
      split at ho
      · cases ho
      · exact ho
  | closeClient key =>
      cases hstep
      unfold closeStreamForClient
      split
      · exact h
      · exact hclose rfl rfl rfl
  | closeAll =>
      cases hstep
      exact h.closeAllStreams
  | closeAllNext i =>
      dsimp only [Proxy.step] at hstep
      unfold Proxy.closeAllNext at hstep
      split at hstep <;> cases hstep
      · exact h
      · exact hclose rfl rfl rfl
  | disconnect =>
      cases hstep
      have hupdated : ({ n with staleSessions := n.staleSessions.update n.clientSessions } : Proxy).NoneWaiting := h
      exact hupdated.closeAllStreams
  | closeStale =>
      cases hstep
      unfold closeStaleProxySessions
      split
      · exact h
      · exact hclose rfl rfl rfl
  | closeStaleNext i =>
      dsimp only [Proxy.step] at hstep
      unfold Proxy.closeStaleNext at hstep
      split at hstep <;> cases hstep
      · exact h
      · exact hclose rfl rfl rfl
  | link link =>
      cases hstep
      exact h
  | otherPort =>
      cases hstep
      exact h

theorem noneWaiting_ensure (h : n.Inv) (hnone : n.NoneWaiting) {suspends : Bool} :
    (n.ensureSession key suspends).NoneWaiting ↔ n.Prompt (.ensure key suspends) := by
  have hfresh := h.fresh
  unfold ensureSession Prompt
  cases hkey : n.clientSessions.get? key with
  | some sid => exact iff_of_true hnone fun hno => by rw [hkey] at hno; cases hno
  | none =>
      dsimp only
      have hold {s : ℕ} (hs : (n.opening.get? s).isSome) : s ≠ n.nextStreamId + 1 := by
        rintro rfl
        exact hfresh (.inr (.inl hs))
      split
      · rename_i hsuspends
        constructor
        · intro hwait _ hlink
          refine absurd ⟨mem_opened_open.mpr (.inl ⟨hlink, rfl⟩), fun hc => hfresh ?_⟩
            (hwait (n.nextStreamId + 1) (by simp))
          exact .inr (.inr (.inr (.inl hc)))
        · intro hprompt s ho hs
          by_cases he : s = n.nextStreamId + 1
          · rcases mem_opened_open.mp hs.1 with ⟨hlink, -⟩ | hopened
            · exact absurd (hprompt hkey hlink) (by simp [hsuspends.2])
            · exact hfresh (he ▸ .inr (.inr (.inl hopened)))
          · simp only [Dict.get?_set, if_neg he] at ho
            refine hnone s ho ⟨?_, hs.2⟩
            exact (mem_opened_open.mp hs.1).resolve_left fun hl => he hl.2
      · rename_i hsuspends
        refine iff_of_true (fun s ho hs => hnone s ho ⟨?_, hs.2⟩) fun _ hlink => ?_
        · exact (mem_opened_open.mp hs.1).resolve_left fun hl => hold ho hl.2
        · by_contra hs
          exact hsuspends ⟨by simp [sendStreamOpen, hlink], by simpa using hs⟩

theorem prompt_iff {a : ProxyAct} (ha : ∀ key suspends, a ≠ .ensure key suspends) : n.Prompt a ↔ n.Careful a := by
  cases a with
  | ensure key suspends => exact absurd rfl (ha key suspends)
  | _ => rfl

/-- A step leaves every stream that the origin has open recorded exactly if it is careful and no OPEN suspends. -/
theorem noOrphans_step (h : n.Inv) (hno : n.NoOrphans) {a : ProxyAct} (hstep : n.step a = some n') :
    n'.NoOrphans ↔ n.Prompt a := by
  obtain ⟨hacc, hnone⟩ := (noOrphans_iff h).mp hno
  rw [noOrphans_iff (h.step hstep), accounted_step h hacc hstep]
  by_cases ha : ∀ key suspends, a ≠ .ensure key suspends
  · rw [prompt_iff ha]
    exact and_iff_left (NoneWaiting.step hnone ha hstep)
  · push Not at ha
    obtain ⟨key, suspends, rfl⟩ := ha
    cases hstep
    rw [← noneWaiting_ensure h hnone]
    exact and_iff_right trivial

theorem prompt_of_none {a : ProxyAct} (hstep : n.step a = none) : n.Prompt a := by
  cases a with
  | ensure => cases hstep
  | _ => exact careful_of_none hstep

/-! ## Reconnecting -/

theorem eq_empty {d : Dict Text ℕ} (h : d.entries = []) : d = ∅ := by
  obtain ⟨entries, nodup⟩ := d
  cases h
  rfl

theorem run_closeAllNext {sids : List ℕ} (hlive : n.link = .live) (hall : n.closingAll = [sids]) :
    Transition.exec step n (List.replicate (sids.length + 1) (.closeAllNext 0)) =
      some { n with clientSessions := ∅, closingAll := [], closed := sids.reverse ++ n.closed } := by
  induction sids generalizing n with
  | nil =>
      rw [List.length_nil, List.replicate_succ, List.replicate_zero, Transition.exec_cons
        (by simp [step, closeAllNext, hall]; rfl)]
      rfl
  | cons sid sids ih =>
      have hstep : n.step (.closeAllNext 0) = some { n with closingAll := [sids], closed := sid :: n.closed } := by
        simp [step, closeAllNext, hall, sendStreamClose, hlive]
      have hrest := @ih { n with closingAll := [sids], closed := sid :: n.closed } hlive rfl
      rw [List.length_cons, List.replicate_succ, Transition.exec_cons hstep, hrest]
      simp

theorem run_closeStaleNext {sids : List ℕ} (hlive : n.link = .live) (hstale : n.closingStale = [sids]) :
    Transition.exec step n (List.replicate (sids.length + 1) (.closeStaleNext 0)) =
      some { n with staleSessions := ∅, closingStale := [], closed := sids.reverse ++ n.closed } := by
  induction sids generalizing n with
  | nil =>
      rw [List.length_nil, List.replicate_succ, List.replicate_zero, Transition.exec_cons
        (by simp [step, closeStaleNext, hstale]; rfl)]
      rfl
  | cons sid sids ih =>
      have hstep : n.step (.closeStaleNext 0) = some { n with closingStale := [sids], closed := sid :: n.closed } := by
        simp [step, closeStaleNext, hstale, sendStreamClose, hlive]
      have hrest := @ih { n with closingStale := [sids], closed := sid :: n.closed } hlive rfl
      rw [List.length_cons, List.replicate_succ, Transition.exec_cons hstep, hrest]
      simp

theorem run_closeAll (hlive : n.link = .live) (hall : n.closingAll = []) :
    Transition.exec step n (.closeAll :: List.replicate n.clientSessions.entries.length (.closeAllNext 0)) =
      some { n with clientSessions := ∅, closed := (n.clientSessions.entries.map Prod.snd).reverse ++ n.closed } := by
  rw [← List.length_map (f := Prod.snd)]
  cases hv : n.clientSessions.entries.map Prod.snd with
  | nil =>
      have hempty := eq_empty (List.map_eq_nil_iff.mp hv)
      have hstep : n.step .closeAll = some n := by
        simp [step, closeAllStreams, hv]
      rw [Transition.exec_cons hstep]
      simp [← hempty]
  | cons sid sids =>
      have hstep : n.step .closeAll = some { n with closingAll := [sids], closed := sid :: n.closed } := by
        simp [step, closeAllStreams, hv, hall, sendStreamClose, hlive]
      have hrest := @run_closeAllNext { n with closingAll := [sids], closed := sid :: n.closed } sids hlive rfl
      rw [Transition.exec_cons hstep, List.length_cons, hrest]
      simp [hall]

theorem run_closeStale (hlive : n.link = .live) (hstale : n.closingStale = []) :
    Transition.exec step n (.closeStale :: List.replicate n.staleSessions.entries.length (.closeStaleNext 0)) =
      some { n with staleSessions := ∅, closed := (n.staleSessions.entries.map Prod.snd).reverse ++ n.closed } := by
  rw [← List.length_map (f := Prod.snd)]
  cases hv : n.staleSessions.entries.map Prod.snd with
  | nil =>
      have hempty := eq_empty (List.map_eq_nil_iff.mp hv)
      have hstep : n.step .closeStale = some n := by
        simp [step, closeStaleProxySessions, hv]
      rw [Transition.exec_cons hstep]
      simp [← hempty]
  | cons sid sids =>
      have hstep : n.step .closeStale = some { n with closingStale := [sids], closed := sid :: n.closed } := by
        simp [step, closeStaleProxySessions, hv, hstale, sendStreamClose, hlive]
      have hrest := @run_closeStaleNext { n with closingStale := [sids], closed := sid :: n.closed } sids hlive rfl
      rw [Transition.exec_cons hstep, List.length_cons, hrest]
      simp [hstale]

/-- A reconnect closes every stream, when none has been forgotten. -/
theorem NoOrphans.reconnect (h : n.NoOrphans) (hlive : n.link = .live) (hquiet : n.Quiet) :
    ∃ n', Transition.exec step n n.reconnect = some n' ∧ ∀ sid, ¬ n'.Live sid := by
  refine ⟨_, Transition.exec_append (run_closeAll hlive hquiet.2.1) (run_closeStale hlive hquiet.2.2), fun sid hs => ?_⟩
  have hclosed : sid ∉ n.closed := fun hc => hs.2 (List.mem_append_right _ (List.mem_append_right _ hc))
  rcases h sid ⟨hs.1, hclosed⟩ with hr | hr
  · exact hs.2 (List.mem_append_right _ (List.mem_append_left _ (List.mem_reverse.mpr (mem_values.mpr hr))))
  · exact hs.2 (List.mem_append_left _ (List.mem_reverse.mpr (mem_values.mpr hr)))

end OpenMux.Remote.Proxy
