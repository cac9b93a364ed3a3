import OpenMux.Login.Lemmas.Surfaces
import OpenMux.Login.Surfaces

/-!
# Keys of the lockout

Where no two addresses begin alike, the keys of the failures stand for users at addresses.
-/

namespace OpenMux.Login

open Py

variable {ν κ : Type} {crypto : Crypto ν κ}

namespace AuthManager

variable {m : AuthManager ν κ} {username username' : Text} {srcIp srcIp' : Option Text}

theorem failKey_inj : failKey username srcIp = failKey username' srcIp' ↔
    username = username' ∧ failKey [] srcIp = failKey [] srcIp' := by
  simp [failKey]

/-- Asking locks and unlocks nobody. -/
theorem locked_ask : (m.isUserLocked username srcIp).2.Locked username' srcIp' ↔ m.Locked username' srcIp' := by
  have htime := (isUserLocked_agrees m username srcIp).time
  unfold Locked
  rw [htime]
  rcases get?_isUserLocked m username srcIp (failKey username' srcIp') with heq | ⟨hno, heq⟩
  · rw [heq]
  · rw [heq]
    refine iff_of_false ?_ (fun ⟨r, hr, hlt⟩ => hno r hr hlt)
    rintro ⟨r, hr, hlt⟩
    obtain ⟨r', -, hr'⟩ := Option.bind_eq_some_iff.mp hr
    rw [unlocked] at hr'
    split at hr'
    · cases hr'
    · cases hr'
      exact absurd hlt (Nat.not_lt_zero _)

/-- A record says nothing of another key. -/
theorem locked_settle (ok : Bool) (hne : failKey username' srcIp' ≠ failKey username srcIp) :
    (if ok then m.clearAuthFailures username srcIp else m.registerAuthFailure username srcIp).Locked username' srcIp' ↔
      m.Locked username' srcIp' := by
  unfold Locked
  rw [registerAuthFailure_eq]
  cases ok <;> simp [clearAuthFailures, Dict.get?_pop, Dict.get?_set, hne]

theorem Locked.agrees {m' : AuthManager ν κ} (ha : m.Agrees m') (hf : m'.failTracker = m.failTracker) :
    m'.Locked username srcIp ↔ m.Locked username srcIp := by
  unfold Locked
  rw [ha.time, hf]

theorem isUserLocked_true (h : m.Locked username srcIp) : (m.isUserLocked username srcIp).1 = true :=
  (isUserLocked_iff m username srcIp).mpr h

/-- An answer locks and unlocks nobody but its own user. -/
theorem locked_verify (hmac : Text) (hne : failKey username' srcIp' ≠ failKey username srcIp) :
    (m.verifyPasswordHmac crypto username hmac srcIp).2.Locked username' srcIp' ↔ m.Locked username' srcIp' := by
  cases hl : (m.isUserLocked username srcIp).1 with
  | true =>
      have heq : (m.verifyPasswordHmac crypto username hmac srcIp).2 = (m.isUserLocked username srcIp).2 := by
        unfold verifyPasswordHmac
        dsimp only
        rw [if_pos hl]
      rw [heq, locked_ask]
  | false =>
      obtain ⟨ha, hf⟩ := verifyPasswordHmac_settles crypto hmac hl
      rw [Locked.agrees ha hf, locked_settle _ hne, locked_ask]

end AuthManager

/-! ## Tries under their keys -/

open AuthManager

/-- The try under the key of the manager. -/
def keyed (t : Try) : Try := { t with pair := failKey t.pair.1 (Listener.srcIp t.pair.2) }

@[simp] theorem keyed_ok (t : Try) : (keyed t).ok = t.ok := rfl

@[simp] theorem keyed_time (t : Try) : (keyed t).time = t.time := rfl

theorem started_keyed (w : List Try) : started (w.map keyed) = started w := by
  simp [started, List.getLast?_map, Option.map_map, Function.comp_def, keyed]

theorem extend_keyed (window : Nat) (t : Try) (w : List Try) :
    extend window (keyed t) (w.map keyed) = (extend window t w).map keyed := by
  cases w with
  | nil => rfl
  | cons p ps =>
      have hstarted := started_keyed (p :: ps)
      rw [List.map_cons] at hstarted
      rw [List.map_cons, extend, extend, hstarted, keyed_ok, keyed_time]
      split <;> rfl

theorem counted_keyed {window : Nat} {username address : Text} {tries : List Try}
    (hsurface : ∀ t ∈ tries, t.surface = .client)
    (hkey : ∀ t ∈ tries, failKey t.pair.1 (Listener.srcIp t.pair.2) = failKey username (Listener.srcIp address) ↔
      t.pair = (username, address)) :
    counted Surface.asks window (failKey username (Listener.srcIp address)) (tries.map keyed) =
      (counted (fun _ => true) window (username, address) tries).map keyed := by
  induction tries with
  | nil => rfl
  | cons t ts ih =>
      have ih := ih (fun t ht => hsurface t (List.mem_cons_of_mem _ ht)) (fun t ht => hkey t (List.mem_cons_of_mem _ ht))
      have hasks : (keyed t).surface.asks = true := by
        rw [keyed, hsurface t List.mem_cons_self]
        rfl
      by_cases hp : t.pair = (username, address)
      · have hpair : (keyed t).pair = failKey username (Listener.srcIp address) := (hkey t List.mem_cons_self).mpr hp
        rw [List.map_cons, counted, if_pos ⟨hpair, hasks⟩, ih, extend_keyed, counted, if_pos ⟨hp, rfl⟩]
      · have hpair : (keyed t).pair ≠ failKey username (Listener.srcIp address) :=
          fun h => hp ((hkey t List.mem_cons_self).mp h)
        rw [List.map_cons, counted, if_neg (fun h => hpair h.1), ih, counted, if_neg (fun h => hp h.1)]

/-! ## The connections -/

namespace AuthManager

variable {m m' m'' : AuthManager ν κ} {username : Text} {srcIp : Option Text} {nonce : ν}

theorem Agrees.trans (h : m.Agrees m') (h' : m'.Agrees m'') : m.Agrees m'' where
  time := h'.time.trans h.time
  maxFailWindow := h'.maxFailWindow.trans h.maxFailWindow
  baseLockSeconds := h'.baseLockSeconds.trans h.baseLockSeconds
  failureThreshold := h'.failureThreshold.trans h.failureThreshold

theorem startPasswordHmacChallenge_agrees (h : m.startPasswordHmacChallenge username nonce = some m') :
    m.Agrees m' ∧ m'.failTracker = m.failTracker := by
  unfold startPasswordHmacChallenge at h
  split at h
  · cases h
  · split at h
    · cases h
    · cases h
      exact ⟨⟨rfl, rfl, rfl, rfl⟩, rfl⟩

theorem startPubkeyChallenge_agrees {keyId : Option Text} {id : Text}
    (h : m.startPubkeyChallenge crypto username keyId nonce = some (id, m')) : m.Agrees m' ∧ m'.failTracker = m.failTracker := by
  unfold startPubkeyChallenge at h
  split at h
  · cases h
  · split at h
    · cases h
    · cases h
      exact ⟨⟨rfl, rfl, rfl, rfl⟩, rfl⟩

theorem verifyPubkeyResponse_agrees (keyId signature : Text) :
    m.Agrees (m.verifyPubkeyResponse crypto username keyId signature).2 ∧
      (m.verifyPubkeyResponse crypto username keyId signature).2.failTracker = m.failTracker := by
  unfold verifyPubkeyResponse
  split
  · exact ⟨.refl m, rfl⟩
  · dsimp only
    split
    · exact ⟨⟨rfl, rfl, rfl, rfl⟩, rfl⟩
    · split
      · exact ⟨⟨rfl, rfl, rfl, rfl⟩, rfl⟩
      · exact ⟨.refl m, rfl⟩

theorem settle_agrees (ok : Bool) :
    m.Agrees (if ok then m.clearAuthFailures username srcIp else m.registerAuthFailure username srcIp) := by
  rw [registerAuthFailure_eq]
  cases ok <;> exact ⟨rfl, rfl, rfl, rfl⟩

theorem verifyPasswordHmac_agrees (hmac : Text) : m.Agrees (m.verifyPasswordHmac crypto username hmac srcIp).2 := by
  have hask := isUserLocked_agrees m username srcIp
  cases hl : (m.isUserLocked username srcIp).1 with
  | true =>
      unfold verifyPasswordHmac
      dsimp only
      rw [if_pos hl]
      exact hask
  | false => exact (hask.trans (settle_agrees _)).trans (verifyPasswordHmac_settles crypto hmac hl).1

end AuthManager

namespace Listener

variable {s : Listener ν κ}

@[simp] theorem conns_setConn (c : Nat) (conn : Conn ν κ) : (s.setConn c conn).conns = s.conns.set c conn := rfl

/-- A challenge is sent under the address of the connection. -/
theorem conns_authHmac (s : Listener ν κ) (c : Nat) (address username : Text) (nonce : ν) :
    ∃ conn, (s.authHmac c address username nonce).conns = s.conns.set c conn ∧
      (∀ a, conn ≠ .opened a) ∧ ∀ u ip sent, conn = .password u ip sent → ip = srcIp address := by
  unfold authHmac
  dsimp only
  split
  · exact ⟨_, rfl, by simp, by simp⟩
  · split
    · exact ⟨_, rfl, by simp, by simp⟩
    · split
      · exact ⟨_, rfl, by simp, by simp⟩
      · refine ⟨_, rfl, by simp, ?_⟩
        rintro u ip sent ⟨⟩
        rfl

theorem conns_authPubkey (s : Listener ν κ) (c : Nat) (username : Text) (keyId : Option Text) (nonce : ν) :
    ∃ conn, (s.authPubkey crypto c username keyId nonce).conns = s.conns.set c conn ∧
      (∀ a, conn ≠ .opened a) ∧ ∀ u ip sent, conn ≠ .password u ip sent := by
  unfold authPubkey
  split
  · exact ⟨_, rfl, by simp, by simp⟩
  · split
    · exact ⟨_, rfl, by simp, by simp⟩
    · exact ⟨_, rfl, by simp, by simp⟩

theorem conns_finish {σ : Type} (s : Listener ν κ) (c : Nat) (username : Text) (ok : Bool) (consumed : Option (Challenge ν σ)) :
    (s.finish c username ok consumed).conns = s.conns.set c (.finished (if ok then some username else none)) := by
  cases ok <;> rfl

/-- What a login line makes of the manager: the user's lock is asked, and a challenge is kept. -/
theorem manager_authHmac (s : Listener ν κ) (c : Nat) (address username : Text) (nonce : ν) :
    (s.manager.isUserLocked username (srcIp address)).2.Agrees (s.authHmac c address username nonce).manager ∧
      (s.authHmac c address username nonce).manager.failTracker =
        (s.manager.isUserLocked username (srcIp address)).2.failTracker := by
  unfold authHmac
  dsimp only
  split
  · exact ⟨.refl _, rfl⟩
  · split
    · exact ⟨.refl _, rfl⟩
    · have hstart := startPasswordHmacChallenge_agrees ‹_›
      split
      · exact ⟨.refl _, rfl⟩
      · exact hstart

theorem manager_authPubkey (s : Listener ν κ) (c : Nat) (username : Text) (keyId : Option Text) (nonce : ν) :
    s.manager.Agrees (s.authPubkey crypto c username keyId nonce).manager ∧
      (s.authPubkey crypto c username keyId nonce).manager.failTracker = s.manager.failTracker := by
  unfold authPubkey
  split
  · exact ⟨.refl _, rfl⟩
  · have hstart := startPubkeyChallenge_agrees ‹_›
    split
    · exact ⟨.refl _, rfl⟩
    · exact hstart

theorem manager_answerPubkey (s : Listener ν κ) (c : Nat) (username line : Text) :
    s.manager.Agrees (s.answerPubkey crypto c username line).manager ∧
      (s.answerPubkey crypto c username line).manager.failTracker = s.manager.failTracker := by
  unfold answerPubkey
  split
  · exact ⟨.refl _, rfl⟩
  · rw [manager_finish]
    exact verifyPubkeyResponse_agrees _ _

end Listener

/-! ## Steps -/

namespace Attempts

variable {s s' : Attempts ν κ} {a : Act ν}

/-- What holds along runs whose connections are told apart by how their addresses begin. -/
structure Inv (s : Attempts ν κ) : Prop where
  told : ∀ a a', s.Known a → s.Known a' → failKey [] (Listener.srcIp a) = failKey [] (Listener.srcIp a') → a = a'
  fresh : ∀ c, s.listener.conns.get? c = none → s.addresses.get? c = none
  opened : ∀ c a, s.listener.conns.get? c = some (.opened a) → s.addresses.get? c = some a
  waits : ∀ c u ip sent, s.listener.conns.get? c = some (.password u ip sent) →
    ∃ a, s.addresses.get? c = some a ∧ ip = Listener.srcIp a
  surfaces : ∀ t ∈ s.tries, t.surface = .client
  known : ∀ t ∈ s.tries, s.Known t.pair.2
  tracked : s.manager.Tracked (s.tries.map keyed)

/-- A step at one connection that makes no try. -/
theorem Inv.untried {l : Listener ν κ} {c : Nat} {conn : Conn ν κ} (h : s.Inv) (hconns : l.conns = s.listener.conns.set c conn)
    (hopened : ∀ a, conn = .opened a → s.addresses.get? c = some a)
    (hwaits : ∀ u ip sent, conn = .password u ip sent → ∃ a, s.addresses.get? c = some a ∧ ip = Listener.srcIp a)
    (ht : l.manager.Tracked (s.tries.map keyed)) : ({ s with listener := l } : Attempts ν κ).Inv where
  told := h.told
  fresh c' hc' := by
    dsimp only at hc'
    rw [hconns, Dict.get?_set] at hc'
    split at hc'
    · cases hc'
    · exact h.fresh c' hc'
  opened c' a hc' := by
    dsimp only at hc'
    rw [hconns, Dict.get?_set] at hc'
    split at hc'
    · subst_vars
      exact hopened a (Option.some.inj hc')
    · exact h.opened c' a hc'
  waits c' u ip sent hc' := by
    dsimp only at hc'
    rw [hconns, Dict.get?_set] at hc'
    split at hc'
    · subst_vars
      exact hwaits u ip sent (Option.some.inj hc')
    · exact h.waits c' u ip sent hc'
  surfaces := h.surfaces
  known := h.known
  tracked := ht

theorem Inv.connect {c : Nat} {address : Text} (h : s.Inv) (hnew : s.listener.conns.get? c = none)
    (htold : s.Told (.connect c address)) :
    ({ s with listener := s.listener.setConn c (.opened address), addresses := s.addresses.set c address } :
      Attempts ν κ).Inv := by
  have hknown (a : Text) (hk : ∃ c', (s.addresses.set c address).get? c' = some a) : s.Known a ∨ a = address := by
    obtain ⟨c', hc'⟩ := hk
    rw [Dict.get?_set] at hc'
    split at hc'
    · exact .inr (Option.some.inj hc').symm
    · exact .inl ⟨c', hc'⟩
  have hmono (a : Text) (hk : s.Known a) : ∃ c', (s.addresses.set c address).get? c' = some a := by
    obtain ⟨c', hc'⟩ := hk
    refine ⟨c', ?_⟩
    rw [Dict.get?_set_ne]
    · exact hc'
    · rintro rfl
      rw [h.fresh _ hnew] at hc'
      cases hc'
  have hbegin (a : Text) (hk : s.Known a) (heq : failKey [] (Listener.srcIp a) = failKey [] (Listener.srcIp address)) :
      a = address := by
    obtain ⟨c', hc'⟩ := hk
    exact htold (c', a) (Dict.mem_entries.mpr hc') heq
  refine ⟨fun a a' ha ha' heq => ?_, fun c' hc' => ?_, fun c' a hc' => ?_, fun c' u ip sent hc' => ?_, h.surfaces,
    fun t ht => hmono _ (h.known t ht), h.tracked⟩
  · rcases hknown a ha with hk | rfl <;> rcases hknown a' ha' with hk' | rfl
    · exact h.told a a' hk hk' heq
    · exact hbegin a hk heq
    · exact (hbegin a' hk' heq.symm).symm
    · rfl
  · simp only [Listener.conns_setConn, Dict.get?_set] at hc' ⊢
    split at hc'
    · cases hc'
    · rename_i hne
      rw [if_neg hne]
      exact h.fresh c' hc'
  · simp only [Listener.conns_setConn, Dict.get?_set] at hc' ⊢
    split at hc'
    · cases hc'
      rw [if_pos ‹_›]
    · rename_i hne
      rw [if_neg hne]
      exact h.opened c' a hc'
  · simp only [Listener.conns_setConn, Dict.get?_set] at hc' ⊢
    split at hc'
    · cases hc'
    · rename_i hne
      rw [if_neg hne]
      exact h.waits c' u ip sent hc'

/-- A connection that ends without a try. -/
theorem Inv.finished {l : Listener ν κ} {c : Nat} {o : Option Text} (h : s.Inv)
    (hconns : l.conns = s.listener.conns.set c (.finished o)) (ht : l.manager.Tracked (s.tries.map keyed)) :
    ({ s with listener := l } : Attempts ν κ).Inv :=
  h.untried hconns (by simp) (by simp) ht

/-- An answer that is judged. -/
theorem Inv.judged {c : Nat} {username hmac address : Text} {l : Listener ν κ} {o : Option Text} (h : s.Inv)
    (ha : s.addresses.get? c = some address) (hconns : l.conns = s.listener.conns.set c (.finished o))
    (hm : l.manager = (s.manager.verifyPasswordHmac crypto username hmac (Listener.srcIp address)).2) :
    ({ s with
      listener := l
      tries := if (s.manager.isUserLocked username (Listener.srcIp address)).1 then s.tries
        else ⟨.client, (username, address), s.manager.time, some false, false,
          (s.manager.verifyPasswordHmac crypto username hmac (Listener.srcIp address)).1⟩ :: s.tries } : Attempts ν κ).Inv := by
  have hask := h.tracked.ask username (Listener.srcIp address)
  cases hl : (s.manager.isUserLocked username (Listener.srcIp address)).1 with
  | true =>
      rw [if_pos rfl]
      refine h.finished hconns ?_
      rw [hm]
      unfold AuthManager.verifyPasswordHmac
      dsimp only
      rw [if_pos hl]
      exact hask
  | false =>
      rw [if_neg Bool.false_ne_true]
      obtain ⟨hagrees, hf⟩ := AuthManager.verifyPasswordHmac_settles crypto hmac hl
      have htime := (AuthManager.isUserLocked_agrees s.manager username (Listener.srcIp address)).time
      have hne : Surface.client ≠ .basic := by decide
      have hsettle := (hask.settle (t := keyed ⟨.client, (username, address), s.manager.time, some false, false,
        (s.manager.verifyPasswordHmac crypto username hmac (Listener.srcIp address)).1⟩) hne htime.symm rfl
        (fun _ => LoginServer.isUserLocked_false hl)).agrees hagrees hf
      rw [← hm] at hsettle
      have hdone := h.finished (l := { l with manager := s.manager }) hconns h.tracked
      refine ⟨hdone.told, hdone.fresh, hdone.opened, hdone.waits, ?_, ?_, hsettle⟩
      · exact List.forall_mem_cons.mpr ⟨rfl, h.surfaces⟩
      · exact List.forall_mem_cons.mpr ⟨⟨c, ha⟩, h.known⟩

theorem inv_start (time : Nat) (users : List (Text × Option Text)) (publicKeys : List KeyRecord)
    (window threshold base : Option Nat) : (start time users publicKeys window threshold base : Attempts ν κ).Inv where
  told a a' ha := by
    obtain ⟨c, hc⟩ := ha
    cases hc
  fresh _ _ := rfl
  opened _ _ hc := by cases hc
  waits _ _ _ _ hc := by cases hc
  surfaces := by simp [start]
  known := by simp [start]
  tracked := ⟨fun _ => .untried, fun _ => by constructor <;> simp [start, Login.counted]⟩

variable [DecidableEq ν]

theorem inv_step (h : s.Inv) (htold : s.Told a) (hstep : s.step crypto a = some s') : s'.Inv := by
  cases a with
  | connect c address =>
      obtain ⟨l, hl, rfl⟩ := Option.map_eq_some_iff.mp hstep
      simp only [Listener.step] at hl
      split at hl
      · cases hl
        exact h.connect ‹_› htold
      · cases hl
  | leave c =>
      obtain ⟨l, hl, rfl⟩ := Option.map_eq_some_iff.mp hstep
      simp only [Listener.step] at hl
      split at hl
      · cases hl
      · cases hl
      · cases hl
        exact h.finished rfl h.tracked
  | wait time =>
      cases hstep
      exact ⟨h.told, h.fresh, h.opened, h.waits, h.surfaces, h.known, h.tracked.wait time⟩
  | login c line nonce =>
      obtain ⟨l, hl, rfl⟩ := Option.map_eq_some_iff.mp hstep
      simp only [Listener.step] at hl
      split at hl
      · rename_i address hc
        split at hl
        · cases hl
        · let drawn : Listener ν κ := { s.listener with drawn := nonce :: s.listener.drawn }
          have ht : drawn.manager.Tracked (s.tries.map keyed) := h.tracked
          split at hl
          · rename_i username keyId _
            obtain ⟨conn, hconns, ho, hw⟩ := Listener.conns_authPubkey drawn c username keyId nonce
            cases hl
            exact h.untried hconns (fun a heq => absurd heq (ho a)) (fun u ip sent heq => absurd heq (hw u ip sent))
              (Listener.tracked_authPubkey ht _ _ _ _)
          · rename_i username _
            obtain ⟨conn, hconns, ho, hw⟩ := Listener.conns_authHmac drawn c address username nonce
            cases hl
            exact h.untried hconns (fun a heq => absurd heq (ho a))
              (fun u ip sent heq => ⟨address, h.opened c address hc, hw u ip sent heq⟩)
              (Listener.tracked_authHmac ht _ _ _ _)
          · cases hl
            exact h.finished rfl h.tracked
      · cases hl
  | answer c line =>
      obtain ⟨l, hl, rfl⟩ := Option.map_eq_some_iff.mp hstep
      simp only [Listener.step] at hl
      split at hl
      · rename_i username keyId sent hc
        cases hl
        have hnote : s.noteAnswer crypto c line = s.tries := by simp [noteAnswer, hc]
        rw [hnote]
        unfold Listener.answerPubkey
        split
        · exact h.finished rfl h.tracked
        · refine h.finished (Listener.conns_finish _ _ _ _ _) ?_
          rw [Listener.manager_finish]
          exact h.tracked.verifyPubkeyResponse _ _
      · rename_i username srcIp sent hc
        cases hl
        obtain ⟨address, ha, rfl⟩ := h.waits c username srcIp sent hc
        unfold Listener.answerHmac
        split
        · rename_i hline
          have hnote : s.noteAnswer crypto c line = s.tries := by simp [noteAnswer, hc, ha, hline]
          rw [hnote]
          exact h.finished rfl h.tracked
        · rename_i hmac hline
          have hnote : s.noteAnswer crypto c line =
              if (s.manager.isUserLocked username (Listener.srcIp address)).1 then s.tries
              else ⟨.client, (username, address), s.manager.time, some false, false,
                (s.manager.verifyPasswordHmac crypto username hmac (Listener.srcIp address)).1⟩ :: s.tries := by
            simp [noteAnswer, hc, ha, hline]
          rw [hnote]
          exact h.judged ha (Listener.conns_finish _ _ _ _ _) (Listener.manager_finish _ _ _ _ _)
      · cases hl
  | _ => cases hstep

/-! ## What the invariant gives -/

/-- The key of a user at a known address stands for nobody else. -/
theorem Inv.key_iff (h : s.Inv) {username username' address address' : Text} (ha : s.Known address) (ha' : s.Known address') :
    failKey username (Listener.srcIp address) = failKey username' (Listener.srcIp address') ↔
      (username, address) = (username', address') := by
  constructor
  · intro heq
    obtain ⟨hu, hip⟩ := failKey_inj.mp heq
    rw [hu, h.told address address' ha ha' hip]
  · intro heq
    cases heq
    rfl

theorem Inv.counted (h : s.Inv) {address : Text} (username : Text) (ha : s.Known address) :
    Login.counted Surface.asks s.manager.maxFailWindow (failKey username (Listener.srcIp address)) (s.tries.map keyed) =
      (s.counted username address).map keyed :=
  counted_keyed h.surfaces fun t ht => h.key_iff (h.known t ht) ha

theorem Inv.locked (h : s.Inv) (hth : 2 ≤ s.manager.failureThreshold) {username address : Text} (ha : s.Known address) {t : Try}
    (ht : t ∈ (s.counted username address).head?) (hok : t.ok = false)
    (hn : s.manager.failureThreshold ≤ (s.counted username address).length)
    (htime : s.manager.time < t.time + s.manager.lockSeconds (s.counted username address).length * second) :
    s.Locked username address := by
  have hrec := h.tracked.record (failKey username (Listener.srcIp address))
  rw [h.counted username ha] at hrec
  cases hw : s.counted username address with
  | nil =>
      rw [hw] at ht
      cases ht
  | cons p ps =>
      rw [hw] at ht hn htime hrec
      cases ht
      rw [List.map_cons] at hrec
      have hlen : (keyed t :: ps.map keyed).length = (t :: ps).length := by simp
      refine hrec.locked hok ?_ ?_
      · rw [hlen]
        omega
      · rw [hlen]
        exact htime

/-- A locked user is refused. -/
theorem Inv.refused (h : s.Inv) {c : Nat} {line username address : Text} (hw : s.waiting c = some (username, address))
    (hlocked : s.Locked username address) (hstep : s.step crypto (.answer c line) = some s') : ¬ s'.listener.LoggedIn c := by
  obtain ⟨l, hl, rfl⟩ := Option.map_eq_some_iff.mp hstep
  unfold waiting at hw
  split at hw
  · rename_i u ip sent a hc ha
    cases hw
    obtain ⟨a', ha', rfl⟩ := h.waits c username ip sent hc
    cases ha.symm.trans ha'
    simp only [Listener.step, hc] at hl
    cases hl
    rintro ⟨name, hname⟩
    dsimp only at hname
    unfold Listener.answerHmac at hname
    split at hname
    · simp at hname
    · rw [Listener.conns_finish, Dict.get?_set_self] at hname
      rename_i hmac _
      rw [(AuthManager.verifyPasswordHmac_locked crypto hmac hlocked).1] at hname
      cases hname
  · cases hw

theorem Inv.apart (h : s.Inv) (ha : a.conn.isSome) (hstep : s.step crypto a = some s') {username address : Text}
    (hk : s.Known address) (hne : s.subject a ≠ some (username, address)) :
    s'.Locked username address ↔ s.Locked username address := by
  unfold Locked
  cases a with
  | connect c address =>
      obtain ⟨l, hl, rfl⟩ := Option.map_eq_some_iff.mp hstep
      simp only [Listener.step] at hl
      split at hl <;> cases hl
      rfl
  | leave c =>
      obtain ⟨l, hl, rfl⟩ := Option.map_eq_some_iff.mp hstep
      simp only [Listener.step] at hl
      split at hl <;> cases hl
      rfl
  | login c line nonce =>
      obtain ⟨l, hl, rfl⟩ := Option.map_eq_some_iff.mp hstep
      simp only [Listener.step] at hl
      split at hl
      · split at hl
        · cases hl
        · split at hl <;> cases hl
          · obtain ⟨hagrees, hf⟩ := Listener.manager_authPubkey _ _ _ _ _
            exact Locked.agrees hagrees hf
          · obtain ⟨hagrees, hf⟩ := Listener.manager_authHmac _ _ _ _ _
            exact (Locked.agrees hagrees hf).trans locked_ask
          · rfl
      · cases hl
  | answer c line =>
      obtain ⟨l, hl, rfl⟩ := Option.map_eq_some_iff.mp hstep
      simp only [Listener.step] at hl
      split at hl
      · cases hl
        obtain ⟨hagrees, hf⟩ := Listener.manager_answerPubkey _ _ _ _
        exact Locked.agrees hagrees hf
      · rename_i u ip sent hc
        cases hl
        obtain ⟨a', ha', rfl⟩ := h.waits c u ip sent hc
        have hpair : (u, a') ≠ (username, address) := by
          intro heq
          refine hne ?_
          simp only [subject, waiting, hc, ha', heq]
        have hkey : failKey username (Listener.srcIp address) ≠ failKey u (Listener.srcIp a') :=
          fun heq => hpair ((h.key_iff hk ⟨c, ha'⟩).mp heq).symm
        dsimp only [manager]
        unfold Listener.answerHmac
        split
        · rfl
        · rw [Listener.manager_finish]
          exact locked_verify _ hkey
      · cases hl
  | _ => cases ha

theorem Inv.locksOut (h : s.Inv) (hth : 2 ≤ s.manager.failureThreshold) : s.LocksOut crypto where
  locked _ _ ha _ ht hok hn htime := h.locked hth ha ht hok hn htime
  refused _ _ _ _ _ hw hlocked hstep := h.refused hw hlocked hstep
  apart _ _ ha hstep _ _ hk hne := h.apart ha hstep hk hne

/-- No step changes the limits. -/
theorem step_threshold (hstep : s.step crypto a = some s') : s'.manager.failureThreshold = s.manager.failureThreshold := by
  cases a with
  | connect c address =>
      obtain ⟨l, hl, rfl⟩ := Option.map_eq_some_iff.mp hstep
      simp only [Listener.step] at hl
      split at hl <;> cases hl
      rfl
  | leave c =>
      obtain ⟨l, hl, rfl⟩ := Option.map_eq_some_iff.mp hstep
      simp only [Listener.step] at hl
      split at hl <;> cases hl
      rfl
  | wait time =>
      cases hstep
      rfl
  | login c line nonce =>
      obtain ⟨l, hl, rfl⟩ := Option.map_eq_some_iff.mp hstep
      simp only [Listener.step] at hl
      split at hl
      · split at hl
        · cases hl
        · split at hl <;> cases hl
          · exact (Listener.manager_authPubkey _ _ _ _ _).1.failureThreshold
          · exact ((isUserLocked_agrees _ _ _).trans (Listener.manager_authHmac _ _ _ _ _).1).failureThreshold
          · rfl
      · cases hl
  | answer c line =>
      obtain ⟨l, hl, rfl⟩ := Option.map_eq_some_iff.mp hstep
      simp only [Listener.step] at hl
      split at hl
      · cases hl
        exact (Listener.manager_answerPubkey _ _ _ _).1.failureThreshold
      · cases hl
        dsimp only [manager]
        unfold Listener.answerHmac
        split
        · rfl
        · rw [Listener.manager_finish]
          exact (verifyPasswordHmac_agrees _).failureThreshold
      · cases hl
  | _ => cases hstep

end Attempts

end OpenMux.Login
