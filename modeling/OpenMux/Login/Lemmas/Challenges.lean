import OpenMux.Login.Connections

/-!
# Challenges that are kept and challenges that are waited at

One table of challenges and the connections that wait at challenges of its kind. As long as no challenge is put over one that
can still be answered, every such challenge is in the table.
-/

namespace OpenMux.Login

variable {K ν σ : Type} {time : Nat} {held : K → Option (Challenge ν σ)} {waits waits' : Nat → Option (K × Sent ν σ)}
  {c : Nat} {k k' : K} {sent : Sent ν σ} {e : Challenge ν σ}

/-- The table `held` and the connections that wait. -/
structure Tracks (time : Nat) (held : K → Option (Challenge ν σ)) (waits : Nat → Option (K × Sent ν σ)) : Prop where
  stamped : ∀ {c k sent}, waits c = some (k, sent) → sent.challenge.expiresAt = sent.issuedAt + 30 * second
  live : ∀ {c k sent}, waits c = some (k, sent) → sent.Live time → held k = some sent.challenge
  own : ∀ {c k sent k' e}, waits c = some (k, sent) → held k' = some e → e.nonceRaw = sent.challenge.nonceRaw →
    k' = k ∧ e = sent.challenge ∧ sent.reloaded = false
  distinct : ∀ {c c' k k' sent sent'}, waits c = some (k, sent) → waits c' = some (k', sent') →
    sent.challenge.nonceRaw = sent'.challenge.nonceRaw → c = c'

namespace Tracks

/-- Connections stop waiting. -/
theorem drop (h : Tracks time held waits) (hw : ∀ c x, waits' c = some x → waits c = some x) : Tracks time held waits' where
  stamped hc := h.stamped (hw _ _ hc)
  live hc := h.live (hw _ _ hc)
  own hc := h.own (hw _ _ hc)
  distinct hc hc' := h.distinct (hw _ _ hc) (hw _ _ hc')

theorem wait {time' : Nat} (h : Tracks time held waits) (hle : time ≤ time') : Tracks time' held waits where
  stamped := h.stamped
  live hc hl := h.live hc ⟨Nat.le_trans hle hl.1, hl.2⟩
  own := h.own
  distinct := h.distinct

/-- A challenge is taken away that nobody waits at, or not in time. -/
theorem pop [DecidableEq K] (h : Tracks time held waits) (hno : ∀ c sent, waits c = some (k, sent) → ¬ sent.Live time) :
    Tracks time (fun k' => if k' = k then none else held k') waits where
  stamped := h.stamped
  live {c k' sent} hc hl := by
    split
    · rename_i hk
      exact absurd hl (hno c sent (hk ▸ hc))
    · exact h.live hc hl
  own hc he hn := by
    split at he
    · cases he
    · exact h.own hc he hn
  distinct := h.distinct

/-- A configuration is loaded. -/
theorem reload (h : Tracks time held waits) :
    Tracks time (fun _ => none) fun c => (waits c).map fun x => (x.1, { x.2 with reloaded := true }) where
  stamped hc := by
    obtain ⟨⟨k, sent⟩, hw, heq⟩ := Option.map_eq_some_iff.mp hc
    cases heq
    have hstamp : sent.challenge.expiresAt = sent.issuedAt + 30 * second := h.stamped hw
    exact hstamp
  live hc hl := by
    obtain ⟨⟨k, sent⟩, hw, heq⟩ := Option.map_eq_some_iff.mp hc
    cases heq
    cases hl.2
  own _ he := by cases he
  distinct hc hc' hn := by
    obtain ⟨⟨k, sent⟩, hw, heq⟩ := Option.map_eq_some_iff.mp hc
    obtain ⟨⟨k', sent'⟩, hw', heq'⟩ := Option.map_eq_some_iff.mp hc'
    cases heq
    cases heq'
    exact h.distinct hw hw' hn

/-- A challenge with a new nonce is sent where no other can still be answered. -/
theorem issue [DecidableEq K] (h : Tracks time held waits) (hexpires : e.expiresAt = time + 30 * second)
    (hwaits : ∀ c k sent, waits c = some (k, sent) → sent.challenge.nonceRaw ≠ e.nonceRaw)
    (hheld : ∀ k e', held k = some e' → e'.nonceRaw ≠ e.nonceRaw)
    (hno : ∀ c' sent, c' ≠ c → waits c' = some (k, sent) → ¬ sent.Live time)
    (hc : waits' c = some (k, { challenge := e, issuedAt := time }))
    (hother : ∀ c', c' ≠ c → waits' c' = waits c') : Tracks time (fun k' => if k' = k then some e else held k') waits' := by
  have hcases {c' k' sent} (hw : waits' c' = some (k', sent)) :
      c' = c ∧ k' = k ∧ sent = { challenge := e, issuedAt := time } ∨ c' ≠ c ∧ waits c' = some (k', sent) := by
    by_cases hcc : c' = c
    · subst hcc
      rw [hc] at hw
      cases hw
      exact .inl ⟨rfl, rfl, rfl⟩
    · exact .inr ⟨hcc, hother c' hcc ▸ hw⟩
  constructor
  · intro c' k' sent hw
    rcases hcases hw with ⟨-, -, rfl⟩ | ⟨-, hw⟩
    · exact hexpires
    · exact h.stamped hw
  · intro c' k' sent hw hl
    rcases hcases hw with ⟨-, rfl, rfl⟩ | ⟨hcc, hw⟩
    · simp
    · by_cases hk : k' = k
      · exact absurd hl (hno c' sent hcc (hk ▸ hw))
      · simpa [hk] using h.live hw hl
  · intro c' k' sent k'' e' hw he hn
    rcases hcases hw with ⟨-, rfl, rfl⟩ | ⟨-, hw⟩
    · split at he
      · rename_i hk
        cases he
        exact ⟨hk, rfl, rfl⟩
      · exact absurd hn (hheld k'' e' he)
    · split at he
      · cases he
        exact absurd hn.symm (hwaits c' k' sent hw)
      · exact h.own hw he hn
  · intro c' c'' k' k'' sent sent' hw hw' hn
    rcases hcases hw with ⟨rfl, -, rfl⟩ | ⟨-, hw⟩ <;> rcases hcases hw' with ⟨rfl, -, rfl⟩ | ⟨-, hw'⟩
    · rfl
    · exact absurd hn.symm (hwaits c'' k'' sent' hw')
    · exact absurd hn (hwaits c' k' sent hw)
    · exact h.distinct hw hw' hn

/-- What the table says of an answer is what was sent on its connection, unless the answer passes another challenge. -/
theorem answer (h : Tracks time held waits) (check : σ → ν → Bool) (k' : K) (hc : waits c = some (k, sent))
    (hapart : ∀ e, held k' = some e → time ≤ e.expiresAt → e.nonceRaw ≠ sent.challenge.nonceRaw →
      check e.secret e.nonceRaw = false) :
    (∃ e, held k' = some e ∧ time ≤ e.expiresAt ∧ check e.secret e.nonceRaw = true) ↔
      k' = k ∧ check sent.challenge.secret sent.challenge.nonceRaw = true ∧ time ≤ sent.issuedAt + 30 * second ∧
        sent.reloaded = false := by
  constructor
  · rintro ⟨e, he, htime, hcheck⟩
    by_cases hn : e.nonceRaw = sent.challenge.nonceRaw
    · obtain ⟨hk, rfl, hreload⟩ := h.own hc he hn
      exact ⟨hk, hcheck, h.stamped hc ▸ htime, hreload⟩
    · rw [hapart e he htime hn] at hcheck
      cases hcheck
  · rintro ⟨rfl, hcheck, htime, hreload⟩
    have htime : time ≤ sent.challenge.expiresAt := h.stamped hc ▸ htime
    exact ⟨_, h.live hc ⟨htime, hreload⟩, htime, hcheck⟩

/-- A challenge that is not waited at in time, once a connection has stopped waiting. -/
theorem not_live (h : Tracks time held waits) (hc : waits c = some (k', sent)) {c' : Nat} {sent' : Sent ν σ}
    (hw : waits c' = some (k, sent')) (hne : c' ≠ c)
    (hapart : ∀ e, held k = some e → time ≤ e.expiresAt → e.nonceRaw ≠ sent.challenge.nonceRaw →
      e.nonceRaw ≠ sent'.challenge.nonceRaw) : ¬ sent'.Live time := by
  intro hl
  refine hapart _ (h.live hw hl) hl.1 (fun hn => ?_) rfl
  exact hne (h.distinct hw hc hn)

end Tracks

end OpenMux.Login
