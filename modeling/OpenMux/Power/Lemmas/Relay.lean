import OpenMux.Power.Relay

/-!
# What is pending and what is in flight

Where no relays overlap, what is pending under a slot is the only relay on it, and every frame and every reply in flight on
the slot is that relay's, if there is one.
-/

namespace OpenMux.Power

open Py Federation Origin

variable {keyOf : Text → Text} {n n' : Node} {i j : Nat} {c d : Call} {slot slot' : Slot} {o : Outcome}

/-- The relay under way on the slot is the call. -/
def Node.Only (n : Node) (slot : Slot) (i : Nat) : Prop :=
  ∀ j c, n.calls[j]? = some c → c.slot = some slot → c.Active → j = i

/-- The call has an answer only from what its own frame was answered. -/
def Node.Answered (n : Node) (i : Nat) (c : Call) : Prop :=
  ∀ a, c.fut = .resolved a ∨ c.phase = .returned (.answered a) → ∃ body, (i, body) ∈ n.answers ∧ a = body.answer

structure Node.Sound (keyOf : Text → Text) (n : Node) : Prop where
  held : ∀ slot i, n.pending.get? slot = some i →
    (∃ c, n.calls[i]? = some c ∧ c.slot = some slot ∧ c.Active) ∧ n.Only slot i
  asked : ∀ q ∈ n.requests, n.Only (q.slot keyOf) q.call
  replied : ∀ r ∈ n.replies, n.Only (r.slot keyOf) r.call ∧ (r.call, r.body) ∈ n.answers
  answered : ∀ i c, n.calls[i]? = some c → n.Answered i c

/-! ## A change of one call -/

theorem get?_setCall (h : n.calls[i]? = some c) (k : Nat) :
    (n.setCall i d).calls[k]? = if k = i then some d else n.calls[k]? := by
  obtain ⟨hi, -⟩ := List.getElem?_eq_some_iff.mp h
  rw [Node.setCall, List.getElem?_set]
  by_cases hk : i = k
  · simp [hk, hk ▸ hi]
  · simp [hk, Ne.symm hk]

/-- A call that keeps its slot and does not come back to life leaves the others the only ones that they were. -/
theorem Node.Only.setCall (h : n.Only slot j) (hi : n.calls[i]? = some c) (hslot : d.slot = c.slot)
    (hactive : d.Active → c.Active) : (n.setCall i d).Only slot j := by
  intro k e hk hs ha
  rw [get?_setCall hi] at hk
  split at hk
  · rename_i hki
    cases hk
    exact h k c (hki ▸ hi) (hslot ▸ hs) (hactive ha)
  · exact h k e hk hs ha

theorem Node.Sound.setCall (h : n.Sound keyOf) (hi : n.calls[i]? = some c) (hslot : d.slot = c.slot)
    (hactive : d.Active ↔ c.Active) (hanswered : n.Answered i d) : (n.setCall i d).Sound keyOf where
  held slot j hj := by
    obtain ⟨⟨e, he, hs, ha⟩, honly⟩ := h.held slot j hj
    refine ⟨?_, honly.setCall hi hslot hactive.mp⟩
    by_cases hji : j = i
    · subst hji
      rw [hi] at he
      cases he
      exact ⟨d, by simp [get?_setCall hi], hslot.trans hs, hactive.mpr ha⟩
    · exact ⟨e, by simp [get?_setCall hi, hji, he], hs, ha⟩
  asked q hq := (h.asked q hq).setCall hi hslot hactive.mp
  replied r hr := ⟨(h.replied r hr).1.setCall hi hslot hactive.mp, (h.replied r hr).2⟩
  answered k e hk := by
    rw [get?_setCall hi] at hk
    split at hk
    · rename_i hki
      cases hk
      exact hki ▸ hanswered
    · exact h.answered k e hk

/-- An entry less is one promise less. -/
theorem Node.Sound.pop (h : n.Sound keyOf) (slot : Slot) :
    ({ n with pending := n.pending.pop slot } : Node).Sound keyOf where
  held slot' j hj := h.held slot' j (Dict.get?_of_get?_pop hj)
  asked := h.asked
  replied := h.replied
  answered := h.answered

theorem not_active (hc : c.phase = .returned o) : ¬ c.Active := fun h => h o hc

/-! ## A return -/

theorem calls_return_ : (n.return_ i c o).calls = (n.setCall i { c with phase := .returned o }).calls := by
  unfold Node.return_
  split <;> rfl

theorem requests_return_ : (n.return_ i c o).requests = n.requests := by
  unfold Node.return_
  split <;> rfl

theorem replies_return_ : (n.return_ i c o).replies = n.replies := by
  unfold Node.return_
  split <;> rfl

theorem answers_return_ : (n.return_ i c o).answers = n.answers := by
  unfold Node.return_
  split <;> rfl

theorem pending_return_ : (n.return_ i c o).pending.get? slot = some j ↔
    c.slot ≠ some slot ∧ n.pending.get? slot = some j := by
  unfold Node.return_
  split
  · rename_i hs
    simp [hs, Node.setCall]
  · rename_i s hs
    simp only [Dict.get?_pop, hs, ne_eq, Option.some.injEq]
    by_cases he : slot = s
    · simp [he]
    · simp [he, Ne.symm he]

theorem Node.Only.return_ (h : n.Only slot j) (hi : n.calls[i]? = some c) : (n.return_ i c o).Only slot j := by
  unfold Node.Only
  rw [calls_return_]
  exact h.setCall hi rfl fun ha => absurd ha (not_active rfl)

/-- A return takes out its own entry only, if no other relay is on the slot. -/
theorem Node.Sound.return_ (h : n.Sound keyOf) (hi : n.calls[i]? = some c)
    (hanswered : n.Answered i { c with phase := .returned o }) : (n.return_ i c o).Sound keyOf where
  held slot j hj := by
    obtain ⟨hne, hj⟩ := pending_return_.mp hj
    obtain ⟨⟨e, he, hs, ha⟩, honly⟩ := h.held slot j hj
    have hji : j ≠ i := by
      rintro rfl
      rw [hi] at he
      cases he
      exact hne hs
    refine ⟨⟨e, ?_, hs, ha⟩, honly.return_ hi⟩
    rw [calls_return_, get?_setCall hi, if_neg hji, he]
  asked q hq := by
    rw [requests_return_] at hq
    exact (h.asked q hq).return_ hi
  replied r hr := by
    rw [replies_return_] at hr
    rw [answers_return_]
    exact ⟨(h.replied r hr).1.return_ hi, (h.replied r hr).2⟩
  answered k e hk := by
    rw [calls_return_, get?_setCall hi] at hk
    unfold Node.Answered
    rw [answers_return_]
    split at hk
    · rename_i hki
      cases hk
      exact hki ▸ hanswered
    · exact h.answered k e hk

/-! ## The start of a relay -/

theorem get?_append_one {cs : List Call} (k : Nat) :
    (cs ++ [c])[k]? = if k = cs.length then some c else cs[k]? := by
  rcases Nat.lt_trichotomy k cs.length with h | h | h
  · rw [List.getElem?_append_left h, if_neg (by omega)]
  · simp [h]
  · rw [if_neg (by omega), List.getElem?_eq_none (by simp; omega), List.getElem?_eq_none (by omega)]

/-- A new call is the only one on its slot if the slot was quiet, and changes nothing on the others. -/
theorem Node.Only.append (h : n.Only slot j) (hc : c.Active → c.slot ≠ some slot) :
    ({ n with calls := n.calls ++ [c] } : Node).Only slot j := by
  intro k d hk hs ha
  dsimp only at hk
  rw [get?_append_one] at hk
  split at hk
  · cases hk
    exact absurd hs (hc ha)
  · exact h k d hk hs ha

theorem only_ask (hquiet : n.Quiet keyOf slot) : (n.ask slot).Only slot n.calls.length := by
  intro k d hk hs ha
  rw [Node.ask, get?_append_one] at hk
  split at hk
  · rename_i he
    exact he
  · exact absurd ha (hquiet.1 d (List.mem_of_getElem? hk) hs)

theorem Node.Only.ask (h : n.Only slot' j) (hne : slot' ≠ slot) : (n.ask slot).Only slot' j :=
  h.append fun _ hs => hne (Option.some.inj hs).symm

theorem new_ask : (n.ask slot).calls[n.calls.length]? = some ⟨some slot, .waiting, .sending⟩ := by
  simp [Node.ask]

theorem Node.Sound.ask (h : n.Sound keyOf) (hquiet : n.Quiet keyOf slot) : (n.ask slot).Sound keyOf where
  held slot' j hj := by
    simp only [Node.ask, Dict.get?_set] at hj
    split at hj
    · rename_i hs
      cases hj
      subst hs
      exact ⟨⟨_, new_ask, rfl, fun o => by simp⟩, only_ask hquiet⟩
    · rename_i hne
      obtain ⟨⟨c, hc, hs, ha⟩, honly⟩ := h.held slot' j hj
      refine ⟨⟨c, ?_, hs, ha⟩, honly.ask hne⟩
      obtain ⟨hlt, -⟩ := List.getElem?_eq_some_iff.mp hc
      simp only [Node.ask, get?_append_one, if_neg (Nat.ne_of_lt hlt), hc]
  asked q hq := (h.asked q hq).ask (hquiet.2.1 q hq)
  replied r hr := ⟨(h.replied r hr).1.ask (hquiet.2.2 r hr), (h.replied r hr).2⟩
  answered k c hk := by
    simp only [Node.ask, get?_append_one] at hk
    split at hk
    · cases hk
      rintro a (ha | ha) <;> cases ha
    · exact h.answered k c hk

theorem Node.Sound.send (h : n.Sound keyOf) {q : Switch} (hq : n.Only (q.slot keyOf) q.call) :
    ({ n with requests := n.requests ++ [q] } : Node).Sound keyOf where
  held := h.held
  asked q' hq' := by
    rcases List.mem_append.mp hq' with hq' | hq'
    · exact h.asked q' hq'
    · cases List.mem_singleton.mp hq'
      exact hq
  replied := h.replied
  answered := h.answered

theorem Node.Sound.refuse (h : n.Sound keyOf) {r : Refusal} :
    ({ n with calls := n.calls ++ [(⟨none, .waiting, .returned (.refused r)⟩ : Call)] } : Node).Sound keyOf where
  held slot j hj := by
    obtain ⟨⟨c, hc, hs, ha⟩, honly⟩ := h.held slot j hj
    obtain ⟨hlt, -⟩ := List.getElem?_eq_some_iff.mp hc
    refine ⟨⟨c, ?_, hs, ha⟩, honly.append fun _ he => by cases he⟩
    rw [get?_append_one, if_neg (Nat.ne_of_lt hlt), hc]
  asked q hq := (h.asked q hq).append fun _ he => by cases he
  replied r hr := ⟨(h.replied r hr).1.append (fun _ he => by cases he), (h.replied r hr).2⟩
  answered k c hk := by
    dsimp only at hk
    rw [get?_append_one] at hk
    split at hk
    · cases hk
      rintro a (ha | ha) <;> cases ha
    · exact h.answered k c hk

theorem Node.Sound.relay {portName ref : Text} {on : Bool} {claims : List Text} {clientId conn : Option Text}
    (h : n.Sound keyOf) (hclear : n.Clear keyOf (.relay portName ref on claims clientId conn))
    (hstep : n.relayPowerSwitch keyOf portName ref on claims clientId conn = some n') : n'.Sound keyOf := by
  unfold Node.relayPowerSwitch at hstep
  unfold Node.Clear at hclear
  split at hstep
  · cases hstep
    exact h.refuse
  · rename_i slot wireRef hanchor
    dsimp only at hstep hclear
    rw [hanchor, Node.QuietAt] at hclear
    cases conn with
    | none =>
        cases hstep
        refine (h.ask hclear).return_ new_ask ?_
        rintro a (ha | ha) <;> cases ha
    | some conn =>
        dsimp only at hstep
        split at hstep
        · rename_i hkey
          cases hstep
          refine (h.ask hclear).send ?_
          show (n.ask slot).Only (keyOf conn, slot.2) n.calls.length
          rw [hkey]
          exact only_ask hclear
        · cases hstep

/-! ## The other steps -/

theorem Node.Sound.sent {ok : Bool} (h : n.Sound keyOf) (hstep : n.sent i ok = some n') : n'.Sound keyOf := by
  unfold Node.sent at hstep
  split at hstep
  · cases hstep
  · rename_i c hi
    have hc := h.answered i c hi
    split at hstep
    · cases hstep
      exact h.return_ hi fun a ha => hc a (ha.imp_right nofun)
    · rename_i a hfut
      cases hstep
      refine h.return_ hi fun b hb => hc b (.inl ?_)
      rcases hb with hb | hb
      · exact hb
      · cases hb
        exact hfut
    · rename_i hphase _
      cases hstep
      refine h.setCall hi rfl ?_ fun a ha => hc a (ha.imp_right nofun)
      exact iff_of_true (fun o => by simp) fun o => by simp [hphase]
    · cases hstep

theorem Node.Sound.expire (h : n.Sound keyOf) (hstep : n.expire i = some n') : n'.Sound keyOf := by
  unfold Node.expire at hstep
  split at hstep
  · cases hstep
  · rename_i c hi
    split at hstep
    · rename_i hphase
      cases hstep
      refine h.setCall hi rfl ?_ fun a ha => h.answered i c hi a (ha.imp_left nofun)
      exact Iff.rfl
    · cases hstep

theorem Node.Sound.wake (h : n.Sound keyOf) (hstep : n.wake i = some n') : n'.Sound keyOf := by
  unfold Node.wake at hstep
  split at hstep
  · cases hstep
  · rename_i c hi
    have hc := h.answered i c hi
    split at hstep
    · rename_i a _ hfut
      cases hstep
      refine h.return_ hi fun b hb => hc b (.inl ?_)
      rcases hb with hb | hb
      · exact hb
      · cases hb
        exact hfut
    · cases hstep
      exact h.return_ hi fun a ha => hc a (ha.imp_right nofun)
    · cases hstep

theorem Node.Sound.cancel (h : n.Sound keyOf) (hstep : n.cancel i = some n') : n'.Sound keyOf := by
  unfold Node.cancel at hstep
  split at hstep
  · cases hstep
  · rename_i c hi
    split at hstep
    · cases hstep
    · cases hstep
      exact h.return_ hi fun a ha => h.answered i c hi a (ha.imp_right nofun)

theorem Node.Sound.answer {conn : Text} {body : Option ResultBody} (h : n.Sound keyOf)
    (hstep : n.answer conn body = some n') : n'.Sound keyOf := by
  unfold Node.answer at hstep
  split at hstep
  · cases hstep
  · rename_i q hq
    have hmem := List.mem_of_find?_eq_some hq
    have hconn : q.conn = conn := by simpa using List.find?_some hq
    have hrest : ∀ q' ∈ n.requests.eraseP (·.conn = conn), n.Only (q'.slot keyOf) q'.call := fun q' hq' =>
      h.asked q' (List.mem_of_mem_eraseP hq')
    dsimp only at hstep
    split at hstep
    · cases hstep
      exact ⟨h.held, hrest, h.replied, h.answered⟩
    · rename_i body
      cases hstep
      refine ⟨h.held, hrest, fun r hr => ?_, fun k c hk a ha => ?_⟩
      · rcases List.mem_append.mp hr with hr | hr
        · exact ⟨(h.replied r hr).1, List.mem_append_left _ (h.replied r hr).2⟩
        · cases List.mem_singleton.mp hr
          refine ⟨?_, List.mem_append_right _ List.mem_cons_self⟩
          have := h.asked q hmem
          rwa [Switch.slot, hconn] at this
      · obtain ⟨body', hb, he⟩ := h.answered k c hk a ha
        exact ⟨body', List.mem_append_left _ hb, he⟩

/-- The reply is the answer to the call that is pending, for no other call is on the slot. -/
theorem Node.Sound.handle {r : Result} (h : n.Sound keyOf) (honly : n.Only (r.slot keyOf) r.call)
    (hanswer : (r.call, r.body) ∈ n.answers) : (n.handlePowerResultFrame keyOf r).Sound keyOf := by
  unfold Node.handlePowerResultFrame
  split
  · exact h
  · rename_i i hi
    obtain ⟨⟨c, hc, hs, ha⟩, -⟩ := h.held _ i hi
    have hpop := h.pop (keyOf r.conn, r.sid)
    dsimp only
    rw [hc]
    dsimp only
    split
    · refine hpop.setCall (c := c) hc rfl Iff.rfl fun a hf => ?_
      rcases hf with hf | hf
      · cases hf
        exact ⟨r.body, honly i c hc hs ha ▸ hanswer, rfl⟩
      · exact absurd hf (ha _)
    · exact hpop

theorem Node.Sound.read (h : n.Sound keyOf) (conn : Text) :
    ({ n with replies := n.replies.eraseP (·.conn = conn) } : Node).Sound keyOf :=
  ⟨h.held, h.asked, fun r hr => h.replied r (List.mem_of_mem_eraseP hr), h.answered⟩

theorem Node.Sound.deliver {conn : Text} (h : n.Sound keyOf) (hstep : n.deliver keyOf conn = some n') :
    n'.Sound keyOf := by
  unfold Node.deliver at hstep
  split at hstep
  · cases hstep
  · rename_i r hr
    cases hstep
    obtain ⟨honly, hanswer⟩ := h.replied r (List.mem_of_find?_eq_some hr)
    exact (h.read conn).handle honly hanswer

theorem Node.Sound.lose (h : n.Sound keyOf) (conn : Text) : (n.lose conn).Sound keyOf :=
  ⟨h.held, fun q hq => h.asked q (List.mem_filter.mp hq).1, fun r hr => h.replied r (List.mem_filter.mp hr).1, h.answered⟩

theorem Node.Sound.step {a : Act} (h : n.Sound keyOf) (hclear : n.Clear keyOf a) (hstep : n.step keyOf a = some n') :
    n'.Sound keyOf := by
  cases a with
  | relay => exact h.relay hclear hstep
  | sent => exact h.sent hstep
  | expire => exact h.expire hstep
  | wake => exact h.wake hstep
  | cancel => exact h.cancel hstep
  | answer => exact h.answer hstep
  | deliver => exact h.deliver hstep
  | lose conn =>
      cases hstep
      exact h.lose conn
  | proxies =>
      cases hstep
      exact ⟨h.held, h.asked, h.replied, h.answered⟩

/-! ## What stays pending -/

theorem Node.Keeps.of_eq (h : n'.pending = n.pending) : n.Keeps n' := fun slot j hj => .inl (by rw [h, hj])

theorem Node.Sound.keeps_return_ (h : n.Sound keyOf) (hi : n.calls[i]? = some c) (ha : c.Active) :
    n.Keeps (n.return_ i c o) := by
  intro slot j hj
  by_cases hs : c.slot = some slot
  · have hij : i = j := (h.held slot j hj).2 i c hi hs ha
    refine .inr ⟨{ c with phase := .returned o }, ?_, .inl (not_active rfl)⟩
    rw [calls_return_, get?_setCall hi, if_pos hij.symm]
  · exact .inl (pending_return_.mpr ⟨hs, hj⟩)

/-- Nothing is pending on a quiet slot. -/
theorem Node.Sound.ne_of_quiet (h : n.Sound keyOf) (hquiet : n.Quiet keyOf slot) (hj : n.pending.get? slot' = some j) :
    slot' ≠ slot := by
  rintro rfl
  obtain ⟨⟨c, hc, hs, ha⟩, -⟩ := h.held slot' j hj
  exact hquiet.1 c (List.mem_of_getElem? hc) hs ha

theorem Node.Sound.keeps_relay {portName ref : Text} {on : Bool} {claims : List Text} {clientId conn : Option Text}
    (h : n.Sound keyOf) (hclear : n.Clear keyOf (.relay portName ref on claims clientId conn))
    (hstep : n.relayPowerSwitch keyOf portName ref on claims clientId conn = some n') : n.Keeps n' := by
  unfold Node.relayPowerSwitch at hstep
  unfold Node.Clear at hclear
  split at hstep
  · cases hstep
    exact .of_eq rfl
  · rename_i slot wireRef hanchor
    dsimp only at hstep hclear
    rw [hanchor, Node.QuietAt] at hclear
    have hasked (slot' : Slot) (j : Nat) (hj : n.pending.get? slot' = some j) : (n.ask slot).pending.get? slot' = some j := by
      simp [Node.ask, Dict.get?_set, h.ne_of_quiet hclear hj, hj]
    cases conn with
    | none =>
        cases hstep
        intro slot' j hj
        refine .inl (pending_return_.mpr ⟨fun hs => ?_, hasked slot' j hj⟩)
        exact h.ne_of_quiet hclear hj (Option.some.inj hs).symm
    | some conn =>
        dsimp only at hstep
        split at hstep
        · cases hstep
          exact fun slot' j hj => .inl (hasked slot' j hj)
        · cases hstep

theorem Node.Sound.keeps_handle (h : n.Sound keyOf) (r : Result) : n.Keeps (n.handlePowerResultFrame keyOf r) := by
  unfold Node.handlePowerResultFrame
  split
  · exact .of_eq rfl
  · rename_i i hi
    obtain ⟨⟨c, hc, -, -⟩, -⟩ := h.held _ i hi
    dsimp only
    rw [hc]
    intro slot j hj
    by_cases hs : slot = (keyOf r.conn, r.sid)
    · subst hs
      rw [hi] at hj
      cases hj
      dsimp only
      split
      · refine .inr ⟨{ c with fut := .resolved r.body.answer }, ?_, .inr (by simp)⟩
        exact (get?_setCall (n := { n with pending := n.pending.pop (keyOf r.conn, r.sid) }) hc i).trans (if_pos rfl)
      · rename_i hfut
        exact .inr ⟨c, hc, .inr hfut⟩
    · left
      dsimp only
      split
      · simp [Node.setCall, Dict.get?_pop_ne _ hs, hj]
      · simp [Dict.get?_pop_ne _ hs, hj]

theorem Node.Sound.keeps {a : Act} (h : n.Sound keyOf) (hclear : n.Clear keyOf a) (hstep : n.step keyOf a = some n') :
    n.Keeps n' := by
  cases a with
  | relay => exact h.keeps_relay hclear hstep
  | sent i ok =>
      simp only [Node.step, Node.sent] at hstep
      split at hstep
      · cases hstep
      · rename_i c hi
        split at hstep
        · rename_i hphase
          cases hstep
          exact h.keeps_return_ hi fun o => by simp [hphase]
        · rename_i hphase _
          cases hstep
          exact h.keeps_return_ hi fun o => by simp [hphase]
        · cases hstep
          exact .of_eq rfl
        · cases hstep
  | expire i =>
      simp only [Node.step, Node.expire] at hstep
      split at hstep
      · cases hstep
      · split at hstep <;> cases hstep
        exact .of_eq rfl
  | wake i =>
      simp only [Node.step, Node.wake] at hstep
      split at hstep
      · cases hstep
      · rename_i c hi
        split at hstep
        · rename_i hphase _
          cases hstep
          exact h.keeps_return_ hi fun o => by simp [hphase]
        · rename_i hphase _
          cases hstep
          exact h.keeps_return_ hi fun o => by simp [hphase]
        · cases hstep
  | cancel i =>
      simp only [Node.step, Node.cancel] at hstep
      split at hstep
      · cases hstep
      · rename_i c hi
        split at hstep
        · cases hstep
        · rename_i hphase
          cases hstep
          exact h.keeps_return_ hi fun o ho => hphase o ho
  | answer conn body =>
      simp only [Node.step, Node.answer] at hstep
      split at hstep
      · cases hstep
      · split at hstep <;> cases hstep <;> exact .of_eq rfl
  | deliver conn =>
      simp only [Node.step, Node.deliver] at hstep
      split at hstep
      · cases hstep
      · rename_i r _
        cases hstep
        exact (h.read conn).keeps_handle r
  | lose | proxies =>
      cases hstep
      exact .of_eq rfl

end OpenMux.Power
