import OpenMux.Lib.Run
import OpenMux.Mpath.Lemmas.Link

/-!
# Acknowledged numbers are accounted for

At the receiver every number below the count of the state, or of a suspended handler, was routed or given up, and a
handler's own number is at least buffered. No condition on the run is needed: this holds under every interleaving of
handlers, flushes and cancellations. At the sender every number not acknowledged is waiting for its write, or in the
send buffer.
-/

namespace OpenMux.Mpath

/-- The number was handed to `_route_data_frame`, or a flush gave it up. -/
def Covered (R : List DataFrame) (G : List Nat) (n : Nat) : Prop := n ∈ R.map DataFrame.seq ∨ n ∈ G

def Rx.Buffered (r : Rx) (n : Nat) : Prop := ∃ st pl, r.state = some st ∧ (r.buffers st.buffer).get? n = some pl

def Accepted (R : List DataFrame) (G : List Nat) (r : Rx) (n : Nat) : Prop := Covered R G n ∨ r.Buffered n

/-- What the receiver's counts say about numbers. -/
structure Accounts (R : List DataFrame) (G : List Nat) (r : Rx) : Prop where
  below : ∀ n, 1 ≤ n → n < r.expected → Covered R G n
  cur : ∀ c hd, r.handlers.get? c = some hd → ∀ n, 1 ≤ n → n ≤ hd.cur → Covered R G n
  own : ∀ c hd, r.handlers.get? c = some hd → Accepted R G r hd.seq
  buf : ∀ c hd, r.handlers.get? c = some hd → ∃ st, r.state = some st ∧ hd.buf = st.buffer

variable {R R' : List DataFrame} {G G' : List Nat} {r r₁ : Rx} {st : RxState} {g now : Int} {c : ConnId} {f : DataFrame}
  {n : Nat}

theorem Covered.mono (h : Covered R G n) (hR : R <+: R') (hG : G <+: G') : Covered R' G' n :=
  h.imp (fun hm => (List.IsPrefix.subset (hR.map _)) hm) (fun hm => hG.subset hm)

theorem Covered.append (h : Covered R G n) (out : List DataFrame) (up : List Nat) : Covered (R ++ out) (G ++ up) n :=
  h.mono (List.prefix_append _ _) (List.prefix_append _ _)

theorem Covered.last : Covered (R ++ [f]) G f.seq := Or.inl (by simp)

theorem Accounts.initial : Accounts [] [] {} where
  below := by
    intro n h₁ h₂
    simp [Rx.expected] at h₂
    omega
  cur := by intro c hd hh; cases hh
  own := by intro c hd hh; cases hh
  buf := by intro c hd hh; cases hh

/-- The state entry that the generation check and `setdefault` leave holds what the old one held. -/
theorem Accepted.opens {inst} (ho : r.Opens r₁ st inst) (h : Accepted R G r n) : Accepted R G r₁ n := by
  rcases h with hc | ⟨st₀, pl, hs, hpl⟩
  · exact Or.inl hc
  · obtain ⟨hbufs, hbuf⟩ := ho.old st₀ hs
    exact Or.inr ⟨st, pl, ho.state, by rw [hbufs, hbuf]; exact hpl⟩

theorem Accounts.opens {inst} (h : Accounts R G r) (ho : r.Opens r₁ st inst) : Accounts R G r₁ where
  below := by
    have he : r₁.expected = r.expected := by rw [← ho.expected]; simp [Rx.expected, ho.state]
    rw [he]
    exact h.below
  cur := by rw [ho.handlers]; exact h.cur
  own := by
    rw [ho.handlers]
    intro c hd hh
    exact (h.own c hd hh).opens ho
  buf := by
    rw [ho.handlers]
    intro c hd hh
    obtain ⟨st₀, hs, hb⟩ := h.buf c hd hh
    exact ⟨st, ho.state, by rw [hb, (ho.old st₀ hs).2]⟩

/-- A buffer that keeps its keys keeps what is accepted. -/
theorem Accepted.keep {st' : RxState} {d : Dict Nat Payload} {r' : Rx} (h : Accepted R G r n) (hs : r.state = some st)
    (hs' : r'.state = some st') (hbuf : st'.buffer = st.buffer) (hd : r'.buffers st.buffer = d)
    (hkeep : ∀ m pl, (r.buffers st.buffer).get? m = some pl → Covered R G m ∨ ∃ pl', d.get? m = some pl') :
    Accepted R G r' n := by
  rcases h with hc | ⟨st₀, pl, hs₀, hpl⟩
  · exact Or.inl hc
  · rw [hs, Option.some.injEq] at hs₀
    subst hs₀
    rcases hkeep n pl hpl with hc | ⟨pl', hpl'⟩
    · exact Or.inl hc
    · exact Or.inr ⟨st', pl', hs', by rw [hbuf, hd]; exact hpl'⟩

theorem Accepted.append (h : Accepted R G r n) (out : List DataFrame) (up : List Nat) :
    Accepted (R ++ out) (G ++ up) r n :=
  h.imp (fun hc => hc.append out up) id

/-- What one step of a handler leaves: the counts are right, accepted numbers stay accepted, and so is the one
acknowledged. -/
structure Accounts.After (R : List DataFrame) (G : List Nat) (r : Rx) (o : RxOut) : Prop where
  accounts : Accounts (R ++ o.routed.toList) (G ++ o.givenUp) o.rx
  keeps : ∀ n, Accepted R G r n → Accepted (R ++ o.routed.toList) (G ++ o.givenUp) o.rx n
  ack : ∀ n, o.ack = some n → Accepted (R ++ o.routed.toList) (G ++ o.givenUp) o.rx n

/-- Setting a handler whose counts are right keeps the counts of the others. -/
theorem Accounts.after_handler {o : RxOut} (st' : RxState) (hd : Handler) (h : Accounts R G r) (hs : r.state = some st)
    (hs' : o.rx.state = some st') (hbuf : st'.buffer = st.buffer)
    (hhs : o.rx.handlers = r.handlers.set c hd) (hexp : o.rx.expected = r.expected) (hdbuf : hd.buf = st.buffer)
    (hkeep : ∀ m, Accepted R G r m → Accepted (R ++ o.routed.toList) (G ++ o.givenUp) o.rx m)
    (hcur : ∀ m, 1 ≤ m → m ≤ hd.cur → Covered (R ++ o.routed.toList) (G ++ o.givenUp) m)
    (hown : Accepted (R ++ o.routed.toList) (G ++ o.givenUp) o.rx hd.seq) :
    Accounts (R ++ o.routed.toList) (G ++ o.givenUp) o.rx where
  below := by
    rw [hexp]
    intro m h₁ h₂
    exact (h.below m h₁ h₂).append _ _
  cur := by
    intro c' hd' hh
    rw [hhs, Dict.get?_set] at hh
    split at hh
    · cases hh; exact hcur
    · intro m h₁ h₂
      exact (h.cur c' hd' hh m h₁ h₂).append _ _
  own := by
    intro c' hd' hh
    rw [hhs, Dict.get?_set] at hh
    split at hh
    · cases hh; exact hown
    · exact hkeep _ (h.own c' hd' hh)
  buf := by
    intro c' hd' hh
    rw [hhs, Dict.get?_set] at hh
    refine ⟨st', hs', ?_⟩
    split at hh
    · cases hh
      rw [hdbuf, hbuf]
    · obtain ⟨st₀, hs₀, hb⟩ := h.buf c' hd' hh
      rw [hs, Option.some.injEq] at hs₀
      rw [hb, hbuf, hs₀]

theorem Accounts.enforceOrder (g now : Int) (h : Accounts R G r) (hs : r.state = some st) (hf : 1 ≤ f.seq) :
    Accounts.After R G r (r.enforceOrder g c f now) := by
  have hexp : r.expected = st.expected := by simp [Rx.expected, hs]
  rcases enforceOrder_cases g now c f hs with
    ⟨hlt, he⟩ | ⟨heq, he⟩ | ⟨_, _, gap, he⟩ | ⟨hgt, _, low, pl, hmin, hlow, he⟩
  · -- a number below `expected` was accounted for before
    rw [he]
    refine ⟨by simpa using h, by simp, ?_⟩
    intro n hn
    cases hn
    exact Or.inl (by simpa using h.below _ hf (by omega))
  · rw [he]
    have hkeep : ∀ m, Accepted R G r m → Accepted (R ++ [f]) (G ++ []) { r with
        handlers := r.handlers.set c ⟨.deliver, f.seq, f.seq, st.buffer⟩ } m := by
      intro m hm
      exact hm.append [f] []
    have hlast : Covered (R ++ [f]) (G ++ []) f.seq := Covered.last
    refine ⟨?_, hkeep, by intro n hn; cases hn⟩
    refine h.after_handler (c := c) st ⟨.deliver, f.seq, f.seq, st.buffer⟩ hs hs rfl rfl rfl rfl hkeep
      ?_ (Or.inl hlast)
    intro m h₁ h₂
    rcases Nat.lt_or_eq_of_le h₂ with hlt | heq'
    · refine (h.below m h₁ ?_).append _ _
      rw [hexp, ← heq]
      exact hlt
    · rw [heq']; exact hlast
  · rw [he]
    have hkeep : ∀ m, Accepted R G r m → Accepted R G { r with
        state := some { st with gapSince := gap }
        buffers := Function.update r.buffers st.buffer ((r.buffers st.buffer).set f.seq f.payload) } m := by
      intro m hm
      refine hm.keep hs rfl rfl (Function.update_self _ _ _) ?_
      intro k pl hk
      right
      rw [Dict.get?_set]
      split
      · exact ⟨_, rfl⟩
      · exact ⟨pl, hk⟩
    refine ⟨?_, by simpa using hkeep, ?_⟩
    · simp only [Option.toList_none, List.append_nil]
      refine ⟨?_, h.cur, fun c' hd hh => hkeep _ (h.own c' hd hh), ?_⟩
      · intro m h₁ h₂
        exact h.below m h₁ (by rw [hexp]; exact h₂)
      · intro c' hd hh
        obtain ⟨st₀, hs₀, hb⟩ := h.buf c' hd hh
        rw [hs, Option.some.injEq] at hs₀
        subst hs₀
        exact ⟨_, rfl, hb⟩
    · intro n hn
      cases hn
      refine Or.inr ⟨_, f.payload, rfl, ?_⟩
      simp
  · -- a flush: the numbers up to `low` are given up, `low` is handed over
    rw [he]
    have hlast : Covered (R ++ [⟨low, pl⟩]) (G ++ List.range' st.expected (low - st.expected)) low :=
      Or.inl (by simp)
    have hpop : ∀ (r' : Rx) m,
        (r' = { r with
          state := some { st with gapSince := none }
          buffers := Function.update r.buffers st.buffer (((r.buffers st.buffer).set f.seq f.payload).pop low)
          handlers := r.handlers.set c ⟨.flush, f.seq, low, st.buffer⟩ }) →
        (∃ pl', ((r.buffers st.buffer).set f.seq f.payload).get? m = some pl') →
        Accepted (R ++ [⟨low, pl⟩]) (G ++ List.range' st.expected (low - st.expected)) r' m := by
      rintro r' m rfl ⟨pl', hm⟩
      by_cases hml : m = low
      · rw [hml]; exact Or.inl hlast
      · refine Or.inr ⟨_, pl', rfl, ?_⟩
        simp only [Function.update_self]
        rw [Dict.get?_pop_ne _ hml]
        exact hm
    have hkeep : ∀ m, Accepted R G r m →
        Accepted (R ++ [⟨low, pl⟩]) (G ++ List.range' st.expected (low - st.expected)) { r with
          state := some { st with gapSince := none }
          buffers := Function.update r.buffers st.buffer (((r.buffers st.buffer).set f.seq f.payload).pop low)
          handlers := r.handlers.set c ⟨.flush, f.seq, low, st.buffer⟩ } m := by
      rintro m (hc | ⟨st₀, pl', hs₀, hpl'⟩)
      · exact Or.inl (hc.append _ _)
      · rw [hs, Option.some.injEq] at hs₀
        subst hs₀
        refine hpop _ m rfl ?_
        rw [Dict.get?_set]
        split
        · exact ⟨_, rfl⟩
        · exact ⟨pl', hpl'⟩
    refine ⟨?_, hkeep, by intro n hn; cases hn⟩
    refine h.after_handler (c := c) { st with gapSince := none } ⟨.flush, f.seq, low, st.buffer⟩ hs rfl
      rfl rfl (by simp [Rx.expected, hs]) rfl hkeep ?_ (hpop _ f.seq rfl ⟨f.payload, by simp⟩)
    intro m h₁ h₂
    by_cases hlt : m < st.expected
    · exact (h.below m h₁ (by rw [hexp]; exact hlt)).append _ _
    · rcases Nat.lt_or_eq_of_le h₂ with hml | hml
      · right
        apply List.mem_append_right
        rw [List.mem_range'_1]
        have hml' : m < low := hml
        omega
      · rw [hml]; exact hlast

/-- The end of a handler keeps what was accepted. -/
theorem Accepted.settle {st : RxState} (c : ConnId) (br : Branch) (cur : ℕ) {m : ℕ} (hs : r.state = some st) (hm : Accepted R G r m) :
    Accepted (R ++ []) (G ++ []) { r with
      state := r.state.map fun st => match br with
        | .deliver => { st with expected := cur + 1, gapSince := none }
        | .flush => { st with expected := cur + 1 }
      handlers := r.handlers.pop c } m := by
  refine (hm.append _ _).keep hs (by rw [hs]; rfl) (by cases br <;> rfl) rfl ?_
  intro k pl hk
  exact Or.inr ⟨pl, hk⟩

theorem Accounts.resume (h : Accounts R G r) {o : RxOut} (ho : r.resume c = some o) : Accounts.After R G r o := by
  obtain ⟨⟨br, seq, cur, buf⟩, hget, hcase⟩ := resume_cases ho
  obtain ⟨st, hs, hbuf⟩ := h.buf c _ hget
  have hcur := h.cur c _ hget
  have hown := h.own c _ hget
  simp only at hbuf hcur hown hcase
  subst hbuf
  rcases hcase with ⟨pl, hpl, rfl⟩ | ⟨hnone, rfl⟩
  · have hlast : Covered (R ++ [⟨cur + 1, pl⟩]) (G ++ []) (cur + 1) := Or.inl (by simp)
    have hkeep : ∀ m, Accepted R G r m → Accepted (R ++ [⟨cur + 1, pl⟩]) (G ++ []) { r with
        buffers := Function.update r.buffers st.buffer ((r.buffers st.buffer).pop (cur + 1))
        handlers := r.handlers.set c ⟨br, seq, cur + 1, st.buffer⟩ } m := by
      intro m hm
      refine (hm.append _ _).keep hs hs rfl (Function.update_self _ _ _) ?_
      intro k pl' hk
      by_cases hkc : k = cur + 1
      · left; rw [hkc]; exact hlast
      · right; rw [Dict.get?_pop_ne _ hkc]; exact ⟨pl', hk⟩
    refine ⟨?_, hkeep, by intro n hn; cases hn⟩
    refine h.after_handler (c := c) st ⟨br, seq, cur + 1, st.buffer⟩ hs hs rfl rfl rfl rfl hkeep ?_
      (hkeep _ hown)
    intro m h₁ h₂
    rcases Nat.lt_or_eq_of_le h₂ with hlt | heq
    · exact (hcur m h₁ (Nat.lt_succ_iff.mp hlt)).append _ _
    · rw [heq]; exact hlast
  · have hkeep := fun m (hm : Accepted R G r m) => Accepted.settle c br cur hs hm
    refine ⟨⟨?_, ?_, ?_, ?_⟩, hkeep, ?_⟩
    · intro m h₁ h₂
      refine (hcur m h₁ ?_).append _ _
      have he : m < cur + 1 := by cases br <;> simpa [Rx.expected, hs] using h₂
      omega
    · intro c' hd' hh m h₁ h₂
      exact (h.cur c' hd' (Dict.get?_of_get?_pop hh) m h₁ h₂).append _ _
    · intro c' hd' hh
      exact hkeep _ (h.own c' hd' (Dict.get?_of_get?_pop hh))
    · intro c' hd' hh
      obtain ⟨st₀, hs₀, hb⟩ := h.buf c' hd' (Dict.get?_of_get?_pop hh)
      refine ⟨_, by rw [hs₀]; rfl, ?_⟩
      cases br <;> exact hb
    · intro n hn
      cases hn
      exact hkeep _ hown

theorem Accounts.cancel (h : Accounts R G r) (hc : r.cancel c = some r₁) :
    Accounts R G r₁ ∧ ∀ n, Accepted R G r n → Accepted R G r₁ n := by
  simp only [Rx.cancel, Option.map_eq_some_iff] at hc
  obtain ⟨hd, _, rfl⟩ := hc
  refine ⟨⟨h.below, ?_, ?_, ?_⟩, fun n hn => hn⟩
  · exact fun c' hd' hh => h.cur c' hd' (Dict.get?_of_get?_pop hh)
  · exact fun c' hd' hh => h.own c' hd' (Dict.get?_of_get?_pop hh)
  · exact fun c' hd' hh => h.buf c' hd' (Dict.get?_of_get?_pop hh)

end OpenMux.Mpath
