import OpenMux.Mpath.Lemmas.Inbound

/-!
# In-order delivery with one active handler

`S` lists the frames that a transmit counter gave numbers to, `R` the frames handed to `_route_data_frame`. As long as
nothing is flushed, and the expected number is taken up only when `expected` counts every frame handed over, `R` is a
prefix of `S`.
-/

namespace OpenMux.Mpath

/-! ## Numbered lists -/

/-- The frames carry the numbers 1, 2, 3, … in order. -/
def Numbered (S : List DataFrame) : Prop := ∀ i f, S[i]? = some f → f.seq = i + 1

variable {S R : List DataFrame} {f : DataFrame}

theorem Numbered.nil : Numbered [] := by intro i f h; simp at h

theorem Numbered.snoc (h : Numbered S) (hf : f.seq = S.length + 1) : Numbered (S ++ [f]) := by
  intro i f' hi
  rcases Nat.lt_trichotomy i S.length with hlt | heq | hgt
  · rw [List.getElem?_append_left hlt] at hi
    exact h i f' hi
  · subst heq
    simp at hi
    rw [← hi, hf]
  · rw [List.getElem?_append_right (by omega)] at hi
    simp [show i - S.length ≠ 0 by omega] at hi

theorem Numbered.getElem? (h : Numbered S) (hf : f ∈ S) : 1 ≤ f.seq ∧ S[f.seq - 1]? = some f := by
  obtain ⟨i, hi⟩ := List.mem_iff_getElem?.mp hf
  have hs := h i f hi
  exact ⟨by omega, by rw [hs]; simpa using hi⟩

theorem Numbered.le_length (h : Numbered S) (hf : f ∈ S) : f.seq ≤ S.length := by
  obtain ⟨h₁, hi⟩ := h.getElem? hf
  obtain ⟨hlt, _⟩ := List.getElem?_eq_some_iff.mp hi
  omega

/-- Two frames with one number are the same frame. -/
theorem Numbered.eq_of_seq (h : Numbered S) {f' : DataFrame} (hf : f ∈ S) (hf' : f' ∈ S) (he : f.seq = f'.seq) :
    f = f' := by
  have h₁ := (h.getElem? hf).2
  have h₂ := (h.getElem? hf').2
  rw [he, h₂] at h₁
  exact (Option.some.inj h₁).symm

theorem Numbered.take_seq (h : Numbered S) (hf : f ∈ S) : S.take f.seq = S.take (f.seq - 1) ++ [f] := by
  obtain ⟨h₁, hi⟩ := h.getElem? hf
  have hsucc : f.seq = f.seq - 1 + 1 := by omega
  conv_lhs => rw [hsucc, List.take_add_one, hi]
  simp

/-! ## The receive side -/

/-- The frames that a reorder buffer holds are frames of `S`. -/
def Rx.Held (r : Rx) (S : List DataFrame) (k : Nat) : Prop := ∀ n pl, (r.buffers k).get? n = some pl → ⟨n, pl⟩ ∈ S

/-- The receive state of a peer whose frames `S` were routed in order so far, as `R`. While a handler is suspended the
stored `expected` is the number it was called with, and the frames up to its own count are routed. A handler that was
cancelled leaves `expected` behind the frames that were routed. -/
inductive InOrder (S R : List DataFrame) (r : Rx) : Prop
  | fresh (hs : r.state = none) (hh : r.handlers = ∅) (hR : R = [])
  | idle (st : RxState) (hs : r.state = some st) (hh : r.handlers = ∅) (he : 1 ≤ st.expected)
      (hl : st.expected ≤ S.length + 1) (hR : R = S.take (st.expected - 1))
      (hgap : (r.buffers st.buffer).get? st.expected = none) (hb : r.Held S st.buffer)
  | delivering (st : RxState) (c : ConnId) (h : Handler) (hs : r.state = some st)
      (hh : r.handlers = (∅ : Dict ConnId Handler).set c h) (hbr : h.branch = .deliver) (hbuf : h.buf = st.buffer)
      (hseq : h.seq = st.expected) (he : 1 ≤ st.expected) (hle : st.expected ≤ h.cur) (hl : h.cur ≤ S.length)
      (hR : R = S.take h.cur) (hb : r.Held S st.buffer)
  | stalled (st : RxState) (hs : r.state = some st) (hh : r.handlers = ∅) (he : 1 ≤ st.expected)
      (hle : st.expected ≤ R.length) (hR : R <+: S)

variable {r r₁ : Rx} {st : RxState} {g now : Int} {c : ConnId}

theorem InOrder.prefix (h : InOrder S R r) : R <+: S := by
  cases h with
  | fresh _ _ hR => rw [hR]; exact List.nil_prefix
  | idle _ _ _ _ _ hR => rw [hR]; exact List.take_prefix _ _
  | delivering _ _ _ _ _ _ _ _ _ _ _ hR => rw [hR]; exact List.take_prefix _ _
  | stalled _ _ _ _ _ hR => exact hR

/-- A new number at the transmit side changes nothing at the receive side. -/
theorem InOrder.snoc (h : InOrder S R r) (f : DataFrame) : InOrder (S ++ [f]) R r := by
  cases h with
  | fresh hs hh hR => exact .fresh hs hh hR
  | idle st hs hh he hl hR hgap hb =>
      refine .idle st hs hh he (by simp; omega) ?_ hgap (fun n pl hn => List.mem_append_left _ (hb n pl hn))
      rw [hR, List.take_append_of_le_length (by omega)]
  | delivering st c hd hs hh hbr hbuf hseq he hle hl hR hb =>
      refine .delivering st c hd hs hh hbr hbuf hseq he hle (by simp; omega) ?_
        (fun n pl hn => List.mem_append_left _ (hb n pl hn))
      rw [hR, List.take_append_of_le_length hl]
  | stalled st hs hh he hle hR => exact .stalled st hs hh he hle (hR.trans (List.prefix_append _ _))

theorem Rx.Held.update_set (hb : r.Held S st.buffer) (hf : f ∈ S) {r' : Rx}
    (hr : r'.buffers = Function.update r.buffers st.buffer ((r.buffers st.buffer).set f.seq f.payload)) :
    r'.Held S st.buffer := by
  intro n pl hn
  rw [hr, Function.update_self, Dict.get?_set] at hn
  split at hn
  · cases hn
    subst_vars
    exact hf
  · exact hb n pl hn

theorem Rx.Held.update_pop (hb : r.Held S st.buffer) {k : Nat} {r' : Rx}
    (hr : r'.buffers = Function.update r.buffers st.buffer ((r.buffers st.buffer).pop k)) : r'.Held S st.buffer := by
  intro n pl hn
  rw [hr, Function.update_self] at hn
  exact hb n pl (Dict.get?_of_get?_pop hn)

theorem InOrder.opens {inst} (h : InOrder S R r) (ho : r.Opens r₁ st inst) : InOrder S R r₁ := by
  cases h with
  | fresh hs hh hR =>
      have hexp : st.expected = 1 := by rw [ho.expected]; simp [Rx.expected, hs]
      refine .idle st ho.state (by rw [ho.handlers, hh]) (by omega) (by omega) (by rw [hR, hexp]; rfl) ?_ ?_
      · rw [ho.new hs]; rfl
      · intro n pl hn
        rw [ho.new hs] at hn
        cases hn
  | idle st₀ hs hh he hl hR hgap hb =>
      obtain ⟨hbufs, hbuf⟩ := ho.old st₀ hs
      have hexp : st.expected = st₀.expected := by rw [ho.expected]; simp [Rx.expected, hs]
      refine .idle st ho.state (by rw [ho.handlers, hh]) (by omega) (by omega) (by rw [hR, hexp]) ?_ ?_
      · rw [hbufs, hbuf, hexp]; exact hgap
      · rw [hbuf]
        intro n pl hn
        rw [hbufs] at hn
        exact hb n pl hn
  | delivering st₀ c hd hs hh hbr hbuf hseq he hle hl hR hb =>
      obtain ⟨hbufs, hbuf'⟩ := ho.old st₀ hs
      have hexp : st.expected = st₀.expected := by rw [ho.expected]; simp [Rx.expected, hs]
      refine .delivering st c hd ho.state (by rw [ho.handlers, hh]) hbr (by rw [hbuf, hbuf']) (by omega) (by omega)
        (by omega) hl hR ?_
      rw [hbuf']
      intro n pl hn
      rw [hbufs] at hn
      exact hb n pl hn
  | stalled st₀ hs hh he hle hR =>
      have hexp : st.expected = st₀.expected := by rw [ho.expected]; simp [Rx.expected, hs]
      exact .stalled st ho.state (by rw [ho.handlers, hh]) (by omega) (by omega) hR

/-- The frame is taken up at once: it carries the expected number, or starts a flush. -/
def Rx.HandsOver (r : Rx) (gapStuckSec : Int) (f : DataFrame) (now : Int) : Prop :=
  f.seq = r.expected ∨ (r.expected < f.seq ∧ r.gapExpired gapStuckSec now)

instance (r : Rx) (g : Int) (f : DataFrame) (now : Int) : Decidable (r.HandsOver g f now) := by
  unfold Rx.HandsOver; infer_instance

/-- A frame of `S` keeps the order when nothing is flushed and the expected number is one that was not handed over. -/
theorem InOrder.enforceOrder (hS : Numbered S) (h : InOrder S R r) (hs : r.state = some st) (hf : f ∈ S)
    (hgap : ¬ (st.expected < f.seq ∧ r.gapExpired g now)) (hone : f.seq = st.expected → R.length < st.expected) :
    InOrder S (R ++ (r.enforceOrder g c f now).routed.toList) (r.enforceOrder g c f now).rx ∧
      (r.enforceOrder g c f now).rx.expected = st.expected := by
  have hexp : r.expected = st.expected := by simp [Rx.expected, hs]
  rcases enforceOrder_cases g now c f hs with
    ⟨_, he⟩ | ⟨heq, he⟩ | ⟨hgt, _, gap, he⟩ | ⟨hgt, hg, _⟩
  · rw [he]
    exact ⟨by simpa using h, hexp⟩
  · rw [he]
    refine ⟨?_, by simp [Rx.expected, hs]⟩
    have hnew := hone heq
    cases h with
    | fresh hs' => rw [hs] at hs'; cases hs'
    | idle st₀ hs' hh h1 hl hR _ hb =>
        rw [hs, Option.some.injEq] at hs'
        subst hs'
        refine .delivering st c ⟨.deliver, f.seq, f.seq, st.buffer⟩ hs (by simp [hh]) rfl rfl heq h1 (by simp [heq])
          ?_ ?_ hb
        · exact hS.le_length hf
        · simp only [Option.toList_some]
          rw [hS.take_seq hf, hR, heq]
    | delivering st₀ c' hd hs' _ _ _ _ _ hle hl hR =>
        rw [hs, Option.some.injEq] at hs'
        subst hs'
        have hlen : R.length = hd.cur := by simp [hR, hl]
        omega
    | stalled st₀ hs' _ _ hle =>
        rw [hs, Option.some.injEq] at hs'
        subst hs'
        omega
  · rw [he]
    refine ⟨?_, by simp [Rx.expected]⟩
    simp only [Option.toList_none, List.append_nil]
    cases h with
    | fresh hs' => rw [hs] at hs'; cases hs'
    | idle st₀ hs' hh h1 hl hR hno hb =>
        rw [hs, Option.some.injEq] at hs'
        subst hs'
        refine .idle { st with gapSince := gap } rfl hh h1 hl hR ?_ (hb.update_set hf rfl)
        simp only [Function.update_self]
        rw [Dict.get?_set_ne _ _ (by omega)]
        exact hno
    | delivering st₀ c' hd hs' hh hbr hbuf hseq h1 hle hl hR hb =>
        rw [hs, Option.some.injEq] at hs'
        subst hs'
        exact .delivering { st with gapSince := gap } c' hd rfl hh hbr hbuf hseq h1 hle hl hR (hb.update_set hf rfl)
    | stalled st₀ hs' hh h1 hle hR =>
        rw [hs, Option.some.injEq] at hs'
        subst hs'
        exact .stalled { st with gapSince := gap } rfl hh h1 hle hR
  · exact absurd ⟨hgt, hg⟩ hgap

/-- The suspended handler goes on in order, and writes back a larger count. -/
theorem InOrder.resume (hS : Numbered S) (h : InOrder S R r) {o : RxOut} (ho : r.resume c = some o) :
    InOrder S (R ++ o.routed.toList) o.rx ∧ r.expected ≤ o.rx.expected := by
  obtain ⟨hd, hget, hcase⟩ := resume_cases ho
  cases h with
  | fresh _ hh => rw [hh] at hget; cases hget
  | idle _ _ hh => rw [hh] at hget; cases hget
  | stalled _ _ hh => rw [hh] at hget; cases hget
  | delivering st c' hd' hs hh hbr hbuf hseq he hle hl hR hb =>
      have hc : c = c' ∧ hd = hd' := by
        rw [hh, Dict.get?_set] at hget
        split at hget
        · exact ⟨‹_›, (Option.some.inj hget).symm⟩
        · cases hget
      obtain ⟨rfl, rfl⟩ := hc
      rw [hbuf] at hcase
      have hset : (r.handlers.set c { hd with cur := hd.cur + 1 }) =
          (∅ : Dict ConnId Handler).set c { hd with cur := hd.cur + 1 } := by rw [hh, Dict.set_empty_set]
      have hpop : r.handlers.pop c = ∅ := by rw [hh, Dict.set_empty_pop]
      rcases hcase with ⟨pl, hpl, rfl⟩ | ⟨hnone, rfl⟩
      · have hmem : ⟨hd.cur + 1, pl⟩ ∈ S := hb _ _ hpl
        refine ⟨?_, by simp [Rx.expected, hs]⟩
        refine .delivering st c { hd with cur := hd.cur + 1 } hs ?_ hbr hbuf hseq he (by simp; omega)
          (hS.le_length hmem) ?_ (hb.update_pop rfl)
        · simpa [hbuf] using hset
        · have ht := hS.take_seq hmem
          simp only [Nat.add_sub_cancel] at ht
          simp only [Option.toList_some, ht, hR]
      · refine ⟨?_, by simp [Rx.expected, hs, hbr]; omega⟩
        refine .idle { st with expected := hd.cur + 1, gapSince := none } (by simp [hs, hbr]) ?_ (by simp) ?_ ?_ hnone hb
        · exact hpop
        · simp; omega
        · simp [hR]

/-- A cancelled handler leaves its frames uncounted. -/
theorem InOrder.cancel (h : InOrder S R r) (hc : r.cancel c = some r₁) : InOrder S R r₁ ∧ r₁.expected = r.expected := by
  simp only [Rx.cancel, Option.map_eq_some_iff] at hc
  obtain ⟨hd, hget, rfl⟩ := hc
  refine ⟨?_, rfl⟩
  cases h with
  | fresh _ hh => rw [hh] at hget; cases hget
  | idle _ _ hh => rw [hh] at hget; cases hget
  | stalled _ _ hh => rw [hh] at hget; cases hget
  | delivering st c' hd' hs hh hbr hbuf hseq he hle hl hR hb =>
      have hcc : c = c' := by
        rw [hh, Dict.get?_set] at hget
        split at hget
        · assumption
        · cases hget
      subst hcc
      refine .stalled st hs (by rw [hh, Dict.set_empty_pop]) he ?_ (hR ▸ List.take_prefix _ _)
      simp [hR]
      omega

end OpenMux.Mpath
