import OpenMux.Lib.PyBytes

/-!
# Bracketed segments of a stream

A segment begins with an opening separator and goes on to the next closing one. A stream is cut at its whole segments into the texts
between them and what they hold; a segment that is not closed yet is text. When a stream comes in two halves, each of them cut on its
own, the cuts differ from those of the whole exactly if a segment lies across the halves.
-/

namespace Brackets

open Py

variable {α : Type} [DecidableEq α] {op cl d x z : List α} {i j k : ℕ}

/-! ## Places -/

/-- The separator stands at a place. -/
def At (sep d : List α) (i : ℕ) : Prop := sep <+: d.drop i

variable {sep : List α}

theorem At.le (h : At sep d i) (hne : sep ≠ []) : i + sep.length ≤ d.length := by
  have hlen := h.length_le
  have hpos := List.length_pos_of_ne_nil hne
  rw [List.length_drop] at hlen
  omega

theorem At.append_left (h : At sep d i) (z : List α) : At sep (d ++ z) i := by
  rw [At, List.drop_append]
  exact h.trans (List.prefix_append _ _)

theorem at_append_left_iff (h : i + sep.length ≤ d.length) : At sep (d ++ z) i ↔ At sep d i := by
  constructor
  · intro hat
    rw [At, List.drop_append_of_le_length (by omega)] at hat
    exact List.prefix_of_prefix_length_le hat (List.prefix_append _ _) (by rw [List.length_drop]; omega)
  · exact fun hat => hat.append_left z

theorem at_append_right_iff : At sep (d ++ z) (d.length + j) ↔ At sep z j := by
  rw [At, At, List.drop_append, List.drop_of_length_le (by omega), List.nil_append, Nat.add_sub_cancel_left]

omit [DecidableEq α] in
theorem At.getElem? (h : At sep d i) (hj : j < sep.length) : d[i + j]? = sep[j]? := by
  obtain ⟨t, ht⟩ := h
  rw [← List.getElem?_drop, ← ht, List.getElem?_append_left hj]

/-- A search finds the first place. -/
theorem find_eq_some_of_at (hne : sep ≠ []) (h : At sep d i) (hfirst : ∀ j < i, ¬ At sep d j) :
    find sep d = some (d.take i, d.drop i) := by
  induction i generalizing d with
  | zero =>
      have hd : d ≠ [] := by
        rintro rfl
        exact hne (by simpa [At] using h)
      simpa using find_of_prefix (by simpa [At] using h) hd
  | succ i ih =>
      cases d with
      | nil => exact absurd (by simpa [At] using h) hne
      | cons b d =>
          have hb : ¬ sep <+: b :: d := hfirst 0 (by omega)
          rw [find_cons_of_not hb, ih h fun j hj hat => hfirst (j + 1) (by omega) hat]
          rfl

theorem find_eq_none_iff (hne : sep ≠ []) : find sep d = none ↔ ∀ i, ¬ At sep d i := by
  constructor
  · intro h i hat
    have hex : ∃ i, At sep d i := ⟨i, hat⟩
    classical
    have hfind := find_eq_some_of_at hne (Nat.find_spec hex) fun j hj => Nat.find_min hex hj
    rw [h] at hfind
    cases hfind
  · intro h
    cases hfind : find sep d with
    | none => rfl
    | some r =>
        obtain ⟨hd, hp, -⟩ := find_some (x := r.1) (y := r.2) hfind
        refine absurd ?_ (h r.1.length)
        rw [At, hd, List.drop_left]
        exact hp

/-! ## Segments -/

/-- The text before the first whole segment, what that holds, and what comes after it. -/
def first (op cl d : List α) : Option (List α × List α × List α) :=
  match find op d with
  | none => none
  | some (text, opened) => match find cl opened with
    | none => none
    | some (held, closed) => some (text, held.drop op.length, closed.drop cl.length)

/-- The separators of segments: no opening one can be taken for the start or the end of a closing one. -/
structure Separators (op cl : List α) : Prop where
  closing : cl ≠ []
  length_le : cl.length ≤ op.length
  head : ∀ a ∈ cl.head?, a ∉ op.tail
  last : ∀ a ∈ cl.getLast?, a ∉ op

instance : Decidable (Separators op cl) :=
  decidable_of_iff (cl ≠ [] ∧ cl.length ≤ op.length ∧ (∀ a ∈ cl.head?, a ∉ op.tail) ∧ ∀ a ∈ cl.getLast?, a ∉ op)
    ⟨fun h => ⟨h.1, h.2.1, h.2.2.1, h.2.2.2⟩, fun h => ⟨h.closing, h.length_le, h.head, h.last⟩⟩

/-- The first whole segment is opened at `i` and closed at `k`. -/
structure Spans (op cl d : List α) (i k : ℕ) : Prop where
  opens : At op d i
  opensFirst : ∀ j < i, ¬ At op d j
  le : i ≤ k
  closes : At cl d k
  closesFirst : ∀ j, i ≤ j → j < k → ¬ At cl d j

omit [DecidableEq α] in
theorem Separators.opening (h : Separators op cl) : op ≠ [] := by
  intro hnil
  have hle := h.length_le
  have hpos := List.length_pos_of_ne_nil h.closing
  rw [hnil, List.length_nil] at hle
  omega

omit [DecidableEq α] in
/-- An opening separator does not hold the end of a closing one. -/
theorem Separators.before_end (h : Separators op cl) (hop : At op d i) (hcl : At cl d k) :
    k + cl.length ≤ i ∨ i + op.length < k + cl.length := by
  by_contra hin
  push Not at hin
  have hpos := List.length_pos_of_ne_nil h.closing
  have hlast := hcl.getElem? (j := cl.length - 1) (by omega)
  have hop' := hop.getElem? (j := k + (cl.length - 1) - i) (by omega)
  rw [show i + (k + (cl.length - 1) - i) = k + (cl.length - 1) by omega, hlast, ← List.getLast?_eq_getElem?] at hop'
  cases hl : cl.getLast? with
  | none => exact h.closing (List.getLast?_eq_none_iff.mp hl)
  | some a => exact h.last a hl (List.mem_of_getElem? (hop' ▸ hl))

omit [DecidableEq α] in
/-- A segment is closed after its opening separator. -/
theorem Separators.apart (h : Separators op cl) (hop : At op d i) (hcl : At cl d k) (hle : i ≤ k) : i + op.length ≤ k := by
  by_contra hlt
  push Not at hlt
  have hpos := List.length_pos_of_ne_nil h.closing
  have hlen := h.length_le
  rcases hle.eq_or_lt with rfl | hlt'
  · rcases h.before_end hop hcl with h | h <;> omega
  · have hhead := hcl.getElem? (j := 0) hpos
    have hop' := hop.getElem? (j := k - i) (by omega)
    rw [show i + (k - i) = k + 0 by omega, hhead, ← List.head?_eq_getElem?] at hop'
    cases hh : cl.head? with
    | none => exact h.closing (List.head?_eq_none_iff.mp hh)
    | some a =>
        rw [hh, show k - i = k - i - 1 + 1 by omega, ← List.getElem?_tail] at hop'
        exact h.head a hh (List.mem_of_getElem? hop'.symm)

/-- A search for the first segment finds it. -/
theorem first_of_spans (hs : Separators op cl) (h : Spans op cl d i k) :
    first op cl d = some (d.take i, ((d.drop i).take (k - i)).drop op.length, d.drop (k + cl.length)) := by
  have hshift : ∀ j, At cl (d.drop i) j ↔ At cl d (i + j) := fun j => by rw [At, At, List.drop_drop]
  have hopen := find_eq_some_of_at hs.opening h.opens h.opensFirst
  have hclose : find cl (d.drop i) = some ((d.drop i).take (k - i), (d.drop i).drop (k - i)) := by
    apply find_eq_some_of_at hs.closing
    · rw [hshift, Nat.add_sub_cancel' h.le]
      exact h.closes
    · intro j hj hat
      exact h.closesFirst (i + j) (by omega) (by omega) ((hshift j).mp hat)
  simp only [first, hopen, hclose, List.drop_drop, Nat.add_sub_cancel' h.le]

/-- Where a segment is opened and closed, there is a first one. -/
theorem spans_of_at (hop : At op d i) (hcl : At cl d k) (hle : i ≤ k) : ∃ i k, Spans op cl d i k := by
  classical
  have hi : ∃ i, At op d i := ⟨i, hop⟩
  have hk : ∃ k, Nat.find hi ≤ k ∧ At cl d k := ⟨k, (Nat.find_le hop).trans hle, hcl⟩
  exact ⟨Nat.find hi, Nat.find hk, Nat.find_spec hi, fun j hj => Nat.find_min hi hj, (Nat.find_spec hk).1, (Nat.find_spec hk).2,
    fun j hij hj hat => Nat.find_min hk hj ⟨hij, hat⟩⟩

theorem spans_of_first {r : List α × List α × List α} (h : first op cl d = some r) : ∃ i k, Spans op cl d i k := by
  unfold first at h
  split at h
  · cases h
  · rename_i text opened hopen
    split at h
    · cases h
    · rename_i held closed hclose
      obtain ⟨hd, hop, -⟩ := find_some hopen
      obtain ⟨ho, hcl, -⟩ := find_some hclose
      have hopens : At op d text.length := by rwa [At, hd, List.drop_left]
      have hcloses : At cl d (text.length + held.length) := by rwa [At, hd, ho, ← List.append_assoc, ← List.length_append, List.drop_left]
      exact spans_of_at hopens hcloses (by omega)

theorem first_eq_none_iff (hs : Separators op cl) : first op cl d = none ↔ ∀ i k, i ≤ k → At op d i → ¬ At cl d k := by
  constructor
  · intro h i k hle hop hcl
    obtain ⟨i', k', hspans⟩ := spans_of_at hop hcl hle
    rw [first_of_spans hs hspans] at h
    cases h
  · intro h
    cases hf : first op cl d with
    | none => rfl
    | some r =>
        obtain ⟨i, k, hspans⟩ := spans_of_first hf
        exact absurd hspans.closes (h i k hspans.le hspans.opens)

/-- What comes behind does not change the first segment. -/
theorem Spans.append_left (hs : Separators op cl) (h : Spans op cl d i k) (x : List α) : Spans op cl (d ++ x) i k := by
  have hop := h.opens.le hs.opening
  have hcl := h.closes.le hs.closing
  refine ⟨h.opens.append_left x, fun j hj hat => ?_, h.le, h.closes.append_left x, fun j hij hj hat => ?_⟩
  · exact h.opensFirst j hj ((at_append_left_iff (by omega)).mp hat)
  · exact h.closesFirst j hij hj ((at_append_left_iff (by omega)).mp hat)

theorem first_append (hs : Separators op cl) {text held left : List α} (h : first op cl d = some (text, held, left)) (x : List α) :
    first op cl (d ++ x) = some (text, held, left ++ x) := by
  obtain ⟨i, k, hspans⟩ := spans_of_first h
  have hop := hspans.opens.le hs.opening
  have hcl := hspans.closes.le hs.closing
  have hle := hspans.le
  rw [first_of_spans hs hspans] at h
  cases h
  rw [first_of_spans hs (hspans.append_left hs x), List.take_append_of_le_length (by omega),
    List.drop_append_of_le_length (by omega), List.take_append_of_le_length (by rw [List.length_drop]; omega),
    List.drop_append_of_le_length (by omega)]

/-- A stream is longer than what comes after its first segment. -/
theorem length_lt_of_first (hs : Separators op cl) {text held left : List α} (h : first op cl d = some (text, held, left)) :
    left.length < d.length := by
  obtain ⟨i, k, hspans⟩ := spans_of_first h
  have hcl := hspans.closes.le hs.closing
  have hpos := List.length_pos_of_ne_nil hs.closing
  rw [first_of_spans hs hspans] at h
  cases h
  rw [List.length_drop]
  omega

/-! ## Cutting -/

/-- The texts before the whole segments with what these hold, and the text that is left. The number bounds the segments. -/
def cutFor (op cl : List α) : ℕ → List α → List (List α × List α) × List α
  | 0, d => ([], d)
  | n + 1, d => match first op cl d with
    | none => ([], d)
    | some (text, held, left) => ((text, held) :: (cutFor op cl n left).1, (cutFor op cl n left).2)

def cut (op cl d : List α) : List (List α × List α) × List α := cutFor op cl d.length d

/-- The stream without its whole segments. -/
def text (op cl d : List α) : List α := (cut op cl d).1.flatMap (·.1) ++ (cut op cl d).2

/-- What the whole segments hold. -/
def held (op cl d : List α) : List (List α) := (cut op cl d).1.map (·.2)

theorem cutFor_eq (hs : Separators op cl) {n : ℕ} (h : d.length ≤ n) : cutFor op cl n d = cut op cl d := by
  have hmono : ∀ m n, ∀ d : List α, d.length ≤ n → n ≤ m → cutFor op cl m d = cutFor op cl n d := by
    intro m
    induction m with
    | zero =>
        intro n d _ hn
        rw [Nat.le_zero.mp hn]
    | succ m ih =>
        intro n d hd hn
        cases n with
        | zero =>
            have hnone : first op cl d = none := by
              cases hf : first op cl d with
              | none => rfl
              | some r => exact absurd (length_lt_of_first hs hf) (by omega)
            simp [cutFor, hnone]
        | succ n =>
            cases hf : first op cl d with
            | none => simp [cutFor, hf]
            | some r =>
                obtain ⟨b, p, a⟩ := r
                have hlt := length_lt_of_first hs hf
                simp only [cutFor, hf, ih n a (by omega) (by omega)]
  exact hmono n d.length d le_rfl h

theorem cut_of_none (h : first op cl d = none) : cut op cl d = ([], d) := by
  unfold cut
  cases d.length <;> simp [cutFor, h]

theorem cut_of_some (hs : Separators op cl) {b p a : List α} (h : first op cl d = some (b, p, a)) :
    cut op cl d = ((b, p) :: (cut op cl a).1, (cut op cl a).2) := by
  have hlt := length_lt_of_first hs h
  rw [← cutFor_eq hs (n := d.length + 1) (by omega)]
  simp only [cutFor, h, cutFor_eq hs hlt.le]

/-- A stream without a segment is text. -/
theorem text_of_held_nil (hs : Separators op cl) (h : held op cl d = []) : text op cl d = d := by
  cases hf : first op cl d with
  | none => simp [text, cut_of_none hf]
  | some r =>
      obtain ⟨b, p, a⟩ := r
      simp [held, cut_of_some hs hf] at h

/-- What is left has no whole segment. -/
theorem first_cut (hs : Separators op cl) (d : List α) : first op cl (cut op cl d).2 = none := by
  induction hn : d.length using Nat.strong_induction_on generalizing d with
  | _ n ih =>
      cases hf : first op cl d with
      | none => rw [cut_of_none hf, hf]
      | some r =>
          rw [cut_of_some hs hf]
          exact ih _ (hn ▸ length_lt_of_first hs hf) _ rfl

/-- A stream is cut as its first half is, and then what is left of that with the second. -/
theorem cut_append (hs : Separators op cl) (d x : List α) :
    cut op cl (d ++ x) = ((cut op cl d).1 ++ (cut op cl ((cut op cl d).2 ++ x)).1, (cut op cl ((cut op cl d).2 ++ x)).2) := by
  induction hn : d.length using Nat.strong_induction_on generalizing d with
  | _ n ih =>
      cases hf : first op cl d with
      | none => simp [cut_of_none hf]
      | some r =>
          rw [cut_of_some hs hf, cut_of_some hs (first_append hs hf x), ih _ (hn ▸ length_lt_of_first hs hf) _ rfl]
          simp

/-! ## Two halves -/

/-- The first whole segment of the two halves begins in the first one. -/
def Across (op cl d x : List α) : Prop := ∃ r ∈ first op cl (d ++ x), r.1.length < d.length

instance : Decidable (Across op cl d x) := inferInstanceAs (Decidable (∃ r ∈ first op cl (d ++ x), r.1.length < d.length))

theorem Spans.of_append_right (h : Spans op cl (d ++ x) i k) (hle : d.length ≤ i) : Spans op cl x (i - d.length) (k - d.length) := by
  have hik := h.le
  have hshift : ∀ (sep : List α) (j : ℕ), At sep x j ↔ At sep (d ++ x) (d.length + j) := fun sep j => at_append_right_iff.symm
  refine ⟨?_, fun j hj hat => ?_, by omega, ?_, fun j hij hj hat => ?_⟩
  · rw [hshift, Nat.add_sub_cancel' hle]
    exact h.opens
  · exact h.opensFirst (d.length + j) (by omega) ((hshift op j).mp hat)
  · rw [hshift, Nat.add_sub_cancel' (by omega)]
    exact h.closes
  · exact h.closesFirst (d.length + j) (by omega) (by omega) ((hshift cl j).mp hat)

omit [DecidableEq α] in
theorem drop_append_of_le (h : d.length ≤ j) : (d ++ x).drop j = x.drop (j - d.length) := by
  rw [List.drop_append, List.drop_of_length_le h, List.nil_append]

/-- The texts of a stream with a segment. -/
theorem text_of_spans (hs : Separators op cl) (h : Spans op cl d i k) :
    text op cl d = d.take i ++ text op cl (d.drop (k + cl.length)) ∧
      (held op cl d).length = (held op cl (d.drop (k + cl.length))).length + 1 := by
  have hcut := cut_of_some hs (first_of_spans hs h)
  simp [text, held, hcut]

/-- No segment lies across: what is left of the first half is text. -/
theorem cut_of_not_across (hs : Separators op cl) (hd : first op cl d = none) (h : ¬ Across op cl d x) :
    text op cl (d ++ x) = d ++ text op cl x ∧ held op cl (d ++ x) = held op cl x := by
  cases hf : first op cl (d ++ x) with
  | none =>
      have hx : first op cl x = none := by
        rw [first_eq_none_iff hs] at hf ⊢
        intro i k hle hop hcl
        exact hf (d.length + i) (d.length + k) (by omega) (at_append_right_iff.mpr hop) (at_append_right_iff.mpr hcl)
      simp [text, held, cut_of_none hf, cut_of_none hx]
  | some r =>
      obtain ⟨i, k, hspans⟩ := spans_of_first hf
      have hi : d.length ≤ i := by
        by_contra hlt
        refine h ⟨r, hf, ?_⟩
        rw [first_of_spans hs hspans] at hf
        cases hf
        rw [List.length_take]
        omega
      have hik := hspans.le
      have hx := cut_of_some hs (first_of_spans hs (hspans.of_append_right hi))
      have hdx := cut_of_some hs (first_of_spans hs hspans)
      rw [show k - d.length + cl.length = k + cl.length - d.length by omega, show k - d.length - (i - d.length) = k - i by omega] at hx
      rw [drop_append_of_le hi, drop_append_of_le (hi.trans (by omega)), List.take_append, List.take_of_length_le hi] at hdx
      simp [text, held, hx, hdx]

/-- A segment lies across: what of it is in the first half is text there, and what is in the second one at most a segment there. -/
theorem cut_of_across (hs : Separators op cl) (hd : first op cl d = none) (h : Across op cl d x) :
    ∃ b s z r, d = b ++ s ∧ s.head? = op.head? ∧ text op cl x = z ++ r ∧ text op cl (d ++ x) = b ++ r ∧
      (held op cl x).length ≤ (held op cl (d ++ x)).length := by
  obtain ⟨r, hf, hlt⟩ := h
  obtain ⟨i, k, hspans⟩ := spans_of_first hf
  rw [first_of_spans hs hspans] at hf
  cases hf
  have hi : i < d.length := by
    rw [List.length_take, List.length_append] at hlt
    omega
  have hend : d.length < k + cl.length := by
    by_contra hle
    have hapart := hs.apart hspans.opens hspans.closes hspans.le
    rw [first_eq_none_iff hs] at hd
    exact hd i k hspans.le ((at_append_left_iff (by omega)).mp hspans.opens) ((at_append_left_iff (by omega)).mp hspans.closes)
  have hwhole := text_of_spans hs hspans
  rw [drop_append_of_le hend.le, List.take_append_of_le_length hi.le] at hwhole
  have hhead : (d.drop i).head? = op.head? := by
    have hpos := List.length_pos_of_ne_nil hs.opening
    rw [List.head?_drop, List.head?_eq_getElem?, ← hspans.opens.getElem? hpos, List.getElem?_append_left (by omega)]
    rfl
  -- where the segment ends in the second half
  obtain ⟨e, he⟩ : ∃ e, k + cl.length = d.length + e := ⟨k + cl.length - d.length, by omega⟩
  rw [he, Nat.add_sub_cancel_left] at hwhole
  refine ⟨d.take i, d.drop i, ?_⟩
  cases hx : first op cl x with
  | none =>
      have hr : first op cl (x.drop e) = none := by
        rw [first_eq_none_iff hs] at hx ⊢
        intro i' k' hle hop hcl
        rw [At, List.drop_drop] at hop hcl
        exact hx (e + i') (e + k') (by omega) hop hcl
      refine ⟨x.take e, x.drop e, (List.take_append_drop i d).symm, hhead, ?_, ?_, ?_⟩
      · simp [text, cut_of_none hx]
      · rw [hwhole.1, text, cut_of_none hr]
        simp
      · simp [held, cut_of_none hx]
  | some r' =>
      obtain ⟨i', k', hspans'⟩ := spans_of_first hx
      have htext := text_of_spans hs hspans'
      have hx' := hspans'.closes.le hs.closing
      by_cases hei : e ≤ i'
      · have hlen : (x.take e).length = e := by
          have hle := hspans'.le
          rw [List.length_take]
          omega
        have hafter : Spans op cl (x.drop e) (i' - e) (k' - e) := by
          have happ := hspans'
          rw [← List.take_append_drop e x] at happ
          simpa [hlen] using happ.of_append_right (by rwa [hlen])
        have hrest := text_of_spans hs hafter
        have hle := hspans'.le
        rw [List.drop_drop, show e + (k' - e + cl.length) = k' + cl.length by omega] at hrest
        refine ⟨x.take e, text op cl (x.drop e), (List.take_append_drop i d).symm, hhead, ?_, hwhole.1, ?_⟩
        · rw [htext.1, hrest.1, ← List.append_assoc, ← List.take_add, Nat.add_sub_cancel' hei]
        · omega
      · -- the segment of the second half is closed where the one across is
        have hop : At op (d ++ x) (d.length + i') := at_append_right_iff.mpr hspans'.opens
        have hlen := hs.length_le
        have hbefore := hs.before_end hop hspans.closes
        have hcl : At cl x (k - d.length) := by
          rw [← at_append_right_iff (d := d), Nat.add_sub_cancel' (by omega)]
          exact hspans.closes
        have hle : k' ≤ k - d.length := by
          by_contra hgt
          exact hspans'.closesFirst (k - d.length) (by omega) (by omega) hcl
        have hge : k - d.length ≤ k' := by
          by_contra hgt
          exact hspans.closesFirst (d.length + k') (by omega) (by omega) (at_append_right_iff.mpr hspans'.closes)
        have hend' : k' + cl.length = e := by omega
        rw [hend'] at htext
        refine ⟨x.take i', text op cl (x.drop e), (List.take_append_drop i d).symm, hhead, htext.1, hwhole.1, ?_⟩
        omega

/-- A segment begins in what is left of the first half, and is closed in the second. -/
def Cuts (op cl d x : List α) : Prop := Across op cl (cut op cl d).2 x

instance : Decidable (Cuts op cl d x) := inferInstanceAs (Decidable (Across op cl (cut op cl d).2 x))

theorem text_append (hs : Separators op cl) (d x : List α) :
    text op cl (d ++ x) = (cut op cl d).1.flatMap (·.1) ++ text op cl ((cut op cl d).2 ++ x) ∧
      held op cl (d ++ x) = held op cl d ++ held op cl ((cut op cl d).2 ++ x) := by
  simp [text, held, cut_append hs d x]

/-- Where no segment is cut, the halves have the texts and the segments of the whole. -/
theorem append_of_not_cuts (hs : Separators op cl) (h : ¬ Cuts op cl d x) :
    text op cl (d ++ x) = text op cl d ++ text op cl x ∧ held op cl (d ++ x) = held op cl d ++ held op cl x := by
  have hleft := cut_of_not_across hs (first_cut hs d) h
  have happ := text_append hs d x
  rw [hleft.1, hleft.2, ← List.append_assoc] at happ
  exact happ

/-- Where one is cut, parts of it are text of both halves, and the second half has at most as many segments as it has in the whole. -/
theorem append_of_cuts (hs : Separators op cl) (h : Cuts op cl d x) :
    ∃ b s z r, text op cl d = b ++ s ∧ s.head? = op.head? ∧ text op cl x = z ++ r ∧ text op cl (d ++ x) = b ++ r ∧
      (held op cl d).length + (held op cl x).length ≤ (held op cl (d ++ x)).length := by
  obtain ⟨b, s, z, r, hd, hhead, hx, hdx, hlen⟩ := cut_of_across hs (first_cut hs d) h
  have happ := text_append hs d x
  refine ⟨(cut op cl d).1.flatMap (·.1) ++ b, s, z, r, ?_, hhead, hx, ?_, ?_⟩
  · rw [List.append_assoc, ← hd]
    rfl
  · rw [happ.1, hdx, List.append_assoc]
  · rw [happ.2, List.length_append]
    omega


/-! ## Chunks -/

/-- A text in its place, or what a segment holds. -/
abbrev Item (α : Type) : Type := α ⊕ List α

/-- The texts and the segments in order. -/
def items (op cl d : List α) : List (Item α) :=
  (cut op cl d).1.flatMap (fun s => s.1.map .inl ++ [.inr s.2]) ++ (cut op cl d).2.map .inl

/-- The part of the stream that is an item. -/
def encode (op cl : List α) : Item α → List α
  | .inl a => [a]
  | .inr s => op ++ (s ++ cl)

/-- What is let go of the text that is left, and what is held back: from an opening separator on, if that is at most `max` long. -/
def hold (op : List α) (max : ℕ) (left : List α) : List α × List α :=
  match find op left with
  | none => (left, [])
  | some (text, opened) => if opened.length ≤ max then (text, opened) else (left, [])

/-- What a stream gives but for what is held back of it. -/
def given (op cl : List α) (max : ℕ) (d : List α) : List (Item α) :=
  (cut op cl d).1.flatMap (fun s => s.1.map .inl ++ [.inr s.2]) ++ (hold op max (cut op cl d).2).1.map .inl

/-- What is held back of a stream. -/
def heldBack (op cl : List α) (max : ℕ) (d : List α) : List α := (hold op max (cut op cl d).2).2

/-- What each chunk gives with what was held back before it, and what is held back at last. -/
def itemsOfChunks (op cl : List α) (max : ℕ) : List α → List (List α) → List (List (Item α)) × List α
  | h, [] => ([], h)
  | h, c :: cs =>
      let rest := itemsOfChunks op cl max (heldBack op cl max (h ++ c)) cs
      (given op cl max (h ++ c) :: rest.1, rest.2)

/-- Where a chunk ends within a segment, something of it is held back. -/
def Unbroken (op cl : List α) (max : ℕ) : List α → List (List α) → Prop
  | _, [] => True
  | h, c :: cs =>
      (heldBack op cl max (h ++ c) = [] → ¬ Across op cl (cut op cl (h ++ c)).2 cs.flatten) ∧
        Unbroken op cl max (heldBack op cl max (h ++ c)) cs

section Chunks

variable {max : ℕ} {h c left : List α} {cs : List (List α)}

instance decidableUnbroken (max : ℕ) : ∀ (h : List α) (cs : List (List α)), Decidable (Unbroken op cl max h cs)
  | _, [] => isTrue trivial
  | h, c :: cs =>
      have := decidableUnbroken max (heldBack op cl max (h ++ c)) cs
      inferInstanceAs (Decidable (_ ∧ _))

theorem hold_append (op : List α) (max : ℕ) (left : List α) : (hold op max left).1 ++ (hold op max left).2 = left := by
  unfold hold
  split
  · simp
  · rename_i text opened hfind
    obtain ⟨rfl, -, -⟩ := find_some hfind
    split <;> simp

theorem find_of_hold (hne : (hold op max left).2 ≠ []) : find op left = some (hold op max left) := by
  unfold hold at hne ⊢
  split at hne
  · exact absurd rfl hne
  · rename_i text opened hfind
    split at hne
    · rename_i hmax
      rw [hfind]
      simp [hmax]
    · exact absurd rfl hne

/-- Text that comes before all segments stays so. -/
theorem items_of_not_across (hs : Separators op cl) (hn : ¬ Across op cl d x) :
    items op cl (d ++ x) = d.map .inl ++ items op cl x := by
  cases hf : first op cl (d ++ x) with
  | none =>
      have hx : first op cl x = none := by
        rw [first_eq_none_iff hs] at hf ⊢
        intro i k hle hop hcl
        exact hf (d.length + i) (d.length + k) (by omega) (at_append_right_iff.mpr hop) (at_append_right_iff.mpr hcl)
      simp [items, cut_of_none hf, cut_of_none hx]
  | some r =>
      obtain ⟨i, k, hspans⟩ := spans_of_first hf
      have hi : d.length ≤ i := by
        by_contra hlt
        refine hn ⟨r, hf, ?_⟩
        rw [first_of_spans hs hspans] at hf
        cases hf
        rw [List.length_take]
        omega
      have hik := hspans.le
      have hx := cut_of_some hs (first_of_spans hs (hspans.of_append_right hi))
      have hdx := cut_of_some hs (first_of_spans hs hspans)
      rw [show k - d.length + cl.length = k + cl.length - d.length by omega, show k - d.length - (i - d.length) = k - i by omega] at hx
      rw [drop_append_of_le hi, drop_append_of_le (hi.trans (by omega)), List.take_append, List.take_of_length_le hi] at hdx
      simp [items, hx, hdx]

omit [DecidableEq α] in
@[simp] theorem encode_inl (op cl : List α) (a : α) : encode op cl (.inl a) = [a] := rfl

omit [DecidableEq α] in
@[simp] theorem encode_inr (op cl s : List α) : encode op cl (.inr s) = op ++ (s ++ cl) := rfl

omit [DecidableEq α] in
@[simp] theorem flatMap_encode_inl (op cl t : List α) : (t.map .inl).flatMap (encode op cl) = t := by
  simp [List.flatMap_map]

/-- A first segment lies where it was found. -/
theorem append_of_first (hs : Separators op cl) {t s left : List α} (h : first op cl d = some (t, s, left)) :
    d = t ++ (op ++ (s ++ cl) ++ left) := by
  obtain ⟨i, k, hspans⟩ := spans_of_first h
  have hop := hspans.opens.le hs.opening
  have hcl := hspans.closes.le hs.closing
  have hapart := hs.apart hspans.opens hspans.closes hspans.le
  rw [first_of_spans hs hspans] at h
  cases h
  have hopen : op = (d.drop i).take op.length := List.prefix_iff_eq_take.mp hspans.opens
  have hclose : cl = (d.drop k).take cl.length := List.prefix_iff_eq_take.mp hspans.closes
  have hopen' : op = ((d.drop i).take (k - i)).take op.length := by
    rwa [List.take_take, min_eq_left (by omega)]
  have hsegment : op ++ ((d.drop i).take (k - i)).drop op.length = (d.drop i).take (k - i) := by
    conv => enter [1, 1]; rw [hopen']
    exact List.take_append_drop _ _
  have hheld : d.drop i = (d.drop i).take (k - i) ++ d.drop k := by
    conv => lhs; rw [← List.take_append_drop (k - i) (d.drop i), List.drop_drop, Nat.add_sub_cancel' hspans.le]
  have hclosed : d.drop k = cl ++ d.drop (k + cl.length) := by
    conv => lhs; rw [← List.take_append_drop cl.length (d.drop k), List.drop_drop, ← hclose]
  calc d = d.take i ++ d.drop i := (List.take_append_drop i d).symm
    _ = d.take i ++ ((d.drop i).take (k - i) ++ (cl ++ d.drop (k + cl.length))) := by rw [← hclosed, ← hheld]
    _ = d.take i ++ (op ++ (((d.drop i).take (k - i)).drop op.length ++ cl) ++ d.drop (k + cl.length)) := by
        conv => lhs; rw [← hsegment]
        simp

/-- The texts and the segments make up the stream. -/
theorem flatMap_encode_cut (hs : Separators op cl) (d : List α) :
    ((cut op cl d).1.flatMap fun s => s.1.map .inl ++ [.inr s.2]).flatMap (encode op cl) ++ (cut op cl d).2 = d := by
  induction hn : d.length using Nat.strong_induction_on generalizing d with
  | _ n ih =>
      cases hf : first op cl d with
      | none => simp [cut_of_none hf]
      | some r =>
          obtain ⟨t, s, left⟩ := r
          have hleft := ih _ (hn ▸ length_lt_of_first hs hf) left rfl
          rw [cut_of_some hs hf]
          conv => rhs; rw [append_of_first hs hf, ← hleft]
          simp

theorem items_append (hs : Separators op cl) (d x : List α) :
    items op cl (d ++ x) =
      (cut op cl d).1.flatMap (fun s => s.1.map .inl ++ [.inr s.2]) ++ items op cl ((cut op cl d).2 ++ x) := by
  simp [items, cut_append hs d x]

/-- What comes before the first opening separator is text. -/
theorem not_across_of_find (hs : Separators op cl) {text opened : List α} (hfind : find op (text ++ opened) = some (text, opened)) (x : List α) :
    first op cl text = none ∧ ¬ Across op cl text (opened ++ x) := by
  have hplace : ∀ i, At op (text ++ (opened ++ x)) i → text.length ≤ i := by
    intro i hat
    by_contra hlt
    push Not at hlt
    obtain ⟨-, hop, hne⟩ := find_some hfind
    have hlen := hop.length_le
    have hi : At op (text ++ opened) i := by
      rw [← List.append_assoc] at hat
      exact (at_append_left_iff (by rw [List.length_append]; omega)).mp hat
    classical
    have hex : ∃ i, At op (text ++ opened) i := ⟨i, hi⟩
    have hmin := find_eq_some_of_at hs.opening (Nat.find_spec hex) fun j hj => Nat.find_min hex hj
    rw [hfind] at hmin
    have hle := Nat.find_le (h := hex) hi
    have hlength := congrArg (fun r => (r.map fun r => r.1.length)) hmin
    simp at hlength
    omega
  constructor
  · rw [first_eq_none_iff hs]
    intro i k hle hop hcl
    have hlt := hop.le hs.opening
    have hpos := List.length_pos_of_ne_nil hs.opening
    have hge := hplace i (hop.append_left _)
    omega
  · rintro ⟨r, hf, hlt⟩
    obtain ⟨i, k, hspans⟩ := spans_of_first hf
    have hge := hplace i hspans.opens
    rw [first_of_spans hs hspans] at hf
    cases hf
    rw [List.length_take, List.length_append] at hlt
    omega

theorem first_hold (hs : Separators op cl) (max : ℕ) (hleft : first op cl left = none) : first op cl (hold op max left).2 = none := by
  rw [first_eq_none_iff hs] at hleft ⊢
  intro i k hle hop hcl
  rw [← hold_append op max left] at hleft
  exact hleft _ _ (Nat.add_le_add_left hle _) (at_append_right_iff.mpr hop) (at_append_right_iff.mpr hcl)

/-- What is let go is text, unless a segment is broken. -/
theorem items_hold (hs : Separators op cl) (x : List α) (hu : (hold op max left).2 = [] → ¬ Across op cl left x) :
    items op cl (left ++ x) = (hold op max left).1.map .inl ++ items op cl ((hold op max left).2 ++ x) := by
  by_cases hnil : (hold op max left).2 = []
  · have hlet : (hold op max left).1 = left := by simpa [hnil] using hold_append op max left
    rw [items_of_not_across hs (hu hnil), hlet, hnil, List.nil_append]
  · have hfind : find op ((hold op max left).1 ++ (hold op max left).2) = some ((hold op max left).1, (hold op max left).2) := by
      rw [hold_append, find_of_hold hnil]
    rw [← items_of_not_across hs (not_across_of_find hs hfind x).2, ← List.append_assoc, hold_append]

/-- A stream that comes in chunks gives its items in order, if no segment is broken. -/
theorem itemsOfChunks_of_unbroken (hs : Separators op cl) (hh : first op cl h = none) (hu : Unbroken op cl max h cs) :
    (itemsOfChunks op cl max h cs).1.flatten ++ (itemsOfChunks op cl max h cs).2.map .inl = items op cl (h ++ cs.flatten) := by
  induction cs generalizing h with
  | nil => simp [itemsOfChunks, items, cut_of_none hh]
  | cons c cs ih =>
      have hleft := first_cut hs (h ++ c)
      have hih := ih (first_hold hs max hleft) hu.2
      rw [List.flatten_cons, ← List.append_assoc, items_append hs, items_hold hs _ hu.1, ← hih]
      simp [itemsOfChunks, given, heldBack]

/-- Every chunk is accounted for. -/
theorem flatMap_encode_chunks (hs : Separators op cl) (max : ℕ) (h : List α) (cs : List (List α)) :
    (itemsOfChunks op cl max h cs).1.flatten.flatMap (encode op cl) ++ (itemsOfChunks op cl max h cs).2 = h ++ cs.flatten := by
  induction cs generalizing h with
  | nil => simp [itemsOfChunks]
  | cons c cs ih =>
      have hcut := flatMap_encode_cut hs (h ++ c)
      have hhold := hold_append op max (cut op cl (h ++ c)).2
      have hih := ih (heldBack op cl max (h ++ c))
      rw [List.flatten_cons, ← List.append_assoc h, ← hcut]
      conv => rhs; rw [← hhold]
      rw [List.append_assoc, List.append_assoc]
      change _ = _ ++ (_ ++ (heldBack op cl max (h ++ c) ++ cs.flatten))
      rw [← hih]
      simp [itemsOfChunks, given]

/-- The texts among items. -/
def texts (is : List (Item α)) : List α := is.filterMap Sum.getLeft?

/-- What the segments among items hold. -/
def segments (is : List (Item α)) : List (List α) := is.filterMap Sum.getRight?

omit [DecidableEq α] in
@[simp] theorem texts_append (is js : List (Item α)) : texts (is ++ js) = texts is ++ texts js := List.filterMap_append

omit [DecidableEq α] in
@[simp] theorem segments_append (is js : List (Item α)) : segments (is ++ js) = segments is ++ segments js := List.filterMap_append

omit [DecidableEq α] in
@[simp] theorem texts_inl (t : List α) : texts (t.map .inl) = t := by simp [texts, List.filterMap_map, Function.comp_def]

omit [DecidableEq α] in
@[simp] theorem texts_inl_cons (a : α) (is : List (Item α)) : texts (.inl a :: is) = a :: texts is := rfl

omit [DecidableEq α] in
@[simp] theorem texts_inr_cons (s : List α) (is : List (Item α)) : texts (.inr s :: is) = texts is := rfl

omit [DecidableEq α] in
@[simp] theorem segments_inl_cons (a : α) (is : List (Item α)) : segments (.inl a :: is) = segments is := rfl

omit [DecidableEq α] in
@[simp] theorem segments_inr_cons (s : List α) (is : List (Item α)) : segments (.inr s :: is) = s :: segments is := rfl

theorem texts_items (d : List α) : texts (items op cl d) = text op cl d := by
  simp [texts, items, text, List.filterMap_flatMap, List.filterMap_map, List.filterMap_cons, Function.comp_def]

theorem segments_items (d : List α) : segments (items op cl d) = held op cl d := by
  simp only [segments, items, held, List.filterMap_append, List.filterMap_flatMap, List.filterMap_map]
  simp [Function.comp_def, List.map_eq_flatMap]

/-- A broken segment is text that was none. -/
theorem length_text_le (hs : Separators op cl) (x : List α) (hd : first op cl d = none) :
    (text op cl (d ++ x)).length ≤ d.length + (text op cl x).length ∧
      (Across op cl d x → (text op cl (d ++ x)).length < d.length + (text op cl x).length) := by
  by_cases hacross : Across op cl d x
  · obtain ⟨b, s, z, r, rfl, hhead, hx, hdx, -⟩ := cut_of_across hs hd hacross
    have hpos : 0 < s.length := by
      cases s with
      | nil =>
          have hop := List.length_pos_of_ne_nil hs.opening
          cases op <;> simp_all
      | cons a s => simp
    rw [hx, hdx]
    simp
    omega
  · rw [(cut_of_not_across hs hd hacross).1]
    simp [hacross]

/-- What is let go and the text of what comes after it are at least the text of both. -/
theorem length_text_hold (hs : Separators op cl) (max : ℕ) (x : List α) (hleft : first op cl left = none) :
    (text op cl (left ++ x)).length ≤ (hold op max left).1.length + (text op cl ((hold op max left).2 ++ x)).length ∧
      (¬ ((hold op max left).2 = [] → ¬ Across op cl left x) →
        (text op cl (left ++ x)).length < (hold op max left).1.length + (text op cl ((hold op max left).2 ++ x)).length) := by
  by_cases hnil : (hold op max left).2 = []
  · have hlet : (hold op max left).1 = left := by simpa [hnil] using hold_append op max left
    have hlength := length_text_le hs x hleft
    simpa [hnil, hlet] using hlength
  · have hkept : (hold op max left).2 = [] → ¬ Across op cl left x := fun h => absurd h hnil
    have hheld := items_hold hs x hkept
    have htexts := congrArg (fun is => (texts is).length) hheld
    simp only [texts_append, texts_inl, texts_items, List.length_append] at htexts
    exact ⟨htexts.le, fun h => absurd (fun h' => absurd h' hnil) h⟩

/-- The text that the chunks give with what is held back is longer than that of the stream if a segment is broken. -/
theorem length_texts_chunks (hs : Separators op cl) (max : ℕ) (cs : List (List α)) (hh : first op cl h = none) :
    (text op cl (h ++ cs.flatten)).length ≤
        (texts (itemsOfChunks op cl max h cs).1.flatten).length + (itemsOfChunks op cl max h cs).2.length ∧
      (¬ Unbroken op cl max h cs → (text op cl (h ++ cs.flatten)).length <
        (texts (itemsOfChunks op cl max h cs).1.flatten).length + (itemsOfChunks op cl max h cs).2.length) := by
  induction cs generalizing h with
  | nil =>
      have hcut : text op cl h = h := text_of_held_nil hs (by simp [held, cut_of_none hh])
      simp [itemsOfChunks, Unbroken, texts, hcut]
  | cons c cs ih =>
      have hleft := first_cut hs (h ++ c)
      have hlength := length_text_hold hs max cs.flatten hleft
      have hih := ih (first_hold hs max hleft)
      have hwhole := (text_append hs (h ++ c) cs.flatten).1
      have htexts : texts (itemsOfChunks op cl max h (c :: cs)).1.flatten = (cut op cl (h ++ c)).1.flatMap (·.1) ++
          ((hold op max (cut op cl (h ++ c)).2).1 ++
            texts (itemsOfChunks op cl max (hold op max (cut op cl (h ++ c)).2).2 cs).1.flatten) := by
        simp [itemsOfChunks, given, heldBack, texts, List.filterMap_flatMap, List.filterMap_cons, List.filterMap_map, Function.comp_def]
      rw [List.flatten_cons, ← List.append_assoc, hwhole, htexts]
      simp only [List.length_append, itemsOfChunks, Unbroken, heldBack, not_and_or] at hlength hih ⊢
      refine ⟨by omega, fun hbroken => ?_⟩
      rcases hbroken with hbroken | hbroken
      · have := hlength.2 hbroken
        omega
      · have := hih.2 hbroken
        omega

/-- The bytes of the items are as many as the texts and the segments have. -/
theorem length_flatMap_encode (op cl : List α) (is : List (Item α)) :
    (is.flatMap (encode op cl)).length = (texts is).length + ((segments is).map fun s => op.length + (s.length + cl.length)).sum := by
  induction is with
  | nil => rfl
  | cons i is ih =>
      cases i with
      | inl a =>
          rw [List.flatMap_cons, List.length_append, ih, texts_inl_cons, segments_inl_cons]
          simp
          omega
      | inr s =>
          rw [List.flatMap_cons, List.length_append, ih, texts_inr_cons, segments_inr_cons]
          simp
          omega

/-- Where the chunks give all the segments of the stream, none is broken. -/
theorem unbroken_of_segments (hs : Separators op cl) (hh : first op cl h = none)
    (hp : held op cl (h ++ cs.flatten) <+: segments (itemsOfChunks op cl max h cs).1.flatten) : Unbroken op cl max h cs := by
  by_contra hbroken
  have hlt := (length_texts_chunks hs max cs hh).2 hbroken
  have hbytes := congrArg List.length (flatMap_encode_chunks hs max h cs)
  have hitems : (items op cl (h ++ cs.flatten)).flatMap (encode op cl) = h ++ cs.flatten := by
    rw [items, List.flatMap_append, flatMap_encode_inl, flatMap_encode_cut hs]
  have hcount := congrArg List.length hitems
  obtain ⟨more, hmore⟩ := hp
  rw [length_flatMap_encode, texts_items, segments_items] at hcount
  rw [List.length_append, length_flatMap_encode, ← hmore, List.map_append, List.sum_append] at hbytes
  omega

/-- The chunks give the segments of the stream if none is broken. -/
theorem segments_of_unbroken (hs : Separators op cl) (hh : first op cl h = none) (hu : Unbroken op cl max h cs) :
    segments (itemsOfChunks op cl max h cs).1.flatten = held op cl (h ++ cs.flatten) := by
  rw [← segments_items, ← itemsOfChunks_of_unbroken hs hh hu]
  simp [segments, List.filterMap_map, Function.comp_def]

end Chunks

end Brackets
