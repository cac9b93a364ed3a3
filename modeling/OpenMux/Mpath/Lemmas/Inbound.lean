import OpenMux.Mpath.Ends

/-!
# What one step of a receive handler can do

Inversion lemmas for `handleInboundData`, `enforceOrder` and `resume`. Later proofs split on these and never unfold the
functions.
-/

namespace OpenMux.Mpath

variable {r r' r₁ : Rx} {st : RxState} {g now : Int} {c : ConnId} {f : DataFrame} {rec : ConnRec}

/-! ## The generation check, when the generation does not change -/

/-- `r₁` is `r` with a state entry: what the generation check and `setdefault` leave for the order check. -/
structure Rx.Opens (r r₁ : Rx) (st : RxState) (inst : Option InstanceId) : Prop where
  state : r₁.state = some st
  handlers : r₁.handlers = r.handlers
  expected : st.expected = r.expected
  gap : st.gapSince = r.state.bind RxState.gapSince
  old : ∀ st₀, r.state = some st₀ → r₁.buffers = r.buffers ∧ st.buffer = st₀.buffer
  new : r.state = none → r₁.buffers st.buffer = ∅
  inst : st.instanceId = none ∨ st.instanceId = inst

/-- The state entry has no instance id, or the one of the connection. -/
def Rx.SameInstance (r : Rx) (inst : Option InstanceId) : Prop :=
  ∀ st, r.state = some st → st.instanceId = none ∨ st.instanceId = inst

theorem Rx.Opens.sameInstance {inst} (h : r.Opens r₁ st inst) : r₁.SameInstance inst := by
  intro st' hs
  rw [h.state, Option.some.injEq] at hs
  subst hs
  exact h.inst

theorem Rx.Opens.gapExpired {inst} (h : r.Opens r₁ st inst) : r₁.gapExpired g now = r.gapExpired g now := by
  simp [Rx.gapExpired, h.state, h.gap]

theorem Rx.Opens.refl {inst} (hs : r.state = some st) (hi : st.instanceId = none ∨ st.instanceId = inst) :
    r.Opens r st inst where
  state := hs
  handlers := rfl
  expected := by simp [Rx.expected, hs]
  gap := by simp [hs]
  old := by
    intro st₀ h₀
    rw [hs, Option.some.injEq] at h₀
    subst h₀
    exact ⟨rfl, rfl⟩
  new := by intro h₀; rw [hs] at h₀; cases h₀
  inst := hi

theorem enforceOrder_setdefault : r.enforceOrder g c f now = r.setdefault.2.enforceOrder g c f now := by
  cases hs : r.state with
  | none => simp [Rx.enforceOrder, Rx.setdefault, hs]
  | some st => simp [Rx.enforceOrder, Rx.setdefault, hs]

theorem opens_setdefault {inst} (hs : r.state = none) : r.Opens r.setdefault.2 r.setdefault.1 inst where
  state := by simp [Rx.setdefault, hs]
  handlers := by simp [Rx.setdefault, hs, Rx.newBuffer]
  expected := by simp [Rx.setdefault, hs, Rx.expected]
  gap := by simp [Rx.setdefault, hs]
  old := by intro st₀ h₀; rw [hs] at h₀; cases h₀
  new := by intro _; simp [Rx.setdefault, hs, Rx.newBuffer]
  inst := by simp [Rx.setdefault, hs]

/-- Under one instance id the generation check drops nothing and resets nothing. -/
theorem handleInboundData_same (g now : Int) (c : ConnId) (f : DataFrame) (rec : ConnRec) (hi : r.SameInstance rec.instanceId) :
    ∃ r₁ st, r.Opens r₁ st rec.instanceId ∧
      r.handleInboundData g rec c f now = { r₁.enforceOrder g c f now with reset := false } := by
  cases hinst : rec.instanceId with
  | none =>
      have hres : r.maybeResyncPeerGeneration rec = (false, false, r) := by
        simp [Rx.maybeResyncPeerGeneration, hinst]
      cases hs : r.state with
      | none =>
          refine ⟨_, _, opens_setdefault hs, ?_⟩
          rw [← enforceOrder_setdefault]
          simp [Rx.handleInboundData, hres]
      | some st =>
          refine ⟨r, st, .refl hs ?_, by simp [Rx.handleInboundData, hres]⟩
          simpa [hinst] using hi st hs
  | some inst =>
      cases hs : r.state with
      | none =>
          let st : RxState := { buffer := r.nextBuf, instanceId := some inst, instanceSince := rec.openedAt }
          refine ⟨{ r.newBuffer with state := some st }, st, ?_, ?_⟩
          · exact
              { state := rfl, handlers := rfl, expected := by simp [st, Rx.expected, hs], gap := by simp [st, hs]
                old := by intro st₀ h₀; rw [hs] at h₀; cases h₀
                new := by intro _; simp [st, Rx.newBuffer]
                inst := Or.inr rfl }
          · simp [Rx.handleInboundData, Rx.maybeResyncPeerGeneration, hinst, hs, st]
      | some st =>
          rcases hi st hs with hn | hsome
          · let st' : RxState := { st with instanceId := some inst, instanceSince := rec.openedAt }
            refine ⟨{ r with state := some st' }, st', ?_, ?_⟩
            · exact
                { state := rfl, handlers := rfl, expected := by simp [st', Rx.expected, hs], gap := by simp [st', hs]
                  old := by
                    intro st₀ h₀
                    rw [hs, Option.some.injEq] at h₀
                    subst h₀
                    exact ⟨rfl, rfl⟩
                  new := by intro h₀; rw [hs] at h₀; cases h₀
                  inst := Or.inr rfl }
            · simp [Rx.handleInboundData, Rx.maybeResyncPeerGeneration, hinst, hs, hn, st']
          · rw [hinst] at hsome
            refine ⟨r, st, .refl hs (Or.inr hsome), ?_⟩
            simp [Rx.handleInboundData, Rx.maybeResyncPeerGeneration, hinst, hs, hsome]

/-! ## The order check -/

theorem min?_keys_set_isSome (d : Dict Nat Payload) (n : Nat) (pl : Payload) :
    ∃ m p, (d.set n pl).keys.min? = some m ∧ (d.set n pl).get? m = some p := by
  have hn : n ∈ (d.set n pl).keys := Dict.mem_keys_set.mpr (Or.inl rfl)
  cases hm : (d.set n pl).keys.min? with
  | none => rw [List.min?_eq_none_iff] at hm; rw [hm] at hn; cases hn
  | some m =>
      obtain ⟨p, hp⟩ := Dict.mem_keys.mp (List.min?_mem hm)
      exact ⟨m, p, rfl, hp⟩

/-- The four branches of the order check: a stale number is dropped, the expected one handed over, a later one buffered,
and with the gap timer expired the buffer is flushed from its lowest number. -/
theorem enforceOrder_cases (g now : Int) (c : ConnId) (f : DataFrame) (hs : r.state = some st) :
    (f.seq < st.expected ∧ r.enforceOrder g c f now = { rx := r, ack := some f.seq }) ∨
    (f.seq = st.expected ∧ r.enforceOrder g c f now =
      { rx := { r with handlers := r.handlers.set c ⟨.deliver, f.seq, f.seq, st.buffer⟩ }, routed := some f }) ∨
    (st.expected < f.seq ∧ ¬ r.gapExpired g now ∧ ∃ gap, r.enforceOrder g c f now =
      { rx := { r with
          state := some { st with gapSince := gap }
          buffers := Function.update r.buffers st.buffer ((r.buffers st.buffer).set f.seq f.payload) }
        ack := some f.seq }) ∨
    (st.expected < f.seq ∧ r.gapExpired g now ∧ ∃ low pl,
      ((r.buffers st.buffer).set f.seq f.payload).keys.min? = some low ∧
      ((r.buffers st.buffer).set f.seq f.payload).get? low = some pl ∧
      r.enforceOrder g c f now =
      { rx := { r with
          state := some { st with gapSince := none }
          buffers := Function.update r.buffers st.buffer (((r.buffers st.buffer).set f.seq f.payload).pop low)
          handlers := r.handlers.set c ⟨.flush, f.seq, low, st.buffer⟩ }
        routed := some ⟨low, pl⟩
        givenUp := List.range' st.expected (low - st.expected) }) := by
  rcases Nat.lt_trichotomy f.seq st.expected with hlt | heq | hgt
  · exact Or.inl ⟨hlt, by simp [Rx.enforceOrder, Rx.setdefault, hs, hlt]⟩
  · exact Or.inr (Or.inl ⟨heq, by simp [Rx.enforceOrder, Rx.setdefault, hs, heq]⟩)
  · have h₁ : ¬ f.seq < st.expected := by omega
    have h₂ : ¬ f.seq = st.expected := by omega
    right; right
    cases hg : st.gapSince with
    | none =>
        refine Or.inl ⟨hgt, by simp [Rx.gapExpired, hs, hg], some now, ?_⟩
        simp [Rx.enforceOrder, Rx.setdefault, hs, h₁, h₂, hg]
    | some t =>
        by_cases ht : g ≤ now - t
        · obtain ⟨low, pl, hlow, hpl⟩ := min?_keys_set_isSome (r.buffers st.buffer) f.seq f.payload
          refine Or.inr ⟨hgt, by simp [Rx.gapExpired, hs, hg, ht], low, pl, hlow, hpl, ?_⟩
          simp [Rx.enforceOrder, Rx.setdefault, hs, h₁, h₂, hg, ht, Rx.flushStuckGap, hlow, hpl]
        · refine Or.inl ⟨hgt, by simpa [Rx.gapExpired, hs, hg] using ht, st.gapSince, ?_⟩
          simp only [Rx.enforceOrder, Rx.setdefault, hs, h₁, h₂, hg, ht, ↓reduceIte]
          congr
          cases st; cases hg; rfl

/-! ## The handler goes on -/

/-- A handler that goes on pops the next number, or writes its count back. -/
theorem resume_cases {o : RxOut} (h : r.resume c = some o) :
    ∃ hd, r.handlers.get? c = some hd ∧
      ((∃ pl, (r.buffers hd.buf).get? (hd.cur + 1) = some pl ∧ o =
        { rx := { r with
            buffers := Function.update r.buffers hd.buf ((r.buffers hd.buf).pop (hd.cur + 1))
            handlers := r.handlers.set c { hd with cur := hd.cur + 1 } }
          routed := some ⟨hd.cur + 1, pl⟩ }) ∨
      ((r.buffers hd.buf).get? (hd.cur + 1) = none ∧ o =
        { rx := { r with
            state := r.state.map fun st => match hd.branch with
              | .deliver => { st with expected := hd.cur + 1, gapSince := none }
              | .flush => { st with expected := hd.cur + 1 }
            handlers := r.handlers.pop c }
          ack := some hd.seq })) := by
  simp only [Rx.resume, Option.map_eq_some_iff] at h
  obtain ⟨hd, hget, ho⟩ := h
  refine ⟨hd, hget, ?_⟩
  cases hn : (r.buffers hd.buf).get? (hd.cur + 1) with
  | some pl =>
      rw [hn] at ho
      exact Or.inl ⟨pl, rfl, ho.symm⟩
  | none =>
      rw [hn] at ho
      exact Or.inr ⟨rfl, ho.symm⟩

theorem enforceOrder_sameInstance {inst} (hs : r.state = some st) (h : r.SameInstance inst) :
    (r.enforceOrder g c f now).rx.SameInstance inst := by
  have hi := h st hs
  intro st' hs'
  rcases enforceOrder_cases g now c f hs with
    ⟨_, he⟩ | ⟨_, he⟩ | ⟨_, _, gap, he⟩ | ⟨_, _, low, pl, _, _, he⟩ <;> rw [he] at hs'
  · exact h st' hs'
  · exact h st' hs'
  · cases hs'; exact hi
  · cases hs'; exact hi

theorem resume_sameInstance {inst} {o : RxOut} (ho : r.resume c = some o) (h : r.SameInstance inst) :
    o.rx.SameInstance inst := by
  obtain ⟨hd, _, hcase⟩ := resume_cases ho
  rcases hcase with ⟨pl, _, rfl⟩ | ⟨_, rfl⟩
  · exact h
  · intro st' hs'
    obtain ⟨st, hs, rfl⟩ := Option.map_eq_some_iff.mp hs'
    have hi := h st hs
    cases hd.branch <;> exact hi

/-! ## What the buffers hold -/

variable {P : DataFrame → Prop}

/-- Every frame in a reorder buffer meets `P`. -/
def Rx.All (P : DataFrame → Prop) (r : Rx) : Prop := ∀ k n pl, (r.buffers k).get? n = some pl → P ⟨n, pl⟩

namespace Rx.All

theorem initial : Rx.All P {} := by intro k n pl h; cases h

theorem mono {Q : DataFrame → Prop} (h : r.All P) (hPQ : ∀ f, P f → Q f) : r.All Q :=
  fun k n pl hn => hPQ _ (h k n pl hn)

theorem of_buffers (h : r.All P) (hb : r'.buffers = r.buffers) : r'.All P := by
  intro k n pl hn
  rw [hb] at hn
  exact h k n pl hn

theorem update (h : r.All P) {k : Nat} {d : Dict Nat Payload} (hd : ∀ n pl, d.get? n = some pl → P ⟨n, pl⟩)
    (hb : r'.buffers = Function.update r.buffers k d) : r'.All P := by
  intro k' n pl hn
  rw [hb, Function.update_apply] at hn
  split at hn
  · exact hd n pl hn
  · exact h k' n pl hn

theorem newBuffer (h : r.All P) : r.newBuffer.All P :=
  h.update (by intro n pl hn; cases hn) (show r.newBuffer.buffers = Function.update r.buffers r.nextBuf ∅ from rfl)

theorem setdefault (h : r.All P) : r.setdefault.2.All P := by
  cases hs : r.state with
  | none =>
      simp only [Rx.setdefault, hs]
      exact h.newBuffer.of_buffers rfl
  | some st => simpa [Rx.setdefault, hs] using h

theorem maybeResync (rec : ConnRec) (h : r.All P) : (r.maybeResyncPeerGeneration rec).2.2.All P := by
  unfold Rx.maybeResyncPeerGeneration
  split
  · exact h
  · split
    · exact h.newBuffer.of_buffers rfl
    · split
      · exact h.of_buffers rfl
      · split
        · exact h
        · split
          · exact h
          · exact h.newBuffer.of_buffers rfl

theorem enforceOrder (h : r.All P) (hf : P f) :
    (r.enforceOrder g c f now).rx.All P ∧ ∀ f', (r.enforceOrder g c f now).routed = some f' → P f' := by
  rw [enforceOrder_setdefault]
  obtain ⟨st, hs⟩ : ∃ st, r.setdefault.2.state = some st := by
    cases hs : r.state with
    | none => exact ⟨r.setdefault.1, by simp [Rx.setdefault, hs]⟩
    | some st => exact ⟨st, by simp [Rx.setdefault, hs]⟩
  have h₁ := h.setdefault
  generalize r.setdefault.2 = r₁ at hs h₁ ⊢
  have hset : ∀ n pl, ((r₁.buffers st.buffer).set f.seq f.payload).get? n = some pl → P ⟨n, pl⟩ := by
    intro n pl hn
    rw [Dict.get?_set] at hn
    split at hn
    · cases hn
      subst_vars
      exact hf
    · exact h₁ _ n pl hn
  rcases enforceOrder_cases g now c f hs with
    ⟨_, he⟩ | ⟨_, he⟩ | ⟨_, _, gap, he⟩ | ⟨_, _, low, pl, _, hpl, he⟩
  · rw [he]
    exact ⟨h₁, by intro f' hf'; cases hf'⟩
  · rw [he]
    refine ⟨h₁.of_buffers rfl, ?_⟩
    intro f' hf'
    cases hf'
    exact hf
  · rw [he]
    exact ⟨h₁.update hset rfl, by intro f' hf'; cases hf'⟩
  · rw [he]
    refine ⟨h₁.update (fun n pl hn => hset n pl (Dict.get?_of_get?_pop hn)) rfl, ?_⟩
    intro f' hf'
    cases hf'
    exact hset low pl hpl

theorem handleInboundData (g now : Int) (c : ConnId) (rec : ConnRec) (h : r.All P) (hf : P f) : (r.handleInboundData g rec c f now).rx.All P ∧
    ∀ f', (r.handleInboundData g rec c f now).routed = some f' → P f' := by
  have h₁ := h.maybeResync rec
  unfold Rx.handleInboundData
  split
  rename_i stale reset r₁ hm
  rw [hm] at h₁
  split
  · exact ⟨h₁, by intro f' hf'; cases hf'⟩
  · exact Rx.All.enforceOrder h₁ hf

theorem resume (h : r.All P) {o : RxOut} (ho : r.resume c = some o) :
    o.rx.All P ∧ ∀ f', o.routed = some f' → P f' := by
  obtain ⟨hd, _, hcase⟩ := resume_cases ho
  rcases hcase with ⟨pl, hpl, rfl⟩ | ⟨_, rfl⟩
  · refine ⟨h.update (fun n pl hn => h _ n pl (Dict.get?_of_get?_pop hn)) rfl, ?_⟩
    intro f' hf'
    cases hf'
    exact h _ _ pl hpl
  · exact ⟨h.of_buffers rfl, by intro f' hf'; cases hf'⟩

theorem cancel (h : r.All P) (hc : r.cancel c = some r') : r'.All P := by
  simp only [Rx.cancel, Option.map_eq_some_iff] at hc
  obtain ⟨hd, _, rfl⟩ := hc
  exact h.of_buffers rfl

end Rx.All

end OpenMux.Mpath
