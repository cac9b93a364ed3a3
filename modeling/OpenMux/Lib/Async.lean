import OpenMux.Lib.Dict
import OpenMux.Lib.Run

/-!
# Coroutines that wait, raise and are cancelled

A coroutine changes the state, waits for a signal, raises or returns. Nothing else happens between two waits. A pool holds
one waiting coroutine under each key, and its runs are the interleavings at the waits.

`Safe` is a rely-guarantee judgement: while the coroutine waits, the state may change as its rely relation says, and each
change of its own must be one that the others rely on.
-/

universe u

/-- `σ` is the state, `ε` what may be raised, `ι` the signals that end a wait. -/
inductive Async (σ ε ι ρ : Type) where
  | ret (r : ρ)
  | throw (e : ε)
  /-- Changes the state; the rest depends on the state before. -/
  | act (f : σ → σ) (k : σ → Async σ ε ι ρ)
  | await (k : ι → Async σ ε ι ρ)

namespace Async

variable {σ ε ι ρ τ : Type}

def bind : Async σ ε ι ρ → (ρ → Async σ ε ι τ) → Async σ ε ι τ
  | ret r, k => k r
  | throw e, _ => throw e
  | act f c, k => act f fun s => (c s).bind k
  | await c, k => await fun i => (c i).bind k

instance : Monad (Async σ ε ι) where
  pure := ret
  bind := bind

def get : Async σ ε ι σ := act id ret

def modify (f : σ → σ) : Async σ ε ι Unit := act f fun _ => ret ()

/-- A function that neither waits nor raises. -/
def lift (f : σ → σ × ρ) : Async σ ε ι ρ := act (fun s => (f s).1) fun s => ret (f s).2

/-- `try: c except e: h(e)`. -/
def tryCatch : Async σ ε ι ρ → (ε → Async σ ε ι ρ) → Async σ ε ι ρ
  | ret r, _ => ret r
  | throw e, h => h e
  | act f c, h => act f fun s => (c s).tryCatch h
  | await c, h => await fun i => (c i).tryCatch h

/-- `try: c finally: f`. What `f` raises replaces what `c` raised. -/
def tryFinally : Async σ ε ι ρ → Async σ ε ι Unit → Async σ ε ι ρ
  | ret r, f => f.bind fun _ => ret r
  | throw e, f => f.bind fun _ => throw e
  | act g c, f => act g fun s => (c s).tryFinally f
  | await c, f => await fun i => (c i).tryFinally f

/-! ## Segments -/

/-- How a segment ends. -/
inductive Outcome (σ ε ι ρ : Type)
  | finished (r : ρ)
  | raised (e : ε)
  | waiting (k : ι → Async σ ε ι ρ)

/-- Runs to the next wait or to the end. -/
def resume : Async σ ε ι ρ → σ → σ × Outcome σ ε ι ρ
  | ret r, s => (s, .finished r)
  | throw e, s => (s, .raised e)
  | act f k, s => resume (k s) (f s)
  | await k, s => (s, .waiting k)

/-! ## Rely and guarantee -/

/-- The coroutine, run from the state on, keeps the invariant `I`, changes the state only as `G` says, and ends as `Q` or `E`
says, as long as others keep `I` and change the state as `R` says, and each signal is one that `A` allows. -/
def Safe (I : σ → Prop) (R G : σ → σ → Prop) (A : σ → ι → Prop) (Q : σ → ρ → Prop) (E : σ → ε → Prop) :
    Async σ ε ι ρ → σ → Prop
  | ret r, s => Q s r
  | throw e, s => E s e
  | act f k, s => I (f s) ∧ G s (f s) ∧ Safe I R G A Q E (k s) (f s)
  | await k, s => ∀ t, I t → R s t → ∀ i, A t i → Safe I R G A Q E (k i) t

section Safe

variable {I : σ → Prop} {R G : σ → σ → Prop} {A : σ → ι → Prop} {Q : σ → ρ → Prop} {E : σ → ε → Prop} {s : σ}

@[simp] theorem safe_pure {r : ρ} : Safe I R G A Q E (pure r) s ↔ Q s r := Iff.rfl

@[simp] theorem safe_throw {e : ε} : Safe I R G A Q E (throw e) s ↔ E s e := Iff.rfl

@[simp] theorem safe_modify {f : σ → σ} {Q : σ → Unit → Prop} :
    Safe I R G A Q E (modify f) s ↔ I (f s) ∧ G s (f s) ∧ Q (f s) () := Iff.rfl

@[simp] theorem safe_lift {f : σ → σ × ρ} :
    Safe I R G A Q E (lift f) s ↔ I (f s).1 ∧ G s (f s).1 ∧ Q (f s).1 (f s).2 := Iff.rfl

theorem safe_get {Q : σ → σ → Prop} (hI : I s) (hG : G s s) : Safe I R G A Q E get s ↔ Q s s :=
  ⟨fun h => h.2.2, fun h => ⟨hI, hG, h⟩⟩

theorem safe_await {k : ι → Async σ ε ι ρ} :
    Safe I R G A Q E (await k) s ↔ ∀ t, I t → R s t → ∀ i, A t i → Safe I R G A Q E (k i) t := Iff.rfl

@[simp] theorem safe_bind {c : Async σ ε ι ρ} {k : ρ → Async σ ε ι τ} {Q : σ → τ → Prop} :
    Safe I R G A Q E (c >>= k) s ↔ Safe I R G A (fun t r => Safe I R G A Q E (k r) t) E c s := by
  show Safe I R G A Q E (c.bind k) s ↔ _
  induction c generalizing s with
  | ret r => exact Iff.rfl
  | throw e => exact Iff.rfl
  | act f c ih => exact and_congr_right fun _ => and_congr_right fun _ => ih s
  | await c ih =>
      exact forall_congr' fun t => forall_congr' fun _ => forall_congr' fun _ => forall_congr' fun i => forall_congr' fun _ => ih i

@[simp] theorem safe_tryCatch {c : Async σ ε ι ρ} {h : ε → Async σ ε ι ρ} :
    Safe I R G A Q E (tryCatch c h) s ↔ Safe I R G A Q (fun t e => Safe I R G A Q E (h e) t) c s := by
  induction c generalizing s with
  | ret r => exact Iff.rfl
  | throw e => exact Iff.rfl
  | act f c ih => exact and_congr_right fun _ => and_congr_right fun _ => ih s
  | await c ih =>
      exact forall_congr' fun t => forall_congr' fun _ => forall_congr' fun _ => forall_congr' fun i => forall_congr' fun _ => ih i

@[simp] theorem safe_tryFinally {c : Async σ ε ι ρ} {f : Async σ ε ι Unit} :
    Safe I R G A Q E (tryFinally c f) s ↔ Safe I R G A (fun t r => Safe I R G A (fun u _ => Q u r) E f t)
      (fun t e => Safe I R G A (fun u _ => E u e) E f t) c s := by
  induction c generalizing s with
  | ret r => exact safe_bind
  | throw e => exact safe_bind
  | act g c ih => exact and_congr_right fun _ => and_congr_right fun _ => ih s
  | await c ih =>
      exact forall_congr' fun t => forall_congr' fun _ => forall_congr' fun _ => forall_congr' fun i => forall_congr' fun _ => ih i

/-- What the end meets may be weakened. -/
theorem Safe.mono {Q' : σ → ρ → Prop} {E' : σ → ε → Prop} {c : Async σ ε ι ρ} (h : Safe I R G A Q E c s)
    (hQ : ∀ t r, Q t r → Q' t r) (hE : ∀ t e, E t e → E' t e) : Safe I R G A Q' E' c s := by
  induction c generalizing s with
  | ret r => exact hQ _ _ h
  | throw e => exact hE _ _ h
  | act f c ih => exact ⟨h.1, h.2.1, ih s h.2.2⟩
  | await c ih => exact fun t hI hR i hA => ih i (h t hI hR i hA)

/-- A segment keeps the invariant and the guarantee, and what is left is safe. -/
theorem Safe.resume {c : Async σ ε ι ρ} (hI : I s) (hrefl : ∀ t, G t t) (htrans : ∀ t u v, G t u → G u v → G t v)
    (h : Safe I R G A Q E c s) : I (c.resume s).1 ∧ G s (c.resume s).1 ∧ match (c.resume s).2 with
      | .finished r => Q (c.resume s).1 r
      | .raised e => E (c.resume s).1 e
      | .waiting k => Safe I R G A Q E (await k) (c.resume s).1 := by
  induction c generalizing s with
  | ret r => exact ⟨hI, hrefl s, h⟩
  | throw e => exact ⟨hI, hrefl s, h⟩
  | await c _ => exact ⟨hI, hrefl s, h⟩
  | act f c ih =>
      obtain ⟨hf, hg, hrest⟩ := h
      obtain ⟨hi, hg', hout⟩ := ih s hf hrest
      exact ⟨hi, htrans _ _ _ hg hg', hout⟩

end Safe

/-! ## Pools -/

/-- Coroutines that wait, each under its key. -/
structure Pool (κ σ ε ι : Type) where
  state : σ
  tasks : Dict κ (ι → Async σ ε ι Unit) := ∅

/-- `signal` ends a wait; an `op` changes the state and may start a coroutine, which waits for its first signal. -/
inductive PoolAct (κ ι ο : Type)
  | signal (k : κ) (i : ι)
  | op (o : ο)

namespace Pool

variable {κ ο : Type} [DecidableEq κ]

/-- Gives the signal to the coroutine under the key. -/
def signal (p : Pool κ σ ε ι) (k : κ) (i : ι) (rest : ι → Async σ ε ι Unit) : Pool κ σ ε ι :=
  match (rest i).resume p.state with
  | (s, .waiting rest) => { state := s, tasks := p.tasks.set k rest }
  | (s, .finished _) | (s, .raised _) => { state := s, tasks := p.tasks.pop k }

variable (accept : σ → κ → ι → Option σ) (op : σ → ο → Option (σ × Option (κ × (ι → Async σ ε ι Unit))))

/-- `accept` takes a signal for a coroutine, or refuses it. -/
def step (p : Pool κ σ ε ι) : PoolAct κ ι ο → Option (Pool κ σ ε ι)
  | .signal k i =>
      match accept p.state k i, p.tasks.get? k with
      | some s, some rest => some (Pool.signal { p with state := s } k i rest)
      | _, _ => none
  | .op o => (op p.state o).map fun
      | (s, none) => { p with state := s }
      | (s, some (k, rest)) => { state := s, tasks := p.tasks.set k rest }

/-! ## Sound pools -/

variable (Known : κ → σ → Prop) (I : σ → Prop) (R : κ → σ → σ → Prop) (A : κ → σ → ι → Prop) (Q : κ → σ → Prop)

/-- The changes of the coroutine under a key: those that all others rely on. -/
def Guarantee (k : κ) (s s' : σ) : Prop := (Known k s ↔ Known k s') ∧ ∀ l, l ≠ k → R l s s'

/-- A coroutine that waits, and whose rest is safe. -/
def SafeTask (k : κ) (rest : ι → Async σ ε ι Unit) (s : σ) : Prop :=
  Async.Safe I (R k) (Guarantee Known R k) (A k) (fun t _ => Q k t) (fun t _ => Q k t) (await rest) s

/-- The invariant holds, every coroutine is safe, and every one that has ended is as it should be. -/
structure Sound (p : Pool κ σ ε ι) : Prop where
  state : I p.state
  known : ∀ k rest, p.tasks.get? k = some rest → Known k p.state
  tasks : ∀ k rest, p.tasks.get? k = some rest → SafeTask Known I R A Q k rest p.state
  ended : ∀ k, Known k p.state → p.tasks.get? k = none → Q k p.state

/-- The relies are preorders that do not change which keys are known, and keep what holds at the end. -/
structure Relies : Prop where
  refl : ∀ k s, R k s s
  trans : ∀ k s t u, R k s t → R k t u → R k s u
  known : ∀ k s t, R k s t → (Known k s ↔ Known k t)
  ends : ∀ k s t, I s → I t → R k s t → Q k s → Q k t

/-- What an operation leads to. -/
structure OpSound (s s' : σ) (spawn : Option (κ × (ι → Async σ ε ι Unit))) : Prop where
  state : I s'
  rely : ∀ k, Known k s → R k s s'
  fresh : ∀ k rest, spawn = some (k, rest) → ¬ Known k s ∧ Known k s' ∧ SafeTask Known I R A Q k rest s'
  known : ∀ k, Known k s' → Known k s ∨ ∃ rest, spawn = some (k, rest)

variable {Known I R A Q} {accept : σ → κ → ι → Option σ} {op : σ → ο → Option (σ × Option (κ × (ι → Async σ ε ι Unit)))}

theorem SafeTask.rely {k : κ} {rest : ι → Async σ ε ι Unit} {s t : σ} (hR : Relies Known I R Q)
    (h : SafeTask Known I R A Q k rest s) (hst : R k s t) : SafeTask Known I R A Q k rest t :=
  fun u hI hu i hA => h u hI (hR.trans k s t u hst hu) i hA

theorem guarantee_refl (hR : Relies Known I R Q) (k : κ) (s : σ) : Guarantee Known R k s s :=
  ⟨Iff.rfl, fun l _ => hR.refl l s⟩

theorem guarantee_trans (hR : Relies Known I R Q) (k : κ) (s t u : σ) (hst : Guarantee Known R k s t)
    (htu : Guarantee Known R k t u) : Guarantee Known R k s u :=
  ⟨hst.1.trans htu.1, fun l hl => hR.trans l s t u (hst.2 l hl) (htu.2 l hl)⟩

/-- A signal that is allowed keeps a pool sound. -/
theorem Sound.signal {p : Pool κ σ ε ι} (hR : Relies Known I R Q) (h : p.Sound Known I R A Q) {k : κ} {i : ι}
    {rest : ι → Async σ ε ι Unit} (hk : p.tasks.get? k = some rest) (hA : A k p.state i) :
    (p.signal k i rest).Sound Known I R A Q := by
  have hsafe := h.tasks k rest hk p.state h.state (hR.refl k p.state) i hA
  obtain ⟨hI, hG, hout⟩ := hsafe.resume h.state (guarantee_refl hR k) (guarantee_trans hR k)
  have hothers : ∀ l rest', l ≠ k → p.tasks.get? l = some rest' →
      SafeTask Known I R A Q l rest' ((rest i).resume p.state).1 := fun l rest' hl ht =>
    (h.tasks l rest' ht).rely hR (hG.2 l hl)
  have hknown : ∀ l, Known l ((rest i).resume p.state).1 ↔ Known l p.state := by
    intro l
    by_cases hl : l = k
    · subst hl; exact hG.1.symm
    · exact (hR.known l _ _ (hG.2 l hl)).symm
  have hended : ∀ l, l ≠ k → Known l ((rest i).resume p.state).1 → p.tasks.get? l = none →
      Q l ((rest i).resume p.state).1 := fun l hl hkn ht =>
    hR.ends l _ _ h.state hI (hG.2 l hl) (h.ended l ((hknown l).mp hkn) ht)
  unfold Pool.signal
  generalize hres : (rest i).resume p.state = res at hI hout hothers hknown hended
  obtain ⟨s, out⟩ := res
  have hpop : Q k s → Sound Known I R A Q { state := s, tasks := p.tasks.pop k } := by
    intro hq
    refine ⟨hI, fun l rest' ht => ?_, fun l rest' ht => ?_, fun l hkn ht => ?_⟩
    · exact (hknown l).mpr (h.known l rest' (Dict.get?_of_get?_pop ht))
    · have hl : l ≠ k := by
        rintro rfl
        simp at ht
      exact hothers l rest' hl (Dict.get?_of_get?_pop ht)
    · by_cases hl : l = k
      · subst hl; exact hq
      · rw [Dict.get?_pop_ne _ hl] at ht
        exact hended l hl hkn ht
  cases out with
  | finished r => exact hpop hout
  | raised e => exact hpop hout
  | waiting rest' =>
      refine ⟨hI, fun l rest'' ht => ?_, fun l rest'' ht => ?_, fun l hkn ht => ?_⟩
      · rw [hknown]
        by_cases hl : l = k
        · subst hl; exact h.known l rest hk
        · rw [Dict.get?_set_ne _ _ hl] at ht
          exact h.known l rest'' ht
      · by_cases hl : l = k
        · subst hl
          rw [Dict.get?_set_self] at ht
          cases ht
          exact hout
        · rw [Dict.get?_set_ne _ _ hl] at ht
          exact hothers l rest'' hl ht
      · by_cases hl : l = k
        · subst hl; simp at ht
        · rw [Dict.get?_set_ne _ _ hl] at ht
          exact hended l hl hkn ht

/-- An operation that is sound keeps a pool sound. -/
theorem Sound.operation {p : Pool κ σ ε ι} (hR : Relies Known I R Q) (h : p.Sound Known I R A Q) {s' : σ}
    {spawn : Option (κ × (ι → Async σ ε ι Unit))} (ho : OpSound Known I R A Q p.state s' spawn) :
    (match spawn with
      | none => { p with state := s' }
      | some (k, rest) => { state := s', tasks := p.tasks.set k rest } : Pool κ σ ε ι).Sound Known I R A Q := by
  have hold : ∀ l rest', p.tasks.get? l = some rest' → SafeTask Known I R A Q l rest' s' := fun l rest' ht =>
    (h.tasks l rest' ht).rely hR (ho.rely l (h.known l rest' ht))
  have hstays : ∀ l, Known l p.state → Known l s' := fun l hl => (hR.known l _ _ (ho.rely l hl)).mp hl
  have hended : ∀ l, Known l p.state → p.tasks.get? l = none → Q l s' := fun l hl ht =>
    hR.ends l _ _ h.state ho.state (ho.rely l hl) (h.ended l hl ht)
  rcases spawn with _ | ⟨k, rest⟩
  · refine ⟨ho.state, fun l rest' ht => hstays l (h.known l rest' ht), hold, fun l hkn ht => ?_⟩
    rcases ho.known l hkn with hl | ⟨rest, hrest⟩
    · exact hended l hl ht
    · cases hrest
  · obtain ⟨hnew, hkn', hsafe⟩ := ho.fresh k rest rfl
    refine ⟨ho.state, fun l rest' ht => ?_, fun l rest' ht => ?_, fun l hkn ht => ?_⟩
    · by_cases hl : l = k
      · subst hl; exact hkn'
      · rw [Dict.get?_set_ne _ _ hl] at ht
        exact hstays l (h.known l rest' ht)
    · by_cases hl : l = k
      · subst hl
        rw [Dict.get?_set_self] at ht
        cases ht
        exact hsafe
      · rw [Dict.get?_set_ne _ _ hl] at ht
        exact hold l rest' ht
    · have hl : l ≠ k := by
        rintro rfl
        simp at ht
      rw [Dict.get?_set_ne _ _ hl] at ht
      rcases ho.known l hkn with hl' | ⟨rest', hrest'⟩
      · exact hended l hl' ht
      · cases hrest'
        exact absurd rfl hl

/-- A change that every coroutine relies on keeps a pool sound. -/
theorem Sound.change {p : Pool κ σ ε ι} (hR : Relies Known I R Q) (h : p.Sound Known I R A Q) {s : σ} (hI : I s)
    (hs : ∀ k, R k p.state s) : ({ p with state := s } : Pool κ σ ε ι).Sound Known I R A Q where
  state := hI
  known k rest ht := (hR.known k _ _ (hs k)).mp (h.known k rest ht)
  tasks k rest ht := (h.tasks k rest ht).rely hR (hs k)
  ended k hkn ht := hR.ends k _ _ h.state hI (hs k) (h.ended k ((hR.known k _ _ (hs k)).mpr hkn) ht)

/-- Soundness holds along every run whose signals are allowed and whose operations are sound. -/
theorem Sound.exec {C : Pool κ σ ε ι → PoolAct κ ι ο → Prop} (hR : Relies Known I R Q)
    (hsignal : ∀ (p : Pool κ σ ε ι) k i s, I p.state → C p (.signal k i) → accept p.state k i = some s →
      I s ∧ (∀ l, R l p.state s) ∧ A k s i)
    (hop : ∀ (p : Pool κ σ ε ι) o s' spawn, I p.state → C p (.op o) → op p.state o = some (s', spawn) →
      OpSound Known I R A Q p.state s' spawn)
    {p p' : Pool κ σ ε ι} {as : List (PoolAct κ ι ο)} (h : p.Sound Known I R A Q)
    (hC : Transition.Along (Pool.step accept op) C p as) (hr : Transition.exec (Pool.step accept op) p as = some p') :
    p'.Sound Known I R A Q := by
  refine Transition.exec_invariant (I := fun p => p.Sound Known I R A Q) (fun q a q' hq hca hs => ?_) h hC hr
  cases a with
  | signal k i =>
      simp only [Pool.step] at hs
      split at hs
      · rename_i s rest haccept hk
        cases hs
        obtain ⟨hI, hall, hA⟩ := hsignal q k i s hq.state hca haccept
        exact (hq.change hR hI hall).signal hR hk hA
      · cases hs
  | op o =>
      obtain ⟨⟨s', spawn⟩, ho, hs⟩ := Option.map_eq_some_iff.mp hs
      have hsound := hq.operation hR (hop q o s' spawn hq.state hca ho)
      rcases spawn with _ | ⟨k, rest⟩ <;> (cases hs; exact hsound)

end Pool

end Async
