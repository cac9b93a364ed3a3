import OpenMux.Lib.Run

/-!
# Coroutines and their interleavings

A coroutine is a sequence of state changes with suspension points between them. What runs between two suspension points is
one segment: nothing else happens in it. `run` runs a coroutine alone. A pool holds suspended coroutines over one state, and
each of its steps runs one segment, so the runs of a pool are the interleavings at suspension points.
-/

inductive Coro (σ ρ : Type) where
  | ret (r : ρ)
  /-- Changes the state; the rest depends on the state before. -/
  | act (f : σ → σ) (k : σ → Coro σ ρ)
  | pause (k : Coro σ ρ)

namespace Coro

variable {σ ρ τ : Type}

def bind : Coro σ ρ → (ρ → Coro σ τ) → Coro σ τ
  | ret r, k => k r
  | act f c, k => act f fun s => (c s).bind k
  | pause c, k => pause (c.bind k)

instance : Monad (Coro σ) where
  pure := ret
  bind := bind

def get : Coro σ σ := act id ret

def modify (f : σ → σ) : Coro σ Unit := act f fun _ => ret ()

/-- A function that does not suspend. -/
def lift (f : σ → σ × ρ) : Coro σ ρ := act (fun s => (f s).1) fun s => ret (f s).2

/-- A suspension point. -/
def yield : Coro σ Unit := pause (ret ())

/-! ## Running alone -/

/-- Runs to the end without interleaving. -/
def run : Coro σ ρ → σ → σ × ρ
  | ret r, s => (s, r)
  | act f k, s => run (k s) (f s)
  | pause k, s => run k s

@[simp] theorem run_pure (r : ρ) (s : σ) : run (pure r : Coro σ ρ) s = (s, r) := rfl

@[simp] theorem run_get (s : σ) : run (get : Coro σ σ) s = (s, s) := rfl

@[simp] theorem run_modify (f : σ → σ) (s : σ) : run (modify f) s = (f s, ()) := rfl

@[simp] theorem run_lift (f : σ → σ × ρ) (s : σ) : run (lift f) s = f s := rfl

@[simp] theorem run_yield (s : σ) : run (yield : Coro σ Unit) s = (s, ()) := rfl

@[simp] theorem run_bind (c : Coro σ ρ) (k : ρ → Coro σ τ) (s : σ) :
    run (c >>= k) s = run (k (run c s).2) (run c s).1 := by
  show run (c.bind k) s = _
  induction c generalizing s with
  | ret r => rfl
  | act f c ih => exact ih s (f s)
  | pause c ih => exact ih s

@[simp] theorem run_map (g : ρ → τ) (c : Coro σ ρ) (s : σ) : run (g <$> c) s = ((run c s).1, g (run c s).2) :=
  run_bind c (fun r => ret (g r)) s

@[simp] theorem run_ite (p : Prop) [Decidable p] (c d : Coro σ ρ) (s : σ) :
    run (if p then c else d) s = if p then run c s else run d s := by
  split <;> rfl

/-! ## Segments -/

/-- How a segment ends. -/
inductive Outcome (σ ρ : Type)
  | finished (r : ρ)
  | suspended (k : Coro σ ρ)

/-- Runs one segment. -/
def resume : Coro σ ρ → σ → σ × Outcome σ ρ
  | ret r, s => (s, .finished r)
  | act f k, s => resume (k s) (f s)
  | pause k, s => (s, .suspended k)

/-- Every segment that is suspended meets `G`, and the last one meets `Q`, between the state that it starts in and the state
it leads to. Each later segment starts in some state that meets `I`. The segment under way started in the first state
argument and is now in the second. -/
def Safe (I : σ → Prop) (G : σ → σ → Prop) (Q : σ → σ → ρ → Prop) : Coro σ ρ → σ → σ → Prop
  | ret r, s₀, s => Q s₀ s r
  | act f k, s₀, s => Safe I G Q (k s) s₀ (f s)
  | pause k, s₀, s => G s₀ s ∧ ∀ t, I t → Safe I G Q k t t

section Safe

variable {I : σ → Prop} {G : σ → σ → Prop}

@[simp] theorem safe_pure {Q : σ → σ → ρ → Prop} (r : ρ) (s₀ s : σ) :
    Safe I G Q (pure r : Coro σ ρ) s₀ s ↔ Q s₀ s r := Iff.rfl

@[simp] theorem safe_get {Q : σ → σ → σ → Prop} (s₀ s : σ) : Safe I G Q get s₀ s ↔ Q s₀ s s := Iff.rfl

@[simp] theorem safe_modify {Q : σ → σ → Unit → Prop} (f : σ → σ) (s₀ s : σ) :
    Safe I G Q (modify f) s₀ s ↔ Q s₀ (f s) () := Iff.rfl

@[simp] theorem safe_lift {Q : σ → σ → ρ → Prop} (f : σ → σ × ρ) (s₀ s : σ) :
    Safe I G Q (lift f) s₀ s ↔ Q s₀ (f s).1 (f s).2 := Iff.rfl

@[simp] theorem safe_yield {Q : σ → σ → Unit → Prop} (s₀ s : σ) :
    Safe I G Q yield s₀ s ↔ G s₀ s ∧ ∀ t, I t → Q t t () := Iff.rfl

@[simp] theorem safe_bind {Q : σ → σ → τ → Prop} (c : Coro σ ρ) (k : ρ → Coro σ τ) (s₀ s : σ) :
    Safe I G Q (c >>= k) s₀ s ↔ Safe I G (fun t₀ t r => Safe I G Q (k r) t₀ t) c s₀ s := by
  show Safe I G Q (c.bind k) s₀ s ↔ _
  induction c generalizing s₀ s with
  | ret r => exact Iff.rfl
  | act f c ih => exact ih s s₀ (f s)
  | pause c ih =>
      exact and_congr_right fun _ => forall_congr' fun t => imp_congr_right fun _ => ih t t

@[simp] theorem safe_map {Q : σ → σ → τ → Prop} (g : ρ → τ) (c : Coro σ ρ) (s₀ s : σ) :
    Safe I G Q (g <$> c) s₀ s ↔ Safe I G (fun t₀ t r => Q t₀ t (g r)) c s₀ s :=
  safe_bind c (fun r => ret (g r)) s₀ s

/-- What the segments meet may be weakened. -/
theorem Safe.mono {G' : σ → σ → Prop} {Q Q' : σ → σ → ρ → Prop} {c : Coro σ ρ} {s₀ s : σ} (h : Safe I G Q c s₀ s)
    (hG : ∀ t₀ t, G t₀ t → G' t₀ t) (hQ : ∀ t₀ t r, Q t₀ t r → Q' t₀ t r) : Safe I G' Q' c s₀ s := by
  induction c generalizing s₀ s with
  | ret r => exact hQ _ _ _ h
  | act f c ih => exact ih s h
  | pause c ih => exact ⟨hG _ _ h.1, fun t ht => ih (h.2 t ht)⟩

theorem Safe.finished {Q : σ → σ → ρ → Prop} {c : Coro σ ρ} {s₀ s s' : σ} {r : ρ} (h : Safe I G Q c s₀ s)
    (hr : resume c s = (s', .finished r)) : Q s₀ s' r := by
  induction c generalizing s with
  | ret r' => cases hr; exact h
  | act f c ih => exact ih s h hr
  | pause c ih => cases hr

theorem Safe.suspended {Q : σ → σ → ρ → Prop} {c k : Coro σ ρ} {s₀ s s' : σ} (h : Safe I G Q c s₀ s)
    (hr : resume c s = (s', .suspended k)) : G s₀ s' ∧ ∀ t, I t → Safe I G Q k t t := by
  induction c generalizing s with
  | ret r => cases hr
  | act f c ih => exact ih s h hr
  | pause c ih => cases hr; exact h

end Safe

/-! ## Single changes -/

/-- Every change that the coroutine makes meets `P`, whatever the state it is made in. -/
def Acts (P : σ → σ → Prop) : Coro σ ρ → Prop
  | ret _ => True
  | act f k => ∀ s, P s (f s) ∧ Acts P (k s)
  | pause k => Acts P k

section Acts

variable {P : σ → σ → Prop}

@[simp] theorem acts_pure (r : ρ) : Acts P (pure r : Coro σ ρ) := trivial

@[simp] theorem acts_yield : Acts P (yield : Coro σ Unit) := trivial

theorem acts_get (h : ∀ s, P s s) : Acts P (get : Coro σ σ) := fun s => ⟨h s, trivial⟩

theorem acts_modify {f : σ → σ} (h : ∀ s, P s (f s)) : Acts P (modify f) := fun s => ⟨h s, trivial⟩

theorem acts_lift {f : σ → σ × ρ} (h : ∀ s, P s (f s).1) : Acts P (lift f) := fun s => ⟨h s, trivial⟩

theorem Acts.bind {c : Coro σ ρ} {k : ρ → Coro σ τ} (hc : Acts P c) (hk : ∀ r, Acts P (k r)) : Acts P (c >>= k) := by
  show Acts P (c.bind k)
  induction c with
  | ret r => exact hk r
  | act f c ih => exact fun s => ⟨(hc s).1, ih s (hc s).2⟩
  | pause c ih => exact ih hc

theorem Acts.map {c : Coro σ ρ} (g : ρ → τ) (hc : Acts P c) : Acts P (g <$> c) := hc.bind fun _ => trivial

/-- Changes that keep a relation to the start of the segment make every segment meet it. -/
theorem Acts.safe {I : σ → Prop} {R : σ → σ → Prop} (hI : ∀ s, I s → R s s)
    (hR : ∀ s₀ s s', R s₀ s → P s s' → R s₀ s') {c : Coro σ ρ} (h : Acts P c) {s₀ s : σ} (hs : R s₀ s) :
    Safe I R (fun t₀ t _ => R t₀ t) c s₀ s := by
  induction c generalizing s₀ s with
  | ret r => exact hs
  | act f c ih => exact ih s (h s).2 (hR _ _ _ hs (h s).1)
  | pause c ih => exact ⟨hs, fun t ht => ih h (hI t ht)⟩

end Acts

/-! ## Pools -/

/-- A suspended operation, with the state that it began in. -/
structure Task (σ ο ρ : Type) where
  op : ο
  began : σ
  rest : Coro σ ρ

structure Pool (σ ο ρ : Type) where
  state : σ
  tasks : List (Task σ ο ρ) := []

/-- `env` stands for whatever else changes the state. -/
inductive PoolAct (ο ε : Type)
  | start (op : ο)
  | resume (i : Nat)
  | cancel (i : Nat)
  | env (e : ε)

namespace Pool

variable {ο ε : Type} (body : ο → Coro σ ρ) (env : σ → ε → Option σ)

/-- An operation runs its first segment at once. -/
def start (p : Pool σ ο ρ) (op : ο) : Pool σ ο ρ :=
  match (body op).resume p.state with
  | (s, .finished _) => { p with state := s }
  | (s, .suspended k) => { state := s, tasks := p.tasks ++ [⟨op, p.state, k⟩] }

def resume (p : Pool σ ο ρ) (i : Nat) (t : Task σ ο ρ) : Pool σ ο ρ :=
  match t.rest.resume p.state with
  | (s, .finished _) => { state := s, tasks := p.tasks.eraseIdx i }
  | (s, .suspended k) => { state := s, tasks := p.tasks.set i { t with rest := k } }

def step (p : Pool σ ο ρ) : PoolAct ο ε → Option (Pool σ ο ρ)
  | .start op => some (p.start body op)
  | .resume i => p.tasks[i]?.map (p.resume i)
  | .cancel i => p.tasks[i]?.map fun _ => { p with tasks := p.tasks.eraseIdx i }
  | .env e => (env p.state e).map fun s => { p with state := s }

/-- The state meets `I`, and the rest of every suspended operation is safe from every such state. -/
def Safe (I : σ → Prop) (G : ο → σ → σ → σ → Prop) (Q : ο → σ → σ → σ → ρ → Prop) (p : Pool σ ο ρ) : Prop :=
  I p.state ∧ ∀ t ∈ p.tasks, ∀ s, I s → t.rest.Safe I (G t.op t.began) (Q t.op t.began) s s

/-- The operation whose segment an action runs, the state that it began in, and what it runs. -/
def segment (p : Pool σ ο ρ) : PoolAct ο ε → Option (Task σ ο ρ)
  | .start op => some ⟨op, p.state, body op⟩
  | .resume i => p.tasks[i]?
  | .cancel _ | .env _ => none

/-- What a segment of an operation leads to. -/
def Segment (G : ο → σ → σ → σ → Prop) (Q : ο → σ → σ → σ → ρ → Prop) (t : Task σ ο ρ) (s s' : σ) : Prop :=
  G t.op t.began s s' ∨ ∃ r, t.rest.resume s = (s', .finished r) ∧ Q t.op t.began s s' r

/-- A step of the pool is a segment of an operation, a change from outside, or none of the state. -/
def Moved (G : ο → σ → σ → σ → Prop) (Q : ο → σ → σ → σ → ρ → Prop) (p : Pool σ ο ρ) (a : PoolAct ο ε) (s' : σ) : Prop :=
  match p.segment body a with
  | some t => Segment G Q t p.state s'
  | none => s' = p.state ∨ ∃ e, env p.state e = some s'

variable {body env} {I : σ → Prop} {G : ο → σ → σ → σ → Prop} {Q : ο → σ → σ → σ → ρ → Prop}

theorem Safe.start {p : Pool σ ο ρ} (h : p.Safe I G Q) {op : ο}
    (hbody : (body op).Safe I (G op p.state) (Q op p.state) p.state p.state)
    (hG : ∀ s', G op p.state p.state s' → I s') (hQ : ∀ s' r, Q op p.state p.state s' r → I s') :
    (p.start body op).Safe I G Q ∧ Segment G Q ⟨op, p.state, body op⟩ p.state (p.start body op).state := by
  unfold Pool.start
  split
  · rename_i s r hr
    have hq := hbody.finished hr
    exact ⟨⟨hQ _ _ hq, h.2⟩, .inr ⟨r, hr, hq⟩⟩
  · rename_i s k hr
    obtain ⟨hg, hk⟩ := hbody.suspended hr
    refine ⟨⟨hG _ hg, fun t ht => ?_⟩, .inl hg⟩
    rcases List.mem_append.mp ht with ht | ht
    · exact h.2 t ht
    · cases List.mem_singleton.mp ht; exact hk

theorem Safe.resume {p : Pool σ ο ρ} (h : p.Safe I G Q) {i : Nat} {t : Task σ ο ρ} (ht : p.tasks[i]? = some t)
    (hG : ∀ s', G t.op t.began p.state s' → I s') (hQ : ∀ s' r, Q t.op t.began p.state s' r → I s') :
    (p.resume i t).Safe I G Q ∧ Segment G Q t p.state (p.resume i t).state := by
  have hrest := h.2 t (List.mem_of_getElem? ht) p.state h.1
  unfold Pool.resume
  split
  · rename_i s r hr
    have hq := hrest.finished hr
    exact ⟨⟨hQ _ _ hq, fun u hu => h.2 u (List.mem_of_mem_eraseIdx hu)⟩, .inr ⟨r, hr, hq⟩⟩
  · rename_i s k hr
    obtain ⟨hg, hk⟩ := hrest.suspended hr
    refine ⟨⟨hG _ hg, fun u hu => ?_⟩, .inl hg⟩
    rcases List.mem_or_eq_of_mem_set hu with hu | rfl
    · exact h.2 u hu
    · exact hk

/-- Every step of a safe pool is a move that the segments allow, and leaves the pool safe. -/
theorem Safe.step (hG : ∀ op b s s', I s → G op b s s' → I s') (hQ : ∀ op b s s' r, I s → Q op b s s' r → I s')
    (henv : ∀ s e s', I s → env s e = some s' → I s') {p p' : Pool σ ο ρ} {a : PoolAct ο ε}
    (hbody : ∀ op s, a = .start op → I s → (body op).Safe I (G op s) (Q op s) s s) (h : p.Safe I G Q)
    (hs : p.step body env a = some p') : p'.Safe I G Q ∧ p.Moved body env G Q a p'.state := by
  cases a with
  | start op =>
      cases hs
      exact h.start (hbody op p.state rfl h.1) (fun s' => hG op _ _ s' h.1) (fun s' r => hQ op _ _ s' r h.1)
  | resume i =>
      obtain ⟨t, ht, rfl⟩ := Option.map_eq_some_iff.mp hs
      obtain ⟨hsafe, hseg⟩ := h.resume ht (fun s' => hG _ _ _ s' h.1) (fun s' r => hQ _ _ _ s' r h.1)
      refine ⟨hsafe, ?_⟩
      simp only [Moved, segment, ht]
      exact hseg
  | cancel i =>
      obtain ⟨t, -, rfl⟩ := Option.map_eq_some_iff.mp hs
      exact ⟨⟨h.1, fun u hu => h.2 u (List.mem_of_mem_eraseIdx hu)⟩, .inl rfl⟩
  | env e =>
      obtain ⟨s, he, rfl⟩ := Option.map_eq_some_iff.mp hs
      exact ⟨⟨henv _ _ _ h.1 he, h.2⟩, .inr ⟨e, he⟩⟩

/-- A pool without operations is safe. -/
theorem safe_of_state {s : σ} (h : I s) : ({ state := s } : Pool σ ο ρ).Safe I G Q :=
  ⟨h, fun t ht => by cases ht⟩

/-- Safety holds along every run that starts only operations that are safe. -/
theorem Safe.exec {C : ο → Prop} (hG : ∀ op b s s', I s → G op b s s' → I s')
    (hQ : ∀ op b s s' r, I s → Q op b s s' r → I s') (henv : ∀ s e s', I s → env s e = some s' → I s')
    (hbody : ∀ op s, C op → I s → (body op).Safe I (G op s) (Q op s) s s) {p p' : Pool σ ο ρ} {as : List (PoolAct ο ε)}
    (hC : ∀ op, .start op ∈ as → C op) (h : p.Safe I G Q) (hr : Transition.exec (Pool.step body env) p as = some p') :
    p'.Safe I G Q := by
  induction as generalizing p with
  | nil => cases hr; exact h
  | cons a as ih =>
      obtain ⟨q, hs, hr⟩ := Transition.exec_cons_inv hr
      have hbody' : ∀ op s, a = .start op → I s → (body op).Safe I (G op s) (Q op s) s s := fun op s ha =>
        hbody op s (hC op (ha ▸ List.mem_cons_self))
      exact ih (fun op hop => hC op (List.mem_cons_of_mem _ hop)) (h.step hG hQ henv hbody' hs).1 hr

end Pool

end Coro
