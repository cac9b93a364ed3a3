import OpenMux.Arbitration.Moves

/-!
# Every move keeps the invariant of a stream
-/

namespace OpenMux.Arbitration

open Origin

namespace StreamView

variable {v v' : StreamView} {r r' : Request} {a : FedrwAction} {fs : List StreamFrame} {rs : List Request}

/-! ## What the parts of a view depend on -/

@[simp] theorem actions_send (v : StreamView) (a : FedrwAction) :
    StreamView.actions { v with frames := v.frames ++ [.fedrw a] } = v.actions ++ [a] := by
  simp [actions]

theorem actions_of_fedrw (h : v.frames = .fedrw a :: fs) : v.actions = a :: StreamView.actions { v with frames := fs } := by
  simp [actions, h]

theorem actions_of_openStream (h : v.frames = .openStream :: fs) : v.actions = StreamView.actions { v with frames := fs } := by
  simp [actions, h]

theorem awaiting_eq_false : v.awaiting = false ↔ ∀ r ∈ v.requests, r.Asks → r.fut ≠ .pending := by
  simp [awaiting]

theorem granted_eq_false : v.granted = false ↔ ∀ r ∈ v.requests, r.Asks → r.fut ≠ .done .readWrite := by
  simp [granted]

theorem asked_eq_false : v.asked = false ↔ v.arbitrating = false ∧ ∀ a ∈ v.actions, ¬ a.Asks := by
  simp [asked]

/-- When nothing waits and nothing is granted, the acks in flight decide. -/
theorem expects_of_idle (hw : v.awaiting = false) (hg : v.granted = false) :
    v.expects = (v.record && v.acks.isEmpty) := by
  unfold expects
  split <;> rename_i h <;> simp_all

/-- A notice behind the acks in flight makes the record read-only, unless it would be taken for a reply. -/
theorem expects_notice (hw : v.awaiting = false ∨ v.acks ≠ []) (m : Mode) :
    StreamView.expects { v with acks := v.acks ++ [m] } = false := by
  unfold expects
  rcases hw with hw | hw
  · cases hacks : v.acks with
    | nil =>
        have : StreamView.awaiting { v with acks := [m] } = false := hw
        simp [this]
    | cons x xs => cases xs <;> simp
  · cases hacks : v.acks with
    | nil => exact absurd hacks hw
    | cons x xs => cases xs <;> simp

theorem Asking.awaiting (h : v.Asking r .pending) : v.awaiting = true := by
  simp [StreamView.awaiting, h.requests, h.asks, h.fut]

theorem Asking.granted (h : v.Asking r (.done .readWrite)) : v.granted = true := by
  simp [StreamView.granted, h.requests, h.asks, h.fut]

theorem Asking.not_granted (h : v.Asking r .pending) : v.granted = false := by
  simp [StreamView.granted, h.requests, h.fut]

theorem Asking.not_awaiting (h : v.Asking r (.done .readWrite)) : v.awaiting = false := by
  simp [StreamView.awaiting, h.requests, h.fut]

/-! ## Phases -/

/-- Without a request for the slot a stream is settled. -/
theorem Phase.of_idle (h : v.Phase) (hw : v.awaiting = false) (hg : v.granted = false) : v.Settled := by
  cases h with
  | settled h => exact h
  | sent r h => rw [h.awaiting] at hw; cases hw
  | replied r h => rw [h.awaiting] at hw; cases hw
  | granted r h => rw [h.toAsking.granted] at hg; cases hg

theorem Clear.idle (h : v.Clear) : v.awaiting = false ∧ v.granted = false := by
  simp [awaiting, granted, h.1]

theorem Settled.ask (h : v.Settled) (hc : v.Clear) (hr : r.Asks) (hf : r.fut = .pending) (ha : a.Asks) :
    Sent { v with requests := v.requests ++ [r], pending := some r.id, frames := v.frames ++ [.fedrw a] } r := by
  obtain ⟨hreq, hact, hacks⟩ := hc
  refine ⟨⟨by simp [hreq], hr, hf⟩, rfl, hacks, .inl ⟨h.idle, a, ?_, ha⟩, ?_⟩
  · have : StreamView.actions { v with frames := v.frames ++ [.fedrw a] } = [a] := by rw [actions_send, hact]; rfl
    exact this
  · intro ho hrec
    have hexp : v.expects = true := by rw [expects_of_idle h.awaiting h.granted]; simp [hacks, show v.record = true from hrec]
    exact (h.agrees hact ho).mpr hexp

theorem Settled.release (h : v.Settled) (hr : ¬ r.Asks) :
    Settled { v with
      record := false, requests := v.requests ++ [r], pending := some r.id, frames := v.frames ++ [.fedrw .release] } := by
  have hact : StreamView.actions { v with frames := v.frames ++ [.fedrw .release] } = v.actions ++ [.release] := actions_send v _
  refine ⟨?_, h.acks, h.idle, ?_, ?_, fun hrec => (by cases hrec), fun hnil => ?_⟩
  · intro b hb
    rcases List.mem_append.mp (hact ▸ hb) with hb | hb
    · exact h.actions b hb
    · simpa using hb
  · rw [awaiting_eq_false]
    intro q hq hask
    rcases List.mem_append.mp hq with hq | hq
    · exact awaiting_eq_false.mp h.awaiting q hq hask
    · rw [List.mem_singleton.mp hq] at hask; exact absurd hask hr
  · rw [granted_eq_false]
    intro q hq hask
    rcases List.mem_append.mp hq with hq | hq
    · exact granted_eq_false.mp h.granted q hq hask
    · rw [List.mem_singleton.mp hq] at hask; exact absurd hask hr
  · have : v.actions ++ [.release] = [] := hact ▸ hnil
    simp at this

/-- A settled stream stays settled when its requests only lose what may wait or be granted. -/
theorem Settled.requests (h : v.Settled) (pending : Option Nat)
    (hw : StreamView.awaiting { v with requests := rs } = false) (hg : StreamView.granted { v with requests := rs } = false)
    (hp : StreamView.awaited { v with requests := rs, pending := pending } → v.awaited) :
    Settled { v with requests := rs, pending := pending } := by
  refine ⟨h.actions, h.acks, h.idle, hw, hg, fun hrec => ⟨(h.holds hrec).1, fun ha => (h.holds hrec).2 (hp ha)⟩, ?_⟩
  intro hnil ho
  have hexp := expects_of_idle (v := { v with requests := rs, pending := pending }) hw hg
  rw [hexp]
  have := h.agrees hnil ho
  rwa [expects_of_idle h.awaiting h.granted] at this

/-- What the requests of a view look like after a future is set. -/
theorem mem_setFut {id : Nat} {fut : Fut} : r ∈ v.setFut id fut ↔
    (∃ q ∈ v.requests, q.id = id ∧ r = { q with fut := fut }) ∨ (r ∈ v.requests ∧ r.id ≠ id) := by
  simp only [setFut, List.mem_map]
  constructor
  · rintro ⟨q, hq, rfl⟩
    by_cases hid : q.id = id
    · exact .inl ⟨q, hq, hid, by simp [hid]⟩
    · exact .inr ⟨by simpa [hid] using hq, by simp [hid]⟩
  · rintro (⟨q, hq, hid, rfl⟩ | ⟨hr, hid⟩)
    · exact ⟨q, hq, by simp [hid]⟩
    · exact ⟨r, hr, by simp [hid]⟩

theorem Asking.setFut (h : v.Asking r .pending) (fut : Fut) :
    Asking { v with requests := v.setFut r.id fut } { r with fut := fut } fut :=
  ⟨by simp [StreamView.setFut, h.requests], h.asks, rfl⟩

theorem Settled.expire (h : v.Settled) (id : Nat) : Settled { v with requests := v.setFut id .cancelled } := by
  refine h.requests v.pending ?_ ?_ ?_
  · rw [awaiting_eq_false]
    intro q hq hask
    rcases mem_setFut.mp hq with ⟨p, -, -, rfl⟩ | ⟨hq, -⟩
    · simp
    · exact awaiting_eq_false.mp h.awaiting q hq hask
  · rw [granted_eq_false]
    intro q hq hask
    rcases mem_setFut.mp hq with ⟨p, -, -, rfl⟩ | ⟨hq, -⟩
    · simp
    · exact granted_eq_false.mp h.granted q hq hask
  · rintro ⟨q, hq, hp, hf⟩
    rcases mem_setFut.mp hq with ⟨p, -, -, rfl⟩ | ⟨hq, -⟩
    · cases hf
    · exact ⟨q, hq, hp, hf⟩

/-- A denial that comes too late finds the stream settled. -/
theorem Replied.expire (h : v.Replied r) (hden : v.acks.head? = some .readOnly) (hm : v.mirror ≠ some .readWrite) :
    Settled { v with requests := v.setFut r.id .cancelled } := by
  have hreq : v.setFut r.id .cancelled = [{ r with fut := .cancelled }] := (h.toAsking.setFut .cancelled).requests
  obtain ⟨m, rest, hacks, hrest⟩ := h.acks
  have hm' : m = .readOnly := by rw [hacks] at hden; exact Option.some.inj hden
  have hw : StreamView.awaiting { v with requests := v.setFut r.id .cancelled } = false := by simp [awaiting, hreq]
  have hg : StreamView.granted { v with requests := v.setFut r.id .cancelled } = false := by simp [granted, hreq]
  refine ⟨fun a ha => ?_, fun n hn => ?_, h.idle, hw, hg, fun _ => ⟨h.actions, ?_⟩, fun _ _ => ?_⟩
  · have : a ∈ v.actions := ha
    rw [h.actions] at this; cases this
  · have : n ∈ v.acks := hn
    rw [hacks] at this
    rcases List.mem_cons.mp this with rfl | hn
    · exact hm'
    · exact hrest n hn
  · rintro ⟨q, hq, -, hf⟩
    rw [hreq] at hq
    cases List.mem_singleton.mp hq
    cases hf
  · rw [expects_of_idle hw hg]
    simp [hm, hacks]

theorem Phase.expire (h : v.Phase) (id : Nat) (hf : ∃ r ∈ v.requests, r.id = id ∧ r.fut = .pending)
    (hc : (∃ r ∈ v.requests, r.id = id ∧ ¬ r.Asks) ∨ v.acks.head? = some .readOnly ∧ v.mirror ≠ some .readWrite) :
    Phase { v with requests := v.setFut id .cancelled } := by
  -- The only request of a stream that asks is not a release.
  have hno : ∀ {q fut}, v.Asking q fut → ¬ ∃ r ∈ v.requests, r.id = id ∧ ¬ r.Asks := by
    rintro q fut hq ⟨r, hr, -, ha⟩
    rw [hq.requests] at hr
    cases List.mem_singleton.mp hr
    exact ha hq.asks
  have hid : ∀ {q fut}, v.Asking q fut → q.id = id ∧ fut = .pending := by
    rintro q fut hq
    obtain ⟨r, hr, hrid, hrf⟩ := hf
    rw [hq.requests] at hr
    cases List.mem_singleton.mp hr
    exact ⟨hrid, hq.fut ▸ hrf⟩
  cases h with
  | settled h => exact .settled (h.expire id)
  | sent q h =>
      rcases hc with hc | hc
      · exact absurd hc (hno h.toAsking)
      · rw [h.acks] at hc; cases hc.1
  | replied q h =>
      rcases hc with hc | hc
      · exact absurd hc (hno h.toAsking)
      · obtain ⟨rfl, -⟩ := hid h.toAsking
        exact .settled (h.expire hc.1 hc.2)
  | granted q h => cases (hid h.toAsking).2

theorem awaiting_without (h : v.awaiting = false) (id : Nat) : StreamView.awaiting { v with requests := v.without id } = false := by
  rw [awaiting_eq_false] at h ⊢
  exact fun q hq => h q (List.mem_of_mem_filter hq)

theorem granted_without (h : v.granted = false) (id : Nat) : StreamView.granted { v with requests := v.without id } = false := by
  rw [granted_eq_false] at h ⊢
  exact fun q hq => h q (List.mem_of_mem_filter hq)

theorem Asking.without {fut : Fut} (h : v.Asking r fut) : v.without r.id = [] := by
  simp [StreamView.without, h.requests]

/-- A granted request that is applied leaves the stream settled. -/
theorem Granted.finish (h : v.Granted r) :
    Settled { v with requests := v.without r.id, pending := none, record := true } := by
  have hreq := h.toAsking.without
  have hw : StreamView.awaiting { v with requests := v.without r.id, pending := none, record := true } = false := by simp [awaiting, hreq]
  have hg : StreamView.granted { v with requests := v.without r.id, pending := none, record := true } = false := by simp [granted, hreq]
  refine ⟨fun a ha => ?_, h.acks, h.idle, hw, hg, fun _ => ⟨h.actions, ?_⟩, fun _ ho => ?_⟩
  · have : a ∈ v.actions := ha
    rw [h.actions] at this; cases this
  · rintro ⟨q, hq, -⟩
    rw [hreq] at hq; cases hq
  · rw [h.agrees ho, expects_of_idle hw hg]
    unfold expects
    cases v.acks with
    | nil => simp [h.toAsking.granted]
    | cons x xs => cases xs <;> simp [h.toAsking.not_awaiting]

theorem Phase.finish (h : v.Phase) (hr : r ∈ v.requests) (hf : r.fut ≠ .pending) {record : Bool}
    (hrec : if r.Asks ∧ r.fut = .done .readWrite then record = true else record = v.record) :
    Phase { v with requests := v.without r.id, pending := none, record := record } := by
  cases h with
  | settled h =>
      rw [if_neg fun hg => granted_eq_false.mp h.granted r hr hg.1 hg.2] at hrec
      subst hrec
      refine .settled (h.requests none (awaiting_without h.awaiting _) (granted_without h.granted _) ?_)
      rintro ⟨q, -, hp, -⟩
      cases hp
  | sent q h =>
      rw [h.requests] at hr
      cases List.mem_singleton.mp hr
      exact absurd h.fut hf
  | replied q h =>
      rw [h.requests] at hr
      cases List.mem_singleton.mp hr
      exact absurd h.fut hf
  | granted q h =>
      rw [h.requests] at hr
      cases List.mem_singleton.mp hr
      rw [if_pos ⟨h.asks, h.fut⟩] at hrec
      subst hrec
      exact .settled h.finish

/-- The REQUEST that follows a granted TAKE. -/
theorem Phase.follow (h : v.Phase) (hr : r ∈ v.requests) (ha : r.Asks) (hf : r.fut = .done .readWrite) (hacks : v.acks = [])
    (ha' : r'.Asks) (hf' : r'.fut = .pending) :
    Phase { v with
      requests := v.without r.id ++ [r'], pending := some r'.id, frames := v.frames ++ [.fedrw .request] } := by
  have hg : v.granted ≠ false := fun hg => granted_eq_false.mp hg r hr ha hf
  cases h with
  | settled h => exact absurd h.granted hg
  | sent q h => exact absurd h.toAsking.not_granted hg
  | replied q h => exact absurd h.toAsking.not_granted hg
  | granted q h =>
      rw [h.requests] at hr
      cases List.mem_singleton.mp hr
      refine .sent r' ⟨⟨by simp [h.toAsking.without], ha', hf'⟩, rfl, hacks, .inl ⟨h.idle, .request, ?_, trivial⟩, ?_⟩
      · have : StreamView.actions { v with frames := v.frames ++ [.fedrw .request] } = [.request] := by
          rw [actions_send, h.actions]; rfl
        exact this
      · intro ho _
        refine (h.agrees ho).mpr ?_
        simp [expects, hacks, h.toAsking.granted]

/-! ## Reading acks -/

theorem awaited_of_mem (hr : r ∈ v.requests) (hp : v.pending = some r.id) (hf : r.fut = .pending) : v.awaited :=
  ⟨r, hr, hp, hf⟩

/-- A settled stream reads the reply to a release. -/
theorem Settled.readReply {m : Mode} {rest : List Mode} (h : v.Settled) (hacks : v.acks = m :: rest) (hr : r ∈ v.requests)
    (hp : v.pending = some r.id) (hf : r.fut = .pending) :
    Settled { v with acks := rest, requests := v.setFut r.id (.done m), pending := none } := by
  have hm : m = .readOnly := h.acks m (hacks ▸ List.mem_cons_self)
  have hrec : v.record = false := by
    by_contra hrec
    exact (h.holds (by simpa using hrec)).2 (awaited_of_mem hr hp hf)
  have hw : StreamView.awaiting { v with requests := v.setFut r.id (.done m) } = false := by
    rw [awaiting_eq_false]
    intro q hq hask
    rcases mem_setFut.mp hq with ⟨p, -, -, rfl⟩ | ⟨hq, -⟩
    · simp
    · exact awaiting_eq_false.mp h.awaiting q hq hask
  have hg : StreamView.granted { v with requests := v.setFut r.id (.done m) } = false := by
    rw [granted_eq_false]
    intro q hq hask
    rcases mem_setFut.mp hq with ⟨p, -, -, rfl⟩ | ⟨hq, -⟩
    · simp [hm]
    · exact granted_eq_false.mp h.granted q hq hask
  refine ⟨h.actions, fun n hn => h.acks n ?_, h.idle, hw, hg, fun hrec' => ?_, fun hnil ho => ?_⟩
  · rw [hacks]; exact List.mem_cons_of_mem _ hn
  · exact absurd (hrec'.symm.trans hrec) (by simp)
  · have hbefore := h.agrees hnil ho
    rw [expects_of_idle h.awaiting h.granted, hrec] at hbefore
    rw [expects_of_idle (v := { v with acks := rest, requests := v.setFut r.id (.done m), pending := none }) hw hg]
    simpa [hrec] using hbefore

/-- The reply to a request for the slot is read. -/
theorem Replied.readReply {m : Mode} {rest : List Mode} (h : v.Replied r) (hacks : v.acks = m :: rest) :
    Phase { v with acks := rest, requests := v.setFut r.id (.done m), pending := none } := by
  have hrest : ∀ n ∈ rest, n = .readOnly := by
    obtain ⟨m', rest', hacks', hrest⟩ := h.acks
    rw [hacks] at hacks'
    cases hacks'
    exact hrest
  have hasks := h.toAsking.setFut (.done m)
  have hwait := h.toAsking.awaiting
  have hbefore : v.expects = (rest.isEmpty && (m = .readWrite || v.record)) := by
    unfold expects
    rw [hacks]
    cases rest <;> simp [hwait]
  cases m with
  | readWrite =>
      have hg : StreamView.granted { v with requests := v.setFut r.id (.done .readWrite) } = true := hasks.granted
      have hw : StreamView.awaiting { v with requests := v.setFut r.id (.done .readWrite) } = false := hasks.not_awaiting
      refine .granted _ ⟨⟨hasks.requests, hasks.asks, hasks.fut⟩, h.idle, h.actions, hrest, fun ho => ?_⟩
      rw [h.agrees ho, hbefore]
      unfold expects
      have hg' : StreamView.granted { v with acks := rest, requests := v.setFut r.id (.done .readWrite), pending := none } = true := hg
      have hw' : StreamView.awaiting { v with acks := rest, requests := v.setFut r.id (.done .readWrite), pending := none } = false := hw
      cases rest with
      | nil => simp [hg']
      | cons x xs => cases xs <;> simp [hw']
  | readOnly =>
      have hw : StreamView.awaiting { v with acks := rest, requests := v.setFut r.id (.done .readOnly), pending := none } = false := by
        simp [StreamView.awaiting, show v.setFut r.id (.done .readOnly) = _ from hasks.requests]
      have hg : StreamView.granted { v with acks := rest, requests := v.setFut r.id (.done .readOnly), pending := none } = false := by
        simp [StreamView.granted, show v.setFut r.id (.done .readOnly) = _ from hasks.requests]
      refine .settled ⟨fun a ha => ?_, hrest, h.idle, hw, hg, fun _ => ⟨h.actions, ?_⟩, fun _ ho => ?_⟩
      · have : a ∈ v.actions := ha
        rw [h.actions] at this; cases this
      · rintro ⟨q, -, hp, -⟩; cases hp
      · rw [h.agrees ho, hbefore, expects_of_idle hw hg]
        simp [and_comm]

theorem Phase.readReply {m : Mode} {rest : List Mode} (h : v.Phase) (hacks : v.acks = m :: rest) (hr : r ∈ v.requests)
    (hp : v.pending = some r.id) (hf : r.fut = .pending) :
    Phase { v with acks := rest, requests := v.setFut r.id (.done m), pending := none } := by
  cases h with
  | settled h => exact .settled (h.readReply hacks hr hp hf)
  | sent q h => rw [h.acks] at hacks; cases hacks
  | replied q h =>
      rw [h.requests] at hr
      cases List.mem_singleton.mp hr
      exact h.readReply hacks
  | granted q h =>
      rw [h.requests] at hr
      cases List.mem_singleton.mp hr
      rw [h.fut] at hf; cases hf

theorem Phase.readNotice {m : Mode} {rest : List Mode} (h : v.Phase) (hacks : v.acks = m :: rest) (ha : ¬ v.awaited)
    (hg : m = .readOnly → v.granted = false) :
    Phase { v with acks := rest, pending := none, record := v.record && m ≠ .readOnly } := by
  cases h with
  | settled h =>
      have hm : m = .readOnly := h.acks m (hacks ▸ List.mem_cons_self)
      subst hm
      refine .settled ⟨h.actions, fun n hn => h.acks n ?_, h.idle, h.awaiting, h.granted, fun hrec => ?_, fun hnil ho => ?_⟩
      · rw [hacks]; exact List.mem_cons_of_mem _ hn
      · simp at hrec
      · have hbefore := h.agrees hnil ho
        rw [expects_of_idle h.awaiting h.granted, hacks] at hbefore
        rw [expects_of_idle (v := { v with acks := rest, pending := none, record := v.record && Mode.readOnly ≠ .readOnly })
          h.awaiting h.granted]
        simpa using hbefore
  | sent q h => rw [h.acks] at hacks; cases hacks
  | replied q h => exact absurd (awaited_of_mem (by rw [h.requests]; exact List.mem_singleton_self q) h.pending h.fut) ha
  | granted q h =>
      have hm : m = .readOnly := h.acks m (hacks ▸ List.mem_cons_self)
      rw [h.toAsking.granted] at hg
      cases hg hm

/-! ## At the origin -/

/-- The agreement with another mirror that is read-write exactly when the record is going to be. -/
theorem Phase.restore (h : v.Phase) {mirror : Option Mode} {owed : Bool} (hm : mirror = some .readWrite ↔ v.expects) :
    Phase { v with mirror := mirror, owed := owed } := by
  cases h with
  | settled h => exact .settled { h with agrees := fun _ _ => hm }
  | sent q h =>
      refine .sent q { h with mirror := fun _ hrec => hm.mpr ?_ }
      unfold expects
      simp [h.acks, show v.record = true from hrec]
  | replied q h => exact .replied q { h with agrees := fun _ => hm }
  | granted q h => exact .granted q { h with agrees := fun _ => hm }

/-- A mirror that is demoted, with the notice to come. -/
theorem Phase.demote (h : v.Phase) : Phase { v with mirror := v.mirror.map fun _ => .readOnly, owed := true } := by
  cases h with
  | settled h => exact .settled { h with agrees := fun _ ho => (by cases ho) }
  | sent q h => exact .sent q { h with mirror := fun ho => (by cases ho) }
  | replied q h => exact .replied q { h with agrees := fun ho => (by cases ho) }
  | granted q h => exact .granted q { h with agrees := fun ho => (by cases ho) }

/-- A notice to a mirror that is not read-write, when no request of the stream is under way. -/
theorem Phase.tell (h : v.Phase) (ha : v.asked = false) {mirror : Option Mode} (hm : mirror ≠ some .readWrite) (owed : Bool) :
    Phase { v with mirror := mirror, acks := v.acks ++ [.readOnly], owed := owed } := by
  obtain ⟨harb, hact⟩ := asked_eq_false.mp ha
  have hagree : v.awaiting = false ∨ v.acks ≠ [] →
      Agrees { v with mirror := mirror, acks := v.acks ++ [.readOnly], owed := owed } := by
    intro hw _
    have : StreamView.expects { v with mirror := mirror, acks := v.acks ++ [.readOnly], owed := owed } = false :=
      expects_notice hw .readOnly
    simp [hm, this]
  have hacks : (∀ n ∈ v.acks, n = .readOnly) → ∀ n ∈ v.acks ++ [.readOnly], n = .readOnly := by
    intro hall n hn
    rcases List.mem_append.mp hn with hn | hn
    · exact hall n hn
    · exact List.mem_singleton.mp hn
  cases h with
  | settled h => exact .settled { h with acks := hacks h.acks, agrees := fun _ => hagree (.inl h.awaiting) }
  | sent q h =>
      rcases h.frame with ⟨-, a, hacts, hask⟩ | ⟨h₁, -⟩
      · exact absurd hask (hact a (by simp [hacts]))
      · rw [h₁] at harb; cases harb
  | replied q h =>
      obtain ⟨m, rest, hms, hrest⟩ := h.acks
      refine .replied q { h with acks := ⟨m, rest ++ [.readOnly], by simp [hms], ?_⟩, agrees := hagree (.inr (by simp [hms])) }
      intro n hn
      rcases List.mem_append.mp hn with hn | hn
      · exact hrest n hn
      · exact List.mem_singleton.mp hn
  | granted q h =>
      exact .granted q { h with acks := hacks h.acks, agrees := hagree (.inl h.toAsking.not_awaiting) }

/-- OPEN frames are nothing to the phase, nor is a mirror that is as read-write as before. -/
theorem Phase.congr (h : v.Phase) {opened : Bool} {mirror : Option Mode}
    (hact : StreamView.actions { v with frames := fs } = v.actions)
    (hm : v.mirror = some .readWrite ↔ mirror = some .readWrite) :
    Phase { v with frames := fs, opened := opened, mirror := mirror } := by
  have hagree : v.Agrees → Agrees { v with frames := fs, opened := opened, mirror := mirror } := fun h ho =>
    hm.symm.trans (h ho)
  cases h with
  | settled h =>
      exact .settled ⟨hact ▸ h.actions, h.acks, h.idle, h.awaiting, h.granted,
        fun hrec => ⟨hact ▸ (h.holds hrec).1, (h.holds hrec).2⟩, fun hnil => hagree (h.agrees (hact ▸ hnil))⟩
  | sent q h =>
      exact .sent q ⟨⟨h.requests, h.asks, h.fut⟩, h.pending, h.acks, hact ▸ h.frame, fun ho hrec => hm.mp (h.mirror ho hrec)⟩
  | replied q h =>
      exact .replied q ⟨⟨h.requests, h.asks, h.fut⟩, h.pending, h.idle, hact ▸ h.actions, h.acks, hagree h.agrees⟩
  | granted q h =>
      exact .granted q ⟨⟨h.requests, h.asks, h.fut⟩, h.idle, hact ▸ h.actions, h.acks, hagree h.agrees⟩

theorem getD_readOnly {mirror : Option Mode} (h : mirror ≠ some .readWrite) : mirror.getD .readOnly = .readOnly := by
  cases mirror with
  | none => rfl
  | some m => cases m with
    | readOnly => rfl
    | readWrite => exact absurd rfl h

/-- The reply of the origin to a request that has arrived. -/
theorem Sent.reply (h : v.Sent r) (fs : List StreamFrame) {mirror : Option Mode} (hact : StreamView.actions { v with frames := fs } = [])
    (hkeep : v.mirror = some .readWrite → mirror = some .readWrite) {arb : Bool} (harb : arb = false) :
    Replied { v with
      frames := fs, mirror := mirror, arbitrating := arb, acks := v.acks ++ [mirror.getD .readOnly] } r := by
  have hacks : v.acks ++ [mirror.getD .readOnly] = mirror.getD .readOnly :: [] := by rw [h.acks]; rfl
  refine ⟨⟨h.requests, h.asks, h.fut⟩, h.pending, harb, hact, ⟨_, [], hacks, by simp⟩, fun ho => ?_⟩
  have hw : StreamView.awaiting { v with
      frames := fs, mirror := mirror, arbitrating := arb, acks := v.acks ++ [mirror.getD .readOnly] } = true :=
    h.toAsking.awaiting
  have hrec : v.record = true → mirror = some .readWrite := fun hrec => hkeep (h.mirror ho hrec)
  unfold expects
  simp only [h.acks, List.nil_append] at hw ⊢
  rw [hw]
  by_cases hm : mirror = some .readWrite
  · simp [hm]
  · have : v.record = false := by
      by_contra hr
      exact hm (hrec (by simpa using hr))
    simp [hm, this, getD_readOnly hm]

theorem Phase.answer (h : v.Phase) (hf : v.frames = .fedrw a :: fs) (harb : v.arbitrating = false)
    {mirror : Option Mode} (hrel : ¬ a.Asks → mirror ≠ some .readWrite)
    (hkeep : a.Asks → v.mirror = some .readWrite → mirror = some .readWrite) :
    Phase { v with frames := fs, mirror := mirror, acks := v.acks ++ [mirror.getD .readOnly] } := by
  have hact := actions_of_fedrw hf
  cases h with
  | settled h =>
      have ha : a = .release := h.actions a (hact ▸ List.mem_cons_self)
      have hm : mirror ≠ some .readWrite := hrel (by rw [ha]; exact id)
      refine .settled ⟨fun b hb => h.actions b (hact ▸ List.mem_cons_of_mem _ hb), fun n hn => ?_, h.idle, h.awaiting,
        h.granted, fun hrec => ?_, fun _ _ => ?_⟩
      · rcases List.mem_append.mp hn with hn | hn
        · exact h.acks n hn
        · rw [List.mem_singleton.mp hn, getD_readOnly hm]
      · have := (h.holds hrec).1
        rw [hact] at this; cases this
      · have : StreamView.expects { v with frames := fs, mirror := mirror, acks := v.acks ++ [mirror.getD .readOnly] } = false :=
          expects_notice (.inl h.awaiting) _
        simp [hm, this]
  | sent q h =>
      rcases h.frame with ⟨-, b, hb, hask⟩ | ⟨h₁, -⟩
      · rw [hact] at hb
        obtain ⟨rfl, hnil⟩ := List.cons.inj hb
        exact .replied q (h.reply fs hnil (hkeep hask) harb)
      · rw [h₁] at harb; cases harb
  | replied q h => rw [h.actions] at hact; cases hact
  | granted q h => rw [h.actions] at hact; cases hact

theorem Phase.arbitrate (h : v.Phase) (hf : v.frames = .fedrw a :: fs) (ha : a.Asks) :
    Phase { v with frames := fs, arbitrating := true } := by
  have hact := actions_of_fedrw hf
  cases h with
  | settled h =>
      have : a = .release := h.actions a (hact ▸ List.mem_cons_self)
      rw [this] at ha
      exact absurd ha id
  | sent q h =>
      rcases h.frame with ⟨-, b, hb, hask⟩ | ⟨-, hnil⟩
      · rw [hact] at hb
        obtain ⟨rfl, hnil⟩ := List.cons.inj hb
        exact .sent q ⟨⟨h.requests, h.asks, h.fut⟩, h.pending, h.acks, .inr ⟨rfl, hnil⟩, h.mirror⟩
      · rw [hact] at hnil; cases hnil
  | replied q h => rw [h.actions] at hact; cases hact
  | granted q h => rw [h.actions] at hact; cases hact

theorem Phase.settle (h : v.Phase) (harb : v.arbitrating = true) {mirror : Option Mode}
    (hkeep : v.mirror = some .readWrite → mirror = some .readWrite) :
    Phase { v with arbitrating := false, mirror := mirror, acks := v.acks ++ [mirror.getD .readOnly] } := by
  cases h with
  | settled h => rw [h.idle] at harb; cases harb
  | sent q h =>
      rcases h.frame with ⟨h₁, -⟩ | ⟨-, hnil⟩
      · rw [h₁] at harb; cases harb
      · exact .replied q (h.reply v.frames hnil hkeep rfl)
  | replied q h => rw [h.idle] at harb; cases harb
  | granted q h => rw [h.idle] at harb; cases harb

/-! ## The invariant -/

theorem invariant_blank : Invariant {} :=
  ⟨fun _ => rfl, fun h => (by cases h), fun h => (by cases h), fun h => (by cases h),
    .settled ⟨by simp [StreamView.actions], by simp, rfl, rfl, rfl, fun h => (by cases h), fun _ _ => by simp [expects, StreamView.granted]⟩⟩

theorem Invariant.session (h : v.Invariant) (hne : v ≠ {}) : v.session = true := by
  by_contra hs
  exact hne (h.blank (by simpa using hs))

/-- The OPEN of a stream stays ahead of what is sent on it. -/
theorem Invariant.reached_send (h : v.Invariant) (hs : v.session) (f : StreamFrame) :
    v.opened ∨ (v.frames ++ [f]).head? = some .openStream := by
  rcases h.reached hs with ho | hf
  · exact .inl ho
  · exact .inr (by rw [List.head?_append, hf]; rfl)

theorem Invariant.move (h : v.Invariant) (hm : Move v v') : v'.Invariant := by
  have hsess : ∀ {p : Prop}, v.session = true → v.session = false → p := by
    intro p h₁ h₂; rw [h₁] at h₂; cases h₂
  have hopen : v.opened = true → v.session = true := fun ho => h.session (by rintro rfl; cases ho)
  cases hm with
  | connect h₀ =>
      subst h₀
      exact ⟨fun hs => (by cases hs), fun _ => .inr rfl, fun hm => (by cases hm), fun ho => (by cases ho),
        .settled ⟨by simp [StreamView.actions], by simp, rfl, rfl, rfl, fun h => (by cases h),
          fun _ _ => by simp [expects, StreamView.granted]⟩⟩
  | ask r a hs hc hr hf ha =>
      obtain ⟨hw, hg⟩ := hc.idle
      exact ⟨hsess hs, fun _ => h.reached_send hs _, h.mirror, h.owed, .sent r ((h.phase.of_idle hw hg).ask hc hr hf ha)⟩
  | release r hs hw hg hr =>
      exact ⟨hsess hs, fun _ => h.reached_send hs _, h.mirror, h.owed, .settled ((h.phase.of_idle hw hg).release hr)⟩
  | reopen hs =>
      have hact : StreamView.actions { v with frames := v.frames ++ [.openStream] } = v.actions := by
        simp [StreamView.actions]
      exact ⟨hsess hs, fun _ => h.reached_send hs _, h.mirror, h.owed, h.phase.congr hact Iff.rfl⟩
  | expire id hs hf hc => exact ⟨hsess hs, h.reached, h.mirror, h.owed, h.phase.expire id hf hc⟩
  | finish r record hs hr hf hrec => exact ⟨hsess hs, h.reached, h.mirror, h.owed, h.phase.finish hr hf hrec⟩
  | follow r r' hs hr ha hf hacks ha' hf' =>
      exact ⟨hsess hs, fun _ => h.reached_send hs _, h.mirror, h.owed, h.phase.follow hr ha hf hacks ha' hf'⟩
  | readReply m rest r hacks hr hp hf =>
      have hs : v.session = true := h.session (by rintro rfl; cases hacks)
      exact ⟨hsess hs, h.reached, h.mirror, h.owed, h.phase.readReply hacks hr hp hf⟩
  | readNotice m rest hacks ha hg =>
      have hs : v.session = true := h.session (by rintro rfl; cases hacks)
      exact ⟨hsess hs, h.reached, h.mirror, h.owed, h.phase.readNotice hacks ha hg⟩
  | openStream rest hf hm =>
      have hs : v.session = true := h.session (by rintro rfl; cases hf)
      exact ⟨hsess hs, fun _ => .inl rfl, fun _ => rfl, fun _ => rfl, h.phase.congr (actions_of_openStream hf).symm (by simp [hm])⟩
  | answer a rest mirror hf harb ho hrel hkeep =>
      exact ⟨hsess (hopen ho), fun _ => .inl ho, fun _ => ho, fun _ => ho, h.phase.answer hf harb hrel hkeep⟩
  | arbitrate a rest hf ha ho => exact ⟨hsess (hopen ho), fun _ => .inl ho, h.mirror, h.owed, h.phase.arbitrate hf ha⟩
  | settle mirror harb ho hkeep =>
      have hs : v.session = true := h.session (by rintro rfl; cases harb)
      exact ⟨hsess hs, h.reached, ho, h.owed, h.phase.settle harb hkeep⟩
  | tell ho ha =>
      refine ⟨hsess (hopen ho), fun _ => .inl ho, fun _ => ho, fun _ => ho, h.phase.tell ha ?_ v.owed⟩
      cases v.mirror <;> simp
  | demote ho => exact ⟨hsess (hopen ho), fun _ => .inl ho, fun _ => ho, fun _ => ho, h.phase.demote⟩
  | notify owed ho ht => exact ⟨hsess (hopen ho), fun _ => .inl ho, fun _ => ho, fun _ => ho, h.phase.tell ht.2 ht.1 owed⟩
  | restore mirror owed ho hm => exact ⟨hsess (hopen ho), fun _ => .inl ho, fun _ => ho, fun _ => ho, h.phase.restore hm⟩

theorem Invariant.moves (h : v.Invariant) (hm : Relation.ReflTransGen Move v v') : v'.Invariant := by
  induction hm with
  | refl => exact h
  | tail _ hstep ih => exact ih.move hstep

end StreamView

end OpenMux.Arbitration
