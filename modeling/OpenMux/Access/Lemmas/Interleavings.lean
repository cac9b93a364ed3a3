import OpenMux.Access.Lemmas.Seats

/-!
# What the operations do to the seats

Every change that an operation makes keeps the seats of every port, and only `write_to_port` forwards bytes.
-/

namespace OpenMux.Access

open Py Federation Origin

namespace Console

variable {s s' : Console} {name clientId : Text} {f : Port → Port}

/-- Every local port is seated. -/
def Seated (s : Console) : Prop := ∀ name p, s.ports.get? name = some p → p.Seated

/-- A change that keeps the seats, the bytes forwarded and the capacity of every port. -/
def Quiet (s s' : Console) : Prop := (s.Seated → s'.Seated) ∧ s'.written = s.written

theorem Quiet.of_eq (hp : s'.ports = s.ports) (hw : s'.written = s.written) : s.Quiet s' :=
  ⟨fun h name p hport => h name p (hp ▸ hport), hw⟩

@[refl] theorem Quiet.refl (s : Console) : s.Quiet s := .of_eq rfl rfl

theorem Quiet.trans {s'' : Console} (h : s.Quiet s') (h' : s'.Quiet s'') : s.Quiet s'' :=
  ⟨fun hs => h'.1 (h.1 hs), h'.2.trans h.2⟩

theorem quiet_updatePort (hf : ∀ p : Port, p.Seated → (f p).Seated) : s.Quiet (s.updatePort name f) := by
  refine ⟨fun h name' p hp => ?_, rfl⟩
  unfold updatePort at hp
  cases hold : s.ports.get? name with
  | none => rw [hold] at hp; exact h name' p hp
  | some q =>
      simp only [hold, Dict.get?_set] at hp
      split at hp
      · cases hp; exact hf q (h name q hold)
      · exact h name' p hp

/-! ## The port manager -/

theorem quiet_add {username : String} {mode : Mode} : s.Quiet (addClientToPort name clientId username mode s).1 :=
  quiet_updatePort fun _ h => h.addClient _

theorem quiet_remove : s.Quiet (removeClientFromPort name clientId s).1 := quiet_updatePort fun _ h => h.removeClient _

theorem quiet_promote : s.Quiet (promoteClient name clientId s).1 := quiet_updatePort fun _ h => h.promoteClient _

theorem quiet_demote : s.Quiet (demoteClient name clientId s).1 := quiet_updatePort fun _ h => h.demoteClient _

/-! ## The console manager -/

open Coro

theorem acts_disconnect : Acts Quiet (disconnectClientFromPort clientId name) := by
  unfold disconnectClientFromPort
  refine (acts_get .refl).bind fun s => ?_
  split
  · exact acts_pure _
  · refine (acts_lift fun _ => quiet_remove).bind fun _ => ?_
    have hrest : Acts Quiet (do
        let s ← Coro.get
        if (s.clientPortMap.get? clientId).isNone then
          return none
        else
          Coro.modify fun s => { s with clientPortMap := s.clientPortMap.pop clientId }
          Coro.yield
          return some true : Coro Console (Option Bool)) := by
      refine (acts_get .refl).bind fun s => ?_
      split
      · exact acts_pure _
      · exact (acts_modify fun _ => .of_eq rfl rfl).bind fun _ => acts_yield.bind fun _ => acts_pure _
    split
    · exact acts_yield.bind fun _ => hrest
    · exact hrest

theorem acts_attachClient {username : String} {mode : Mode} {code : Code} :
    Acts Quiet (attachClientToPort name clientId username mode code) := by
  have hmap (r : Option Mode × Code) : Acts Quiet (do
      Coro.modify fun s => { s with clientPortMap := s.clientPortMap.set clientId name }
      return r : Coro Console (Option Mode × Code)) :=
    (acts_modify fun _ => .of_eq rfl rfl).bind fun _ => acts_pure _
  unfold attachClientToPort
  refine (acts_lift fun _ => quiet_add).bind fun success => ?_
  split
  · exact hmap _
  · split
    · refine (acts_lift fun _ => quiet_add).bind fun success => ?_
      split
      · exact hmap _
      · exact acts_pure _
    · exact acts_pure _

theorem acts_attachPhase {username : String} : Acts Quiet (attachPhase clientId name username) := by
  unfold attachPhase
  refine (acts_get .refl).bind fun s => ?_
  split
  · exact acts_pure _
  · dsimp only
    split
    · refine acts_attachClient.bind fun r => ?_
      split
      · exact (acts_get .refl).bind fun _ => acts_pure _
      · exact acts_yield.bind fun _ => (acts_get .refl).bind fun _ => acts_pure _
    · exact acts_pure _

theorem acts_connect {username : String} : Acts Quiet (connectClientToPort clientId name username) := by
  unfold connectClientToPort
  refine (acts_get .refl).bind fun s => ?_
  split
  · exact acts_attachPhase.map _
  · refine acts_disconnect.bind fun r => ?_
    split
    · exact acts_pure _
    · exact acts_attachPhase.map _

theorem acts_promote : Acts Quiet (promoteClientToReadWrite clientId name) := by
  unfold promoteClientToReadWrite promoteChecked
  refine (acts_get .refl).bind fun s => ?_
  split
  · exact acts_pure _
  · split
    · exact acts_pure _
    · refine (acts_lift fun _ => quiet_promote).bind fun success => ?_
      split
      · exact acts_yield.bind fun _ => (acts_get .refl).bind fun _ => acts_pure _
      · exact (acts_get .refl).bind fun _ => acts_pure _

theorem acts_demote : Acts Quiet (demoteClientToReadOnly clientId name) := by
  unfold demoteClientToReadOnly
  refine (acts_get .refl).bind fun s => ?_
  split
  · exact acts_pure _
  · refine (acts_lift fun _ => quiet_demote).bind fun success => ?_
    split
    · exact acts_yield.bind fun _ => (acts_get .refl).bind fun _ => acts_pure _
    · exact (acts_get .refl).bind fun _ => acts_pure _

theorem acts_takeSlot {victim : Client} : Acts Quiet (takeSlotLocal name clientId victim) := by
  unfold takeSlotLocal
  refine (acts_get .refl).bind fun s => acts_demote.bind fun demoted => ?_
  split
  · refine acts_promote.bind fun promoted => ?_
    split
    · exact acts_yield.bind fun _ => (acts_get .refl).bind fun _ => acts_pure _
    · exact (acts_lift fun _ => quiet_promote).bind fun _ => (acts_get .refl).bind fun _ => acts_pure _
  · exact acts_pure _

theorem acts_takeLocal {target : Option Text} {p : Port} : Acts Quiet (takeWriteSlotLocal clientId name target p) := by
  unfold takeWriteSlotLocal
  refine (acts_get .refl).bind fun s => ?_
  split
  · split <;> exact acts_pure _
  · exact acts_pure _
  · split
    · exact acts_takeSlot
    · split
      · exact acts_pure _
      · split
        · exact acts_pure _
        · refine acts_promote.bind fun promoted => (acts_get .refl).bind fun _ => ?_
          split <;> exact acts_pure _

theorem acts_take {target : Option Text} : Acts Quiet (takeWriteSlot clientId name target) := by
  unfold takeWriteSlot
  refine (acts_get .refl).bind fun s => ?_
  split
  · exact acts_pure _
  · split
    · exact acts_pure _
    · split
      · exact acts_pure _
      · split
        · exact acts_pure _
        · exact acts_takeLocal

/-! ## The arbiter -/

theorem acts_fedrwTake {slot : Slot} {spec : TakeSpec} : Acts Quiet (handleFedrwTake slot name spec) := by
  have htransfer (victim : Text) : Acts Quiet (do
      Coro.yield
      let promoted ← Coro.lift (promoteClient name (Streams.fedClientId slot.1 slot.2))
      if promoted then
        return ()
      else
        let _ ← Coro.lift (promoteClient name victim)
        return () : Coro Console Unit) := by
    refine acts_yield.bind fun _ => (acts_lift fun _ => quiet_promote).bind fun promoted => ?_
    split
    · exact acts_pure _
    · exact (acts_lift fun _ => quiet_promote).bind fun _ => acts_pure _
  unfold handleFedrwTake
  refine (acts_get .refl).bind fun s => ?_
  split
  · split
    · exact (acts_lift fun _ => quiet_promote).bind fun _ => acts_pure _
    · exact acts_pure _
  · split
    · exact (acts_lift fun _ => quiet_demote).bind fun _ => htransfer _
    · exact acts_demote.bind fun _ => htransfer _

theorem acts_fedrw {slot : Slot} {action : FedrwAction} : Acts Quiet (handleFedrwRequest slot name action) := by
  have hack : Acts Quiet (do
      let s ← Coro.get
      return some (s.connectedClientMode name (Streams.fedClientId slot.1 slot.2)) : Coro Console (Option Mode)) :=
    (acts_get .refl).bind fun _ => acts_pure _
  unfold handleFedrwRequest
  refine (acts_get .refl).bind fun s => ?_
  split
  · exact acts_pure _
  · split
    · exact acts_pure _
    · rename_i hknown
      cases action with
      | request => exact (acts_lift fun _ => quiet_promote).bind fun _ => hack
      | release => exact (acts_lift fun _ => quiet_demote).bind fun _ => hack
      | take spec => exact acts_fedrwTake.bind fun _ => hack
      | force => exact acts_fedrwTake.bind fun _ => hack
      | unknown => exact absurd rfl hknown

end Console

/-! ## Segments -/

open Console

/-- Every operation but a write leaves the bytes forwarded as they are. -/
theorem acts_body {op : Op} (hop : ∀ name clientId data, op ≠ .writeToPort name clientId data) : Coro.Acts Quiet op.body := by
  cases op with
  | addClientToPort => exact (Coro.acts_lift fun _ => quiet_add).map _
  | removeClientFromPort => exact (Coro.acts_lift fun _ => quiet_remove).map _
  | promoteClient => exact (Coro.acts_lift fun _ => quiet_promote).map _
  | demoteClient => exact (Coro.acts_lift fun _ => quiet_demote).map _
  | writeToPort name clientId data => exact absurd rfl (hop name clientId data)
  | disconnect => exact acts_disconnect.map _
  | connect => exact acts_connect.map _
  | promote => exact acts_promote.map _
  | demote => exact acts_demote.map _
  | take => exact acts_take.map _
  | fedrw => exact acts_fedrw.map _

/-- Bytes are forwarded only for a client whose record is read-write. -/
def Forwards (s s' : Console) : Prop :=
  s'.written = s.written ∨
    ∃ name clientId data p c, s'.written = s.written ++ [(name, clientId, data)] ∧ s.ports.get? name = some p ∧
      c ∈ p.connectedClients ∧ c.clientId = clientId ∧ c.mode = .readWrite

/-- What a segment does: it keeps the seats, and forwards bytes for writers only. -/
def Fair (s s' : Console) : Prop := s'.Seated ∧ Forwards s s'

theorem forwards_write (s : Console) (name clientId : Text) (data : List UInt8) :
    Forwards s (writeToPort name clientId data s).1 := by
  cases hallowed : s.askPort name (·.clientHasWrite clientId) with
  | false => exact .inl (by simp [writeToPort, hallowed])
  | true =>
      have hask := hallowed
      unfold askPort at hask
      split at hask
      · rename_i p hp
        simp only [Port.clientHasWrite] at hask
        split at hask
        · rename_i c hc
          refine .inr ⟨name, clientId, data, p, c, by simp [writeToPort, hallowed], hp, List.mem_of_find?_eq_some hc, ?_, ?_⟩
          · simpa using List.find?_some hc
          · simpa using hask
        · cases hask
      · cases hask

/-- Every segment of every operation is fair. -/
theorem safe_body (op : Op) (s : Console) (h : s.Seated) :
    op.body.Safe Seated Fair (fun t₀ t _ => Fair t₀ t) s s := by
  by_cases hop : ∀ name clientId data, op ≠ .writeToPort name clientId data
  · have hsafe : op.body.Safe Seated (fun s s' => s'.Seated ∧ s'.written = s.written)
        (fun s s' _ => s'.Seated ∧ s'.written = s.written) s s :=
      (acts_body hop).safe (fun _ h => ⟨h, rfl⟩) (fun _ _ _ hr hp => ⟨hp.1 hr.1, hp.2.trans hr.2⟩) ⟨h, rfl⟩
    exact hsafe.mono (fun _ _ h => ⟨h.1, .inl h.2⟩) fun _ _ _ h => ⟨h.1, .inl h.2⟩
  · simp only [not_forall, not_not] at hop
    obtain ⟨name, clientId, data, rfl⟩ := hop
    exact ⟨h, forwards_write s name clientId data⟩

theorem change_eq {s s' : Console} {e : Change} (hs : s.change e = some s') :
    s'.ports = s.ports ∧ s'.written = s.written := by
  cases e <;> cases hs <;> exact ⟨rfl, rfl⟩

theorem seated_change {s s' : Console} {e : Change} (h : s.Seated) (hs : s.change e = some s') : s'.Seated :=
  (Quiet.of_eq (change_eq hs).1 (change_eq hs).2).1 h

end OpenMux.Access
