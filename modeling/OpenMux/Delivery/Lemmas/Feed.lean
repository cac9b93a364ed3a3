import OpenMux.Access.Lemmas.Seats
import OpenMux.Delivery.Port

/-! The accounts of the queues of a port in every state of a run. -/

namespace OpenMux.Delivery

open Py Federation Origin

namespace Port

variable {p : Port} {id : Text} {c : Client} {n : Nat} {data : Chunk}

/-- The numbers of the queues that are fed. -/
def fed (p : Port) : List Nat := p.clientQueues.entries.map Prod.snd

theorem hasClient_iff : p.hasClient id = true ↔ id ∈ p.connectedClients.map (·.clientId) := by
  simp only [hasClient, List.any_eq_true, decide_eq_true_eq, List.mem_map]

/-- Everything but the client queues and the counter. -/
def Frame (p p' : Port) : Prop :=
  p'.connectedClients = p.connectedClients ∧ p'.clientQueues = p.clientQueues ∧ p'.made = p.made ∧ p'.dataQueue = p.dataQueue ∧
    p'.federationViewerCount = p.federationViewerCount

theorem offerTo_get? (m : Nat) : (p.offerTo n data).queues.get? m =
    if m = n then (p.queues.get? n).map fun q => (q.offer data).1 else p.queues.get? m := by
  cases hq : p.queues.get? n with
  | none =>
      have heq : p.offerTo n data = p := by simp [offerTo, hq]
      rw [heq]
      split
      case isTrue h => rw [h, hq, Option.map_none]
      case isFalse => rfl
  | some q => simp [offerTo, hq, Dict.get?_set]

theorem offerTo_frame (data : Chunk) : p.Frame (p.offerTo n data) := by
  unfold offerTo
  cases p.queues.get? n <;> exact ⟨rfl, rfl, rfl, rfl, rfl⟩

/-- How many chunks the offer drops. -/
def drops (p : Port) (data : Chunk) (n : Nat) : Nat := ((p.queues.get? n).map fun q => (q.offer data).2).getD 0

theorem offerTo_dropped : (p.offerTo n data).droppedChunks = p.droppedChunks + p.drops data n := by
  unfold offerTo drops
  cases p.queues.get? n <;> rfl

/-- What the loop over the queues does to each of them, to the counter, and to nothing else. -/
theorem foldl_offerTo (data : Chunk) {ns : List Nat} (hn : ns.Nodup) (p : Port) :
    let p' := ns.foldl (fun p n => p.offerTo n data) p
    (∀ m, p'.queues.get? m = if m ∈ ns then (p.queues.get? m).map fun q => (q.offer data).1 else p.queues.get? m) ∧
      p'.droppedChunks = p.droppedChunks + (ns.map (p.drops data)).sum ∧ p.Frame p' := by
  induction ns generalizing p with
  | nil => exact ⟨fun m => by simp, by simp, rfl, rfl, rfl, rfl, rfl⟩
  | cons n ns ih =>
      obtain ⟨hnot, hrest⟩ := List.nodup_cons.mp hn
      obtain ⟨hqueues, hdropped, hframe⟩ := ih hrest (p.offerTo n data)
      have hsame : ∀ m ∈ ns, (p.offerTo n data).drops data m = p.drops data m := by
        intro m hm
        have hne : m ≠ n := fun h => hnot (h ▸ hm)
        simp [drops, offerTo_get?, hne]
      refine ⟨fun m => ?_, ?_, ?_⟩
      · rw [List.foldl_cons, hqueues, offerTo_get?]
        by_cases hm : m = n
        · simp [hm, hnot]
        · simp [hm]
      · rw [List.foldl_cons, hdropped, offerTo_dropped, List.map_congr_left hsame, List.map_cons, List.sum_cons]
        omega
      · obtain ⟨h₁, h₂, h₃, h₄, h₅⟩ := offerTo_frame (p := p) (n := n) data
        obtain ⟨k₁, k₂, k₃, k₄, k₅⟩ := hframe
        exact ⟨k₁.trans h₁, k₂.trans h₂, k₃.trans h₃, k₄.trans h₄, k₅.trans h₅⟩

end Port

namespace Feed

variable {s s' : Feed} {n : Nat} {id : Text}

structure Inv (s : Feed) : Prop where
  ids : (s.port.connectedClients.map (·.clientId)).Nodup
  served : ∀ id, s.port.hasClient id = true ↔ (s.attached.get? id).isSome
  queues : s.port.clientQueues = s.attached
  made : ∀ n, (s.port.queues.get? n).isSome ↔ n < s.port.made
  own : ∀ id n, s.attached.get? id = some n → n < s.port.made
  apart : (s.attached.entries.map Prod.snd).Nodup
  size : ∀ n q, s.port.queues.get? n = some q → q.maxsize = 100 ∧ q.Bounded
  fresh : ∀ n, s.port.made ≤ n → s.arrived n = [] ∧ s.handed n = []
  kept : ∀ n, Queue.Kept (s.arrived n) (s.handed n) (s.items n)
  sharedKept : Queue.Kept s.sharedArrived s.sharedHanded s.port.dataQueue.items
  sharedSize : (s.port.dataQueue.maxsize = 100 ∨ s.port.dataQueue.maxsize = 0) ∧ s.port.dataQueue.Bounded
  counted : s.port.droppedChunks = ∑ n ∈ Finset.range s.port.made, s.missing n + s.sharedMissing

theorem inv_start (kind : Kind) (maxReadWriteUsers : WriteMode) (scrollbackSize : Nat) :
    (start kind maxReadWriteUsers scrollbackSize).Inv where
  ids := List.nodup_nil
  served := fun id => by simp [start, Port.hasClient]
  queues := rfl
  made := fun n => by simp [start]
  own := fun id n h => by cases h
  apart := List.nodup_nil
  size := fun n q h => by cases h
  fresh := fun n _ => ⟨rfl, rfl⟩
  kept := fun n => Queue.kept_nil
  sharedKept := Queue.kept_nil
  sharedSize := ⟨by cases kind <;> simp [start, Kind.maxsize], .inr (Nat.zero_le _)⟩
  counted := rfl

/-! ## Clients -/

theorem get?_attached (h : s.Inv) : s.port.hasClient id = false ↔ s.attached.get? id = none := by
  rw [← Bool.not_eq_true, h.served, Option.not_isSome_iff_eq_none]

/-- The queues that are fed are those of the attached clients. -/
theorem Inv.fed (h : s.Inv) : s.port.fed = s.attached.entries.map Prod.snd := by rw [Port.fed, h.queues]

theorem Inv.lt_made (h : s.Inv) (hn : n ∈ s.attached.entries.map Prod.snd) : n < s.port.made := by
  obtain ⟨⟨id, m⟩, he, rfl⟩ := List.mem_map.mp hn
  exact h.own id m (Dict.mem_entries.mp he)

/-- A new client gets a new queue. -/
theorem Inv.attachNew (h : s.Inv) {c : Client} (hnew : s.port.hasClient c.clientId = false) :
    Inv { s with
      port := Port.newQueue { s.port with connectedClients := s.port.connectedClients ++ [c] } c.clientId
      attached := s.attached.set c.clientId s.port.made } := by
  have hnot : c.clientId ∉ s.port.connectedClients.map (·.clientId) := by
    rw [← Port.hasClient_iff, hnew]
    exact Bool.false_ne_true
  have hnone := (get?_attached h).mp hnew
  obtain ⟨harrived, hhanded⟩ := h.fresh s.port.made le_rfl
  have hitems : ∀ n, (((s.port.queues.set s.port.made ⟨100, []⟩).get? n).map Queue.items).getD [] =
      if n = s.port.made then [] else s.items n := by
    intro n
    rw [Dict.get?_set]
    split <;> rfl
  constructor
  case ids =>
    rw [Port.newQueue, List.map_append, List.nodup_append]
    exact ⟨h.ids, by simp, by simpa using hnot⟩
  case served =>
    intro id
    rw [Port.hasClient_iff, Port.newQueue, List.map_append, List.mem_append, ← Port.hasClient_iff, h.served, Dict.get?_set]
    by_cases hid : id = c.clientId <;> simp [hid]
  case queues => simp [Port.newQueue, h.queues]
  case made =>
    intro n
    simp only [Port.newQueue, Dict.get?_set]
    split
    case isTrue hn => simp [hn]
    case isFalse hn =>
      rw [h.made]
      omega
  case own =>
    intro id n hn
    simp only [Dict.get?_set] at hn
    simp only [Port.newQueue]
    split at hn
    · cases hn
      omega
    · exact (h.own id n hn).trans (Nat.lt_succ_self _)
  case apart =>
    rw [Dict.entries_set_of_none hnone, List.map_append, List.nodup_append]
    refine ⟨h.apart, by simp, fun n hn m hm => ?_⟩
    have := h.lt_made hn
    simp only [List.map_cons, List.map_nil, List.mem_singleton] at hm
    omega
  case size =>
    intro n q hq
    simp only [Port.newQueue, Dict.get?_set] at hq
    split at hq
    · cases hq
      exact ⟨rfl, .inr (Nat.zero_le _)⟩
    · exact h.size n q hq
  case fresh => exact fun n hn => h.fresh n (Nat.le_of_succ_le hn)
  case kept =>
    intro n
    simp only [items, Port.newQueue, hitems]
    split
    case isTrue hn =>
      rw [hn, harrived, hhanded]
      exact Queue.kept_nil
    case isFalse => exact h.kept n
  case sharedKept => exact h.sharedKept
  case sharedSize => exact h.sharedSize
  case counted =>
    rw [show (Port.newQueue { s.port with connectedClients := s.port.connectedClients ++ [c] } c.clientId).droppedChunks =
      s.port.droppedChunks from rfl, h.counted]
    simp only [Port.newQueue, Finset.sum_range_succ, missing, items, hitems]
    congr 1
    rw [harrived, hhanded, if_true, Queue.lost, List.length_nil, Nat.zero_sub, add_zero]
    apply Finset.sum_congr rfl
    intro n hn
    rw [if_neg (Finset.mem_range.mp hn).ne]

/-- Nothing is missing of a new queue. -/
theorem Inv.missing_attachNew (h : s.Inv) (c : Client) (attached : Dict Text Nat) : missing { s with
    port := Port.newQueue { s.port with connectedClients := s.port.connectedClients ++ [c] } c.clientId
    attached } = s.missing := by
  funext n
  by_cases hn : n = s.port.made
  · obtain ⟨harrived, -⟩ := h.fresh n hn.ge
    simp only [missing, harrived, Queue.lost, List.length_nil, Nat.zero_sub]
  · have hget : (s.port.queues.set s.port.made ⟨100, []⟩).get? n = s.port.queues.get? n := Dict.get?_set_ne _ _ hn
    simp only [missing, items, Port.newQueue, hget]

theorem Inv.attach (h : s.Inv) {c : Client} (hstep : s.step (.attach c) = some s') :
    s'.Inv ∧ s'.missing = s.missing ∧ s'.sharedMissing = s.sharedMissing := by
  rw [step] at hstep
  by_cases hfull : (c.mode = .readWrite && s.port.atCapacity c.clientId) = true
  · have hadd : s.port.addClientToPort c = (s.port, false) := by rw [Port.addClientToPort, if_pos hfull]
    rw [hadd] at hstep
    obtain rfl := Option.some.inj hstep
    exact ⟨{ h with }, rfl, rfl⟩
  · have hadd : s.port.addClientToPort c = (s.port.attachClientRecord c, true) := by rw [Port.addClientToPort, if_neg hfull]
    rw [hadd] at hstep
    obtain rfl := Option.some.inj hstep
    cases hc : s.port.hasClient c.clientId with
    | true =>
        -- the record is replaced and the queue stays
        have hqueue : (s.port.clientQueues.get? c.clientId).isSome := by
          rw [h.queues]
          exact (h.served _).mp hc
        have hids : (Origin.Port.updateClient c.clientId (fun _ => c) s.port.connectedClients).map (·.clientId) =
            s.port.connectedClients.map (·.clientId) := Origin.Port.map_clientId_updateClient fun _ _ => rfl
        have hattach : s.port.attachClientRecord c =
            { s.port with connectedClients := Origin.Port.updateClient c.clientId (fun _ => c) s.port.connectedClients } := by
          simp [Port.attachClientRecord, hc, hqueue]
        have hnote : s.noteAttached c.clientId true = s.attached := by simp [noteAttached, hc]
        simp only [hattach, hnote]
        refine ⟨{ h with ids := hids ▸ h.ids, served := fun id => ?_ }, rfl, rfl⟩
        rw [← h.served, Port.hasClient_iff, Port.hasClient_iff, hids]
    | false =>
        have hattach : s.port.attachClientRecord c =
            Port.newQueue { s.port with connectedClients := s.port.connectedClients ++ [c] } c.clientId := by
          simp [Port.attachClientRecord, hc]
        have hnote : s.noteAttached c.clientId true = s.attached.set c.clientId s.port.made := by simp [noteAttached, hc]
        simp only [hattach, hnote]
        exact ⟨h.attachNew hc, h.missing_attachNew c _, rfl⟩

theorem Inv.detach (h : s.Inv) (hstep : s.step (.detach id) = some s') :
    s'.Inv ∧ s'.missing = s.missing ∧ s'.sharedMissing = s.sharedMissing := by
  rw [step] at hstep
  cases hc : s.port.hasClient id with
  | false =>
      have hremove : s.port.removeClientFromPort id = (s.port, false) := by simp [Port.removeClientFromPort, hc]
      rw [hremove, Dict.pop_of_none ((get?_attached h).mp hc)] at hstep
      obtain rfl := Option.some.inj hstep
      exact ⟨{ h with }, rfl, rfl⟩
  | true =>
      have hremove : s.port.removeClientFromPort id = ({ s.port with
          connectedClients := s.port.connectedClients.eraseP (·.clientId = id)
          clientQueues := s.port.clientQueues.pop id }, true) := by simp [Port.removeClientFromPort, hc]
      rw [hremove] at hstep
      obtain rfl := Option.some.inj hstep
      have hids : ((s.port.connectedClients.eraseP (·.clientId = id)).map (·.clientId)) =
          (s.port.connectedClients.map (·.clientId)).erase id := by
        have hfun : (fun c : Client => decide (c.clientId = id)) = (· == id) ∘ (·.clientId) := by
          funext c
          exact (beq_eq_decide _ _).symm
        rw [List.erase_eq_eraseP', List.eraseP_map, hfun]
      refine ⟨?_, rfl, rfl⟩
      constructor
      case ids =>
        rw [hids]
        exact h.ids.erase id
      case served =>
        intro id'
        rw [Port.hasClient_iff, hids, h.ids.mem_erase_iff, ← Port.hasClient_iff, h.served, Dict.get?_pop]
        by_cases hid : id' = id <;> simp [hid]
      case queues => rw [h.queues]
      case made => exact h.made
      case own => exact fun id' n hn => h.own id' n (Dict.get?_of_get?_pop hn)
      case apart => exact h.apart.sublist (List.filter_sublist.map _)
      case size => exact h.size
      case fresh => exact h.fresh
      case kept => exact h.kept
      case sharedKept => exact h.sharedKept
      case sharedSize => exact h.sharedSize
      case counted => exact h.counted

/-! ## Reading -/

/-- A chunk that is read is the oldest of its queue. -/
theorem step_read (hstep : s.step (.read n) = some s') : ∃ q q' chunk, s.port.queues.get? n = some q ∧
    q.items = chunk :: q'.items ∧ q'.maxsize = q.maxsize ∧ s' = { s with
      port := { s.port with queues := s.port.queues.set n q' }
      handed := Function.update s.handed n (s.handed n ++ [chunk]) } := by
  rw [step, Port.getClientData] at hstep
  cases hq : s.port.queues.get? n with
  | none => simp [hq] at hstep
  | some q =>
      cases hget : q.getNowait with
      | none => simp [hq, hget] at hstep
      | some r =>
          obtain ⟨chunk, q'⟩ := r
          obtain ⟨hitems, hsize⟩ := Queue.getNowait_some hget
          simp only [hq, hget, Option.pure_def, Option.bind_eq_bind, Option.bind_some, Option.some.injEq] at hstep
          exact ⟨q, q', chunk, rfl, hitems, hsize, hstep.symm⟩

theorem Inv.read (h : s.Inv) (hstep : s.step (.read n) = some s') :
    s'.Inv ∧ s'.missing = s.missing ∧ s'.sharedMissing = s.sharedMissing := by
  obtain ⟨q, q', chunk, hq, hitems, hsize, rfl⟩ := step_read hstep
  obtain ⟨hmax, hbound⟩ := h.size n q hq
  have hold : s.items n = chunk :: q'.items := by rw [items, hq, Option.map_some, Option.getD_some, hitems]
  have hne : ∀ m, m ≠ n → (s.port.queues.set n q').get? m = s.port.queues.get? m := fun m hm => Dict.get?_set_ne _ _ hm
  have hmissing : missing { s with
      port := { s.port with queues := s.port.queues.set n q' }
      handed := Function.update s.handed n (s.handed n ++ [chunk]) } = s.missing := by
    funext m
    by_cases hm : m = n
    · subst hm
      rw [missing, missing, hold]
      simp [items, Queue.lost_get]
    · simp [missing, items, hm, hne]
  refine ⟨?_, hmissing, rfl⟩
  constructor
  case ids => exact h.ids
  case served => exact h.served
  case queues => exact h.queues
  case own => exact h.own
  case apart => exact h.apart
  case sharedKept => exact h.sharedKept
  case sharedSize => exact h.sharedSize
  case made =>
    intro m
    rw [← h.made, Dict.get?_set]
    split
    case isTrue hm => simp [hm, hq]
    case isFalse => rfl
  case size =>
    intro m r hr
    simp only [Dict.get?_set] at hr
    split at hr
    · cases hr
      refine ⟨hsize.trans hmax, ?_⟩
      rcases hbound with hzero | hle
      · omega
      · rw [hitems, List.length_cons] at hle
        exact .inr (hsize ▸ (Nat.le_of_succ_le hle))
    · exact h.size m r hr
  case fresh =>
    intro m hm
    have hlt : n < s.port.made := (h.made n).mp (by rw [hq]; rfl)
    have hmn : m ≠ n := (lt_of_lt_of_le hlt hm).ne'
    exact ⟨(h.fresh m hm).1, by simpa [hmn] using (h.fresh m hm).2⟩
  case kept =>
    intro m
    by_cases hm : m = n
    · subst hm
      have hk := h.kept m
      rw [hold] at hk
      simpa [items] using hk.get
    · simpa [items, hm, hne] using h.kept m
  case counted =>
    rw [hmissing]
    exact h.counted

theorem Inv.readShared (h : s.Inv) (hstep : s.step .readShared = some s') :
    s'.Inv ∧ s'.missing = s.missing ∧ s'.sharedMissing = s.sharedMissing := by
  rw [step, Port.getPortData] at hstep
  cases hget : s.port.dataQueue.getNowait with
  | none =>
      simp only [hget, Option.toList_none, List.append_nil, Option.some.injEq] at hstep
      subst hstep
      exact ⟨h, rfl, rfl⟩
  | some r =>
      obtain ⟨chunk, q⟩ := r
      obtain ⟨hitems, hsize⟩ := Queue.getNowait_some hget
      simp only [hget, Option.toList_some, Option.some.injEq] at hstep
      subst hstep
      have hmissing : Queue.lost s.sharedArrived (s.sharedHanded ++ [chunk]) q.items = s.sharedMissing := by
        rw [sharedMissing, hitems, Queue.lost_get]
      refine ⟨{ h with sharedKept := ?_, sharedSize := ?_, counted := ?_ }, rfl, hmissing⟩
      · have hk := h.sharedKept
        rw [hitems] at hk
        exact hk.get
      · refine ⟨hsize ▸ h.sharedSize.1, ?_⟩
        rcases h.sharedSize.2 with hzero | hle
        · exact .inl (hsize.trans hzero)
        · rw [hitems, List.length_cons] at hle
          exact .inr (hsize ▸ Nat.le_of_succ_le hle)
      · rw [h.counted, ← hmissing]
        rfl

theorem Inv.release (h : s.Inv) (hstep : s.step .release = some s') :
    s'.Inv ∧ s'.missing = s.missing ∧ s'.sharedMissing = s.sharedMissing := by
  rw [step, Port.removeFederationBufferingHold] at hstep
  by_cases hlast : s.port.federationViewerCount - 1 = 0
  · simp only [hlast, if_true, Option.some.injEq] at hstep
    subst hstep
    have hmissing : Queue.lost s.sharedArrived (s.sharedHanded ++ s.port.dataQueue.items) [] = s.sharedMissing := Queue.lost_drain
    refine ⟨{ h with sharedKept := h.sharedKept.drain, sharedSize := ⟨h.sharedSize.1, .inr (Nat.zero_le _)⟩, counted := ?_ },
      rfl, hmissing⟩
    rw [h.counted, ← hmissing]
    rfl
  · simp only [hlast, if_false, Option.some.injEq] at hstep
    subst hstep
    exact ⟨{ h with }, rfl, rfl⟩

theorem Inv.hold (h : s.Inv) (hstep : s.step .hold = some s') :
    s'.Inv ∧ s'.missing = s.missing ∧ s'.sharedMissing = s.sharedMissing := by
  cases hstep
  exact ⟨{ h with }, rfl, rfl⟩

/-! ## Data -/

/-- A client queue after a chunk was offered to it. -/
theorem Inv.offered (h : s.Inv) {chunk : Chunk} {q : Queue Chunk} (hq : s.port.queues.get? n = some q) :
    Queue.Kept (s.arrived n ++ [chunk]) (s.handed n) (q.offer chunk).1.items ∧
      Queue.lost (s.arrived n ++ [chunk]) (s.handed n) (q.offer chunk).1.items = s.missing n + s.port.drops chunk n := by
  have hitems : s.items n = q.items := by rw [items, hq, Option.map_some, Option.getD_some]
  have hk := h.kept n
  rw [hitems] at hk
  have hbound := (h.size n q hq).2
  refine ⟨hk.offer hbound chunk, ?_⟩
  rw [hk.lost_offer hbound, missing, hitems, Port.drops, hq]
  rfl

/-- The port after a chunk, before the shared queue has it. -/
def fanned (s : Feed) (chunk : Chunk) : Feed :=
  { s with port := (s.port.extendScrollback chunk).fanOutToClientQueues chunk, arrived := s.arrivals chunk }

theorem extendScrollback_frame (p : Port) (chunk : Chunk) : p.Frame (p.extendScrollback chunk) ∧
    (p.extendScrollback chunk).queues = p.queues ∧ (p.extendScrollback chunk).droppedChunks = p.droppedChunks := by
  unfold Port.extendScrollback
  split <;> exact ⟨⟨rfl, rfl, rfl, rfl, rfl⟩, rfl, rfl⟩

/-- What the fan-out does to every queue, to the counter, and to nothing else. -/
theorem Inv.fanOut (h : s.Inv) (chunk : Chunk) :
    (∀ n, (s.fanned chunk).port.queues.get? n = if n ∈ s.port.fed then (s.port.queues.get? n).map fun q => (q.offer chunk).1
      else s.port.queues.get? n) ∧
    (s.fanned chunk).port.droppedChunks = s.port.droppedChunks + (s.port.fed.map (s.port.drops chunk)).sum ∧
    s.port.Frame (s.fanned chunk).port := by
  obtain ⟨⟨f₁, f₂, f₃, f₄, f₅⟩, hqueues, hdropped⟩ := extendScrollback_frame s.port chunk
  have hfed : (s.port.extendScrollback chunk).fed = s.port.fed := by rw [Port.fed, f₂, Port.fed]
  have hdrops : (s.port.extendScrollback chunk).drops chunk = s.port.drops chunk := by
    funext n
    rw [Port.drops, hqueues, Port.drops]
  have hfan : (s.fanned chunk).port = s.port.fed.foldl (fun p n => p.offerTo n chunk) (s.port.extendScrollback chunk) := by
    rw [← hfed]
    rfl
  have hnodup : s.port.fed.Nodup := by
    rw [h.fed]
    exact h.apart
  obtain ⟨hget, hcount, ⟨g₁, g₂, g₃, g₄, g₅⟩⟩ := Port.foldl_offerTo chunk hnodup (s.port.extendScrollback chunk)
  rw [hqueues] at hget
  rw [hdropped, hdrops] at hcount
  rw [hfan]
  exact ⟨hget, hcount, g₁.trans f₁, g₂.trans f₂, g₃.trans f₃, g₄.trans f₄, g₅.trans f₅⟩

/-- What is missing of a client queue after a chunk. -/
theorem Inv.missing_fanned (h : s.Inv) (chunk : Chunk) (n : Nat) :
    Queue.Kept ((s.fanned chunk).arrived n) (s.handed n) ((s.fanned chunk).items n) ∧
      (s.fanned chunk).missing n = s.missing n + if n ∈ s.port.fed then s.port.drops chunk n else 0 := by
  have hget := (h.fanOut chunk).1 n
  by_cases hn : n ∈ s.port.fed
  · obtain ⟨q, hq⟩ := Option.isSome_iff_exists.mp ((h.made n).mpr (h.lt_made (h.fed ▸ hn)))
    rw [if_pos hn, hq, Option.map_some] at hget
    have hitems : (s.fanned chunk).items n = (q.offer chunk).1.items := by rw [items, hget, Option.map_some, Option.getD_some]
    have harrived : (s.fanned chunk).arrived n = s.arrived n ++ [chunk] := by
      rw [h.fed] at hn
      exact if_pos hn
    rw [if_pos hn, missing, hitems, harrived]
    exact h.offered hq
  · rw [if_neg hn] at hget
    have hitems : (s.fanned chunk).items n = s.items n := by rw [items, hget, items]
    have harrived : (s.fanned chunk).arrived n = s.arrived n := by
      rw [h.fed] at hn
      exact if_neg hn
    rw [if_neg hn, missing, hitems, harrived]
    exact ⟨h.kept n, rfl⟩

theorem Inv.fanned (h : s.Inv) (chunk : Chunk) : (s.fanned chunk).Inv := by
  obtain ⟨hget, hcount, hclients, hclientQueues, hmade, hshared, hviewers⟩ := h.fanOut chunk
  constructor
  case ids => rw [hclients]; exact h.ids
  case served =>
    intro id
    rw [Port.hasClient_iff, hclients, ← Port.hasClient_iff]
    exact h.served id
  case queues => exact hclientQueues.trans h.queues
  case made =>
    intro n
    rw [hget, hmade, ← h.made]
    split <;> simp
  case own => exact fun id n hn => hmade ▸ h.own id n hn
  case apart => exact h.apart
  case size =>
    intro n q hq
    rw [hget] at hq
    split at hq
    · obtain ⟨r, hr, rfl⟩ := Option.map_eq_some_iff.mp hq
      obtain ⟨hmax, hbound⟩ := h.size n r hr
      exact ⟨(Queue.offer_maxsize hbound chunk).trans hmax, hbound.offer chunk⟩
    · exact h.size n q hq
  case fresh =>
    intro n hn
    rw [hmade] at hn
    have hnot : n ∉ s.attached.entries.map Prod.snd := fun hmem => absurd (h.lt_made hmem) (not_lt.mpr hn)
    exact ⟨(if_neg hnot).trans (h.fresh n hn).1, (h.fresh n hn).2⟩
  case kept => exact fun n => (h.missing_fanned chunk n).1
  case sharedKept => rw [hshared]; exact h.sharedKept
  case sharedSize => rw [hshared]; exact h.sharedSize
  case counted =>
    have hsum : ∑ n ∈ Finset.range s.port.made, (if n ∈ s.port.fed then s.port.drops chunk n else 0) =
        (s.port.fed.map (s.port.drops chunk)).sum := by
      rw [← List.sum_toFinset _ (by rw [h.fed]; exact h.apart), ← Finset.sum_filter]
      apply Finset.sum_congr _ fun _ _ => rfl
      ext n
      simp only [Finset.mem_filter, Finset.mem_range, List.mem_toFinset, and_iff_right_iff_imp]
      exact fun hn => h.lt_made (h.fed ▸ hn)
    have hsharedMissing : (s.fanned chunk).sharedMissing = s.sharedMissing := by
      rw [sharedMissing, hshared]
      rfl
    rw [hcount, hmade, hsharedMissing, Finset.sum_congr rfl fun n _ => (h.missing_fanned chunk n).2, Finset.sum_add_distrib, hsum,
      h.counted]
    omega

/-- The shared queue gets the chunk last. -/
theorem step_data {chunk : Chunk} {requireClients : Option Bool} (h : s.Inv) (hstep : s.step (.data chunk requireClients) = some s') :
    if s.port.shouldEnqueue requireClients then
      s' = { s.fanned chunk with
        port := { (s.fanned chunk).port with
          dataQueue := (s.port.dataQueue.offer chunk).1
          droppedChunks := (s.fanned chunk).port.droppedChunks + (s.port.dataQueue.offer chunk).2 }
        sharedArrived := s.sharedArrived ++ [chunk] }
    else s' = s.fanned chunk := by
  obtain ⟨-, -, hclients, -, -, hshared, hviewers⟩ := h.fanOut chunk
  have hsame : (s.fanned chunk).port.shouldEnqueue requireClients = s.port.shouldEnqueue requireClients := by
    rw [Port.shouldEnqueue, hclients, hviewers, Port.shouldEnqueue]
  rw [step, Option.some.injEq] at hstep
  subst hstep
  have hport : s.port.handleIncomingPortData chunk requireClients = (s.fanned chunk).port.enqueue chunk requireClients := rfl
  split
  case isTrue henqueue =>
    rw [hport, Port.enqueue, if_pos (hsame.trans henqueue), hshared]
    rfl
  case isFalse henqueue =>
    rw [hport, Port.enqueue, if_neg (hsame ▸ henqueue)]
    rfl

theorem Inv.data (h : s.Inv) {chunk : Chunk} {requireClients : Option Bool}
    (hstep : s.step (.data chunk requireClients) = some s') : s'.Inv := by
  have hs' := step_data h hstep
  have hfanned := h.fanned chunk
  split at hs'
  case isFalse => exact hs' ▸ hfanned
  case isTrue =>
    subst hs'
    obtain ⟨-, -, -, -, -, hshared, -⟩ := h.fanOut chunk
    obtain ⟨hmax, hbound⟩ := h.sharedSize
    refine { hfanned with sharedKept := h.sharedKept.offer hbound chunk, sharedSize := ?_, counted := ?_ }
    · exact ⟨by rw [Queue.offer_maxsize hbound]; exact hmax, hbound.offer chunk⟩
    · have hlost := h.sharedKept.lost_offer hbound chunk
      have hcounted := hfanned.counted
      have hsame : (s.fanned chunk).sharedMissing = s.sharedMissing := by
        rw [sharedMissing, hshared]
        rfl
      rw [hsame] at hcounted
      rw [hcounted, add_assoc, sharedMissing, ← hlost]
      rfl

/-! ## Runs -/

theorem inv_step {a : Act} (h : s.Inv) (hstep : s.step a = some s') : s'.Inv := by
  cases a with
  | attach c => exact (h.attach hstep).1
  | detach id => exact (h.detach hstep).1
  | data chunk requireClients => exact h.data hstep
  | read n => exact (h.read hstep).1
  | readShared => exact (h.readShared hstep).1
  | hold => exact (h.hold hstep).1
  | release => exact (h.release hstep).1

/-- An offer drops nothing, or the oldest chunk of 100. -/
theorem gaveUp_offer (chunk : Chunk) (requireClients : Option Bool) {q : Queue Chunk} (hmax : q.maxsize = 100 ∨ q.maxsize = 0)
    (hbound : q.Bounded) : (q.offer chunk).2 = 0 ∨
      (q.offer chunk).2 = 1 ∧ GaveUp (.data chunk requireClients) q.items (q.offer chunk).1.items := by
  rcases Queue.offer_cases hbound chunk with ⟨-, heq⟩ | ⟨hlen, y, ys, hi, heq⟩
  · exact .inl (by rw [heq])
  · rw [hi, List.length_cons] at hlen
    refine .inr ⟨by rw [heq], ?_, chunk, requireClients, rfl, by rw [heq, hi, List.tail_cons]⟩
    rw [hi, List.length_cons]
    omega

theorem Inv.removed (h : s.Inv) {a : Act} (hstep : s.step a = some s') (n : Nat) : s'.missing n = s.missing n ∨
    s'.missing n = s.missing n + 1 ∧ GaveUp a (s.items n) (s'.items n) := by
  cases a with
  | attach c => exact .inl (congrFun (h.attach hstep).2.1 n)
  | detach id => exact .inl (congrFun (h.detach hstep).2.1 n)
  | read m => exact .inl (congrFun (h.read hstep).2.1 n)
  | readShared => exact .inl (congrFun (h.readShared hstep).2.1 n)
  | hold => exact .inl (congrFun (h.hold hstep).2.1 n)
  | release => exact .inl (congrFun (h.release hstep).2.1 n)
  | data chunk requireClients =>
      have hs' := step_data h hstep
      have hsame : s'.missing n = (s.fanned chunk).missing n ∧ s'.items n = (s.fanned chunk).items n := by
        split at hs' <;> rw [hs'] <;> exact ⟨rfl, rfl⟩
      rw [hsame.1, hsame.2, (h.missing_fanned chunk n).2]
      by_cases hn : n ∈ s.port.fed
      · obtain ⟨q, hq⟩ := Option.isSome_iff_exists.mp ((h.made n).mpr (h.lt_made (h.fed ▸ hn)))
        obtain ⟨hmax, hbound⟩ := h.size n q hq
        have hget := (h.fanOut chunk).1 n
        rw [if_pos hn, hq, Option.map_some] at hget
        have hdrops : s.port.drops chunk n = (q.offer chunk).2 := by rw [Port.drops, hq, Option.map_some, Option.getD_some]
        rw [if_pos hn, hdrops, items, hq, items, hget]
        rcases gaveUp_offer chunk requireClients (.inl hmax) hbound with hzero | ⟨hone, hgave⟩
        · exact .inl (by rw [hzero, add_zero])
        · exact .inr ⟨by rw [hone], hgave⟩
      · exact .inl (by rw [if_neg hn, add_zero])

theorem Inv.sharedRemoved (h : s.Inv) {a : Act} (hstep : s.step a = some s') : s'.sharedMissing = s.sharedMissing ∨
    s'.sharedMissing = s.sharedMissing + 1 ∧ GaveUp a s.port.dataQueue.items s'.port.dataQueue.items := by
  cases a with
  | attach c => exact .inl (h.attach hstep).2.2
  | detach id => exact .inl (h.detach hstep).2.2
  | read m => exact .inl (h.read hstep).2.2
  | readShared => exact .inl (h.readShared hstep).2.2
  | hold => exact .inl (h.hold hstep).2.2
  | release => exact .inl (h.release hstep).2.2
  | data chunk requireClients =>
      have hs' := step_data h hstep
      obtain ⟨-, -, -, -, -, hshared, -⟩ := h.fanOut chunk
      split at hs'
      case isFalse =>
        left
        rw [hs', sharedMissing, hshared]
        rfl
      case isTrue =>
        obtain ⟨hmax, hbound⟩ := h.sharedSize
        have hlost : s'.sharedMissing = s.sharedMissing + (s.port.dataQueue.offer chunk).2 := by
          rw [hs']
          exact h.sharedKept.lost_offer hbound chunk
        have hitems : s'.port.dataQueue.items = (s.port.dataQueue.offer chunk).1.items := by rw [hs']
        rw [hlost, hitems]
        rcases gaveUp_offer chunk requireClients hmax hbound with hzero | ⟨hone, hgave⟩
        · exact .inl (by rw [hzero, add_zero])
        · exact .inr ⟨by rw [hone], hgave⟩

/-- Nothing is missing of a queue that has room for every chunk. -/
theorem Inv.missing_keepsUp (h : s.Inv) {a : Act} (hkeeps : s.KeepsUp n a) (hstep : s.step a = some s') (hzero : s.missing n = 0) :
    s'.missing n = 0 := by
  rcases h.removed hstep n with heq | ⟨-, hlen, chunk, requireClients, rfl, -⟩
  · rw [heq, hzero]
  · exact absurd hkeeps (not_lt.mpr hlen.ge)

theorem Inv.lossless (h : s.Inv) : s.Lossless where
  served := h.served
  queue := fun id => by rw [h.queues]
  kept := h.kept
  sharedKept := h.sharedKept
  counted := h.counted
  removed := fun _ _ hstep => h.removed hstep
  sharedRemoved := fun _ _ hstep => h.sharedRemoved hstep

end Feed

end OpenMux.Delivery
