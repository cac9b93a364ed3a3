import OpenMux.Arbitration.Lemmas.Link

/-!
# Steps of the origin are moves of the streams
-/

namespace OpenMux.Arbitration

open Py Federation Origin Streams Relation

namespace Link

variable {k : Text} {s s' : Link} {sid : StreamId}

theorem view_acks (n : Arbiter) (as : List Ack) (sid : StreamId) : (s.acks (n, as)).view k sid =
    { s.view k sid with
      opened := n.opened.contains sid
      mirror := modeOf n.port (Arbiter.mirror k sid)
      acks := (s.view k sid).acks ++ (as.filter (·.sid = sid)).map (·.mode)
      arbitrating := n.arbitrating.any (·.1 = sid)
      owed := owed k n sid } := by
  simp [view, acks]

/-- A stream that is not concerned. -/
theorem view_acks_of_eq (n : Arbiter) (as : List Ack) (sid : StreamId)
    (hopen : n.opened.contains sid = s.arbiter.opened.contains sid)
    (hmirror : modeOf n.port (Arbiter.mirror k sid) = modeOf s.arbiter.port (Arbiter.mirror k sid))
    (hacks : as.filter (·.sid = sid) = [])
    (harb : n.arbitrating.any (·.1 = sid) = s.arbiter.arbitrating.any (·.1 = sid))
    (howed : owed k n sid = owed k s.arbiter sid) : (s.acks (n, as)).view k sid = s.view k sid := by
  rw [view_acks, hmirror, hacks, harb, howed, List.map_nil, List.append_nil, hopen]
  rfl

theorem opened_iff : (s.view k sid).opened = true ↔ sid ∈ s.arbiter.opened := by
  simp [view]

/-- A client of the port that is a mirror has an open stream. -/
theorem Inv.mem_opened (h : s.Inv k) (hm : (modeOf s.arbiter.port (Arbiter.mirror k sid)).isSome) :
    sid ∈ s.arbiter.opened := opened_iff.mp ((h.streams sid).mirror hm)

/-- The mirror of a stream that is not open cannot be promoted. -/
theorem Inv.promote_unopened (h : s.Inv k) (hno : sid ∉ s.arbiter.opened) :
    (s.arbiter.port.promoteClient (Arbiter.mirror k sid)).2 = false := by
  by_contra hok
  have hpres : s.arbiter.port.connectedClients.any (·.clientId = Arbiter.mirror k sid) = true := by
    unfold Port.promoteClient at hok
    split at hok
    · simp at hok
    · simpa using hok
  exact hno (h.mem_opened (modeOf_isSome.mpr hpres))

theorem filter_reply (n : Arbiter) (sid sid' : StreamId) : ((n.reply k sid).filter (·.sid = sid')).map (·.mode) =
    if sid' = sid then [(modeOf n.port (Arbiter.mirror k sid)).getD .readOnly] else [] := by
  have hmode : n.connectedClientMode (Arbiter.mirror k sid) =
      (modeOf n.port (Arbiter.mirror k sid)).getD .readOnly := by
    unfold Arbiter.connectedClientMode modeOf
    cases n.port.connectedClients.find? (·.clientId = Arbiter.mirror k sid) <;> rfl
  by_cases hs : sid' = sid
  · subst hs; simp [Arbiter.reply, hmode]
  · simp [Arbiter.reply, hs, Ne.symm hs]

theorem demotionNotice_mirror {n : Arbiter} (ho : sid ∈ n.opened) :
    n.demotionNotice k (Arbiter.mirror k sid) = [⟨sid, .readOnly⟩] := by
  unfold Arbiter.demotionNotice
  have hsome : (n.opened.find? fun t => Arbiter.mirror k t = Arbiter.mirror k sid).isSome :=
    List.find?_isSome.mpr ⟨sid, ho, by simp⟩
  obtain ⟨t, ht⟩ := Option.isSome_iff_exists.mp hsome
  have : t = sid := by simpa using List.find?_some ht
  rw [ht, this]

/-- A notice goes to the mirror it is about. -/
theorem filter_demotionNotice {n : Arbiter} {victim : Text} (hne : victim ≠ Arbiter.mirror k sid) :
    (n.demotionNotice k victim).filter (·.sid = sid) = [] := by
  unfold Arbiter.demotionNotice
  split
  · rename_i t ht
    have hv : Arbiter.mirror k t = victim := by simpa using List.find?_some ht
    have : t ≠ sid := by rintro rfl; exact hne hv.symm
    simp [this]
  · rfl

/-! ## Frames -/

/-- The frame at the head of the channel is taken. -/
def takeFrame (s : Link) (rest : List Frame) : Link := { s with toOrigin := rest }

theorem view_takeFrame_openStream {rest : List Frame} (h : s.toOrigin = .openStream sid :: rest) :
    Only k s (s.takeFrame rest) sid { s.view k sid with frames := (s.view k sid).frames.tail } ∧
      (s.view k sid).frames = .openStream :: (s.view k sid).frames.tail := by
  refine ⟨fun sid' => ?_, by simp [view, h, Frame.forStream]⟩
  split
  · rename_i hs; subst hs; simp [view, takeFrame, h, Frame.forStream]
  · rename_i hs; simp [view, takeFrame, h, Frame.forStream, Ne.symm hs]

theorem view_takeFrame_fedrw {action : FedrwAction} {rest : List Frame} (h : s.toOrigin = .fedrw sid action :: rest) :
    Only k s (s.takeFrame rest) sid { s.view k sid with frames := (s.view k sid).frames.tail } ∧
      (s.view k sid).frames = .fedrw action :: (s.view k sid).frames.tail := by
  refine ⟨fun sid' => ?_, by simp [view, h, Frame.forStream]⟩
  split
  · rename_i hs; subst hs; simp [view, takeFrame, h, Frame.forStream]
  · rename_i hs; simp [view, takeFrame, h, Frame.forStream, Ne.symm hs]

theorem moves_openSession {rest : List Frame} (hf : s.toOrigin = .openStream sid :: rest) (now : Nat)
    (hm : (s.view k sid).mirror ≠ some .readWrite) :
    Moves k s ((s.takeFrame rest).acks (s.arbiter.openSession k sid now, [])) := by
  obtain ⟨htake, hframes⟩ := view_takeFrame_openStream (k := k) hf
  have hself : modeOf (s.arbiter.openSession k sid now).port (Arbiter.mirror k sid) = some .readOnly :=
    modeOf_addClient_self (c := ⟨Arbiter.mirror k sid, OriginNode.fedUsername k, .readOnly, now⟩) rfl
  have hopened : ∀ t, t ∈ (s.arbiter.openSession k sid now).opened ↔ t = sid ∨ t ∈ s.arbiter.opened := by
    intro t
    simp only [Arbiter.openSession]
    split
    · rename_i hmem
      exact ⟨.inr, fun ht => ht.elim (fun he => he ▸ hmem) id⟩
    · simp [or_comm]
  have hres : Only k (s.takeFrame rest) ((s.takeFrame rest).acks (s.arbiter.openSession k sid now, [])) sid
      { s.view k sid with
        frames := (s.view k sid).frames.tail, opened := true, mirror := some .readOnly } := by
    intro sid'
    split
    · rename_i hs
      subst hs
      rw [view_acks, htake.self, hself]
      have : (s.arbiter.openSession k sid' now).opened.contains sid' = true := by simp [hopened]
      rw [this]
      simp [view, Arbiter.openSession]
      rfl
    · rename_i hs
      refine view_acks_of_eq (s := s.takeFrame rest) _ _ _ ?_ ?_ rfl rfl rfl
      · rw [Bool.eq_iff_iff, List.contains_iff_mem, List.contains_iff_mem, hopened]
        simp [hs, takeFrame]
      · exact modeOf_addClient_of_ne (c := ⟨Arbiter.mirror k sid, OriginNode.fedUsername k, .readOnly, now⟩)
          (by simpa using hs)
  exact (htake.trans hres).moves (.openStream _ hframes hm)

/-- A reply to the frame that was taken, after a change of its own mirror at the most. -/
theorem moves_reply {action : FedrwAction} {rest : List Frame} (hf : s.toOrigin = .fedrw sid action :: rest)
    (harb : s.arbiter.arbitrating = none) (ho : sid ∈ s.arbiter.opened) {f : Port → Port}
    (hothers : ∀ t, t ≠ sid → modeOf (f s.arbiter.port) (Arbiter.mirror k t) = modeOf s.arbiter.port (Arbiter.mirror k t))
    (hrel : ¬ action.Asks → modeOf (f s.arbiter.port) (Arbiter.mirror k sid) ≠ some .readWrite)
    (hkeep : action.Asks → modeOf s.arbiter.port (Arbiter.mirror k sid) = some .readWrite →
      modeOf (f s.arbiter.port) (Arbiter.mirror k sid) = some .readWrite) :
    Moves k s ((s.takeFrame rest).acks (s.arbiter.updatePort f, (s.arbiter.updatePort f).reply k sid)) := by
  obtain ⟨htake, hframes⟩ := view_takeFrame_fedrw (k := k) hf
  have hres : Only k (s.takeFrame rest)
      ((s.takeFrame rest).acks (s.arbiter.updatePort f, (s.arbiter.updatePort f).reply k sid)) sid
      { s.view k sid with
        frames := (s.view k sid).frames.tail
        mirror := modeOf (f s.arbiter.port) (Arbiter.mirror k sid)
        acks := (s.view k sid).acks ++ [(modeOf (f s.arbiter.port) (Arbiter.mirror k sid)).getD .readOnly] } := by
    intro sid'
    split
    · rename_i hs
      subst hs
      rw [view_acks, htake.self, filter_reply, if_pos rfl]
      rfl
    · rename_i hs
      refine view_acks_of_eq (s := s.takeFrame rest) _ _ _ rfl (hothers _ hs) ?_ rfl rfl
      have := filter_reply (k := k) (s.arbiter.updatePort f) sid sid'
      rw [if_neg hs, List.map_eq_nil_iff] at this
      exact this
  refine (htake.trans hres).moves (.answer action _ _ hframes ?_ (opened_iff.mpr ho) hrel hkeep)
  simp [view, harb]

theorem modeOf_demoteVictim_ne {n : Arbiter} {victim id : Text} (hne : id ≠ victim) :
    modeOf (n.demoteVictim victim).port id = modeOf n.port id := by
  unfold Arbiter.demoteVictim
  split
  · simp [Arbiter.updatePort, hne]
  · rfl

theorem demoteVictim_mirror {n : Arbiter} : n.demoteVictim (Arbiter.mirror k sid) =
    n.updatePort (·.demoteClient (Arbiter.mirror k sid)) := if_pos (.inl fedPrefix_mirror)

theorem resolve_mem {p : Port} {slot : Slot} {spec : TakeSpec} {c : Client} (h : resolveFedrwTakeTarget p slot spec = some c) :
    c ∈ p.connectedClients ∧ c.clientId ≠ fedClientId slot.1 slot.2 := by
  have hlatest : ∀ {cs : List Client} {c}, latestClient cs = some c → c ∈ cs := by
    intro cs
    induction cs with
    | nil => intro c hc; cases hc
    | cons d cs ih =>
        intro c hc
        rw [latestClient] at hc
        cases hl : latestClient cs with
        | none => rw [hl] at hc; cases hc; exact List.mem_cons_self
        | some e =>
            rw [hl] at hc
            dsimp only at hc
            split at hc
            · cases hc; exact List.mem_cons_of_mem _ (ih hl)
            · cases hc; exact List.mem_cons_self
  have hmem : c ∈ p.connectedClients.filter fun c => c.mode = .readWrite ∧ c.clientId ≠ fedClientId slot.1 slot.2 := by
    cases spec with
    | latest => exact hlatest h
    | own r => exact List.mem_of_find?_eq_some h
    | fed id => exact List.mem_of_find?_eq_some h
    | unknown => cases h
  obtain ⟨h₁, h₂⟩ := List.mem_filter.mp hmem
  exact ⟨h₁, (of_decide_eq_true h₂).2⟩

theorem isSome_of_mem {p : Port} {c : Client} (h : c ∈ p.connectedClients) : (modeOf p c.clientId).isSome :=
  modeOf_isSome.mpr (List.any_eq_true.mpr ⟨c, h, by simp⟩)

/-- The victim of a take is demoted and told; the streams other than its own see nothing of it. -/
theorem moves_tell (h : s.Inv k) {c : Client} (hc : c ∈ s.arbiter.port.connectedClients)
    (htells : s.Tells k (some c)) {n : Arbiter} (hport : n.port = (s.arbiter.demoteVictim c.clientId).port)
    (hopened : n.opened = s.arbiter.opened) (harb : n.arbitrating = s.arbiter.arbitrating)
    (howed : ∀ sid, owed k n sid = owed k s.arbiter sid) :
    Moves k s (s.acks (n, s.arbiter.demotionNotice k c.clientId)) := by
  intro sid
  by_cases hv : c.clientId = Arbiter.mirror k sid
  · have ho : sid ∈ s.arbiter.opened := h.mem_opened (hv ▸ isSome_of_mem hc)
    have hasked := htells c rfl sid ho hv.symm
    refine .single ?_
    have hview : (s.acks (n, s.arbiter.demotionNotice k c.clientId)).view k sid =
        { s.view k sid with
          mirror := (s.view k sid).mirror.map fun _ => .readOnly
          acks := (s.view k sid).acks ++ [.readOnly] } := by
      rw [view_acks, hopened, hport, harb, howed, hv, demotionNotice_mirror ho, demoteVictim_mirror]
      simp [view, Arbiter.updatePort]
    rw [hview]
    exact .tell (opened_iff.mpr ho) hasked
  · rw [view_acks_of_eq _ _ _ (by rw [hopened]) (by rw [hport, modeOf_demoteVictim_ne (Ne.symm hv)]) (filter_demotionNotice hv)
      (by rw [harb]) (howed sid)]

/-- A frame that was taken from the head of the channel. -/
theorem action_ne_unknown (h : s.Inv k) {action : FedrwAction} {rest : List Frame}
    (hf : s.toOrigin = .fedrw sid action :: rest) : action.Asks ∨ action = .release := by
  obtain ⟨-, hframes⟩ := view_takeFrame_fedrw (k := k) hf
  have hact := StreamView.actions_of_fedrw hframes
  cases (h.streams sid).phase with
  | settled hp => exact .inr (hp.actions action (hact ▸ List.mem_cons_self))
  | sent r hp =>
      rcases hp.frame with ⟨-, b, hb, hask⟩ | ⟨-, hnil⟩
      · rw [hact] at hb
        exact .inl ((List.cons.inj hb).1 ▸ hask)
      · rw [hact] at hnil; cases hnil
  | replied r hp => rw [hp.actions] at hact; cases hact
  | granted r hp => rw [hp.actions] at hact; cases hact

/-- The stream of a FEDRW frame is open when the frame is read. -/
theorem opened_of_fedrw (h : s.Inv k) {action : FedrwAction} {rest : List Frame}
    (hf : s.toOrigin = .fedrw sid action :: rest) : sid ∈ s.arbiter.opened := by
  obtain ⟨-, hframes⟩ := view_takeFrame_fedrw (k := k) hf
  have hs : (s.view k sid).session := h.session fun he => by rw [he] at hframes; cases hframes
  rcases (h.streams sid).reached hs with ho | hhead
  · exact opened_iff.mp ho
  · rw [hframes] at hhead; cases hhead

/-- The taking of a frame leaves what the origin knows. -/
theorem inv_takeFrame_tells {c : Option Client} {rest : List Frame} {action : FedrwAction}
    (hf : s.toOrigin = .fedrw sid action :: rest) (h : s.Tells k c) : (s.takeFrame rest).Tells k c := by
  obtain ⟨htake, hframes⟩ := view_takeFrame_fedrw (k := k) hf
  intro d hd t ht hm
  have : (s.view k t).asked = false := h d hd t ht hm
  show ((s.takeFrame rest).view k t).asked = false
  rw [htake t]
  split
  · rename_i hs
    subst hs
    rw [StreamView.asked_eq_false] at this ⊢
    refine ⟨this.1, fun a ha => this.2 a ?_⟩
    rw [StreamView.actions_of_fedrw hframes]
    exact List.mem_cons_of_mem _ ha
  · exact this

/-- A TAKE of the requesting node. -/
theorem moves_take (h : s.Inv k) {action : FedrwAction} {rest : List Frame} {spec : TakeSpec}
    (hf : s.toOrigin = .fedrw sid action :: rest) (hask : action.Asks) (harb : s.arbiter.arbitrating = none)
    (htells : s.Tells k (resolveFedrwTakeTarget s.arbiter.port (k, (sid : Int)) spec)) :
    Moves k s ((s.takeFrame rest).acks (s.arbiter.handleFedrwTake k sid spec)) := by
  have ho := opened_of_fedrw h hf
  unfold Arbiter.handleFedrwTake
  cases hres : resolveFedrwTakeTarget s.arbiter.port (k, (sid : Int)) spec with
  | none =>
      dsimp only
      by_cases hspec : spec = .latest
      · rw [if_pos hspec]
        refine moves_reply hf harb ho (fun t ht => ?_) (fun hn => absurd hask hn) fun _ hm => ?_
        · rw [modeOf_promoteClient, if_neg fun hc => ht (mirror_injective hc.1)]
        · rw [modeOf_promoteClient, if_pos ⟨rfl, promoteClient_of_readWrite hm⟩]
      · rw [if_neg hspec]
        exact moves_reply (f := id) hf harb ho (fun t _ => rfl) (fun hn => absurd hask hn) fun _ hm => hm
  | some c =>
      obtain ⟨hmem, hne⟩ := resolve_mem hres
      obtain ⟨htake, hframes⟩ := view_takeFrame_fedrw (k := k) hf
      dsimp only
      intro t
      by_cases ht : t = sid
      · -- The taker's own stream only sees that its request has arrived.
        subst ht
        refine .single ?_
        have hview : ((s.takeFrame rest).acks ({ s.arbiter.demoteVictim c.clientId with
            arbitrating := some (t, c.clientId) }, s.arbiter.demotionNotice k c.clientId)).view k t =
            { s.view k t with frames := (s.view k t).frames.tail, arbitrating := true } := by
          rw [view_acks, htake.self, filter_demotionNotice hne]
          have hmode : modeOf (s.arbiter.demoteVictim c.clientId).port (Arbiter.mirror k t) =
              modeOf s.arbiter.port (Arbiter.mirror k t) := modeOf_demoteVictim_ne (Ne.symm hne)
          have hopened : (s.arbiter.demoteVictim c.clientId).opened = s.arbiter.opened := by
            unfold Arbiter.demoteVictim; split <;> rfl
          have howed : owed k { s.arbiter.demoteVictim c.clientId with arbitrating := some (t, c.clientId) } t =
              owed k s.arbiter t := by
            unfold owed Arbiter.demoteVictim; split <;> rfl
          rw [hmode, howed]
          simp [view, hopened]
        rw [hview]
        exact .arbitrate action _ hframes hask (opened_iff.mpr ho)
      · have hview : (s.takeFrame rest).view k t = s.view k t := by rw [htake t, if_neg ht]
        have htells' : ∀ t' ∈ s.arbiter.opened, Arbiter.mirror k t' = c.clientId →
            (s.view k t').asked = false := htells c hres
        by_cases hv : c.clientId = Arbiter.mirror k t
        · have hto : t ∈ s.arbiter.opened := h.mem_opened (hv ▸ isSome_of_mem hmem)
          refine .single ?_
          have hview' : ((s.takeFrame rest).acks ({ s.arbiter.demoteVictim c.clientId with
              arbitrating := some (sid, c.clientId) }, s.arbiter.demotionNotice k c.clientId)).view k t =
              { s.view k t with
                mirror := (s.view k t).mirror.map fun _ => .readOnly
                acks := (s.view k t).acks ++ [.readOnly] } := by
            rw [view_acks, hview, hv, demotionNotice_mirror hto, demoteVictim_mirror]
            have : owed k { s.arbiter.updatePort (·.demoteClient (Arbiter.mirror k t)) with
                arbitrating := some (sid, Arbiter.mirror k t) } t = owed k s.arbiter t := rfl
            rw [this]
            simp [view, Arbiter.updatePort, harb, Ne.symm ht]
          rw [hview']
          exact .tell (opened_iff.mpr hto) (htells' t hto hv.symm)
        · have heq : ((s.takeFrame rest).acks ({ s.arbiter.demoteVictim c.clientId with
              arbitrating := some (sid, c.clientId) }, s.arbiter.demotionNotice k c.clientId)).view k t =
              s.view k t := by
            rw [← hview]
            refine view_acks_of_eq (s := s.takeFrame rest) _ _ _ ?_ ?_ (filter_demotionNotice hv) ?_ ?_
            · unfold Arbiter.demoteVictim; split <;> rfl
            · exact modeOf_demoteVictim_ne (Ne.symm hv)
            · simp [takeFrame, harb, Ne.symm ht]
            · unfold owed Arbiter.demoteVictim; split <;> rfl
          rw [heq]

theorem moves_handleFrame (h : s.Inv k) {f : Frame} {rest : List Frame} (hf : s.toOrigin = f :: rest)
    (harb : s.arbiter.arbitrating = none) (hmeets : s.Handles k f) (now : Nat) :
    Moves k s ((s.takeFrame rest).acks (s.arbiter.handleFrame k now f)) := by
  cases f with
  | openStream sid => exact moves_openSession hf now hmeets
  | fedrw sid action =>
      have ho := opened_of_fedrw h hf
      unfold Arbiter.handleFrame Arbiter.handleFedrwRequest
      dsimp only
      rw [if_neg (not_not.mpr ho)]
      cases action with
      | request =>
          refine moves_reply hf harb ho (fun t ht => ?_) (fun hn => absurd trivial hn) fun _ hm => ?_
          · rw [modeOf_promoteClient, if_neg fun hc => ht (mirror_injective hc.1)]
          · rw [modeOf_promoteClient, if_pos ⟨rfl, promoteClient_of_readWrite hm⟩]
      | release =>
          refine moves_reply hf harb ho (fun t ht => ?_) (fun _ => ?_) fun hask => absurd hask id
          · rw [modeOf_demoteClient, if_neg fun hc => ht (mirror_injective hc)]
          · cases hm : modeOf s.arbiter.port (Arbiter.mirror k sid) <;> simp [hm]
      | take spec => exact moves_take h hf trivial harb hmeets
      | force => exact moves_take h hf trivial harb hmeets
      | unknown =>
          rcases action_ne_unknown h hf with hask | hrel
          · exact absurd hask id
          · cases hrel

/-! ## Takes -/

/-- What a failed take does to the mirror of its victim. -/
theorem restores_iff {taker victim : Text} {mayDrive : Bool} (h : s.Restores k taker victim mayDrive)
    (hfail : ¬ (mayDrive ∧ (s.arbiter.port.promoteClient taker).2)) (ho : sid ∈ s.arbiter.opened)
    (hv : Arbiter.mirror k sid = victim) :
    modeOf (s.arbiter.port.promoteClient victim).1 (Arbiter.mirror k sid) = some .readWrite ↔
      (s.view k sid).expects := by
  have : ((s.arbiter.port.promoteClient victim).2 ∨ (s.view k sid).mirror = some .readWrite) ↔
      (s.view k sid).expects := h hfail sid ho hv
  rw [← this, modeOf_promoteClient]
  subst hv
  by_cases hok : (s.arbiter.port.promoteClient (Arbiter.mirror k sid)).2 = true
  · simp [hok]
  · simp [hok, view]

theorem moves_endArbitration (h : s.Inv k) {victim : Text} (harb : s.arbiter.arbitrating = some (sid, victim))
    (hmeets : s.Restores k (Arbiter.mirror k sid) victim true) :
    Moves k s (s.acks (s.arbiter.endArbitration k sid victim)) := by
  have hne : victim ≠ Arbiter.mirror k sid := h.wired.victim (sid, victim) harb
  intro t
  have hview := view_acks (k := k) (s := s) (s.arbiter.endArbitration k sid victim).1
    (s.arbiter.endArbitration k sid victim).2 t
  have hport : (s.arbiter.endArbitration k sid victim).1.port =
      Arbiter.settle s.arbiter.port (Arbiter.mirror k sid) victim := rfl
  have hreply := filter_reply (k := k) (s.arbiter.endArbitration k sid victim).1 sid t
  have hacks : (s.arbiter.endArbitration k sid victim).2 =
      (s.arbiter.endArbitration k sid victim).1.reply k sid := rfl
  rw [← hacks] at hreply
  by_cases ht : t = sid
  · subst ht
    rw [if_pos rfl] at hreply
    refine .single ?_
    have hres : (s.acks (s.arbiter.endArbitration k t victim)).view k t =
        { s.view k t with
          arbitrating := false
          mirror := modeOf (Arbiter.settle s.arbiter.port (Arbiter.mirror k t) victim) (Arbiter.mirror k t)
          acks := (s.view k t).acks ++
            [(modeOf (Arbiter.settle s.arbiter.port (Arbiter.mirror k t) victim) (Arbiter.mirror k t)).getD .readOnly] } := by
      rw [show s.acks (s.arbiter.endArbitration k t victim) =
        s.acks ((s.arbiter.endArbitration k t victim).1, (s.arbiter.endArbitration k t victim).2) from rfl]
      rw [hview, hreply, hport]
      rfl
    rw [hres]
    have hset := modeOf_settle (p := s.arbiter.port) (Arbiter.mirror k t) victim (Arbiter.mirror k t)
    refine .settle _ (by simp [view, harb]) (fun hsome => opened_iff.mpr ?_) fun hm => ?_
    · by_contra hno
      have hfail := h.promote_unopened hno
      rw [hset, if_neg (by simp [hfail]), if_neg fun hc => hne hc.1.symm] at hsome
      exact hno (h.mem_opened hsome)
    · rw [hset, if_pos (promoteClient_of_readWrite hm), if_pos rfl]
  · rw [if_neg ht] at hreply
    have harb' : (s.arbiter.endArbitration k sid victim).1.arbitrating.any (·.1 = t) =
        s.arbiter.arbitrating.any (·.1 = t) := by
      simp [harb, Arbiter.endArbitration, Ne.symm ht]
    have hset := modeOf_settle (p := s.arbiter.port) (Arbiter.mirror k sid) victim (Arbiter.mirror k t)
    have hsame : modeOf (Arbiter.settle s.arbiter.port (Arbiter.mirror k sid) victim) (Arbiter.mirror k t) =
        modeOf s.arbiter.port (Arbiter.mirror k t) →
        (s.acks (s.arbiter.endArbitration k sid victim)).view k t = s.view k t := fun hm =>
      view_acks_of_eq _ _ _ rfl hm (List.map_eq_nil_iff.mp hreply) harb' rfl
    by_cases hok : (s.arbiter.port.promoteClient (Arbiter.mirror k sid)).2 = true
    · rw [hsame (by rw [hset, if_pos hok, if_neg fun hc => ht (mirror_injective hc)])]
    · rw [if_neg hok] at hset
      by_cases hv : Arbiter.mirror k t = victim
      · by_cases ho : t ∈ s.arbiter.opened
        · refine .single ?_
          have hres : (s.acks (s.arbiter.endArbitration k sid victim)).view k t =
              { s.view k t with
                mirror := modeOf (Arbiter.settle s.arbiter.port (Arbiter.mirror k sid) victim) (Arbiter.mirror k t)
                owed := (s.view k t).owed } := by
            rw [show s.acks (s.arbiter.endArbitration k sid victim) =
              s.acks ((s.arbiter.endArbitration k sid victim).1, (s.arbiter.endArbitration k sid victim).2) from rfl]
            rw [hview, hreply, hport, harb', List.append_nil]
            rfl
          rw [hres]
          refine .restore _ _ (opened_iff.mpr ho) ?_
          have := restores_iff (k := k) hmeets (by simp [hok]) ho hv
          rwa [modeOf_promoteClient, ← hset] at this
        · subst hv
          rw [hsame (by rw [hset, if_neg (by simp [h.promote_unopened ho])])]
      · rw [hsame (by rw [hset, if_neg fun hc => hv hc.1])]

/-- A transfer that is no victim of the stream's leaves, or comes, without a debt. -/
theorem owed_eraseIdx {n : Arbiter} {i : Nat} {t : Transfer} (sid : StreamId) (ht : n.transfers[i]? = some t)
    (hno : ¬ (t.kind ≠ .peer ∧ t.victim = Arbiter.mirror k sid)) :
    owed k { n with transfers := n.transfers.eraseIdx i } sid = owed k n sid := by
  unfold owed
  dsimp only
  rw [Bool.eq_iff_iff, List.any_eq_true, List.any_eq_true]
  constructor
  · rintro ⟨u, hu, hd⟩
    exact ⟨u, List.mem_of_mem_eraseIdx hu, hd⟩
  · rintro ⟨u, hu, hd⟩
    refine ⟨u, ?_, hd⟩
    have hne : u ≠ t := by rintro rfl; exact hno (of_decide_eq_true hd)
    obtain ⟨j, hj, rfl⟩ := List.getElem_of_mem hu
    rw [List.mem_eraseIdx_iff_getElem?]
    refine ⟨j, ?_, List.getElem?_eq_getElem hj⟩
    rintro rfl
    rw [List.getElem?_eq_getElem hj] at ht
    exact hne (Option.some.inj ht)

theorem owed_set {n : Arbiter} {i : Nat} {t : Transfer} (ht : n.transfers[i]? = some t) (hk : t.kind ≠ .peer) :
    owed k { n with transfers := n.transfers.set i { t with kind := .localClient true } } sid = owed k n sid := by
  unfold owed
  dsimp only
  have hi : i < n.transfers.length := (List.getElem?_eq_some_iff.mp ht).1
  have hti : n.transfers[i] = t := (List.getElem?_eq_some_iff.mp ht).2
  rw [Bool.eq_iff_iff, List.any_eq_true, List.any_eq_true]
  constructor
  · rintro ⟨u, hu, hd⟩
    rcases List.mem_or_eq_of_mem_set hu with hu | rfl
    · exact ⟨u, hu, hd⟩
    · exact ⟨t, List.mem_of_getElem? ht, by simpa [hk] using hd⟩
  · rintro ⟨u, hu, hd⟩
    obtain ⟨j, hj, rfl⟩ := List.getElem_of_mem hu
    by_cases hij : i = j
    · subst hij
      refine ⟨_, List.mem_set hi _, ?_⟩
      rw [hti] at hd
      simpa [hk] using hd
    · exact ⟨n.transfers[j], List.mem_iff_getElem.mpr ⟨j, by simpa using hj, by simp [hij]⟩, hd⟩

/-- A take that ends by giving the slot back to its victim, if to anybody. -/
theorem moves_restore (h : s.Inv k) {i : Nat} {t : Transfer} (ht : s.arbiter.transfers[i]? = some t)
    (hmeets : ∀ sid ∈ s.arbiter.opened, Arbiter.mirror k sid = t.victim →
      (modeOf (s.arbiter.port.promoteClient t.victim).1 (Arbiter.mirror k sid) = some .readWrite ↔
        (s.view k sid).expects)) :
    Moves k s { s with arbiter := { s.arbiter.updatePort fun p => (p.promoteClient t.victim).1 with
      transfers := s.arbiter.transfers.eraseIdx i } } := by
  intro sid
  generalize hn : ({ s.arbiter.updatePort fun p => (p.promoteClient t.victim).1 with
    transfers := s.arbiter.transfers.eraseIdx i } : Arbiter) = n
  have hport : n.port = (s.arbiter.port.promoteClient t.victim).1 := by subst hn; rfl
  have hopened : n.opened = s.arbiter.opened := by subst hn; rfl
  have harb : n.arbitrating = s.arbiter.arbitrating := by subst hn; rfl
  have htransfers : n.transfers = s.arbiter.transfers.eraseIdx i := by subst hn; rfl
  have hview := view_acks (k := k) (s := s) n [] sid
  have hsame := view_acks_of_eq (k := k) (s := s) n [] sid (by rw [hopened])
  have heq : s.acks (n, []) = { s with arbiter := n } := by simp [acks]
  rw [heq] at hview hsame
  by_cases hv : Arbiter.mirror k sid = t.victim
  · by_cases ho : sid ∈ s.arbiter.opened
    · rw [hview]
      refine .single ?_
      have := StreamView.Move.restore (v := s.view k sid) (modeOf n.port (Arbiter.mirror k sid)) (owed k n sid)
        (opened_iff.mpr ho) (hport ▸ hmeets sid ho hv)
      simpa [view, hopened, harb] using this
    · have hno : owed k s.arbiter sid = false := by
        by_contra hc
        exact ho (opened_iff.mp ((h.streams sid).owed (by simpa [view] using hc)))
      have hno' : owed k n sid = false := by
        unfold owed at hno ⊢
        rw [htransfers]
        rw [List.any_eq_false] at hno ⊢
        exact fun u hu => hno u (List.mem_of_mem_eraseIdx hu)
      have hfalse := h.promote_unopened ho
      rw [hv] at hfalse
      rw [hsame (by rw [hport, promoteClient_of_false hfalse]) rfl (by rw [harb]) (hno'.trans hno.symm)]
  · have howed : owed k n sid = owed k s.arbiter sid := by
      have := owed_eraseIdx (k := k) sid ht fun hc => hv hc.2.symm
      unfold owed at this ⊢
      rw [htransfers]
      exact this
    rw [hsame (by rw [hport, modeOf_promoteClient, if_neg fun hc => hv hc.1]) rfl (by rw [harb]) howed]

theorem moves_transferStep (h : s.Inv k) {i : Nat} {t : Transfer} {mayDrive : Bool}
    (ht : s.arbiter.transfers[i]? = some t)
    (hmeets : s.Restores k t.taker t.victim (mayDrive || t.kind = .peer)) :
    Moves k s { s with arbiter := s.arbiter.transferStep i t mayDrive } := by
  have htaker : ∀ sid, Arbiter.mirror k sid ≠ t.taker := fun sid hc =>
    h.wired.takers t (List.mem_of_getElem? ht) sid hc.symm
  -- A promoted taker is no mirror of the requesting node.
  have hpromote : ∀ (ts : List Transfer), (∀ sid, owed k { s.arbiter with transfers := ts } sid = owed k s.arbiter sid) →
      Moves k s { s with arbiter := { s.arbiter.updatePort fun p => (p.promoteClient t.taker).1 with transfers := ts } } := by
    intro ts howed
    refine Moves.of_eq fun sid => ?_
    have := view_acks_of_eq (k := k) (s := s)
      { s.arbiter.updatePort fun p => (p.promoteClient t.taker).1 with transfers := ts } [] sid rfl
      (by simp [Arbiter.updatePort, modeOf_promoteClient, htaker sid]) rfl rfl (howed sid)
    simpa [acks] using this
  unfold Arbiter.transferStep
  cases hk : t.kind with
  | peer =>
      rw [hk] at hmeets
      dsimp only
      by_cases hok : (s.arbiter.port.promoteClient t.taker).2 = true
      · have hset : Arbiter.settle s.arbiter.port t.taker t.victim = (s.arbiter.port.promoteClient t.taker).1 := by
          simp [Arbiter.settle, hok]
        have := hpromote (s.arbiter.transfers.eraseIdx i) fun sid => owed_eraseIdx (n := s.arbiter) sid ht fun hc => hc.1 hk
        simpa [Arbiter.updatePort, hset] using this
      · have hset : Arbiter.settle s.arbiter.port t.taker t.victim = (s.arbiter.port.promoteClient t.victim).1 := by
          have hfalse : (s.arbiter.port.promoteClient t.taker).2 = false := by simpa using hok
          simp [Arbiter.settle, hfalse, promoteClient_of_false hfalse]
        have := moves_restore h ht fun sid ho hv => restores_iff hmeets (by simp [hok]) ho hv
        simpa [Arbiter.updatePort, hset] using this
  | localClient b =>
      rw [hk] at hmeets
      dsimp only
      by_cases hok : mayDrive = true ∧ (s.arbiter.port.promoteClient t.taker).2 = true
      · rw [if_pos hok]
        exact hpromote _ fun sid => owed_set (n := s.arbiter) ht (by simp [hk])
      · rw [if_neg hok]
        exact moves_restore h ht fun sid ho hv => restores_iff hmeets (by simpa using hok) ho hv

theorem moves_transferNotice (h : s.Inv k) {i : Nat} {t : Transfer} (ht : s.arbiter.transfers[i]? = some t)
    (hk : t.kind ≠ .peer) (hmeets : s.OfMirror k t.victim StreamView.Tellable) :
    Moves k s (s.acks (s.arbiter.transferNotice k i t)) := by
  intro sid
  by_cases hv : t.victim = Arbiter.mirror k sid
  · have howed : owed k s.arbiter sid = true := List.any_eq_true.mpr ⟨t, List.mem_of_getElem? ht, by simp [hk, hv]⟩
    have ho : sid ∈ s.arbiter.opened := opened_iff.mp ((h.streams sid).owed (by simpa [view] using howed))
    have hview : (s.acks (s.arbiter.transferNotice k i t)).view k sid =
        { s.view k sid with
          acks := (s.view k sid).acks ++ [.readOnly]
          owed := owed k { s.arbiter with transfers := s.arbiter.transfers.eraseIdx i } sid } := by
      rw [Arbiter.transferNotice, view_acks, hv, demotionNotice_mirror ho]
      simp [view]
    rw [hview]
    exact .single (.notify _ (opened_iff.mpr ho) (hmeets sid ho hv.symm))
  · have := view_acks_of_eq (s := s) (s.arbiter.transferNotice k i t).1
      (s.arbiter.transferNotice k i t).2 sid rfl rfl (filter_demotionNotice hv) rfl
      (owed_eraseIdx sid ht fun hc => hv hc.2)
    rw [show s.acks (s.arbiter.transferNotice k i t) =
      s.acks ((s.arbiter.transferNotice k i t).1, (s.arbiter.transferNotice k i t).2) from rfl, this]

theorem moves_localTake (h : s.Inv k) {taker victim : Text} (hrw : s.arbiter.port.isReadWrite victim) :
    Moves k s { s with arbiter := s.arbiter.localTake taker victim } := by
  intro sid
  have hacks : s.acks (s.arbiter.localTake taker victim, []) = { s with arbiter := s.arbiter.localTake taker victim } := by
    simp [acks]
  rw [← hacks]
  by_cases hv : victim = Arbiter.mirror k sid
  · subst hv
    obtain ⟨c, hc, hd⟩ := List.any_eq_true.mp hrw
    have hid : c.clientId = Arbiter.mirror k sid := (of_decide_eq_true hd).1
    have ho : sid ∈ s.arbiter.opened := h.mem_opened (hid ▸ isSome_of_mem hc)
    have hview : (s.acks (s.arbiter.localTake taker (Arbiter.mirror k sid), [])).view k sid =
        { s.view k sid with mirror := (s.view k sid).mirror.map fun _ => .readOnly, owed := true } := by
      rw [view_acks]
      have howed : owed k (s.arbiter.localTake taker (Arbiter.mirror k sid)) sid = true := by
        simp [owed, Arbiter.localTake]
      rw [howed]
      simp [view, Arbiter.localTake, Arbiter.updatePort]
    rw [hview]
    exact .single (.demote (opened_iff.mpr ho))
  · have := view_acks_of_eq (k := k) (s := s) (s.arbiter.localTake taker victim) [] sid rfl
      (by simp [Arbiter.localTake, Arbiter.updatePort, Ne.symm hv]) rfl rfl
      (by simp [owed, Arbiter.localTake, Arbiter.updatePort, hv])
    rw [this]

theorem moves_peerTake (h : s.Inv k) {slot : Slot} {spec : TakeSpec} (hslot : slot.1 ≠ k)
    (hmeets : s.Tells k (resolveFedrwTakeTarget s.arbiter.port slot spec)) :
    Moves k s (s.acks (s.arbiter.peerTake k slot spec)) := by
  unfold Arbiter.peerTake
  cases hres : resolveFedrwTakeTarget s.arbiter.port slot spec with
  | none =>
      refine Moves.of_eq fun sid => ?_
      dsimp only
      split
      · refine view_acks_of_eq (s := s) _ _ _ rfl ?_ rfl rfl rfl
        simp [Arbiter.updatePort, modeOf_promoteClient, (fedClientId_ne_mirror hslot).symm]
      · exact view_acks_of_eq (s := s) _ _ _ rfl rfl rfl rfl rfl
  | some c =>
      rw [hres] at hmeets
      refine moves_tell h (resolve_mem hres).1 hmeets rfl ?_ ?_ fun sid => ?_
      · simp only [Arbiter.demoteVictim]; split <;> rfl
      · simp only [Arbiter.demoteVictim]; split <;> rfl
      · have : (s.arbiter.demoteVictim c.clientId).transfers = s.arbiter.transfers := by
          unfold Arbiter.demoteVictim; split <;> rfl
        simp [owed]

theorem moves_port {op : PortOp} (hop : op.clientId.any (decide <| OfPeer k ·) = false) :
    Moves k s { s with arbiter := s.arbiter.apply op } := by
  have hne : ∀ id, op.clientId = some id → ∀ sid, Arbiter.mirror k sid ≠ id := by
    rintro id hid sid rfl
    simp [hid, ofPeer_mirror] at hop
  have hmode : ∀ sid, modeOf (s.arbiter.apply op).port (Arbiter.mirror k sid) =
      modeOf s.arbiter.port (Arbiter.mirror k sid) := by
    intro sid
    cases op with
    | addClient c registered => exact modeOf_addClient_of_ne (hne _ rfl sid)
    | removeClient id => exact modeOf_removeClient_of_ne (hne _ rfl sid)
    | promoteClient id => simp [Arbiter.apply, Arbiter.updatePort, modeOf_promoteClient, hne _ rfl sid]
    | demoteClient id => simp [Arbiter.apply, Arbiter.updatePort, hne _ rfl sid]
    | setCapacity mode => rfl
  refine Moves.of_eq fun sid => ?_
  have := view_acks_of_eq (k := k) (s := s) (s.arbiter.apply op) [] sid
    (by cases op <;> rfl) (hmode sid) rfl (by cases op <;> rfl) (by cases op <;> rfl)
  simpa [acks] using this

end Link

end OpenMux.Arbitration
