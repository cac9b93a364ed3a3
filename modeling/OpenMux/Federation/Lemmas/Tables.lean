import OpenMux.Federation.Lemmas.Isolation

/-!
# What the table of a peer holds

An entry of a peer's table is what the peer itself advertised last, and only that peer's frames count.
-/

namespace OpenMux.Federation

open Py

variable {cfg : NodeCfg} {peer : PeerKey} {name : PortName} {p : Proxy} {pd : FedDict} {pds es latest : List FedDict}
  {t : Table}

/-- The part of the metadata that only an advertisement sets. -/
def PortMetadata.declared (m : PortMetadata) : PortMetadata :=
  { m with statusMessage := none, readiness := none, power := none }

/-- The proxy sends over the peer and has the metadata and the capacity of the entry. -/
structure Proxy.FollowsEntry (cfg : NodeCfg) (peer : PeerKey) (pd : FedDict) (p : Proxy) : Prop where
  connection : p.connectionId = peer
  metadata : p.metadata.declared = (metadataFromDict cfg.int pd).declared
  capacity : p.maxReadWriteUsers = wireToMode cfg.int (metadataFromDict cfg.int pd).maxRwUsers

theorem Proxy.updateExisting_followsEntry :
    (p.updateExisting cfg.int peer (metadataFromDict cfg.int pd)).FollowsEntry cfg peer pd := by
  refine ⟨by simp [updateExisting, updateMetaAndPower], ?_, by simp [updateExisting, updateMetaAndPower]⟩
  obtain ⟨power, hm⟩ := applyPowerMeta_metadata
    (p := { p with connectionId := peer, metadata := metadataFromDict cfg.int pd,
                   maxReadWriteUsers := wireToMode cfg.int (metadataFromDict cfg.int pd).maxRwUsers })
  simp only [updateExisting, updateMetaAndPower, hm, PortMetadata.declared]

theorem Proxy.FollowsEntry.applyPowerState {ref : Text} {on : Option Bool} (h : p.FollowsEntry cfg peer pd) :
    (Node.applyPowerState p ref on).FollowsEntry cfg peer pd := by
  unfold Node.applyPowerState
  split
  · exact h
  · exact ⟨h.connection, h.metadata, h.capacity⟩

theorem applyPowerState_lists {ref : Text} {on : Option Bool} : (Node.applyPowerState p ref on).lists = p.lists := by
  unfold Node.applyPowerState
  split <;> rfl

/-- The accepted entries that a peer's frames carried. -/
def advertised (cfg : NodeCfg) (peer : PeerKey) : List (PeerKey × Frame) → List FedDict
  | [] => []
  | (q, .portsFederated pds) :: fs => (if q = peer then pds.filter (cfg.accept peer) else []) ++ advertised cfg peer fs
  | _ :: fs => advertised cfg peer fs

namespace Table

/-- `es` are the entries so far, `latest` those of the latest advertisement. -/
structure Follows (cfg : NodeCfg) (peer : PeerKey) (es latest : List FedDict) (t : Table) : Prop where
  lists : ∀ name p, t name = some p → ∃ pd ∈ es, pd.portName = name ∧ p.lists = pd.lists
  latest : ∀ name pd, lastEntry cfg peer latest name = some pd → pd.givenName = some name →
    ∃ p, t name = some p ∧ p.FollowsEntry cfg peer pd

theorem follows_initial (cfg : NodeCfg) (peer : PeerKey) : Follows cfg peer [] [] (fun _ => none) where
  lists := by intro name p h; cases h
  latest := by intro name pd h; cases h

theorem lastEntry_cons (ha : cfg.accept peer pd = true) : lastEntry cfg peer (pd :: pds) name =
    match lastEntry cfg peer pds name with
    | some pd' => some pd'
    | none => if pd.portName = name then some pd else none := by
  simp only [lastEntry, List.findRev?]
  generalize List.findRev? _ pds = last
  cases last with
  | some pd' => rfl
  | none => by_cases hn : pd.portName = name <;> simp [ha, hn]

theorem lastEntry_cons_of_not (ha : cfg.accept peer pd = false) :
    lastEntry cfg peer (pd :: pds) name = lastEntry cfg peer pds name := by
  simp only [lastEntry, List.findRev?]
  generalize List.findRev? _ pds = last
  cases last with
  | some pd' => rfl
  | none => simp [ha]

/-- One entry: a proxy that follows the entry, under its name. -/
theorem register_self (cfg : NodeCfg) (peer : PeerKey) (t : Table) (pd : FedDict) : ∃ p, t.register cfg peer pd pd.portName = some p ∧ p.FollowsEntry cfg peer pd ∧
    (p.lists = pd.lists ∨ ∃ q, t pd.portName = some q ∧ p.lists = q.lists) := by
  cases ht : t pd.portName with
  | none =>
      refine ⟨_, by simp [register, ht]; rfl, ⟨rfl, rfl, rfl⟩, Or.inl ?_⟩
      exact Proxy.new_lists cfg.int peer pd.portName pd
  | some q =>
      refine ⟨_, by simp [register, ht]; rfl, Proxy.updateExisting_followsEntry, Or.inr ⟨q, rfl, ?_⟩⟩
      exact Proxy.updateExisting_lists

theorem register_ne (hn : name ≠ pd.portName) : t.register cfg peer pd name = t name := by
  simp [register, hn]

/-- All entries of a frame: a name follows its last entry, and a name without one stays. -/
theorem registerAll (cfg : NodeCfg) (peer : PeerKey) (pds : List FedDict)
    (hl : ∀ name p, t name = some p → ∃ pd ∈ es, pd.portName = name ∧ p.lists = pd.lists) :
    (∀ name p, (pds.filter (cfg.accept peer)).foldl (register cfg peer) t name = some p →
      ∃ pd ∈ es ++ pds.filter (cfg.accept peer), pd.portName = name ∧ p.lists = pd.lists) ∧
    ∀ name, match lastEntry cfg peer pds name with
      | none => (pds.filter (cfg.accept peer)).foldl (register cfg peer) t name = t name
      | some pd => ∃ p, (pds.filter (cfg.accept peer)).foldl (register cfg peer) t name = some p ∧
          p.FollowsEntry cfg peer pd := by
  induction pds generalizing t es with
  | nil =>
      refine ⟨?_, fun _ => rfl⟩
      simpa using hl
  | cons pd pds ih =>
      cases ha : cfg.accept peer pd with
      | false =>
          simp only [List.filter_cons, ha, lastEntry_cons_of_not ha]
          exact ih hl
      | true =>
          obtain ⟨q, hq, hfollows, hqlists⟩ := register_self cfg peer t pd
          have hl' : ∀ name p, t.register cfg peer pd name = some p →
              ∃ pd' ∈ es ++ [pd], pd'.portName = name ∧ p.lists = pd'.lists := by
            intro name p hp
            by_cases hn : name = pd.portName
            · subst hn
              rw [hq, Option.some.injEq] at hp
              subst hp
              rcases hqlists with hnew | ⟨q', hq', hkept⟩
              · exact ⟨pd, by simp, rfl, hnew⟩
              · obtain ⟨pd', hmem, hname, hlists⟩ := hl _ _ hq'
                exact ⟨pd', List.mem_append_left _ hmem, hname, by rw [hkept, hlists]⟩
            · rw [register_ne hn] at hp
              obtain ⟨pd', hmem, hrest⟩ := hl _ _ hp
              exact ⟨pd', List.mem_append_left _ hmem, hrest⟩
          obtain ⟨ih₁, ih₂⟩ := ih hl'
          simp only [List.filter_cons, ha, if_true, List.foldl_cons, lastEntry_cons ha]
          refine ⟨?_, ?_⟩
          · intro name p hp
            simpa using ih₁ name p hp
          · intro name
            have hrest := ih₂ name
            cases hlast : lastEntry cfg peer pds name with
            | some pd' =>
                rw [hlast] at hrest
                exact hrest
            | none =>
                rw [hlast] at hrest
                simp only at hrest ⊢
                by_cases hn : pd.portName = name
                · subst hn
                  rw [if_pos rfl]
                  exact ⟨q, by rw [hrest, hq], hfollows⟩
                · rw [if_neg hn]
                  rw [hrest, register_ne (fun he => hn he.symm)]

/-- A frame that writes to the entry of one name, and leaves what the advertisement set. -/
theorem Follows.update (h : t.Follows cfg peer es latest) (f : Proxy → Proxy)
    (hlists : ∀ p, (f p).lists = p.lists)
    (hf : ∀ p pd, p.FollowsEntry cfg peer pd → (f p).FollowsEntry cfg peer pd)
    {t' : Table} (ht' : ∀ name, t' name = t name ∨ t' name = (t name).map f) : t'.Follows cfg peer es latest where
  lists := by
    intro name p hp
    rcases ht' name with hs | hs
    · exact h.lists name p (by rw [← hs, hp])
    · rw [hs, Option.map_eq_some_iff] at hp
      obtain ⟨q, hq, rfl⟩ := hp
      rw [hlists]
      exact h.lists name q hq
  latest := by
    intro name pd hl hname
    obtain ⟨p, hp, hfollows⟩ := h.latest name pd hl hname
    rcases ht' name with hs | hs
    · exact ⟨p, by rw [hs, hp], hfollows⟩
    · exact ⟨f p, by rw [hs, hp]; rfl, hf p pd hfollows⟩

/-- An advertisement replaces what the table follows. -/
theorem Follows.portsFederated (h : t.Follows cfg peer es latest) :
    (t.handleFrame cfg peer (.portsFederated pds)).Follows cfg peer (es ++ pds.filter (cfg.accept peer)) pds := by
  obtain ⟨hlists, hentries⟩ := registerAll cfg peer pds h.lists
  constructor
  · intro name p hp
    simp only [handleFrame] at hp
    split at hp
    · exact hlists name p hp
    · cases hp
  · intro name pd hl hname
    have he := hentries name
    rw [hl] at he
    obtain ⟨p, hp, hfollows⟩ := he
    exact ⟨p, by simp only [handleFrame]; rw [if_pos (mem_seenNames hl hname), hp], hfollows⟩

theorem update_cases {f : Proxy → Proxy} (name' : PortName) :
    Function.update t name ((t name).map f) name' = t name' ∨
      Function.update t name ((t name).map f) name' = (t name').map f := by
  by_cases hn : name' = name
  · subst hn; simp
  · simp [hn]

/-- The table follows the entries of its peer through every list of frames. -/
theorem Follows.run (frames : List (PeerKey × Frame)) (h : t.Follows cfg peer es latest) :
    (t.run cfg peer frames).Follows cfg peer (es ++ advertised cfg peer frames)
      (latestAdvertisement peer frames latest) := by
  induction frames generalizing t es latest with
  | nil => simpa [Table.run, advertised, latestAdvertisement] using h
  | cons a frames ih =>
      obtain ⟨q, f⟩ := a
      rw [Table.run]
      by_cases hq : q = peer
      · subst hq
        rw [if_pos rfl]
        cases f with
        | portsFederated pds =>
            simp only [advertised, latestAdvertisement, if_true, ← List.append_assoc]
            exact ih h.portsFederated
        | portStatus name msg ready =>
            exact ih (h.update (fun p => { p with metadata := { p.metadata with
                statusMessage := strOrNone (some msg)
                readiness := strOrNone (some ready) } }) (fun _ => rfl)
              (fun _ _ hp => ⟨hp.connection, hp.metadata, hp.capacity⟩) update_cases)
        | powerState ref on =>
            exact ih (h.update (fun p => Node.applyPowerState p ref on) (fun _ => applyPowerState_lists)
              (fun _ _ hp => hp.applyPowerState) (fun _ => Or.inr rfl))
        | viewers name entries =>
            exact ih (h.update (fun p => { p with remoteViewers := entries }) (fun _ => rfl)
              (fun _ _ hp => ⟨hp.connection, hp.metadata, hp.capacity⟩) update_cases)
      · rw [if_neg hq]
        cases f with
        | portsFederated pds =>
            simp only [advertised, latestAdvertisement, hq, if_false, List.nil_append]
            exact ih h
        | portStatus => exact ih h
        | powerState => exact ih h
        | viewers => exact ih h

/-- Only the frames of the peer itself count. -/
theorem run_own (frames : List (PeerKey × Frame)) :
    t.run cfg peer frames = t.run cfg peer (frames.filter (·.1 = peer)) := by
  induction frames generalizing t with
  | nil => rfl
  | cons a frames ih =>
      obtain ⟨q, f⟩ := a
      rw [Table.run, List.filter_cons]
      by_cases hq : q = peer
      · simp only [hq, decide_true, if_true, Table.run]
        exact ih
      · simp only [hq, decide_false, if_false]
        exact ih

end Table

end OpenMux.Federation
