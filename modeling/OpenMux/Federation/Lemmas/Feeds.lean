import OpenMux.Federation.Isolation
import OpenMux.Federation.Lemmas.Tables

/-!
# A proxy shows the feeds of its port

The feed list of a proxy through the frames of its origin, first for the proxy alone, then in the table of the origin.
-/

namespace OpenMux.Federation

open Py

variable {cfg : NodeCfg} {peer : PeerKey} {name : PortName} {sid : String} {int : Text → Option Int}
  {feeds : Feeds} {p : Proxy} {pd : FedDict} {t t' : Table}

/-! ## Refs and states that are read off a list -/

/-- The entries of the feeds in global form. -/
def globalFeeds (sid : String) (feeds : Feeds) : List Feed := feeds.entries.map fun e => ⟨remoteRef sid e.1, e.2⟩

theorem remoteRef_ne_nil (ref : Text) : remoteRef sid ref ≠ [] := by simp [remoteRef]

theorem remoteRef_injective (sid : String) : Function.Injective (remoteRef sid) := by
  intro r r' h
  simpa [remoteRef] using h

theorem globalFeeds_refs (sid : String) (feeds : Feeds) :
    (globalFeeds sid feeds).map Feed.ref = feeds.keys.map (remoteRef sid) := by
  simp [globalFeeds, Dict.keys, Function.comp_def]

theorem globalFeeds_nodup (sid : String) (feeds : Feeds) : ((globalFeeds sid feeds).map Feed.ref).Nodup := by
  rw [globalFeeds_refs]
  exact feeds.nodup.map (remoteRef_injective sid)

theorem mem_globalFeeds {f : Feed} : f ∈ globalFeeds sid feeds ↔ ∃ ref, feeds.get? ref = some f.on ∧ remoteRef sid ref = f.ref := by
  constructor
  · intro h
    obtain ⟨e, he, rfl⟩ := List.mem_map.mp h
    exact ⟨e.1, Dict.mem_entries.mp he, rfl⟩
  · rintro ⟨ref, hg, hr⟩
    refine List.mem_map.mpr ⟨(ref, f.on), Dict.mem_entries.mpr hg, ?_⟩
    rw [hr]

/-- The refs of a list and the state of each. -/
def collect (fs : List Feed) : List Text × Feeds :=
  fs.foldl (fun (refs, states) f => (refs ++ [f.ref], states.set f.ref f.on)) ([], ∅)

theorem collect_eq (fs : List Feed) :
    collect fs = (fs.map Feed.ref, (fs.map fun f => (f.ref, f.on)).foldl (fun d e => d.set e.1 e.2) ∅) := by
  have hfold : ∀ (acc : List Text × Feeds),
      fs.foldl (fun (refs, states) f => (refs ++ [f.ref], states.set f.ref f.on)) acc =
        (acc.1 ++ fs.map Feed.ref, (fs.map fun f => (f.ref, f.on)).foldl (fun d e => d.set e.1 e.2) acc.2) := by
    induction fs with
    | nil => intro acc; simp
    | cons f fs ih => intro acc; simp [ih]
  rw [collect, hfold]
  rfl

theorem collect_globalFeeds (sid : String) (feeds : Feeds) :
    (collect (globalFeeds sid feeds)).1 = feeds.keys.map (remoteRef sid) ∧
    ∀ ref on, feeds.get? ref = some on → (collect (globalFeeds sid feeds)).2.get? (remoteRef sid ref) = some on := by
  rw [collect_eq]
  refine ⟨globalFeeds_refs sid feeds, fun ref on hg => ?_⟩
  have hkeys : (((globalFeeds sid feeds).map fun f => (f.ref, f.on)).map Prod.fst).Nodup := by
    simpa [Function.comp_def] using globalFeeds_nodup sid feeds
  have hm : (remoteRef sid ref, on) ∈ (globalFeeds sid feeds).map fun f => (f.ref, f.on) :=
    List.mem_map.mpr ⟨⟨remoteRef sid ref, on⟩, mem_globalFeeds.mpr ⟨ref, hg, rfl⟩, rfl⟩
  dsimp only
  rw [Dict.get?_foldl_set hkeys, Dict.findList_of_mem hkeys hm]
  rfl

theorem globalFeeds_filter (sid : String) (feeds : Feeds) :
    (globalFeeds sid feeds).filter (fun f => f.ref ≠ []) = globalFeeds sid feeds := by
  rw [List.filter_eq_self]
  intro f hf
  obtain ⟨ref, -, hr⟩ := mem_globalFeeds.mp hf
  simp [← hr, remoteRef_ne_nil]

/-! ## One advertisement -/

/-- A well-formed ref is taken over as it is. -/
theorem rpPowerFeeds_global (hw : WellFormed sid feeds) (sid' : String) :
    rpPowerFeeds sid' (some ((globalFeeds sid feeds).map fun f => .object (some f.ref) f.on)) =
      orNone (some (globalFeeds sid feeds)) := by
  rw [rpPowerFeeds, Option.map_some]
  congr 2
  rw [List.filterMap_map]
  refine (List.filterMap_congr (g := some) fun f hf => ?_).trans List.filterMap_some
  obtain ⟨ref, hg, hr⟩ := mem_globalFeeds.mp hf
  have hs := hw ref (Dict.mem_keys.mpr ⟨_, hg⟩)
  rw [hr] at hs
  have hne : f.ref ≠ [] := by
    rw [← hr]
    exact remoteRef_ne_nil ref
  simp [rpPowerEntry, hs, hne]

/-- The receiver takes the entry of a port over as the origin made it. -/
theorem origin_power {port : LocalPort} (hw : WellFormed sid feeds) (hpower : port.power = slplFeedStates sid feeds)
    (hpd : (slplPortMeta int sid port).toFederationDict.overJson = some pd) :
    (metadataFromDict int pd).power = orNone (some (globalFeeds sid feeds)) ∧ (metadataFromDict int pd).originServer = sid := by
  simp only [PortMetadata.toFederationDict, FedDict.overJson, Option.map_eq_some_iff] at hpd
  obtain ⟨j, -, rfl⟩ := hpd
  refine ⟨?_, rfl⟩
  have hp : (slplPortMeta int sid port).power = orNone (some (globalFeeds sid feeds)) := hpower
  simp only [metadataFromDict, hp]
  have hr := rpPowerFeeds_global hw sid
  cases hg : globalFeeds sid feeds with
  | nil => rfl
  | cons f fs =>
      rw [hg] at hr
      exact hr

theorem orNone_some_getD {α : Type} (xs : List α) : (orNone (some xs)).getD [] = xs := orNone_getD (some xs)

/-- A new proxy shows what is advertised. -/
theorem Replica.new {m : PortMetadata} (hm : m.power = orNone (some (globalFeeds sid feeds))) :
    Replica sid feeds (Proxy.new int peer name m) := by
  have hg : m.power.getD [] = globalFeeds sid feeds := by rw [hm, orNone_some_getD]
  have hi : initFeeds (m.power.getD []) = collect (globalFeeds sid feeds) := by
    rw [hg, initFeeds, globalFeeds_filter]
    rfl
  obtain ⟨hrefs, hstates⟩ := collect_globalFeeds sid feeds
  refine ⟨?_, ?_, hg⟩
  · simpa only [Proxy.new, hi] using hrefs
  · simpa only [Proxy.new, hi] using hstates

theorem normalize_global {m : PortMetadata} (hw : WellFormed sid feeds) (hm : m.power = orNone (some (globalFeeds sid feeds))) :
    normalizePowerFeedMeta m = collect (globalFeeds sid feeds) := by
  have hg : m.power.getD [] = globalFeeds sid feeds := by rw [hm, orNone_some_getD]
  have hq : (globalFeeds sid feeds).map (fun f : Feed =>
      ({ f with ref := if (splitRemoteRef f.ref).isNone ∧ m.originServer ≠ "" then remoteRef m.originServer f.ref
                       else f.ref } : Feed)) = globalFeeds sid feeds := by
    refine (List.map_congr_left fun f hf => ?_).trans (List.map_id _)
    obtain ⟨ref, hr, he⟩ := mem_globalFeeds.mp hf
    have hs := hw ref (Dict.mem_keys.mpr ⟨_, hr⟩)
    rw [he] at hs
    simp [hs]
  simp only [normalizePowerFeedMeta, hg, globalFeeds_filter, hq]
  rfl

/-- What is advertised replaces the feeds of a proxy, unless nothing is. -/
theorem Replica.applyPowerMeta (hw : WellFormed sid feeds) (hm : p.metadata.power = orNone (some (globalFeeds sid feeds)))
    (hnone : feeds.entries = [] → p.power = []) : Replica sid feeds (applyPowerMeta p) := by
  obtain ⟨hrefs, hstates⟩ := collect_globalFeeds sid feeds
  simp only [Federation.applyPowerMeta, normalize_global hw hm, hrefs]
  by_cases he : feeds.entries = []
  · have hk : feeds.keys = [] := by rw [Dict.keys, he]; rfl
    rw [if_pos (by rw [hk]; rfl)]
    refine ⟨by rw [hnone he, hk]; rfl, ?_, by rw [hm, orNone_some_getD]; rfl⟩
    intro ref on hg
    have := Dict.mem_entries.mpr hg
    rw [he] at this
    cases this
  · rw [if_neg (by simpa [Dict.keys] using he)]
    refine ⟨rfl, hstates, ?_⟩
    simp only [Option.getD_some, Dict.keys, List.map_map]
    refine List.map_congr_left fun e hmem => ?_
    simp [hstates e.1 e.2 (Dict.mem_entries.mp hmem)]

theorem Replica.updateExisting {m : PortMetadata} (hw : WellFormed sid feeds)
    (hm : m.power = orNone (some (globalFeeds sid feeds))) (hnone : feeds.entries = [] → p.power = []) :
    Replica sid feeds (p.updateExisting int peer m) := by
  obtain ⟨hpower, hstates, hmeta⟩ := Replica.applyPowerMeta (p := { p with
    connectionId := peer
    metadata := m
    maxReadWriteUsers := wireToMode int m.maxRwUsers }) hw hm hnone
  exact ⟨hpower, hstates, hmeta⟩

/-- The entry names the feeds of the port and no others. -/
theorem origin_wire {port : LocalPort} (hpower : port.power = slplFeedStates sid feeds)
    (hpd : (slplPortMeta int sid port).toFederationDict.overJson = some pd) :
    pd.power.getD [] = (globalFeeds sid feeds).map fun f => .object (some f.ref) f.on := by
  simp only [PortMetadata.toFederationDict, FedDict.overJson, Option.map_eq_some_iff] at hpd
  obtain ⟨j, -, rfl⟩ := hpd
  have hp : (slplPortMeta int sid port).power = orNone (some (globalFeeds sid feeds)) := hpower
  dsimp only
  rw [hp]
  cases globalFeeds sid feeds <;> rfl

/-- Two ports with one entry have the same feeds. -/
theorem keys_eq_of_wire {port port' : LocalPort} {feeds' : Feeds} (hpower : port.power = slplFeedStates sid feeds)
    (hpower' : port'.power = slplFeedStates sid feeds')
    (hpd : (slplPortMeta int sid port).toFederationDict.overJson = some pd)
    (hpd' : (slplPortMeta int sid port').toFederationDict.overJson = some pd) : feeds.keys = feeds'.keys := by
  have hw := (origin_wire hpower hpd).symm.trans (origin_wire hpower' hpd')
  have hg : globalFeeds sid feeds = globalFeeds sid feeds' := by
    refine List.map_injective_iff.mpr ?_ hw
    rintro ⟨r, on⟩ ⟨r', on'⟩ h
    cases h
    rfl
  have hk := congrArg (List.map Feed.ref) hg
  rw [globalFeeds_refs, globalFeeds_refs] at hk
  exact List.map_injective_iff.mpr (remoteRef_injective sid) hk

/-! ## One change of state -/

theorem localForm_remoteRef (hw : WellFormed sid feeds) {ref : Text} (h : ref ∈ feeds.keys) :
    Node.localForm (remoteRef sid ref) = ref := by
  rw [Node.localForm, hw ref h]

/-- The ref of a frame finds the feed that it names. -/
theorem Replica.find (hr : Replica sid feeds p) (hw : WellFormed sid feeds) (ref : Text) :
    (p.power.find? fun r => Node.localForm r = ref) = if ref ∈ feeds.keys then some (remoteRef sid ref) else none := by
  have hlist : ∀ refs : List Text, (∀ r ∈ refs, Node.localForm (remoteRef sid r) = r) →
      ((refs.map (remoteRef sid)).find? fun r => Node.localForm r = ref) =
        if ref ∈ refs then some (remoteRef sid ref) else none := by
    intro refs hrefs
    induction refs with
    | nil => rfl
    | cons r refs ih =>
        have hf := hrefs r List.mem_cons_self
        have ih' := ih fun r' hm => hrefs r' (List.mem_cons_of_mem r hm)
        rw [List.map_cons, List.find?_cons]
        by_cases he : r = ref
        · subst he
          simp [hf]
        · have he' : ref ≠ r := Ne.symm he
          simpa [hf, he, he'] using ih'
  rw [hr.power]
  exact hlist feeds.keys fun r hm => localForm_remoteRef hw hm

theorem updateProxyPowerMeta_global (es : List (Text × Option Bool)) (ref : Text) (on : Option Bool) :
    Node.updateProxyPowerMeta (es.map fun e => ⟨remoteRef sid e.1, e.2⟩) (remoteRef sid ref) on =
      (Dict.setList ref on es).map fun e => ⟨remoteRef sid e.1, e.2⟩ := by
  induction es with
  | nil => rfl
  | cons e es ih =>
      rw [List.map_cons, Node.updateProxyPowerMeta, Dict.setList, ih]
      by_cases he : e.1 = ref
      · simp [he]
      · simp [he, (remoteRef_injective sid).ne he]

/-- A frame of the origin that names a feed sets its state in both caches. -/
theorem Replica.applyPowerState (hr : Replica sid feeds p) (hw : WellFormed sid feeds) (ref : Text) (on : Option Bool) :
    Replica sid (if (feeds.get? ref).isSome then feeds.set ref on else feeds) (Node.applyPowerState p ref on) := by
  rw [Node.applyPowerState, hr.find hw ref]
  by_cases hm : ref ∈ feeds.keys
  · obtain ⟨v, hv⟩ := Dict.mem_keys.mp hm
    rw [if_pos hm, hv, if_pos Option.isSome_some]
    refine ⟨by rw [Dict.keys_set_of_mem hm]; exact hr.power, ?_, ?_⟩
    · intro ref' on' hg
      dsimp only
      rw [Dict.get?_set] at hg ⊢
      by_cases he : ref' = ref
      · subst he
        simpa using hg
      · rw [if_neg he] at hg
        rw [if_neg ((remoteRef_injective sid).ne he)]
        exact hr.feedStates ref' on' hg
    · simp only [Option.getD_some, hr.metadata]
      exact updateProxyPowerMeta_global feeds.entries ref on
  · have hn : feeds.get? ref = none := Option.not_isSome_iff_eq_none.mp fun hs => hm (Dict.mem_keys.mpr (Option.isSome_iff_exists.mp hs))
    rw [if_neg hm, hn]
    exact hr

theorem WellFormed.set (hw : WellFormed sid feeds) (ref : Text) (on : Option Bool) :
    WellFormed sid (if (feeds.get? ref).isSome then feeds.set ref on else feeds) := by
  split
  · rename_i hs
    intro r hm
    rw [Dict.keys_set_of_mem (Dict.mem_keys.mpr (Option.isSome_iff_exists.mp hs))] at hm
    exact hw r hm
  · exact hw

/-! ## The table of the origin -/

theorem register_congr (h : t name = t' name) : t.register cfg peer pd name = t'.register cfg peer pd name := by
  by_cases hn : name = pd.portName
  · subst hn
    simp [Table.register, h]
  · rw [Table.register_ne hn, Table.register_ne hn, h]

/-- Only the entries for the name count. -/
theorem foldl_register (pds : List FedDict) (h : t name = t' name) :
    pds.foldl (Table.register cfg peer) t name = (pds.filter (·.portName = name)).foldl (Table.register cfg peer) t' name := by
  induction pds generalizing t t' with
  | nil => exact h
  | cons pd pds ih =>
      rw [List.foldl_cons, List.filter_cons]
      by_cases hn : pd.portName = name
      · rw [if_pos (by simpa using hn), List.foldl_cons]
        exact ih (register_congr h)
      · rw [if_neg (by simpa using hn)]
        refine ih ?_
        rw [Table.register_ne (Ne.symm hn), h]

/-- The proxy of the port, if the origin has told of one, shows the feeds that are known. -/
def Shows (sid : String) (known : Option Feeds) (shown : Option Proxy) : Prop :=
  ∀ feeds, known = some feeds → WellFormed sid feeds ∧ ∃ p, shown = some p ∧ Replica sid feeds p

/-- A write that leaves the feeds of the proxy. -/
theorem Shows.update {known : Option Feeds} {shown shown' : Option Proxy} (h : Shows sid known shown) (f : Proxy → Proxy)
    (hf : ∀ {feeds} p, Replica sid feeds p → Replica sid feeds (f p)) (hs : shown' = shown ∨ shown' = shown.map f) :
    Shows sid known shown' := by
  intro feeds hk
  obtain ⟨hw, p, rfl, hr⟩ := h feeds hk
  obtain rfl | rfl := hs
  · exact ⟨hw, p, rfl, hr⟩
  · exact ⟨hw, f p, rfl, hf p hr⟩

/-- Each frame of the origin that meets the condition takes the table along with the news. -/
theorem Shows.handleFrame {f : Frame} {news : FeedNews} {known : Option Feeds} (h : Shows sid known (t name))
    (hc : Carries cfg peer name sid f news)
    (hclear : ∀ feeds, news = .advertised feeds → WellFormed sid feeds ∧ (feeds.entries = [] → ∀ p, t name = some p → p.power = [])) :
    Shows sid (news.apply known) (t.handleFrame cfg peer f name) := by
  cases f with
  | portsFederated pds =>
      cases news with
      | advertised feeds =>
          obtain ⟨port, pd, hpower, hpd, hname, hone⟩ := hc
          obtain ⟨hw, hnone⟩ := hclear feeds rfl
          obtain ⟨hp, -⟩ := origin_power hw hpower hpd
          have hmem : pd ∈ pds.filter fun pd => cfg.accept peer pd ∧ pd.portName = name := by rw [hone]; exact List.mem_singleton_self pd
          rw [List.mem_filter, decide_eq_true_eq] at hmem
          obtain ⟨hpds, haccept, hport⟩ := hmem
          have hseen : name ∈ seenNames cfg peer pds :=
            List.mem_flatMap.mpr ⟨pd, List.mem_filter.mpr ⟨hpds, haccept⟩, by rw [hname]; exact List.mem_singleton_self name⟩
          have hfold : (pds.filter (cfg.accept peer)).foldl (Table.register cfg peer) t name = t.register cfg peer pd name := by
            rw [foldl_register _ rfl, List.filter_filter]
            simp only [Bool.decide_and, Bool.decide_eq_true, Bool.and_comm] at hone ⊢
            rw [hone]
            rfl
          intro feeds' hk
          cases hk
          refine ⟨hw, ?_⟩
          dsimp only [Table.handleFrame]
          rw [if_pos hseen, hfold, Table.register, hport, Function.update_self]
          refine ⟨_, rfl, ?_⟩
          cases ht : t name with
          | none =>
              have hnew : Replica sid feeds (Proxy.new cfg.int peer name (metadataFromDict cfg.int pd)) := .new hp
              exact ⟨hnew.power, hnew.feedStates, hnew.metadata⟩
          | some p => exact Replica.updateExisting hw hp fun he => hnone he p ht
      | withdrawn =>
          intro feeds hk
          cases hk
      | state => exact False.elim hc
      | nothing => exact False.elim hc
  | powerState ref on =>
      cases news with
      | state ref' on' =>
          obtain ⟨rfl, rfl⟩ := hc
          intro feeds hk
          obtain ⟨feeds', hk', rfl⟩ := Option.map_eq_some_iff.mp hk
          obtain ⟨hw, p, hp, hr⟩ := h feeds' hk'
          exact ⟨hw.set ref on, Node.applyPowerState p ref on, by simp [Table.handleFrame, hp],
            hr.applyPowerState hw ref on⟩
      | _ => exact False.elim hc
  | portStatus name' statusMessage readiness =>
      cases news with
      | nothing =>
          refine h.update _ (fun p hr => ?_) (Table.update_cases name)
          exact ⟨hr.power, hr.feedStates, hr.metadata⟩
      | _ => exact False.elim hc
  | viewers name' entries =>
      cases news with
      | nothing =>
          refine h.update _ (fun p hr => ?_) (Table.update_cases name)
          exact ⟨hr.power, hr.feedStates, hr.metadata⟩
      | _ => exact False.elim hc

/-! ## The node -/

namespace Node

variable {n n' : Node}

/-- The condition on a frame says the same of the table that the node keeps. -/
theorem FeedsClear.table {f : Frame} {T : PeerKey → Table} (hT : n.Refines T) (h : FeedsClear cfg peer name sid n (peer, f))
    {news : FeedNews} (hc : Carries cfg peer name sid f news) (feeds : Feeds) (hn : news = .advertised feeds) :
    WellFormed sid feeds ∧ (feeds.entries = [] → ∀ p, T peer name = some p → p.power = []) := by
  subst hn
  obtain ⟨hw, hnone⟩ := h rfl feeds hc
  refine ⟨hw, fun he p hp => ?_⟩
  rw [hT peer name, Option.map_eq_some_iff] at hp
  obtain ⟨id, hid, rfl⟩ := hp
  exact hnone he id hid

/-- Along a run that meets the condition the proxy of the port shows what its origin told, and peers that send nothing keep
their proxies. -/
theorem Owned.shows {frames : List (PeerKey × Frame)} {news : List FeedNews} {known : Option Feeds} (h : n.Owned)
    {T : PeerKey → Table} (hT : n.Refines T) (hs : Shows sid known (T peer name))
    (hnews : List.Forall₂ (Carries cfg peer name sid) ((frames.filter (·.1 = peer)).map Prod.snd) news)
    (hC : Transition.Along (frameStep cfg) (fun n a => Apart cfg n a ∧ FeedsClear cfg peer name sid n a) n frames)
    (hrun : Transition.exec (frameStep cfg) n frames = some n') :
    ∃ T', n'.Owned ∧ n'.Refines T' ∧ Shows sid (news.foldl FeedNews.apply known) (T' peer name) ∧
      ∀ q, (∀ a ∈ frames, a.1 ≠ q) → T' q = T q := by
  induction frames generalizing n T news known with
  | nil =>
      cases hrun
      cases hnews
      exact ⟨T, h, hT, hs, fun _ _ => rfl⟩
  | cons a frames ih =>
      obtain ⟨q, f⟩ := a
      obtain ⟨n₁, h₁, hrest⟩ := Transition.exec_cons_inv hrun
      obtain ⟨⟨hapart, hclear⟩, hC'⟩ := (Transition.along_cons h₁).mp hC
      cases h₁
      obtain ⟨hO, hR, -⟩ := h.handleFrame hapart hT
      by_cases hq : q = peer
      · subst hq
        simp only [List.filter_cons, decide_true, if_true, List.map_cons] at hnews
        cases hnews with
        | cons hc htail =>
            have hs' := hs.handleFrame hc (FeedsClear.table hT hclear hc)
            rw [← Function.update_self q ((T q).handleFrame cfg q f) T] at hs'
            obtain ⟨T', hO', hR', hs'', hT'⟩ := ih hO hR hs' htail hC' hrest
            refine ⟨T', hO', hR', hs'', fun q' hno => ?_⟩
            rw [hT' q' fun b hb => hno b (List.mem_cons_of_mem _ hb)]
            exact Function.update_of_ne (hno _ List.mem_cons_self).symm _ _
      · simp only [List.filter_cons, hq, decide_false] at hnews
        have hs' : Shows sid known (Function.update T q ((T q).handleFrame cfg q f) peer name) := by
          rw [Function.update_of_ne (Ne.symm hq)]
          exact hs
        obtain ⟨T', hO', hR', hs'', hT'⟩ := ih hO hR hs' hnews hC' hrest
        refine ⟨T', hO', hR', hs'', fun q' hno => ?_⟩
        rw [hT' q' fun b hb => hno b (List.mem_cons_of_mem _ hb)]
        exact Function.update_of_ne (hno _ List.mem_cons_self).symm _ _

end Node

end OpenMux.Federation
