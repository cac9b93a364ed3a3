import Mathlib
import OpenMux.Initiator.Lemmas.Coherent
import OpenMux.Initiator.Lemmas.Demand
import OpenMux.Initiator.Lemmas.Writes
import OpenMux.Protocols.Theorems

/-!
# Reloads keep ports apart
-/

namespace OpenMux.Initiator

open Py

variable {B : Builtins}

namespace Adapter

variable {s s' : Adapter} {new : Dict Key Mapping} {f : Key → Steps} {newConfig : Tree} {k : Key}

theorem verdict_unchanged {ro : Option Running} {eo : Option Mapping} (fk : Steps) :
    (∃ q, verdict B ro eo fk = .unchanged q) ↔
      ∃ r e m, ro = some r ∧ eo = some e ∧ materialCfg B e = some m ∧ (r.port.material B).eq m = true := by
  have hnot : ∀ e b, ¬ ∃ q, rebuilt B e fk b = .unchanged q := by
    rintro e b ⟨q, hq⟩
    unfold rebuilt at hq
    split at hq
    · cases hq
    · split at hq <;> cases hq
  cases ro with
  | none => cases eo <;> simp [verdict, hnot]
  | some r =>
      cases eo with
      | none => simp [verdict]
      | some e =>
          cases hm : materialCfg B e with
          | none => simp [verdict, hm, hnot]
          | some m => cases heq : (r.port.material B).eq m <;> simp [verdict, hm, heq, hnot]

/-- A created port was built from the entry of its name. -/
theorem verdict_created {ro : Option Running} {eo : Option Mapping} {fk : Steps} {p : Port} {running : Bool}
    (h : verdict B ro eo fk = .created p running) : ∃ e, eo = some e ∧ Port.init B e = .ok p := by
  have hrebuilt : ∀ e b, rebuilt B e fk b = .created p running → Port.init B e = .ok p := by
    intro e b hq
    unfold rebuilt at hq
    split at hq
    · cases hq
    · split at hq
      · cases hq; assumption
      · cases hq
  unfold verdict at h
  split at h
  · cases h
  · cases h
  · exact ⟨_, rfl, hrebuilt _ _ h⟩
  · split at h
    · split at h
      · cases h
      · exact ⟨_, rfl, hrebuilt _ _ h⟩
    · exact ⟨_, rfl, hrebuilt _ _ h⟩

/-- A port that differs from itself is built again. -/
theorem verdict_nan {r : Running} (fk : Steps) (hs : s.Coherent B) (hr : s.ports.get? k = some r)
    (hne : (r.port.material B).eq (r.port.material B) = false) :
    (∃ p, verdict B (some r) (some r.port.config) fk = .created p true) ∨
      verdict B (some r) (some r.port.config) fk = .notStarted true := by
  obtain ⟨p, hp, hm⟩ := hs.built k r hr
  by_cases hstart : fk.create = true ∧ fk.start = some true
  · exact .inl ⟨p, by simp [verdict, (Port.material_init B hp).2, hm, hne, rebuilt, hp, hstart]⟩
  · exact .inr (by simp [verdict, (Port.material_init B hp).2, hm, hne, rebuilt, hp, hstart])

/-- A name is in step after the reload when its port is replaced or was in step before, and registered if it was created. -/
theorem syncedAt_of_leads {register : Bool} {v : Verdict} (hs : s.Coherent B) (h : s.Leads s' k register v) :
    s'.SyncedAt k ↔ (v.touches = false → s.SyncedAt k) ∧ ∀ p running, v = .created p running → register = true := by
  have hsame : s'.ports.get? k = s.ports.get? k ∧ s'.registry.get? k = s.registry.get? k → (s'.SyncedAt k ↔ s.SyncedAt k) := by
    rintro ⟨hports, hreg⟩
    rw [SyncedAt, SyncedAt, hports, hreg]
  have hgone : s'.ports.get? k = none ∧ s'.registry.get? k = none → s'.SyncedAt k := by
    rintro ⟨hports, hreg⟩
    rw [SyncedAt, hports, hreg]
    rfl
  cases v with
  | absent => simpa [Verdict.touches] using hsame h
  | refused e running => simpa [Verdict.touches] using hsame h
  | removed => simpa [Verdict.touches] using hgone h
  | notStarted running =>
      cases running with
      | false => simpa [Verdict.touches] using hsame h
      | true => simpa [Verdict.touches] using hgone h
  | unchanged q =>
      obtain ⟨⟨r, hr, hr'⟩, hreg⟩ := h
      have heq : s'.SyncedAt k ↔ s.SyncedAt k := by
        rw [SyncedAt, SyncedAt, hr, hr', hreg]
        rfl
      simpa [Verdict.touches] using heq
  | created p running =>
      obtain ⟨oid, hle, hports, hreg⟩ := h
      cases register with
      | true =>
          have hyes : s'.SyncedAt k := by
            rw [SyncedAt, hports, hreg]
            rfl
          simp [Verdict.touches, hyes]
      | false =>
          have hnot : ¬ s'.SyncedAt k := by
            intro hsync
            rw [SyncedAt, hports, hreg] at hsync
            cases running with
            | true => simp at hsync
            | false =>
                simp only [Option.map_some, Bool.false_eq_true, ↓reduceIte] at hsync
                obtain ⟨w, hw, hoid⟩ := Option.map_eq_some_iff.mp hsync.symm
                have hlt := hs.freshWrapper k w (Option.eq_some_of_filter_eq_some hw)
                omega
          simp [Verdict.touches, hnot]

/-- A port whose entry stands in the list is its own: under a text, with the entry that the list has for it. -/
theorem StandsIn.entry {r : Running} {t : Text} (hs : s.Coherent B) (hst : StandsIn B new r)
    (hr : s.ports.get? (.str t) = some r) : new.get? (.str t) = some r.port.config := by
  obtain ⟨t', ht', he⟩ := hst
  cases (hs.named t r hr).symm.trans ht'
  exact he

/-- A port that is left alone has fields that equal themselves. -/
theorem eq_of_kept {r r' : Running} {t : Text} {register : Bool} (hs : s.Coherent B) (hst : StandsIn B new r)
    (hr : s.ports.get? (.str t) = some r) (hr' : s'.ports.get? (.str t) = some r') (hoid : r'.oid = r.oid) {fk : Steps}
    (h : s.Leads s' (.str t) register (verdict B (s.ports.get? (.str t)) (new.get? (.str t)) fk)) :
    (r.port.material B).eq (r.port.material B) = true := by
  rw [hr, hst.entry hs hr] at h
  cases heq : (r.port.material B).eq (r.port.material B) with
  | true => rfl
  | false =>
      rcases verdict_nan fk hs hr heq with ⟨p, hv⟩ | hv
      · rw [hv] at h
        obtain ⟨oid, hle, hports, -⟩ := h
        cases hports.symm.trans hr'
        have hlt := hs.fresh _ r hr
        dsimp only at hoid
        omega
      · rw [hv] at h
        have hnone : s'.ports.get? (.str t) = none := h.1
        rw [hnone] at hr'
        cases hr'

/-- The condition is needed. -/
theorem ReloadsApart.reloadable (hs : s.Coherent B) (h : s.ReloadsApart B f newConfig) :
    ∃ new, s.Reloadable B f newConfig new := by
  obtain ⟨s', summary, new, hrun, hindex, hall, hstands, hsync, hconv⟩ := h
  obtain ⟨new', hread, -⟩ := reconcilePorts_some hrun
  cases hindex.symm.trans hread.index
  have hstep := fun k => (syncedAt_of_leads hs (hall k).1).mp (hsync k)
  refine ⟨new, hindex, hread.labels, hread.removed, hread.material, fun k r hr hst => ?_, fun k p running hv => ⟨?_, ?_⟩,
    fun k => (hstep k).1⟩
  · obtain ⟨⟨r', hr', hoid⟩, -⟩ := hstands k r hr hst
    cases k with
    | str t => exact ⟨⟨t, rfl⟩, eq_of_kept hs hst hr hr' hoid (hall _).1⟩
    | other n =>
        have hnone : new.get? (.other n) = none := by
          cases he : new.get? (.other n) with
          | none => rfl
          | some e =>
              obtain ⟨t, ht, -⟩ := indexByName_text hindex _ e he
              cases ht
        have hgone := (hall (.other n)).1
        rw [hr, hnone] at hgone
        have hports : s'.ports.get? (.other n) = none := hgone.1
        rw [hports] at hr'
        cases hr'
  · exact (hstep k).2 p running hv
  · obtain ⟨s'', summary', hrun', hagain⟩ := hconv f
    have hmem : k ∈ summary.added ∨ k ∈ summary.updated ∨ k ∈ summary.unchanged := by
      have hlist := (hall k).2
      rw [hv] at hlist
      cases running with
      | true => exact .inr (.inl (hlist.updated.mpr rfl))
      | false => exact .inl (hlist.added.mpr rfl)
    have hlist := ((reconcilePorts_spec hindex hrun' k).2).unchanged.mp (hagain k hmem)
    have hunchanged : ∃ q, verdict B (s'.ports.get? k) (new.get? k) (f k) = .unchanged q := by
      generalize verdict B (s'.ports.get? k) (new.get? k) (f k) = v at hlist
      cases v with
      | unchanged q => exact ⟨q, rfl⟩
      | created p running => cases running <;> cases hlist
      | _ => cases hlist
    obtain ⟨r, e, m, hr, he, hm, heq⟩ := (verdict_unchanged _).mp hunchanged
    obtain ⟨e', he', hp⟩ := verdict_created hv
    cases he.symm.trans he'
    have hports := (hall k).1
    rw [hv] at hports
    obtain ⟨oid, -, hport, -⟩ := hports
    cases hport.symm.trans hr
    cases hm.symm.trans (Port.material_init B hp).2
    exact heq

/-- The port of a name that runs after a reload: it ran before, or was built from the entry. -/
theorem running_after {r : Running} {e : Mapping} {register : Bool} {fk : Steps}
    (h : s.Leads s' k register (verdict B (s.ports.get? k) (new.get? k) fk)) (hr : s'.ports.get? k = some r)
    (he : new.get? k = some e) : (∃ r, s.ports.get? k = some r) ∨ ∃ p, Port.init B e = .ok p := by
  cases hr₀ : s.ports.get? k with
  | some r₀ => exact .inl ⟨r₀, rfl⟩
  | none =>
      right
      have hkind := kind_verdict (B := B) s new fk k
      generalize verdict B (s.ports.get? k) (new.get? k) fk = v at h hkind
      cases hkind with
      | absent _ he' => rw [he] at he'; cases he'
      | removed hr' _ => rw [hr₀] at hr'; cases hr'
      | unchanged ha => cases hr₀.symm.trans ha.1
      | refused _ _ _ => rw [h.1, hr₀] at hr; cases hr
      | notStarted _ _ _ _ => rw [hr₀] at h; rw [h.1, hr₀] at hr; cases hr
      | created he' _ _ hstart =>
          cases he.symm.trans he'
          unfold started at hstart
          split at hstart
          · cases hstart
          · exact ⟨_, by assumption⟩

/-- After a reload the same list can be read again. -/
theorem readable_again (hread : Readable B s newConfig new)
    (hall : ∀ k, s.Leads s' k (f k).register (verdict B (s.ports.get? k) (new.get? k) (f k))) :
    Readable B s' newConfig new where
  index := hread.index
  labels := hread.labels
  removed := by
    have hnil : (s'.ports.keys.filter fun n => n ∉ new.keys) = [] := by
      refine List.filter_eq_nil_iff.mpr fun k hk => ?_
      obtain ⟨r, hr⟩ := Dict.mem_keys.mp hk
      cases he : new.get? k with
      | some e => simpa using Dict.mem_keys.mpr ⟨e, he⟩
      | none =>
          have hgone := hall k
          rw [he] at hgone
          cases hr₀ : s.ports.get? k with
          | none =>
              rw [hr₀] at hgone
              rw [hgone.1, hr₀] at hr
              cases hr
          | some r₀ =>
              rw [hr₀] at hgone
              have hnone : s'.ports.get? k = none := hgone.1
              rw [hnone] at hr
              cases hr
    rw [hnil]
    exact B.sorted_text [] (by simp)
  material k r e hr he := by
    rcases running_after (hall k) hr he with ⟨r₀, hr₀⟩ | ⟨p, hp⟩
    · exact hread.material k r₀ e hr₀ he
    · rw [(Port.material_init B hp).2]
      rfl

/-- A port that was applied equals its entry from then on. -/
theorem unchanged_again {register : Bool} {fk : Steps} (fk' : Steps) {summary : Summary}
    (h : s.Leads s' k register (verdict B (s.ports.get? k) (new.get? k) fk))
    (hlist : summary.Lists k (verdict B (s.ports.get? k) (new.get? k) fk).listing)
    (hself : ∀ p running, verdict B (s.ports.get? k) (new.get? k) fk = .created p running →
      (p.material B).eq (p.material B) = true)
    (hmem : k ∈ summary.added ∨ k ∈ summary.updated ∨ k ∈ summary.unchanged) :
    ∃ q, verdict B (s'.ports.get? k) (new.get? k) fk' = .unchanged q := by
  rw [hlist.added, hlist.updated, hlist.unchanged] at hmem
  cases hv : verdict B (s.ports.get? k) (new.get? k) fk with
  | created p running =>
      obtain ⟨e, he, hp⟩ := verdict_created hv
      rw [hv] at h
      obtain ⟨oid, -, hports, -⟩ := h
      exact (verdict_unchanged _).mpr ⟨_, e, _, hports, he, (Port.material_init B hp).2, hself p running hv⟩
  | unchanged q =>
      obtain ⟨r, e, m, hr, he, hm, heq⟩ := (verdict_unchanged _).mp ⟨q, hv⟩
      rw [hv] at h
      obtain ⟨⟨r', hr', hports⟩, -⟩ := h
      cases hr.symm.trans hr'
      refine (verdict_unchanged _).mpr ⟨_, e, m, hports, he, hm, ?_⟩
      have hq : q = r.port.inplaceUpdate B e := by
        rw [hr, he] at hv
        simpa [verdict, hm, heq, eq_comm] using hv
      rw [hq, Port.material_inplaceUpdate, heq]
  | notStarted running => rw [hv] at hmem; rcases hmem with h | h | h <;> cases h
  | _ => rw [hv] at hmem; rcases hmem with h | h | h <;> cases h

/-- The condition is enough. -/
theorem Reloadable.reloadsApart (hs : s.Coherent B) (h : s.Reloadable B f newConfig new) : s.ReloadsApart B f newConfig := by
  have hread : Readable B s newConfig new := ⟨h.index, h.labels, h.removed, h.readable⟩
  obtain ⟨s', summary, hrun⟩ := hread.completes f
  have hall := fun k => reconcilePorts_spec h.index hrun k
  refine ⟨s', summary, new, hrun, h.index, hall, fun k r hr hst => ?_, fun k => ?_, fun f' => ?_⟩
  · obtain ⟨⟨t, rfl⟩, heq⟩ := h.stands k r hr hst
    obtain ⟨p, hp, hm⟩ := hs.built _ r hr
    have he := hst.entry hs hr
    obtain ⟨q, hv⟩ := (verdict_unchanged (f (.str t))).mpr
      ⟨r, _, _, hr, he, by rw [(Port.material_init B hp).2, hm], heq⟩
    have hleads := (hall (.str t)).1
    rw [hv] at hleads
    obtain ⟨⟨r', hr', hports⟩, hreg⟩ := hleads
    cases hr.symm.trans hr'
    exact ⟨⟨_, hports, rfl⟩, hreg⟩
  · exact (syncedAt_of_leads hs (hall k).1).mpr ⟨h.synced k, fun p running hv => (h.created k p running hv).1⟩
  · obtain ⟨s'', summary', hrun'⟩ := (readable_again hread fun k => (hall k).1).completes f'
    refine ⟨s'', summary', hrun', fun k hmem => ?_⟩
    obtain ⟨q, hv⟩ := unchanged_again (f' k) (hall k).1 (hall k).2 (fun p running hv => (h.created k p running hv).2) hmem
    have hlist := (reconcilePorts_spec h.index hrun' k).2
    rw [hv] at hlist
    exact hlist.unchanged.mpr rfl

end Adapter

/-- The order of texts by their characters. -/
def leText : Text → Text → Bool
  | [], _ => true
  | _ :: _, [] => false
  | a :: s, b :: t => a.toNat < b.toNat || (a = b && leText s t)

def leKey : Key → Key → Bool
  | .str s, .str t => leText s t
  | .other m, .other n => m ≤ n
  | .str _, .other _ | .other _, .str _ => false

/-- Names are sorted if they are all texts. -/
def sortedTexts (ks : List Key) : Option (List Key) :=
  if ks.all fun k => match k with
    | .str _ => true
    | .other _ => false
  then some (ks.insertionSort fun a b => leKey a b = true) else none

/-- The interpreter on texts, integers, floats and lists. -/
def interpreter : Builtins where
  str
    | .str t => some t
    | .int n => Py.str n
    | _ => none
  int
    | .int n => some n
    | .bool b => some (if b then 1 else 0)
    | .str t => Py.int t
    | _ => none
  float v := v.number
  list
    | .list xs => some xs
    | .str t => some (t.map fun c => .str [c])
    | _ => none
  hasLower _ := false
  sorted := sortedTexts
  sorted_perm ks ls h := by
    unfold sortedTexts at h
    split at h
    · cases h
      exact List.perm_insertionSort ..
    · cases h
  sorted_text ks h := by
    have hall : ks.all (fun k => match k with
      | .str _ => true
      | .other _ => false) = true := by
      refine List.all_eq_true.mpr fun k hk => ?_
      obtain ⟨t, rfl⟩ := h k hk
      rfl
    simp [sortedTexts, hall]

def entry (name : String) (port : Int) (more : Mapping) : Tree :=
  .dict ([(.str "name".toList, .str name.toList), (.str "host".toList, .str "10.0.0.1".toList),
    (.str "port".toList, .int port)] ++ more)

/-- The port `sw1`, as a first reload started it. -/
def oneSwitch : RunningSet interpreter := (RunningSet.empty interpreter).reload (fun _ => {}) (.list [entry "sw1" 23 []])

/-- `sw1` with an empty `protocol:`, and a second port. -/
def emptyProtocol : Tree := .list [entry "sw1" 23 [(.str "protocol".toList, .none)], entry "sw2" 24 []]

namespace Writes

open Batch Transition Protocols

variable {batchingEnabled : Bool} {as : List WritesAct} {s : Writes}

theorem sound_of_run (hrun : exec step (start batchingEnabled) as = some s) : s.Sound :=
  exec_invariant' (fun _ _ _ h hs => h.step hs) (sound_start batchingEnabled) hrun

theorem own_of_run (hrun : exec step (start batchingEnabled) as = some s) (hfresh : Along step Fresh (start batchingEnabled) as) :
    s.Own := by
  have h : s.Sound ∧ s.Own := exec_invariant (I := fun s => s.Sound ∧ s.Own) (fun _ _ _ h hf hs => ⟨h.1.step hs, h.2.step h.1 hf hs⟩)
    ⟨sound_start batchingEnabled, own_start batchingEnabled⟩ hfresh hrun
  exact h.2

theorem whole_of_run (hrun : exec step (start batchingEnabled) as = some s)
    (hfaults : Along step (fun s a => ¬ s.Faults a) (start batchingEnabled) as) : s.Whole :=
  exec_invariant (fun _ _ _ h hf hs => h.step hf hs) (whole_start batchingEnabled) hfaults hrun

/-- Where each connection is made with nothing left of the one before, a connection gets bytes that were accepted on it, each at most once
and in order; and while no flusher fails it gets them all, but for those at the end that wait for a flusher that is at work. -/
theorem in_order (hrun : exec step (start batchingEnabled) as = some s) (hfresh : Along step Fresh (start batchingEnabled) as) (conn : ℕ) :
    (s.written conn).Sublist (bytesOf conn s.buffer.accepted) ∧
      (Along step (fun s a => ¬ s.Faults a) (start batchingEnabled) as →
        bytesOf conn s.buffer.accepted = s.written conn ++ bytesOf conn s.buffer.pending ∧ s.buffer.Live) := by
  have hown := own_of_run hrun hfresh
  have hall : bytesOf conn s.buffer.accepted = bytesOf conn s.buffer.taken ++ bytesOf conn s.buffer.pending := by
    rw [(sound_of_run hrun).conserved, bytesOf_append]
  constructor
  · rw [hall]
    exact (hown.written_sublist conn).trans (List.sublist_append_left _ _)
  · intro hfaults
    have hwhole := whole_of_run hrun hfaults
    rw [hall, hown.written_eq_bytesOf hwhole conn]
    exact ⟨rfl, hwhole.live⟩

/-- Two connections with a write each; the second one is made after the first one's byte was flushed. -/
def twoConnections : List WritesAct := [.connect, .writeData [97], .flush, .lost, .drained, .connect, .writeData [98], .writeData [99]]

theorem in_order_twoConnections : ∃ s, exec step (start true) twoConnections = some s ∧
    (s.written 1).Sublist (bytesOf 1 s.buffer.accepted) ∧
      (Along step (fun s a => ¬ s.Faults a) (start true) twoConnections →
        bytesOf 1 s.buffer.accepted = s.written 1 ++ bytesOf 1 s.buffer.pending ∧ s.buffer.Live) := by
  obtain ⟨s, hs⟩ := Option.isSome_iff_exists.mp (by decide : (exec step (start true) twoConnections).isSome)
  exact ⟨s, hs, in_order hs (by decide) 1⟩

/-- A console server that decodes what a connection carries, in whatever chunks it comes, gets the bytes that were accepted on it,
however they were batched. -/
theorem conserver_reads (hrun : exec step (start batchingEnabled) as = some s) (hfresh : Along step Fresh (start batchingEnabled) as)
    (hfaults : Along step (fun s a => ¬ s.Faults a) (start batchingEnabled) as) {conn : ℕ} {chunks : List (List UInt8)}
    (hcut : chunks.flatten = s.wire ConserverHandler.encode conn) :
    bytesOf conn s.buffer.accepted = ((Handler.conserver {}).readLoop chunks).2 ++ bytesOf conn s.buffer.pending ∧
      ((Handler.conserver {}).readLoop chunks).1.AtRest := by
  have hwritten : s.written conn = bytesOf conn s.buffer.taken := (own_of_run hrun hfresh).written_eq_bytesOf (whole_of_run hrun hfaults) conn
  have hdecode := Handler.conserver_decode_encode ((s.batchesTo conn).map fun x => x.data.map Prod.snd)
  rw [List.flatMap_map] at hdecode
  rw [Handler.readLoop_eq, hcut, wire, hdecode]
  refine ⟨?_, rfl⟩
  rw [← List.flatMap_def, ← written_eq, hwritten, (sound_of_run hrun).conserved, bytesOf_append]

theorem conserver_reads_twoConnections : ∃ s, exec step (start true) twoConnections = some s ∧
    bytesOf 0 s.buffer.accepted = ((Handler.conserver {}).readLoop [[97]]).2 ++ bytesOf 0 s.buffer.pending ∧
      ((Handler.conserver {}).readLoop [[97]]).1.AtRest := by
  obtain ⟨s, hs⟩ := Option.isSome_iff_exists.mp (by decide : (exec step (start true) twoConnections).isSome)
  have hwire : (exec step (start true) twoConnections).map (wire ConserverHandler.encode · 0) = some [97] := by decide
  rw [hs] at hwire
  exact ⟨s, hs, conserver_reads hs (by decide) (by decide) (Option.some.inj hwire).symm⟩

end Writes

/-! ## Connections on demand -/

namespace Demand

open Transition

variable {cfg : DemandConfig} {as : List DemandAct} {s : Demand}

/-- Where lost connections are opened again and no client comes while an idle disconnect is under way, whoever is to have a connection has a
manager that opens it. A client that does come in that time, before the connection is closed, can be left on a port without connection or
manager, from which only another change of the number of clients helps. -/
theorem attended (hauto : cfg.autoReconnect = true) (hmean : Along (step cfg) NotMeanwhile (start cfg) as)
    (hrun : exec (step cfg) (start cfg) as = some s) :
    (s.Wanted cfg → s.Managed) ∧
      ((∃ x ∈ s.idles, UnderWay x) → s.isConnected = true → ∀ n, 0 < n → ∃ bs t, (∀ b ∈ bs, IsTask b) ∧
        exec (step cfg) s (.clientCount n :: bs) = some t ∧ t.Stranded ∧
          ∀ cs u, (∀ c ∈ cs, ∀ count, c ≠ .clientCount count) → exec (step cfg) t cs = some u → u.Stranded) := by
  have h : s.Tended cfg := exec_invariant (fun _ _ _ h hm hs => h.step hauto hm hs) (tended_start cfg) hmean hrun
  refine ⟨h.wanted, ?_⟩
  rintro ⟨x, hx, hunder⟩ hup n hn
  obtain ⟨k, hk⟩ := List.mem_iff_getElem?.mp hx
  obtain ⟨bs, t, htask, hrun, hstranded⟩ := h.exists_stranded hk hunder hup hn
  refine ⟨bs, t, htask, hrun, hstranded, fun cs u hcs hrun => ?_⟩
  have hstay : ∀ a ∈ cs, ∀ s : Demand, ∀ count, a ≠ .clientCount count := fun a ha _ => hcs a ha
  exact exec_invariant (I := Stranded) (C := fun _ a => ∀ count, a ≠ .clientCount count) (fun _ _ _ h ha hs => h.step ha hs) hstranded
    (Along.of_forall hstay) hrun

/-- A port that connects on demand. -/
def onDemand : DemandConfig := { connectOnDemand := true, disconnectWhenIdle := true, autoReconnect := true }

/-- A client comes and leaves, and its connection is about to be closed. -/
def comeAndGo : List DemandAct := [.clientCount 1, .manager 0 false, .manager 0 true, .clientCount 0, .idle 0, .manager 0 false, .idle 0]

theorem attended_comeAndGo : ∃ s, exec (step onDemand) (start onDemand) comeAndGo = some s ∧
    (s.Wanted onDemand → s.Managed) ∧
      ((∃ x ∈ s.idles, UnderWay x) → s.isConnected = true → ∀ n, 0 < n → ∃ bs t, (∀ b ∈ bs, IsTask b) ∧
        exec (step onDemand) s (.clientCount n :: bs) = some t ∧ t.Stranded ∧
          ∀ cs u, (∀ c ∈ cs, ∀ count, c ≠ .clientCount count) → exec (step onDemand) t cs = some u → u.Stranded) := by
  obtain ⟨s, hs⟩ := Option.isSome_iff_exists.mp (by decide : (exec (step onDemand) (start onDemand) comeAndGo).isSome)
  exact ⟨s, hs, attended rfl (by decide) hs⟩

/-- Where no attempt to connect succeeds after the clients have left, a connection without clients has a timer, or a task that closes it. One
that is made too late, while no timer runs, is kept by every task. -/
theorem released (hon : cfg.connectOnDemand = true) (hidle : cfg.disconnectWhenIdle = true) (hauto : cfg.autoReconnect = true)
    (htime : Along (step cfg) InTime (start cfg) as) (hrun : exec (step cfg) (start cfg) as = some s) :
    s.Released ∧ ((∀ x ∈ s.idles, ¬ Pending x) → ∀ a t, ¬ s.InTime a → s.step cfg a = some t →
      ∀ bs u, (∀ b ∈ bs, IsTask b) → exec (step cfg) t bs = some u → ¬ u.Released) := by
  refine ⟨exec_invariant (fun _ _ _ h ht hs => h.step hon hidle hauto ht hs) (released_start cfg) htime hrun, ?_⟩
  intro hnone a t hlate hs bs u hbs hrun
  refine exec_invariant (I := fun s => ¬ s.Released) (C := fun _ a => IsTask a) (fun _ _ _ h ha hs => not_released_step h ha hauto hs) ?_
    (Along.of_forall fun a ha _ => hbs a ha) hrun
  exact not_released_of_late hnone hlate hs

theorem released_comeAndGo : ∃ s, exec (step onDemand) (start onDemand) comeAndGo = some s ∧
    s.Released ∧ ((∀ x ∈ s.idles, ¬ Pending x) → ∀ a t, ¬ s.InTime a → s.step onDemand a = some t →
      ∀ bs u, (∀ b ∈ bs, IsTask b) → exec (step onDemand) t bs = some u → ¬ u.Released) := by
  obtain ⟨s, hs⟩ := Option.isSome_iff_exists.mp (by decide : (exec (step onDemand) (start onDemand) comeAndGo).isSome)
  exact ⟨s, hs, released rfl rfl rfl (by decide) hs⟩

end Demand

end OpenMux.Initiator
