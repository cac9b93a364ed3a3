import OpenMux.Peering.Trust

/-!
# What the gate of a peer keeps
-/

namespace OpenMux.Peering

open Py

variable {ω : Type} {F : Formats ω} {s t : Store} {d : Dial} {key fp fp' : Text}

/-- What was saved is what is read, with the text of each value. -/
theorem loadKnownPeers_save (s : Store) (m : Dict Text ω) : ∃ m', F.loadKnownPeers (F.saveKnownPeers s m .done) true = some m' ∧
    ∀ k, m'.get? k = (m.get? k).map fun v => F.text (F.str v) := by
  obtain ⟨m', hyaml, hget⟩ := F.yaml_safeDump m
  refine ⟨m'.mapValues fun _ v => F.text (F.str v), ?_, fun k => by rw [Dict.get?_mapValues, hget]⟩
  simp [Formats.loadKnownPeers, Formats.saveKnownPeers, Formats.parseKnownPeersYaml, hyaml]

/-- A file holds one fingerprint for a peer. -/
theorem Store.Holds.unique (h : s.Holds F key fp) (h' : s.Holds F key fp') : F.lower fp = F.lower fp' := by
  obtain ⟨m, v, t, hm, hv, ht, hfp⟩ := h
  obtain ⟨m', v', t', hm', hv', ht', hfp'⟩ := h'
  cases hm.symm.trans hm'
  cases hv.symm.trans hv'
  cases ht.symm.trans ht'
  rw [← hfp, hfp']

/-- A fingerprint that is stored anew is held, and so are those that were. -/
theorem Store.Holds.saved (fp : Text) {m : Dict Text ω} (hload : F.loadKnownPeers s true = some m) (hnew : m.get? key = none) :
    (F.saveKnownPeers s (m.set key (F.text fp)) .done).Holds F key fp ∧
      ∀ key' fp', s.Holds F key' fp' → (F.saveKnownPeers s (m.set key (F.text fp)) .done).Holds F key' fp' := by
  obtain ⟨m', hm', hget⟩ := loadKnownPeers_save (F := F) s (m.set key (F.text fp))
  constructor
  · refine ⟨m', F.text (F.str (F.text fp)), fp, hm', ?_, ?_, rfl⟩
    · rw [hget, Dict.get?_set, if_pos rfl]
      rfl
    · rw [F.asText_text, F.str_text _ _ (F.asText_text fp)]
  · rintro key' fp' ⟨_, v, t, hm, hv, ht, hfp⟩
    cases hload.symm.trans hm
    have hne : key' ≠ key := by
      rintro rfl
      cases hnew.symm.trans hv
    refine ⟨m', F.text (F.str v), t, hm', ?_, ?_, hfp⟩
    · rw [hget, Dict.get?_set_ne _ _ hne, hv]
      rfl
    · rw [F.asText_text, F.str_text v t ht]

/-- What a link needs to be accepted, and what it leaves, where the file can be read and written. -/
theorem verifyPeerFingerprint_some (h : F.verifyPeerFingerprint s d true .done = some t) :
    (∀ pin, d.options.tlsPinFingerprint = some pin → ∃ fp, d.fingerprint = some fp ∧ F.lower fp = F.lower pin) ∧
      (d.Tofu → ∃ fp, d.fingerprint = some fp ∧ t.Holds F d.key fp) ∧ ∀ key fp, s.Holds F key fp → t.Holds F key fp := by
  unfold Formats.verifyPeerFingerprint at h
  split at h
  · rename_i hcert hpin
    split at h
    · cases h
    · rename_i hopen
      cases h
      have hopen : d.options.tlsPinFingerprint = none ∧ d.options.tlsTofu = false := by simpa using hopen
      refine ⟨fun pin hp => ?_, fun htofu => ?_, fun _ _ hheld => hheld⟩
      · cases hp.symm.trans hopen.1
      · cases htofu.2.2.symm.trans hopen.2
  · rename_i fp pin hcert hpin
    split at h
    · rename_i heq
      cases h
      refine ⟨fun pin' hp => ?_, fun htofu => ?_, fun _ _ hheld => hheld⟩
      · cases hpin.symm.trans hp
        exact ⟨fp, hcert, heq⟩
      · cases htofu.2.1.symm.trans hpin
    · cases h
  · rename_i fp hcert hpin
    have hnone : ∀ pin, d.options.tlsPinFingerprint = some pin → ∃ fp, d.fingerprint = some fp ∧ F.lower fp = F.lower pin :=
      fun pin hp => by cases hpin.symm.trans hp
    split at h
    · rename_i hopen
      cases h
      refine ⟨hnone, fun htofu => ?_, fun _ _ hheld => hheld⟩
      simp [htofu.2.2] at hopen
    · split at h
      · cases h
      · rename_i m hload
        split at h
        · rename_i v hv
          split at h
          · rename_i heq
            cases h
            obtain ⟨stored, hstored, hlower⟩ := Option.map_eq_some_iff.mp heq
            exact ⟨hnone, fun _ => ⟨fp, hcert, m, v, stored, hload, hv, hstored, hlower⟩, fun _ _ hheld => hheld⟩
          · cases h
        · rename_i hnew
          cases h
          obtain ⟨hheld, hkept⟩ := Store.Holds.saved fp hload hnew
          exact ⟨hnone, fun _ => ⟨fp, hcert, hheld⟩, hkept⟩

/-- Only `ssl_verify` turns every check off. -/
theorem sslVerify_of_relaxed {opts : PeerOptions} (hmode : (resolveVerifyMode opts).relaxed) (hpin : opts.tlsPinFingerprint = none)
    (htofu : opts.tlsTofu = false) : opts.sslVerify = false := by
  unfold resolveVerifyMode at hmode
  cases hverify : opts.sslVerify with
  | false => rfl
  | true =>
      rw [hverify, hpin, htofu] at hmode
      cases hca : opts.sslCaCert <;> simp [VerifyMode.relaxed, hca] at hmode

namespace Trust

variable {σ τ : Trust} {a : TrustAct}

/-- A link is refused, or accepted with what it leaves. -/
theorem step_cases (h : σ.step F a = some τ) : τ = σ ∨ τ.accepted = σ.accepted ++ [a.dial] ∧
    (a.dial.options.useTls = false ∧ τ.store = σ.store ∨ F.verifyPeerFingerprint σ.store a.dial a.readable a.saved = some τ.store) := by
  unfold step at h
  split at h
  · rename_i hplain
    cases h
    exact .inr ⟨rfl, .inl ⟨by simpa using hplain, rfl⟩⟩
  · split at h
    · rename_i store hverify
      cases h
      exact .inr ⟨rfl, .inr hverify⟩
    · cases h
      exact .inl rfl

/-- Every accepted link that uses TLS is vouched for. -/
def Sworn (F : Formats ω) (σ : Trust) : Prop := ∀ d ∈ σ.accepted, d.options.useTls = true → σ.Vouched F d

theorem Sworn.step (h : σ.Sworn F) (hsound : σ.Sound a) (hs : σ.step F a = some τ) :
    τ.Sworn F ∧ ∀ key fp, σ.store.Holds F key fp → τ.store.Holds F key fp := by
  obtain rfl | ⟨haccepted, hstore⟩ := step_cases hs
  · exact ⟨h, fun _ _ hheld => hheld⟩
  · have hkept : ∀ key fp, σ.store.Holds F key fp → τ.store.Holds F key fp := by
      obtain ⟨-, hsame⟩ | hverify := hstore
      · rw [hsame]
        exact fun _ _ hheld => hheld
      · rw [hsound.1, hsound.2] at hverify
        exact (verifyPeerFingerprint_some hverify).2.2
    refine ⟨fun d hd htls => ?_, hkept⟩
    rw [haccepted] at hd
    obtain hd | hd := List.mem_append.mp hd
    · have hv := h d hd htls
      refine ⟨hv.pinned, fun htofu => ?_, hv.unchecked⟩
      obtain ⟨fp, hcert, hheld⟩ := hv.first htofu
      exact ⟨fp, hcert, hkept d.key fp hheld⟩
    · cases List.mem_singleton.mp hd
      obtain ⟨hplain, -⟩ | hverify := hstore
      · cases htls.symm.trans hplain
      · rw [hsound.1, hsound.2] at hverify
        obtain ⟨hpinned, hfirst, -⟩ := verifyPeerFingerprint_some hverify
        exact ⟨hpinned, hfirst, sslVerify_of_relaxed⟩

/-- A link that is dialled while the file cannot be read is accepted, and no other fingerprint is held after it. -/
theorem step_unreadable (σ : Trust) (hread : a.readable = false) (hsaved : a.saved = .done) (htofu : a.dial.Tofu)
    (hcert : a.dial.fingerprint = some fp) : ∃ τ, σ.step F a = some τ ∧ τ.accepted = σ.accepted ++ [a.dial] ∧
      ∀ key fp', key ≠ a.dial.key → ¬ τ.store.Holds F key fp' := by
  obtain ⟨htls, hpin, hfirst⟩ := htofu
  obtain ⟨m, hm, hget⟩ := loadKnownPeers_save (F := F) σ.store ((∅ : Dict Text ω).set a.dial.key (F.text fp))
  have hload : F.loadKnownPeers σ.store false = some ∅ := rfl
  have hnew : (∅ : Dict Text ω).get? a.dial.key = none := rfl
  refine ⟨⟨F.saveKnownPeers σ.store ((∅ : Dict Text ω).set a.dial.key (F.text fp)) .done, σ.accepted ++ [a.dial]⟩, ?_, rfl, ?_⟩
  · simp [step, htls, Formats.verifyPeerFingerprint, hcert, hpin, hfirst, hread, hsaved, hload, hnew]
  · rintro key fp' hne ⟨m', v, t, hm', hv, -⟩
    cases hm.symm.trans hm'
    rw [hget, Dict.get?_set_ne _ _ hne] at hv
    cases hv

end Trust

end OpenMux.Peering
