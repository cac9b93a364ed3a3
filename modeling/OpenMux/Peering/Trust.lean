import OpenMux.Lib.Dict
import OpenMux.Lib.PyText
import OpenMux.Lib.Run

/-!
# The fingerprints of peers

The gate that a dialled link passes after its TLS handshake, with the file of known peers. The formats of the file, `str` and `lower` are the
interpreter's. A step is one link; the file may be unreadable at it, and a write of the file may fail and leave anything.
-/

namespace OpenMux.Peering

open Py

variable {ω : Type}

/-- What the gate needs of YAML, JSON and of values that need not be text. A parser gives `none` when it raises, and `some none` for a value
that is no mapping. -/
structure Formats (ω : Type) where
  yaml : Text → Option (Option (Dict Text ω))
  json : Text → Option (Option (Dict Text ω))
  safeDump : Dict Text ω → Text
  text : Text → ω
  asText : ω → Option Text
  str : ω → Text
  lower : Text → Text
  yaml_safeDump : ∀ m, ∃ m', yaml (safeDump m) = some (some m') ∧ ∀ k, m'.get? k = m.get? k
  asText_text : ∀ t, asText (text t) = some t
  str_text : ∀ v t, asText v = some t → str v = t

/-- The options of a peer that its TLS check depends on. A pin is given if it is true, by its `str`. -/
structure PeerOptions where
  useTls : Bool := true
  sslVerify : Bool := true
  sslCaCert : Bool := false
  tlsPinFingerprint : Option Text := none
  tlsTofu : Bool := true
deriving DecidableEq

inductive VerifyMode
  | off
  | ca
  | pin
  | tofou
  | system
deriving DecidableEq

/-- `_resolve_verify_mode`. -/
def resolveVerifyMode (opts : PeerOptions) : VerifyMode :=
  if ! opts.sslVerify then .off
  else if opts.sslCaCert then .ca
  else if opts.tlsPinFingerprint.isSome then .pin
  else if opts.tlsTofu then .tofou
  else .system

/-- The modes in which `_create_client_ssl_context` checks no certificate. -/
def VerifyMode.relaxed (m : VerifyMode) : Prop := m = .pin ∨ m = .tofou ∨ m = .off

/-- A link that was dialled, with the fingerprint of the certificate that the peer presented. -/
structure Dial where
  host : Text
  port : ℕ
  options : PeerOptions := {}
  fingerprint : Option Text
deriving DecidableEq

/-- The name of a peer in the file. -/
def Dial.key (d : Dial) : Text := d.host ++ ':' :: decimal d.port

/-- The content of the file of known peers, and of the file of the same name that ends in `.json`. -/
structure Store where
  knownPeers : Option Text := none
  legacy : Option Text := none
deriving DecidableEq

/-- What becomes of a write of the file. -/
inductive Saved
  | done
  | failed (left : Option Text)
deriving DecidableEq

namespace Formats

variable (F : Formats ω)

/-- `_parse_known_peers_yaml`; `none` is a value that is no mapping. -/
def parseKnownPeersYaml (content : Text) : Option (Dict Text ω) :=
  match F.yaml content with
  | some (some m) => some (m.mapValues fun _ v => F.text (F.str v))
  | _ => (F.json content).getD (some ∅)

/-- `_load_known_peers`. -/
def loadKnownPeers (s : Store) (readable : Bool) : Option (Dict Text ω) :=
  if ! readable then some ∅
  else match s.knownPeers, s.legacy with
    | some content, _ => F.parseKnownPeersYaml content
    | none, some content => (F.json content).getD (some ∅)
    | none, none => some ∅

/-- `_save_known_peers`. -/
def saveKnownPeers (s : Store) (m : Dict Text ω) : Saved → Store
  | .done => { s with knownPeers := some (F.safeDump m) }
  | .failed left => { s with knownPeers := left }

/-- `_verify_peer_fingerprint` for a link that uses TLS: `none` refuses it. -/
def verifyPeerFingerprint (s : Store) (d : Dial) (readable : Bool) (saved : Saved) : Option Store :=
  match d.fingerprint, d.options.tlsPinFingerprint with
  | none, pin => if pin.isSome || d.options.tlsTofu then none else some s
  | some fp, some pin => if F.lower fp = F.lower pin then some s else none
  | some fp, none =>
      if ! d.options.tlsTofu then some s
      else match F.loadKnownPeers s readable with
        | none => none
        | some m =>
            match m.get? d.key with
            | some v => if (F.asText v).map F.lower = some (F.lower fp) then some s else none
            | none => some (F.saveKnownPeers s (m.set d.key (F.text fp)) saved)

end Formats

/-- The links that a node accepted, and its files. -/
structure Trust where
  store : Store := {}
  accepted : List Dial := []
deriving DecidableEq

/-- A link is dialled. -/
structure TrustAct where
  dial : Dial
  readable : Bool := true
  saved : Saved := .done
deriving DecidableEq

namespace Trust

variable (F : Formats ω)

/-- `_il_verify_fingerprint`. -/
def step (s : Trust) (a : TrustAct) : Option Trust :=
  if ! a.dial.options.useTls then some { s with accepted := s.accepted ++ [a.dial] }
  else match F.verifyPeerFingerprint s.store a.dial a.readable a.saved with
    | some store => some { store := store, accepted := s.accepted ++ [a.dial] }
    | none => some s

/-- The file can be read, and a write of it succeeds. -/
def Sound (_ : Trust) (a : TrustAct) : Prop := a.readable = true ∧ a.saved = .done

instance (s : Trust) (a : TrustAct) : Decidable (s.Sound a) := inferInstanceAs (Decidable (_ ∧ _))

end Trust

/-- The link is held to the first certificate that the peer presents. -/
def Dial.Tofu (d : Dial) : Prop := d.options.useTls = true ∧ d.options.tlsPinFingerprint = none ∧ d.options.tlsTofu = true

/-- The file holds a fingerprint for a peer. -/
def Store.Holds (F : Formats ω) (s : Store) (key fp : Text) : Prop :=
  ∃ m v t, F.loadKnownPeers s true = some m ∧ m.get? key = some v ∧ F.asText v = some t ∧ F.lower t = F.lower fp

/-- An accepted link that uses TLS was checked in the way that its options say, and no option leaves it unchecked but those that say so. -/
structure Trust.Vouched (F : Formats ω) (s : Trust) (d : Dial) : Prop where
  pinned : ∀ pin, d.options.tlsPinFingerprint = some pin → ∃ fp, d.fingerprint = some fp ∧ F.lower fp = F.lower pin
  first : d.Tofu → ∃ fp, d.fingerprint = some fp ∧ s.store.Holds F d.key fp
  unchecked : (resolveVerifyMode d.options).relaxed → d.options.tlsPinFingerprint = none → d.options.tlsTofu = false →
    d.options.sslVerify = false

end OpenMux.Peering
