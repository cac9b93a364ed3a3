import OpenMux.Lib.Base64
import OpenMux.Lib.Dict
import OpenMux.Lib.PyValue

/-!
# The trust header

The header with which the federated proxy vouches for a user, and its verification. JSON, conversions of claims, HMAC and Ed25519 are taken
as they come.
-/

namespace OpenMux.Web

open Py

variable {Priv Pub : Type}

structure SsoLibrary (Priv Pub : Type) where
  /-- `json.loads(raw.decode("utf-8", errors="ignore"))`, where it is a dict. -/
  loads : List UInt8 → Option (Dict Text Value)
  /-- `json.dumps(claims, separators=(",", ":")).encode("utf-8")`. -/
  dumps : Dict Text Value → List UInt8
  /-- `int(value)`; `none` when it raises. -/
  int : Value → Option ℤ
  str : Value → Text
  /-- The HMAC of a text with a secret, in hexadecimal digits. -/
  hexdigest : Text → Text → Text
  sign : Priv → List UInt8 → List UInt8
  verify : Pub → List UInt8 → List UInt8 → Bool

/-- What the MuxCon adapter of a server tells: the server ids of its connections and the public keys. -/
structure SsoPeers (Pub : Type) where
  serverId : Text
  connections : List (Option Text)
  authPubkeys : Dict Text Pub

structure SsoServer (Pub : Type) where
  ssoSecret : Option Text
  ssoMaxSkewSec : ℤ
  muxcon : Option (SsoPeers Pub)

/-- What a proxy signs with. -/
structure SsoProxy (Priv : Type) where
  ssoSecret : Option Text
  authPriv : Option Priv
  authKeyId : Option Text

/-- The claims of a header. -/
def ssoClaims (user node : Text) (now : ℤ) : Dict Text Value where
  entries := [("ver".toList, .int 1), ("user".toList, .str user), ("perm".toList, .str "admin".toList), ("iat".toList, .int now),
    ("exp".toList, .int (now + 60)), ("node".toList, .str node)]
  nodup := show (["ver".toList, "user".toList, "perm".toList, "iat".toList, "exp".toList, "node".toList] : List Text).Nodup by decide

/-- `_proxy_sso_header`. -/
def proxySsoHeader (lib : SsoLibrary Priv Pub) (p : SsoProxy Priv) (username : Option Text) (node : Text) (now : ℤ) : Option Text :=
  let user := (username.filter (· ≠ [])).getD "sso".toList
  let payload := lib.dumps (ssoClaims user node now)
  let payloadB64 := Base64.encode payload
  match p.ssoSecret.filter (· ≠ []), p.authPriv, p.authKeyId.filter (· ≠ []) with
  | some secret, _, _ => some ("v1".toList ++ ';' :: (payloadB64 ++ ';' :: lib.hexdigest secret payloadB64))
  | none, some priv, some kid =>
      some ("v1e".toList ++ ';' :: (kid ++ ';' :: (payloadB64 ++ ';' :: Base64.encode (lib.sign priv payload))))
  | _, _, _ => none

namespace SsoServer

variable (lib : SsoLibrary Priv Pub) (server : SsoServer Pub)

/-- `_sso_decode_payload`. -/
def ssoDecodePayload (b64s : Text) : Option (Dict Text Value) := (Base64.decode (Base64.padded b64s)).bind lib.loads

/-- A time in the claims, now if there is none. -/
def claimedTime (claims : Dict Text Value) (key : Text) (now : ℤ) : Option ℤ := (claims.get? key).elim (some now) lib.int

/-- `_sso_claims_in_valid_window`; a claim that is no number ends the verification. -/
def ssoClaimsInValidWindow (claims : Dict Text Value) (skew now : ℤ) : Bool :=
  match claimedTime lib claims "iat".toList now, claimedTime lib claims "exp".toList now with
  | some iat, some exp => !(decide (now < iat - skew) || decide (exp + skew < now))
  | _, _ => false

/-- `_sso_node_allowed`. -/
def ssoNodeAllowed (node : Option Value) : Bool :=
  match node.filter (·.truthy) with
  | none => true
  | some node =>
      match server.muxcon with
      | none => lib.str node = "None".toList
      | some muxcon => lib.str node = muxcon.serverId || muxcon.connections.any fun sid => sid.getD "None".toList = lib.str node

/-- `_sso_find_pubkey`. -/
def ssoFindPubkey (kid : Text) : Option Pub := server.muxcon.bind fun muxcon => muxcon.authPubkeys.get? kid

/-- `_verify_sso_v1`. -/
def verifySsoV1 (payloadB64 sigHex : Text) (now : ℤ) : Option (Dict Text Value) :=
  match ssoDecodePayload lib payloadB64, server.ssoSecret.filter (· ≠ []) with
  | some claims, some secret =>
      if ssoClaimsInValidWindow lib claims server.ssoMaxSkewSec now ∧ lib.hexdigest secret payloadB64 = sigHex then some claims else none
  | _, _ => none

/-- `_verify_sso_v1e`. -/
def verifySsoV1e (kid payloadB64 sigB64 : Text) (now : ℤ) : Option (Dict Text Value) :=
  match ssoDecodePayload lib payloadB64, server.ssoFindPubkey kid, Base64.decode (Base64.padded payloadB64),
      Base64.decode (Base64.padded sigB64) with
  | some claims, some pub, some payload, some sig =>
      if ssoClaimsInValidWindow lib claims server.ssoMaxSkewSec now ∧ server.ssoNodeAllowed lib (claims.get? "node".toList) ∧
        lib.verify pub sig payload then some claims else none
  | _, _, _, _ => none

/-- `_verify_sso_header`. -/
def verifySsoHeader (header : Text) (now : ℤ) : Option (Dict Text Value) :=
  match split ';' header.length header with
  | [ver, payloadB64, sigHex] => if ver = "v1".toList then server.verifySsoV1 lib payloadB64 sigHex now else none
  | [ver, kid, payloadB64, sigB64] => if ver = "v1e".toList then server.verifySsoV1e lib kid payloadB64 sigB64 now else none
  | _ => none

/-! ## What a header should be -/

inductive SsoFormat
  | v1
  | v1e
deriving DecidableEq

/-- The header has the right signature over the claims. -/
def Authentic (header : Text) (claims : Dict Text Value) : SsoFormat → Prop
  | .v1 => ∃ payloadB64 secret, split ';' header.length header = ["v1".toList, payloadB64, lib.hexdigest secret payloadB64] ∧
      server.ssoSecret = some secret ∧ secret ≠ [] ∧ ssoDecodePayload lib payloadB64 = some claims
  | .v1e => ∃ kid payloadB64 sigB64 pub payload sig, split ';' header.length header = ["v1e".toList, kid, payloadB64, sigB64] ∧
      server.ssoFindPubkey kid = some pub ∧ Base64.decode (Base64.padded payloadB64) = some payload ∧ lib.loads payload = some claims ∧
      Base64.decode (Base64.padded sigB64) = some sig ∧ lib.verify pub sig payload = true

/-- A claim holds a time. -/
def Carries (claims : Dict Text Value) (key : Text) (time : ℤ) : Prop := ∃ value, claims.get? key = some value ∧ lib.int value = some time

/-- A node claim that is set names this server or one that is connected. -/
def Named (claims : Dict Text Value) : Prop := ∀ node, claims.get? "node".toList = some node → node.truthy = true →
  ∃ muxcon, server.muxcon = some muxcon ∧ (lib.str node = muxcon.serverId ∨ some (lib.str node) ∈ muxcon.connections)

/-- The header is accepted only with a right signature, within the times that it carries, and for a known node, and not for ever. -/
structure Right (header : Text) : Prop where
  proved : ∀ now claims, server.verifySsoHeader lib header now = some claims → ∃ format, server.Authentic lib header claims format
  fresh : ∀ now claims, server.verifySsoHeader lib header now = some claims →
    ∃ iat exp, Carries lib claims "iat".toList iat ∧ Carries lib claims "exp".toList exp ∧ iat - server.ssoMaxSkewSec ≤ now ∧
      now ≤ exp + server.ssoMaxSkewSec
  named : ∀ now claims, server.verifySsoHeader lib header now = some claims → server.Named lib claims
  expires : ∃ last, ∀ now, last < now → server.verifySsoHeader lib header now = none

/-- A claim that is there holds a time. -/
def Readable (claims : Dict Text Value) (key : Text) : Prop := ∀ value, claims.get? key = some value → (lib.int value).isSome

/-- Of a header with the right signature: both times are there, unless one is no number or the skew is negative, and the node is known,
unless the times leave no window. -/
structure Sane (header : Text) : Prop where
  dated : ∀ format claims, server.Authentic lib header claims format →
    (format = .v1e → server.ssoNodeAllowed lib (claims.get? "node".toList) = true) → 0 ≤ server.ssoMaxSkewSec →
    Readable lib claims "iat".toList → Readable lib claims "exp".toList →
    (claims.get? "iat".toList).isSome ∧ (claims.get? "exp".toList).isSome
  known : ∀ format claims iat exp, server.Authentic lib header claims format →
    (format = .v1e → server.ssoNodeAllowed lib (claims.get? "node".toList) = true) → Carries lib claims "iat".toList iat →
    Carries lib claims "exp".toList exp → iat - server.ssoMaxSkewSec ≤ exp + server.ssoMaxSkewSec → server.Named lib claims

/-- The server holds the secret of the proxy, or the proxy has none and the server is the one that is named and has registered its key. -/
def Trusts (p : SsoProxy Priv) (node : Text) : Prop :=
  match p.ssoSecret.filter (· ≠ []) with
  | some secret => server.ssoSecret = some secret
  | none => ∃ priv kid muxcon pub, p.authPriv = some priv ∧ p.authKeyId = some kid ∧ server.muxcon = some muxcon ∧
      muxcon.serverId = node ∧ muxcon.authPubkeys.get? kid = some pub ∧ ∀ data, lib.verify pub (lib.sign priv data) data = true

/-- The documented behaviour that a header of these claims rests on. -/
structure Reads (claims : Dict Text Value) : Prop where
  loads : lib.loads (lib.dumps claims) = some claims
  int : ∀ n, lib.int (.int n) = some n
  str : ∀ t, lib.str (.str t) = t
  hexdigest : ∀ secret text, ';' ∉ lib.hexdigest secret text

end SsoServer

end OpenMux.Web
