import OpenMux.ConfigEditor.Apply

/-!
# Where the secrets are

The places of the secrets in a configuration, apart from the code: those that the view masks, and those that it leaves. Two
configurations are variants when they are the same once every secret that is not empty is hidden.
-/

namespace OpenMux.ConfigEditor

open Py

def path (keys : List String) : Place := keys.map fun k => .key k.toList

/-- The places that the view masks. -/
def maskedPlaces : List Place :=
  [path ["authentication", "users"] ++ .rows :: path ["password_hash"],
    path ["authentication", "api_keys"] ++ .rows :: path ["key"],
    path ["tcp_initiator_ports"] ++ .rows :: path ["password"],
    path ["tcp_initiator_ports"] ++ .rows :: path ["api_key"],
    path ["tcp_initiator_ports"] ++ .rows :: path ["protocol", "password"],
    path ["tcp_initiator_ports"] ++ .rows :: path ["protocol", "api_key"]]

/-- The places of `web_console.sso_secret`, of inline MuxCon keys and of the passwords of PDU drivers. -/
def exposedPlaces : List Place :=
  [path ["web_console", "sso_secret"],
    path ["muxcon", "auth_private_key"],
    path ["muxcon", "auth", "private_key"],
    path ["power", "pdus"] ++ .rows :: path ["options", "password"]]

/-- Hides a value that is not empty. -/
def blind (v : Tree) : Tree := if v.truthy then .str secretMask else v

def blindAll (ps : List Place) (v : Tree) : Tree := ps.foldl (fun v p => Place.modify blind p v) v

/-- The configurations differ in the values of secrets at the most. -/
def SecretVariants (c d : Mapping) : Prop :=
  blindAll (maskedPlaces ++ exposedPlaces) (.dict c) = blindAll (maskedPlaces ++ exposedPlaces) (.dict d)

/-- The configurations have the same secrets at the places that the view leaves. -/
def SameExposed (c d : Mapping) : Prop := ∀ p ∈ exposedPlaces, Place.values p (.dict c) = Place.values p (.dict d)

/-- The lists that the view goes through. -/
def loopPlaces : List Place :=
  [path ["authentication", "users"], path ["authentication", "api_keys"], path ["tcp_initiator_ports"]]

/-- Every list of rows with secrets can be gone through. -/
def Listed (c : Mapping) : Prop := ∀ p ∈ loopPlaces, ∀ v ∈ Place.values p (.dict c), v.loopable = true

end OpenMux.ConfigEditor

/-!
## Rows with secrets

The three lists whose rows have secrets, and where in a row they are. A submitted mapping comes with the row of the view that
each of its rows was made from, if any.
-/

namespace OpenMux.ConfigEditor

open Py

inductive RowList
  | users
  | apiKeys
  | ports
deriving DecidableEq

namespace RowList

/-- The list itself. -/
def listOf (c : Mapping) : RowList → Tree
  | users => Mapping.get "users".toList (section? "authentication".toList c)
  | apiKeys => Mapping.get "api_keys".toList (section? "authentication".toList c)
  | ports => Mapping.get "tcp_initiator_ports".toList c

def rows (l : RowList) (c : Mapping) : List Tree := (l.listOf c).rows

/-- The field that rows are found by. -/
def idField : RowList → Text
  | users => "username".toList
  | apiKeys | ports => "name".toList

/-- The fields of a row that hold secrets. -/
def secretFields : RowList → List Text
  | users => ["password_hash".toList]
  | apiKeys => ["key".toList]
  | ports => portSecretFields

/-- A row of the view. -/
def mask : RowList → Tree → Tree
  | users => maskFields ["password_hash".toList]
  | apiKeys => maskFields ["key".toList]
  | ports => maskPort

/-- A row of the mapping to save. -/
def restore (current : Mapping) (l : RowList) : Tree → Option Tree :=
  match l with
  | users => restoreRow (users.listOf current) users.idField ["password_hash".toList]
  | apiKeys => restoreRow (apiKeys.listOf current) apiKeys.idField ["key".toList]
  | ports => restorePort (ports.listOf current)

end RowList

/-- A field of the rows of a list, or of their `protocol`. -/
structure Spot where
  list : RowList
  nested : Bool
  field : Text

/-- The fields that hold secrets. -/
def spots : List Spot :=
  [⟨.users, false, "password_hash".toList⟩, ⟨.apiKeys, false, "key".toList⟩, ⟨.ports, false, "password".toList⟩,
    ⟨.ports, false, "api_key".toList⟩, ⟨.ports, true, "password".toList⟩, ⟨.ports, true, "api_key".toList⟩]

namespace Spot

/-- What holds the field: the row, or its `protocol`. -/
def holder (s : Spot) (row : Tree) : Tree := if s.nested then protocolOf row else row

/-- The secret of a row. -/
def secret (s : Spot) (row : Tree) : Option Tree :=
  match s.holder row with
  | .dict m => Mapping.find s.field m
  | _ => none

/-- The secret of the row with this index. -/
def secretAt (s : Spot) (c : Mapping) (j : Nat) : Option Tree := (s.list.rows c)[j]?.bind s.secret

/-- The secret of the first stored row with the identifying value of this row; blank if there is none. -/
def source (s : Spot) (stored : Mapping) : Tree → Option Tree
  | .dict row => (findByField (s.list.listOf stored) s.list.idField (Mapping.get s.list.idField row)).bind fun found =>
      restored (s.holder found) s.field
  | _ => none

end Spot

/-- The mapping that a save writes for the view as it was sent is the stored one. -/
def RoundTrips (stored : Mapping) : Prop :=
  ∃ view, maskConfigSecrets stored = some view ∧
    preparePayloadForSave view stored = some (Mapping.pop "access_default".toList stored)

/-- Every stored secret is that of the first row with the same identifying value. -/
def Findable (stored : Mapping) : Prop :=
  ∀ s ∈ spots, ∀ row ∈ s.list.rows stored, ∀ v, s.secret row = some v → v.truthy = true → s.source stored row = some v

/-- The row of the view that a row of the payload was made from. -/
abbrev Origin := RowList → Nat → Option Nat

/-- A secret left as the mask is that of the row it was shown on, a typed one is kept, and the mask is not saved. -/
structure KeepsSecrets (stored view payload saved : Mapping) (origin : Origin) : Prop where
  restored : ∀ s ∈ spots, ∀ j i, origin s.list j = some i → s.secretAt view i = some (.str secretMask) →
    s.secretAt payload j = some (.str secretMask) → s.secretAt saved j = s.secretAt stored i
  typed : ∀ s ∈ spots, ∀ j v, s.secretAt payload j = some v → v ≠ .str secretMask → s.secretAt saved j = some v
  unmasked : ∀ s ∈ spots, ∀ j, s.secretAt saved j ≠ some (.str secretMask)

/-- The first stored row with the identifying value of a row that has a mask stores the secret that the mask stands for. -/
def Traceable (stored view payload : Mapping) (origin : Origin) : Prop :=
  ∀ s ∈ spots, ∀ j row, (s.list.rows payload)[j]? = some row → s.secret row = some (.str secretMask) →
    s.source stored row ≠ some (.str secretMask) ∧
      ∀ i, origin s.list j = some i → s.secretAt view i = some (.str secretMask) → s.source stored row = s.secretAt stored i

end OpenMux.ConfigEditor
