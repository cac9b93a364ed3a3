import OpenMux.Lib.PyPath

/-!
# The masked view of the configuration

What the editor sends to the browser in place of the stored configuration, and what it makes of the mapping that comes back.
`none` stands for a `TypeError` or an `AttributeError`.
-/

namespace OpenMux.ConfigEditor

open Py

/-- `_SECRET_MASK`. -/
def secretMask : Text := "********".toList

/-- `_PORT_SECRET_FIELDS`. -/
def portSecretFields : List Text := ["password".toList, "api_key".toList]

/-- One field of `_mask_fields`. -/
def maskField (m : Mapping) (field : Text) : Mapping :=
  if (Mapping.get field m).truthy then Mapping.assign field (.str secretMask) m else m

/-- `_mask_fields`. -/
def maskFields (fields : List Text) : Tree → Tree
  | .dict m => .dict (fields.foldl maskField m)
  | v => v

/-- One item of `_PORT_SECRET_SECTIONS`. -/
def maskPort : Tree → Tree
  | .dict item =>
      Place.within (maskFields portSecretFields) (.key "protocol".toList) (maskFields portSecretFields (.dict item))
  | v => v

def maskAuth : Tree → Option Tree
  | .dict auth =>
      ((Mapping.update "users".toList (Tree.forRows fun user => some (maskFields ["password_hash".toList] user)) auth).bind
        (Mapping.update "api_keys".toList (Tree.forRows fun key => some (maskFields ["key".toList] key)))).map .dict
  | v => some v

/-- `_mask_config_secrets`. -/
def maskConfigSecrets (config : Mapping) : Option Mapping :=
  (Mapping.update "authentication".toList maskAuth config).bind
    (Mapping.update "tcp_initiator_ports".toList (Tree.forRows fun item => some (maskPort item)))

/-- `_find_by_field`: the first row with an equal value. -/
def findByField (rows : Tree) (field : Text) (value : Tree) : Option Tree :=
  match rows with
  | .list xs => some ((xs.find? fun
      | .dict row => (Mapping.get field row).eq value
      | _ => false).getD .none)
  | v => if v.loopable then some .none else none

/-- What `_restore_fields` puts in place of the mask. -/
def restored (source : Tree) (field : Text) : Option Tree :=
  if source.truthy then
    match source with
    | .dict s => some ((Mapping.find field s).getD (.str []))
    | _ => none
  else some (.str [])

/-- One field of `_restore_fields`. -/
def restoreField (source : Tree) (m : Mapping) (field : Text) : Option Mapping :=
  if (Mapping.get field m).eq (.str secretMask) then (restored source field).map (Mapping.assign field · m) else some m

/-- `_restore_fields`. -/
def restoreFields (source : Tree) (fields : List Text) : Tree → Option Tree
  | .dict m => (fields.foldlM (restoreField source) m).map .dict
  | v => some v

/-- A row of `users` or `api_keys`. -/
def restoreRow (stored : Tree) (idField : Text) (fields : List Text) : Tree → Option Tree
  | .dict row => do
      let source ← findByField stored idField (Mapping.get idField row)
      restoreFields source fields (.dict row)
  | v => some v

/-- `match.get("protocol")`, if there is a match. -/
def protocolOf (v : Tree) : Tree := Mapping.get "protocol".toList v.entries

/-- An item of `_PORT_SECRET_SECTIONS`. -/
def restorePort (stored : Tree) : Tree → Option Tree
  | .dict item => do
      let source ← findByField stored "name".toList (Mapping.get "name".toList item)
      match ← restoreFields source portSecretFields (.dict item) with
      | .dict item =>
          (Mapping.update "protocol".toList (restoreFields (protocolOf source) portSecretFields) item).map .dict
      | v => some v
  | v => some v

/-- The entries of a section that is a mapping. -/
def section? (name : Text) (config : Mapping) : Mapping := (Mapping.get name config).entries

def restoreAuth (stored : Mapping) : Tree → Option Tree
  | .dict auth =>
      ((Mapping.update "users".toList (Tree.forRows <|
          restoreRow (Mapping.get "users".toList stored) "username".toList ["password_hash".toList]) auth).bind
        (Mapping.update "api_keys".toList (Tree.forRows <|
          restoreRow (Mapping.get "api_keys".toList stored) "name".toList ["key".toList]))).map .dict
  | v => some v

/-- `_restore_masked_secrets`. -/
def restoreMaskedSecrets (payload current : Mapping) : Option Mapping :=
  (Mapping.update "authentication".toList (restoreAuth (section? "authentication".toList current)) payload).bind
    (Mapping.update "tcp_initiator_ports".toList
      (Tree.forRows <| restorePort (Mapping.get "tcp_initiator_ports".toList current)))

/-- `_PRESERVE_UNMODELLED_KEYS`. -/
def preserveUnmodelledKeys : List (Text × List Text) :=
  [("muxcon".toList, ["auth_private_key_path".toList]),
    ("web_console".toList,
      ["hardware_info_file".toList, "sso_trust_header".toList, "sso_secret".toList, "sso_max_skew_sec".toList])]

/-- Copies a key that the payload omits. -/
def preserveKey (stored m : Mapping) (key : Text) : Mapping :=
  match Mapping.find key m, Mapping.find key stored with
  | none, some v => Mapping.assign key v m
  | _, _ => m

/-- One section of `_merge_preserve_unmodelled`. -/
def mergeSection (current payload : Mapping) (preserved : Text × List Text) : Mapping :=
  match Mapping.find preserved.1 payload, Mapping.get preserved.1 current with
  | some (.dict m), .dict stored => Mapping.assign preserved.1 (.dict (preserved.2.foldl (preserveKey stored) m)) payload
  | _, _ => payload

/-- `_merge_preserve_unmodelled`. -/
def mergePreserveUnmodelled (payload current : Mapping) : Mapping :=
  preserveUnmodelledKeys.foldl (mergeSection current) payload

/-- `_prepare_payload_for_save`, where `current` is the configuration of the manager. -/
def preparePayloadForSave (payload current : Mapping) : Option Mapping :=
  (restoreMaskedSecrets payload current).map fun payload =>
    Mapping.pop "access_default".toList (mergePreserveUnmodelled payload current)

end OpenMux.ConfigEditor
