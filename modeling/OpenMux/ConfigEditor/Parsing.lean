import OpenMux.ConfigEditor.Policy

/-!
# How the security policy is refused

The parser of `security.yaml` with its exceptions, and the parts of the file in the order in which it looks at them.
-/

namespace OpenMux.ConfigEditor.Parsing

open Py

/-- What a `SecurityPolicyError` is about. -/
inductive PolicyError
  | topLevel
  | unknownTop (keys : List Text)
  | block (name : Text)
  | unknownKeys (block : Text) (keys : List Text)
  | list (block key : Text)
  | unknownValues (block key : Text) (names : List Text)
  | limit (key : Text)
  | accessDefault
deriving DecidableEq

/-- `SecurityPolicyError`, or any other exception. -/
inductive Raised
  | policy (e : PolicyError)
  | other
deriving DecidableEq

/-- `str` of a float, a list, a dictionary or an object; `none` where it raises. -/
structure Printer where
  other : Tree → Option Text

def Printer.str (p : Printer) : Tree → Option Text
  | .str t => some t
  | .none => some "None".toList
  | .bool b => some (if b then "True".toList else "False".toList)
  | .int n => Py.str n
  | v => p.other v

/-- `_canonical_section_name` of a text. -/
def sectionText (t : Text) : Text := lowerName (strip t)

/-- `_canonical_adapter_type` of a text. -/
def adapterText (t : Text) : Text := (sectionText t).filter fun c => c ≠ '_' ∧ c ≠ '-' ∧ c ≠ ' '

def textKeys (ks : List Key) : List Text :=
  ks.filterMap fun
    | .str t => some t
    | .other _ => none

/-- `sorted` of a set of text. -/
def sorted (ts : List Text) : List Text := ts.dedup.mergeSort fun s t => decide (s ≤ t)

/-- The keys beyond the known ones are joined into the message, which raises for a key that is no text. -/
def checkKeys (known : List Text) (error : List Text → PolicyError) (m : Mapping) : Except Raised Unit :=
  let unknown := (m.map (·.1)).filter fun k => !known.any fun t => .str t = k
  if unknown = [] then .ok ()
  else if unknown.all fun k => (textKeys [k]) ≠ [] then .error (.policy (error (sorted (textKeys unknown))))
  else .error .other

/-- `_validated_block`. -/
def validatedBlock (data : Mapping) (name : Text) (keys : List Text) : Except Raised Mapping :=
  match (Mapping.get name data).orElse (.dict []) with
  | .dict m => do
      checkKeys keys (.unknownKeys name) m
      .ok m
  | _ => .error (.policy (.block name))

/-- A block of allowed and disabled names. -/
structure Block where
  name : Text
  known : List Text
  normalize : Text → Text

/-- `_resolve_one`. -/
def resolveOne (p : Printer) (b : Block) (cfg : Mapping) (key : Text) (default : List Tree) : Except Raised (List Text) :=
  match (Mapping.find key cfg).getD (.list default) with
  | .none => .ok []
  | .list raw =>
      match raw.mapM p.str with
      | none => .error .other
      | some texts =>
          let normalized := texts.map b.normalize
          if ['*'] ∈ normalized then .ok b.known
          else if normalized.all (b.known.contains ·) then .ok normalized
          else .error (.policy (.unknownValues b.name key (sorted (normalized.filter fun v => !b.known.contains v))))
  | _ => .error (.policy (.list b.name key))

/-- `_resolve_allow_deny_list`. -/
def resolveAllowDenyList (p : Printer) (b : Block) (cfg : Mapping) : Except Raised (List Text) := do
  let allowed ← resolveOne p b cfg "allowed".toList [.str ['*']]
  let disabled ← resolveOne p b cfg "disabled".toList []
  .ok (allowed.filter fun name => !disabled.contains name)

inductive Limit
  | windowSeconds
  | failureThreshold
  | baseLockSeconds
deriving DecidableEq

def Limit.key : Limit → Text
  | windowSeconds => "window_seconds".toList
  | failureThreshold => "failure_threshold".toList
  | baseLockSeconds => "base_lock_seconds".toList

def setLimit (r : RateLimits) (n : Int) : Limit → RateLimits
  | .windowSeconds => { r with windowSeconds := n }
  | .failureThreshold => { r with failureThreshold := n }
  | .baseLockSeconds => { r with baseLockSeconds := n }

/-- The order in which the set `_AUTH_RATE_LIMIT_KEYS` is gone through. -/
structure LimitOrder where
  limits : List Limit
  perm : limits.Perm [.windowSeconds, .failureThreshold, .baseLockSeconds]

def parseLimit (l : Limit) : Tree → Except Raised Int
  | .int n => .ok (max n 1)
  | .float (.fin q) => .ok (max (q.num.tdiv q.den) 1)
  -- `int` raises `OverflowError` or `ValueError`
  | .float _ => .error .other
  | _ => .error (.policy (.limit l.key))

def parseLimits (cfg : Mapping) : List Limit → RateLimits → Except Raised RateLimits
  | [], r => .ok r
  | l :: ls, r =>
      match Mapping.find l.key cfg with
      | none => parseLimits cfg ls r
      | some v => do
          let n ← parseLimit l v
          parseLimits cfg ls (setLimit r n l)

/-- `_parse_auth_rate_limits`. -/
def parseAuthRateLimits (order : LimitOrder) (rateLimits : Mapping) : Except Raised RateLimits := do
  let cfg ← validatedBlock rateLimits "authentication".toList
    [Limit.windowSeconds.key, Limit.failureThreshold.key, Limit.baseLockSeconds.key]
  parseLimits cfg order.limits {}

/-- `_parse_access_default`. -/
def parseAccessDefault (v : Tree) : Except Raised AccessDefault :=
  match ConfigEditor.parseAccessDefault v with
  | some a => .ok a
  | none => .error (.policy .accessDefault)

def adapters : Block := ⟨"adapters".toList, knownAdapterTypes, adapterText⟩

def configEditor : Block := ⟨"config_editor".toList, knownConfigSections, sectionText⟩

def topLevelKeys : List Text := ["adapters".toList, "config_editor".toList, "rate_limits".toList, "access_default".toList]

def allowDenyKeys : List Text := ["allowed".toList, "disabled".toList]

/-- `SecurityPolicy.from_mapping`. -/
def fromMapping (p : Printer) (order : LimitOrder) (raw : Tree) : Except Raised SecurityPolicy :=
  match raw.orElse (.dict []) with
  | .dict data => do
      checkKeys topLevelKeys .unknownTop data
      let adaptersCfg ← validatedBlock data adapters.name allowDenyKeys
      let allowedAdapterTypes ← resolveAllowDenyList p adapters adaptersCfg
      let configEditorCfg ← validatedBlock data configEditor.name allowDenyKeys
      let configEditorWritableSections ← resolveAllowDenyList p configEditor configEditorCfg
      let rateLimitsCfg ← validatedBlock data "rate_limits".toList ["authentication".toList]
      let authRateLimits ← parseAuthRateLimits order rateLimitsCfg
      let accessDefault ← parseAccessDefault (Mapping.get "access_default".toList data)
      .ok { allowedAdapterTypes, configEditorWritableSections, authRateLimits, accessDefault }
  | _ => .error (.policy .topLevel)

/-! ## What the documentation promises -/

def KnownKeys (known : List Text) (m : Mapping) : Prop := ∀ e ∈ m, ∃ t ∈ known, e.1 = .str t

/-- A block that is there is a mapping or null, with known keys. -/
def BlockOk (keys : List Text) (v : Tree) : Prop := (v = .none ∨ ∃ m, v = .dict m) ∧ KnownKeys keys v.entries

/-- The entries of a list, or of its default where it is omitted. -/
def listed (cfg : Mapping) (key : Text) (default : List Tree) : List Tree :=
  ((Mapping.find key cfg).getD (.list default)).rows

/-- An entry stands for a name, or is the star. -/
def NameOf (p : Printer) (b : Block) (v : Tree) (name : Text) : Prop := ∃ t, p.str v = some t ∧ b.normalize t = name

def ListOk (p : Printer) (b : Block) (vs : List Tree) : Prop :=
  ∀ v ∈ vs, ∃ name, NameOf p b v name ∧ (name = ['*'] ∨ name ∈ b.known)

/-- `resolve(list)`, in which the star is every known name. -/
def Resolves (p : Printer) (b : Block) (vs : List Tree) (name : Text) : Prop :=
  name ∈ b.known ∧ ((∃ v ∈ vs, NameOf p b v ['*']) ∨ ∃ v ∈ vs, NameOf p b v name)

def Resolved (p : Printer) (b : Block) (cfg : Mapping) (names : List Text) : Prop :=
  ∀ name, name ∈ names ↔ Resolves p b (listed cfg "allowed".toList [.str ['*']]) name ∧
    ¬ Resolves p b (listed cfg "disabled".toList []) name

/-- The mapping under a name. -/
def under (name : Text) (m : Mapping) : Mapping := (Mapping.get name m).entries

structure WellFormed (p : Printer) (data : Mapping) : Prop where
  top : KnownKeys topLevelKeys data
  allowDeny : ∀ b ∈ [adapters, configEditor], BlockOk allowDenyKeys (Mapping.get b.name data) ∧
    ListOk p b (listed (under b.name data) "allowed".toList [.str ['*']]) ∧
    ListOk p b (listed (under b.name data) "disabled".toList [])
  rateLimits : BlockOk ["authentication".toList] (Mapping.get "rate_limits".toList data)
  authentication : BlockOk [Limit.windowSeconds.key, Limit.failureThreshold.key, Limit.baseLockSeconds.key]
    (Mapping.get "authentication".toList (under "rate_limits".toList data))

/-- A policy comes of a well-formed file and has the sets that the rule gives, and nothing but a `SecurityPolicyError` is raised. -/
def Promised (p : Printer) (raw : Tree) : Except Raised SecurityPolicy → Prop
  | .ok policy => WellFormed p raw.entries ∧
      Resolved p adapters (under adapters.name raw.entries) policy.allowedAdapterTypes ∧
      Resolved p configEditor (under configEditor.name raw.entries) policy.configEditorWritableSections
  | .error (.policy _) => True
  | .error .other => False

/-! ## The parts of a file -/

/-- What the parser looks at. -/
inductive Part
  | top (v : Tree)
  | keys (known : List Text) (m : Mapping)
  | block (v : Tree)
  | names (b : Block) (v : Tree)
  | limit (v : Option Tree)
  | access (v : Tree)

/-- A key that is no text, an entry without a text, or a limit that is not finite. -/
def Part.Crashes (p : Printer) : Part → Prop
  | keys _ m => ∃ e ∈ m, ∃ n, e.1 = .other n
  | names _ v => ∃ x ∈ v.rows, p.str x = none
  | limit v => ∃ x, v = some (.float x) ∧ ∀ q, x ≠ .fin q
  | top _ | block _ | access _ => False

/-- What an error is documented for. -/
def Part.Refused (p : Printer) : Part → Prop
  | top v => v.truthy = true ∧ ∀ m, v ≠ .dict m
  | keys known m => ¬ KnownKeys known m ∧ ∀ e ∈ m, ∃ t, e.1 = .str t
  | block v => v.truthy = true ∧ ∀ m, v ≠ .dict m
  | names b v => (v ≠ .none ∧ ∀ xs, v ≠ .list xs) ∨
      (∀ x ∈ v.rows, p.str x ≠ none) ∧ (∀ x ∈ v.rows, ¬ NameOf p b x ['*']) ∧ ¬ ListOk p b v.rows
  | limit v => ∃ x, v = some x ∧ (∀ n, x ≠ .int n) ∧ ∀ q, x ≠ .float q
  | access v => ConfigEditor.parseAccessDefault v = none

/-- An empty value that is neither a mapping nor null, or an unknown entry beside a star. -/
def Part.Slips (p : Printer) : Part → Prop
  | block v => v.truthy = false ∧ v ≠ .none ∧ ∀ m, v ≠ .dict m
  | names b v => (∃ x ∈ v.rows, NameOf p b x ['*']) ∧ ¬ ListOk p b v.rows
  | top _ | keys _ _ | limit _ | access _ => False

def blockParts (data : Mapping) (name : Text) (keys : List Text) : List Part :=
  [.block (Mapping.get name data), .keys keys (under name data)]

def listParts (b : Block) (cfg : Mapping) : List Part :=
  [.names b ((Mapping.find "allowed".toList cfg).getD (.list [.str ['*']])),
    .names b ((Mapping.find "disabled".toList cfg).getD (.list []))]

/-- The parts in the order of the parser. -/
def parts (order : LimitOrder) (raw : Tree) : List Part :=
  let data := raw.entries
  [.top raw, .keys topLevelKeys data] ++
  (blockParts data adapters.name allowDenyKeys ++ (listParts adapters (under adapters.name data) ++
  (blockParts data configEditor.name allowDenyKeys ++ (listParts configEditor (under configEditor.name data) ++
  (blockParts data "rate_limits".toList ["authentication".toList] ++
  (blockParts (under "rate_limits".toList data) "authentication".toList
    [Limit.windowSeconds.key, Limit.failureThreshold.key, Limit.baseLockSeconds.key] ++
  (order.limits.map (fun l => .limit (Mapping.find l.key (under "authentication".toList (under "rate_limits".toList data)))) ++
  [.access (Mapping.get "access_default".toList data)])))))))

/-- Something is refused before anything raises, or nothing raises and nothing slips through. -/
def Careful (p : Printer) (ps : List Part) : Prop :=
  (∃ before part after, ps = before ++ part :: after ∧ part.Refused p ∧ ∀ q ∈ before, ¬ q.Crashes p) ∨
    ∀ part ∈ ps, ¬ part.Crashes p ∧ ¬ part.Slips p

end OpenMux.ConfigEditor.Parsing
