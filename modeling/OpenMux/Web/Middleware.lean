import Mathlib
import OpenMux.Lib.Dict
import OpenMux.Lib.PyText

/-!
# The routes of the web console

A pattern has one piece for each segment of a path. Names of ports, servers, PDUs, actions and runs are free. A path is what
the server has decoded: a name may have a slash in it.
-/

namespace OpenMux.Web

open Py

inductive Piece
  | lit (segment : Text)
  /-- `{name}`. -/
  | name
  /-- `{name:.+}` or `{tail:.*}`, or what is below `/static/`. -/
  | tail
deriving DecidableEq

abbrev Pattern := List Piece

def lit (segment : String) : Piece := .lit segment.toList

structure RouteConfig where
  enableUi : Bool
  enableProbes : Bool
  configEditor : Bool
  osCustomizer : Bool
  federatedProxy : Bool
deriving DecidableEq

/-- The pages. -/
def uiRoutes : List Pattern :=
  [[lit "index.html"], [lit "console"], [lit "logs"], [lit "logs", .name], [lit "status"], [lit "about"], [lit "power"],
    [lit "power", .name]]

/-- `register_routes` of the port actions. -/
def portActionsRoutes : List Pattern :=
  let base := [lit "api", lit "ports", .name, lit "actions"]
  [base, base ++ [.name, lit "run"], base ++ [.name, lit "runs"], base ++ [.name, lit "runs", .name, lit "close"],
    base ++ [.name, lit "runs", .name, lit "takeover"], [lit "ws", lit "actions", .name], [lit "api", lit "port-actions", lit "health"],
    [lit "api", lit "port-actions", lit "status"]]

def probeRoutes : List Pattern := [[lit "healthz"], [lit "livez"], [lit "readyz"]]

/-- `register_plugin` of the config editor. -/
def configEditorRoutes : List Pattern :=
  [[lit "config-editor"], [lit "config-editor", lit "data"], [lit "config-editor", lit "schema"], [lit "config-editor", lit "apply"],
    [lit "config-editor", lit "validate"], [lit "config-editor", lit "reload", lit "soft"],
    [lit "config-editor", lit "reload", lit "full"]]

/-- `register_plugin` of the OS customizer. -/
def osCustomizerRoutes : List Pattern :=
  [[lit "plugins", lit "os-customizer"], [lit "plugins", lit "os-customizer", lit "network"]]

/-- `register_plugin` of the federated proxy. -/
def federatedProxyRoutes : List Pattern :=
  [[lit "plugins", lit "federated-proxy", lit "connections"], [lit "proxy", .name], [lit "proxy", .name, .tail]]

/-- `_register_routes` and the plugins of the repository. -/
def registerRoutes (cfg : RouteConfig) : List Pattern :=
  [[lit "static", .tail], [lit ""]] ++ (if cfg.enableUi then uiRoutes else []) ++
    [[lit "login"], [lit "logout"], [lit "api", lit "ports"], [lit "api", lit "status"], [lit "api", lit "status", lit "fragments"],
      [lit "api", lit "reload"], [lit "api", lit "power"], [lit "api", lit "power", lit "outlets", .tail]] ++
    portActionsRoutes ++ [[lit "api", lit "csrf"], [lit "ws", lit "events"], [lit "ws", .name], [lit "ws", .name, .name]] ++
    (if cfg.enableProbes then probeRoutes else []) ++ (if cfg.configEditor then configEditorRoutes else []) ++
    (if cfg.osCustomizer then osCustomizerRoutes else []) ++ (if cfg.federatedProxy then federatedProxyRoutes else [])

namespace Pattern

/-- `/healthz`, `/livez`, `/login`, `/logout`, `/favicon.ico`, `/static/*` or `/proxy`. -/
def Public (p : Pattern) : Prop :=
  p ∈ [[lit "healthz"], [lit "livez"], [lit "login"], [lit "logout"], [lit "favicon.ico"]] ∨
    p.head? = some (lit "static") ∨ p.head? = some (lit "proxy")

instance Public.decidable (p : Pattern) : Decidable p.Public := inferInstanceAs (Decidable (_ ∨ _ ∨ _))

/-- The path is one of the pattern. -/
def Fits : Pattern → Text → Prop
  | [], path => path = []
  | .lit segment :: ps, path => ∃ rest, path = '/' :: segment ++ rest ∧ Fits ps rest
  | .name :: ps, path => ∃ value rest, value ≠ [] ∧ path = '/' :: value ++ rest ∧ Fits ps rest
  | .tail :: _, path => path.head? = some '/'

end Pattern

end OpenMux.Web

/-!
## Who gets through to a handler

`auth_middleware`: the public paths, the base path that they are read under, and the ways to authenticate. Which route a
request is handled by is decided elsewhere.
-/

namespace OpenMux.Web

open Py

structure WebConfig where
  /-- `base_path`. -/
  basePath : Text
  respectForwardedPrefix : Bool
  sessionCookieName : Text
  sessionTtlSeconds : ℚ

/-- An entry of `_sessions`. -/
structure Session where
  username : Text
  lastSeen : Option ℚ
deriving DecidableEq

/-- What a request brings that the middleware reads. -/
structure Request where
  /-- `request.path`, decoded. -/
  path : Text
  xForwardedPrefix : Option Text := none
  authorization : Option Text := none
  /-- The header that `sso_trust_header` names. -/
  ssoHeader : Option Text := none
  cookies : Dict Text Text := ∅
deriving DecidableEq

/-- What checks credentials. -/
structure Credentials where
  /-- `_verify_sso_header`: the user in the claims, if they verify and name one. -/
  verifySsoHeader : Text → Option (Option Text)
  /-- `base64.b64decode(enc).decode("utf-8", errors="ignore")`; `none` when it raises. -/
  decodeBasic : Text → Option Text
  /-- `authenticate` of the auth manager, if there is one. -/
  authenticate : Option (Text → Text → Bool)

/-- What the middleware does with a request. -/
inductive Verdict
  /-- The handler runs, with the username that is attached. -/
  | handler (username : Option Text)
  | unauthorized
  | redirect (login : Text)
deriving DecidableEq

/-! ## Paths -/

/-- `_normalize_base_path`. -/
def normalizeBasePath (value : Text) : Text :=
  if value = [] ∨ value = ['/'] then []
  else
    let v := strip value
    if v = [] then []
    else
      let v := if v.head? = some '/' then v else '/' :: v
      if v ≠ ['/'] ∧ v.getLast? = some '/' then v.dropLast else v

/-- `_effective_base_path`. -/
def effectiveBasePath (cfg : WebConfig) (r : Request) : Text :=
  if normalizeBasePath cfg.basePath ≠ [] then normalizeBasePath cfg.basePath
  else if cfg.respectForwardedPrefix then normalizeBasePath (r.xForwardedPrefix.getD [])
  else []

/-- `_prefixed_path`. -/
def prefixedPath (basePath p : Text) : Text :=
  if basePath = [] then p else if p.head? = some '/' then basePath ++ p else basePath ++ '/' :: p

/-- `_is_public_path`. -/
def isPublicPath (path basePath : Text) : Bool :=
  let pref := prefixedPath basePath
  path == "/healthz".toList || path == "/livez".toList || path == pref "/healthz".toList || path == pref "/livez".toList ||
    path == "/logout".toList || path == pref "/logout".toList || path == "/favicon.ico".toList ||
    path == pref "/favicon.ico".toList || "/static/".toList.isPrefixOf path || (pref "/static/".toList).isPrefixOf path ||
    path == "/login".toList || path == pref "/login".toList

/-- `_is_proxy_path`. -/
def isProxyPath (path basePath : Text) : Bool :=
  let pref := prefixedPath basePath
  path == "/proxy".toList || "/proxy/".toList.isPrefixOf path || path == pref "/proxy".toList ||
    (pref "/proxy/".toList).isPrefixOf path

/-- `_is_readyz_or_api`. -/
def isReadyzOrApi (path basePath : Text) : Bool :=
  let pref := prefixedPath basePath
  path == "/readyz".toList || path == pref "/readyz".toList || "/api/".toList.isPrefixOf path ||
    (pref "/api/".toList).isPrefixOf path

/-! ## Credentials -/

/-- The session of the cookie, unless it is too old. -/
def liveSession (cfg : WebConfig) (sessions : Dict Text Session) (now : ℚ) (r : Request) : Option Session :=
  ((r.cookies.get? cfg.sessionCookieName).filter (· ≠ [])).bind fun sid =>
    (sessions.get? sid).filter fun sess => now - sess.lastSeen.getD now ≤ cfg.sessionTtlSeconds

/-- `_attach_session_user`: the username of the session, and the sessions, of which one that is too old goes. -/
def attachSessionUser (cfg : WebConfig) (sessions : Dict Text Session) (now : ℚ) (r : Request) :
    Option Text × Dict Text Session :=
  match (r.cookies.get? cfg.sessionCookieName).filter (· ≠ []) with
  | none => (none, sessions)
  | some sid =>
      match sessions.get? sid with
      | none => (none, sessions)
      | some sess =>
          if cfg.sessionTtlSeconds < now - sess.lastSeen.getD now then (none, sessions.pop sid)
          else (some sess.username, sessions.set sid { sess with lastSeen := some now })

/-- `_auth_via_sso`: the username, if the header verifies. -/
def authViaSso (creds : Credentials) (r : Request) : Option Text :=
  ((r.ssoHeader.filter (· ≠ [])).bind creds.verifySsoHeader).map fun user => (user.filter (· ≠ [])).getD "sso".toList

/-- The username and the password of a header; `none` when it cannot be read. -/
def basicCredentials (creds : Credentials) (auth : Text) : Option (Text × Text) :=
  match split ' ' 1 auth with
  | [_, enc] => (creds.decodeBasic (strip enc)).bind fun raw =>
      match split ':' 1 raw with
      | [username, password] => some (username, password)
      | _ => none
  | _ => none

/-- `_basic_auth_result`: `none` without a header, otherwise the username if it authenticates. -/
def basicAuthResult (creds : Credentials) (r : Request) : Option (Option Text) :=
  (r.authorization.filter fun auth => "basic ".toList.isPrefixOf (auth.map Char.toLower)).map fun auth =>
    (basicCredentials creds auth).bind fun (username, password) =>
      match creds.authenticate with
      | some authenticate => if authenticate username password then some username else none
      | none => none

/-- `auth_middleware`, with the sessions that it leaves. -/
def authMiddleware (cfg : WebConfig) (creds : Credentials) (sessions : Dict Text Session) (now : ℚ) (r : Request) :
    Verdict × Dict Text Session :=
  let basePath := effectiveBasePath cfg r
  let attached := attachSessionUser cfg sessions now r
  if isPublicPath r.path basePath then (.handler attached.1, attached.2)
  else if isProxyPath r.path basePath then (.handler attached.1, attached.2)
  else match authViaSso creds r with
    | some username => (.handler (some username), sessions)
    | none => match basicAuthResult creds r with
      | some (some username) => (.handler (some username), sessions)
      | some none => (.unauthorized, sessions)
      | none => match attached with
        | (some username, sessions) => (.handler (some username), sessions)
        | (none, sessions) =>
            if isReadyzOrApi r.path basePath then (.unauthorized, sessions)
            else (.redirect (prefixedPath basePath "/login".toList), sessions)

/-- The username that `_hws_prepare` goes on with. -/
def hwsUsername (username : Option Text) : Text := (username.filter (· ≠ [])).getD "web".toList

/-! ## Protected routes -/

/-- Where the routes are mounted: the configured base path, without the slashes at its end. -/
def mountPrefix (cfg : WebConfig) : Text := (normalizeBasePath cfg.basePath).rdropWhile (· = '/')

/-- What a router does: a request goes to a registered route whose pattern its path is one of, below the mount. -/
def Resolves (cfg : WebConfig) (routes : RouteConfig) (resolve : Request → Option Pattern) : Prop :=
  ∀ r p, resolve r = some p → p ∈ registerRoutes routes ∧ ∃ rest, r.path = mountPrefix cfg ++ rest ∧ p.Fits rest

/-- The first segment of a path. -/
def firstSegment (path : Text) : Text := (path.drop 1).takeWhile (· ≠ '/')

/-- The path is the base path with a public path below it. -/
def UnderPublic (path basePath : Text) : Prop :=
  (∃ p ∈ ["/healthz", "/livez", "/logout", "/favicon.ico", "/login", "/proxy"], path = basePath ++ p.toList) ∨
    ∃ p ∈ ["/static/", "/proxy/"], basePath ++ p.toList <+: path

instance UnderPublic.decidable (path basePath : Text) : Decidable (UnderPublic path basePath) :=
  inferInstanceAs (Decidable (_ ∨ _))

/-- The base path does not make the request public: a configured one does not begin with the name of a public directory, and
one that the request brings is not what the path has before a public name. -/
def Guarded (cfg : WebConfig) (r : Request) : Prop :=
  if normalizeBasePath cfg.basePath ≠ [] then
    firstSegment (mountPrefix cfg) ≠ "static".toList ∧ firstSegment (mountPrefix cfg) ≠ "proxy".toList
  else effectiveBasePath cfg r ≠ [] → ¬ UnderPublic r.path (effectiveBasePath cfg r)

instance Guarded.decidable (cfg : WebConfig) (r : Request) : Decidable (Guarded cfg r) :=
  inferInstanceAs (Decidable (if normalizeBasePath cfg.basePath ≠ [] then _ ∧ _ else _ → _))

end OpenMux.Web
