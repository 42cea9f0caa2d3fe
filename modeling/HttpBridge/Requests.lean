/-
# The handling of a request

`handleRequest` from the request line to the handler: the preflight, the limit on
the declared length of the body, the probes, and below `/v1/` the credential
endpoints in front of authentication and everything else behind it.

What frames the body is Poco's affair: a request has the length that it declares,
if any, and the body that can be read from its stream.
-/
import HttpBridge.Handlers
import HttpBridge.UploadPath

namespace HttpBridge

open Interact Handlers

/-- The server's parts and configuration, as far as they matter here. -/
structure Server where
  poco : Poco
  libraries : Libraries
  config : FlowConfig
  pkceChallengeS256 : String → String
  /-- The token that a text stands for; none for the empty text. -/
  readToken : String → Option Jwt
  usableProviders : List String
  corsOrigins : List String
  maxBodyBytes : ℤ
  maxUploadBytes : ℤ
  childrenScanLimit : ℤ

structure HttpRequest where
  method : String
  uri : String
  query : List (String × String) := []
  contentLength : Option ℤ := none
  /-- The body is declared to be JSON. -/
  json : Bool := true
  range : String := ""
  client : Request := {}
  /-- What `HTMLForm` makes of the body; nothing where it throws. -/
  form : Option (List (String × String)) := none
  body : String := ""

def HttpRequest.path (r : HttpRequest) : String := upTo '?' r.uri

namespace Server

variable (S : Server) (r : HttpRequest)

/-! ### In front of authentication -/

/-- A credential endpoint. -/
def answered (p : Bridge Response) : Handler Reply := do
  let response ← Bridge.lift p
  return .credential response

/-- `verifyMfa`. -/
def verifyMfa : Handler Reply := do
  let body ← readBody
  let text := jsonField S.poco body
  let action := if text "action" == "" then "verify" else text "action"
  let vmethod := if text "method" == "" then "totp" else text "method"
  answered (HttpBridge.verifyMfa S.config.toConfig r.client (S.readToken (text "mfa_token")) action vmethod
    (text "code"))

/-- `form.get(name, "")`. -/
def formValue (form : List (String × String)) (name : String) : String := (form.lookup name).getD ""

/-- `ssoRedeem`. -/
def ssoRedeem : Handler Reply :=
  let redeem (code : Option (Option Jwt)) := answered (HttpBridge.ssoRedeem S.config.toConfig r.client code)
  if r.json then do
    let body ← readBody
    redeem (some (S.readToken (jsonField S.poco body "code")))
  else redeem (r.form.map fun form => S.readToken (formValue form "code"))

/-- An integration is configured. -/
def hasIntegration : Bool :=
  !(S.config.integrationIssuer == "" || S.config.integrationPublicKey == "")

/-- `authExchange`. -/
def authExchange : Handler Reply :=
  let exchange (form : Option (String × String)) :=
    answered (HttpBridge.authExchange S.libraries S.config.toConfig r.client form)
  if !S.hasIntegration then exchange none
  else if r.json then do
    let body ← readBody
    exchange (some (jsonField S.poco body "grant_type", jsonField S.poco body "assertion"))
  else exchange (r.form.map fun form => (formValue form "grant_type", formValue form "assertion"))

/-- `oauthStart`. -/
def oauthStart (provider : String) : Handler Reply := do
  let answer ← (HttpBridge.oauthStart S.config S.pkceChallengeS256 r.client provider
    (queryValue r.query "return_to")).inl
  return .signIn answer

/-- What a route in front of authentication is answered by. -/
def front : Route → Handler Reply
  | .issueToken => answered (issueToken S.config.toConfig r.client)
  | .revokeToken => answered (revokeToken S.config.toConfig r.client)
  | .authExchange => S.authExchange r
  | .ssoRedeem => S.ssoRedeem r
  | .verifyMfa => S.verifyMfa r
  | .providers => return .providers S.usableProviders S.config.loginSubdomain
  | .oauthStart provider => S.oauthStart r provider
  | .oauthCallback provider =>
    answered (oauthCallback S.config.toConfig r.client provider (queryValue r.query "code")
      (queryValue r.query "state") (queryValue r.query "error"))
  | _ => return notFound

/-! ### Behind it -/

/-- `listTenants`. -/
def listTenants (id : AuthIdentity) : Handler Reply := do
  let found ← Bridge.lift (perform (.getTenantsForUser id.user))
  let tenants := if id.tenant != "" && !found.contains id.tenant then found ++ [id.tenant] else found
  let tenants := if tenants.isEmpty then ["default"] else tenants
  return .json 200 (.tenants (tenants.insertionSort (· ≤ ·)).dedup
    (if id.tenant == "" then "default" else id.tenant))

/-- The handler of a route, with the identity of the caller. -/
def authed (id : AuthIdentity) : Route → Handler Reply
  | .whoami => whoami id
  | .refreshToken => answered (refreshToken S.config.toConfig r.client id)
  | .ssoHandoff => answered (ssoHandoff S.config.toConfig r.client id)
  | .introspect => introspect id
  | .listIntegrations => listIntegrations id S.config.toConfig
  | .listTenants => listTenants id
  | .storageUsage => storageUsage id
  | .triggerSync => triggerSync id
  | .getAllRoles => getAllRoles id
  | .createRole => createRole S.poco id
  | .deleteRole role => deleteRole S.poco id role
  | .getUsersForRole role => getUsersForRole id role
  | .assignUserToRole role user => assignUserToRole S.poco id role user
  | .removeUserFromRole role user => removeUserFromRole S.poco id role user
  | .getRolesForUser user => getRolesForUser id user
  | .searchPrincipals => searchPrincipals id r.query
  | .erasureStatus erasureId => erasureStatus id erasureId
  | .makeDir uid => makeDir S.poco id uid
  | .listDir uid => listDir id S.childrenScanLimit r.uri uid
  | .removeDir uid => removeDir id uid
  | .touchFile uid => touchFile S.poco id uid
  | .removeFile uid => removeFile id uid
  | .putContent uid => putContent id uid
  | .getContent uid => Handlers.getContent id r.range uid
  | .downloadTicket uid => answered (downloadTicket S.config.toConfig id uid)
  | .playbackTicket uid => answered (playbackTicket S.config.toConfig id uid)
  | .undelete uid => undelete id uid
  | .listVersions uid => listVersions id uid
  | .listRenditions uid => listRenditions id uid
  | .restoreVersion uid => restoreVersion S.poco id uid
  | .purgeVersions uid => purgeVersions S.poco id uid
  | .eraseNode uid => eraseNode S.poco id uid
  | .getVersion uid version => getVersion id uid version
  | .statNode uid => statNode id uid
  | .existsNode uid => existsNode id uid
  | .renameNode uid => renameNode S.poco id uid
  | .moveNode uid => moveNode S.poco id uid
  | .copyNode uid => copyNode S.poco id uid
  | .getAllMeta uid => getAllMeta id uid
  | .checkPerm uid => Handlers.checkPerm id r.query uid
  | .grantPerm uid => grantPerm S.poco id uid
  | .revokePerm uid => revokePerm S.poco id uid
  | .getAcls uid => getAcls id uid
  | .getMeta uid key => getMeta id uid key
  | .setMeta uid key => setMeta S.poco id uid key
  | .deleteMeta uid key => deleteMeta id uid key
  | _ => return notFound

/-- The identity of the caller, once the tenant admits it, or the refusal. -/
def caller (cfg : Config) (req : Request) : Bridge (Except Response AuthIdentity) := do
  match ← authenticate cfg req with
  | .error resp => return .error resp
  | .ok id =>
    let v ← tenantAdmits id.tenant
    if !v.admits then return .error (tenantRefused v.code v.reason)
    return .ok id

def behind (route : AuthIdentity → Handler Reply) : Handler Reply := do
  match ← Bridge.lift (caller S.config.toConfig r.client) with
  | .error resp => return .credential resp
  | .ok id => route id

/-- The uid and the ticket of a content request that carries no `Authorization`. -/
def ticketed : Option (String × Jwt) :=
  match pathSegments r.path, r.client.authorization with
  | [_, resource, uid, sub], .absent =>
    if r.method = "GET" ∧ resource = "files" ∧ sub = "content" then
      (S.readToken (queryValue r.query "ticket")).map (uid, ·)
    else none
  | _, _ => none

/-- What needs an identity: the ticket's, or the caller's. -/
def guarded : Handler Reply :=
  let routed := S.behind r fun id => S.authed r id (authedRoute r.method (pathSegments r.path))
  match S.ticketed r with
  | some (uid, ticket) => do
    match ← Bridge.lift (identityFromDownloadTicket S.config.toConfig r.client uid ticket) with
    | some id => Handlers.getContent id r.range uid
    | none => routed
  | none => routed

def handleV1 : Handler Reply :=
  match frontRoute r.method r.path with
  | some route => S.front r route
  | none => S.guarded r

/-! ### The request -/

/-- `readyz`: the core is asked for the root, as an administrator of the system. -/
def readyz : Handler Reply := do
  let probe : AuthContext := { user := "healthz", tenant := "default", sourceAddr := "", roles := ["system_admin"] }
  let listed ← @Prog.perform ServerOp ServerAns (.inr (.core (.listDirectory "") probe))
  let healthy ← if S.config.auditEnabled then @Prog.perform ServerOp ServerAns (.inr .auditHealthy)
    else pure true
  if listed.success && healthy then return .json 200 .ready
  else return .json 503 (.unavailable listed.success healthy listed.error)

/-- The limit on the body of the request. -/
def bodyCap : ℤ := if isStreamingUploadPath r.method r.path then S.maxUploadBytes else S.maxBodyBytes

/-- The request declares a body over the limit. -/
def declaresTooLong : Bool := 0 < S.bodyCap r && r.contentLength.any fun n => decide (S.bodyCap r < n)

def handleRequest : Handler Reply :=
  if !S.corsOrigins.isEmpty && r.method == "OPTIONS" then return .status 204
  else if S.declaresTooLong r then return Handlers.sendError 413 "request body too large"
  else if r.path == "/healthz" then return .json 200 .healthy
  else if r.path == "/readyz" then S.readyz
  else if startsWith "/v1/" r.path then S.handleV1 r
  else return notFound

end Server
end HttpBridge
