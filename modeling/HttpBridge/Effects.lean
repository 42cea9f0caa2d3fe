/-
# The operations of a handler

A handler of the proxy is a program (`Bridge`) over the operations below: the
clock and the random source, the directory, the revocation store and its
cache, the tenant registry and its cache, `ldap_manager`'s internal API, the
audit sink, the session registry, the replay guards, the OAuth provider and
the core. Each operation is one atomic step: one critical section, one remote
call. Everything else a handler does is computed between them, as the source
computes it.

A remote JSON answer is an `HttpResult`: the fields the handler reads, each
possibly absent, or `none` where the text does not parse.
-/
import HttpBridge.Interact.Prog
import HttpBridge.Directory
import HttpBridge.Jwt
import HttpBridge.Stores

namespace HttpBridge

open Interact

/-! ### Configuration -/

structure Config where
  tokenTtl : ℤ := 900
  downloadTicketTtl : ℤ := 30
  playbackTicketTtl : ℤ := 1800
  loginSubdomain : String := "login"
  jwtIssuer : String := "fileengine-bridge"
  integrationIssuer : String := ""
  integrationPublicKey : String := ""
  integrationAudience : String := ""
  integrationAllowedIps : List String := []
  integrationAllowService : Bool := false
  integrationServiceRoles : List String := []
  ssoHandoffTtl : ℤ := 60
  mfaEnabled : Bool := false
  ldapManagerUrl : String := ""
  mfaInternalSecret : String := ""
  serviceCredInternalSecret : String := ""
  mfaChallengeTtl : ℤ := 300
  auditEnabled : Bool := false
  webdavIpBindingEnabled : Bool := false
  webdavSessionTtlDefault : ℤ := 43200
  denylist : DenylistOptions := {}
  /-- The configured providers: `verify_id_token` of each. -/
  oauthProviders : List (String × Bool) := []

/-! ### What the operations answer -/

/-- An answer of `ldap_manager`: transport, status and the parsed body. -/
structure HttpResult (β : Type) where
  ok : Bool
  status : ℕ
  body : Option β

structure RequiredBody where
  required : Option Bool
  mustEnroll : Option Bool
  tenantRequires : Option Bool
  methods : Option (List String)

structure EnrollBody where
  ok : Option Bool
  recoveryCodes : Option String

structure ServiceCredBody where
  uid : Option String
  generation : Option String
  label : Option String

/-- A cached answer of the tenant-state gate. -/
structure TenantEntry where
  until_ : ℤ
  admits : Bool
  code : String
  reason : String
  deriving DecidableEq

/-- The registry's answer about a tenant. -/
structure TenantStateReply where
  success : Bool
  found : Bool
  state : String
  deriving DecidableEq

/-- Who a call to the core is made as. -/
structure AuthContext where
  user : String
  tenant : String
  sourceAddr : String
  roles : List String
  deriving DecidableEq

def fillAuth (id : AuthIdentity) : AuthContext where
  user := id.user
  tenant := id.tenant
  sourceAddr := id.sourceAddr
  roles := effectiveRoles id.roles

structure StatReply where
  success : Bool
  error : String
  name : String

structure OAuthState where
  provider : String
  codeVerifier : String
  nonce : String
  tenant : String
  returnTo : String

structure VerifiedIdentity where
  email : String
  emailVerified : Bool

/-- A record of the audit trail. -/
structure AuthEvent where
  action : String
  outcome : String
  actor : String
  tenant : String
  sourceAddr : String
  deriving DecidableEq

/-- A service key is verified with its secret, or its status asked without. -/
inductive KeyCheck where
  | verify (secret : String)
  | status

/-- The two replay guards of a process. -/
inductive GuardName where
  | assertions
  | ssoCodes
  deriving DecidableEq

/-! ### Operations -/

inductive Op where
  | time
  | random
  | authenticateUser (username password : String)
  | getUserInfoByEmail (email : String)
  | getTenantsForUser (username : String)
  | getRolesByTenant (username : String)
  | denylistFind (jti : String)
  | denylistLookup (jti : String)
  | denylistPut (jti : String) (v : Revocation) (now : ℤ)
  | denylistStore (jti : String) (ttl : ℤ)
  | denylistSeed (jti : String) (now : ℤ)
  | tenantFind (tenant : String)
  | getTenantState (tenant : String)
  | tenantPut (tenant : String) (e : TenantEntry)
  | postMfaRequired (user tenant : String)
  | postMfaVerify (user tenant method code ip : String)
  | postMfaEmailChallenge (user tenant ip : String)
  | postMfaEnrollBegin (user tenant ip : String)
  | postMfaEnrollComplete (user tenant code ip : String)
  | postServiceCred (mode : KeyCheck) (keyId tenant ip : String)
  | postSessionTtl (tenant ip : String)
  | requiresFind (tenant : String)
  | requiresPut (tenant : String) (required : Bool) (until_ : ℤ)
  | sessTtlFind (tenant : String)
  | sessTtlPut (tenant : String) (ttl until_ : ℤ)
  | publish (e : AuthEvent)
  | replayAccept (guard : GuardName) (jti : String) (expiresAt now : ℤ)
  | sessionAdd (tenant uid member : String) (score : ℤ)
  | sessionRemove (tenant uid member : String)
  | oauthConsume (state : String)
  | oauthExchangeCode (provider code codeVerifier : String)
  | oauthVerifyIdToken (provider idToken nonce : String)
  | oauthFetchIdentity (provider accessToken : String)
  | grpcStat (uid : String) (auth : AuthContext)
  | grpcCall (auth : AuthContext)

/-- What each operation answers. -/
abbrev Op.Ans : Op → Type
  | .time => ℤ
  | .random => String
  | .authenticateUser .. => UserInfo
  | .getUserInfoByEmail .. => UserInfo
  | .getTenantsForUser .. => List String
  | .getRolesByTenant .. => RoleMap
  | .denylistFind .. => Option CacheEntry
  | .denylistLookup .. => Revocation
  | .denylistPut .. => Unit
  | .denylistStore .. => Bool
  | .denylistSeed .. => Unit
  | .tenantFind .. => Option TenantEntry
  | .getTenantState .. => Option TenantStateReply
  | .tenantPut .. => Unit
  | .postMfaRequired .. => HttpResult RequiredBody
  | .postMfaVerify .. => HttpResult (Option Bool)
  | .postMfaEmailChallenge .. => HttpResult Unit
  | .postMfaEnrollBegin .. => HttpResult String
  | .postMfaEnrollComplete .. => HttpResult EnrollBody
  | .postServiceCred .. => HttpResult ServiceCredBody
  | .postSessionTtl .. => HttpResult (Option ℤ)
  | .requiresFind .. => Option (Bool × ℤ)
  | .requiresPut .. => Unit
  | .sessTtlFind .. => Option (ℤ × ℤ)
  | .sessTtlPut .. => Unit
  | .publish .. => Bool
  | .replayAccept .. => Bool
  | .sessionAdd .. => Bool
  | .sessionRemove .. => Bool
  | .oauthConsume .. => Option OAuthState
  | .oauthExchangeCode .. => Option (String × String)
  | .oauthVerifyIdToken .. => Option VerifiedIdentity
  | .oauthFetchIdentity .. => Option VerifiedIdentity
  | .grpcStat .. => StatReply
  | .grpcCall .. => Unit

/-- A handler, or a part of one. -/
abbrev Bridge (α : Type) := Prog Op Op.Ans α

abbrev Trace := List (Event Op.Ans)

abbrev perform (op : Op) : Bridge op.Ans := Prog.perform op

/-! ### Requests and responses -/

/-- The `Authorization` header, with what stands in it: a bearer token, or the
decoded text of a Basic header. -/
inductive Authorization where
  | bearer (token : Jwt)
  | basic (credentials : String)
  | other
  | absent
  deriving DecidableEq

/-- What the handlers read of a request, with the client's address resolved. -/
structure Request where
  authorization : Authorization := .absent
  xTenant : String := ""
  host : String := ""
  clientIp : String := ""
  fromBrowser : Bool := false
  deriving DecidableEq

inductive Body where
  /-- A JSON object of these string fields, in this order. -/
  | error (fields : List (String × String))
  /-- A session or service token, under the field name the endpoint uses. -/
  | session (field : String) (token : Claims) (expiresIn : ℤ) (recoveryCodes : Option String)
  | mfaChallenge (mfaToken : Claims) (expiresIn : ℤ) (mustEnroll : Bool) (methods : List String)
  | sent (sent : Bool)
  | setup (blob : String)
  | handoffCode (code : Claims) (expiresIn : ℤ)
  | ticket (ticket : Claims) (expiresIn : ℤ)
  /-- A redirect with the token in the fragment. -/
  | redirect (returnTo : String) (token : Claims) (expiresIn : ℤ)
  /-- What the core answered to a call made as `auth`. -/
  | core (auth : AuthContext)
  | empty
  deriving DecidableEq

/-- The session token a response hands out. -/
def Body.session? : Body → Option Claims
  | .session _ token _ _ => some token
  | .redirect _ token _ => some token
  | _ => none

def Body.handoffCode? : Body → Option Claims
  | .handoffCode token _ => some token
  | _ => none

def Body.ticket? : Body → Option Claims
  | .ticket token _ => some token
  | _ => none

def Body.mfaToken? : Body → Option Claims
  | .mfaChallenge token _ _ _ => some token
  | _ => none

structure Response where
  status : ℕ
  basicChallenge : Bool := false
  body : Body
  deriving DecidableEq

/-- An error answer: its text under `error`. -/
def sendError (status : ℕ) (error : String) : Response where
  status := status
  body := .error [("error", error)]

/-- An error answer with an `error_description`. -/
def sendOAuthError (status : ℕ) (error description : String) : Response where
  status := status
  body := .error [("error", error), ("error_description", description)]

/-- `unauthorized`: the Basic challenge goes to clients that are no browser. -/
def unauthorized (req : Request) : Response where
  status := 401
  basicChallenge := !req.fromBrowser
  body := .error [("error", "authentication required")]

def forbidTenant : Response := sendError 403 "not a member of the requested tenant"

/-- `tenantRefused`: 403, not 401, for the credentials were fine. -/
def tenantRefused (code reason : String) : Response where
  status := 403
  body := .error [("error", reason), ("code", code)]

def auditUnavailable : Response := sendError 503 "audit log unavailable"

/-- `mapError`. -/
def mapError (err : String) : Response := sendError (httpStatusForCoreError err) err

end HttpBridge
