/-
# The endpoints

The handlers of `http_server.cpp` that issue, convert, use and revoke
credentials, as programs over the operations, and the routes that carry an
identity to the core (`forward` stands for all of these: what they do there is
the core's). `serve` dispatches a request as `handleV1` does.

Key definitions: `ApiRequest`, `serve`.
-/
import HttpBridge.Assertion
import HttpBridge.Authenticate
import HttpBridge.Mint

namespace HttpBridge

open Interact TokenDenylist

/-! ### Service keys -/

/-- What `ldap_manager` says of a key. -/
structure KeyAnswer where
  verdict : KeyVerdict
  uid : String
  generation : String
  label : String

/-- An answer that could not be had. -/
def KeyAnswer.unavailable : KeyAnswer := ⟨.unavailable, "", "", ""⟩

def readServiceCred (r : HttpResult ServiceCredBody) : KeyAnswer :=
  if !r.ok && r.status = 0 then .unavailable
  else
    let o := if r.status = 200 then r.body else none
    let uid := optValue (o.bind (·.uid))
    let generation := optValue (o.bind (·.generation))
    ⟨classifyVerifyAnswer r.status uid generation, uid, generation, optValue (o.bind (·.label))⟩

/-- `serviceCredCall`. -/
def serviceCredCall (cfg : Config) (mode : KeyCheck) (keyId tenant ip : String) :
    Bridge KeyAnswer :=
  if cfg.ldapManagerUrl == "" || cfg.serviceCredInternalSecret == "" then return .unavailable
  else do
    let r ← perform (.postServiceCred mode keyId tenant ip)
    return readServiceCred r

def serviceCredUnavailable : Response := sendError 503 "service credentials unavailable"

/-- The session of a key, which no register of live sessions holds. -/
def grantKeySession (cfg : Config) (user tenant keyId generation label : String) :
    Bridge Response := do
  let token ← mintJwt cfg user tenant ["svc"] "" keyId generation label
  return { status := 200, body := .session "token" token cfg.tokenTtl none }

/-- `issueServiceKeyToken`. -/
def issueServiceKeyToken (cfg : Config) (req : Request) (keyId secret : String) :
    Bridge Response := do
  let tenant := requestTenant cfg req
  let v ← tenantAdmits tenant
  if !v.admits then
    let _ ← emitAuth cfg "login_denied" "denied" keyId tenant req.clientIp
    return tenantRefused v.code v.reason
  if secret == "" then
    let _ ← emitAuth cfg "login_failure" "denied" keyId tenant req.clientIp
    return unauthorized req
  let key ← serviceCredCall cfg (.verify secret) keyId tenant req.clientIp
  match key.verdict with
  | .unavailable => return serviceCredUnavailable
  | .invalid =>
    let _ ← emitAuth cfg "login_failure" "denied" keyId tenant req.clientIp
    return unauthorized req
  | .valid =>
    let tenants ← perform (.getTenantsForUser key.uid)
    if !tenants.contains tenant then
      let _ ← emitAuth cfg "login_failure" "denied" key.uid tenant req.clientIp
      return forbidTenant
    let recorded ← emitAuth cfg "login_success" "ok" key.uid tenant req.clientIp
    if !recorded then return auditUnavailable
    grantKeySession cfg key.uid tenant keyId key.generation key.label

/-- The tenants of a live key's user. -/
def keyTenants (key : KeyAnswer) : Bridge (List String) :=
  if key.verdict = .valid then perform (.getTenantsForUser key.uid) else return []

/-- `refreshServiceKeyToken`. -/
def refreshServiceKeyToken (cfg : Config) (req : Request) (id : AuthIdentity) :
    Bridge Response := do
  let key ← serviceCredCall cfg .status id.serviceKeyId id.tenant req.clientIp
  if key.verdict = .unavailable then return serviceCredUnavailable
  let tenants ← keyTenants key
  if !mayRefresh key.verdict key.uid key.generation id.user id.serviceKeyGen tenants id.tenant then
    let _ ← emitAuth cfg "token_refresh" "denied" id.user id.tenant req.clientIp
    return unauthorized req
  let recorded ← emitAuth cfg "token_refresh" "ok" id.user id.tenant req.clientIp
  if !recorded then return auditUnavailable
  grantKeySession cfg id.user id.tenant id.serviceKeyId id.serviceKeyGen key.label

/-! ### Password login -/

/-- The wanted tenant if the user belongs to it, else the user's first. -/
def memberTenant (tenants : List String) (wanted : String) : Option String :=
  if tenants.contains wanted then some wanted else tenants.head?

/-- The answer to a login that `authenticateBasic` refused: a tenant that does
not admit is no failed login. -/
def refuseLogin (cfg : Config) (req : Request) (id : AuthIdentity) : Bridge Response := do
  if id.tenantRefusalCode != "" then
    let _ ← emitAuth cfg "login_denied" "denied" id.user id.tenant req.clientIp
    return tenantRefused id.tenantRefusalCode id.tenantRefusalReason
  let _ ← emitAuth cfg "login_failure" "denied" (if id.user == "" then "<unknown>" else id.user)
    (resolveTenant cfg.loginSubdomain req.xTenant req.host) req.clientIp
  return unauthorized req

/-- The challenge of a second factor. -/
def challenge (cfg : Config) (req : Request) (user tenant : String) (answer : MfaAnswer) :
    Bridge Response := do
  let token ← mintMfaPending cfg user tenant req.clientIp
  let _ ← emitAuth cfg "mfa_challenge" "ok" user tenant req.clientIp
  return { status := 200
           body := .mfaChallenge token cfg.mfaChallengeTtl answer.mustEnroll answer.methods }

/-- The end of a login: the audit, the second factor, the session. -/
def completeLogin (cfg : Config) (req : Request) (user tenant : String) : Bridge Response := do
  let recorded ← emitAuth cfg "login_success" "ok" user tenant req.clientIp
  if !recorded then return auditUnavailable
  if !cfg.mfaEnabled then
    grantSession cfg user tenant ["pwd"] "" req.clientIp "token" none
  else
    match ← mfaRequired user tenant with
    | none => return sendError 503 "2FA service unavailable"
    | some answer =>
      if answer.required then challenge cfg req user tenant answer
      else grantSession cfg user tenant ["pwd"] "" req.clientIp "token" none

/-- A login whose password was right. -/
def admitLogin (cfg : Config) (req : Request) (id : AuthIdentity) : Bridge Response := do
  let v ← tenantAdmits id.tenant
  if !v.admits then
    let _ ← emitAuth cfg "login_denied" "denied" id.user id.tenant req.clientIp
    return tenantRefused v.code v.reason
  let tenants ← perform (.getTenantsForUser id.user)
  match memberTenant tenants id.tenant with
  | none =>
    let _ ← emitAuth cfg "login_failure" "denied" id.user id.tenant req.clientIp
    return unauthorized req
  | some tenant => completeLogin cfg req id.user tenant

/-- A login by password. -/
def passwordLogin (cfg : Config) (req : Request) : Bridge Response := do
  let (ok, id) ← authenticateBasic cfg req
  if !ok then refuseLogin cfg req id else admitLogin cfg req id

/-- The credentials of a service key. -/
def serviceKeyCredentials (a : Authorization) : Option (String × String) :=
  (basicCredentials a).filter fun c => isServiceKeyId c.1

theorem keyId_ne_empty {a : Authorization} {keyId secret : String}
    (h : serviceKeyCredentials a = some (keyId, secret)) : keyId ≠ "" := by
  rintro rfl
  obtain ⟨-, h⟩ := Option.filter_eq_some_iff.mp h
  exact absurd (show isServiceKeyId "" = true from h) (by decide)

/-- `issueToken`. -/
def issueToken (cfg : Config) (req : Request) : Bridge Response :=
  match serviceKeyCredentials req.authorization with
  | some (keyId, secret) => issueServiceKeyToken cfg req keyId secret
  | none => passwordLogin cfg req

/-! ### The second factor -/

/-- `mfaVerify`. -/
def mfaVerify (user tenant method code ip : String) : Bridge Bool := do
  let r ← perform (.postMfaVerify user tenant method code ip)
  return r.ok && r.status = 200 && (r.body.bind fun ok => ok).getD false

/-- `mfaEmailChallenge`. -/
def mfaEmailChallenge (user tenant ip : String) : Bridge Bool := do
  let r ← perform (.postMfaEmailChallenge user tenant ip)
  return r.ok && r.status = 200

/-- `mfaEnrollComplete`: the recovery codes, where the code was right. -/
def mfaEnrollComplete (user tenant code ip : String) : Bridge (Option String) := do
  let r ← perform (.postMfaEnrollComplete user tenant code ip)
  if !r.ok || r.status ≠ 200 then return none
  return (r.body.filter fun o => o.ok.getD false).map fun o => o.recoveryCodes.getD "[]"

/-- The claims of a pending second factor. -/
def pendingClaims (now : ℤ) (mfaToken : Option Jwt) : Option Claims :=
  (mfaToken.bind (Jwt.verify now)).filter fun c => c.mfaPending.getD false

theorem pendingClaims_eq_some {now : ℤ} {mfaToken : Option Jwt} {p : Claims} :
    pendingClaims now mfaToken = some p ↔
      mfaToken = some (.signed p) ∧ (∀ exp, p.exp = some exp → now < exp) ∧
        p.mfaPending = some true := by
  have hpending : p.mfaPending.getD false = true ↔ p.mfaPending = some true := by
    cases p.mfaPending with
    | none => simp
    | some b => simp
  rw [pendingClaims, Option.filter_eq_some_iff, hpending, Option.bind_eq_some_iff]
  constructor
  · rintro ⟨⟨t, rfl, hv⟩, hp⟩
    obtain ⟨rfl, hexp⟩ := Jwt.verify_eq_some.mp hv
    exact ⟨rfl, hexp, hp⟩
  · rintro ⟨rfl, hexp, hp⟩
    exact ⟨⟨_, rfl, Jwt.verify_eq_some.mpr ⟨rfl, hexp⟩⟩, hp⟩

/-- `verifyMfa`, the action `enroll_complete`. -/
def enrollComplete (cfg : Config) (req : Request) (user tenant code : String) :
    Bridge Response := do
  match ← mfaEnrollComplete user tenant code req.clientIp with
  | none =>
    let _ ← emitAuth cfg "mfa_failure" "denied" user tenant req.clientIp
    return sendError 401 "invalid code"
  | some recoveryCodes =>
    let recorded ← emitAuth cfg "mfa_success" "ok" user tenant req.clientIp
    if !recorded then return auditUnavailable
    grantSession cfg user tenant ["pwd", "totp"] "" req.clientIp "token" (some recoveryCodes)

/-- `verifyMfa`, the action `verify`. -/
def verifyCode (cfg : Config) (req : Request) (user tenant vmethod code : String) :
    Bridge Response := do
  let ok ← mfaVerify user tenant vmethod code req.clientIp
  if !ok then
    let _ ← emitAuth cfg "mfa_failure" "denied" user tenant req.clientIp
    return sendError 401 "invalid or expired second factor"
  let recorded ← emitAuth cfg "mfa_success" "ok" user tenant req.clientIp
  if !recorded then return auditUnavailable
  grantSession cfg user tenant ["pwd", vmethod] "" req.clientIp "token" none

/-- `verifyMfa`, the action `send`. -/
def sendCode (req : Request) (user tenant vmethod : String) : Bridge Response := do
  if vmethod != "email" then return { status := 200, body := .sent false }
  let sent ← mfaEmailChallenge user tenant req.clientIp
  return { status := 200, body := .sent sent }

/-- `verifyMfa`, the action `enroll_begin`. -/
def enrollBegin (req : Request) (user tenant : String) : Bridge Response := do
  let r ← perform (.postMfaEnrollBegin user tenant req.clientIp)
  if !r.ok || r.status ≠ 200 then return sendError 502 "could not start enrollment"
  return { status := 200, body := .setup (r.body.getD "") }

/-- `verifyMfa`. -/
def verifyMfa (cfg : Config) (req : Request) (mfaToken : Option Jwt) (action method code : String) :
    Bridge Response := do
  let now ← perform .time
  match pendingClaims now mfaToken with
  | none => return unauthorized req
  | some claims =>
    let user := optValue claims.sub
    let tenant := optValue claims.tenant
    let vmethod := if method == "" then "totp" else method
    if user == "" || optValue claims.mip != req.clientIp then
      let _ ← emitAuth cfg "mfa_failure" "denied" (if user == "" then "<unknown>" else user) tenant
        req.clientIp
      return unauthorized req
    if action == "send" then sendCode req user tenant vmethod
    else if action == "enroll_begin" then enrollBegin req user tenant
    else if action == "enroll_complete" then enrollComplete cfg req user tenant code
    else verifyCode cfg req user tenant vmethod code

/-! ### Refresh and hand-off -/

/-- `refreshToken`. -/
def refreshToken (cfg : Config) (req : Request) (id : AuthIdentity) : Bridge Response := do
  if id.serviceKeyId != "" then refreshServiceKeyToken cfg req id
  else
    let tenants ← perform (.getTenantsForUser id.user)
    match memberTenant tenants id.tenant with
    | none =>
      let _ ← emitAuth cfg "token_refresh" "denied" id.user id.tenant req.clientIp
      return unauthorized req
    | some activeTenant =>
      let recorded ← emitAuth cfg "token_refresh" "ok" id.user activeTenant req.clientIp
      if !recorded then return auditUnavailable
      grantSession cfg id.user activeTenant (if id.amr.isEmpty then ["pwd"] else id.amr) ""
        req.clientIp "token" none

/-- `ssoHandoff`. -/
def ssoHandoff (cfg : Config) (req : Request) (id : AuthIdentity) : Bridge Response := do
  if id.serviceKeyId != "" then
    let _ ← emitAuth cfg "sso_handoff" "denied" id.user id.tenant req.clientIp
    return sendError 403 "not available to a service-credential session"
  let now ← perform .time
  let jti ← perform .random
  let _ ← emitAuth cfg "sso_handoff" "ok" id.user id.tenant req.clientIp
  return { status := 200
           body := .handoffCode
             (buildHandoffClaims cfg.jwtIssuer id.user id.tenant jti now cfg.ssoHandoffTtl id.amr)
             cfg.ssoHandoffTtl }

/-- `ssoRedeem`, once the guard has accepted the code. -/
def redeem (cfg : Config) (req : Request) (claims : Claims) : Bridge Response := do
  let user := optValue claims.sub
  let tenant := optValue claims.tenant
  if user == "" then return sendError 401 "invalid_grant"
  let recorded ← emitAuth cfg "sso_redeem" "ok" user tenant req.clientIp
  if !recorded then return auditUnavailable
  grantSession cfg user tenant ("sso" :: claims.amr.getD []) req.clientIp req.clientIp
    "access_token" none

/-- `ssoRedeem`: `form` is the code in the body, which may not be readable. -/
def ssoRedeem (cfg : Config) (req : Request) (form : Option (Option Jwt)) : Bridge Response :=
  match form with
  | none => return sendError 400 "invalid_request"
  | some none => return sendOAuthError 400 "invalid_request" "missing code"
  | some (some code) => do
    let now ← perform .time
    match code.verify now with
    | none => return sendOAuthError 401 "invalid_grant" "invalid or expired code"
    | some claims =>
      if optValue claims.sso != "handoff" then
        return sendOAuthError 401 "invalid_grant" "not a hand-off code"
      let accepted ← perform
        (.replayAccept .ssoCodes (optValue claims.jti) (claims.exp.getD 0) now)
      if !accepted then return sendOAuthError 401 "invalid_grant" "code already redeemed"
      redeem cfg req claims

/-! ### Integration exchange -/

def isTrustedProxy (P : Libraries) (ip : String) (trusted : List String) : Bool :=
  trusted.any (P.ipInCidr ip)

def kJwtBearerGrant : String := "urn:ietf:params:oauth:grant-type:jwt-bearer"

/-- `authExchange`, the service-principal path. -/
def exchangeService (cfg : Config) (req : Request) (claims : IntegrationClaims) :
    Bridge Response := do
  if !cfg.integrationAllowService then
    return sendOAuthError 400 "unsupported_token_type" "service tokens not enabled"
  if claims.tenant == "" then
    return sendOAuthError 400 "invalid_grant" "service token requires a tenant claim"
  let recorded ← emitAuth cfg "integration_exchange" "ok" claims.subject claims.tenant req.clientIp
  if !recorded then return auditUnavailable
  let token ← mintServiceJwt cfg claims.subject claims.tenant req.clientIp claims.scope
  return { status := 200, body := .session "access_token" token cfg.tokenTtl none }

/-- `authExchange`, for a delegated user. -/
def exchangeDelegated (cfg : Config) (req : Request) (claims : IntegrationClaims) :
    Bridge Response := do
  let tenants ← perform (.getTenantsForUser claims.subject)
  let wanted := if claims.tenant == "" then tenants.head? else memberTenant tenants claims.tenant
  match wanted with
  | none =>
    let _ ← emitAuth cfg "integration_exchange" "denied" claims.subject claims.tenant req.clientIp
    return sendOAuthError 401 "invalid_grant" "unknown delegated user"
  | some tenant =>
    let recorded ← emitAuth cfg "integration_exchange" "ok" claims.subject tenant req.clientIp
    if !recorded then return auditUnavailable
    grantSession cfg claims.subject tenant (claims.amr ++ ["integration"]) req.clientIp req.clientIp
      "access_token" none

/-- `authExchange`, once the guard has accepted the assertion. -/
def exchange (cfg : Config) (req : Request) (claims : IntegrationClaims) : Bridge Response :=
  let tokType := if claims.tokenType == "" then "delegated" else claims.tokenType
  if tokType == "service" then exchangeService cfg req claims
  else if tokType != "delegated" then
    return sendOAuthError 400 "unsupported_token_type" "delegated or service"
  else exchangeDelegated cfg req claims

/-- `authExchange`, once the assertion has been verified. -/
def acceptAssertion (cfg : Config) (req : Request) :
    Except String IntegrationClaims → Bridge Response
  | .error err => do
    let _ ← emitAuth cfg "integration_exchange" "denied" cfg.integrationIssuer "" req.clientIp
    return sendOAuthError 401 "invalid_grant" err
  | .ok claims => do
    let now ← perform .time
    let accepted ← perform (.replayAccept .assertions claims.jti claims.expiresAt now)
    if !accepted then
      let _ ← emitAuth cfg "integration_exchange" "denied" cfg.integrationIssuer claims.tenant
        req.clientIp
      return sendOAuthError 401 "invalid_grant" "assertion replay"
    exchange cfg req claims

/-- `authExchange`, once the request is in order. -/
def presentAssertion (P : Libraries) (cfg : Config) (req : Request) (assertion : String) :
    Bridge Response := do
  let verified ← verifyIntegrationAssertion P assertion cfg.integrationIssuer
    cfg.integrationAudience cfg.integrationPublicKey
  acceptAssertion cfg req verified

/-- `authExchange`: `form` is the grant type and the assertion in the body,
which may not be readable. -/
def authExchange (P : Libraries) (cfg : Config) (req : Request)
    (form : Option (String × String)) : Bridge Response :=
  if cfg.integrationIssuer == "" || cfg.integrationPublicKey == "" then
    return sendError 404 "not found"
  else
    match form with
    | none => return sendError 400 "invalid_request"
    | some (grantType, assertion) =>
      if grantType != kJwtBearerGrant then return sendError 400 "unsupported_grant_type"
      else if assertion == "" then
        return sendOAuthError 400 "invalid_request" "missing assertion"
      else if !cfg.integrationAllowedIps.isEmpty &&
          !isTrustedProxy P req.clientIp cfg.integrationAllowedIps then do
        let _ ← emitAuth cfg "integration_exchange" "denied" cfg.integrationIssuer "" req.clientIp
        return sendOAuthError 403 "unauthorized_client" "ip not allowed"
      else presentAssertion P cfg req assertion

/-! ### OAuth -/

/-- The identity the provider vouches for. -/
def verifiedIdentity (provider accessToken idToken nonce : String) (verifyIdToken : Bool) :
    Bridge (Except Response VerifiedIdentity) := do
  if !verifyIdToken then
    match ← perform (.oauthFetchIdentity provider accessToken) with
    | none => return .error (sendError 502 "identity lookup failed")
    | some vid => return .ok vid
  else if idToken == "" then return .error (sendError 502 "provider returned no id_token")
  else
    match ← perform (.oauthVerifyIdToken provider idToken nonce) with
    | none => return .error (sendError 502 "id_token verification failed")
    | some vid =>
      if vid.email != "" then return .ok vid
      match ← perform (.oauthFetchIdentity provider accessToken) with
      | none => return .ok vid
      | some u => return .ok ⟨u.email, vid.emailVerified || u.emailVerified⟩

/-- `oauthCallback`, once the provider has vouched for the user. -/
def oauthLogin (cfg : Config) (req : Request) (st : OAuthState) (email : String) :
    Bridge Response := do
  let info ← perform (.getUserInfoByEmail email)
  if !info.authenticated || info.userId == "" then
    let _ ← emitAuth cfg "login_failure" "denied" email st.tenant req.clientIp
    return sendError 403 "no matching user"
  let recorded ← emitAuth cfg "login_success" "ok" info.userId st.tenant req.clientIp
  if !recorded then return auditUnavailable
  let token ← mintJwt cfg info.userId st.tenant ["oauth"] "" "" "" ""
  let _ ← recordSession cfg st.tenant info.userId (optValue token.jti) req.clientIp
  return { status := 302, body := .redirect st.returnTo token cfg.tokenTtl }

/-- `oauthCallback`, once the state is consumed. -/
def oauthExchange (cfg : Config) (req : Request) (provider code : String) (st : OAuthState)
    (verifyIdToken : Bool) : Bridge Response := do
  match ← perform (.oauthExchangeCode provider code st.codeVerifier) with
  | none => return sendError 502 "token exchange failed"
  | some (accessToken, idToken) =>
    match ← verifiedIdentity provider accessToken idToken st.nonce verifyIdToken with
    | .error resp => return resp
    | .ok vid =>
      if !vid.emailVerified then return sendError 403 "email not verified by provider"
      oauthLogin cfg req st vid.email

/-- `oauthCallback`. -/
def oauthCallback (cfg : Config) (req : Request) (provider code state idpError : String) :
    Bridge Response := do
  if state == "" then return sendError 400 "invalid or expired state"
  match ← perform (.oauthConsume state) with
  | none => return sendError 400 "invalid or expired state"
  | some st =>
    if st.provider != provider then return sendError 400 "provider mismatch"
    if idpError != "" || code == "" then return sendError 400 "authorization denied"
    match cfg.oauthProviders.lookup provider with
    | none => return sendError 404 "unknown provider"
    | some verifyIdToken => oauthExchange cfg req provider code st verifyIdToken

/-! ### Sign-out -/

/-- `static_cast<int>`. -/
def toInt32 (n : ℤ) : ℤ := n.bmod (2 ^ 32)

def revocationUnavailable : Response :=
  sendOAuthError 503 "revocation_unavailable"
    "signed out locally, but the token could not be revoked server-side"

/-- `revokeToken`. -/
def revokeToken (cfg : Config) (req : Request) : Bridge Response :=
  match req.authorization with
  | .bearer token => do
    let now ← perform .time
    match token.verify now with
    | none => return { status := 204, body := .empty }
    | some claims =>
      let revoked ← revoke cfg.denylist (optValue claims.jti) (toInt32 (claims.exp.getD 0 - now))
      let _ ← emitAuth cfg "logout" (if revoked then "ok" else "error") (optValue claims.sub)
        (optValue claims.tenant) req.clientIp
      let _ ← dropSession cfg (optValue claims.tenant) (optValue claims.sub) (optValue claims.jti)
        req.clientIp
      if !revoked then return revocationUnavailable
      return { status := 204, body := .empty }
  | _ => return { status := 204, body := .empty }

/-! ### Tickets and the core -/

/-- Every route that acts in the core as the caller. -/
def forward (id : AuthIdentity) : Bridge Response := do
  let _ ← perform (.grpcCall (fillAuth id))
  return { status := 200, body := .core (fillAuth id) }

/-- `downloadTicket`. -/
def downloadTicket (cfg : Config) (id : AuthIdentity) (uid : String) : Bridge Response := do
  let t ← mintTicket cfg id uid "download" cfg.downloadTicketTtl ""
  return { status := 200, body := .ticket t cfg.downloadTicketTtl }

/-- `playbackTicket`. -/
def playbackTicket (cfg : Config) (id : AuthIdentity) (uid : String) : Bridge Response := do
  let st ← perform (.grpcStat uid (fillAuth id))
  if !st.success then return mapError st.error
  let mt := playbackMimeFor st.name
  if mt == "" then return sendError 415 "not a playable audio or video file"
  let ttl := clampPlaybackTtl cfg.playbackTicketTtl
  let t ← mintTicket cfg id uid "playback" ttl mt
  return { status := 200, body := .ticket t ttl }

/-- The media types a ticket may have a file served as. -/
def playbackMimes : List String :=
  ["video/webm", "video/mp4", "audio/mp4", "audio/mpeg", "audio/ogg"]

/-- Who a ticket's bearer acts as. -/
def ticketIdentity (req : Request) (claims : Claims) : AuthIdentity :=
  { identityFromClaims claims (optValue claims.tenant) with
    sourceAddr := req.clientIp
    playbackMime :=
      if optValue claims.typ == "playback" && playbackMimes.contains (optValue claims.mt) then
        optValue claims.mt
      else "" }

/-- The session a ticket belongs to has not been signed out. -/
def ticketSessionPermitted (cfg : Config) (sid : String) : Bridge Bool :=
  if sid == "" then return true else permits cfg.denylist sid

/-- `identityFromDownloadTicket`. -/
def identityFromDownloadTicket (cfg : Config) (req : Request) (uid : String) (ticket : Jwt) :
    Bridge (Option AuthIdentity) := do
  let now ← perform .time
  match ticket.verify now with
  | none => return none
  | some claims =>
    if checkTicketClaims claims uid ≠ .ok then return none
    let permitted ← ticketSessionPermitted cfg (optValue claims.sid)
    if !permitted then return none
    let v ← tenantAdmits (optValue claims.tenant)
    if !v.admits then return none
    return some (ticketIdentity req claims)

/-- `getContent`: by its ticket where no `Authorization` came with the request. -/
def getContent (cfg : Config) (req : Request) (uid : String) (ticket : Option Jwt) :
    Bridge Response :=
  match req.authorization, ticket with
  | .absent, some t => do
    match ← identityFromDownloadTicket cfg req uid t with
    | some id => forward id
    | none => gated cfg req forward
  | _, _ => gated cfg req forward

/-! ### Permission queries -/

/-- The last value of a parameter of the query string. -/
def queryValue (query : List (String × String)) (name : String) : String :=
  ((query.reverse.find? fun kv => kv.1 == name).map (·.2)).getD ""

/-- Whom a permission query asks about: the caller, unless it names a principal,
who has the roles it names and none of the caller's. -/
def checkedAs (id : AuthIdentity) (query : List (String × String)) : AuthContext :=
  let qUser := queryValue query "user"
  let qRoles := queryValue query "roles"
  if qUser != "" then
    { fillAuth id with user := qUser, roles := effectiveRoles (splitString qRoles ',') }
  else if qRoles != "" then
    { fillAuth id with roles := effectiveRoles (splitString qRoles ',') }
  else fillAuth id

/-- `checkPerm`. -/
def checkPerm (id : AuthIdentity) (query : List (String × String)) : Bridge Response := do
  let _ ← perform (.grpcCall (checkedAs id query))
  return { status := 200, body := .core (checkedAs id query) }

/-! ### Requests -/

/-- A request to one of the endpoints. -/
inductive ApiRequest where
  | issueToken (req : Request)
  | revokeToken (req : Request)
  | authExchange (req : Request) (form : Option (String × String))
  | ssoRedeem (req : Request) (form : Option (Option Jwt))
  | verifyMfa (req : Request) (mfaToken : Option Jwt) (action method code : String)
  | oauthCallback (req : Request) (provider code state idpError : String)
  | refreshToken (req : Request)
  | ssoHandoff (req : Request)
  | downloadTicket (req : Request) (uid : String)
  | playbackTicket (req : Request) (uid : String)
  | getContent (req : Request) (uid : String) (ticket : Option Jwt)
  | resource (req : Request)
  | checkPerm (req : Request) (query : List (String × String))

/-- `handleV1`. -/
def serve (P : Libraries) (cfg : Config) : ApiRequest → Bridge Response
  | .issueToken req => issueToken cfg req
  | .revokeToken req => revokeToken cfg req
  | .authExchange req form => authExchange P cfg req form
  | .ssoRedeem req form => ssoRedeem cfg req form
  | .verifyMfa req mfaToken action method code => verifyMfa cfg req mfaToken action method code
  | .oauthCallback req provider code state idpError =>
    oauthCallback cfg req provider code state idpError
  | .refreshToken req => gated cfg req (refreshToken cfg req)
  | .ssoHandoff req => gated cfg req (ssoHandoff cfg req)
  | .downloadTicket req uid => gated cfg req fun id => downloadTicket cfg id uid
  | .playbackTicket req uid => gated cfg req fun id => playbackTicket cfg id uid
  | .getContent req uid ticket => getContent cfg req uid ticket
  | .resource req => gated cfg req forward
  | .checkPerm req query => gated cfg req fun id => checkPerm id query

end HttpBridge
