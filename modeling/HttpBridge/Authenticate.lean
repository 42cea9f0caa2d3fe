/-
# Who a request acts as

`authenticate`: a signed bearer token, checked locally and against the
denylist, or HTTP Basic, bound against the directory. `gated` is what
`handleV1` puts before every route that needs an identity: authentication and
then the tenant's state.

* `authenticate_during`: what an accepted request has passed, and the identity
  it gets.
* `gated_during`: a response is a refusal or comes from the route.
-/
import HttpBridge.Gates

namespace HttpBridge

open Interact TokenDenylist

/-- `basicCredentials`: the user and the password before and after the first
colon. -/
def basicCredentials : Authorization → Option (String × String)
  | .basic creds => if ':' ∈ creds.toList then some (upTo ':' creds, after ':' creds) else none
  | _ => none

/-- The tenant a request addresses. -/
def requestTenant (cfg : Config) (req : Request) : String :=
  let t := resolveTenant cfg.loginSubdomain req.xTenant req.host
  if t == "" then "default" else t

/-- Who a bound user acts as. -/
def basicIdentity (cfg : Config) (req : Request) (user : String) (info : UserInfo) :
    AuthIdentity where
  user := if info.userId == "" then user else info.userId
  roles := info.roles
  tenant := requestTenant cfg req

/-- `authenticateBasic`: whether it succeeded, and the identity as far as it was
filled in. -/
def authenticateBasic (cfg : Config) (req : Request) : Bridge (Bool × AuthIdentity) :=
  match basicCredentials req.authorization with
  | none => return (false, {})
  | some (user, pass) => do
    let info ← perform (.authenticateUser user pass)
    if !info.authenticated then return (false, { user := user })
    let out := basicIdentity cfg req user info
    let v ← tenantAdmits out.tenant
    if !v.admits then
      return (false, { out with tenantRefusalCode := v.code, tenantRefusalReason := v.reason })
    return (true, out)

/-- The tenant a bearer request selects. -/
def bearerTenant (req : Request) (claims : Claims) : String :=
  if req.xTenant == "" then optValue claims.tenant else req.xTenant

def bearerIdentity (req : Request) (claims : Claims) : AuthIdentity :=
  { identityFromClaims claims (bearerTenant req claims) with sourceAddr := req.clientIp }

def secondFactorRequired (tenant : String) : Response where
  status := 403
  body := .error [("error", "2fa_required"), ("tenant", tenant)]

/-- The bearer branch of `authenticate`. -/
def authenticateBearer (cfg : Config) (req : Request) (token : Jwt) :
    Bridge (Except Response AuthIdentity) := do
  let now ← perform .time
  match token.verify now with
  | none => return .error (unauthorized req)
  | some claims =>
    let permitted ← permits cfg.denylist (optValue claims.jti)
    if !permitted then
      let _ ← emitAuth cfg "token_revoked_use" "denied" (optValue claims.sub)
        (optValue claims.tenant) req.clientIp
      return .error (unauthorized req)
    if claims.mfaPending.getD false then return .error (unauthorized req)
    if isTicketType (optValue claims.typ) then return .error (unauthorized req)
    if !tokenTenantMember claims (bearerTenant req claims) then return .error forbidTenant
    if !cfg.mfaEnabled || satisfiesSecondFactor (bearerIdentity req claims).amr then
      return .ok (bearerIdentity req claims)
    let required ← tenantRequires2fa (optValue claims.sub) (bearerTenant req claims)
    if required then return .error (secondFactorRequired (bearerTenant req claims))
    return .ok (bearerIdentity req claims)

/-- The Basic branch of `authenticate`: the user must belong to the tenant. -/
def authenticateMember (cfg : Config) (req : Request) : Bridge (Except Response AuthIdentity) := do
  let (ok, out) ← authenticateBasic cfg req
  if !ok then
    if out.tenantRefusalCode != "" then
      return .error (tenantRefused out.tenantRefusalCode out.tenantRefusalReason)
    return .error (unauthorized req)
  let out := { out with sourceAddr := req.clientIp }
  let tenants ← perform (.getTenantsForUser out.user)
  if !tenants.contains out.tenant then return .error forbidTenant
  return .ok out

/-- `authenticate`: an identity, or the response that refuses. -/
def authenticate (cfg : Config) (req : Request) : Bridge (Except Response AuthIdentity) :=
  match req.authorization with
  | .bearer token => authenticateBearer cfg req token
  | _ => authenticateMember cfg req

/-- The part of `handleV1` before a route that needs an identity. -/
def gated (cfg : Config) (req : Request) (route : AuthIdentity → Bridge Response) :
    Bridge Response := do
  match ← authenticate cfg req with
  | .error resp => return resp
  | .ok id =>
    let v ← tenantAdmits id.tenant
    if !v.admits then return tenantRefused v.code v.reason
    route id

variable {cfg : Config} {req : Request} {T : Trace}

theorem requestTenant_eq (cfg : Config) (req : Request) :
    requestTenant cfg req = resolveTenant cfg.loginSubdomain req.xTenant req.host := by
  simp [requestTenant, resolveTenant_ne_empty]

/-! ### What an accepted request has passed -/

/-- The user of an HTTP Basic request was bound, and the tenant it addresses
admitted. -/
structure PasswordBound (cfg : Config) (req : Request) (T : Trace) (user pass : String)
    (info : UserInfo) : Prop where
  credentials : basicCredentials req.authorization = some (user, pass)
  bound : ⟨.authenticateUser user pass, info⟩ ∈ T
  authenticated : info.authenticated = true
  admitted : Admitted (requestTenant cfg req) T

theorem authenticateBasic_during : (authenticateBasic cfg req).During T fun r => r.1 = true →
    ∃ user pass info, PasswordBound cfg req T user pass info ∧
      r.2 = basicIdentity cfg req user info := by
  unfold authenticateBasic
  split
  · exact .ret nofun
  case h_2 user pass hc =>
    refine .perform fun info hinfo => .ite (fun _ => .ret nofun) fun hi => ?_
    refine .bind fun tr v htr hv => .ite (fun _ => .ret nofun) fun ha => .ret fun _ => ?_
    exact ⟨user, pass, info, ⟨hc, hinfo, by simpa using hi, tr, v, htr, hv, by simpa using ha⟩, rfl⟩

/-- What a request authenticated by HTTP Basic has passed. -/
structure BasicPassed (cfg : Config) (req : Request) (T : Trace) (id : AuthIdentity)
    (user pass : String) (info : UserInfo) : Prop extends
    PasswordBound cfg req T user pass info where
  member : ∃ tenants, ⟨.getTenantsForUser id.user, tenants⟩ ∈ T ∧ id.tenant ∈ tenants
  identity : id = { basicIdentity cfg req user info with sourceAddr := req.clientIp }

theorem authenticateMember_during : (authenticateMember cfg req).During T fun r => ∀ id, r = .ok id →
    ∃ user pass info, BasicPassed cfg req T id user pass info := by
  refine .bind fun tr ⟨ok, out⟩ htr hbasic => .ite (fun _ => ?_) fun hok => ?_
  · exact .ite (fun _ => .ret nofun) fun _ => .ret nofun
  · refine .perform fun tenants htenants => .ite (fun _ => .ret nofun) fun hm => .ret ?_
    rintro _ ⟨⟩
    obtain ⟨user, pass, info, hb, hid⟩ := authenticateBasic_during tr _ htr hbasic (by simpa using hok)
    obtain rfl : out = basicIdentity cfg req user info := hid
    exact ⟨user, pass, info, hb, ⟨tenants, htenants, by simpa using hm⟩, rfl⟩

/-- What a request authenticated by a bearer token has passed. -/
structure BearerPassed (cfg : Config) (req : Request) (token : Jwt) (T : Trace)
    (id : AuthIdentity) (claims : Claims) : Prop where
  signed : token = .signed claims
  unexpired : ∃ now, ⟨.time, now⟩ ∈ T ∧ ∀ exp, claims.exp = some exp → now < exp
  permitted : ∃ tr, tr <:+: T ∧ (permits cfg.denylist (optValue claims.jti)).Yields tr true
  session : claims.mfaPending.getD false = false
  bearer : isTicketType (optValue claims.typ) = false
  member : tokenTenantMember claims (bearerTenant req claims) = true
  identity : id = bearerIdentity req claims

theorem authenticateBearer_during {token : Jwt} :
    (authenticateBearer cfg req token).During T fun r => ∀ id, r = .ok id →
      ∃ claims, BearerPassed cfg req token T id claims := by
  refine .perform fun now hnow => ?_
  split
  · exact .ret nofun
  case h_2 claims hv =>
    obtain ⟨hsigned, hexp⟩ := Jwt.verify_eq_some.mp hv
    refine .bind fun tr permitted htr hp => .ite (fun _ => .skip fun _ => .ret nofun) fun hok =>
      .ite (fun _ => .ret nofun) fun hmfa => .ite (fun _ => .ret nofun) fun htyp =>
      .ite (fun _ => .ret nofun) fun hmem => ?_
    have hpassed : BearerPassed cfg req token T (bearerIdentity req claims) claims :=
      ⟨hsigned, ⟨now, hnow, hexp⟩, ⟨tr, htr, by simpa [show permitted = true by simpa using hok] using hp⟩,
        by simpa using hmfa, by simpa using htyp, by simpa using hmem, rfl⟩
    have haccept : (pure (.ok (bearerIdentity req claims)) : Bridge (Except Response AuthIdentity)).During
        T fun r => ∀ id, r = .ok id → ∃ claims, BearerPassed cfg req token T id claims := by
      refine .ret ?_
      rintro _ ⟨⟩
      exact ⟨claims, hpassed⟩
    exact .ite (fun _ => haccept) fun _ => .skip fun _ => .ite (fun _ => .ret nofun) fun _ => haccept

theorem authenticate_of_not_bearer (h : ∀ token, req.authorization ≠ .bearer token) :
    authenticate cfg req = authenticateMember cfg req := by
  unfold authenticate
  cases ha : req.authorization with
  | bearer token => exact absurd ha (h token)
  | _ => rfl

theorem authenticate_of_bearer {token : Jwt} (h : req.authorization = .bearer token) :
    authenticate cfg req = authenticateBearer cfg req token := by
  unfold authenticate
  rw [h]

/-- An accepted request was accepted by its password or by its token. -/
theorem authenticate_during : (authenticate cfg req).During T fun r => ∀ id, r = .ok id →
    (∃ user pass info, BasicPassed cfg req T id user pass info) ∨
      ∃ claims, req.authorization = .bearer (.signed claims) ∧
        BearerPassed cfg req (.signed claims) T id claims := by
  intro tr r htr h id hr
  by_cases hb : ∃ token, req.authorization = .bearer token
  · obtain ⟨token, ht⟩ := hb
    rw [authenticate_of_bearer ht] at h
    obtain ⟨claims, hp⟩ := authenticateBearer_during tr r htr h id hr
    obtain rfl := hp.signed
    exact .inr ⟨claims, ht, hp⟩
  · rw [authenticate_of_not_bearer (not_exists.mp hb)] at h
    exact .inl (authenticateMember_during tr r htr h id hr)

/-! ### Refusals -/

theorem authenticate_error : (authenticate cfg req).During T fun r => ∀ resp, r = .error resp →
    ∃ fields, resp.body = .error fields := by
  have hok : ∀ {id : AuthIdentity}, (pure (.ok id) : Bridge (Except Response AuthIdentity)).During T
      fun r => ∀ resp, r = .error resp → ∃ fields, resp.body = .error fields :=
    .ret fun _ h => nomatch h
  have herror : ∀ {resp : Response}, (∃ fields, resp.body = .error fields) →
      (pure (.error resp) : Bridge (Except Response AuthIdentity)).During T
        fun r => ∀ resp, r = .error resp → ∃ fields, resp.body = .error fields := by
    refine fun h => .ret ?_
    rintro _ ⟨⟩
    exact h
  unfold authenticate
  split
  · refine .skip fun now => ?_
    split
    · exact herror ⟨_, rfl⟩
    · exact .skip fun _ => .ite (fun _ => .skip fun _ => herror ⟨_, rfl⟩) fun _ =>
        .ite (fun _ => herror ⟨_, rfl⟩) fun _ => .ite (fun _ => herror ⟨_, rfl⟩) fun _ =>
        .ite (fun _ => herror ⟨_, rfl⟩) fun _ => .ite (fun _ => hok) fun _ =>
        .skip fun _ => .ite (fun _ => herror ⟨_, rfl⟩) fun _ => hok
  · exact .skip fun _ => .ite
      (fun _ => .ite (fun _ => herror ⟨_, rfl⟩) fun _ => herror ⟨_, rfl⟩) fun _ =>
      .skip fun _ => .ite (fun _ => herror ⟨_, rfl⟩) fun _ => hok

/-- A request has passed authentication and the gate of its tenant. -/
structure Passed (cfg : Config) (req : Request) (T : Trace) (id : AuthIdentity) : Prop where
  authenticated : ∃ tr, tr <:+: T ∧ (authenticate cfg req).Yields tr (.ok id)
  admitted : Admitted id.tenant T

theorem Passed.mono {id : AuthIdentity} {T' : Trace} (h : Passed cfg req T id) (hT : T <:+: T') :
    Passed cfg req T' id := by
  obtain ⟨⟨tr, htr, hauth⟩, hadmitted⟩ := h
  exact ⟨⟨tr, htr.trans hT, hauth⟩, hadmitted.mono hT⟩

/-- What a request with a signed bearer token has passed. -/
theorem Passed.bearerPassed {id : AuthIdentity} {c : Claims} (h : Passed cfg req T id)
    (hreq : req.authorization = .bearer (.signed c)) :
    ∃ tr, tr <:+: T ∧ BearerPassed cfg req (.signed c) tr id c := by
  obtain ⟨tr, htr, hauth⟩ := h.authenticated
  rw [authenticate_of_bearer hreq] at hauth
  obtain ⟨c', hp⟩ := authenticateBearer_during.of_yields hauth id rfl
  cases hp.signed
  exact ⟨tr, htr, hp⟩

/-- A response is a refusal or comes from the route. -/
theorem gated_during {route : AuthIdentity → Bridge Response} {Q : Response → Prop}
    (herror : ∀ resp fields, resp.body = .error fields → Q resp)
    (hroute : ∀ id, Passed cfg req T id → (route id).During T Q) :
    (gated cfg req route).During T Q := by
  refine .bind fun tr r htr hr => ?_
  split
  · obtain ⟨fields, hf⟩ := authenticate_error tr _ htr hr _ rfl
    exact .ret (herror _ fields hf)
  · refine .bind fun tr' v htr' hv => .ite (fun _ => .ret (herror _ _ rfl)) fun ha => ?_
    exact hroute _ ⟨⟨tr, htr, hr⟩, tr', v, htr', hv, by simpa using ha⟩

/-! ### What authentication can pass through -/

section Within

variable {G : Gate → Prop}

theorem Within.authenticateBearer {token : Jwt} (hcheck : ∀ jti, G (.check jti)) :
    Within cfg G (HttpBridge.authenticateBearer cfg req token) := by
  refine .bind (.plain rfl) fun now => ?_
  split
  · exact .ret
  · exact .bind (.permits (hcheck _)) fun _ => .ite (.bind .emitAuth fun _ => .ret) <| .ite .ret <|
      .ite .ret <| .ite .ret <| .ite .ret <| .bind .tenantRequires2fa fun _ => .ite .ret .ret

theorem Within.authenticateBasic (hadmits : G (.admits (requestTenant cfg req))) :
    Within cfg G (HttpBridge.authenticateBasic cfg req) := by
  unfold HttpBridge.authenticateBasic
  split
  · exact .ret
  · exact .bind (.plain rfl) fun _ => .ite .ret <| .bind (.admits hadmits) fun _ => .ite .ret .ret

theorem Within.authenticateMember (hadmits : G (.admits (requestTenant cfg req))) :
    Within cfg G (HttpBridge.authenticateMember cfg req) :=
  .bind (.authenticateBasic hadmits) fun _ => .ite (.ite .ret .ret) <|
    .bind (.plain rfl) fun _ => .ite .ret .ret

theorem Within.authenticate (hcheck : ∀ jti, G (.check jti))
    (hadmits : G (.admits (requestTenant cfg req))) :
    Within cfg G (HttpBridge.authenticate cfg req) := by
  unfold HttpBridge.authenticate
  split
  · exact .authenticateBearer hcheck
  · exact .authenticateMember hadmits

theorem Within.gated {route : AuthIdentity → Bridge Response}
    (hcheck : ∀ jti, G (.check jti)) (hadmits : ∀ tenant, G (.admits tenant))
    (hroute : ∀ id, Within cfg G (route id)) : Within cfg G (HttpBridge.gated cfg req route) := by
  refine .bind (.authenticate hcheck (hadmits _)) fun r => ?_
  split
  · exact .ret
  · exact .bind (.admits (hadmits _)) fun _ => .ite .ret (hroute _)

end Within

end HttpBridge
