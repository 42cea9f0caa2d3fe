/-
# Signed credentials

The proxy signs several kinds of token with one secret: sessions, service
sessions, tokens of a pending second factor, hand-off codes and tickets. Each
is a set of claims (`Claims`; a claim a token lacks is `none`), and what a
consumer reads from it goes through the same `optValue` with the same
defaults.

The signature is taken as unforgeable: a string a client presents is `signed`
with claims the proxy signed, or `other`, which verifies under no secret
(`Jwt.verify`).

Key definitions: `Claims`, `Jwt.verify`, `AuthIdentity`, `identityFromClaims`.
Key theorems: `Jwt.verify_eq_some`.
-/
import HttpBridge.Policy

namespace HttpBridge

open Interact

/-- The claims of a token, as the JSON object holds them. -/
structure Claims where
  iss : Option String := none
  sub : Option String := none
  email : Option String := none
  tenant : Option String := none
  iat : Option ℤ := none
  exp : Option ℤ := none
  jti : Option String := none
  aip : Option String := none
  skid : Option String := none
  skgen : Option String := none
  skname : Option String := none
  roles : Option RoleMap := none
  amr : Option (List String) := none
  mfaPending : Option Bool := none
  mip : Option String := none
  typ : Option String := none
  dl : Option String := none
  sid : Option String := none
  mt : Option String := none
  sso : Option String := none
  svc : Option Bool := none
  scope : Option String := none
  deriving DecidableEq

/-- `claims->optValue<std::string>(name, "")`. -/
abbrev optValue (c : Option String) : String := c.getD ""

/-- What a client presents where a token is expected. -/
inductive Jwt where
  | signed (claims : Claims)
  | other
  deriving DecidableEq

/-- `jwt.h`, `verify`: signature and, where there is one, expiry. -/
def Jwt.verify (now : ℤ) : Jwt → Option Claims
  | .other => none
  | .signed c =>
    match c.exp with
    | some exp => if now ≥ exp then none else some c
    | none => some c

theorem Jwt.verify_eq_some {now : ℤ} {t : Jwt} {c : Claims} :
    t.verify now = some c ↔ t = .signed c ∧ ∀ exp, c.exp = some exp → now < exp := by
  cases t with
  | other => simp [verify]
  | signed c' =>
    cases he : c'.exp with
    | none =>
      simp only [verify, he, Option.some.injEq, signed.injEq]
      refine ⟨fun h => ⟨h, fun e h' => ?_⟩, fun h => h.1⟩
      rw [← h, he] at h'
      cases h'
    | some exp =>
      simp only [verify, he, signed.injEq]
      constructor
      · intro h
        split_ifs at h with hn
        cases h
        refine ⟨rfl, fun e h' => ?_⟩
        rw [he] at h'
        cases h'
        omega
      · rintro ⟨rfl, h⟩
        have := h exp he
        rw [if_neg (by omega)]

/-! ### What is minted -/

/-- The claims of `mintJwt`; the key's label is bounded. -/
def sessionClaims (issuer user tenant jti : String) (now ttl : ℤ) (roles : RoleMap)
    (amr : List String) (aip serviceKeyId serviceKeyGen serviceKeyName : String) : Claims where
  iss := some issuer
  sub := some user
  email := some user
  tenant := some tenant
  iat := some now
  exp := some (now + ttl)
  jti := some jti
  aip := if aip == "" then none else some aip
  skid := if serviceKeyId == "" then none else some serviceKeyId
  skgen := if serviceKeyId == "" then none else some serviceKeyGen
  skname := if serviceKeyId == "" || serviceKeyName == "" then none
    else some (String.ofList (serviceKeyName.toList.take 120))
  roles := some roles
  amr := some amr

/-- The claims of `mintMfaPending`: no roles, and the marker. -/
def mfaPendingClaims (issuer user tenant ip jti : String) (now ttl : ℤ) : Claims where
  iss := some issuer
  sub := some user
  tenant := some tenant
  iat := some now
  exp := some (now + ttl)
  jti := some jti
  mfaPending := some true
  mip := some ip
  amr := some ["pwd"]

/-- `ticket_claims.h`, `buildTicketClaims`, with the media type `mintTicket` adds. -/
def buildTicketClaims (issuer subject tenant : String) (roles : List String)
    (uid typ sid mediaType : String) (now ttl : ℤ) : Claims where
  iss := some issuer
  sub := some subject
  tenant := some tenant
  iat := some now
  exp := some (now + ttl)
  typ := some typ
  dl := some uid
  sid := if sid == "" then none else some sid
  roles := some (OrdMap.empty.insert tenant roles)
  mt := if mediaType == "" then none else some mediaType

/-- `sso_handoff.h`, `buildHandoffClaims`. -/
def buildHandoffClaims (issuer subject tenant jti : String) (now ttl : ℤ) (amr : List String) :
    Claims where
  iss := some issuer
  sub := some subject
  tenant := some tenant
  sso := some "handoff"
  iat := some now
  exp := some (now + ttl)
  jti := some jti
  amr := some amr

/-- `service_claims.h`, `buildServiceClaims`. -/
def buildServiceClaims (issuer subject tenant : String) (roles : List String)
    (aip scope jti : String) (now ttl : ℤ) : Claims where
  iss := some issuer
  sub := some subject
  tenant := some tenant
  iat := some now
  exp := some (now + ttl)
  jti := some jti
  svc := some true
  aip := if aip == "" then none else some aip
  scope := if scope == "" then none else some scope
  roles := some (OrdMap.empty.insert tenant roles)
  amr := some ["integration"]

/-! ### Tickets -/

def kPlaybackTicketMaxTtl : ℤ := 1800

def isTicketType (typ : String) : Bool := typ == "download" || typ == "playback"

def clampPlaybackTtl (configured : ℤ) : ℤ :=
  if configured ≤ 0 then kPlaybackTicketMaxTtl else min configured kPlaybackTicketMaxTtl

inductive TicketCheck where
  | ok
  | wrongType
  | wrongUid
  deriving DecidableEq

def checkTicketClaims (c : Claims) (uid : String) : TicketCheck :=
  if !isTicketType (optValue c.typ) then .wrongType
  else if optValue c.dl != uid then .wrongUid
  else .ok

theorem checkTicketClaims_eq_ok {c : Claims} {uid : String} :
    checkTicketClaims c uid = .ok ↔ isTicketType (optValue c.typ) = true ∧ optValue c.dl = uid := by
  unfold checkTicketClaims
  by_cases htyp : isTicketType (optValue c.typ) = true
  · by_cases huid : optValue c.dl = uid <;> simp [htyp, huid]
  · simp [htyp]

/-! ### Identities -/

/-- Who a request acts as (`AuthIdentity`). -/
structure AuthIdentity where
  user : String := ""
  tenant : String := ""
  roles : List String := []
  tenantRefusalCode : String := ""
  tenantRefusalReason : String := ""
  amr : List String := []
  sourceAddr : String := ""
  sessionJti : String := ""
  playbackMime : String := ""
  serviceKeyId : String := ""
  serviceKeyGen : String := ""
  deriving DecidableEq

/-- A token attests membership in the tenants its roles map has as keys. -/
def tokenTenantMember (c : Claims) (tenant : String) : Bool :=
  if tenant == "" then false
  else
    match c.roles with
    | some rolesObj => rolesObj.has tenant
    | none => false

/-- The roles a token carries in a tenant. -/
def Claims.rolesIn (c : Claims) (activeTenant : String) : List String :=
  if activeTenant == "" then []
  else (c.roles.bind fun rolesObj => rolesObj.find activeTenant).getD []

def identityFromClaims (c : Claims) (activeTenant : String) : AuthIdentity where
  user := optValue c.sub
  tenant := activeTenant
  sessionJti := optValue c.jti
  roles := c.rolesIn activeTenant
  amr := c.amr.getD []
  serviceKeyId := optValue c.skid
  serviceKeyGen := optValue c.skgen

end HttpBridge
