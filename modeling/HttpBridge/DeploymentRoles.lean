/-
# Deployment roles

No role of the deployment should come out of a tenant's directory. An identity
comes from a password, from a session or from a ticket that carries on the
roles of either (`CameFrom`). `extractRolesFromGroups` drops the deployment
roles; `getRolesByTenant`, whose answer every session is minted with, does not.
So an identity carries a deployment role exactly when it goes back to a session
whose user is in a group of that name in the tenant
(`no_deployment_role_iff`).

Key definitions: `CameFrom`, `Origin.Clean`.
Key theorems: `no_deployment_role_iff`.
-/
import HttpBridge.TenantGate

namespace HttpBridge

open Interact TokenDenylist

/-! ### Sessions carry what the directory gave -/

section Sessions

variable {P : Libraries} {cfg : Config} {req : Request} {T : Trace} {id : AuthIdentity} {c : Claims}

/-- A user's session was minted with the roles the directory gave. -/
theorem session_granted {rq : ApiRequest} {tr : Trace} {resp : Response}
    (h : (serve P cfg rq).Yields tr resp) (hc : resp.body.session? = some c) (hsvc : c.svc = none) :
    ∃ user tenant amr keyId m, Granted cfg tr user tenant amr keyId c m := by
  rcases (serve_outcome h).session_cases hc with hg | ⟨_, _, _, _, _, _, rfl⟩
  · exact hg
  · cases hsvc

theorem find_mintedRoles {keyId tenant t : String} {m : RoleMap}
    (h : (mintedRoles keyId tenant m).has t = true) : (mintedRoles keyId tenant m).find t = m.find t := by
  unfold mintedRoles at h ⊢
  split_ifs at h ⊢
  · rfl
  · obtain ⟨v, hv⟩ := OrdMap.has_eq_true.mp h
    rw [rolesForKeySession, OrdMap.find_restrict] at hv ⊢
    split_ifs at hv ⊢
    rfl

/-- The roles of a bearer are those the directory gave for the tenant. -/
theorem mem_roles_bearer {user tenant keyId r : String} {amr : List String} {m : RoleMap}
    (hg : Granted cfg T user tenant amr keyId c m) {tr : Trace}
    (hreq : req.authorization = .bearer (.signed c)) (h : (authenticate cfg req).Yields tr (.ok id)) :
    r ∈ id.roles ↔ ∃ rs, m.find id.tenant = some rs ∧ r ∈ rs := by
  rw [authenticate_of_bearer hreq] at h
  obtain ⟨c', hp⟩ := authenticateBearer_during.of_yields h id rfl
  cases hp.signed
  have hmem := hp.member
  rw [hp.identity]
  show r ∈ c.rolesIn (bearerTenant req c) ↔ ∃ rs, m.find (bearerTenant req c) = some rs ∧ r ∈ rs
  unfold tokenTenantMember at hmem
  rw [hg.roles_eq] at hmem
  unfold Claims.rolesIn
  split_ifs at hmem with ht
  rw [if_neg (by simpa using ht), hg.roles_eq]
  simp only [Option.bind_some, find_mintedRoles hmem]
  cases m.find (bearerTenant req c) <;> simp

/-- A ticket gives its bearer the tenant and the roles it was minted for. -/
theorem ticketIdentity_of_yields {uid : String} {t : Claims} {tr : Trace}
    (h : (identityFromDownloadTicket cfg req uid (.signed t)).Yields tr (some id)) :
    id = ticketIdentity req t ∧ optValue t.tenant ≠ "" := by
  obtain ⟨t', hp⟩ := identityFromDownloadTicket_during.of_yields h id rfl
  cases hp.signed
  exact ⟨hp.identity, hp.admitted.ne_empty⟩

end Sessions

/-! ### Where an identity comes from -/

/-- Where the roles of an identity were taken from: the groups searched at a
Basic request, or the roles by tenant at the mint of the user's session, as the
connection of that moment gave them. -/
inductive Origin where
  | password
  | session (ld : Option LdapServer) (user : String)

/-- The ways an identity comes about. -/
inductive CameFrom (P : Libraries) (cfg : Config) (L : LdapOptions) : AuthIdentity → Origin → Prop
  | basic {req : Request} {tr : Trace} {id : AuthIdentity} {ld adminLd : Option LdapServer}
      (hreq : ∀ token, req.authorization ≠ .bearer token)
      (h : (authenticate cfg req).Yields tr (.ok id))
      (hdir : ∀ user pass info, ⟨.authenticateUser user pass, info⟩ ∈ tr →
        info = authenticateUser L ld adminLd user pass) : CameFrom P cfg L id .password
  | bearer {rq : ApiRequest} {resp : Response} {c : Claims} {req : Request} {tr tr' : Trace}
      {id : AuthIdentity} {ld : Option LdapServer} (hmint : (serve P cfg rq).Yields tr resp)
      (hc : resp.body.session? = some c) (huser : c.svc = none)
      (hdir : ∀ user m, ⟨.getRolesByTenant user, m⟩ ∈ tr → m = getRolesByTenant L ld user)
      (hreq : req.authorization = .bearer (.signed c))
      (h : (authenticate cfg req).Yields tr' (.ok id)) :
      CameFrom P cfg L id (.session ld (optValue c.sub))
  | ticket {id id' : AuthIdentity} {o : Origin} {uid uid' : String} {resp : Response} {t : Claims}
      {req : Request} {tr tr' : Trace} (hid : CameFrom P cfg L id o)
      (hmint : (downloadTicket cfg id uid).Yields tr resp ∨ (playbackTicket cfg id uid).Yields tr resp)
      (ht : resp.body.ticket? = some t)
      (h : (identityFromDownloadTicket cfg req uid' (.signed t)).Yields tr' (some id')) :
      CameFrom P cfg L id' o

/-- The roles an origin gives in a tenant. -/
def Origin.Gave (L : LdapOptions) (tenant : String) (roles : List String) : Origin → Prop
  | .password => ∀ r ∈ roles, isDeploymentRole r = false
  | .session ld user => ∀ r, r ∈ roles ↔ ∃ S, ld = some S ∧ ∃ g ∈ groupsOf L S user, Gives L g tenant r

/-- No group of the user in the tenant bears the name of a deployment role,
where the name becomes a role as it is. -/
def Origin.Clean (L : LdapOptions) (tenant : String) : Origin → Prop
  | .password => True
  | .session ld user => ∀ S, ld = some S → ∀ g ∈ groupsOf L S user, ∀ r, Gives L g tenant r →
      isDeploymentRole r = false

section Identities

variable {P : Libraries} {cfg : Config} {L : LdapOptions} {id : AuthIdentity} {o : Origin}

/-- An identity carries the roles its origin gives in its tenant. -/
theorem CameFrom.gave (h : CameFrom P cfg L id o) : o.Gave L id.tenant id.roles := by
  induction h with
  | @basic req tr id ld adminLd hreq h hdir =>
    rw [authenticate_of_not_bearer hreq] at h
    obtain ⟨user, pass, info, hp⟩ := authenticateMember_during.of_yields h id rfl
    rw [hp.identity]
    show ∀ r ∈ info.roles, isDeploymentRole r = false
    rw [hdir _ _ _ hp.bound]
    exact not_isDeploymentRole_of_mem_authenticateUser
  | bearer hmint hc huser hdir hreq h =>
    obtain ⟨user, tenant, amr, keyId, m, hg⟩ := session_granted hmint hc huser
    intro r
    rw [mem_roles_bearer hg hreq h, hdir _ _ hg.roles, mem_getRolesByTenant, hg.sub]
    rfl
  | @ticket id id' o uid uid' resp t req tr tr' hid hmint ht h ih =>
    obtain ⟨typ, mediaType, now, ttl, rfl⟩ := ticket_carries hmint ht
    obtain ⟨rfl, hne⟩ := ticketIdentity_of_yields h
    have htenant : id.tenant ≠ "" := hne
    rw [ticketIdentity_roles htenant]
    exact ih

/-- **Whom a deployment role comes out for.** What an identity forwards to the
core has none exactly if it goes back to a Basic request, or to a session whose
user is in no group of such a name in the tenant. -/
theorem no_deployment_role_iff (h : CameFrom P cfg L id o) :
    (∀ r ∈ (fillAuth id).roles, isDeploymentRole r = false) ↔ o.Clean L id.tenant := by
  have heffective : (∀ r ∈ effectiveRoles id.roles, isDeploymentRole r = false) ↔
      ∀ r ∈ id.roles, isDeploymentRole r = false := by
    simpa using (isDeploymentRole_effectiveRoles id.roles).not
  rw [fillAuth, heffective]
  have hgave := h.gave
  cases o with
  | password => exact iff_of_true hgave trivial
  | session ld user =>
    constructor
    · rintro hno S rfl g hg r hr
      exact hno r ((hgave r).mpr ⟨S, rfl, g, hg, hr⟩)
    · intro hclean r hr
      obtain ⟨S, hS, g, hg, hr⟩ := (hgave r).mp hr
      exact hclean S hS g hg r hr

end Identities

/-! ### A group with the name of a deployment role -/

/-- A directory with one user and the groups that name him, by DN and `cn`. -/
def groupServer (userDn : String) (groups : List (String × String)) : LdapServer where
  entries := ⟨userDn, [("uid", ["ann"])]⟩ ::
    groups.map fun g => ⟨g.1, [("cn", [g.2]), ("member", [userDn])]⟩
  inSubtree base dn := base.toList.isSuffixOf dn.toList
  matchesFilter filter e :=
    if e.dn == userDn then filter == userFilter "ann" else mentions filter ("member=" ++ userDn)
  succeeds _ _ := true
  bind dn password := dn == userDn && password == "secret"

def sampleOptions : LdapOptions := { ldapDomain := "dc=fe" }

/-- An environment in which the directory is this server. -/
def ldapReply (S : LdapServer) : (op : Op) → op.Ans
  | .authenticateUser user pass => authenticateUser sampleOptions (some S) (some S) user pass
  | .getTenantsForUser user => getTenantsForUser sampleOptions (some S) user
  | .getRolesByTenant user => getRolesByTenant sampleOptions (some S) user
  | op => sampleReply "live" op

/-- The user is in a group of a tenant that is named as a role of the deployment. -/
def systemAdminServer : LdapServer :=
  groupServer "uid=ann,dc=fe" [("cn=system_admin,ou=acme,ou=tenants,dc=fe", "system_admin")]

/-- The session of a login there. -/
def systemAdminSession : Claims :=
  sessionClaims "fileengine-bridge" "ann" "acme" "s1" 0 900
    (OrdMap.empty.insert "acme" ["system_admin"]) ["pwd"] "" "" "" ""

def systemAdminRequest : Request := { authorization := .bearer (.signed systemAdminSession) }

theorem systemAdmin_cameFrom : CameFrom .refusing {} sampleOptions
    (bearerIdentity systemAdminRequest systemAdminSession)
    (.session (some systemAdminServer) "ann") := by
  have hmint : ((serve .refusing {} sampleLogin).run (ldapReply systemAdminServer)).2.body.session? =
      some systemAdminSession := by decide +kernel
  have haccept : ((authenticate {} systemAdminRequest).run (ldapReply systemAdminServer)).2 =
      .ok (bearerIdentity systemAdminRequest systemAdminSession) := by rfl
  have hauth := Prog.yields_run (ldapReply systemAdminServer) (authenticate {} systemAdminRequest)
  rw [haccept] at hauth
  exact .bearer (Prog.yields_run (ldapReply systemAdminServer) _) hmint rfl
    (fun _ _ he => Prog.mem_run he) rfl hauth

theorem systemAdmin_no_deployment_role_iff :
    (∀ r ∈ (fillAuth (bearerIdentity systemAdminRequest systemAdminSession)).roles,
      isDeploymentRole r = false) ↔
      (Origin.session (some systemAdminServer) "ann").Clean sampleOptions
        (bearerIdentity systemAdminRequest systemAdminSession).tenant :=
  no_deployment_role_iff systemAdmin_cameFrom

/-- **A deployment role comes out of a tenant's directory.** The session of the
login carries it to the core. -/
theorem not_no_deployment_role :
    ¬ ∀ id o, CameFrom .refusing {} sampleOptions id o →
      ∀ r ∈ (fillAuth id).roles, isDeploymentRole r = false := fun h =>
  absurd (h _ _ systemAdmin_cameFrom "system_admin" (by decide +kernel)) (by decide)

end HttpBridge
