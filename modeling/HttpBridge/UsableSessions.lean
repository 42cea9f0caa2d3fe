/-
# Whether a session can be used

A session is to be of use in the tenant it names: a request with it is refused
otherwise before any route is reached. The tenant is chosen from the tenants of
the user (`getTenantsForUser`), but the token may act only where it carries
roles (`getRolesByTenant`), and the two do not look at the same groups. The
mint falls back to a tenant with roles where there is one. So a session is of
use exactly if some group gives its user a role in some tenant
(`session_usable_iff`).

Key definitions: `Usable`.
Key theorems: `session_usable_iff`.
-/
import HttpBridge.DeploymentRoles

namespace HttpBridge

open Interact TokenDenylist

/-- The token may act in the tenant it names. -/
def Usable (c : Claims) : Prop := tokenTenantMember c (optValue c.tenant) = true

instance (c : Claims) : Decidable (Usable c) := by unfold Usable; infer_instance

/-- What the connected directory answers about roles. -/
def RolesFrom (L : LdapOptions) (S : LdapServer) (T : Trace) : Prop :=
  ∀ user m, ⟨.getRolesByTenant user, m⟩ ∈ T → m = getRolesByTenant L (some S) user

section Sessions

variable {P : Libraries} {cfg : Config} {L : LdapOptions} {S : LdapServer} {x : Exchange} {c : Claims}

/-- A tenant with roles has a name. -/
theorem ne_empty_of_has {user tenant : String}
    (h : (getRolesByTenant L (some S) user).has tenant = true) : tenant ≠ "" := by
  obtain ⟨g, -, r, hgives⟩ := has_getRolesByTenant.mp h
  exact hgives.2.2.1

/-- The mint names a tenant with roles exactly if there is one. -/
theorem has_mintedTenant_iff {user : String} (tenant : String) :
    (getRolesByTenant L (some S) user).has
        (mintedTenant tenant (getRolesByTenant L (some S) user)) = true ↔
      ∃ g ∈ groupsOf L S user, ∃ t r, Gives L g t r := by
  constructor
  · intro h
    obtain ⟨g, hg, r, hgives⟩ := has_getRolesByTenant.mp h
    exact ⟨g, hg, _, r, hgives⟩
  · rintro ⟨g, hg, t, r, hgives⟩
    have hhas : (getRolesByTenant L (some S) user).has t = true :=
      has_getRolesByTenant.mpr ⟨g, hg, r, hgives⟩
    exact has_mintedTenant (OrdMap.isEmpty_of_has hhas)

/-- **Which sessions are of use.** A user's session may act in its tenant
exactly if some group gives the user a role in some tenant; and a tenant is one
of those with roles exactly if a group gives one in it. -/
theorem session_usable_iff (hx : x.Served P cfg) (hc : x.response.body.session? = some c)
    (huser : c.svc = none) (hkey : c.skid = none) (hdir : RolesFrom L S x.trace) :
    (Usable c ↔ ∃ g ∈ groupsOf L S (optValue c.sub), ∃ t r, Gives L g t r) ∧
      ∀ t, (getRolesByTenant L (some S) (optValue c.sub)).has t = true ↔
        ∃ g ∈ groupsOf L S (optValue c.sub), ∃ r, Gives L g t r := by
  refine ⟨?_, fun t => has_getRolesByTenant⟩
  obtain ⟨user, tenant, amr, keyId, m, hg⟩ := session_granted hx hc huser
  obtain rfl : keyId = "" := by
    rw [← hg.skid_eq, hkey]
    rfl
  obtain rfl : m = getRolesByTenant L (some S) user := hdir _ _ hg.roles
  have hsub : optValue c.sub = user := by
    rw [hg.sub]
    rfl
  have htenant : optValue c.tenant = mintedTenant tenant (getRolesByTenant L (some S) user) := by
    rw [hg.tenant_eq]
    rfl
  have hroles : c.roles = some (getRolesByTenant L (some S) user) := hg.roles_eq
  rw [hsub, ← has_mintedTenant_iff tenant, Usable, tokenTenantMember, hroles, htenant]
  by_cases he : mintedTenant tenant (getRolesByTenant L (some S) user) = ""
  · rw [if_pos (by simpa using he)]
    refine iff_of_false Bool.false_ne_true fun h => ne_empty_of_has h he
  · rw [if_neg (by simpa using he)]

end Sessions

/-! ### A group that only one of the searches finds -/

/-- The exchange of a login against a directory. -/
def loginAt (S : LdapServer) : Exchange := .against .refusing {} (ldapReply S) sampleLogin

theorem loginAt_rolesFrom (S : LdapServer) : RolesFrom sampleOptions S (loginAt S).trace :=
  fun _ _ he => Prog.mem_run he

theorem login_usable_iff : ∃ c,
    (loginAt systemAdminServer).response.body.session? = some c ∧
    (Usable c ↔ ∃ g ∈ groupsOf sampleOptions systemAdminServer (optValue c.sub),
      ∃ t r, Gives sampleOptions g t r) ∧
    ∀ t, (getRolesByTenant sampleOptions (some systemAdminServer) (optValue c.sub)).has t = true ↔
      ∃ g ∈ groupsOf sampleOptions systemAdminServer (optValue c.sub),
        ∃ r, Gives sampleOptions g t r := by
  have hc : (loginAt systemAdminServer).response.body.session? = some systemAdminSession := by
    decide +kernel
  exact ⟨_, hc, session_usable_iff (Exchange.against_served ..) hc rfl rfl (loginAt_rolesFrom _)⟩

/-- The user is in a group of a tenant that lists its members by `memberUid`. -/
def posixServer : LdapServer where
  entries := [⟨"uid=ann,dc=fe", [("uid", ["ann"])]⟩,
    ⟨"cn=staff,ou=acme,ou=tenants,dc=fe", [("cn", ["staff"]), ("memberUid", ["ann"])]⟩]
  inSubtree base dn := base.toList.isSuffixOf dn.toList
  matchesFilter filter e :=
    if e.dn == "uid=ann,dc=fe" then filter == userFilter "ann" else mentions filter "(memberUid=ann)"
  succeeds _ _ := true
  bind dn password := dn == "uid=ann,dc=fe" && password == "secret"

/-- **A login that works, and a session that does not.** The user belongs to the
tenant, and the session of the login may not act in it. -/
theorem not_session_usable :
    ¬ ∀ (S : LdapServer) (x : Exchange) (c : Claims), x.Served .refusing {} →
      x.response.body.session? = some c → c.svc = none → c.skid = none →
      RolesFrom sampleOptions S x.trace →
      getTenantsForUser sampleOptions (some S) (optValue c.sub) ≠ [] → Usable c := by
  intro h
  have hsession : ((loginAt posixServer).response.body.session?.map fun c =>
      (c.svc, c.skid, optValue c.sub, decide (Usable c))) = some (none, none, "ann", false) := by
    decide +kernel
  obtain ⟨c, hc, hfields⟩ := Option.map_eq_some_iff.mp hsession
  obtain ⟨hsvc, hskid, hsub, hnot⟩ : c.svc = none ∧ c.skid = none ∧ optValue c.sub = "ann" ∧
      decide (Usable c) = false := by
    simpa using hfields
  have htenants : getTenantsForUser sampleOptions (some posixServer) "ann" ≠ [] := by
    decide +kernel
  rw [← hsub] at htenants
  exact of_decide_eq_false hnot (h posixServer _ c (Exchange.against_served ..) hc hsvc hskid
    (loginAt_rolesFrom _) htenants)

end HttpBridge
