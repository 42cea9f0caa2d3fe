/-
# The roles in force

Groups become roles in two places: `effectiveRoles` (`http_server.cpp`) expands
the roles of a session on every request, and the end of
`collectTenantGroupRoles` (`ldap_authenticator.cpp`) adds the same roles once, at
a password login (`loginMap`).

What `effectiveRoles` lists is the closure of the nonempty names under the
aliases (`mem_effectiveRoles_iff`), so that the laws of a closure operator are its
laws, and a mapping that adds nothing from outside the closure is not seen in its
result. `effectiveRoles_mapAliases_iff` says exactly which tables a login may
apply for that.
-/
import HttpBridge.Effects
import HttpBridge.Interact.Closing
import Mathlib.Data.String.Basic

namespace HttpBridge

open Interact

/-- What a set of names comes to under the aliases. -/
def aliasClosure : ClosureOperator (Set String) :=
  closing StandsFor (fun _ => .inl rfl) fun _ _ _ => StandsFor.trans

/-- The nonempty names of a list. -/
def named (roles : List String) : Set String := {r | r ∈ roles ∧ r ≠ ""}

theorem mem_effectiveRoles_iff {roles : List String} {r : String} :
    r ∈ effectiveRoles roles ↔ r ∈ aliasClosure (named roles) := by
  rw [mem_effectiveRoles]
  constructor
  · rintro ⟨n, hn, hne, h⟩
    exact ⟨n, ⟨hn, hne⟩, h⟩
  · rintro ⟨n, ⟨hn, hne⟩, h⟩
    exact ⟨n, hn, hne, h⟩

theorem effectiveRoles_strict (roles : List String) : (effectiveRoles roles).Pairwise (· < ·) :=
  strict_dedup_insertionSort _

/-- The closure determines the list. -/
theorem effectiveRoles_eq_iff {roles roles' : List String} :
    effectiveRoles roles = effectiveRoles roles' ↔
      aliasClosure (named roles) = aliasClosure (named roles') := by
  constructor
  · intro h
    ext r
    rw [← mem_effectiveRoles_iff, ← mem_effectiveRoles_iff, h]
  · intro h
    apply (effectiveRoles_strict roles).eq_of_mem_iff (effectiveRoles_strict roles')
    intro r
    rw [mem_effectiveRoles_iff, mem_effectiveRoles_iff, h]

theorem named_mono {roles roles' : List String} (h : roles ⊆ roles') : named roles ⊆ named roles' :=
  fun _ hr => ⟨h hr.1, hr.2⟩

/-- No alias derives the empty role, so what is listed is named. -/
theorem named_effectiveRoles (roles : List String) :
    named (effectiveRoles roles) = aliasClosure (named roles) := by
  have hne : ∀ a ∈ roleAliases, a.2 ≠ "" := by decide
  ext r
  refine ⟨fun hr => mem_effectiveRoles_iff.mp hr.1, fun hr => ⟨mem_effectiveRoles_iff.mpr hr, ?_⟩⟩
  obtain ⟨n, hn, rfl | ha⟩ := hr
  · exact hn.2
  · exact hne _ ha

theorem effectiveRoles_mono {roles roles' : List String} (h : roles ⊆ roles') :
    effectiveRoles roles ⊆ effectiveRoles roles' := by
  intro r hr
  rw [mem_effectiveRoles_iff] at hr ⊢
  exact aliasClosure.monotone (named_mono h) hr

theorem effectiveRoles_congr {roles roles' : List String} (h : ∀ r, r ∈ roles ↔ r ∈ roles') :
    effectiveRoles roles = effectiveRoles roles' := by
  rw [effectiveRoles_eq_iff]
  congr 1
  ext r
  exact and_congr_left fun _ => h r

theorem effectiveRoles_idem (roles : List String) :
    effectiveRoles (effectiveRoles roles) = effectiveRoles roles := by
  rw [effectiveRoles_eq_iff, named_effectiveRoles]
  exact aliasClosure.idempotent _

/-! ### Mapping at login -/

/-- The aliases of a table, mapped one after the other. -/
def mapAliases (table : List (String × String)) (roles : List String) : List String :=
  table.foldl (fun roles a => mapAlias a roles) roles

/-- The aliases `collectTenantGroupRoles` maps, in its order. -/
def loginAliases : List (String × String) :=
  [("administrators", "tenant_admin"), ("erasure_admins", "erasure_admin")]

/-- The end of `collectTenantGroupRoles`. -/
def loginMap (roles : List String) : List String := mapAliases loginAliases roles

/-- An alias that requests expand as well, or that maps to no role. -/
def Agrees (a : String × String) : Prop := a.2 = "" ∨ (a.1 ≠ "" ∧ StandsFor a.1 a.2)

theorem effectiveRoles_mapAlias {a : String × String} (ha : Agrees a) (roles : List String) :
    effectiveRoles (mapAlias a roles) = effectiveRoles roles := by
  rw [effectiveRoles_eq_iff]
  apply closure_eq_of_between aliasClosure
  · exact fun r hr => ⟨mem_mapAlias.mpr (.inl hr.1), hr.2⟩
  · rintro r ⟨hr, hne⟩
    rcases mem_mapAlias.mp hr with hr | ⟨hg, rfl⟩
    · exact aliasClosure.le_closure _ ⟨hr, hne⟩
    · obtain ⟨hg', h⟩ := ha.resolve_left hne
      exact ⟨a.1, ⟨hg, hg'⟩, h⟩

theorem subset_mapAliases : ∀ (table : List (String × String)) (roles : List String),
    roles ⊆ mapAliases table roles
  | [], roles => List.Subset.refl roles
  | a :: table, roles => by
    have h : mapAlias a roles ⊆ mapAliases table (mapAlias a roles) := subset_mapAliases table _
    exact fun r hr => h (mem_mapAlias.mpr (.inl hr))

/-- What is mapped is added where the group is held. -/
theorem mem_mapAliases_of_mem {a : String × String} : ∀ {table : List (String × String)}
    {roles : List String}, a ∈ table → a.1 ∈ roles → a.2 ∈ mapAliases table roles
  | b :: table, roles, ha, hr => by
    rcases List.mem_cons.mp ha with rfl | ha
    · have h : a.2 ∈ mapAlias a roles := mem_mapAlias.mpr (.inr ⟨hr, rfl⟩)
      exact subset_mapAliases table _ h
    · have h : a.1 ∈ mapAlias b roles := mem_mapAlias.mpr (.inl hr)
      have hrest : a.2 ∈ mapAliases table (mapAlias b roles) := mem_mapAliases_of_mem ha h
      exact hrest

theorem effectiveRoles_mapAliases : ∀ {table : List (String × String)}, (∀ a ∈ table, Agrees a) →
    ∀ roles, effectiveRoles (mapAliases table roles) = effectiveRoles roles
  | [], _, _ => rfl
  | a :: table, h, roles => by
    calc effectiveRoles (mapAliases table (mapAlias a roles))
        = effectiveRoles (mapAlias a roles) :=
          effectiveRoles_mapAliases (fun b hb => h b (.tail _ hb)) _
      _ = effectiveRoles roles := effectiveRoles_mapAlias (h a (.head _)) roles

/-- **When two tables agree.** A login may map the aliases that requests expand,
and no others. -/
theorem effectiveRoles_mapAliases_iff {table : List (String × String)} :
    (∀ roles, effectiveRoles (mapAliases table roles) = effectiveRoles roles) ↔
      ∀ a ∈ table, Agrees a := by
  refine ⟨fun h a ha => ?_, effectiveRoles_mapAliases⟩
  by_cases hne : a.2 = ""
  · exact .inl hne
  · -- the group alone, mapped, has the role in force; then it is in force without
    have hmem : a.2 ∈ effectiveRoles (mapAliases table [a.1]) := by
      rw [mem_effectiveRoles]
      exact ⟨a.2, mem_mapAliases_of_mem ha (List.mem_singleton_self _), hne, .inl rfl⟩
    rw [h, mem_effectiveRoles] at hmem
    obtain ⟨n, hn, hn', hs⟩ := hmem
    obtain rfl := List.mem_singleton.mp hn
    exact .inr ⟨hn', hs⟩

theorem loginAliases_agree : ∀ a ∈ loginAliases, Agrees a := by
  have h : ∀ a ∈ loginAliases, a.1 ≠ "" ∧ a ∈ roleAliases := by decide
  exact fun a ha => .inr ⟨(h a ha).1, .inr (h a ha).2⟩

theorem effectiveRoles_loginMap (roles : List String) :
    effectiveRoles (loginMap roles) = effectiveRoles roles :=
  effectiveRoles_mapAliases loginAliases_agree roles

/-- **The roles in force are a closure, and the two tables agree.** -/
theorem effectiveRoles_closure_and_agreement :
    (∀ roles, ∀ r ∈ roles, r ≠ "" → r ∈ effectiveRoles roles) ∧
    (∀ roles roles', roles ⊆ roles' → effectiveRoles roles ⊆ effectiveRoles roles') ∧
    (∀ roles, effectiveRoles (effectiveRoles roles) = effectiveRoles roles) ∧
    (∀ roles roles', (∀ r, r ∈ roles ↔ r ∈ roles') → effectiveRoles roles = effectiveRoles roles') ∧
    (∀ roles, (effectiveRoles roles).Pairwise (· < ·)) ∧
    ∀ roles, effectiveRoles (loginMap roles) = effectiveRoles roles := by
  refine ⟨fun roles r hr hne => ?_, fun _ _ => effectiveRoles_mono, effectiveRoles_idem,
    fun _ _ => effectiveRoles_congr, effectiveRoles_strict, effectiveRoles_loginMap⟩
  exact mem_effectiveRoles.mpr ⟨r, hr, hne, .inl rfl⟩

/-! ### The roles of a password login -/

/-- The names of the groups read, before any alias is mapped. -/
def groupNames (L : LdapOptions) (S : LdapServer) (userDn : String) : List String :=
  let names := (readGroups L S userDn).flatMap (·.2)
  if names.isEmpty then ["users"] else addRoles [] names

/-- They are mapped at the end. -/
theorem collectTenantGroupRoles_eq_loginMap {L : LdapOptions} {S : LdapServer} {dn : String}
    (hbase : roleSearchBase L.tenantBase L.ldapDomain ≠ "") :
    collectTenantGroupRoles L S dn = loginMap (groupNames L S dn) :=
  collectTenantGroupRoles_eq hbase

theorem mem_stripDeploymentRoles {roles : List String} {r : String} :
    r ∈ stripDeploymentRoles roles ↔ r ∈ roles ∧ isDeploymentRole r = false := by
  simp [stripDeploymentRoles]

/-- An alias outside the deployment namespace on both sides is mapped before or
after the deployment roles are dropped. -/
theorem mem_stripDeploymentRoles_mapAlias {a : String × String} (h₁ : isDeploymentRole a.1 = false)
    (h₂ : isDeploymentRole a.2 = false) {roles : List String} {r : String} :
    r ∈ stripDeploymentRoles (mapAlias a roles) ↔ r ∈ mapAlias a (stripDeploymentRoles roles) := by
  rw [mem_stripDeploymentRoles, mem_mapAlias, mem_mapAlias, mem_stripDeploymentRoles,
    mem_stripDeploymentRoles]
  constructor
  · rintro ⟨hr | ⟨hg, rfl⟩, hd⟩
    · exact .inl ⟨hr, hd⟩
    · exact .inr ⟨⟨hg, h₁⟩, rfl⟩
  · rintro (⟨hr, hd⟩ | ⟨⟨hg, -⟩, rfl⟩)
    · exact ⟨.inl hr, hd⟩
    · exact ⟨.inr ⟨hg, rfl⟩, h₂⟩

/-- Mapping does not tell lists with the same members apart. -/
theorem mem_mapAlias_congr {a : String × String} {roles roles' : List String}
    (h : ∀ r, r ∈ roles ↔ r ∈ roles') {r : String} :
    r ∈ mapAlias a roles ↔ r ∈ mapAlias a roles' := by
  rw [mem_mapAlias, mem_mapAlias, h, h]

theorem mem_stripDeploymentRoles_loginMap {roles : List String} {r : String} :
    r ∈ stripDeploymentRoles (loginMap roles) ↔ r ∈ loginMap (stripDeploymentRoles roles) := by
  have hout : ∀ a ∈ loginAliases, isDeploymentRole a.1 = false ∧ isDeploymentRole a.2 = false := by
    decide
  obtain ⟨h₁, h₂⟩ := hout _ (.head _)
  obtain ⟨h₃, h₄⟩ := hout _ (.tail _ (.head _))
  exact (mem_stripDeploymentRoles_mapAlias h₃ h₄).trans
    (mem_mapAlias_congr fun _ => mem_stripDeploymentRoles_mapAlias h₁ h₂)

/-- **Whichever door.** What a request carries to the core after a password
login is what it carries for a session that holds the names of the groups as
they are. -/
theorem fillAuth_extractRolesFromGroups {L : LdapOptions} {S : LdapServer} {dn : String}
    (hbase : roleSearchBase L.tenantBase L.ldapDomain ≠ "") (id : AuthIdentity) :
    fillAuth { id with roles := extractRolesFromGroups L S dn } =
      fillAuth { id with roles := stripDeploymentRoles (groupNames L S dn) } := by
  have hroles : effectiveRoles (extractRolesFromGroups L S dn) =
      effectiveRoles (stripDeploymentRoles (groupNames L S dn)) := by
    calc effectiveRoles (extractRolesFromGroups L S dn)
        = effectiveRoles (stripDeploymentRoles (loginMap (groupNames L S dn))) := by
          rw [extractRolesFromGroups, collectTenantGroupRoles_eq_loginMap hbase]
      _ = effectiveRoles (loginMap (stripDeploymentRoles (groupNames L S dn))) :=
          effectiveRoles_congr fun _ => mem_stripDeploymentRoles_loginMap
      _ = effectiveRoles (stripDeploymentRoles (groupNames L S dn)) := effectiveRoles_loginMap _
  simp only [fillAuth, hroles]

end HttpBridge
