/-
# The directory

What `LDAPAuthenticator` computes from the answers of the directory server. A
server (`LdapServer`) holds entries and decides, as LDAP servers do, which of
them lie under a base and match a filter, which searches succeed and which
passwords bind; all of that is left open, so every result holds whatever the
directory contains. A connection that could not be made is `none`.

Two functions turn groups into roles. `getRolesByTenant` buckets the first
`cn` of every group by the tenant in its DN (`mem_getRolesByTenant`).
`collectTenantGroupRoles` searches the whole tenant base, widens the search
while it finds nothing, and takes the names of all groups found, lower-cased;
`extractRolesFromGroups` then drops the deployment roles.
-/
import HttpBridge.Policy

namespace HttpBridge

open Interact

structure LdapEntry where
  dn : String
  attrs : List (String × List String)
  deriving DecidableEq

/-- A bound connection: the directory as one server answers it. -/
structure LdapServer where
  entries : List LdapEntry
  inSubtree : (base dn : String) → Bool
  matchesFilter : (filter : String) → LdapEntry → Bool
  succeeds : (base filter : String) → Bool
  bind : (dn password : String) → Bool

/-- `ldap_search_s` with subtree scope. -/
def LdapServer.search (S : LdapServer) (base filter : String) : Option (List LdapEntry) :=
  if S.succeeds base filter then
    some (S.entries.filter fun e => S.inSubtree base e.dn && S.matchesFilter filter e)
  else none

/-- The only entry a search finds. -/
def LdapServer.searchOne (S : LdapServer) (base filter : String) : Option LdapEntry :=
  match S.search base filter with
  | some [e] => some e
  | _ => none

/-- What the authenticator is constructed with. -/
structure LdapOptions where
  ldapDomain : String := ""
  tenantBaseOption : String := ""
  userBaseOption : String := ""

/-- The tenant base: `ou=tenants` below the domain unless configured. -/
def LdapOptions.tenantBase (L : LdapOptions) : String :=
  if L.tenantBaseOption == "" then defaultTenantBase L.ldapDomain else L.tenantBaseOption

def LdapOptions.userBase (L : LdapOptions) : String :=
  if L.userBaseOption == "" then L.ldapDomain else L.userBaseOption

structure UserInfo where
  dn : String := ""
  userId : String := ""
  roles : List String := []
  tenant : String := ""
  authenticated : Bool := false
  deriving DecidableEq

/-! ### Reading entries -/

/-- `ldap_get_values_len`: attribute names are compared without case. -/
def LdapEntry.values (e : LdapEntry) (attr : String) : Option (List String) :=
  (e.attrs.find? fun a => lowered a.1 == lowered attr).map (·.2)

def LdapEntry.firstValue (e : LdapEntry) (attr : String) : String :=
  (((e.values attr).getD []).head?).getD ""

/-- RFC 4515 escaping of a value in a filter. -/
def escapeLdapFilterValue (s : String) : String :=
  String.ofList (s.toList.flatMap fun c =>
    if c = '*' then "\\2a".toList
    else if c = '(' then "\\28".toList
    else if c = ')' then "\\29".toList
    else if c = '\\' then "\\5c".toList
    else if c = '\x00' then "\\00".toList
    else [c])

/-- A login name is a uid or an email address. -/
def userFilter (username : String) : String :=
  "(|(uid=" ++ escapeLdapFilterValue username ++ ")(mail=" ++ escapeLdapFilterValue username ++ "))"

/-- `extractTenantFromUserDN`. -/
def extractTenantFromUserDN (userDn : String) : String :=
  match indexOf ",ou=".toList userDn.toList with
  | none => ""
  | some pos =>
    let rest := String.ofList (userDn.toList.drop (pos + 4))
    if ',' ∈ rest.toList then upTo '-' (upTo ',' rest) else ""

/-- The uid of a user's entry: its attribute, else that of its DN, else what
it was looked up by. -/
def resolveUid (e : LdapEntry) (displayId : String) : String :=
  let uid := e.firstValue "uid"
  let uid := if uid == "" then uidFromDN e.dn else uid
  if uid == "" then displayId else uid

/-- A role unless it is there already. -/
def addRole (roles : List String) (r : String) : List String :=
  if roles.contains r then roles else roles ++ [r]

def addRoles (roles names : List String) : List String := names.foldl addRole roles

theorem mem_addRole {roles : List String} {r r' : String} :
    r' ∈ addRole roles r ↔ r' ∈ roles ∨ r' = r := by
  unfold addRole
  split_ifs with h
  · refine ⟨.inl, ?_⟩
    rintro (h' | rfl)
    · exact h'
    · simpa using h
  · simp

theorem mem_addRoles {r : String} : ∀ {names roles : List String},
    r ∈ addRoles roles names ↔ r ∈ roles ∨ r ∈ names
  | [], roles => by simp [addRoles]
  | n :: names, roles => by
    have h : r ∈ addRoles (addRole roles n) names ↔ r ∈ addRole roles n ∨ r ∈ names := mem_addRoles
    rw [mem_addRole] at h
    rw [List.mem_cons, ← or_assoc]
    exact h

/-! ### Roles by tenant -/

/-- The tenant a group belongs to. -/
def LdapOptions.tenantOf (L : LdapOptions) (g : LdapEntry) : String :=
  tenantFromGroupDN g.dn L.tenantBase

/-- One group's role, put in its tenant's bucket. -/
def bucketRole (L : LdapOptions) (byTenant : RoleMap) (g : LdapEntry) : RoleMap :=
  let tenant := L.tenantOf g
  if tenant == "" then byTenant
  else
    let role := g.firstValue "cn"
    if role == "" then byTenant
    else byTenant.insert tenant (addRole ((byTenant.find tenant).getD []) role)

def groupOfNamesFilter (userDn : String) : String :=
  "(&(objectClass=groupOfNames)(member=" ++ userDn ++ "))"

/-- The groups `getRolesByTenant` reads for a user. -/
def groupsOf (L : LdapOptions) (S : LdapServer) (username : String) : List LdapEntry :=
  match S.searchOne L.userBase (userFilter username) with
  | none => []
  | some entry =>
    if entry.dn == "" then []
    else (S.search L.tenantBase (groupOfNamesFilter entry.dn)).getD []

/-- `getRolesByTenant`: the first `cn` of every group of the user, by tenant,
sorted. -/
def getRolesByTenant (L : LdapOptions) (ld : Option LdapServer) (username : String) : RoleMap :=
  match ld with
  | none => .empty
  | some S =>
    ((groupsOf L S username).foldl (bucketRole L) .empty).mapValues (·.insertionSort (· ≤ ·))

/-- A group that gives a role in a tenant. -/
def Gives (L : LdapOptions) (g : LdapEntry) (tenant role : String) : Prop :=
  L.tenantOf g = tenant ∧ g.firstValue "cn" = role ∧ tenant ≠ "" ∧ role ≠ ""

theorem bucketRole_of_gives {L : LdapOptions} {g : LdapEntry} {t r : String}
    (h : Gives L g t r) (m : RoleMap) :
    bucketRole L m g = m.insert t (addRole ((m.find t).getD []) r) := by
  obtain ⟨rfl, rfl, ht, hr⟩ := h
  simp [bucketRole, ht, hr]

theorem bucketRole_cases (L : LdapOptions) (m : RoleMap) (g : LdapEntry) :
    (bucketRole L m g = m ∧ ∀ t r, ¬ Gives L g t r) ∨
      Gives L g (L.tenantOf g) (g.firstValue "cn") := by
  by_cases ht : L.tenantOf g = ""
  · refine .inl ⟨by simp [bucketRole, ht], ?_⟩
    rintro t r ⟨rfl, -, h, -⟩
    exact h ht
  · by_cases hr : g.firstValue "cn" = ""
    · refine .inl ⟨by simp [bucketRole, ht, hr], ?_⟩
      rintro t r ⟨-, rfl, -, h⟩
      exact h hr
    · exact .inr ⟨rfl, rfl, ht, hr⟩

/-- A tenant's bucket after the groups: what it held and what they give. -/
theorem mem_find_foldl_bucketRole {L : LdapOptions} {t r : String} : ∀ {gs : List LdapEntry}
    {m : RoleMap}, (∃ rs, (gs.foldl (bucketRole L) m).find t = some rs ∧ r ∈ rs) ↔
      (∃ rs, m.find t = some rs ∧ r ∈ rs) ∨ ∃ g ∈ gs, Gives L g t r
  | [], m => by simp
  | g :: gs, m => by
    rw [List.foldl_cons]
    refine (mem_find_foldl_bucketRole (m := bucketRole L m g)).trans ?_
    simp only [List.mem_cons, exists_eq_or_imp]
    rw [← or_assoc]
    refine or_congr_left ?_
    rcases bucketRole_cases L m g with ⟨he, hno⟩ | hg
    · simp [he, hno]
    · rw [bucketRole_of_gives hg]
      by_cases ht : L.tenantOf g = t
      · subst ht
        simp only [OrdMap.find_insert, if_pos, Option.some.injEq, exists_eq_left', mem_addRole]
        refine or_congr ?_ ⟨fun h => h ▸ hg, fun h => h.2.1.symm⟩
        cases m.find (L.tenantOf g) <;> simp
      · simp only [OrdMap.find_insert, if_neg ht]
        exact (or_iff_left fun h => ht h.1).symm

/-- **The roles of a tenant.** They are the first `cn`s of the user's groups
whose DN names the tenant. -/
theorem mem_getRolesByTenant {L : LdapOptions} {ld : Option LdapServer} {u t r : String} :
    (∃ rs, (getRolesByTenant L ld u).find t = some rs ∧ r ∈ rs) ↔
      ∃ S, ld = some S ∧ ∃ g ∈ groupsOf L S u, Gives L g t r := by
  cases ld with
  | none => simp [getRolesByTenant]
  | some S =>
    have h : (∃ rs, ((groupsOf L S u).foldl (bucketRole L) .empty).find t = some rs ∧ r ∈ rs) ↔ _ :=
      mem_find_foldl_bucketRole
    simp only [OrdMap.find_empty, reduceCtorEq, false_and, exists_false, false_or] at h
    simp only [getRolesByTenant, OrdMap.find_mapValues, Option.some.injEq, exists_eq_left', ← h]
    constructor
    · rintro ⟨rs, hf, hr⟩
      obtain ⟨rs', hf', rfl⟩ := Option.map_eq_some_iff.mp hf
      exact ⟨rs', hf', (List.mem_insertionSort _).mp hr⟩
    · rintro ⟨rs, hf, hr⟩
      exact ⟨_, by rw [hf]; rfl, (List.mem_insertionSort _).mpr hr⟩

theorem has_foldl_bucketRole {L : LdapOptions} {t : String} : ∀ {gs : List LdapEntry}
    {m : RoleMap}, (gs.foldl (bucketRole L) m).has t = true ↔
      m.has t = true ∨ ∃ g ∈ gs, ∃ r, Gives L g t r
  | [], m => by simp
  | g :: gs, m => by
    have hrest : (gs.foldl (bucketRole L) (bucketRole L m g)).has t = true ↔
        (bucketRole L m g).has t = true ∨ ∃ g ∈ gs, ∃ r, Gives L g t r := has_foldl_bucketRole
    rw [List.foldl_cons, hrest]
    simp only [List.mem_cons, exists_eq_or_imp]
    rw [← or_assoc]
    refine or_congr_left ?_
    rcases bucketRole_cases L m g with ⟨he, hno⟩ | hg
    · rw [he]
      exact (or_iff_left fun ⟨r, hr⟩ => hno t r hr).symm
    · rw [bucketRole_of_gives hg, OrdMap.has_eq_true, OrdMap.find_insert]
      by_cases ht : L.tenantOf g = t
      · subst ht
        simp only [if_true]
        exact iff_of_true ⟨_, rfl⟩ (.inr ⟨_, hg⟩)
      · rw [if_neg ht, ← OrdMap.has_eq_true]
        exact (or_iff_left fun ⟨r, hr⟩ => ht hr.1).symm

/-- **The tenants with roles.** They are those that a group of the user gives a
role in. -/
theorem has_getRolesByTenant {L : LdapOptions} {S : LdapServer} {u t : String} :
    (getRolesByTenant L (some S) u).has t = true ↔ ∃ g ∈ groupsOf L S u, ∃ r, Gives L g t r := by
  have h : ((groupsOf L S u).foldl (bucketRole L) .empty).has t = true ↔ _ := has_foldl_bucketRole
  simp only [OrdMap.has_eq_true, OrdMap.find_empty, reduceCtorEq, exists_false, false_or] at h
  rw [OrdMap.has_eq_true, ← h]
  simp only [getRolesByTenant, OrdMap.find_mapValues, Option.map_eq_some_iff]
  constructor
  · rintro ⟨_, rs, hrs, -⟩
    exact ⟨rs, hrs⟩
  · rintro ⟨rs, hrs⟩
    exact ⟨_, rs, hrs, rfl⟩

/-! ### Tenants of a user -/

/-- `getTenantsForUser`: the tenants of all groups of any kind naming the user. -/
def getTenantsForUser (L : LdapOptions) (ld : Option LdapServer) (username : String) :
    List String :=
  match ld with
  | none => []
  | some S =>
    match S.searchOne L.userBase (userFilter username) with
    | none => []
    | some entry =>
      let uid := uidFromDN entry.dn
      if entry.dn == "" then []
      else
        let memberFilter := "(|(member=" ++ entry.dn ++ ")(uniqueMember=" ++ entry.dn ++
          ")(memberUid=" ++ (if uid == "" then username else uid) ++ "))"
        let found := (S.search L.tenantBase memberFilter).getD []
        (addRoles [] ((found.map L.tenantOf).filter (· != ""))).insertionSort (· ≤ ·)

/-! ### Roles of a Basic login -/

def roleAttributes : List String := ["cn", "ou", "name", "gid"]

/-- The role names in an entry's attributes. -/
def attributeRoles (e : LdapEntry) : List String :=
  e.attrs.flatMap fun a =>
    if roleAttributes.contains a.1 then
      ((e.values a.1).getD []).map fun v => lowered (cString v)
    else []

/-- The role name in an entry's DN: what follows `cn=`, wherever it stands. -/
def dnRoles (e : LdapEntry) : List String :=
  match indexOf "cn=".toList e.dn.toList with
  | none => []
  | some pos => [lowered (upTo ',' (String.ofList (e.dn.toList.drop (pos + 3))))]

/-- The user name the last search is made with. -/
def usernameOfDN (userDn : String) : String :=
  match indexOf "uid=".toList userDn.toList with
  | none => userDn
  | some pos => upTo ',' (String.ofList (userDn.toList.drop (pos + 4)))

/-- The role a group name stands for, added where the group is held. -/
def mapAlias (a : String × String) (roles : List String) : List String :=
  if roles.contains a.1 && !roles.contains a.2 then roles ++ [a.2] else roles

/-- The three searches, each wider than the last: the entries found and the
role names read from each. -/
def scopedGroups (L : LdapOptions) (S : LdapServer) (userDn : String) :
    List (LdapEntry × List String) :=
  ((S.search (roleSearchBase L.tenantBase L.ldapDomain) (groupOfNamesFilter userDn)).getD []).map
    fun e => (e, attributeRoles e)

def memberGroups (L : LdapOptions) (S : LdapServer) (userDn : String) :
    List (LdapEntry × List String) :=
  ((S.search L.tenantBase ("(member=" ++ userDn ++ ")")).getD []).map
    fun e => (e, dnRoles e ++ attributeRoles e)

def defaultTenantGroups (L : LdapOptions) (S : LdapServer) (userDn : String) :
    List (LdapEntry × List String) :=
  ((S.search ("ou=default,ou=tenants," ++ L.ldapDomain)
    ("(|(member=" ++ userDn ++ ")(uniqueMember=" ++ userDn ++ ")(memberUid=" ++
      usernameOfDN userDn ++ "))")).getD []).map
    fun e => (e, dnRoles e ++ attributeRoles e)

/-- `collectTenantGroupRoles`. -/
def collectTenantGroupRoles (L : LdapOptions) (S : LdapServer) (userDn : String) : List String :=
  if roleSearchBase L.tenantBase L.ldapDomain == "" then []
  else
    let roles := addRoles [] ((scopedGroups L S userDn).flatMap (·.2))
    let roles := if roles.isEmpty then addRoles roles ((memberGroups L S userDn).flatMap (·.2))
      else roles
    let roles := if roles.isEmpty then
      addRoles roles ((defaultTenantGroups L S userDn).flatMap (·.2)) else roles
    let roles := if roles.isEmpty then ["users"] else roles
    mapAlias ("erasure_admins", "erasure_admin") (mapAlias ("administrators", "tenant_admin") roles)

/-- The groups of a user that decide the roles, with the names read from each:
those of the first search that finds a name. -/
def readGroups (L : LdapOptions) (S : LdapServer) (userDn : String) :
    List (LdapEntry × List String) :=
  if roleSearchBase L.tenantBase L.ldapDomain == "" then []
  else if !((scopedGroups L S userDn).flatMap (·.2)).isEmpty then scopedGroups L S userDn
  else if !((memberGroups L S userDn).flatMap (·.2)).isEmpty then memberGroups L S userDn
  else defaultTenantGroups L S userDn

theorem mem_mapAlias {a : String × String} {roles : List String} {r : String} :
    r ∈ mapAlias a roles ↔ r ∈ roles ∨ (a.1 ∈ roles ∧ r = a.2) := by
  unfold mapAlias
  split_ifs with h
  · simp only [Bool.and_eq_true, List.contains_eq_mem, decide_eq_true_eq] at h
    simp [h.1]
  · refine ⟨.inl, ?_⟩
    rintro (h' | ⟨h₁, rfl⟩)
    · exact h'
    · simpa [h₁] using h

theorem isEmpty_addRoles (names : List String) : (addRoles [] names).isEmpty = names.isEmpty := by
  rw [Bool.eq_iff_iff, List.isEmpty_iff, List.isEmpty_iff, List.eq_nil_iff_forall_not_mem,
    List.eq_nil_iff_forall_not_mem]
  simp [mem_addRoles]

/-- The three searches come to the names of the groups read. -/
theorem collectTenantGroupRoles_eq {L : LdapOptions} {S : LdapServer} {dn : String}
    (hbase : roleSearchBase L.tenantBase L.ldapDomain ≠ "") :
    collectTenantGroupRoles L S dn =
      mapAlias ("erasure_admins", "erasure_admin") (mapAlias ("administrators", "tenant_admin")
        (if ((readGroups L S dn).flatMap (·.2)).isEmpty then ["users"]
          else addRoles [] ((readGroups L S dn).flatMap (·.2)))) := by
  have hnil : ∀ {names : List String}, names.isEmpty = true → addRoles [] names = [] := fun h =>
    List.isEmpty_iff.mp ((isEmpty_addRoles _).trans h)
  unfold collectTenantGroupRoles readGroups
  simp only [beq_iff_eq, hbase, if_false]
  cases h₁ : ((scopedGroups L S dn).flatMap (·.2)).isEmpty with
  | false => simp [isEmpty_addRoles, h₁]
  | true =>
    cases h₂ : ((memberGroups L S dn).flatMap (·.2)).isEmpty with
    | false => simp [hnil h₁, isEmpty_addRoles, h₂]
    | true =>
      simp only [hnil h₁, hnil h₂, List.isEmpty_nil, if_true, Bool.not_true, Bool.false_eq_true,
        if_false, isEmpty_addRoles]

/-- The roles collected are what the names read stand for, or `users`. -/
theorem mem_collectTenantGroupRoles {L : LdapOptions} {S : LdapServer} {dn r : String}
    (hbase : roleSearchBase L.tenantBase L.ldapDomain ≠ "") :
    r ∈ collectTenantGroupRoles L S dn ↔
      (((readGroups L S dn).flatMap (·.2)).isEmpty = true ∧ r = "users") ∨
        ∃ n ∈ (readGroups L S dn).flatMap (·.2), StandsFor n r := by
  rw [collectTenantGroupRoles_eq hbase, mem_mapAlias, mem_mapAlias, mem_mapAlias]
  generalize (readGroups L S dn).flatMap (·.2) = names
  cases names with
  | nil => simp
  | cons n names =>
    simp only [List.isEmpty_cons, Bool.false_eq_true, if_false, mem_addRoles, List.not_mem_nil,
      false_or, false_and, StandsFor, roleAliases]
    constructor
    · rintro ((h | ⟨h, rfl⟩) | ⟨h | ⟨-, h⟩, rfl⟩)
      · exact ⟨r, h, .inl rfl⟩
      · exact ⟨_, h, .inr (by simp)⟩
      · exact ⟨_, h, .inr (by simp)⟩
      · exact absurd h (by decide)
    · rintro ⟨n', h, rfl | ha⟩
      · exact .inl (.inl h)
      · simp only [List.mem_cons, Prod.mk.injEq, List.not_mem_nil, or_false] at ha
        rcases ha with ⟨rfl, rfl⟩ | ⟨rfl, rfl⟩
        · exact .inl (.inr ⟨h, rfl⟩)
        · exact .inr ⟨.inl h, rfl⟩

/-- Without a base to search there are no roles at all. -/
theorem collectTenantGroupRoles_of_no_base {L : LdapOptions} {S : LdapServer} {dn : String}
    (h : roleSearchBase L.tenantBase L.ldapDomain = "") : collectTenantGroupRoles L S dn = [] := by
  simp [collectTenantGroupRoles, h]

/-- `extractRolesFromGroups`: no deployment role comes out of it. -/
def extractRolesFromGroups (L : LdapOptions) (S : LdapServer) (userDn : String) : List String :=
  stripDeploymentRoles (collectTenantGroupRoles L S userDn)

theorem mem_extractRolesFromGroups {L : LdapOptions} {S : LdapServer} {dn r : String} :
    r ∈ extractRolesFromGroups L S dn ↔
      r ∈ collectTenantGroupRoles L S dn ∧ isDeploymentRole r = false := by
  simp [extractRolesFromGroups, stripDeploymentRoles]

theorem not_isDeploymentRole_of_mem_extract {L : LdapOptions} {S : LdapServer} {dn r : String}
    (h : r ∈ extractRolesFromGroups L S dn) : isDeploymentRole r = false :=
  (mem_extractRolesFromGroups.mp h).2

/-! ### Logging in -/

/-- `authenticateUser`: `ld` finds and binds the user, `adminLd` is the second
connection, on which the groups are searched. -/
def authenticateUser (L : LdapOptions) (ld adminLd : Option LdapServer)
    (username password : String) : UserInfo :=
  match ld with
  | none => {}
  | some S =>
    match S.searchOne L.userBase (userFilter username) with
    | none => {}
    | some entry =>
      if password == "" then {}
      else if !S.bind entry.dn password then {}
      else
        { dn := entry.dn
          userId := resolveUid entry username
          tenant := extractTenantFromUserDN entry.dn
          roles :=
            match adminLd with
            | some A => extractRolesFromGroups L A entry.dn
            | none => ["users"]
          authenticated := true }

theorem not_isDeploymentRole_of_mem_authenticateUser {L : LdapOptions}
    {ld adminLd : Option LdapServer} {user pass : String} :
    ∀ r ∈ (authenticateUser L ld adminLd user pass).roles, isDeploymentRole r = false := by
  unfold authenticateUser
  cases ld with
  | none => simp
  | some S =>
    dsimp only
    split
    · simp
    · split_ifs
      · simp
      · simp
      · cases adminLd with
        | none =>
          intro r hr
          obtain rfl : r = "users" := by simpa using hr
          decide
        | some A => exact fun r => not_isDeploymentRole_of_mem_extract

/-- `getUserInfoByEmail`. -/
def getUserInfoByEmail (L : LdapOptions) (ld : Option LdapServer) (email : String) : UserInfo :=
  match ld with
  | none => {}
  | some S =>
    match S.searchOne L.userBase ("(mail=" ++ escapeLdapFilterValue email ++ ")") with
    | none => {}
    | some entry =>
      { dn := entry.dn
        userId := resolveUid entry email
        tenant := extractTenantFromUserDN entry.dn
        roles := extractRolesFromGroups L S entry.dn
        authenticated := resolveUid entry email != "" }

end HttpBridge
