/-
# The directory through libldap

`ldap_authenticator.cpp` as programs over the functions of libldap: what is
opened, walked through and freed on each path. `Directory` says what is computed
from the answers of a server; here are the calls that get them.

An entry points into the result that holds it, and everything else that a
function returns is an object of its own, which the caller has to free: a
connection, a result, a text, an array of values, a position among the attributes.
A search that fails may give a result as well. `libldap` says what each function
needs and what it may answer: anything at all, or, if the library is `honest`,
what the servers of the endpoints say.

The walks are bounded by `n`, and being stuck at the bound is an operation that
nothing allows.

Key definitions: `connectToLDAP`, `authenticateUser`, `collectTenantGroupRoles`,
`Call`, `libldap`.
-/
import HttpBridge.DirectoryFilters
import HttpBridge.Failover
import HttpBridge.Interact.Wp

namespace HttpBridge
namespace Ldap

open Interact

/-! ### libldap -/

/-- An entry in the result at an address. -/
structure EntryPtr where
  result : ℕ
  index : ℕ
  deriving DecidableEq

/-- What `ldap_search_s` gives: `*res` is set if the search succeeds, and may be
if it fails. -/
inductive Found where
  | success (result : ℕ)
  | failure (result : Option ℕ)

inductive LdapOp where
  /-- The clock of the breaker. -/
  | now
  | ldapInitialize (endpoint : String)
  | setVersion (ld : ℕ)
  | saslBind (ld : ℕ) (dn cred : String)
  | search (ld : ℕ) (base filter : String) (attrs : List String)
  | countEntries (ld result : ℕ)
  | firstEntry (ld result : ℕ)
  | nextEntry (ld : ℕ) (e : EntryPtr)
  | getDn (ld : ℕ) (e : EntryPtr)
  | getValuesLen (ld : ℕ) (e : EntryPtr) (attr : String)
  | firstAttribute (ld : ℕ) (e : EntryPtr)
  | nextAttribute (ld : ℕ) (e : EntryPtr) (ber : Option ℕ)
  /-- The text at an address. -/
  | text (p : ℕ)
  /-- The values at an address. -/
  | values (p : ℕ)
  | memfree (p : ℕ)
  | valueFreeLen (p : ℕ)
  | berFree (p : ℕ)
  | msgfree (result : ℕ)
  | unbind (ld : ℕ)
  /-- A walk has not ended in time. -/
  | stuck

/-- What they return: an object by its address, or null. -/
abbrev LdapOp.Ans : LdapOp → Type
  | .now => ℚ
  | .ldapInitialize _ => Option ℕ
  | .saslBind .. => Bool
  | .search .. => Found
  | .countEntries .. => ℕ
  | .firstEntry .. | .nextEntry .. => Option EntryPtr
  | .getDn .. | .getValuesLen .. | .nextAttribute .. => Option ℕ
  -- the first attribute, and `ber`
  | .firstAttribute .. => Option ℕ × Option ℕ
  | .text _ => String
  | .values _ => List String
  | .setVersion _ | .memfree _ | .valueFreeLen _ | .berFree _ | .msgfree _ | .unbind _ => Unit
  | .stuck => Empty

abbrev Libldap (α : Type) := Prog LdapOp LdapOp.Ans α

section Functions

abbrev now : Libldap ℚ := Prog.perform LdapOp.now

abbrev ldapInitialize (endpoint : String) : Libldap (Option ℕ) :=
  Prog.perform (LdapOp.ldapInitialize endpoint)

abbrev setVersion (ld : ℕ) : Libldap Unit := Prog.perform (LdapOp.setVersion ld)

abbrev saslBind (ld : ℕ) (dn cred : String) : Libldap Bool := Prog.perform (LdapOp.saslBind ld dn cred)

abbrev search (ld : ℕ) (base filter : String) (attrs : List String) : Libldap Found :=
  Prog.perform (LdapOp.search ld base filter attrs)

abbrev countEntries (ld result : ℕ) : Libldap ℕ := Prog.perform (LdapOp.countEntries ld result)

abbrev firstEntry (ld result : ℕ) : Libldap (Option EntryPtr) := Prog.perform (LdapOp.firstEntry ld result)

abbrev nextEntry (ld : ℕ) (e : EntryPtr) : Libldap (Option EntryPtr) := Prog.perform (LdapOp.nextEntry ld e)

abbrev getDn (ld : ℕ) (e : EntryPtr) : Libldap (Option ℕ) := Prog.perform (LdapOp.getDn ld e)

abbrev getValuesLen (ld : ℕ) (e : EntryPtr) (attr : String) : Libldap (Option ℕ) :=
  Prog.perform (LdapOp.getValuesLen ld e attr)

abbrev firstAttribute (ld : ℕ) (e : EntryPtr) : Libldap (Option ℕ × Option ℕ) :=
  Prog.perform (LdapOp.firstAttribute ld e)

abbrev nextAttribute (ld : ℕ) (e : EntryPtr) (ber : Option ℕ) : Libldap (Option ℕ) :=
  Prog.perform (LdapOp.nextAttribute ld e ber)

abbrev text (p : ℕ) : Libldap String := Prog.perform (LdapOp.text p)

abbrev values (p : ℕ) : Libldap (List String) := Prog.perform (LdapOp.values p)

abbrev memfree (p : ℕ) : Libldap Unit := Prog.perform (LdapOp.memfree p)

abbrev valueFreeLen (p : ℕ) : Libldap Unit := Prog.perform (LdapOp.valueFreeLen p)

abbrev berFree (p : ℕ) : Libldap Unit := Prog.perform (LdapOp.berFree p)

abbrev msgfree (result : ℕ) : Libldap Unit := Prog.perform (LdapOp.msgfree result)

abbrev unbind (ld : ℕ) : Libldap Unit := Prog.perform (LdapOp.unbind ld)

def stuck {σ : Type} : Libldap σ := .call .stuck nofun

end Functions

/-! ### The connection -/

/-- What the authenticator is constructed with. -/
structure Authenticator extends LdapOptions where
  ldapEndpoint : String := "ldap://localhost:1389"
  replicaEndpoint : String := ""
  bindDn : String := ""
  bindPassword : String := ""

section Connection

variable (A : Authenticator)

def connectToEndpoint (endpoint : String) : Libldap (Option ℕ) := do
  match ← ldapInitialize endpoint with
  | none => return none
  | some ld =>
    setVersion ld
    let bound ← saslBind ld A.bindDn A.bindPassword
    if bound then return some ld
    else
      unbind ld
      return none

/-- With the `breaker_` that it finds and leaves. -/
def connectToLDAP (b : CircuitBreaker) : Libldap (CircuitBreaker × Option ℕ) :=
  if A.replicaEndpoint == "" then do
    let ld ← connectToEndpoint A A.ldapEndpoint
    return (b, ld)
  else do
    let t ← now
    if b.shouldTryPrimary t then
      match ← connectToEndpoint A A.ldapEndpoint with
      | some ld => return (b.reset, some ld)
      | none =>
        let t ← now
        let ld ← connectToEndpoint A A.replicaEndpoint
        return (b.trip t, ld)
    else
      let ld ← connectToEndpoint A A.replicaEndpoint
      return (b, ld)

/-- What is done over a connection, which is closed in the end; `failed` where
there is none. -/
def withConnection {α : Type} (b : CircuitBreaker) (failed : α) (p : ℕ → Libldap α) :
    Libldap (CircuitBreaker × α) := do
  let (b, ld) ← connectToLDAP A b
  match ld with
  | none => return (b, failed)
  | some ld =>
    let a ← p ld
    unbind ld
    return (b, a)

end Connection

/-! ### Reading entries -/

section Entries

variable (ld : ℕ) (e : EntryPtr)

/-- The DN, if it can be had. -/
def dnText : Libldap (Option String) := do
  match ← getDn ld e with
  | none => return none
  | some p =>
    let dn ← text p
    memfree p
    return some dn

/-- The first value of an attribute; empty if there is none. -/
def firstValue (attr : String) : Libldap String := do
  match ← getValuesLen ld e attr with
  | none => return ""
  | some p =>
    let vs ← values p
    valueFreeLen p
    return vs.head?.getD ""

/-- The uid of a user's entry, whose DN is known. -/
def uidOf (dn displayId : String) : Libldap String := do
  let uid ← firstValue ld e "uid"
  let uid := if uid == "" then uidFromDN dn else uid
  return if uid == "" then displayId else uid

/-- The uid that `searchUsers` lists. -/
def uidOrDn : Libldap String := do
  let uid ← firstValue ld e "uid"
  if uid == "" then
    let dn ← dnText ld e
    return (dn.map uidFromDN).getD ""
  else return uid

/-- The role names under one attribute. -/
def rolesUnder (roles : List String) (p : ℕ) : Libldap (List String) := do
  let attr ← text p
  if roleAttributes.contains attr then
    match ← getValuesLen ld e attr with
    | none => return roles
    | some p =>
      let vs ← values p
      valueFreeLen p
      return addRoles roles (vs.map fun v => lowered (cString v))
  else return roles

variable (n : ℕ)

/-- The role names in the attributes. -/
def attributeWalk (roles : List String) : Libldap (List String) := do
  let (attr, ber) ← firstAttribute ld e
  let roles ← Prog.loop stuck (fun _ => true) (rolesUnder ld e)
    (fun p => do
      let next ← nextAttribute ld e ber
      memfree p
      return next) n attr roles
  match ber with
  | none => return roles
  | some ber =>
    berFree ber
    return roles

/-- A walk through the entries of a result. -/
def forEntries {σ : Type} (result : ℕ) (go : σ → Bool) (body : σ → EntryPtr → Libldap σ) (s : σ) :
    Libldap σ := do
  let e ← firstEntry ld result
  Prog.loop stuck go body (nextEntry ld) n e s

/-- What is done about a search that failed where its result is not forgotten. -/
def release : Option ℕ → Libldap Unit
  | none => return ()
  | some result => msgfree result

/-- A search for many, whose result is freed; `failed` where it fails. -/
def searchAll {σ : Type} (base filter : String) (attrs : List String) (failed : σ)
    (walk : ℕ → Libldap σ) : Libldap σ := do
  match ← search ld base filter attrs with
  | .failure result =>
    release result
    return failed
  | .success result =>
    let s ← walk result
    msgfree result
    return s

end Entries

/-! ### Roles -/

section Roles

variable (A : Authenticator) (n : ℕ) (ld : ℕ) (userDn : String)

/-- The search that `collectTenantGroupRoles` begins with. -/
def scopedRoles (base : String) : Libldap (List String) :=
  searchAll ld base (groupOfNamesFilter userDn) [] [] fun result => do
    let _ ← countEntries ld result
    forEntries ld n result (fun _ => true) (fun roles e => do
      -- the DN goes into the log
      let _ ← dnText ld e
      attributeWalk ld e n roles) []

/-- Another search, if no role has been found yet. It forgets the result of a
search that failed. -/
def widened (base filter : String) (roles : List String) : Libldap (List String) :=
  if !roles.isEmpty then return roles
  else do
    match ← search ld base filter [] with
    | .failure _ => return roles
    | .success result =>
      let _ ← countEntries ld result
      let roles ← forEntries ld n result (fun _ => true) (fun roles e => do
        let dn ← dnText ld e
        attributeWalk ld e n (addRoles roles ((dn.map fun dn => dnRoles ⟨dn, []⟩).getD []))) roles
      msgfree result
      return roles

def collectTenantGroupRoles : Libldap (List String) :=
  let base := roleSearchBase A.tenantBase A.ldapDomain
  if base == "" then return []
  else do
    let roles ← scopedRoles n ld userDn base
    let roles ← widened n ld A.tenantBase ("(member=" ++ userDn ++ ")") roles
    let roles ← widened n ld ("ou=default,ou=tenants," ++ A.ldapDomain)
      (memberFilter userDn (usernameOfDN userDn)) roles
    let roles := if roles.isEmpty then ["users"] else roles
    return mapAlias ("erasure_admins", "erasure_admin") (mapAlias ("administrators", "tenant_admin") roles)

def extractRolesFromGroups : Libldap (List String) := do
  let roles ← collectTenantGroupRoles A n ld userDn
  return stripDeploymentRoles roles

end Roles

/-! ### The calls -/

section Calls

variable (A : Authenticator) (n : ℕ)

/-- The only entry that a search finds, and its DN. A search that fails leaves its
result behind. -/
def withUser {α : Type} (ld : ℕ) (filter : String) (failed : α)
    (p : EntryPtr → (dn : ℕ) → Libldap α) : Libldap α := do
  match ← search ld A.userBase filter [] with
  | .failure _ => return failed
  | .success result =>
    let count ← countEntries ld result
    if count ≠ 1 then
      msgfree result
      return failed
    else
      match ← firstEntry ld result with
      | none =>
        msgfree result
        return failed
      | some e =>
        match ← getDn ld e with
        | none =>
          msgfree result
          return failed
        | some dn =>
          let a ← p e dn
          msgfree result
          return a

/-- The roles that `authenticateUser` finds with a connection of its own. -/
def rolesAsAdmin (b : CircuitBreaker) (userDn : String) : Libldap (CircuitBreaker × List String) :=
  withConnection A b ["users"] fun ld => extractRolesFromGroups A n ld userDn

def authenticateUser (b : CircuitBreaker) (username password : String) :
    Libldap (CircuitBreaker × UserInfo) := do
  let (b, ld) ← connectToLDAP A b
  match ld with
  | none => return (b, {})
  | some ld =>
    let x ← withUser A ld (userFilter username) (b, {}) fun e dn => do
      let userDn ← text dn
      memfree dn
      if password == "" then return (b, {})
      else
        let bound ← saslBind ld userDn password
        if !bound then return (b, {})
        else
          let uid ← uidOf ld e userDn username
          let (b, roles) ← rolesAsAdmin A n b userDn
          return (b, {
            dn := userDn
            userId := uid
            tenant := extractTenantFromUserDN userDn
            roles := roles
            authenticated := true })
    unbind ld
    return x

def searchUserByFilter (ld : ℕ) (filter displayId : String) : Libldap UserInfo :=
  withUser A ld filter {} fun e dn => do
    let userDn ← text dn
    let uid ← uidOf ld e userDn displayId
    let roles ← extractRolesFromGroups A n ld userDn
    memfree dn
    return {
      dn := userDn
      userId := uid
      tenant := extractTenantFromUserDN userDn
      roles := roles }

def getUserInfoByEmail (b : CircuitBreaker) (email : String) : Libldap (CircuitBreaker × UserInfo) :=
  withConnection A b {} fun ld => do
    let info ← searchUserByFilter A n ld (mailFilter email) email
    return { info with authenticated := info.userId != "" }

/-- The DN that `getTenantsForUser` and `getRolesByTenant` begin with; empty where
there is none. -/
def userDnOf (ld : ℕ) (username : String) : Libldap String :=
  searchAll ld A.userBase (userFilter username) [] "" fun result => do
    let count ← countEntries ld result
    if count ≠ 1 then return ""
    else
      match ← firstEntry ld result with
      | none => return ""
      | some e =>
        let dn ← dnText ld e
        return dn.getD ""

def getTenantsForUser (b : CircuitBreaker) (username : String) : Libldap (CircuitBreaker × List String) :=
  withConnection A b [] fun ld => do
    let userDn ← userDnOf A ld username
    if userDn == "" then return []
    else
      let tenants ← searchAll ld A.tenantBase (memberFilter userDn (memberUid username userDn)) [] []
        fun result => forEntries ld n result (fun _ => true) (fun tenants e => do
          let dn ← dnText ld e
          let tenant := (dn.map fun dn => tenantFromGroupDN dn A.tenantBase).getD ""
          return if tenant == "" then tenants else addRole tenants tenant) []
      return tenants.insertionSort (· ≤ ·)

def getRolesByTenant (b : CircuitBreaker) (username : String) : Libldap (CircuitBreaker × RoleMap) :=
  withConnection A b .empty fun ld => do
    let userDn ← userDnOf A ld username
    if userDn == "" then return .empty
    else
      let byTenant ← searchAll ld A.tenantBase (groupOfNamesFilter userDn) ["cn"] OrdMap.empty
        fun result => forEntries ld n result (fun _ => true) (fun (byTenant : RoleMap) e => do
          let dn ← dnText ld e
          let tenant := tenantFromGroupDN (dn.getD "") A.tenantBase
          if tenant == "" then return byTenant
          else
            let role ← firstValue ld e "cn"
            return if role == "" then byTenant
              else byTenant.insert tenant (addRole ((byTenant.find tenant).getD []) role)) OrdMap.empty
      return byTenant.mapValues (·.insertionSort (· ≤ ·))

def searchUsers (b : CircuitBreaker) (start : String) (limit : ℤ) : Libldap (CircuitBreaker × List String) :=
  let kMaxResults : ℤ := 50
  let cap := if 0 < limit && limit < kMaxResults then limit else kMaxResults
  withConnection A b [] fun ld => do
    let uids ← searchAll ld A.userBase (searchUsersFilter start) ["uid"] [] fun result =>
      forEntries ld n result (fun uids => decide (uids.length < cap)) (fun uids e => do
        let uid ← uidOrDn ld e
        return if uid == "" then uids else addRole uids uid) []
    return uids.insertionSort (· ≤ ·)

def searchRoles (b : CircuitBreaker) (tenant start : String) (limit : ℤ) :
    Libldap (CircuitBreaker × List String) :=
  let kMaxResults : ℤ := 100
  let cap := if 0 < limit && limit < kMaxResults then limit else kMaxResults
  if tenant == "" || A.tenantBase == "" then return (b, [])
  else withConnection A b [] fun ld => do
    let roles ← searchAll ld ("ou=" ++ tenant ++ "," ++ A.tenantBase) (searchRolesFilter start) ["cn"] []
      fun result => forEntries ld n result (fun roles => decide (roles.length < cap)) (fun roles e => do
        let cn ← firstValue ld e "cn"
        return if cn == "" then roles else addRole roles cn) []
    return roles.insertionSort (· ≤ ·)

inductive Call where
  | authenticateUser (username password : String)
  | getUserInfoByEmail (email : String)
  | getTenantsForUser (username : String)
  | getRolesByTenant (username : String)
  | searchUsers (start : String) (limit : ℤ)
  | searchRoles (tenant start : String) (limit : ℤ)

namespace Call

abbrev Ans : Call → Type
  | .authenticateUser .. | .getUserInfoByEmail _ => UserInfo
  | .getTenantsForUser _ | .searchUsers .. | .searchRoles .. => List String
  | .getRolesByTenant _ => RoleMap

/-- The call, with the `breaker_` that it finds and leaves. -/
def perform (b : CircuitBreaker) : (call : Call) → Libldap (CircuitBreaker × call.Ans)
  | .authenticateUser username password => Ldap.authenticateUser A n b username password
  | .getUserInfoByEmail email => Ldap.getUserInfoByEmail A n b email
  | .getTenantsForUser username => Ldap.getTenantsForUser A n b username
  | .getRolesByTenant username => Ldap.getRolesByTenant A n b username
  | .searchUsers start limit => Ldap.searchUsers A n b start limit
  | .searchRoles tenant start limit => Ldap.searchRoles A n b tenant start limit

end Call

end Calls

/-! ### The interface -/

/-- What an address points to. -/
inductive Obj where
  /-- A connection, and what it reaches. -/
  | ld (S : LdapServer)
  | result (entries : List LdapEntry)
  /-- The result of a search that failed. -/
  | failure
  | text (s : String)
  | values (vs : List String)
  /-- The names of the attributes left. -/
  | ber (attrs : List String)

/-- The objects that have not been freed. -/
abbrev Memory := ℕ → Option Obj

/-- An object is given, at an address where there is none. -/
abbrev Memory.put (m : Memory) (p : ℕ) (o : Obj) : Memory := Function.update m p (some o)

abbrev Memory.free (m : Memory) (p : ℕ) : Memory := Function.update m p none

/-- The attributes of an entry that were asked for: all of them if none is named. -/
def asked (attrs : List String) (e : LdapEntry) : LdapEntry :=
  if attrs.isEmpty then e
  else { e with attrs := e.attrs.filter fun a => attrs.any fun b => lowered a.1 == lowered b }

/-- A library: the servers at the endpoints, how long a result can be, and whether
it says what they say. -/
structure Library where
  net : String → LdapServer
  longest : ℕ
  honest : Bool

/-- The pointer is to the entry. -/
def Holds (m : Memory) (e : EntryPtr) (entry : LdapEntry) : Prop :=
  ∃ es, m e.result = some (.result es) ∧ es[e.index]? = some entry

/-- No result is longer, and none of its entries. -/
def Library.Fits (lib : Library) (es : List LdapEntry) : Prop :=
  es.length ≤ lib.longest ∧ ∀ e ∈ es, e.attrs.length ≤ lib.longest

/-- What a function may answer and leave. Any of them can fail, unless the library
is honest. -/
inductive Answers (lib : Library) (m : Memory) : (op : LdapOp) → op.Ans → Memory → Prop
  | now (t : ℚ) : Answers lib m .now t m
  | noConnection (endpoint : String) : Answers lib m (.ldapInitialize endpoint) none m
  | connection (endpoint : String) (ld : ℕ) (hnew : m ld = none) :
    Answers lib m (.ldapInitialize endpoint) (some ld) (m.put ld (.ld (lib.net endpoint)))
  | setVersion (ld : ℕ) : Answers lib m (.setVersion ld) () m
  | saslBind (ld : ℕ) (dn cred : String) (bound : Bool) (S : LdapServer) (h : m ld = some (.ld S))
      (hbound : lib.honest = true → bound = S.bind dn cred) :
    Answers lib m (.saslBind ld dn cred) bound m
  | success (ld : ℕ) (base filter : String) (attrs : List String) (result : ℕ) (es : List LdapEntry)
      (S : LdapServer) (h : m ld = some (.ld S)) (hnew : m result = none) (hfits : lib.Fits es)
      (hes : lib.honest = true → (S.search base filter).map (·.map (asked attrs)) = some es) :
    Answers lib m (.search ld base filter attrs) (.success result) (m.put result (.result es))
  | failure (ld : ℕ) (base filter : String) (attrs : List String) (S : LdapServer)
      (h : m ld = some (.ld S)) (hno : lib.honest = true → S.search base filter = none) :
    Answers lib m (.search ld base filter attrs) (.failure none) m
  | failureResult (ld : ℕ) (base filter : String) (attrs : List String) (result : ℕ) (S : LdapServer)
      (h : m ld = some (.ld S)) (hnew : m result = none)
      (hno : lib.honest = true → S.search base filter = none) :
    Answers lib m (.search ld base filter attrs) (.failure (some result)) (m.put result .failure)
  | countEntries (ld result : ℕ) (es : List LdapEntry) (h : m result = some (.result es)) :
    Answers lib m (.countEntries ld result) es.length m
  | firstEntry (ld result : ℕ) (es : List LdapEntry) (h : m result = some (.result es)) :
    Answers lib m (.firstEntry ld result) (if 0 < es.length then some ⟨result, 0⟩ else none) m
  | nextEntry (ld : ℕ) (e : EntryPtr) (es : List LdapEntry) (h : m e.result = some (.result es)) :
    Answers lib m (.nextEntry ld e)
      (if e.index + 1 < es.length then some ⟨e.result, e.index + 1⟩ else none) m
  | noDn (ld : ℕ) (e : EntryPtr) (hfails : lib.honest = false) : Answers lib m (.getDn ld e) none m
  | getDn (ld : ℕ) (e : EntryPtr) (entry : LdapEntry) (p : ℕ) (h : Holds m e entry) (hnew : m p = none) :
    Answers lib m (.getDn ld e) (some p) (m.put p (.text entry.dn))
  | noValues (ld : ℕ) (e : EntryPtr) (attr : String) (entry : LdapEntry) (h : Holds m e entry)
      (hno : lib.honest = true → entry.values attr = none) :
    Answers lib m (.getValuesLen ld e attr) none m
  | getValuesLen (ld : ℕ) (e : EntryPtr) (attr : String) (entry : LdapEntry) (vs : List String) (p : ℕ)
      (h : Holds m e entry) (hvs : entry.values attr = some vs) (hnew : m p = none) :
    Answers lib m (.getValuesLen ld e attr) (some p) (m.put p (.values vs))
  | noAttribute (ld : ℕ) (e : EntryPtr) (entry : LdapEntry) (h : Holds m e entry)
      (hno : lib.honest = true → entry.attrs = []) :
    Answers lib m (.firstAttribute ld e) (none, none) m
  | noAttributeBer (ld : ℕ) (e : EntryPtr) (entry : LdapEntry) (ber : ℕ) (h : Holds m e entry)
      (hnew : m ber = none) (hno : lib.honest = true → entry.attrs = []) :
    Answers lib m (.firstAttribute ld e) (none, some ber) (m.put ber (.ber []))
  | firstAttribute (ld : ℕ) (e : EntryPtr) (entry : LdapEntry) (a : String) (attrs : List String)
      (ber p : ℕ) (h : Holds m e entry) (hattrs : entry.attrs.map Prod.fst = a :: attrs)
      (hnew : m ber = none) (hnew' : m p = none) (hne : p ≠ ber) :
    Answers lib m (.firstAttribute ld e) (some p, some ber) ((m.put ber (.ber attrs)).put p (.text a))
  | lastAttribute (ld : ℕ) (e : EntryPtr) (ber : ℕ) (attrs : List String)
      (h : m ber = some (.ber attrs)) (hno : lib.honest = true → attrs = []) :
    Answers lib m (.nextAttribute ld e (some ber)) none m
  | nextAttribute (ld : ℕ) (e : EntryPtr) (ber : ℕ) (a : String) (attrs : List String) (p : ℕ)
      (h : m ber = some (.ber (a :: attrs))) (hnew : m p = none) :
    Answers lib m (.nextAttribute ld e (some ber)) (some p) ((m.put ber (.ber attrs)).put p (.text a))
  | text (p : ℕ) (s : String) (h : m p = some (.text s)) : Answers lib m (.text p) s m
  | values (p : ℕ) (vs : List String) (h : m p = some (.values vs)) : Answers lib m (.values p) vs m
  | memfree (p : ℕ) : Answers lib m (.memfree p) () (m.free p)
  | valueFreeLen (p : ℕ) : Answers lib m (.valueFreeLen p) () (m.free p)
  | berFree (p : ℕ) : Answers lib m (.berFree p) () (m.free p)
  | msgfree (result : ℕ) : Answers lib m (.msgfree result) () (m.free result)
  | unbind (ld : ℕ) : Answers lib m (.unbind ld) () (m.free ld)

/-- There is a connection at the address. -/
def Connected (m : Memory) (ld : ℕ) : Prop := ∃ S, m ld = some (.ld S)

/-- What must not be done: to touch an object that is not there any more, or to
free it as what it is not. -/
def Allowed (m : Memory) : LdapOp → Prop
  | .now | .ldapInitialize _ => True
  | .setVersion ld | .saslBind ld .. | .search ld .. | .unbind ld => Connected m ld
  | .countEntries ld result | .firstEntry ld result =>
    Connected m ld ∧ ∃ es, m result = some (.result es)
  | .nextEntry ld e | .getDn ld e | .getValuesLen ld e _ | .firstAttribute ld e =>
    Connected m ld ∧ ∃ entry, Holds m e entry
  | .nextAttribute ld e ber =>
    Connected m ld ∧ (∃ entry, Holds m e entry) ∧ ∃ p attrs, ber = some p ∧ m p = some (.ber attrs)
  | .text p | .memfree p => ∃ s, m p = some (.text s)
  | .values p | .valueFreeLen p => ∃ vs, m p = some (.values vs)
  | .berFree p => ∃ attrs, m p = some (.ber attrs)
  | .msgfree result => (∃ es, m result = some (.result es)) ∨ m result = some .failure
  | .stuck => False

def libldap (lib : Library) : Interface LdapOp LdapOp.Ans Memory where
  allows := Allowed
  answers := Answers lib

end Ldap
end HttpBridge
