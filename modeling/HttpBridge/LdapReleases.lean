/-
# What the directory calls free, and what they return

Every object that a call gets of libldap is freed once and not used afterwards,
whatever the library answers. The exceptions are results of failed searches:
`authenticateUser` and `getUserInfoByEmail` forget that of their first search and
those of the wider searches for roles. Nobody else forgets any (`calls_release`).

An honest library gives what `Directory` computes from the servers, and the breaker
goes the way of `Failover` (`calls_meet`). What the two searches for names list is
in `searches_list`.
-/
import HttpBridge.LdapHandles

namespace HttpBridge
namespace Ldap

open Interact

variable {lib : Library} {frees : String → Bool} {m : Memory} {l : List ℕ} {α β : Type}
  {Q : α → Memory × List ℕ → Prop} {ld : ℕ} {S : LdapServer}

/-! ### Roles -/

/-- What `authenticateUser` and `getUserInfoByEmail` free the failed results of:
the first search for roles. -/
def forgetful (filter : String) : Bool := startsWith "(&" filter

section Roles

variable {A : Authenticator} {n : ℕ} {userDn : String}

theorem foldl_addRoles {f : LdapEntry → List String} : ∀ (es : List LdapEntry) (roles : List String),
    es.foldl (fun roles e => addRoles roles (f e)) roles = addRoles roles (es.flatMap f)
  | [], _ => rfl
  | e :: es, roles => by
    rw [List.foldl_cons, foldl_addRoles es, List.flatMap_cons, addRoles_append]

/-- The whole of each entry was asked for. -/
theorem map_asked_nil (es : List LdapEntry) : es.map (asked []) = es := List.map_id es

/-- What a search that asks for whole entries found. -/
theorem found_whole {base filter : String} {es : List LdapEntry}
    (h : (S.search base filter).map (·.map (asked [])) = some es) : S.search base filter = some es := by
  obtain ⟨es', hes', rfl⟩ := Option.map_eq_some_iff.mp h
  rw [hes', map_asked_nil]

theorem scopedRoles_wp {base : String} (hlib : lib.longest ≤ n) (hld : m ld = some (.ld S))
    (hfrees : frees (groupOfNamesFilter userDn) = true) :
    (scopedRoles n ld userDn base).Wp (watched lib frees) (Keeps m l fun rs => lib.honest = true →
      rs = addRoles [] (((S.search base (groupOfNamesFilter userDn)).getD []).flatMap attributeRoles))
      (m, l) := by
  refine searchAll_wp hld hfrees (fun hno h => ?_) fun result es hnew hfits hes => ?_
  · rw [hno h]
    rfl
  have hld' := put_of_some hld hnew (o := .result es)
  refine wp_countEntries hld' (put_self m result _) ?_
  refine (forEntries_wp (fun roles e => addRoles roles (attributeRoles e)) hld'
    (put_self m result _) (hfits.1.trans hlib) (fun roles e entry he hmem => ?_) []).mono
    fun rs x hrs => ⟨hrs.1, fun h => ?_⟩
  · refine keeps_bind (dnText_wp hld' he) fun _ _ => attributeWalk_wp hld' he ((hfits.2 _ hmem).trans hlib)
  · rw [hrs.2 h, walked_true, foldl_addRoles, found_whole (hes h), Option.getD_some]

theorem widened_wp {base filter : String} {roles : List String} (hlib : lib.longest ≤ n)
    (hld : m ld = some (.ld S)) (hfrees : frees filter = false) :
    (widened n ld base filter roles).Wp (watched lib frees) (Leaves m l fun rs => lib.honest = true →
      rs = if roles.isEmpty then
          addRoles roles (((S.search base filter).getD []).flatMap fun e => dnRoles e ++ attributeRoles e)
        else roles) (m, l) := by
  have hfailed : (lib.honest = true → S.search base filter = none) → lib.honest = true →
      roles = if roles.isEmpty then
          addRoles roles (((S.search base filter).getD []).flatMap fun e => dnRoles e ++ attributeRoles e)
        else roles := by
    intro hno h
    rw [hno h]
    split_ifs <;> rfl
  refine .ite (fun hsome => ?_) fun hnone => ?_
  · refine Keeps.leaves ⟨rfl, fun _ => (if_neg ?_).symm⟩
    simpa using hsome
  have hempty : roles.isEmpty = true := by simpa using hnone
  refine wp_search hld (fun result es hnew hfits hes => ?_) (fun hno => Keeps.leaves ⟨rfl, hfailed hno⟩)
    fun result hnew hno => ?_
  · have hld' := put_of_some hld hnew (o := .result es)
    refine wp_countEntries hld' (put_self m result _) ?_
    refine keeps_bind (forEntries_wp
      (fun roles e => addRoles roles (dnRoles e ++ attributeRoles e)) hld'
      (put_self m result _) (hfits.1.trans hlib) (fun roles e entry he hmem => ?_) roles) fun rs hrs => ?_
    · refine keeps_bind (dnText_wp hld' he) fun dn hdn => ?_
      refine (attributeWalk_wp hld' he ((hfits.2 _ hmem).trans hlib)).mono fun rs x hrs => ⟨hrs.1, fun h => ?_⟩
      rw [hrs.2 h, hdn h, addRoles_append]
      rfl
    · refine wp_msgfree (.inl ⟨es, put_self m result _⟩) ?_
      rw [free_put hnew]
      refine Keeps.leaves ⟨rfl, fun h => ?_⟩
      rw [hrs h, walked_true, foldl_addRoles, found_whole (hes h), Option.getD_some, if_pos hempty]
  · rw [put_failure, hfrees, if_neg Bool.false_ne_true]
    refine ⟨[result], fun p hp => ?_, rfl, hfailed hno⟩
    rw [List.mem_singleton.mp hp]
    exact hnew

theorem flatMap_snd {f : LdapEntry → List String} (es : List LdapEntry) :
    (es.map fun e => (e, f e)).flatMap (·.2) = es.flatMap f := List.flatMap_map ..

theorem forgetful_groupOfNamesFilter : forgetful (groupOfNamesFilter userDn) = true := by
  unfold forgetful startsWith groupOfNamesFilter
  rw [String.toList_append, String.toList_append]
  rfl

theorem not_forgetful_memberEquals : forgetful ("(member=" ++ userDn ++ ")") = false := by
  simp [forgetful, startsWith, List.isPrefixOf]

theorem not_forgetful_memberFilter {uid : String} : forgetful (memberFilter userDn uid) = false := by
  simp [forgetful, startsWith, List.isPrefixOf, memberFilter]

theorem not_forgetful_userFilter {username : String} : forgetful (userFilter username) = false := by
  simp [forgetful, startsWith, List.isPrefixOf, userFilter]

theorem not_forgetful_mailFilter {email : String} : forgetful (mailFilter email) = false := by
  simp [forgetful, startsWith, List.isPrefixOf, mailFilter]

theorem collectTenantGroupRoles_wp (hlib : lib.longest ≤ n) (hld : m ld = some (.ld S)) :
    (collectTenantGroupRoles A n ld userDn).Wp (watched lib forgetful) (Leaves m l fun rs =>
      lib.honest = true → rs = HttpBridge.collectTenantGroupRoles A.toLdapOptions S userDn) (m, l) := by
  refine .ite (fun hbase => Keeps.leaves ⟨rfl, fun _ => ?_⟩) fun hbase => ?_
  · rw [HttpBridge.collectTenantGroupRoles, if_pos hbase]
  refine keeps_bind (scopedRoles_wp hlib hld forgetful_groupOfNamesFilter) fun rs₁ h₁ => ?_
  refine leaves_bind (widened_wp hlib hld not_forgetful_memberEquals) fun rs₂ x₂ h₂ hx₂ => ?_
  have hld₂ := hx₂.of_some hld
  refine leaves_bind (widened_wp hlib hld₂ not_forgetful_memberFilter) fun rs₃ x₃ h₃ _ => ?_
  refine Keeps.leaves ⟨rfl, fun h => ?_⟩
  rw [HttpBridge.collectTenantGroupRoles, if_neg hbase, scopedGroups, memberGroups, defaultTenantGroups,
    flatMap_snd, flatMap_snd, flatMap_snd, h₃ h, h₂ h, h₁ h]
  rfl

theorem extractRolesFromGroups_wp (hlib : lib.longest ≤ n) (hld : m ld = some (.ld S)) :
    (extractRolesFromGroups A n ld userDn).Wp (watched lib forgetful) (Leaves m l fun rs =>
      lib.honest = true → rs = HttpBridge.extractRolesFromGroups A.toLdapOptions S userDn) (m, l) := by
  refine leaves_bind (collectTenantGroupRoles_wp hlib hld) fun rs x hrs _ => ?_
  refine Keeps.leaves ⟨rfl, fun h => ?_⟩
  rw [hrs h]
  rfl

end Roles

/-! ### The connection -/

/-- What an endpoint reaches. -/
def Authenticator.server (A : Authenticator) (lib : Library) : Endpoint → LdapServer
  | .master => lib.net A.ldapEndpoint
  | .replica => lib.net A.replicaEndpoint

/-- There is a connection to the server, and nothing else that was not there
before; or nothing at all. -/
def Opened (m : Memory) (l : List ℕ) (x : Memory × List ℕ) : Option LdapServer → Option ℕ → Prop
  | none, none => x = (m, l)
  | some S, some ld => m ld = none ∧ x = (m.put ld (.ld S), l)
  | _, _ => False

section Connection

variable {A : Authenticator} {b : CircuitBreaker}

theorem connectToEndpoint_wp {endpoint : String} :
    (connectToEndpoint A endpoint).Wp (watched lib frees)
      (fun ld x => ∃ up : Bool, Opened m l x (if up then some (lib.net endpoint) else none) ld) (m, l) := by
  refine wp_ldapInitialize ⟨false, rfl⟩ fun ld hnew => ?_
  refine wp_setVersion (put_self m ld _) (wp_saslBind (put_self m ld _) fun bound _ => ?_)
  refine .ite (fun _ => ⟨true, hnew, rfl⟩) fun _ => wp_unbind (put_self m ld _) ?_
  rw [free_put hnew]
  exact ⟨false, rfl⟩

/-- The breaker goes the way of a call of `connectToLDAP`, and the connection is one
to the endpoint that this returns. -/
def Connects (A : Authenticator) (lib : Library) (b : CircuitBreaker) (m : Memory) (l : List ℕ)
    (y : CircuitBreaker × Option ℕ) (x : Memory × List ℕ) : Prop :=
  ∃ c, y.1 = (HttpBridge.connectToLDAP A.replicaEndpoint b c).1 ∧
    Opened m l x ((HttpBridge.connectToLDAP A.replicaEndpoint b c).2.connection.map (A.server lib)) y.2

theorem connectToLDAP_wp :
    (connectToLDAP A b).Wp (watched lib frees) (Connects A lib b m l) (m, l) := by
  have hmap : ∀ (e : Endpoint) (up : Bool),
      (HttpBridge.connectToEndpoint e up).map (A.server lib) = if up then some (A.server lib e) else none := by
    intro e up
    cases up <;> rfl
  unfold connectToLDAP
  refine .ite (fun hnone => ?_) fun hsome => ?_
  · refine connectToEndpoint_wp.bind fun ld x ⟨up, hx⟩ => ⟨⟨0, 0, up, up⟩, ?_, ?_⟩
    · rw [HttpBridge.connectToLDAP, if_pos hnone]
    · rw [HttpBridge.connectToLDAP, if_pos hnone, hmap]
      exact hx
  refine wp_now fun t => .ite (fun htry => ?_) fun hno => ?_
  · refine connectToEndpoint_wp.bind fun ld x ⟨up, hx⟩ => ?_
    cases ld with
    | some ld =>
      obtain rfl : up = true := by
        cases up with
        | false => exact hx.elim
        | true => rfl
      refine ⟨⟨t, t, true, true⟩, ?_, ?_⟩
      · rw [HttpBridge.connectToLDAP, if_neg hsome, if_pos htry]
        rfl
      · rw [HttpBridge.connectToLDAP, if_neg hsome, if_pos htry]
        exact hx
    | none =>
      obtain rfl : up = false := by
        cases up with
        | false => rfl
        | true => exact hx.elim
      rw [show x = (m, l) from hx]
      refine wp_now fun t' => connectToEndpoint_wp.bind fun ld x ⟨up, hx⟩ => ⟨⟨t, t', false, up⟩, ?_, ?_⟩
      · rw [HttpBridge.connectToLDAP, if_neg hsome, if_pos htry]
        rfl
      · rw [HttpBridge.connectToLDAP, if_neg hsome, if_pos htry]
        show Opened m l x ((HttpBridge.connectToEndpoint .replica up).map (A.server lib)) ld
        rw [hmap]
        exact hx
  · refine connectToEndpoint_wp.bind fun ld x ⟨up, hx⟩ => ⟨⟨t, t, up, up⟩, ?_, ?_⟩
    · rw [HttpBridge.connectToLDAP, if_neg hsome, if_neg hno]
    · rw [HttpBridge.connectToLDAP, if_neg hsome, if_neg hno, hmap]
      exact hx

/-- What was done over a connection is left behind when it has been closed. -/
theorem unbind_wp {P : α → Prop} {a : α} {x : Memory × List ℕ} {ld : ℕ} (hld : m ld = none)
    (h : Leaves (m.put ld (.ld S)) l P a x) :
    (unbind ld >>= fun _ => (.ret a : Libldap α)).Wp (watched lib frees) (Leaves m l P) x :=
  wp_unbind (h.of_some (put_self m ld _)) (h.free hld)

theorem withConnection_wp {failed : α} {p : ℕ → Libldap α} {V : Option LdapServer → α} (hfailed : failed = V none)
    (hp : ∀ m l ld S, m ld = some (.ld S) →
      (p ld).Wp (watched lib frees) (Leaves m l fun a => lib.honest = true → a = V (some S)) (m, l)) :
    (withConnection A b failed p).Wp (watched lib frees) (Leaves m l fun y =>
      ∃ c, y.1 = (HttpBridge.connectToLDAP A.replicaEndpoint b c).1 ∧ (lib.honest = true →
        y.2 = V ((HttpBridge.connectToLDAP A.replicaEndpoint b c).2.connection.map (A.server lib)))) (m, l) := by
  refine connectToLDAP_wp.bind fun ⟨b', ld⟩ x ⟨c, hb, hx⟩ => ?_
  cases hserver : (HttpBridge.connectToLDAP A.replicaEndpoint b c).2.connection.map (A.server lib) with
  | none =>
    rw [hserver] at hx
    cases ld with
    | some ld => exact hx.elim
    | none =>
      rw [show x = (m, l) from hx]
      refine Keeps.leaves ⟨rfl, c, hb, fun _ => ?_⟩
      rw [hserver]
      exact hfailed
  | some S =>
    rw [hserver] at hx
    cases ld with
    | none => exact hx.elim
    | some ld =>
      obtain ⟨hnew, rfl⟩ := hx
      refine (hp _ l ld S (put_self m ld _)).bind fun a x ha => ?_
      refine wp_unbind (ha.of_some (put_self m ld _)) ((ha.free hnew).of fun ha => ⟨c, hb, fun h => ?_⟩)
      rw [hserver]
      exact ha h

end Connection

/-! ### A user -/

section User

variable {A : Authenticator} {n : ℕ}

theorem searchOne_of_length {base filter : String} {es : List LdapEntry}
    (h : S.search base filter = some es) (hlength : es.length ≠ 1) : S.searchOne base filter = none := by
  unfold LdapServer.searchOne
  rw [h]
  match es, hlength with
  | [], _ => rfl
  | [_], hlength => exact absurd rfl hlength
  | _ :: _ :: _, _ => rfl

theorem withUser_wp {filter : String} {failed : α} {p : EntryPtr → ℕ → Libldap α} {P : α → Prop}
    (hld : m ld = some (.ld S)) (hfrees : frees filter = false)
    (hfailed : (lib.honest = true → S.searchOne A.userBase filter = none) → P failed)
    (hp : ∀ m e dn entry, m ld = some (.ld S) → Holds m e entry → m dn = none →
      (lib.honest = true → S.searchOne A.userBase filter = some entry) →
      (p e dn).Wp (watched lib frees) (Leaves m l P) (m.put dn (.text entry.dn), l)) :
    (withUser A ld filter failed p).Wp (watched lib frees) (Leaves m l P) (m, l) := by
  have hnone : (lib.honest = true → S.search A.userBase filter = none) → P failed := by
    refine fun hno => hfailed fun h => ?_
    rw [LdapServer.searchOne, hno h]
  refine wp_search hld (fun result es hnew hfits hes => ?_) (fun hno => Keeps.leaves ⟨rfl, hnone hno⟩)
    fun result hnew hno => ?_
  · have hld' := put_of_some hld hnew (o := .result es)
    have hmsgfree : P failed → (msgfree result >>= fun _ => (.ret failed : Libldap α)).Wp (watched lib frees)
        (Leaves m l P) (m.put result (.result es), l) := by
      intro hP
      refine wp_msgfree (.inl ⟨es, put_self m result _⟩) ?_
      rw [free_put hnew]
      exact Keeps.leaves ⟨rfl, hP⟩
    refine wp_countEntries hld' (put_self m result _) (.ite (fun hcount => ?_) fun hcount => ?_)
    · exact hmsgfree (hfailed fun h => searchOne_of_length (found_whole (hes h)) hcount)
    obtain ⟨entry, rfl⟩ := List.length_eq_one_iff.mp (not_not.mp hcount)
    have hheld : Holds (m.put result (.result [entry])) ⟨result, 0⟩ entry := ⟨[entry], put_self m result _, rfl⟩
    refine wp_firstEntry hld' (put_self m result _) (wp_getDn hld' hheld (fun hfails => ?_) fun dn hdn => ?_)
    · refine hmsgfree (hfailed fun h => ?_)
      rw [hfails] at h
      cases h
    · refine (hp _ _ dn entry hld' hheld hdn fun h => ?_).bind fun a x hx => ?_
      · rw [LdapServer.searchOne, found_whole (hes h)]
      · exact wp_msgfree (.inl ⟨_, hx.of_some (put_self m result _)⟩) (hx.free hnew)
  · rw [put_failure, hfrees, if_neg Bool.false_ne_true]
    refine ⟨[result], fun p hp => ?_, rfl, hnone hno⟩
    rw [List.mem_singleton.mp hp]
    exact hnew

end User

/-! ### The calls -/

/-- Which failed results a call frees. -/
def Call.guarded : Call → String → Bool
  | .authenticateUser .. | .getUserInfoByEmail _ => forgetful
  | _ => fun _ => true

/-- What a call returns, by the connections that it gets. -/
def Call.value (L : LdapOptions) (conns : List (Option LdapServer)) : (call : Call) → call.Ans
  | .authenticateUser username password =>
    HttpBridge.authenticateUser L conns[0]?.join conns[1]?.join username password
  | .getUserInfoByEmail email => HttpBridge.getUserInfoByEmail L conns[0]?.join email
  | .getTenantsForUser username => HttpBridge.getTenantsForUser L conns[0]?.join username
  | .getRolesByTenant username => HttpBridge.getRolesByTenant L conns[0]?.join username
  | .searchUsers start limit => HttpBridge.searchUsers L conns[0]?.join start limit
  | .searchRoles tenant start limit => HttpBridge.searchRoles L conns[0]?.join tenant start limit

/-- The connections that the calls of `connectToLDAP` give. -/
def conns (A : Authenticator) (lib : Library) (b : CircuitBreaker) (cs : List ConnectCall) :
    List (Option LdapServer) :=
  (connects A.replicaEndpoint b cs).map fun e => e.connection.map (A.server lib)

/-- The breaker goes the way of some calls of `connectToLDAP`, and what is returned
is what the directory computes from the servers that these connect to. -/
def Call.Meets (A : Authenticator) (lib : Library) (b : CircuitBreaker) (call : Call)
    (y : CircuitBreaker × call.Ans) : Prop :=
  ∃ cs, y.1 = breakerAfter A.replicaEndpoint b cs ∧
    (lib.honest = true → y.2 = call.value A.toLdapOptions (conns A lib b cs))

section Calls

variable {A : Authenticator} {n : ℕ} {b : CircuitBreaker}

theorem rolesAsAdmin_wp {userDn : String} (hlib : lib.longest ≤ n) :
    (rolesAsAdmin A n b userDn).Wp (watched lib forgetful) (Leaves m l fun y => ∃ c,
      y.1 = (HttpBridge.connectToLDAP A.replicaEndpoint b c).1 ∧ (lib.honest = true → y.2 =
        match (HttpBridge.connectToLDAP A.replicaEndpoint b c).2.connection.map (A.server lib) with
        | some S => HttpBridge.extractRolesFromGroups A.toLdapOptions S userDn
        | none => ["users"])) (m, l) :=
  withConnection_wp (V := fun S => match S with
    | some S => HttpBridge.extractRolesFromGroups A.toLdapOptions S userDn
    | none => ["users"]) rfl fun _ _ _ _ hld => extractRolesFromGroups_wp hlib hld

/-- What `authenticateUser` does once it is connected. -/
theorem logIn_wp {username password : String} (hlib : lib.longest ≤ n) (hld : m ld = some (.ld S)) :
    (withUser A ld (userFilter username) (b, {}) fun e dn => do
      let userDn ← text dn
      memfree dn
      if password == "" then return (b, {})
      else
        let bound ← saslBind ld userDn password
        if !bound then return (b, {})
        else
          let uid ← uidOf ld e userDn username
          let (b, roles) ← rolesAsAdmin A n b userDn
          return (b, {
            dn := userDn
            userId := uid
            tenant := extractTenantFromUserDN userDn
            roles := roles
            authenticated := true })).Wp (watched lib forgetful) (Leaves m l fun y => ∃ cs,
      y.1 = breakerAfter A.replicaEndpoint b cs ∧ (lib.honest = true → y.2 =
        HttpBridge.authenticateUser A.toLdapOptions (some S) (conns A lib b cs)[0]?.join username password))
      (m, l) := by
  refine withUser_wp hld not_forgetful_userFilter (fun hno => ⟨[], rfl, fun h => ?_⟩)
    fun m e dn entry hld he hdn hone => ?_
  · rw [HttpBridge.authenticateUser]
    dsimp only
    rw [show A.userBase = A.toLdapOptions.userBase from rfl] at hno
    rw [hno h]
  refine wp_text (put_self m dn _) (wp_memfree (put_self m dn _) ?_)
  rw [free_put hdn]
  refine .ite (fun hempty => Keeps.leaves ⟨rfl, [], rfl, fun h => ?_⟩) fun hsome => ?_
  · rw [HttpBridge.authenticateUser]
    dsimp only
    rw [hone h]
    exact (if_pos hempty).symm
  refine wp_saslBind hld fun bound hbound => .ite (fun hrefused => Keeps.leaves ⟨rfl, [], rfl, fun h => ?_⟩)
    fun hok => ?_
  · rw [HttpBridge.authenticateUser]
    dsimp only
    rw [hone h]
    dsimp only
    rw [if_neg hsome, ← hbound h, if_pos hrefused]
  refine keeps_bind (uidOf_wp hld he) fun uid huid => ?_
  refine leaves_bind (rolesAsAdmin_wp hlib) fun y x ⟨c, hb, hroles⟩ _ => ?_
  refine Keeps.leaves ⟨rfl, [c], hb, fun h => ?_⟩
  rw [HttpBridge.authenticateUser]
  dsimp only
  rw [hone h]
  dsimp only
  rw [if_neg hsome, ← hbound h, if_neg hok, hroles h, huid h]
  rfl

theorem conns_cons (c : ConnectCall) (cs : List ConnectCall) : conns A lib b (c :: cs) =
    (HttpBridge.connectToLDAP A.replicaEndpoint b c).2.connection.map (A.server lib) ::
      conns A lib (HttpBridge.connectToLDAP A.replicaEndpoint b c).1 cs := rfl

theorem authenticateUser_wp {username password : String} (hlib : lib.longest ≤ n) :
    (authenticateUser A n b username password).Wp (watched lib forgetful)
      (Leaves m l ((Call.authenticateUser username password).Meets A lib b)) (m, l) := by
  refine connectToLDAP_wp.bind fun ⟨b', ld⟩ x ⟨c, hb, hx⟩ => ?_
  cases hserver : (HttpBridge.connectToLDAP A.replicaEndpoint b c).2.connection.map (A.server lib) with
  | none =>
    rw [hserver] at hx
    cases ld with
    | some ld => exact hx.elim
    | none =>
      rw [show x = (m, l) from hx]
      refine Keeps.leaves ⟨rfl, [c], hb, fun _ => ?_⟩
      rw [Call.value, conns_cons, hserver]
      rfl
  | some S =>
    rw [hserver] at hx
    cases ld with
    | none => exact hx.elim
    | some ld =>
      obtain ⟨hnew, rfl⟩ := hx
      refine (logIn_wp hlib (put_self m ld _)).bind fun y x hy => unbind_wp hnew (hy.of ?_)
      intro ⟨cs, hbreaker, hvalue⟩
      have hb' : b' = (HttpBridge.connectToLDAP A.replicaEndpoint b c).1 := hb
      refine ⟨c :: cs, ?_, fun h => ?_⟩
      · rw [hbreaker, hb']
        rfl
      · rw [hvalue h, hb', Call.value, conns_cons, hserver]
        rfl

/-- A call that connects once. -/
theorem connected_wp (call : Call) {failed : call.Ans} {p : ℕ → Libldap call.Ans}
    (V : Option LdapServer → call.Ans) (hV : ∀ cs, call.value A.toLdapOptions cs = V cs[0]?.join)
    (hfailed : failed = V none)
    (hp : ∀ m l ld S, m ld = some (.ld S) →
      (p ld).Wp (watched lib frees) (Leaves m l fun a => lib.honest = true → a = V (some S)) (m, l)) :
    (withConnection A b failed p).Wp (watched lib frees) (Leaves m l (call.Meets A lib b)) (m, l) := by
  refine (withConnection_wp hfailed hp).mono fun y x hy => hy.of ?_
  intro ⟨c, hb, hvalue⟩
  refine ⟨[c], hb, fun h => ?_⟩
  rw [hvalue h, hV, conns_cons]
  rfl

theorem getUserInfoByEmail_wp {email : String} (hlib : lib.longest ≤ n) :
    (getUserInfoByEmail A n b email).Wp (watched lib forgetful)
      (Leaves m l ((Call.getUserInfoByEmail email).Meets A lib b)) (m, l) := by
  refine connected_wp (.getUserInfoByEmail email)
    (fun S => HttpBridge.getUserInfoByEmail A.toLdapOptions S email) (fun _ => rfl) rfl fun m l ld S hld => ?_
  refine leaves_bind (withUser_wp (P := fun info => lib.honest = true →
    { info with authenticated := info.userId != "" } =
      HttpBridge.getUserInfoByEmail A.toLdapOptions (some S) email) hld not_forgetful_mailFilter
    (fun hno h => ?_) fun m e dn entry hld he hdn hone => ?_)
    fun info x hinfo _ => Keeps.leaves ⟨rfl, hinfo⟩
  · have hnobody : S.searchOne A.toLdapOptions.userBase (mailFilter email) = none := hno h
    unfold HttpBridge.getUserInfoByEmail
    dsimp only
    rw [show "(mail=" ++ escapeLdapFilterValue email ++ ")" = mailFilter email from rfl, hnobody]
    rfl
  · have hld' := put_of_some hld hdn (o := .text entry.dn)
    refine wp_text (put_self m dn _) (keeps_bind (uidOf_wp hld' (he.put hdn)) fun uid huid => ?_)
    refine (extractRolesFromGroups_wp hlib hld').bind fun rs x hrs => ?_
    refine wp_memfree (hrs.of_some (put_self m dn _)) ((hrs.free hdn).of fun hroles h => ?_)
    have huser : S.searchOne A.toLdapOptions.userBase (mailFilter email) = some entry := hone h
    unfold HttpBridge.getUserInfoByEmail
    dsimp only
    rw [show "(mail=" ++ escapeLdapFilterValue email ++ ")" = mailFilter email from rfl, huser, hroles h,
      huid h]

/-- What a search for the user's DN comes to. -/
def dnFound (found : Option LdapEntry) : String := (found.map LdapEntry.dn).getD ""

theorem userDnOf_wp {username : String} (hld : m ld = some (.ld S))
    (hfrees : frees (userFilter username) = true) :
    (userDnOf A ld username).Wp (watched lib frees) (Keeps m l fun dn => lib.honest = true →
      dn = dnFound (S.searchOne A.userBase (userFilter username))) (m, l) := by
  refine searchAll_wp hld hfrees (fun hno h => ?_) fun result es hnew hfits hes => ?_
  · rw [LdapServer.searchOne, hno h]
    rfl
  have hld' := put_of_some hld hnew (o := .result es)
  refine wp_countEntries hld' (put_self m result _) (.ite (fun hcount => ⟨rfl, fun h => ?_⟩) fun hcount => ?_)
  · rw [searchOne_of_length (found_whole (hes h)) hcount]
    rfl
  obtain ⟨entry, rfl⟩ := List.length_eq_one_iff.mp (not_not.mp hcount)
  have hheld : Holds (m.put result (.result [entry])) ⟨result, 0⟩ entry := ⟨[entry], put_self m result _, rfl⟩
  refine wp_firstEntry hld' (put_self m result _) (keeps_bind (dnText_wp hld' hheld) fun dn hdn => ⟨rfl, fun h => ?_⟩)
  rw [hdn h, LdapServer.searchOne, found_whole (hes h)]
  rfl

/-! ### Walks as folds -/

theorem walked_eq_foldl {σ : Type} (go : σ → Bool) (step : σ → LdapEntry → σ) :
    ∀ (es : List LdapEntry) (s : σ),
      walked go step es s = es.foldl (fun s e => if go s then step s e else s) s
  | [], _ => rfl
  | e :: es, s => by
    rw [walked, List.foldl_cons]
    by_cases hgo : go s = true
    · rw [if_pos hgo, if_pos hgo, walked_eq_foldl go step es]
    · have hstay : ∀ es : List LdapEntry, es.foldl (fun s e => if go s then step s e else s) s = s := by
        intro es
        induction es with
        | nil => rfl
        | cons e es ih => rw [List.foldl_cons, if_neg hgo, ih]
      rw [if_neg hgo, if_neg hgo, hstay]

/-- What was asked for is there. -/
theorem firstValue_asked (attr : String) (e : LdapEntry) :
    (asked [attr] e).firstValue attr = e.firstValue attr := by
  have hvalues : (asked [attr] e).values attr = e.values attr := by
    show ((e.attrs.filter fun a => [attr].any fun b => lowered a.1 == lowered b).find?
      fun a => lowered a.1 == lowered attr).map (·.2) = _
    rw [List.find?_filter, LdapEntry.values]
    congr 2
    funext a
    by_cases hattr : lowered a.1 = lowered attr <;> simp [hattr]
  rw [LdapEntry.firstValue, hvalues]
  rfl

theorem dn_asked (attrs : List String) (e : LdapEntry) : (asked attrs e).dn = e.dn := by
  unfold asked
  split_ifs <;> rfl

theorem foldl_addRole_filter {f : LdapEntry → String} : ∀ (es : List LdapEntry) (xs : List String),
    es.foldl (fun xs e => if f e == "" then xs else addRole xs (f e)) xs =
      addRoles xs ((es.map f).filter (· != ""))
  | [], _ => rfl
  | e :: es, xs => by
    rw [List.foldl_cons, foldl_addRole_filter es, List.map_cons, List.filter_cons]
    by_cases he : f e = ""
    · simp [he]
    · simp [he, addRoles]

theorem getTenantsForUser_of_dn (L : LdapOptions) (S : LdapServer) (username : String) {dn : String}
    (hdn : dn = dnFound (S.searchOne L.userBase (userFilter username))) :
    HttpBridge.getTenantsForUser L (some S) username = if dn == "" then [] else
      (addRoles [] ((((S.search L.tenantBase (memberFilter dn (memberUid username dn))).getD []).map
        L.tenantOf).filter (· != ""))).insertionSort (· ≤ ·) := by
  rw [getTenantsForUser_eq, hdn]
  cases S.searchOne L.userBase (userFilter username) <;> rfl

theorem getTenantsForUser_wp {username : String} (hlib : lib.longest ≤ n) :
    (getTenantsForUser A n b username).Wp (watched lib fun _ => true)
      (Leaves m l ((Call.getTenantsForUser username).Meets A lib b)) (m, l) := by
  refine connected_wp (.getTenantsForUser username)
    (fun S => HttpBridge.getTenantsForUser A.toLdapOptions S username) (fun _ => rfl) rfl fun m l ld S hld => ?_
  refine keeps_bind (userDnOf_wp hld rfl) fun dn hdn => ?_
  refine .ite (fun hempty => Keeps.leaves ⟨rfl, fun h => ?_⟩) fun hsome => ?_
  · rw [getTenantsForUser_of_dn _ _ _ (hdn h), if_pos hempty]
  refine keeps_bind (P := fun tenants => lib.honest = true → tenants = addRoles []
    ((((S.search A.tenantBase (memberFilter dn (memberUid username dn))).getD []).map
      A.tenantOf).filter (· != ""))) (searchAll_wp hld rfl (fun hno h => ?_) fun result es hnew hfits hes => ?_)
    fun tenants htenants => Keeps.leaves ⟨rfl, fun h => ?_⟩
  · rw [hno h]
    rfl
  · have hld' := put_of_some hld hnew (o := .result es)
    refine (forEntries_wp (fun tenants e =>
      if A.tenantOf e == "" then tenants else addRole tenants (A.tenantOf e)) hld' (put_self m result _)
      (hfits.1.trans hlib) (fun tenants e entry he _ => ?_) []).mono fun tenants x hx => ⟨hx.1, fun h => ?_⟩
    · refine keeps_bind (dnText_wp hld' he) fun dn hdn => ⟨rfl, fun h => ?_⟩
      rw [hdn h]
      rfl
    · rw [hx.2 h, walked_true, foldl_addRole_filter, found_whole (hes h), Option.getD_some]
  · rw [getTenantsForUser_of_dn _ _ _ (hdn h), if_neg hsome, htenants h]

theorem getRolesByTenant_of_dn (L : LdapOptions) (S : LdapServer) (username : String) {dn : String}
    (hdn : dn = dnFound (S.searchOne L.userBase (userFilter username))) :
    HttpBridge.getRolesByTenant L (some S) username = if dn == "" then .empty else
      (((S.search L.tenantBase (groupOfNamesFilter dn)).getD []).foldl (bucketRole L) .empty).mapValues
        (·.insertionSort (· ≤ ·)) := by
  show ((groupsOf L S username).foldl (bucketRole L) .empty).mapValues _ = _
  rw [groupsOf, hdn]
  cases S.searchOne L.userBase (userFilter username) with
  | none => rfl
  | some entry =>
    show ((if entry.dn == "" then [] else _).foldl (bucketRole L) OrdMap.empty).mapValues _ =
      if entry.dn == "" then _ else _
    split_ifs <;> rfl

theorem getRolesByTenant_wp {username : String} (hlib : lib.longest ≤ n) :
    (getRolesByTenant A n b username).Wp (watched lib fun _ => true)
      (Leaves m l ((Call.getRolesByTenant username).Meets A lib b)) (m, l) := by
  refine connected_wp (.getRolesByTenant username)
    (fun S => HttpBridge.getRolesByTenant A.toLdapOptions S username) (fun _ => rfl) rfl fun m l ld S hld => ?_
  refine keeps_bind (userDnOf_wp hld rfl) fun dn hdn => ?_
  refine .ite (fun hempty => Keeps.leaves ⟨rfl, fun h => ?_⟩) fun hsome => ?_
  · rw [getRolesByTenant_of_dn _ _ _ (hdn h), if_pos hempty]
  refine keeps_bind (P := fun byTenant => lib.honest = true → byTenant =
    ((S.search A.tenantBase (groupOfNamesFilter dn)).getD []).foldl (bucketRole A.toLdapOptions) .empty)
    (searchAll_wp hld rfl (fun hno h => ?_) fun result es hnew hfits hes => ?_)
    fun byTenant hbyTenant => Keeps.leaves ⟨rfl, fun h => ?_⟩
  · rw [hno h]
    rfl
  · have hld' := put_of_some hld hnew (o := .result es)
    refine (forEntries_wp (bucketRole A.toLdapOptions) hld' (put_self m result _)
      (hfits.1.trans hlib) (fun byTenant e entry he _ => ?_) .empty).mono fun byTenant x hx =>
        ⟨hx.1, fun h => ?_⟩
    · refine keeps_bind (dnText_wp hld' he) fun dn hdn => .ite (fun hempty => ⟨rfl, fun h => ?_⟩)
        fun hsome => keeps_bind (firstValue_wp hld' he) fun role hrole => ⟨rfl, fun h => ?_⟩
      · rw [hdn h] at hempty
        exact (if_pos hempty).symm
      · rw [hdn h] at hsome
        rw [hrole h, hdn h]
        exact (if_neg hsome).symm
    · obtain ⟨found, hfound, rfl⟩ := Option.map_eq_some_iff.mp (hes h)
      have hstep : ∀ byTenant e, bucketRole A.toLdapOptions byTenant (asked ["cn"] e) =
          bucketRole A.toLdapOptions byTenant e := by
        intro byTenant e
        rw [bucketRole, LdapOptions.tenantOf, dn_asked, firstValue_asked]
        rfl
      rw [hx.2 h, walked_true, hfound, Option.getD_some, List.foldl_map]
      simp only [hstep]
  · rw [getRolesByTenant_of_dn _ _ _ (hdn h), if_neg hsome, hbyTenant h]

theorem collectNames_eq_walked (cap : ℤ) (f : LdapEntry → String) (es : List LdapEntry) :
    collectNames cap (es.map f) = walked (fun names => decide ((names.length : ℤ) < cap))
      (fun names e => if f e == "" then names else addRole names (f e)) es [] := by
  rw [walked_eq_foldl, collectNames, List.foldl_map]
  congr 1
  funext names e
  by_cases hcap : cap ≤ names.length
  · have hgo : ¬ decide ((names.length : ℤ) < cap) = true := by simpa using hcap
    rw [if_pos hcap, if_neg hgo]
  · have hgo : decide ((names.length : ℤ) < cap) = true := by simpa using hcap
    rw [if_neg hcap, if_pos hgo]

/-- A search for names, of entries with one attribute. -/
theorem names_wp {base filter attr : String} {cap : ℤ} {f : LdapEntry → String}
    {name : EntryPtr → Libldap String} (hlib : lib.longest ≤ n) (hld : m ld = some (.ld S))
    (hfrees : frees filter = true) (hasked : ∀ e, f (asked [attr] e) = f e)
    (hname : ∀ m e entry, m ld = some (.ld S) → Holds m e entry → (name e).Wp (watched lib frees)
      (Keeps m l fun v => lib.honest = true → v = f entry) (m, l)) :
    (searchAll ld base filter [attr] [] fun result =>
      forEntries ld n result (fun names => decide ((names.length : ℤ) < cap)) (fun names e => do
        let v ← name e
        return if v == "" then names else addRole names v) []).Wp (watched lib frees)
      (Keeps m l fun names => lib.honest = true →
        names = collectNames cap (((S.search base filter).getD []).map f)) (m, l) := by
  refine searchAll_wp hld hfrees (fun hno h => ?_) fun result es hnew hfits hes => ?_
  · rw [hno h]
    rfl
  have hld' := put_of_some hld hnew (o := .result es)
  refine (forEntries_wp (fun names e => if f e == "" then names else addRole names (f e)) hld'
    (put_self m result _) (hfits.1.trans hlib) (fun names e entry he _ => ?_) []).mono fun names x hx =>
      ⟨hx.1, fun h => ?_⟩
  · refine keeps_bind (hname _ e entry hld' he) fun v hv => ⟨rfl, fun h => ?_⟩
    rw [hv h]
  · obtain ⟨found, hfound, rfl⟩ := Option.map_eq_some_iff.mp (hes h)
    rw [hx.2 h, ← collectNames_eq_walked, hfound, Option.getD_some, List.map_map]
    congr 2
    funext e
    exact hasked e

theorem searchUsers_wp {start : String} {limit : ℤ} (hlib : lib.longest ≤ n) :
    (searchUsers A n b start limit).Wp (watched lib fun _ => true)
      (Leaves m l ((Call.searchUsers start limit).Meets A lib b)) (m, l) := by
  refine connected_wp (.searchUsers start limit)
    (fun S => HttpBridge.searchUsers A.toLdapOptions S start limit) (fun _ => rfl) rfl fun m l ld S hld => ?_
  refine keeps_bind (names_wp (f := fun e =>
    if e.firstValue "uid" == "" then uidFromDN e.dn else e.firstValue "uid") hlib hld rfl (fun e => ?_)
    fun m e entry hld he => uidOrDn_wp hld he) fun uids huids => Keeps.leaves ⟨rfl, fun h => ?_⟩
  · rw [firstValue_asked, dn_asked]
  · rw [huids h]
    rfl

theorem searchRoles_wp {tenant start : String} {limit : ℤ} (hlib : lib.longest ≤ n) :
    (searchRoles A n b tenant start limit).Wp (watched lib fun _ => true)
      (Leaves m l ((Call.searchRoles tenant start limit).Meets A lib b)) (m, l) := by
  refine .ite (fun hnowhere => Keeps.leaves ⟨rfl, [], rfl, fun _ => ?_⟩) fun hsome => ?_
  · exact (if_pos hnowhere).symm
  refine connected_wp (.searchRoles tenant start limit)
    (fun S => HttpBridge.searchRoles A.toLdapOptions S tenant start limit) (fun _ => rfl)
    (if_neg hsome).symm fun m l ld S hld => ?_
  refine keeps_bind (names_wp (f := fun e => e.firstValue "cn") hlib hld rfl (firstValue_asked "cn")
    fun m e entry hld he => firstValue_wp hld he) fun roles hroles => Keeps.leaves ⟨rfl, fun h => ?_⟩
  rw [hroles h]
  exact (if_neg hsome).symm

/-- **What a call leaves and returns.** -/
theorem perform_wp (call : Call) (hlib : lib.longest ≤ n) :
    (call.perform A n b).Wp (watched lib call.guarded) (Leaves m l (call.Meets A lib b)) (m, l) := by
  cases call with
  | authenticateUser username password => exact authenticateUser_wp hlib
  | getUserInfoByEmail email => exact getUserInfoByEmail_wp hlib
  | getTenantsForUser username => exact getTenantsForUser_wp hlib
  | getRolesByTenant username => exact getRolesByTenant_wp hlib
  | searchUsers start limit => exact searchUsers_wp hlib
  | searchRoles tenant start limit => exact searchRoles_wp hlib

end Calls

/-! ### Calls one after another -/

/-- The calls have been finished, each with its trace, and have left the breaker and
the memory. -/
def Ran (A : Authenticator) (lib : Library) (n : ℕ) : CircuitBreaker → Memory →
    List (Call × List (Event LdapOp.Ans)) → CircuitBreaker → Memory → Prop
  | b, m, [], b', m' => b' = b ∧ m' = m
  | b, m, (call, tr) :: calls, b', m' => ∃ y m₁, (call.perform A n b).Yields tr y ∧
      (libldap lib).Runs m tr m₁ ∧ Ran A lib n y.1 m₁ calls b' m'

/-- The results that a call forgets in the course of a trace. -/
def forgotten (x : Call × List (Event LdapOp.Ans)) : List ℕ := x.2.flatMap (leaks x.1.guarded)

section Runs

variable {A : Authenticator} {n : ℕ} {b b' : CircuitBreaker} {m' : Memory}
  {tr : List (Event LdapOp.Ans)}

/-- A finished call. -/
theorem Call.finished {call : Call} {y : CircuitBreaker × call.Ans} (hlib : lib.longest ≤ n)
    (hy : (call.perform A n b).Yields tr y) (hm : (libldap lib).Runs m tr m') :
    m' = litter m (forgotten (call, tr)) ∧ call.Meets A lib b y := by
  have hlogged : (watched lib call.guarded).Runs (m, []) tr (m', [] ++ forgotten (call, tr)) :=
    hm.logged (leaks call.guarded)
  obtain ⟨ps, -, hx, hmeets⟩ := (perform_wp call hlib).yields hy hlogged
  obtain ⟨hm', hps⟩ := Prod.mk.inj hx
  rw [List.nil_append] at hps
  rw [hps]
  exact ⟨hm', hmeets⟩

theorem Ran.litter (hlib : lib.longest ≤ n) : ∀ {calls : List (Call × List (Event LdapOp.Ans))}
    {b : CircuitBreaker} {m : Memory}, Ran A lib n b m calls b' m' →
      m' = litter m (calls.flatMap forgotten)
  | [], b, m, ⟨_, hm⟩ => by
    rw [hm, List.flatMap_nil, litter_nil]
  | (call, tr) :: calls, b, m, ⟨y, m₁, hy, hm, hrest⟩ => by
    rw [Ran.litter hlib hrest, (Call.finished hlib hy hm).1, litter_litter, List.flatMap_cons]

/-- **What the directory calls do to what libldap gives them.** However many calls
have been made and whatever the library answers: what a call does next is allowed,
so it touches nothing that has been freed, and frees nothing twice. What is left when
it has been finished are the results of the failed searches that the calls forget, and
no connection. -/
theorem calls_release (hlib : lib.longest ≤ n) {calls : List (Call × List (Event LdapOp.Ans))}
    (h : Ran A lib n b (fun _ => none) calls b' m') :
    (∀ p, m' p = if p ∈ calls.flatMap forgotten then some .failure else none) ∧
    ∀ (call : Call) (tr : List (Event LdapOp.Ans)) (op : LdapOp)
      (k : op.Ans → Libldap (CircuitBreaker × call.Ans)) (m'' : Memory),
      (call.perform A n b').Reaches tr (.call op k) → (libldap lib).Runs m' tr m'' → Allowed m'' op := by
  constructor
  · intro p
    rw [h.litter hlib]
    rfl
  · intro call tr op k m'' hr hm
    exact (perform_wp call hlib).allowed hr (hm.logged (l := []) (leaks call.guarded))

end Runs

/-! ### The names that are listed -/

/-- What is kept of the names found: each once, no more of them than the cap, and all
of them if it is not reached. -/
structure Offered (names : List String) (cap : ℤ) (found : List String) : Prop where
  nodup : found.Nodup
  length_le : found.length ≤ cap
  mem : ∀ name ∈ found, name ∈ names ∧ name ≠ ""
  complete : found.length < cap → ∀ name ∈ names, name ≠ "" → name ∈ found

theorem nodup_addRole {xs : List String} (h : xs.Nodup) (x : String) : (addRole xs x).Nodup := by
  unfold addRole
  split_ifs with hx
  · exact h
  · refine List.nodup_append.mpr ⟨h, List.nodup_singleton x, fun y hy z hz => ?_⟩
    rw [List.mem_singleton.mp hz]
    rintro rfl
    exact hx (by simpa using hy)

theorem length_addRole_le (xs : List String) (x : String) : (addRole xs x).length ≤ xs.length + 1 := by
  unfold addRole
  split_ifs
  · omega
  · rw [List.length_append, List.length_singleton]

theorem offered_collectNames {cap : ℤ} (hcap : 0 ≤ cap) (names : List String) :
    Offered names cap (collectNames cap names) := by
  induction names using List.reverseRecOn with
  | nil => exact ⟨List.nodup_nil, by simpa [collectNames] using hcap, nofun, fun _ => nofun⟩
  | append_singleton names x ih =>
    have hstep : collectNames cap (names ++ [x]) =
        if cap ≤ (collectNames cap names).length then collectNames cap names
        else if x == "" then collectNames cap names else addRole (collectNames cap names) x := by
      rw [collectNames, List.foldl_append]
      rfl
    have hmem : ∀ name ∈ collectNames cap names, name ∈ names ++ [x] ∧ name ≠ "" := fun name h =>
      ⟨List.mem_append_left _ (ih.mem name h).1, (ih.mem name h).2⟩
    rw [hstep]
    by_cases hfull : cap ≤ (collectNames cap names).length
    · rw [if_pos hfull]
      exact ⟨ih.nodup, ih.length_le, hmem, fun hlt => absurd hfull (not_le.mpr hlt)⟩
    rw [if_neg hfull]
    have hall := ih.complete (not_le.mp hfull)
    by_cases hx : x = ""
    · rw [if_pos (by simpa using hx)]
      refine ⟨ih.nodup, ih.length_le, hmem, fun _ name hname hne => ?_⟩
      rcases List.mem_append.mp hname with hname | hname
      · exact hall name hname hne
      · exact absurd ((List.mem_singleton.mp hname).trans hx) hne
    · rw [if_neg (by simpa using hx)]
      have hlength := length_addRole_le (collectNames cap names) x
      refine ⟨nodup_addRole ih.nodup x, by omega, fun name h => ?_, fun _ name hname hne => ?_⟩
      · rcases mem_addRole.mp h with h | rfl
        · exact hmem name h
        · exact ⟨List.mem_append_right _ (List.mem_singleton_self name), hx⟩
      · rcases List.mem_append.mp hname with hname | hname
        · exact mem_addRole.mpr (.inl (hall name hname hne))
        · exact mem_addRole.mpr (.inr (List.mem_singleton.mp hname))

/-- The list that is returned is in order. -/
theorem sorted_of_nodup {xs : List String} (h : xs.Nodup) : (xs.insertionSort (· ≤ ·)).Pairwise (· < ·) := by
  have hle : (xs.insertionSort (· ≤ ·)).Pairwise (· ≤ ·) := List.pairwise_insertionSort (· ≤ ·) xs
  have hne : (xs.insertionSort (· ≤ ·)).Pairwise (· ≠ ·) := (List.perm_insertionSort _ xs).nodup_iff.mpr h
  exact (hle.and hne).imp fun h => lt_of_le_of_ne h.1 h.2

theorem Offered.perm {names found found' : List String} {cap : ℤ} (h : Offered names cap found)
    (hperm : found'.Perm found) : Offered names cap found' where
  nodup := hperm.nodup_iff.mpr h.nodup
  length_le := by
    rw [hperm.length_eq]
    exact h.length_le
  mem name hname := h.mem name (hperm.mem_iff.mp hname)
  complete hlt name hname hne := by
    rw [hperm.length_eq] at hlt
    exact hperm.mem_iff.mpr (h.complete hlt name hname hne)

/-- The names of the users that a search finds. -/
def userNames (L : LdapOptions) (S : LdapServer) (start : String) : List String :=
  ((S.search L.userBase (searchUsersFilter start)).getD []).map fun e =>
    if e.firstValue "uid" == "" then uidFromDN e.dn else e.firstValue "uid"

/-- The names of the groups of the tenant that a search finds. Nobody is asked where
there is no tenant or no base. -/
def roleNames (L : LdapOptions) (S : LdapServer) (tenant start : String) : List String :=
  if tenant == "" || L.tenantBase == "" then []
  else ((S.search ("ou=" ++ tenant ++ "," ++ L.tenantBase) (searchRolesFilter start)).getD []).map
    (·.firstValue "cn")

/-- The limit that is asked for, if it is a positive one below the greatest. -/
def capOf (limit kMaxResults : ℤ) : ℤ := if 0 < limit && limit < kMaxResults then limit else kMaxResults

theorem capOf_nonneg (limit : ℤ) {kMaxResults : ℤ} (h : 0 ≤ kMaxResults) : 0 ≤ capOf limit kMaxResults := by
  unfold capOf
  split_ifs with hlimit
  · simp only [Bool.and_eq_true, decide_eq_true_eq] at hlimit
    omega
  · exact h

/-- **What the editor is offered.** The searches for users and for roles list names of
the entries that match, in order and each once: no more of them than the cap, and all
of them unless it is reached. -/
theorem searches_list (L : LdapOptions) (S : LdapServer) (tenant start : String) (limit : ℤ) :
    (Offered (userNames L S start) (capOf limit 50) (HttpBridge.searchUsers L (some S) start limit) ∧
      (HttpBridge.searchUsers L (some S) start limit).Pairwise (· < ·)) ∧
    Offered (roleNames L S tenant start) (capOf limit 100)
      (HttpBridge.searchRoles L (some S) tenant start limit) ∧
    (HttpBridge.searchRoles L (some S) tenant start limit).Pairwise (· < ·) := by
  have husers := offered_collectNames (capOf_nonneg limit (by decide : (0 : ℤ) ≤ 50)) (userNames L S start)
  refine ⟨⟨husers.perm (List.perm_insertionSort _ _), sorted_of_nodup husers.nodup⟩, ?_⟩
  by_cases hnowhere : (tenant == "" || L.tenantBase == "") = true
  · have hnames : roleNames L S tenant start = [] := if_pos hnowhere
    have hnone : HttpBridge.searchRoles L (some S) tenant start limit = [] := if_pos hnowhere
    rw [hnames, hnone]
    refine ⟨⟨List.nodup_nil, ?_, nofun, fun _ => nofun⟩, List.Pairwise.nil⟩
    exact capOf_nonneg limit (by decide)
  · have hroles := offered_collectNames (capOf_nonneg limit (by decide : (0 : ℤ) ≤ 100))
      (roleNames L S tenant start)
    have hlist : HttpBridge.searchRoles L (some S) tenant start limit =
        (collectNames (capOf limit 100) (roleNames L S tenant start)).insertionSort (· ≤ ·) := by
      rw [roleNames, if_neg hnowhere]
      exact if_neg hnowhere
    rw [hlist]
    exact ⟨hroles.perm (List.perm_insertionSort _ _), sorted_of_nodup hroles.nodup⟩

/-! ### A directory that is down, and one that is not -/

/-- A server at which every search fails, and its library. -/
def downServer : LdapServer where
  entries := []
  inSubtree _ _ := false
  matchesFilter _ _ := false
  succeeds _ _ := false
  bind _ _ := true

def downLibrary : Library := ⟨fun _ => downServer, 0, true⟩

/-- A login at it, with the result of the search at the address `p`. -/
def downLogin (p : ℕ) : Call × List (Event LdapOp.Ans) :=
  (.authenticateUser "ann" "pw", [
    ⟨.ldapInitialize "ldap://localhost:1389", some 0⟩,
    ⟨.setVersion 0, ()⟩,
    ⟨.saslBind 0 "" "", true⟩,
    ⟨.search 0 "" (userFilter "ann") [], .failure (some p)⟩,
    ⟨.unbind 0, ()⟩])

theorem downLogin_yields (p : ℕ) (b : CircuitBreaker) :
    ((downLogin p).1.perform {} 0 b).Yields (downLogin p).2 (b, {}) :=
  ⟨some 0, rfl, (), rfl, true, rfl, .failure (some p), rfl, (), rfl, rfl⟩

theorem downLogin_runs {p : ℕ} (hp : p ≠ 0) (hm : m p = none) (hm₀ : m 0 = none) :
    (libldap downLibrary).Runs m (downLogin p).2 (m.put p .failure) := by
  have hld : (m.put 0 (.ld downServer)) 0 = some (.ld downServer) := put_self m 0 _
  have hnew : (m.put 0 (.ld downServer)) p = none := put_eq_none.mpr ⟨hp, hm⟩
  refine ⟨_, .connection _ 0 hm₀, _, .setVersion 0, _, .saslBind 0 _ _ true downServer hld fun _ => rfl, _,
    .failureResult 0 _ _ _ p downServer hld hnew fun _ => rfl, _, .unbind 0, ?_⟩
  show m.put p .failure = ((m.put 0 (.ld downServer)).put p .failure).free 0
  rw [free_put_of_ne hp.symm, free_put hm₀]

/-- Two logins while every search fails leave two results. -/
theorem downLogins_forget : ∃ m', Ran {} downLibrary 0 ⟨30, 0⟩ (fun _ => none) [downLogin 1, downLogin 2]
    ⟨30, 0⟩ m' ∧ ∀ p, m' p = if p ∈ [1, 2] then some .failure else none := by
  have hran : Ran {} downLibrary 0 ⟨30, 0⟩ (fun _ => none) [downLogin 1, downLogin 2] ⟨30, 0⟩
      (Memory.put (Memory.put (fun _ => none) 1 .failure) 2 .failure) :=
    ⟨_, _, downLogin_yields 1 _, downLogin_runs (by decide) rfl rfl, _, _, downLogin_yields 2 _,
      downLogin_runs (by decide) (put_of_ne (by decide) _ _) (put_of_ne (by decide) _ _), rfl, rfl⟩
  exact ⟨_, hran, (calls_release (Nat.le_refl 0) hran).1⟩

/-- A server with one user. -/
def annServer : LdapServer where
  entries := [⟨"uid=ann,ou=users", [("uid", ["ann"])]⟩]
  inSubtree _ _ := true
  matchesFilter _ _ := true
  succeeds _ _ := true
  bind _ _ := true

def annLibrary : Library := ⟨fun _ => annServer, 1, true⟩

def annSearch : List (Event LdapOp.Ans) := [
  ⟨.ldapInitialize "ldap://localhost:1389", some 0⟩,
  ⟨.setVersion 0, ()⟩,
  ⟨.saslBind 0 "" "", true⟩,
  ⟨.search 0 "" (searchUsersFilter "a") ["uid"], .success 1⟩,
  ⟨.firstEntry 0 1, some ⟨1, 0⟩⟩,
  ⟨.getValuesLen 0 ⟨1, 0⟩ "uid", some 2⟩,
  ⟨.values 2, ["ann"]⟩,
  ⟨.valueFreeLen 2, ()⟩,
  ⟨.nextEntry 0 ⟨1, 0⟩, none⟩,
  ⟨.msgfree 1, ()⟩,
  ⟨.unbind 0, ()⟩]

theorem annSearch_yields (b : CircuitBreaker) :
    ((Call.searchUsers "a" 5).perform {} 1 b).Yields annSearch (b, ["ann"]) :=
  ⟨some 0, rfl, (), rfl, true, rfl, .success 1, rfl, some ⟨1, 0⟩, rfl, some 2, rfl, ["ann"], rfl, (), rfl,
    none, rfl, (), rfl, (), rfl, rfl⟩

theorem annSearch_runs : ∃ m', (libldap annLibrary).Runs (fun _ => none) annSearch m' := by
  have hld : (Memory.put (fun _ => none) 0 (.ld annServer)) 0 = some (.ld annServer) := put_self _ 0 _
  have hfits : annLibrary.Fits [⟨"uid=ann,ou=users", [("uid", ["ann"])]⟩] := by
    refine ⟨Nat.le_refl 1, fun e he => ?_⟩
    rw [List.mem_singleton.mp he]
    exact Nat.le_refl 1
  have hfound : (annServer.search "" (searchUsersFilter "a")).map (·.map (asked ["uid"])) =
      some [⟨"uid=ann,ou=users", [("uid", ["ann"])]⟩] := by
    decide +kernel
  have hheld : Holds (Memory.put (Memory.put (fun _ => none) 0 (.ld annServer)) 1
      (.result [⟨"uid=ann,ou=users", [("uid", ["ann"])]⟩])) ⟨1, 0⟩ ⟨"uid=ann,ou=users", [("uid", ["ann"])]⟩ :=
    ⟨_, put_self _ 1 _, rfl⟩
  exact ⟨_, _, .connection _ 0 rfl, _, .setVersion 0, _, .saslBind 0 _ _ true annServer hld fun _ => rfl, _,
    .success 0 _ _ _ 1 _ annServer hld (put_of_ne (by decide) _ _) hfits fun _ => hfound, _,
    .firstEntry 0 1 _ (put_self _ 1 _), _,
    .getValuesLen 0 _ _ _ ["ann"] 2 hheld (by decide +kernel) rfl, _, .values 2 _ (put_self _ 2 _), _,
    .valueFreeLen 2, _, .nextEntry 0 ⟨1, 0⟩ [⟨"uid=ann,ou=users", [("uid", ["ann"])]⟩] rfl, _, .msgfree 1, _,
    .unbind 0, rfl⟩

end Ldap
end HttpBridge
