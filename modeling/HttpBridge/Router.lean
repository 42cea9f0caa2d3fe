/-
# The router

`handleV1` compares the fixed paths of the credential endpoints as they stand and
cuts every other path at its slashes, empty pieces dropped. A request that is
authenticated is dispatched by resource and method (`authedRoute`); what no
route answers is a 404.

The routes are those of a request with an `Authorization` header: without one,
the content of a file is served on a ticket too, before the caller is asked for.
-/
import HttpBridge.Strings

namespace HttpBridge

/-- `pathSegments`. -/
def pathSegments (path : String) : List String := (splitString path '/').filter (· ≠ "")

theorem splitChars_append {d : Char} {s : List Char} (hs : d ∉ s) (t : List Char) :
    splitChars d (s ++ d :: t) = s :: splitChars d t := by
  induction s with
  | nil => rw [List.nil_append, splitChars, if_pos rfl]
  | cons c s ih =>
    rw [List.mem_cons, not_or] at hs
    obtain ⟨hc, hs⟩ := hs
    rw [List.cons_append, splitChars, if_neg (Ne.symm hc), ih hs]

theorem splitChars_of_not_mem {d : Char} {s : List Char} (hs : d ∉ s) (hne : s ≠ []) :
    splitChars d s = [s] := by
  induction s with
  | nil => exact absurd rfl hne
  | cons c s ih =>
    rw [List.mem_cons, not_or] at hs
    obtain ⟨hc, hs⟩ := hs
    rw [splitChars, if_neg (Ne.symm hc)]
    cases s with
    | nil => rfl
    | cons c' s => rw [ih hs (List.cons_ne_nil _ _)]

theorem not_mem_of_mem_splitChars {d : Char} {s token : List Char} (h : token ∈ splitChars d s) :
    d ∉ token := by
  induction s generalizing token with
  | nil => cases h
  | cons c s ih =>
    rw [splitChars] at h
    by_cases hc : c = d
    · rw [if_pos hc] at h
      rcases List.mem_cons.mp h with rfl | h
      · exact List.not_mem_nil
      · exact ih h
    · rw [if_neg hc] at h
      have hcons : ∀ t, d ∉ t → d ∉ c :: t := fun t ht => by
        rw [List.mem_cons, not_or]
        exact ⟨Ne.symm hc, ht⟩
      cases hs : splitChars d s with
      | nil =>
        rw [hs] at h
        rw [List.mem_singleton.mp h]
        exact hcons [] List.not_mem_nil
      | cons t tokens =>
        rw [hs] at h ih
        rcases List.mem_cons.mp h with rfl | h
        · exact hcons t (ih List.mem_cons_self)
        · exact ih (List.mem_cons_of_mem t h)

theorem map_toList_pathSegments (path : String) :
    (pathSegments path).map String.toList = (splitChars '/' path.toList).filter (· ≠ []) := by
  unfold pathSegments splitString
  rw [List.filter_map, List.map_map]
  have hid : String.toList ∘ String.ofList = id := funext fun s => String.toList_ofList
  have hne : (fun s : String => decide (s ≠ "")) ∘ String.ofList = fun s : List Char => decide (s ≠ []) := by
    funext s
    simp
  rw [hid, List.map_id, hne]

/-- A segment has no slash and is not empty. -/
theorem of_mem_pathSegments {path seg : String} (h : seg ∈ pathSegments path) :
    '/' ∉ seg.toList ∧ seg.toList ≠ [] := by
  have hmem := List.mem_map_of_mem (f := String.toList) h
  rw [map_toList_pathSegments, List.mem_filter] at hmem
  exact ⟨not_mem_of_mem_splitChars hmem.1, of_decide_eq_true hmem.2⟩

/-- The handlers of `handleV1`, with what they are given of the path. -/
inductive Route where
  -- in front of authentication
  | issueToken
  | revokeToken
  | authExchange
  | ssoRedeem
  | verifyMfa
  | providers
  | oauthStart (provider : String)
  | oauthCallback (provider : String)
  -- behind it
  | whoami
  | refreshToken
  | ssoHandoff
  | introspect
  | listIntegrations
  | listTenants
  | storageUsage
  | triggerSync
  | getAllRoles
  | createRole
  | deleteRole (role : String)
  | getUsersForRole (role : String)
  | assignUserToRole (role user : String)
  | removeUserFromRole (role user : String)
  | getRolesForUser (user : String)
  | searchPrincipals
  | erasureStatus (erasureId : String)
  | makeDir (uid : String)
  | listDir (uid : String)
  | removeDir (uid : String)
  | touchFile (uid : String)
  | removeFile (uid : String)
  | putContent (uid : String)
  | getContent (uid : String)
  | downloadTicket (uid : String)
  | playbackTicket (uid : String)
  | undelete (uid : String)
  | listVersions (uid : String)
  | listRenditions (uid : String)
  | restoreVersion (uid : String)
  | purgeVersions (uid : String)
  | eraseNode (uid : String)
  | getVersion (uid version : String)
  | statNode (uid : String)
  | existsNode (uid : String)
  | renameNode (uid : String)
  | moveNode (uid : String)
  | copyNode (uid : String)
  | getAllMeta (uid : String)
  | checkPerm (uid : String)
  | grantPerm (uid : String)
  | revokePerm (uid : String)
  | getAcls (uid : String)
  | getMeta (uid key : String)
  | setMeta (uid key : String)
  | deleteMeta (uid key : String)
  | notFound
  deriving DecidableEq

section Resources

variable (method : String)

def rolesRoute : List String → Route
  | [] =>
    if method = "GET" then .getAllRoles
    else if method = "POST" then .createRole
    else .notFound
  | [role] => if method = "DELETE" then .deleteRole role else .notFound
  | [role, "users"] => if method = "GET" then .getUsersForRole role else .notFound
  | [role, "users", user] =>
    if method = "PUT" then .assignUserToRole role user
    else if method = "DELETE" then .removeUserFromRole role user
    else .notFound
  | _ => .notFound

def dirsRoute (uid : String) : List String → Route
  | [] =>
    if method = "POST" then .makeDir uid
    else if method = "GET" then .listDir uid
    else if method = "DELETE" then .removeDir uid
    else .notFound
  | [sub] => if sub = "files" ∧ method = "POST" then .touchFile uid else .notFound
  | _ => .notFound

def filesRoute (uid : String) : List String → Route
  | [] => if method = "DELETE" then .removeFile uid else .notFound
  | [sub] =>
    if sub = "content" ∧ method = "PUT" then .putContent uid
    else if sub = "content" ∧ method = "GET" then .getContent uid
    else if sub = "download-ticket" ∧ method = "POST" then .downloadTicket uid
    else if sub = "playback-ticket" ∧ method = "POST" then .playbackTicket uid
    else if sub = "undelete" ∧ method = "POST" then .undelete uid
    else if sub = "versions" ∧ method = "GET" then .listVersions uid
    else if sub = "renditions" ∧ method = "GET" then .listRenditions uid
    else if sub = "restore" ∧ method = "POST" then .restoreVersion uid
    else if sub = "purge" ∧ method = "POST" then .purgeVersions uid
    else if sub = "erase" ∧ method = "POST" then .eraseNode uid
    else .notFound
  | [sub, version] => if sub = "versions" ∧ method = "GET" then .getVersion uid version else .notFound
  | _ => .notFound

def nodesRoute (uid : String) : List String → Route
  | [] => if method = "GET" then .statNode uid else .notFound
  | [sub] =>
    if sub = "exists" ∧ method = "GET" then .existsNode uid
    else if sub = "rename" ∧ method = "POST" then .renameNode uid
    else if sub = "move" ∧ method = "POST" then .moveNode uid
    else if sub = "copy" ∧ method = "POST" then .copyNode uid
    else if sub = "metadata" ∧ method = "GET" then .getAllMeta uid
    else if sub = "permissions" ∧ method = "GET" then .checkPerm uid
    else if sub = "permissions" ∧ method = "POST" then .grantPerm uid
    else if sub = "permissions" ∧ method = "DELETE" then .revokePerm uid
    else if sub = "acls" ∧ method = "GET" then .getAcls uid
    else .notFound
  | [sub, key] =>
    if sub ≠ "metadata" then .notFound
    else if method = "GET" then .getMeta uid key
    else if method = "PUT" then .setMeta uid key
    else if method = "DELETE" then .deleteMeta uid key
    else .notFound
  | _ => .notFound

/-- The resources that are named by a uid, of which `root` is the empty one. -/
def uidRoute (resource : String) : List String → Route
  | [] => .notFound
  | name :: subs =>
    let uid := if name = "root" then "" else name
    if resource = "erasures" then
      if subs = [] ∧ method = "GET" then .erasureStatus uid else .notFound
    else if resource = "dirs" then dirsRoute method uid subs
    else if resource = "files" then filesRoute method uid subs
    else if resource = "nodes" then nodesRoute method uid subs
    else .notFound

/-- What an authenticated request is dispatched to, by the segments of its path. -/
def authedRoute (segs : List String) : Route :=
  let resource := segs.getD 1 ""
  let rest := segs.drop 2
  if resource = "whoami" ∧ rest = [] then .whoami
  else if resource = "auth" ∧ rest = ["refresh"] ∧ method = "POST" then .refreshToken
  else if resource = "auth" ∧ rest = ["sso", "handoff"] ∧ method = "POST" then .ssoHandoff
  else if resource = "auth" ∧ rest = ["introspect"] ∧ method = "GET" then .introspect
  else if resource = "integrations" ∧ rest = [] ∧ method = "GET" then .listIntegrations
  else if resource = "tenants" ∧ rest = [] ∧ method = "GET" then .listTenants
  else if resource = "storage" ∧ rest = [] ∧ method = "GET" then .storageUsage
  else if resource = "sync" ∧ rest = [] ∧ method = "POST" then .triggerSync
  else if resource = "roles" then rolesRoute method rest
  else if resource = "users" ∧ rest.length = 2 ∧ rest.getD 1 "" = "roles" ∧ method = "GET" then
    .getRolesForUser (rest.getD 0 "")
  else if resource = "principals" ∧ rest = [] ∧ method = "GET" then .searchPrincipals
  else uidRoute method resource rest

/-- The routes in front of authentication. -/
def frontRoute (path : String) : Option Route :=
  let segs := pathSegments path
  if path = "/v1/auth/token" then
    if method = "POST" then some .issueToken
    else if method = "DELETE" then some .revokeToken
    else some .notFound
  else if path = "/v1/auth/exchange" then if method = "POST" then some .authExchange else some .notFound
  else if path = "/v1/auth/sso/redeem" then if method = "POST" then some .ssoRedeem else some .notFound
  else if path = "/v1/auth/2fa" then if method = "POST" then some .verifyMfa else some .notFound
  else if path = "/v1/auth/providers" ∧ method = "GET" then some .providers
  else if 4 ≤ segs.length ∧ segs.getD 1 "" = "auth" ∧ segs.getD 2 "" = "oauth" then
    if segs.length = 4 ∧ method = "GET" then some (.oauthStart (segs.getD 3 ""))
    else if segs.length = 5 ∧ segs.getD 4 "" = "callback" ∧ method = "GET" then
      some (.oauthCallback (segs.getD 3 ""))
    else some .notFound
  else none

/-- `handleV1`, which is given the paths that begin with `/v1/`. -/
def v1Route (path : String) : Route :=
  (frontRoute method path).getD (authedRoute method (pathSegments path))

end Resources

end HttpBridge
