/-
# The resource handlers

What `http_server.cpp` does behind authentication for each route that is not a
credential endpoint's: it reads the body or the query where the route has one,
makes a call to the core as the caller, and answers with what the core replied,
or with its error (`forward`).

The fields of a body are read one by one (`jsonField` and the others), each with
a default where it cannot be read. JSON and the percent-encoding are Poco's,
which is a parameter here (`Poco`).
-/
import HttpBridge.JsonBodies
import HttpBridge.Net.JsonText
import HttpBridge.Router

namespace HttpBridge

open Interact Net

/-- What the handlers use of Poco: the JSON parser, the conversions of
`Object::getValue` (nothing where they throw), and `URI::decode`. -/
structure Poco where
  parse : String → Option Json
  toText : Json → Option String
  toInt : Json → Option ℤ
  toBool : Json → Option Bool
  uriDecode : String → Option String

/-- Poco on texts without a percent sign, as far as the conversions keep the type. -/
def Poco.plain : Poco where
  parse := JsonText.parse
  toText
    | .str s | .num s => some s
    | .bool b => some (if b then "true" else "false")
    | _ => none
  toInt
    | .num s => (stol s).filter fun n => -2 ^ 31 ≤ n && n < 2 ^ 31
    | _ => none
  toBool
    | .bool b => some b
    | _ => none
  uriDecode s := if '%' ∈ s.toList then none else some s

namespace Handlers

/-! ### Reading a body -/

section Fields

variable {α : Type} (P : Poco)

/-- A field of the object that the body is, converted; the default without. -/
def field (convert : Json → Option α) (default : α) (body key : String) : α :=
  (do
    let v ← P.parse body
    let o ← v.members?
    convert (← o.find key)).getD default

def jsonField : String → String → String := field P P.toText ""

def jsonFieldInt (body key : String) (default : ℤ) : ℤ := field P P.toInt default body key

def jsonFieldBool : String → String → Bool := field P P.toBool false

end Fields

/-- The names of `Permission` in `fileservice.proto`. -/
def permissionNames : List (String × Permission) :=
  [("READ", .read), ("WRITE", .write), ("DELETE", .delete), ("LIST_DELETED", .listDeleted),
    ("UNDELETE", .undelete), ("VIEW_VERSIONS", .viewVersions),
    ("RETRIEVE_BACK_VERSION", .retrieveBackVersion), ("RESTORE_TO_VERSION", .restoreToVersion),
    ("EXECUTE", .execute), ("MANAGE_ACL", .manageAcl), ("ACL_INHERIT", .aclInherit),
    ("CULL_VERSIONS", .cullVersions), ("ERASE", .erase)]

def permissionLetters : List (String × Permission) :=
  [("r", .read), ("w", .write), ("x", .execute), ("d", .delete), ("l", .listDeleted),
    ("u", .undelete), ("v", .viewVersions), ("b", .retrieveBackVersion), ("s", .restoreToVersion),
    ("m", .manageAcl), ("i", .aclInherit)]

/-- The permission that a letter or a name stands for. -/
def permission? (s : String) : Option Permission :=
  (permissionLetters.lookup s).or
    (permissionNames.lookup (String.ofList (s.toList.map Char.toUpper)))

def coercePermission (s : String) : Permission := (permission? s).getD .read

def coerceEffect (s : String) : AclEffect := if s == "deny" || s == "DENY" then .deny else .allow

/-! ### Answers -/

inductive Reply where
  | json (status : ℕ) (body : JsonBody)
  | status (status : ℕ)
  | content (answer : Ranges.ContentAnswer)
  /-- The answer of a credential endpoint. -/
  | credential (response : Response)
  | signIn (answer : FlowAnswer)
  /-- What the sign-in screen is told of the deployment. -/
  | providers (names : List String) (loginSubdomain : String)

def sendError (status : ℕ) (error : String) : Reply := .json status (.error [("error", error)])

def mapError (err : String) : Reply := sendError (httpStatusForCoreError err) err

def notFound : Reply := sendError 404 "not found"

/-- A call to the core as the caller, and the answer to it. -/
def forward (id : AuthIdentity) (call : CoreRequest) (ok : call.Value → Reply) : Handler Reply := do
  let r ← callCore id call
  return if r.success then ok r.value else mapError r.error

/-- A call that carries nothing back. -/
def forwardPlain (id : AuthIdentity) (call : CoreRequest) : Handler Reply :=
  forward id call fun _ => .status 204

/-! ### Entries -/

section Entries

variable (P : Poco) (id : AuthIdentity)

def makeDir (parent : String) : Handler Reply := do
  let name := jsonField P (← readBody) "name"
  if name == "" then return sendError 400 "missing 'name'"
  forward id (.makeDirectory parent name) fun uid => .json 201 (.uid uid)

def touchFile (parent : String) : Handler Reply := do
  let name := jsonField P (← readBody) "name"
  if name == "" then return sendError 400 "missing 'name'"
  forward id (.touch parent name) fun uid => .json 201 (.uid uid)

/-- `childrenJson`: the files among the children, or none where they cannot be
listed. -/
def childrenOf (uid : String) : Handler (List DirectoryEntry) := do
  let r ← callCore id (.listDirectory uid)
  return if r.success then r.value.filter (·.type ≠ .directory) else []

/-- The loop of `entriesJson`: the entries with the children of those that have
some, as long as the budget lasts, and whether it has not. -/
def withChildren : ℤ → List DirectoryEntry →
    Handler (List (DirectoryEntry × Option (List DirectoryEntry)) × Bool)
  | _, [] => return ([], false)
  | budget, e :: es => do
    if e.renditionCount ≤ 0 then
      let rest ← withChildren budget es
      return ((e, none) :: rest.1, rest.2)
    else if 0 < budget then
      let children ← childrenOf id e.uid
      let rest ← withChildren (budget - 1) es
      return ((e, some children) :: rest.1, rest.2)
    else
      let rest ← withChildren budget es
      return ((e, none) :: rest.1, true)

/-- `entriesJson`. -/
def entries (limit : ℤ) (children : Bool) (es : List DirectoryEntry) : Handler Reply :=
  if children then do
    let found ← withChildren id limit es
    return .json 200 (.listing found.1 (some !found.2))
  else return .json 200 (.listing (es.map fun e => (e, none)) none)

def listDir (limit : ℤ) (uri uid : String) : Handler Reply := do
  let children := mentions uri "children=1" || mentions uri "children=true"
  if mentions uri "deleted=true" then
    let r ← callCore id (.listDirectoryWithDeleted uid)
    if !r.success then return mapError r.error
    entries id limit children r.value
  else
    let r ← callCore id (.listDirectory uid)
    if !r.success then return mapError r.error
    entries id limit children r.value

def removeDir (uid : String) : Handler Reply := forwardPlain id (.removeDirectory uid)

def removeFile (uid : String) : Handler Reply := forwardPlain id (.removeFile uid)

def listRenditions (uid : String) : Handler Reply :=
  forward id (.listDirectory uid) fun es => .json 200 (.listing (es.map fun e => (e, none)) none)

def statNode (uid : String) : Handler Reply := forward id (.stat uid) fun info => .json 200 (.stat info)

def existsNode (uid : String) : Handler Reply := forward id (.exists uid) fun b => .json 200 (.exists b)

def undelete (uid : String) : Handler Reply := forwardPlain id (.undeleteFile uid)

def renameNode (uid : String) : Handler Reply := do
  let newName := jsonField P (← readBody) "new_name"
  if newName == "" then return sendError 400 "missing 'new_name'"
  forwardPlain id (.rename uid newName)

def moveNode (uid : String) : Handler Reply := do
  let dest := jsonField P (← readBody) "destination_parent_uid"
  forwardPlain id (.move uid dest)

def copyNode (uid : String) : Handler Reply := do
  let dest := jsonField P (← readBody) "destination_parent_uid"
  forwardPlain id (.copy uid dest)

end Entries

/-! ### Content -/

section Content

variable (id : AuthIdentity)

def putContent (uid : String) : Handler Reply := do
  let r ← @Prog.perform ServerOp ServerAns (.inr (.streamFileUpload uid (fillAuth id)))
  return if r.success then .status 204 else mapError r.error

def getContent (range uid : String) : Handler Reply := do
  let rq := Ranges.fileRequest (Ranges.parseRange range)
  let stream ← @Prog.perform ServerOp ServerAns (.inr (.streamFileDownload uid "" rq (fillAuth id)))
  return .content (Ranges.getContent id.playbackMime range fun _ => stream)

/-- The frames of a version, written as they come. -/
def getVersion (uid ts : String) : Handler Reply := do
  let stream ← @Prog.perform ServerOp ServerAns (.inr (.streamFileDownload uid ts {} (fillAuth id)))
  let written := Ranges.streamFileDownload (fun s _ => (s, true))
    (fun (s : Option Ranges.Bytes) chunk => (some (s.getD [] ++ chunk), true)) none stream
  let head : Ranges.Head :=
    { status := 200, nosniff := false, contentType := some "application/octet-stream" }
  return match written with
    | (none, some err) => mapError err
    | (none, none) => .content (.content { head with contentLength := some 0 } [])
    | (some body, _) => .content (.content head body)

end Content

/-! ### Versions -/

section Versions

variable (P : Poco) (id : AuthIdentity)

def listVersions (uid : String) : Handler Reply :=
  forward id (.listVersions uid) fun vs => .json 200 (.versions vs)

def restoreVersion (uid : String) : Handler Reply := do
  let ts := jsonField P (← readBody) "version_timestamp"
  forward id (.restoreToVersion uid ts) fun version => .json 200 (.restored version)

def purgeVersions (uid : String) : Handler Reply := do
  let keep := jsonFieldInt P (← readBody) "keep_count" 1
  forwardPlain id (.purgeOldVersions uid keep)

def eraseNode (uid : String) : Handler Reply := do
  let body ← readBody
  forward id (.eraseFile uid (jsonFieldBool P body "retain_name") (jsonField P body "reason")) fun started =>
    .json (if started.state = .complete then 200 else 202) (.erasureStarted started)

def erasureStatus (erasureId : String) : Handler Reply :=
  forward id (.getErasureStatus erasureId) fun record => .json 200 (.erasureStatus erasureId record)

end Versions

/-! ### Metadata and permissions -/

section Metadata

variable (P : Poco) (id : AuthIdentity)

def getAllMeta (uid : String) : Handler Reply :=
  forward id (.getAllMetadata uid) fun kvs => .json 200 (.metadata kvs)

def getMeta (uid key : String) : Handler Reply :=
  forward id (.getMetadata uid key) fun value => .json 200 (.value value)

def setMeta (uid key : String) : Handler Reply := do
  let value := jsonField P (← readBody) "value"
  forwardPlain id (.setMetadata uid key value)

def deleteMeta (uid key : String) : Handler Reply := forwardPlain id (.deleteMetadata uid key)

def checkPerm (query : List (String × String)) (uid : String) : Handler Reply := do
  let call : CoreRequest := .checkPermission uid (coercePermission (queryValue query "permission"))
  let r ← @Prog.perform ServerOp ServerAns (.inr (.core call (checkedAs id query)))
  return if r.success then .json 200 (.hasPermission r.value) else mapError r.error

def getAcls (uid : String) : Handler Reply :=
  forward id (.getResourceAcls uid) fun acls => .json 200 (.acls acls)

/-- What `grantPerm` and `revokePerm` share: the permission that the body names. -/
def changePerm (call : (principal : String) → Permission → AclEffect → (recursive : Bool) → CoreRequest) :
    Handler Reply := do
  let body ← readBody
  let principal := jsonField P body "principal"
  if principal == "" then return sendError 400 "missing 'principal'"
  let permission := coercePermission (jsonField P body "permission")
  let effect := coerceEffect (jsonField P body "effect")
  forwardPlain id (call principal permission effect (jsonFieldBool P body "recursive"))

def grantPerm (uid : String) : Handler Reply := changePerm P id (.grantPermission uid)

def revokePerm (uid : String) : Handler Reply := changePerm P id (.revokePermission uid)

end Metadata

/-! ### Roles -/

/-- `webdav::trim`. -/
def trim (s : String) : String := trimmed [' ', '\t', '\n', '\r', '\x0c', '\x0b'] s

/-- A role name as `isReservedRole` compares it: decoded, lower-cased and trimmed. -/
def normalRole (P : Poco) (raw : String) : String := trim (lowered ((P.uriDecode raw).getD raw))

def kReserved : List String :=
  ["system_admin", "tenant_admin", "erasure_admin", "administrators", "erasure_admins"]

def isReservedRole (P : Poco) (raw : String) : Bool := kReserved.contains (normalRole P raw)

/-- `refuseReservedRole`, where it returns true. -/
def refusesReservedRole (P : Poco) (id : AuthIdentity) (role : String) : Bool :=
  isReservedRole P role && !id.roles.contains "system_admin"

/-- `requireTenantAdmin`. -/
def isTenantAdmin (id : AuthIdentity) : Bool :=
  id.roles.any fun r => r == "administrators" || r == "tenant_admin" || r == "system_admin"

def adminRequired : Reply := sendError 403 "admin role required"

def reservedRole : Reply := sendError 403 "reserved role: membership is managed in the directory"

section Roles

variable (P : Poco) (id : AuthIdentity)

/-- What an admin may do with a role that is not reserved. -/
def changeRole (role : String) (next : Handler Reply) : Handler Reply :=
  if refusesReservedRole P id role then return reservedRole else next

def createRole : Handler Reply := do
  if !isTenantAdmin id then return adminRequired
  let role := jsonField P (← readBody) "role"
  if role == "" then return sendError 400 "missing 'role'"
  changeRole P id role (forward id (.createRole role) fun _ => .json 201 (.role role))

def deleteRole (role : String) : Handler Reply :=
  if !isTenantAdmin id then return adminRequired
  else changeRole P id role (forwardPlain id (.deleteRole role))

def assignUserToRole (role user : String) : Handler Reply :=
  if !isTenantAdmin id then return adminRequired
  else changeRole P id role (forwardPlain id (.assignUserToRole user role))

def removeUserFromRole (role user : String) : Handler Reply :=
  if !isTenantAdmin id then return adminRequired
  else changeRole P id role (forwardPlain id (.removeUserFromRole user role))

def getAllRoles : Handler Reply := forward id .getAllRoles fun v => .json 200 (.roles v)

def getUsersForRole (role : String) : Handler Reply :=
  forward id (.getUsersForRole role) fun v => .json 200 (.users v)

def getRolesForUser (user : String) : Handler Reply :=
  forward id (.getRolesForUser user) fun v => .json 200 (.roles v)

end Roles

/-! ### The deployment -/

section Deployment

variable (id : AuthIdentity)

/-- `std::stoi`; nothing where it throws. -/
def stoi (s : String) : Option ℤ := (stol s).filter fun n => -2 ^ 31 ≤ n && n < 2 ^ 31

/-- The limit of a search for principals. -/
def searchLimit (query : List (String × String)) : ℤ :=
  let limit := (query.filter fun kv => kv.1 == "limit").foldl (fun n kv => (stoi kv.2).getD n) 20
  if limit ≤ 0 || 100 < limit then 20 else limit

def searchPrincipals (query : List (String × String)) : Handler Reply := do
  let q := ((query.reverse.find? fun kv => kv.1 == "q" || kv.1 == "prefix").map (·.2)).getD ""
  let types := queryValue query "types"
  let wants (one many : String) : Bool :=
    types == "" || (splitString types ',').any fun t => t == one || t == many
  let limit := searchLimit query
  let roles ← if wants "role" "roles" then
      @Prog.perform ServerOp ServerAns (.inr (.searchRoles id.tenant q limit)) else pure []
  let claims ← if wants "claim" "claims" then callCore id (.listClaims q limit)
    else pure { success := true, value := [] }
  if !claims.success then return mapError claims.error
  let users ← if wants "user" "users" then
      @Prog.perform ServerOp ServerAns (.inr (.searchUsers q limit)) else pure []
  return .json 200 (.principals users roles claims.value)

def storageUsage : Handler Reply :=
  forward id (.getStorageUsage id.tenant) fun usage => .json 200 (.storage usage)

def triggerSync : Handler Reply := forwardPlain id (.triggerSync id.tenant)

def listIntegrations (cfg : Config) : Handler Reply :=
  return if isTenantAdmin id then .json 200 (.integrations cfg) else adminRequired

def whoami : Handler Reply :=
  return .json 200 (.whoami id.user id.tenant (effectiveRoles id.roles))

def introspect : Handler Reply :=
  return .json 200 (.introspect id.user id.tenant (effectiveRoles id.roles))

end Deployment

/-! ### What a handler does on a body -/

/-- Whatever is read of the body of the request is `body`. -/
def ReadsBody (body : String) (tr : List (Event ServerAns)) : Prop :=
  ∀ e ∈ tr, ∀ s, bodyCopied e = some s → s = body

/-- On a request with this body the handler performs no such operation. -/
def Avoids (body : String) (bad : ServerOp → Prop) (p : Handler Reply) : Prop :=
  p.Every fun tr op => ReadsBody body tr → ¬ bad op

namespace Avoids

variable {body : String} {bad : ServerOp → Prop}

@[simp] theorem ret (reply : Reply) : Avoids body bad (.ret reply) := Prog.every_ret _ reply

/-- The body is read as it is. -/
theorem readBody_bind {f : String → Handler Reply} (hread : ¬ bad (.inr .readBody)) :
    Avoids body bad (readBody >>= f) ↔ Avoids body bad (f body) := by
  have hcons : ∀ s tr, ReadsBody body (⟨.inr .readBody, s⟩ :: tr) ↔ s = body ∧ ReadsBody body tr := by
    intro s tr
    rw [ReadsBody, List.forall_mem_cons]
    refine and_congr_left fun _ => ⟨fun h => h s rfl, ?_⟩
    rintro rfl s' hs
    exact (Option.some.inj hs).symm
  refine (@Prog.every_perform_bind ServerOp ServerAns Reply _ (.inr .readBody) f).trans ?_
  constructor
  · rintro ⟨-, h⟩ tr op k hr hread
    exact h body tr op k hr ((hcons body tr).mpr ⟨rfl, hread⟩)
  · intro h
    refine ⟨fun _ => hread, fun s tr op k hr hs => ?_⟩
    obtain ⟨rfl, hread⟩ := (hcons s tr).mp hs
    exact h tr op k hr hread

/-- An operation of another kind reads no body. -/
theorem readsBody_cons_inl {op : FlowOp} {a : FlowAns op} {tr : List (Event ServerAns)} :
    ReadsBody body (⟨.inl op, a⟩ :: tr) ↔ ReadsBody body tr := by
  rw [ReadsBody, List.forall_mem_cons]
  exact and_iff_right nofun

/-- A part of the credential endpoints returns, and the rest goes on from there. -/
theorem inl_bind {α : Type} {f : α → Handler Reply} (hbad : ∀ op, ¬ bad (.inl op)) :
    ∀ p : Flow α, Avoids body bad (p.inl >>= f) ↔ ∀ tr a, p.Yields tr a → Avoids body bad (f a)
  | .ret a => by
    simp only [Prog.ret_yields]
    constructor
    · rintro h tr b ⟨-, rfl⟩
      exact h
    · exact fun h => h [] a ⟨rfl, rfl⟩
  | .call op k => by
    have hstep : Avoids body bad ((Prog.call op k).inl >>= f) ↔
        ∀ a, Avoids body bad ((k a).inl >>= f) := by
      refine (@Prog.every_call ServerOp ServerAns Reply _ (.inl op) _).trans ?_
      refine (and_iff_right fun _ => hbad op).trans (forall_congr' fun a => ?_)
      have hpast : (fun tr op' => ReadsBody body (⟨.inl op, a⟩ :: tr) → ¬ bad op') =
          fun tr op' => ReadsBody body tr → ¬ bad op' := by
        funext tr op'
        exact propext (imp_congr_left readsBody_cons_inl)
      rw [hpast]
      rfl
    rw [hstep]
    constructor
    · intro h tr b hy
      cases tr with
      | nil => simp [Prog.Yields] at hy
      | cons e tr =>
        obtain ⟨a, -, hy⟩ := hy
        exact (inl_bind hbad (k a)).mp (h a) tr b hy
    · intro h a
      exact (inl_bind hbad (k a)).mpr fun tr b hy => h (⟨op, a⟩ :: tr) b ⟨a, rfl, hy⟩

/-- The same of a part that needs no store of sign-ins. -/
theorem lift_bind {α : Type} {f : α → Handler Reply} (hbad : ∀ op, ¬ bad (.inl op)) (p : Bridge α) :
    Avoids body bad (Bridge.lift p >>= f) ↔ ∀ tr a, p.Yields tr a → Avoids body bad (f a) := by
  refine (inl_bind hbad p.inl).trans ?_
  constructor
  · exact fun h tr a hy => h _ a (Prog.inl_yields hy)
  · exact fun h tr a hy => h _ a (Prog.yields_inl hy)

theorem of_calls {p : Handler Reply} (h : p.Calls fun op => ¬ bad op) : Avoids body bad p :=
  fun _ _ _ hr _ => (h.of_reaches hr).2.1

/-- A handler that forwards one call performs that call. -/
theorem forward {id : AuthIdentity} {call : CoreRequest} {ok : call.Value → Reply} :
    Avoids body bad (forward id call ok) ↔ ¬ bad (.inr (.core call (fillAuth id))) := by
  refine (@Prog.every_perform_bind ServerOp ServerAns Reply _ (.inr (.core call (fillAuth id))) _).trans ?_
  constructor
  · exact fun h => h.1 fun e he => absurd he List.not_mem_nil
  · exact fun h => ⟨fun _ => h, fun r => Prog.every_ret _ _⟩

theorem forwardPlain {id : AuthIdentity} {call : CoreRequest} :
    Avoids body bad (forwardPlain id call) ↔ ¬ bad (.inr (.core call (fillAuth id))) :=
  Avoids.forward

end Avoids

end Handlers
end HttpBridge
