/-
# The JSON bodies

The texts that the handlers put together by hand (`http_server.cpp`,
`integration_status.h`), and for each the document it is meant to be
(`JsonBody.json`). A string goes into a text through `jsonEscape` or
`jsonEscapeStatus`, except where the source concatenates it as it is:
the tenant of `secondFactorJson` and the core's error in `unavailableJson`.

`JsonBody.text` takes the serializer of Poco for the values that the source
hands over to it, and a token is what `jwt.h` signs: base64url and dots.
-/
import HttpBridge.CoreCalls
import HttpBridge.Net.JsonReads

namespace HttpBridge

open Net JsonText

/-! ### Escaping -/

/-- `snprintf` of `\u%04x`. -/
def unicodeEscape (n : ℕ) : List Char :=
  let hex := Nat.toDigits 16 n
  '\\' :: 'u' :: (List.replicate (4 - hex.length) '0' ++ hex)

/-- The switch of `jsonEscape`. -/
def escapedChar (c : Char) : List Char :=
  if c = '"' then ['\\', '"']
  else if c = '\\' then ['\\', '\\']
  else if c = '\n' then ['\\', 'n']
  else if c = '\r' then ['\\', 'r']
  else if c = '\t' then ['\\', 't']
  else if c.toNat < 0x20 then unicodeEscape c.toNat
  else [c]

def jsonEscape (s : String) : String := String.ofList (s.toList.flatMap escapedChar)

def hexDigits : List Char := "0123456789abcdef".toList

/-- The switch of `jsonEscapeStatus`. -/
def escapedStatusChar (c : Char) : List Char :=
  if c = '"' then ['\\', '"']
  else if c = '\\' then ['\\', '\\']
  else if c = '\n' then ['\\', 'n']
  else if c = '\r' then ['\\', 'r']
  else if c = '\t' then ['\\', 't']
  else if c.toNat < 0x20 then
    ['\\', 'u', '0', '0', hexDigits.getD (c.toNat / 16 % 16) '0', hexDigits.getD (c.toNat % 16) '0']
  else [c]

/-- `integration_status.h`, `jsonEscapeStatus`. -/
def jsonEscapeStatus (s : String) : String := String.ofList (s.toList.flatMap escapedStatusChar)

/-! ### Pieces -/

/-- What the loops append that put a comma before each piece but the first. -/
def commaSeparated : List String → String
  | [] => ""
  | [t] => t
  | t :: u :: ts => t ++ "," ++ commaSeparated (u :: ts)

def jsonArray (v : List String) : String :=
  "[" ++ commaSeparated (v.map fun s => "\"" ++ jsonEscape s ++ "\"") ++ "]"

def jsonBool (b : Bool) : String := if b then "true" else "false"

def FileType.text : FileType → String
  | .directory => "directory"
  | .symlink => "symlink"
  | .regularFile => "file"

/-- `std::to_string` of a double. -/
def Double.text : Double → String
  | .finite negative whole millionths =>
    let places := Nat.toDigits 10 millionths
    (if negative then "-" else "") ++ toString whole ++ "." ++
      String.ofList (List.replicate (6 - places.length) '0' ++ places)
  | .inf negative => (if negative then "-" else "") ++ "inf"
  | .nan negative => (if negative then "-" else "") ++ "nan"

/-- `jwt.h`, `sign`: base64url parts with dots between them. -/
structure SignedToken where
  text : String
  encoded : ∀ c ∈ text.toList, c.isAlphanum ∨ c ∈ ['-', '_', '.']

/-- A value that a serializer writes. -/
structure JsonValue where
  json : Json
  wellFormed : WellFormed json

/-! ### Texts -/

/-- A member whose value is a string. -/
def fieldJson (f : String × String) : String := "\"" ++ jsonEscape f.1 ++ "\":\"" ++ jsonEscape f.2 ++ "\""

/-- An error answer: `mapError`, `tenantRefused`, and those with a fixed text,
which needs no escape. -/
def errorJson (fields : List (String × String)) : String :=
  "\x7b" ++ commaSeparated (fields.map fieldJson) ++ "\x7d"

/-- `authenticate`, where the tenant requires a second factor. -/
def secondFactorJson (activeTenant : String) : String :=
  "\x7b\"error\":\"2fa_required\",\"tenant\":\"" ++ activeTenant ++ "\"\x7d"

def uidJson (uid : String) : String := "\x7b\"uid\":\"" ++ jsonEscape uid ++ "\"\x7d"

def childJson (c : DirectoryEntry) : String :=
  "\x7b\"uid\":\"" ++ jsonEscape c.uid ++ "\",\"name\":\"" ++ jsonEscape c.name ++
    "\",\"size\":" ++ toString c.size ++ ",\"modified_at\":" ++ toString c.modifiedAt ++ "\x7d"

/-- An entry of `entriesJson`, with its children where they were looked up. -/
def entryJson (e : DirectoryEntry) (children : Option (List DirectoryEntry)) : String :=
  "\x7b\"uid\":\"" ++ jsonEscape e.uid ++ "\",\"name\":\"" ++ jsonEscape e.name ++
    "\",\"type\":\"" ++ e.type.text ++ "\",\"size\":" ++ toString e.size ++
    ",\"version_count\":" ++ toString e.versionCount ++
    ",\"rendition_count\":" ++ toString e.renditionCount ++
    ",\"has_renditions\":" ++ jsonBool (0 < e.renditionCount) ++
    ",\"deleted\":" ++ jsonBool e.deleted ++
    ",\"created_at\":" ++ toString e.createdAt ++
    ",\"modified_at\":" ++ toString e.modifiedAt ++
    ",\"owner\":\"" ++ jsonEscape e.owner ++ "\"" ++
    ",\"created_by\":\"" ++ jsonEscape e.createdBy ++ "\"" ++
    ",\"modified_by\":\"" ++ jsonEscape e.modifiedBy ++ "\"" ++
    (match children with
      | none => ""
      | some cs => ",\"children\":" ++ ("[" ++ commaSeparated (cs.map childJson) ++ "]")) ++
    "\x7d"

/-- `entriesJson`. -/
def listingJson (entries : List (DirectoryEntry × Option (List DirectoryEntry)))
    (complete : Option Bool) : String :=
  "\x7b\"entries\":[" ++ commaSeparated (entries.map fun e => entryJson e.1 e.2) ++ "]" ++
    (match complete with
      | none => ""
      | some b => ",\"children_complete\":" ++ jsonBool b) ++
    "\x7d"

def statJson (i : FileInfo) : String :=
  "\x7b\"uid\":\"" ++ jsonEscape i.uid ++ "\",\"name\":\"" ++ jsonEscape i.name ++
    "\",\"parent_uid\":\"" ++ jsonEscape i.parentUid ++ "\",\"type\":\"" ++ i.type.text ++
    "\",\"size\":" ++ toString i.size ++ ",\"owner\":\"" ++ jsonEscape i.owner ++
    "\",\"version\":\"" ++ jsonEscape i.version ++
    "\",\"created_at\":" ++ toString i.createdAt ++
    ",\"modified_at\":" ++ toString i.modifiedAt ++
    ",\"rendition_count\":" ++ toString i.renditionCount ++
    ",\"has_renditions\":" ++ jsonBool (0 < i.renditionCount) ++ "\x7d"

def existsJson (b : Bool) : String := "\x7b\"exists\":" ++ jsonBool b ++ "\x7d"

def versionEntryJson (e : VersionEntry) : String :=
  "\x7b\"version\":\"" ++ jsonEscape e.versionTimestamp ++ "\",\"revised_by\":\"" ++
    jsonEscape e.revisedBy ++ "\"\x7d"

def versionsJson (r : VersionList) : String :=
  let entries := "[" ++ commaSeparated (r.entries.map versionEntryJson) ++ "]"
  "\x7b\"versions\":" ++ jsonArray r.versions ++ ",\"entries\":" ++ entries ++ "\x7d"

def restoredJson (version : String) : String :=
  "\x7b\"restored_version\":\"" ++ jsonEscape version ++ "\"\x7d"

/-- `eraseNode`. -/
def erasureStartedJson (r : ErasureStarted) : String :=
  "\x7b\"erasure_id\":\"" ++ jsonEscape r.erasureId ++
    "\",\"state\":\"" ++ (if r.state = .complete then "complete" else "initiated") ++
    "\",\"awaiting\":" ++ jsonArray r.awaiting ++
    ",\"erasure_ids\":" ++ jsonArray r.erasureIds ++ "\x7d"

def ErasureState.text : ErasureState → String
  | .complete => "complete"
  | .failed => "failed"
  | .initiated => "initiated"

def ackJson (a : ErasureAck) : String :=
  "\x7b\"participant\":\"" ++ jsonEscape a.participant ++
    "\",\"acked_at\":" ++ toString a.ackedAt ++
    ",\"complied\":" ++ jsonBool a.complied ++
    ",\"detail\":\"" ++ jsonEscape a.detail ++ "\"\x7d"

/-- `erasureStatus`. -/
def erasureStatusJson (erasureId : String) (r : ErasureRecord) : String :=
  "\x7b\"erasure_id\":\"" ++ jsonEscape erasureId ++
    "\",\"uid\":\"" ++ jsonEscape r.uid ++
    "\",\"state\":\"" ++ r.state.text ++
    "\",\"actor\":\"" ++ jsonEscape r.actor ++
    "\",\"reason\":\"" ++ jsonEscape r.reason ++
    "\",\"initiated_at\":" ++ toString r.initiatedAt ++
    ",\"completed_at\":" ++ toString r.completedAt ++
    ",\"acks\":[" ++ commaSeparated (r.acks.map ackJson) ++
    "],\"awaiting\":" ++ jsonArray r.awaiting ++ "\x7d"

/-- `getAllMeta`. -/
def metadataJson (metadata : List (String × String)) : String :=
  "\x7b\"metadata\":\x7b" ++
    commaSeparated (metadata.map fieldJson) ++ "\x7d\x7d"

def valueJson (value : String) : String := "\x7b\"value\":\"" ++ jsonEscape value ++ "\"\x7d"

def hasPermissionJson (b : Bool) : String := "\x7b\"has_permission\":" ++ jsonBool b ++ "\x7d"

def aclJson (e : AclEntryMessage) : String :=
  "\x7b\"principal\":\"" ++ jsonEscape e.principal ++
    "\",\"type\":" ++ toString e.type ++
    ",\"permissions\":" ++ toString e.permissions ++
    ",\"effect\":" ++ toString e.effect ++ "\x7d"

/-- `getAcls`. -/
def aclsJson (acls : List AclEntryMessage) : String :=
  "\x7b\"acls\":[" ++ commaSeparated (acls.map aclJson) ++ "]\x7d"

def roleJson (role : String) : String := "\x7b\"role\":\"" ++ jsonEscape role ++ "\"\x7d"

def rolesJson (v : List String) : String := "\x7b\"roles\":" ++ jsonArray v ++ "\x7d"

def usersJson (v : List String) : String := "\x7b\"users\":" ++ jsonArray v ++ "\x7d"

/-- `searchPrincipals`. -/
def principalsJson (users roles claims : List String) : String :=
  "\x7b\"users\":" ++ jsonArray users ++ ",\"roles\":" ++ jsonArray roles ++
    ",\"claims\":" ++ jsonArray claims ++ "\x7d"

/-- `storageUsage`. -/
def storageJson (r : StorageUsage) : String :=
  "\x7b\"total_space\":" ++ toString r.totalSpace ++
    ",\"used_space\":" ++ toString r.usedSpace ++
    ",\"available_space\":" ++ toString r.availableSpace ++
    ",\"usage_percentage\":" ++ r.usagePercentage.text ++ "\x7d"

/-- `integrationStatusJson`. -/
def integrationStatusJson (issuer audience : String) (keyPresent : Bool) (allowedIps : List String)
    (allowService : Bool) : String :=
  let enabled := issuer != "" && keyPresent
  let ips := commaSeparated (allowedIps.map fun s => "\"" ++ jsonEscapeStatus s ++ "\"")
  "\x7b" ++ "\"enabled\":" ++ jsonBool enabled ++
    ",\"issuer\":\"" ++ jsonEscapeStatus issuer ++ "\"" ++
    ",\"audience\":\"" ++ jsonEscapeStatus audience ++ "\"" ++
    ",\"key_present\":" ++ jsonBool keyPresent ++
    ",\"allowed_ips\":[" ++ ips ++ "]" ++
    ",\"ip_allowlist_enforced\":" ++ jsonBool (!allowedIps.isEmpty) ++
    ",\"allow_service\":" ++ jsonBool allowService ++ "\x7d"

/-- `listIntegrations`: the integration of the deployment, once anything of it
is configured. -/
def integrationsJson (cfg : Config) : String :=
  let keyPresent := cfg.integrationPublicKey != ""
  "\x7b\"integrations\":[" ++
    (if cfg.integrationIssuer != "" || keyPresent then
      integrationStatusJson cfg.integrationIssuer cfg.integrationAudience keyPresent
        cfg.integrationAllowedIps cfg.integrationAllowService
    else "") ++ "]\x7d"

def whoamiJson (user tenant : String) (roles : List String) : String :=
  "\x7b\"user\":\"" ++ jsonEscape user ++ "\",\"tenant\":\"" ++ jsonEscape tenant ++
    "\",\"roles\":" ++ jsonArray roles ++ "\x7d"

def introspectJson (user tenant : String) (roles : List String) : String :=
  "\x7b\"active\":true,\"user\":\"" ++ jsonEscape user ++ "\",\"tenant\":\"" ++ jsonEscape tenant ++
    "\",\"roles\":" ++ jsonArray roles ++ "\x7d"

/-- `listTenants`. -/
def tenantsJson (tenants : List String) (current : String) : String :=
  "\x7b\"tenants\":" ++ jsonArray tenants ++ ",\"current\":\"" ++ jsonEscape current ++ "\"\x7d"

/-- `healthz`. -/
def healthyJson : String := "\x7b\"status\":\"ok\"\x7d"

/-- `readyz`. -/
def readyJson : String := "\x7b\"status\":\"ready\",\"core\":true,\"audit\":true\x7d"

/-- `readyz`, where the core or the audit does not answer. -/
def unavailableJson (coreOk auditOk : Bool) (error : String) : String :=
  "\x7b\"status\":\"unavailable\",\"core\":" ++ jsonBool coreOk ++ ",\"audit\":" ++ jsonBool auditOk ++
    (if coreOk then "" else ",\"error\":\"" ++ error ++ "\"") ++ "\x7d"

/-- The field a session or service token stands in. -/
inductive TokenField where
  | token
  | accessToken
  deriving DecidableEq

def TokenField.text : TokenField → String
  | .token => "token"
  | .accessToken => "access_token"

/-- A session or service token, with the codes of a second factor just set up. -/
def tokenJson (field : TokenField) (token : SignedToken) (expiresIn : ℤ)
    (recoveryJson : Option String) : String :=
  "\x7b\"" ++ field.text ++ "\":\"" ++ token.text ++ "\",\"token_type\":\"Bearer\",\"expires_in\":" ++
    toString expiresIn ++
    (match recoveryJson with
      | none => ""
      | some codes => ",\"recovery_codes\":" ++ codes) ++ "\x7d"

/-- The field a ticket or a hand-off code stands in. -/
inductive SignedField where
  | ticket
  | code
  deriving DecidableEq

def SignedField.text : SignedField → String
  | .ticket => "ticket"
  | .code => "code"

def signedJson (field : SignedField) (token : SignedToken) (expiresIn : ℤ) : String :=
  "\x7b\"" ++ field.text ++ "\":\"" ++ token.text ++ "\",\"expires_in\":" ++ toString expiresIn ++ "\x7d"

structure PoolCounts where
  capacity : ℤ
  used : ℤ
  available : ℤ
  maxQueued : ℤ

def poolFields (p : PoolCounts) : String :=
  "\"pool\":\x7b\"capacity\":" ++ toString p.capacity ++ ",\"used\":" ++ toString p.used ++
    ",\"available\":" ++ toString p.available ++ ",\"max_queued\":" ++ toString p.maxQueued ++ "\x7d"

/-- `MonitorHandler`, `/healthz`. -/
def monitorHealthJson : String := "\x7b\"status\":\"ok\",\"service\":\"http_bridge\"\x7d"

/-- `MonitorHandler`, `/readyz`. -/
def monitorReadyJson (p : PoolCounts) : String :=
  "\x7b\"ready\":" ++ jsonBool (0 < p.available) ++ "," ++ poolFields p ++ "\x7d"

/-- `MonitorHandler`, `/poolz`. -/
def poolzJson (p : PoolCounts) : String :=
  "\x7b" ++ poolFields p ++ ",\"saturated\":" ++ jsonBool (!(0 < p.available)) ++ "\x7d"

/-- `OverloadHandler`. -/
def overloadedJson : String :=
  "\x7b\"error\":\"overloaded\",\"detail\":\"server is at capacity, retry shortly\"\x7d"

/-! ### Bodies -/

/-- A JSON body of an answer, before it is written. -/
inductive JsonBody where
  | error (fields : List (String × String))
  | secondFactor (activeTenant : String)
  | uid (uid : String)
  | listing (entries : List (DirectoryEntry × Option (List DirectoryEntry))) (complete : Option Bool)
  | stat (info : FileInfo)
  | exists (b : Bool)
  | versions (r : VersionList)
  | restored (version : String)
  | erasureStarted (r : ErasureStarted)
  | erasureStatus (erasureId : String) (r : ErasureRecord)
  | metadata (metadata : List (String × String))
  | value (value : String)
  | hasPermission (b : Bool)
  | acls (acls : List AclEntryMessage)
  | role (role : String)
  | roles (roles : List String)
  | users (users : List String)
  | principals (users roles claims : List String)
  | storage (r : StorageUsage)
  | integrations (cfg : Config)
  | whoami (user tenant : String) (roles : List String)
  | introspect (user tenant : String) (roles : List String)
  | tenants (tenants : List String) (current : String)
  | healthy
  | ready
  | unavailable (coreOk auditOk : Bool) (error : String)
  | token (field : TokenField) (token : SignedToken) (expiresIn : ℤ) (recoveryCodes : Option JsonValue)
  | signed (field : SignedField) (token : SignedToken) (expiresIn : ℤ)
  /-- What the serializer writes: the providers, a challenge, whether a code was sent. -/
  | written (v : JsonValue)
  | monitorHealth
  | monitorReady (pool : PoolCounts)
  | poolz (pool : PoolCounts)
  | overloaded

/-- The text of a body. -/
def JsonBody.text (Z : Serializer) : JsonBody → String
  | .error fields => errorJson fields
  | .secondFactor activeTenant => secondFactorJson activeTenant
  | .uid u => uidJson u
  | .listing entries complete => listingJson entries complete
  | .stat info => statJson info
  | .exists b => existsJson b
  | .versions r => versionsJson r
  | .restored version => restoredJson version
  | .erasureStarted r => erasureStartedJson r
  | .erasureStatus erasureId r => erasureStatusJson erasureId r
  | .metadata kvs => metadataJson kvs
  | .value v => valueJson v
  | .hasPermission b => hasPermissionJson b
  | .acls es => aclsJson es
  | .role name => roleJson name
  | .roles names => rolesJson names
  | .users names => usersJson names
  | .principals us rs cs => principalsJson us rs cs
  | .storage r => storageJson r
  | .integrations cfg => integrationsJson cfg
  | .whoami user tenant rs => whoamiJson user tenant rs
  | .introspect user tenant rs => introspectJson user tenant rs
  | .tenants names current => tenantsJson names current
  | .healthy => healthyJson
  | .ready => readyJson
  | .unavailable coreOk auditOk err => unavailableJson coreOk auditOk err
  | .token field t expiresIn codes =>
    tokenJson field t expiresIn (codes.map fun v => String.ofList (Z.text v.json))
  | .signed field t expiresIn => signedJson field t expiresIn
  | .written v => String.ofList (Z.text v.json)
  | .monitorHealth => monitorHealthJson
  | .monitorReady pool => monitorReadyJson pool
  | .poolz pool => poolzJson pool
  | .overloaded => overloadedJson

/-! ### What they are meant to be -/

def intDoc (n : ℤ) : Json := .num (toString n)

def stringsDoc (v : List String) : Json := .arr (v.map .str)

def fieldDoc (f : String × String) : String × Json := (f.1, .str f.2)

def childDoc (c : DirectoryEntry) : Json :=
  .obj [("uid", .str c.uid), ("name", .str c.name), ("size", intDoc c.size),
    ("modified_at", intDoc c.modifiedAt)]

def entryDoc (e : DirectoryEntry × Option (List DirectoryEntry)) : Json :=
  .obj ([("uid", .str e.1.uid), ("name", .str e.1.name), ("type", .str e.1.type.text),
    ("size", intDoc e.1.size), ("version_count", intDoc e.1.versionCount),
    ("rendition_count", intDoc e.1.renditionCount),
    ("has_renditions", .bool (0 < e.1.renditionCount)), ("deleted", .bool e.1.deleted),
    ("created_at", intDoc e.1.createdAt), ("modified_at", intDoc e.1.modifiedAt),
    ("owner", .str e.1.owner), ("created_by", .str e.1.createdBy),
    ("modified_by", .str e.1.modifiedBy)] ++
    (e.2.map fun cs => ("children", Json.arr (cs.map childDoc))).toList)

def listingDoc (entries : List (DirectoryEntry × Option (List DirectoryEntry)))
    (complete : Option Bool) : Json :=
  .obj (("entries", .arr (entries.map entryDoc)) ::
    (complete.map fun b => ("children_complete", Json.bool b)).toList)

def statDoc (i : FileInfo) : Json :=
  .obj [("uid", .str i.uid), ("name", .str i.name), ("parent_uid", .str i.parentUid),
    ("type", .str i.type.text), ("size", intDoc i.size), ("owner", .str i.owner),
    ("version", .str i.version), ("created_at", intDoc i.createdAt),
    ("modified_at", intDoc i.modifiedAt), ("rendition_count", intDoc i.renditionCount),
    ("has_renditions", .bool (0 < i.renditionCount))]

def versionEntryDoc (e : VersionEntry) : Json :=
  .obj [("version", .str e.versionTimestamp), ("revised_by", .str e.revisedBy)]

def ackDoc (a : ErasureAck) : Json :=
  .obj [("participant", .str a.participant), ("acked_at", intDoc a.ackedAt),
    ("complied", .bool a.complied), ("detail", .str a.detail)]

def erasureStatusDoc (erasureId : String) (r : ErasureRecord) : Json :=
  .obj [("erasure_id", .str erasureId), ("uid", .str r.uid), ("state", .str r.state.text),
    ("actor", .str r.actor), ("reason", .str r.reason), ("initiated_at", intDoc r.initiatedAt),
    ("completed_at", intDoc r.completedAt), ("acks", .arr (r.acks.map ackDoc)),
    ("awaiting", stringsDoc r.awaiting)]

def aclDoc (e : AclEntryMessage) : Json :=
  .obj [("principal", .str e.principal), ("type", intDoc e.type),
    ("permissions", intDoc e.permissions), ("effect", intDoc e.effect)]

def integrationStatusDoc (issuer audience : String) (keyPresent : Bool) (allowedIps : List String)
    (allowService : Bool) : Json :=
  .obj [("enabled", .bool (issuer != "" && keyPresent)), ("issuer", .str issuer),
    ("audience", .str audience), ("key_present", .bool keyPresent),
    ("allowed_ips", stringsDoc allowedIps), ("ip_allowlist_enforced", .bool (!allowedIps.isEmpty)),
    ("allow_service", .bool allowService)]

def integrationsDoc (cfg : Config) : Json :=
  let keyPresent := cfg.integrationPublicKey != ""
  .obj [("integrations", .arr (if cfg.integrationIssuer != "" || keyPresent then
    [integrationStatusDoc cfg.integrationIssuer cfg.integrationAudience keyPresent
      cfg.integrationAllowedIps cfg.integrationAllowService] else []))]

def poolDoc (p : PoolCounts) : String × Json :=
  ("pool", .obj [("capacity", intDoc p.capacity), ("used", intDoc p.used),
    ("available", intDoc p.available), ("max_queued", intDoc p.maxQueued)])

/-- The document a body is meant to be. -/
def JsonBody.json : JsonBody → Json
  | .error fields => .obj (fields.map fieldDoc)
  | .secondFactor activeTenant =>
    .obj [("error", .str "2fa_required"), ("tenant", .str activeTenant)]
  | .uid u => .obj [("uid", .str u)]
  | .listing entries complete => listingDoc entries complete
  | .stat info => statDoc info
  | .exists b => .obj [("exists", .bool b)]
  | .versions r =>
    .obj [("versions", stringsDoc r.versions), ("entries", .arr (r.entries.map versionEntryDoc))]
  | .restored version => .obj [("restored_version", .str version)]
  | .erasureStarted r =>
    .obj [("erasure_id", .str r.erasureId),
      ("state", .str (if r.state = .complete then "complete" else "initiated")),
      ("awaiting", stringsDoc r.awaiting), ("erasure_ids", stringsDoc r.erasureIds)]
  | .erasureStatus erasureId r => erasureStatusDoc erasureId r
  | .metadata kvs => .obj [("metadata", .obj (kvs.map fieldDoc))]
  | .value v => .obj [("value", .str v)]
  | .hasPermission b => .obj [("has_permission", .bool b)]
  | .acls es => .obj [("acls", .arr (es.map aclDoc))]
  | .role name => .obj [("role", .str name)]
  | .roles names => .obj [("roles", stringsDoc names)]
  | .users names => .obj [("users", stringsDoc names)]
  | .principals us rs cs =>
    .obj [("users", stringsDoc us), ("roles", stringsDoc rs), ("claims", stringsDoc cs)]
  | .storage r =>
    .obj [("total_space", intDoc r.totalSpace), ("used_space", intDoc r.usedSpace),
      ("available_space", intDoc r.availableSpace), ("usage_percentage", .num r.usagePercentage.text)]
  | .integrations cfg => integrationsDoc cfg
  | .whoami user tenant rs =>
    .obj [("user", .str user), ("tenant", .str tenant), ("roles", stringsDoc rs)]
  | .introspect user tenant rs =>
    .obj [("active", .bool true), ("user", .str user), ("tenant", .str tenant),
      ("roles", stringsDoc rs)]
  | .tenants names current => .obj [("tenants", stringsDoc names), ("current", .str current)]
  | .healthy => .obj [("status", .str "ok")]
  | .ready => .obj [("status", .str "ready"), ("core", .bool true), ("audit", .bool true)]
  | .unavailable coreOk auditOk err =>
    .obj ([("status", .str "unavailable"), ("core", .bool coreOk), ("audit", .bool auditOk)] ++
      if coreOk then [] else [("error", .str err)])
  | .token field t expiresIn codes =>
    .obj ([(field.text, .str t.text), ("token_type", .str "Bearer"),
      ("expires_in", intDoc expiresIn)] ++
      (codes.map fun v => ("recovery_codes", v.json)).toList)
  | .signed field t expiresIn =>
    .obj [(field.text, .str t.text), ("expires_in", intDoc expiresIn)]
  | .written v => v.json
  | .monitorHealth => .obj [("status", .str "ok"), ("service", .str "http_bridge")]
  | .monitorReady pool => .obj [("ready", .bool (0 < pool.available)), poolDoc pool]
  | .poolz pool => .obj [poolDoc pool, ("saturated", .bool (!(0 < pool.available)))]
  | .overloaded =>
    .obj [("error", .str "overloaded"), ("detail", .str "server is at capacity, retry shortly")]

def Double.isFinite : Double → Bool
  | .finite .. => true
  | _ => false

/-- A body in which no string that goes in as it is needs an escape, and no
number is infinite or not a number. -/
def JsonBody.Clean : JsonBody → Prop
  | .secondFactor activeTenant => ∀ c ∈ activeTenant.toList, Plain c
  | .unavailable coreOk _ err => coreOk = true ∨ ∀ c ∈ err.toList, Plain c
  | .storage r => r.usagePercentage.isFinite = true
  | _ => True

end HttpBridge
