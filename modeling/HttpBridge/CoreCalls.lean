/-
# The calls to the core

The requests that the resource handlers of `http_server.cpp` send to the core
and what it replies (`fileservice.proto`, as far as the handlers set and read
it), and the other operations of these handlers: reading the body of the
request, the searches of the directory, the streams of a content transfer.

A call stands without its identity, which every one of them carries besides.
Which calls change what the core holds is `CoreRequest.mutates`.
-/
import HttpBridge.OAuthFlows
import HttpBridge.Uploads

namespace HttpBridge

open Interact

/-! ### Replies -/

/-- A reply of the core: what it carries counts where it succeeded. -/
structure CoreReply (β : Type) where
  success : Bool
  error : String := ""
  value : β

/-- `FileType`; a number the enumeration lacks counts as a file. -/
inductive FileType where
  | regularFile
  | directory
  | symlink
  deriving DecidableEq

structure DirectoryEntry where
  uid : String
  name : String
  type : FileType := .regularFile
  size : ℤ := 0
  versionCount : ℤ := 0
  renditionCount : ℤ := 0
  deleted : Bool := false
  createdAt : ℤ := 0
  modifiedAt : ℤ := 0
  owner : String := ""
  createdBy : String := ""
  modifiedBy : String := ""
  deriving DecidableEq

structure FileInfo where
  uid : String
  name : String
  parentUid : String
  type : FileType
  size : ℤ
  owner : String
  version : String
  createdAt : ℤ
  modifiedAt : ℤ
  renditionCount : ℤ
  deriving DecidableEq

structure VersionEntry where
  versionTimestamp : String
  revisedBy : String
  deriving DecidableEq

structure VersionList where
  versions : List String
  entries : List VersionEntry
  deriving DecidableEq

inductive ErasureState where
  | initiated
  | complete
  | failed
  deriving DecidableEq

structure ErasureStarted where
  erasureId : String
  state : ErasureState
  awaiting : List String
  erasureIds : List String
  deriving DecidableEq

structure ErasureAck where
  participant : String
  ackedAt : ℤ
  complied : Bool
  detail : String
  deriving DecidableEq

structure ErasureRecord where
  uid : String
  state : ErasureState
  initiatedAt : ℤ
  completedAt : ℤ
  actor : String
  reason : String
  acks : List ErasureAck
  awaiting : List String
  deriving DecidableEq

structure AclEntryMessage where
  principal : String
  type : ℤ
  permissions : ℤ
  effect : ℤ
  deriving DecidableEq

/-- A double, as far as `std::to_string` tells it: to six places. -/
inductive Double where
  | finite (negative : Bool) (whole : ℕ) (millionths : Fin 1000000)
  | inf (negative : Bool)
  | nan (negative : Bool)
  deriving DecidableEq

structure StorageUsage where
  totalSpace : ℤ
  usedSpace : ℤ
  availableSpace : ℤ
  usagePercentage : Double
  deriving DecidableEq

/-! ### Requests -/

inductive Permission where
  | read
  | write
  | delete
  | listDeleted
  | undelete
  | viewVersions
  | retrieveBackVersion
  | restoreToVersion
  | execute
  | manageAcl
  | aclInherit
  | cullVersions
  | erase
  deriving DecidableEq

inductive AclEffect where
  | allow
  | deny
  deriving DecidableEq

inductive CoreRequest where
  | listDirectory (uid : String)
  | listDirectoryWithDeleted (uid : String)
  | makeDirectory (parentUid name : String)
  | removeDirectory (uid : String)
  | touch (parentUid name : String)
  | removeFile (uid : String)
  | undeleteFile (uid : String)
  | stat (uid : String)
  | exists (uid : String)
  | rename (uid newName : String)
  | move (sourceUid destinationParentUid : String)
  | copy (sourceUid destinationParentUid : String)
  | listVersions (uid : String)
  | restoreToVersion (uid versionTimestamp : String)
  | purgeOldVersions (uid : String) (keepCount : ℤ)
  | eraseFile (uid : String) (retainName : Bool) (reason : String)
  | getErasureStatus (erasureId : String)
  | getAllMetadata (uid : String)
  | getMetadata (uid key : String)
  | setMetadata (uid key value : String)
  | deleteMetadata (uid key : String)
  | checkPermission (resourceUid : String) (requiredPermission : Permission)
  | getResourceAcls (resourceUid : String)
  | grantPermission (resourceUid principal : String) (permission : Permission) (effect : AclEffect)
      (recursive : Bool)
  | revokePermission (resourceUid principal : String) (permission : Permission)
      (effect : AclEffect) (recursive : Bool)
  | createRole (role : String)
  | deleteRole (role : String)
  | getAllRoles
  | assignUserToRole (user role : String)
  | removeUserFromRole (user role : String)
  | getUsersForRole (role : String)
  | getRolesForUser (user : String)
  | listClaims (namePrefix : String) (limit : ℤ)
  | getStorageUsage (tenant : String)
  | triggerSync (tenant : String)
  deriving DecidableEq

namespace CoreRequest

/-- What a reply carries besides its success. -/
abbrev Value : CoreRequest → Type
  | .listDirectory _ | .listDirectoryWithDeleted _ => List DirectoryEntry
  | .makeDirectory .. | .touch .. | .restoreToVersion .. | .getMetadata .. => String
  | .stat _ => FileInfo
  | .exists _ | .checkPermission .. => Bool
  | .listVersions _ => VersionList
  | .eraseFile .. => ErasureStarted
  | .getErasureStatus _ => ErasureRecord
  | .getAllMetadata _ => List (String × String)
  | .getResourceAcls _ => List AclEntryMessage
  | .getAllRoles | .getUsersForRole _ | .getRolesForUser _ | .listClaims .. => List String
  | .getStorageUsage _ => StorageUsage
  | _ => Unit

/-- The calls that change what the core holds. -/
def mutates : CoreRequest → Bool
  | .makeDirectory .. | .removeDirectory _ | .touch .. | .removeFile _ | .undeleteFile _
  | .rename .. | .move .. | .copy .. | .restoreToVersion .. | .purgeOldVersions ..
  | .eraseFile .. | .setMetadata .. | .deleteMetadata .. | .grantPermission ..
  | .revokePermission .. | .createRole _ | .deleteRole _ | .assignUserToRole ..
  | .removeUserFromRole .. | .triggerSync _ => true
  | _ => false

end CoreRequest

/-! ### Operations -/

inductive ResourceOp where
  /-- `readBody`: what is left of the body, copied into memory. -/
  | readBody
  | core (call : CoreRequest) (auth : AuthContext)
  | streamFileUpload (uid : String) (auth : AuthContext)
  | streamFileDownload (uid versionTimestamp : String) (rq : Ranges.GetFileRequest)
      (auth : AuthContext)
  | searchRoles (tenant q : String) (limit : ℤ)
  | searchUsers (q : String) (limit : ℤ)
  /-- `AuditPublisher::healthy`. -/
  | auditHealthy

abbrev ResourceOp.Ans : ResourceOp → Type
  | .readBody => String
  | .core call _ => CoreReply call.Value
  | .streamFileUpload .. => Uploads.PutFileResponse
  | .streamFileDownload .. => Ranges.Stream
  | .searchRoles .. => List String
  | .searchUsers .. => List String
  | .auditHealthy => Bool

abbrev ServerOp := FlowOp ⊕ ResourceOp

abbrev ServerAns : ServerOp → Type := Sum.elim FlowAns ResourceOp.Ans

/-- A handler of the server, or a part of one. -/
abbrev Handler (α : Type) := Prog ServerOp ServerAns α

abbrev readBody : Handler String := @Prog.perform ServerOp ServerAns (.inr .readBody)

/-- A call to the core as the caller. -/
abbrev callCore (id : AuthIdentity) (call : CoreRequest) : Handler (CoreReply call.Value) :=
  @Prog.perform ServerOp ServerAns (.inr (.core call (fillAuth id)))

/-- A part of the credential endpoints, among the operations of the server. -/
def Bridge.lift {α : Type} (p : Bridge α) : Handler α := p.inl.inl

/-- The operations by which the core's data change. -/
def ServerOp.mutates : ServerOp → Bool
  | .inr (.core call _) => call.mutates
  | .inr (.streamFileUpload ..) => true
  | _ => false

/-- What an event copies of the body of the request into memory. -/
def bodyCopied : Event ServerAns → Option String
  | ⟨.inr .readBody, body⟩ => some body
  | _ => none

end HttpBridge
