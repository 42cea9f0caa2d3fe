/-
# What a request changes in the core

Which requests change what the core holds, what they change, and what their
answer says about it.

* `change_settled`: a request makes at most one call that changes anything, as
  the last thing it does. It answers with a success only if the core
  acknowledged that call, and with the core's error if it did not; so on a route
  that changes something a success means that it was done.
* `change_named`: only `POST`, `PUT` and `DELETE` change anything. What they
  change is the node that the path names, as the caller who was authenticated;
  and nothing is erased but by `POST` on the `erase` of that file.

Key definitions: `Route.changes`, `Settled`, `Reply.statusCode`.
-/
import HttpBridge.BodyCap
import HttpBridge.TenantGate
import HttpBridge.Interact.Commit

namespace HttpBridge

open Interact Handlers

/-! ### Calls -/

/-- The node that a call changes, if it is about one. -/
def CoreRequest.node? : CoreRequest → Option String
  | .makeDirectory parent _ | .touch parent _ => some parent
  | .removeDirectory uid | .removeFile uid | .undeleteFile uid | .rename uid _ | .move uid _
  | .copy uid _ | .restoreToVersion uid _ | .purgeOldVersions uid _ | .eraseFile uid _ _
  | .setMetadata uid _ _ | .deleteMetadata uid _ | .grantPermission uid _ _ _ _
  | .revokePermission uid _ _ _ _ => some uid
  | _ => none

namespace ServerOp

def node? : ServerOp → Option String
  | .inr (.core call _) => call.node?
  | .inr (.streamFileUpload uid _) => some uid
  | _ => none

def erases : ServerOp → Bool
  | .inr (.core (.eraseFile ..) _) => true
  | _ => false

/-- Who a change is made as. -/
def madeAs : ServerOp → Option AuthContext
  | .inr (.core _ auth) | .inr (.streamFileUpload _ auth) => some auth
  | _ => none

/-- The error of a change, unless it was acknowledged. -/
def refusal? : (op : ServerOp) → ServerAns op → Option String
  | .inr (.core _ _), r => if r.success then none else some r.error
  | .inr (.streamFileUpload _ _), r => if r.success then none else some r.error
  | _, _ => none

end ServerOp

/-! ### Answers -/

def Handlers.Reply.statusCode : Reply → ℕ
  | .json n _ | .status n => n
  | .content (.error resp) | .credential resp | .signIn (.response resp) => resp.status
  | .content (.content head _) => head.status
  | .signIn (.authorize ..) => 302
  | .providers .. => 200

/-- The answer to a change says what came of it. -/
def Settled (op : ServerOp) (a : ServerAns op) (reply : Reply) : Prop :=
  match op.refusal? a with
  | none => 200 ≤ reply.statusCode ∧ reply.statusCode < 300
  | some err => reply = Handlers.mapError err

theorem refused_mapError (err : String) : 400 ≤ (Handlers.mapError err).statusCode := by
  show 400 ≤ httpStatusForCoreError err
  unfold httpStatusForCoreError
  split_ifs <;> decide

/-- A change is told from a refusal by the status of the answer. -/
theorem Settled.success_iff {op : ServerOp} {a : ServerAns op} {reply : Reply}
    (h : Settled op a reply) : reply.statusCode < 300 ↔ op.refusal? a = none := by
  unfold Settled at h
  cases hr : op.refusal? a with
  | none =>
    rw [hr] at h
    exact iff_of_true h.2 rfl
  | some err =>
    rw [hr] at h
    have hrefused := refused_mapError err
    subst h
    exact iff_of_false (by omega) (by simp)

/-! ### Routes -/

/-- The routes that change what the core holds. -/
def Route.changes : Route → Bool
  | .triggerSync | .createRole | .deleteRole _ | .assignUserToRole .. | .removeUserFromRole ..
  | .makeDir _ | .removeDir _ | .touchFile _ | .removeFile _ | .putContent _ | .undelete _
  | .restoreVersion _ | .purgeVersions _ | .eraseNode _ | .renameNode _ | .moveNode _ | .copyNode _
  | .grantPerm _ | .revokePerm _ | .setMeta .. | .deleteMeta .. => true
  | _ => false

/-- The node that a route changes, if it is about one. -/
def Route.node? : Route → Option String
  | .makeDir uid | .removeDir uid | .touchFile uid | .removeFile uid | .putContent uid
  | .undelete uid | .restoreVersion uid | .purgeVersions uid | .eraseNode uid | .renameNode uid
  | .moveNode uid | .copyNode uid | .grantPerm uid | .revokePerm uid | .setMeta uid _
  | .deleteMeta uid _ => some uid
  | _ => none

def Route.erases : Route → Bool
  | .eraseNode _ => true
  | _ => false

/-- The node that a path names by its third segment, of which `root` is the empty
one. -/
def nodeNamed (segs : List String) : Option String :=
  segs[2]?.map fun name => if name = "root" then "" else name

/-- What a route may change when a method and a path lead to it. -/
structure Route.Fits (method : String) (segs : List String) (route : Route) : Prop where
  byMethod : route.changes = true → method = "POST" ∨ method = "PUT" ∨ method = "DELETE"
  ofNode : ∀ uid, route.node? = some uid → nodeNamed segs = some uid
  byErase : route.erases = true → method = "POST" ∧ ∃ v name, segs = [v, "files", name, "erase"]

namespace Route.Fits

variable {method : String} {segs : List String}

/-- A route that changes nothing. -/
theorem idle {route : Route} (h : route.changes = false) : route.Fits method segs := by
  refine ⟨fun hc => ?_, fun uid hn => ?_, fun he => ?_⟩
  · rw [h] at hc
    cases hc
  · cases route <;> cases h <;> cases hn
  · cases route <;> cases h <;> cases he

/-- A route to which a method leads that may change something. -/
theorem by_method {route : Route} {m : String} (h : method = m)
    (hm : m = "POST" ∨ m = "PUT" ∨ m = "DELETE") (herases : route.erases = false)
    (hn : ∀ uid, route.node? = some uid → nodeNamed segs = some uid) : route.Fits method segs := by
  refine ⟨fun _ => h ▸ hm, hn, fun he => ?_⟩
  rw [herases] at he
  cases he

theorem ite {c : Prop} [Decidable c] {a b : Route} (ha : c → a.Fits method segs)
    (hb : ¬ c → b.Fits method segs) : (if c then a else b).Fits method segs := by
  split
  case isTrue h => exact ha h
  case isFalse h => exact hb h

end Route.Fits

section Resources

open Route.Fits

variable (method : String) {segs : List String} {uid : String} (hnode : nodeNamed segs = some uid)

theorem rolesRoute_fits (rest : List String) : (rolesRoute method rest).Fits method segs := by
  have hchange : ∀ {route : Route} {m : String}, method = m → route.node? = none →
      route.erases = false → (m = "POST" ∨ m = "PUT" ∨ m = "DELETE") → route.Fits method segs := by
    intro route m hmethod hnone herases hm
    refine by_method hmethod hm herases fun uid h => ?_
    rw [hnone] at h
    cases h
  unfold rolesRoute
  split
  · exact ite (fun _ => idle rfl) fun _ => ite (fun h => hchange h rfl rfl (by simp)) fun _ => idle rfl
  · exact ite (fun h => hchange h rfl rfl (by simp)) fun _ => idle rfl
  · exact ite (fun _ => idle rfl) fun _ => idle rfl
  · exact ite (fun h => hchange h rfl rfl (by simp)) fun _ =>
      ite (fun h => hchange h rfl rfl (by simp)) fun _ => idle rfl
  · exact idle rfl

include hnode

/-- A route that changes the node of the path, and does not erase it. -/
theorem changes_node {route : Route} {m : String} (h : method = m) (hroute : route.node? = some uid)
    (herases : route.erases = false) (hm : m = "POST" ∨ m = "PUT" ∨ m = "DELETE") :
    route.Fits method segs :=
  by_method h hm herases fun uid' h' => by rw [hnode, ← hroute, h']

theorem dirsRoute_fits (subs : List String) : (dirsRoute method uid subs).Fits method segs := by
  have hchange := @changes_node method segs uid hnode
  unfold dirsRoute
  split
  · exact ite (fun h => hchange h rfl rfl (by simp)) fun _ => ite (fun _ => idle rfl) fun _ =>
      ite (fun h => hchange h rfl rfl (by simp)) fun _ => idle rfl
  · exact ite (fun h => hchange h.2 rfl rfl (by simp)) fun _ => idle rfl
  · exact idle rfl

theorem filesRoute_fits {v name : String} (subs : List String) (hsegs : segs = v :: "files" :: name :: subs) :
    (filesRoute method uid subs).Fits method segs := by
  have hchange := @changes_node method segs uid hnode
  unfold filesRoute
  split
  · exact ite (fun h => hchange h rfl rfl (by simp)) fun _ => idle rfl
  · refine ite (fun h => hchange h.2 rfl rfl (by simp)) fun _ => ite (fun _ => idle rfl) fun _ =>
      ite (fun _ => idle rfl) fun _ => ite (fun _ => idle rfl) fun _ => ?_
    refine ite (fun h => hchange h.2 rfl rfl (by simp)) fun _ => ite (fun _ => idle rfl) fun _ =>
      ite (fun _ => idle rfl) fun _ => ite (fun h => hchange h.2 rfl rfl (by simp)) fun _ =>
      ite (fun h => hchange h.2 rfl rfl (by simp)) fun _ => ite (fun h => ?_) fun _ => idle rfl
    obtain ⟨rfl, hmethod⟩ := h
    exact ⟨fun _ => .inl hmethod, fun uid' h => by rw [hnode, ← h]; rfl, fun _ => ⟨hmethod, v, name, hsegs⟩⟩
  · exact ite (fun _ => idle rfl) fun _ => idle rfl
  · exact idle rfl

theorem nodesRoute_fits (subs : List String) : (nodesRoute method uid subs).Fits method segs := by
  have hchange := @changes_node method segs uid hnode
  unfold nodesRoute
  split
  · exact ite (fun _ => idle rfl) fun _ => idle rfl
  · refine ite (fun _ => idle rfl) fun _ => ite (fun h => hchange h.2 rfl rfl (by simp)) fun _ =>
      ite (fun h => hchange h.2 rfl rfl (by simp)) fun _ =>
      ite (fun h => hchange h.2 rfl rfl (by simp)) fun _ => ?_
    exact ite (fun _ => idle rfl) fun _ => ite (fun _ => idle rfl) fun _ =>
      ite (fun h => hchange h.2 rfl rfl (by simp)) fun _ =>
      ite (fun h => hchange h.2 rfl rfl (by simp)) fun _ => ite (fun _ => idle rfl) fun _ => idle rfl
  · exact ite (fun _ => idle rfl) fun _ => ite (fun _ => idle rfl) fun _ =>
      ite (fun h => hchange h rfl rfl (by simp)) fun _ =>
      ite (fun h => hchange h rfl rfl (by simp)) fun _ => idle rfl
  · exact idle rfl

end Resources

open Route.Fits in
theorem uidRoute_fits (method v resource : String) : ∀ rest : List String,
    (uidRoute method resource rest).Fits method (v :: resource :: rest)
  | [] => idle rfl
  | name :: subs => by
    have hnode : nodeNamed (v :: resource :: name :: subs) = some (if name = "root" then "" else name) := rfl
    unfold uidRoute
    refine ite (fun _ => ite (fun _ => idle rfl) fun _ => idle rfl) fun _ =>
      ite (fun _ => dirsRoute_fits method hnode subs) fun _ => ite (fun h => ?_) fun _ =>
      ite (fun _ => nodesRoute_fits method hnode subs) fun _ => idle rfl
    exact filesRoute_fits method hnode subs (by rw [h])

open Route.Fits in
/-- **What the path leads to.** -/
theorem authedRoute_fits (method : String) (segs : List String) :
    (authedRoute method segs).Fits method segs := by
  unfold authedRoute
  dsimp only
  refine ite (fun _ => idle rfl) fun _ => ite (fun _ => idle rfl) fun _ => ite (fun _ => idle rfl) fun _ =>
    ite (fun _ => idle rfl) fun _ => ite (fun _ => idle rfl) fun _ => ite (fun _ => idle rfl) fun _ =>
    ite (fun _ => idle rfl) fun _ => ?_
  refine ite (fun h => by_method h.2.2 (by simp) rfl nofun) fun _ =>
    ite (fun _ => rolesRoute_fits method _) fun _ => ite (fun _ => idle rfl) fun _ =>
    ite (fun _ => idle rfl) fun _ => ?_
  match segs with
  | [] | [_] => exact idle rfl
  | v :: resource :: rest => exact uidRoute_fits method v resource rest

/-- A route in front of authentication changes nothing. -/
theorem frontRoute_idle {method path : String} {route : Route} (h : frontRoute method path = some route) :
    route.changes = false := by
  unfold frontRoute at h
  dsimp only at h
  split_ifs at h <;> (cases h; rfl)

/-! ### Handlers -/

section Handlers

variable {S : Server} {r : HttpRequest} {id : AuthIdentity} {route : Route}

/-- A change is the route's, of the route's node if it is of one, and made as the
caller. -/
structure ChangesOf (id : AuthIdentity) (route : Route) (op : ServerOp) : Prop where
  changes : route.changes = true
  node : op.node? = none ∨ op.node? = route.node?
  erases : op.erases = true → route.erases = true
  madeAs : op.madeAs = some (fillAuth id)

/-- A request that is refused, on a route that changes something. -/
def Refused (route : Route) (reply : Reply) : Prop := route.changes = true → 400 ≤ reply.statusCode

/-- A handler that makes one change at most, tells what came of it, and makes
none but the route's. -/
structure Changing (id : AuthIdentity) (route : Route) (p : Handler Reply) : Prop where
  commits : p.Commits (fun op => op.mutates = true) Settled (Refused route)
  calls : p.Calls fun op => op.mutates = true → ChangesOf id route op

/-- A part that changes nothing. -/
abbrev Idle (op : ServerOp) : Prop := ¬ op.mutates = true

theorem idle_of_untouched {α : Type} {p : Handler α} (h : p.Calls Server.Untouched) : p.Calls Idle :=
  h.mono fun _ hop hmut => hop (.inr hmut)

theorem idle_lift {α : Type} (p : Bridge α) : (Bridge.lift p).Calls Idle :=
  Prog.calls_inl (fun _ => nofun) p.inl

theorem idle_answered (p : Bridge Response) : (Server.answered p).Calls Idle :=
  (Prog.calls_bind _ _ _).mpr ⟨idle_lift p, fun _ _ _ => trivial⟩

theorem commits_of_idle {p : Handler Reply} (hroute : route.changes = false) (h : p.Calls Idle) :
    p.Commits (fun op => op.mutates = true) Settled (Refused route) := by
  refine .of_calls h fun _ reply _ hc => ?_
  rw [hroute] at hc
  cases hc

namespace Changing

theorem refuse {reply : Reply} (h : 400 ≤ reply.statusCode) : Changing id route (return reply) :=
  ⟨fun _ => h, trivial⟩

theorem idle {p : Handler Reply} (hroute : route.changes = false) (h : p.Calls Idle) :
    Changing id route p :=
  ⟨commits_of_idle hroute h, h.mono fun _ hop hmut => absurd hmut hop⟩

theorem reads {f : String → Handler Reply} (h : ∀ body, Changing id route (f body)) :
    Changing id route (readBody >>= f) :=
  ⟨.inl ⟨nofun, fun body => (h body).commits⟩, nofun, fun body => (h body).calls⟩

theorem ite {c : Prop} [Decidable c] {p q : Handler Reply} (hp : Changing id route p)
    (hq : Changing id route q) : Changing id route (if c then p else q) := by
  split
  · exact hp
  · exact hq

theorem forward {call : CoreRequest} {ok : call.Value → Reply} (hmut : call.mutates = true)
    (hroute : ChangesOf id route (.inr (.core call (fillAuth id))))
    (hok : ∀ v, 200 ≤ (ok v).statusCode ∧ (ok v).statusCode < 300) :
    Changing id route (Handlers.forward id call ok) := by
  refine ⟨.inr ⟨hmut, fun a => ⟨_, rfl, ?_⟩⟩, fun _ => hroute, fun _ => trivial⟩
  show Settled (.inr (.core call (fillAuth id))) a (if a.success then ok a.value else Handlers.mapError a.error)
  unfold Settled ServerOp.refusal?
  by_cases hs : a.success = true
  · simpa only [hs, if_true] using hok a.value
  · simp [hs]

theorem forwardPlain {call : CoreRequest} (hmut : call.mutates = true)
    (hroute : ChangesOf id route (.inr (.core call (fillAuth id)))) :
    Changing id route (Handlers.forwardPlain id call) :=
  forward hmut hroute fun _ => ⟨by decide, by decide⟩

theorem forwardJson {call : CoreRequest} {status : ℕ} {body : call.Value → JsonBody}
    (hmut : call.mutates = true) (hroute : ChangesOf id route (.inr (.core call (fillAuth id))))
    (hstatus : 200 ≤ status ∧ status < 300) :
    Changing id route (Handlers.forward id call fun v => .json status (body v)) :=
  forward hmut hroute fun _ => hstatus

theorem putContent (uid : String) : Changing id (.putContent uid) (Handlers.putContent id uid) := by
  refine ⟨.inr ⟨rfl, fun a => ⟨_, rfl, ?_⟩⟩, fun _ => ⟨rfl, .inr rfl, nofun, rfl⟩, fun _ => trivial⟩
  show Settled (.inr (.streamFileUpload uid (fillAuth id))) a
    (if a.success then .status 204 else Handlers.mapError a.error)
  unfold Settled ServerOp.refusal?
  by_cases hs : a.success = true
  · simp [hs, Reply.statusCode]
  · simp [hs]

/-- What an admin may do with a role. -/
theorem changeRole {role : String} {next : Handler Reply} (h : Changing id route next) :
    Changing id route (Handlers.changeRole S.poco id role next) :=
  ite (refuse (by decide)) h

theorem changePerm {call : String → Permission → AclEffect → Bool → CoreRequest}
    (hmut : ∀ p q e b, (call p q e b).mutates = true)
    (hroute : ∀ p q e b, ChangesOf id route (.inr (.core (call p q e b) (fillAuth id)))) :
    Changing id route (Handlers.changePerm S.poco id call) :=
  reads fun _ => ite (refuse (by decide)) (forwardPlain (hmut _ _ _ _) (hroute _ _ _ _))

end Changing

/-- **What a handler changes.** -/
theorem changing_authed : Changing id route (S.authed r id route) := by
  have hadmin : ∀ {next : Handler Reply}, Changing id route next →
      Changing id route (if !isTenantAdmin id then return adminRequired else next) :=
    fun h => .ite (.refuse (by decide)) h
  cases route with
  | issueToken | revokeToken | authExchange | ssoRedeem | verifyMfa | providers | oauthStart _
  | oauthCallback _ | notFound | whoami | introspect | listIntegrations =>
    exact .idle rfl trivial
  | refreshToken | ssoHandoff | downloadTicket _ | playbackTicket _ =>
    exact .idle rfl (idle_answered _)
  | listTenants =>
    exact .idle rfl ((Prog.calls_bind _ _ _).mpr ⟨idle_lift _, fun _ _ _ => trivial⟩)
  | storageUsage | getAllRoles | getUsersForRole _ | getRolesForUser _ | erasureStatus _
  | listVersions _ | listRenditions _ | statNode _ | existsNode _ | getAllMeta _ | getAcls _
  | getMeta _ _ | checkPerm _ | getContent _ | getVersion _ _ =>
    exact .idle rfl ⟨nofun, fun _ => trivial⟩
  | listDir uid => exact .idle rfl (idle_of_untouched (Server.calls_listDir _ _ _))
  | searchPrincipals => exact .idle rfl (idle_of_untouched (Server.calls_searchPrincipals _))
  | triggerSync => exact .forwardPlain rfl ⟨rfl, .inl rfl, nofun, rfl⟩
  | removeDir uid => exact .forwardPlain rfl ⟨rfl, .inr rfl, nofun, rfl⟩
  | removeFile uid => exact .forwardPlain rfl ⟨rfl, .inr rfl, nofun, rfl⟩
  | undelete uid => exact .forwardPlain rfl ⟨rfl, .inr rfl, nofun, rfl⟩
  | deleteMeta uid key => exact .forwardPlain rfl ⟨rfl, .inr rfl, nofun, rfl⟩
  | putContent uid => exact .putContent uid
  -- these read the body first
  | moveNode uid => exact .reads fun _ => .forwardPlain rfl ⟨rfl, .inr rfl, nofun, rfl⟩
  | copyNode uid => exact .reads fun _ => .forwardPlain rfl ⟨rfl, .inr rfl, nofun, rfl⟩
  | setMeta uid key => exact .reads fun _ => .forwardPlain rfl ⟨rfl, .inr rfl, nofun, rfl⟩
  | purgeVersions uid => exact .reads fun _ => .forwardPlain rfl ⟨rfl, .inr rfl, nofun, rfl⟩
  | renameNode uid =>
    exact .reads fun _ => .ite (.refuse (by decide)) (.forwardPlain rfl ⟨rfl, .inr rfl, nofun, rfl⟩)
  | restoreVersion uid =>
    exact .reads fun _ => .forwardJson rfl ⟨rfl, .inr rfl, nofun, rfl⟩ (by decide)
  | eraseNode uid =>
    refine .reads fun _ => .forward rfl ⟨rfl, .inr rfl, fun _ => rfl, rfl⟩ fun started => ?_
    show 200 ≤ (if started.state = .complete then 200 else 202) ∧
      (if started.state = .complete then 200 else 202) < 300
    split_ifs <;> decide
  | makeDir uid =>
    exact .reads fun _ => .ite (.refuse (by decide))
      (.forwardJson rfl ⟨rfl, .inr rfl, nofun, rfl⟩ (by decide))
  | touchFile uid =>
    exact .reads fun _ => .ite (.refuse (by decide))
      (.forwardJson rfl ⟨rfl, .inr rfl, nofun, rfl⟩ (by decide))
  | grantPerm uid =>
    exact .changePerm (fun _ _ _ _ => rfl) fun _ _ _ _ => ⟨rfl, .inr rfl, nofun, rfl⟩
  | revokePerm uid =>
    exact .changePerm (fun _ _ _ _ => rfl) fun _ _ _ _ => ⟨rfl, .inr rfl, nofun, rfl⟩
  -- and these are an admin's
  | createRole =>
    refine hadmin (.reads fun _ => .ite (.refuse (by decide)) (.changeRole ?_))
    exact .forwardJson rfl ⟨rfl, .inl rfl, nofun, rfl⟩ (by decide)
  | deleteRole role => exact hadmin (.changeRole (.forwardPlain rfl ⟨rfl, .inl rfl, nofun, rfl⟩))
  | assignUserToRole role user =>
    exact hadmin (.changeRole (.forwardPlain rfl ⟨rfl, .inl rfl, nofun, rfl⟩))
  | removeUserFromRole role user =>
    exact hadmin (.changeRole (.forwardPlain rfl ⟨rfl, .inl rfl, nofun, rfl⟩))

end Handlers

/-! ### The request -/

/-- Who is refused is told so. -/
theorem authenticate_refused {cfg : Config} {req : Request} {T : Trace} :
    (authenticate cfg req).During T fun x => ∀ resp, x = .error resp → 400 ≤ resp.status := by
  have hok : ∀ {id : AuthIdentity}, (pure (.ok id) : Bridge (Except Response AuthIdentity)).During T
      fun x => ∀ resp, x = .error resp → 400 ≤ resp.status :=
    .ret fun _ h => nomatch h
  have herror : ∀ {resp : Response}, 400 ≤ resp.status →
      (pure (.error resp) : Bridge (Except Response AuthIdentity)).During T
        fun x => ∀ resp, x = .error resp → 400 ≤ resp.status := by
    intro resp hresp
    refine .ret fun resp' h => ?_
    cases h
    exact hresp
  have hunauthorized : 400 ≤ (unauthorized req).status := by
    show 400 ≤ 401
    decide
  have hforbidden : 400 ≤ forbidTenant.status := by decide
  unfold authenticate
  split
  · refine .skip fun now => ?_
    split
    · exact herror hunauthorized
    · refine .skip fun _ => .ite (fun _ => .skip fun _ => herror hunauthorized) fun _ =>
        .ite (fun _ => herror hunauthorized) fun _ => .ite (fun _ => herror hunauthorized) fun _ => ?_
      refine .ite (fun _ => herror hforbidden) fun _ => .ite (fun _ => hok) fun _ => .skip fun _ => ?_
      exact .ite (fun _ => herror (by show 400 ≤ 403; decide)) fun _ => hok
  · refine .skip fun _ => .ite (fun _ => .ite (fun _ => herror ?_) fun _ => herror hunauthorized)
      fun _ => .skip fun _ => .ite (fun _ => herror hforbidden) fun _ => hok
    show 400 ≤ 403
    decide

namespace Server

variable {S : Server} {r : HttpRequest}

theorem caller_refused {cfg : Config} {req : Request} {T : Trace} :
    (caller cfg req).During T fun x => ∀ resp, x = .error resp → 400 ≤ resp.status := by
  refine .bind fun tr x htr hx => ?_
  cases x with
  | error resp =>
    refine .ret fun resp' h => ?_
    cases h
    exact authenticate_refused tr _ htr hx resp rfl
  | ok id =>
    refine .skip fun v => .ite (fun _ => .ret fun resp h => ?_) fun _ => .ret fun _ h => nomatch h
    cases h
    show 400 ≤ 403
    decide

/-- A part of the credential endpoints that has returned here has returned there. -/
theorem lift_yields {α : Type} {p : Bridge α} {tr : List (Event ServerAns)} {a : α}
    (h : (Bridge.lift p).Yields tr a) : p.Yields (lefts (lefts tr)) a :=
  Prog.yields_inl (Prog.yields_inl h)

/-- A change is made for a caller who has been authenticated in the same request. -/
def MadeFor (S : Server) (r : HttpRequest) (route : Route) (tr : List (Event ServerAns)) (op : ServerOp) :
    Prop :=
  op.mutates = true → ∃ id before after, tr = before ++ after ∧
    (caller S.config.toConfig r.client).Yields (lefts (lefts before)) (.ok id) ∧ ChangesOf id route op

/-- What a request does to the core, and what it answers. -/
structure Behaves (S : Server) (r : HttpRequest) (route : Route) (p : Handler Reply) : Prop where
  commits : p.Commits (fun op => op.mutates = true) Settled (Refused route)
  every : p.Every (MadeFor S r route)

theorem Behaves.idle {route : Route} {p : Handler Reply} (hroute : route.changes = false)
    (h : p.Calls Idle) : Behaves S r route p where
  commits := commits_of_idle hroute h
  every := h.every fun _ _ hop hmut => absurd hmut hop

theorem Behaves.refuse {route : Route} {reply : Reply} (h : 400 ≤ reply.statusCode) :
    Behaves S r route (return reply) :=
  ⟨fun _ => h, Prog.every_ret _ _⟩

theorem behaves_behind (route : Route) :
    Behaves S r route (S.behind r fun id => S.authed r id route) := by
  constructor
  · refine .bind (idle_lift _) fun tr x hx => ?_
    cases x with
    | error resp => exact fun _ => caller_refused.of_yields (lift_yields hx) resp rfl
    | ok id => exact changing_authed.commits
  · intro tr op k hr hmut
    rcases Prog.reaches_bind_call hr with ⟨k', hr⟩ | ⟨x, tr₁, tr₂, rfl, hx, hr⟩
    · exact absurd hmut ((idle_lift _).of_reaches hr).2.1
    · cases x with
      | error resp => simp at hr
      | ok id =>
        have hchange := (changing_authed.calls.of_reaches hr).2.1 hmut
        exact ⟨id, tr₁, tr₂, rfl, lift_yields hx, hchange⟩

theorem behaves_guarded : Behaves S r (authedRoute r.method (pathSegments r.path)) (S.guarded r) := by
  unfold guarded
  dsimp only
  cases hticket : S.ticketed r with
  | none => exact behaves_behind _
  | some found =>
    obtain ⟨uid, ticket⟩ := found
    obtain ⟨uid', hroute⟩ := authedRoute_of_ticketed hticket
    rw [hroute]
    refine .idle rfl ((Prog.calls_bind _ _ _).mpr ⟨idle_lift _, fun _ x _ => ?_⟩)
    cases x with
    | some id => exact ⟨nofun, fun _ => trivial⟩
    | none =>
      refine (Prog.calls_bind _ _ _).mpr ⟨idle_lift _, fun _ x _ => ?_⟩
      cases x with
      | error resp => exact trivial
      | ok id => exact ⟨nofun, fun _ => trivial⟩

theorem idle_front (route : Route) : (S.front r route).Calls Idle := by
  have hread : ∀ {f : String → Handler Reply}, (∀ body, (f body).Calls Idle) →
      (readBody >>= f).Calls Idle :=
    fun h => ⟨nofun, h⟩
  cases route with
  | verifyMfa => exact hread fun _ => idle_answered _
  | ssoRedeem =>
    show (if r.json then _ else _ : Handler Reply).Calls Idle
    split_ifs
    · exact hread fun _ => idle_answered _
    · exact idle_answered _
  | authExchange =>
    show (if !S.hasIntegration then _ else if r.json then _ else _ : Handler Reply).Calls Idle
    split_ifs
    · exact idle_answered _
    · exact hread fun _ => idle_answered _
    · exact idle_answered _
  | oauthStart provider =>
    exact (Prog.calls_bind _ _ _).mpr ⟨Prog.calls_inl (fun _ => nofun) _, fun _ _ _ => trivial⟩
  | issueToken | revokeToken | oauthCallback _ => exact idle_answered _
  | _ => exact trivial

theorem behaves_handleV1 : Behaves S r (v1Route r.method r.path) (S.handleV1 r) := by
  unfold handleV1 v1Route
  cases hfront : frontRoute r.method r.path with
  | some route => exact .idle (frontRoute_idle hfront) (idle_front route)
  | none =>
    rw [Option.getD_none]
    exact behaves_guarded

theorem v1Route_fits (method path : String) :
    (v1Route method path).Fits method (pathSegments path) := by
  unfold v1Route
  cases hfront : frontRoute method path with
  | some route => exact .idle (frontRoute_idle hfront)
  | none => exact authedRoute_fits method _

theorem idle_readyz : S.readyz.Calls Idle := by
  have hanswer : ∀ b : Bool, ∀ q q' : Reply, (if b then pure q else pure q' : Handler Reply).Calls Idle := by
    intro b q q'
    cases b <;> trivial
  refine ⟨nofun, fun listed => ?_⟩
  show (if S.config.auditEnabled then _ else _ : Handler Reply).Calls Idle
  split_ifs
  · exact ⟨nofun, fun healthy => hanswer _ _ _⟩
  · exact hanswer _ _ _

/-- **What a request does to the core.** -/
theorem behaves_handleRequest : Behaves S r (v1Route r.method r.path) (S.handleRequest r) := by
  have hprobe : ∀ fixed, (r.path == fixed) = true → (∀ m, (v1Route m fixed).changes = false) →
      (v1Route r.method r.path).changes = false := by
    intro fixed hpath hfixed
    rw [beq_iff_eq.mp hpath]
    exact hfixed r.method
  have hreadyz : ∀ m, (v1Route m "/readyz").changes = false := by
    intro m
    have hsegs : pathSegments "/readyz" = ["readyz"] := by decide
    simp [v1Route, frontRoute, authedRoute, uidRoute, hsegs, Route.changes]
  have hhealthz : ∀ m, (v1Route m "/healthz").changes = false := by
    intro m
    have hsegs : pathSegments "/healthz" = ["healthz"] := by decide
    simp [v1Route, frontRoute, authedRoute, uidRoute, hsegs, Route.changes]
  unfold handleRequest
  split_ifs with hpreflight hlong hhealth hready hv1
  · refine .idle ?_ trivial
    have hmethod : r.method = "OPTIONS" := by simp_all
    have hfits := (v1Route_fits r.method r.path).byMethod
    rw [hmethod] at hfits ⊢
    by_contra hchanges
    exact absurd (hfits (by simpa using hchanges)) (by decide)
  · exact .refuse (by show 400 ≤ 413; decide)
  · exact .idle (hprobe _ hhealth hhealthz) trivial
  · exact .idle (hprobe _ hready hreadyz) idle_readyz
  · exact behaves_handleV1
  · exact .refuse (by decide)

end Server

/-- **What is changed, and what is answered.** A request has made at most one call
that changes anything, which was the last thing it did and settles the answer.
On a route that changes something the answer is a success exactly if the core
acknowledged a change. -/
theorem change_settled (S : Server) (r : HttpRequest) {tr : List (Event ServerAns)} {reply : Reply}
    (h : (S.handleRequest r).Yields tr reply) :
    ((∀ e ∈ tr, ¬ e.op.mutates = true) ∨
      ∃ before e, tr = before ++ [e] ∧ e.op.mutates = true ∧ Settled e.op e.ans reply ∧
        ∀ e' ∈ before, ¬ e'.op.mutates = true) ∧
    ((v1Route r.method r.path).changes = true →
      (reply.statusCode < 300 ↔ ∃ e ∈ tr, e.op.mutates = true ∧ e.op.refusal? e.ans = none)) := by
  have hcommits : (S.handleRequest r).Commits _ Settled _ := Server.behaves_handleRequest.commits
  rcases hcommits.yields h with ⟨hrefused, hidle⟩ | ⟨before, e, rfl, hmut, hsettled, hbefore⟩
  · refine ⟨.inl hidle, fun hchanges => ?_⟩
    have hstatus : 400 ≤ reply.statusCode := hrefused hchanges
    have hnone : ¬ ∃ e ∈ tr, e.op.mutates = true ∧ e.op.refusal? e.ans = none :=
      fun ⟨e, he, hmut, _⟩ => hidle e he hmut
    exact iff_of_false (by omega) hnone
  · refine ⟨.inr ⟨before, e, rfl, hmut, hsettled, hbefore⟩, fun _ => hsettled.success_iff.trans ?_⟩
    constructor
    · exact fun hdone => ⟨e, by simp, hmut, hdone⟩
    · intro ⟨e', he', hmut', hdone⟩
      rcases List.mem_append.mp he' with he' | he'
      · exact absurd hmut' (hbefore e' he')
      · rwa [← List.mem_singleton.mp he']

/-- A core in which there is nothing, and which does what it is told. -/
def obligingValue : (call : CoreRequest) → call.Value
  | .listDirectory _ | .listDirectoryWithDeleted _ => []
  | .makeDirectory .. | .touch .. | .restoreToVersion .. | .getMetadata .. => ""
  | .stat uid => ⟨uid, "", "", .regularFile, 0, "", "", 0, 0, 0⟩
  | .exists _ | .checkPermission .. => false
  | .listVersions _ => ⟨[], []⟩
  | .eraseFile .. => ⟨"e1", .complete, [], []⟩
  | .getErasureStatus _ => ⟨"", .complete, 0, 0, "", "", [], []⟩
  | .getAllMetadata _ => []
  | .getResourceAcls _ => []
  | .getAllRoles | .getUsersForRole _ | .getRolesForUser _ | .listClaims .. => []
  | .getStorageUsage _ => ⟨0, 0, 0, .nan false⟩
  | .removeDirectory _ | .removeFile _ | .undeleteFile _ | .rename .. | .move .. | .copy ..
  | .purgeOldVersions .. | .setMetadata .. | .deleteMetadata .. | .grantPermission ..
  | .revokePermission .. | .createRole _ | .deleteRole _ | .assignUserToRole ..
  | .removeUserFromRole .. | .triggerSync _ => ()

/-- A deployment that knows one user of one tenant. -/
def obliging : (op : ServerOp) → ServerAns op
  | .inl (.inl op) => sampleReply "live" op
  | .inl (.inr .randomCodeVerifier) | .inl (.inr .randomToken) => ""
  | .inl (.inr .steadyNow) => (0 : ℤ)
  | .inl (.inr (.statesInsert ..)) => ()
  | .inr .readBody => ""
  | .inr (.core call _) => { success := true, value := obligingValue call }
  | .inr (.streamFileUpload ..) => { success := true, error := "" }
  | .inr (.streamFileDownload ..) => { frames := [], status := .ok }
  | .inr (.searchRoles ..) | .inr (.searchUsers ..) => []
  | .inr .auditHealthy => true

/-- The erasure of a file. -/
def erasure : HttpRequest where
  method := "POST"
  uri := "/v1/files/f1/erase"
  client := { authorization := .basic "ann:secret", xTenant := "acme" }

theorem erasure_settled :
    ∃ e ∈ ((smallServer.handleRequest erasure).run obliging).1,
      e.op.mutates = true ∧ e.op.refusal? e.ans = none :=
  ((change_settled smallServer erasure (Prog.yields_run obliging _)).2 (by decide +kernel)).mp
    (by decide +kernel)

/-- **What can be changed by whom.** Only a `POST`, a `PUT` or a `DELETE` changes
anything. A change of a node is of the one that the path names; it is made as the
caller, whom the same request has authenticated and whose tenant has admitted
them; and only a `POST` to the `erase` of a file erases. -/
theorem change_named (S : Server) (r : HttpRequest) {tr : List (Event ServerAns)} {op : ServerOp}
    {k : ServerAns op → Handler Reply} (h : (S.handleRequest r).Reaches tr (.call op k))
    (hmut : op.mutates = true) :
    (r.method = "POST" ∨ r.method = "PUT" ∨ r.method = "DELETE") ∧
    (∀ uid, op.node? = some uid → nodeNamed (pathSegments r.path) = some uid) ∧
    (op.erases = true →
      r.method = "POST" ∧ ∃ v name, pathSegments r.path = [v, "files", name, "erase"]) ∧
    ∃ id before after, tr = before ++ after ∧
      (Server.caller S.config.toConfig r.client).Yields (lefts (lefts before)) (.ok id) ∧
      op.madeAs = some (fillAuth id) := by
  have hfits := Server.v1Route_fits r.method r.path
  obtain ⟨id, before, after, htr, hid, hchange⟩ := Server.behaves_handleRequest.every tr op k h hmut
  have hnode : ∀ uid, op.node? = some uid → nodeNamed (pathSegments r.path) = some uid := by
    intro uid hop
    rcases hchange.node with hnone | hroute
    · rw [hnone] at hop
      cases hop
    · exact hfits.ofNode uid (hroute ▸ hop)
  exact ⟨hfits.byMethod hchange.changes, hnode, fun herases => hfits.byErase (hchange.erases herases),
    id, before, after, htr, hid, hchange.madeAs⟩

theorem erasure_named :
    ∃ tr op k, (smallServer.handleRequest erasure).Reaches tr (.call op k) ∧ op.erases = true ∧
      ∃ v name, pathSegments erasure.path = [v, "files", name, "erase"] := by
  have hrun := Prog.yields_run obliging (smallServer.handleRequest erasure)
  have hlast : ∃ e ∈ ((smallServer.handleRequest erasure).run obliging).1,
      e.op.mutates = true ∧ e.op.erases = true := by decide +kernel
  obtain ⟨e, he, hmut, herases⟩ := hlast
  obtain ⟨before, after, k, -, hr⟩ := Prog.Reaches.about_to hrun he
  exact ⟨before, e.op, k, hr, herases, ((change_named smallServer erasure hr hmut).2.2.1 herases).2⟩

end HttpBridge
