/-
# The limit on a request's body

A request that declares more than the limit is answered 413 before it is routed.
Nothing else looks at the length: a handler that reads the body copies what the
stream gives (`readBody`), and a chunked body has no declared length. So a body
over the limit is kept out exactly where its length is declared, or where the
request gets to no handler that reads the body or makes a mutating call
(`body_cap_iff`). With a declared length that bounds the body nothing over the
limit gets through (`capped_of_contentLength`).

Key definitions: `Capped`, `Server.Touches`.
Key theorems: `Server.avoids_handleRequest`, `body_cap_iff`, `capped_of_contentLength`.
-/
import HttpBridge.Requests
import HttpBridge.RoleGuard

namespace HttpBridge

open Interact Handlers

/-- Reading the body, or a mutating call. -/
def TouchesBody (op : ServerOp) : Prop := op = .inr .readBody ∨ op.mutates = true

/-- Of a body no more than `M` bytes are held at once, and one that is longer
changes nothing in the core. -/
structure Capped (M : ℤ) (body : String) (p : Handler Reply) : Prop where
  held : ∀ tr q, p.Reaches tr q → ReadsBody body tr → ∀ e ∈ tr, ∀ s, bodyCopied e = some s → s.length ≤ M
  refused : M < body.length → Avoids body (fun op => op.mutates = true) p

/-- A body over the limit must not be touched at all. -/
theorem capped_iff {M : ℤ} {body : String} {p : Handler Reply} :
    Capped M body p ↔ (M < body.length → Avoids body TouchesBody p) := by
  constructor
  · rintro ⟨hheld, hrefused⟩ hlong tr op k hr hread (rfl | hmut)
    · have hsnoc : ReadsBody body (tr ++ [⟨.inr .readBody, body⟩]) := by
        intro e he s hs
        rcases List.mem_append.mp he with he | he
        · exact hread e he s hs
        · rw [List.mem_singleton.mp he] at hs
          exact (Option.some.inj hs).symm
      have hle := hheld _ _ (hr.snoc body) hsnoc ⟨.inr .readBody, body⟩ (by simp) body rfl
      omega
    · exact hrefused hlong tr op k hr hread hmut
  · intro h
    refine ⟨fun tr q hr hread e he s hs => ?_, fun hlong tr op k hr hread hmut => ?_⟩
    · obtain rfl := hread e he s hs
      by_contra hlong
      obtain ⟨tr₁, tr₂, k, rfl, hr₁⟩ := hr.about_to he
      have hop : e.op = .inr .readBody := by
        obtain ⟨op, a⟩ := e
        unfold bodyCopied at hs
        split at hs
        · rename_i heq
          cases heq
          rfl
        · cases hs
      exact h (by omega) tr₁ e.op k hr₁ (fun e' he' => hread e' (List.mem_append_left _ he')) (.inl hop)
    · exact h hlong tr op k hr hread (.inr hmut)

/-! ### What a route touches -/

/-- The routes behind authentication that read the body or make a mutating call,
for a caller. -/
def Route.Touches (P : Poco) (id : AuthIdentity) : Route → Prop
  -- they read the body
  | .makeDir _ | .touchFile _ | .renameNode _ | .moveNode _ | .copyNode _ | .setMeta _ _
  | .restoreVersion _ | .purgeVersions _ | .eraseNode _ | .grantPerm _ | .revokePerm _ => True
  -- they do not, and make a mutating call
  | .removeDir _ | .removeFile _ | .undelete _ | .deleteMeta _ _ | .triggerSync => True
  | .createRole => isTenantAdmin id = true
  | .deleteRole role | .assignUserToRole role _ | .removeUserFromRole role _ =>
    isTenantAdmin id = true ∧ refusesReservedRole P id role = false
  | _ => False

/-- The request is a streaming upload. -/
def HttpRequest.Uploads (r : HttpRequest) : Prop :=
  startsWith "/v1/" r.path = true ∧ ∃ uid, v1Route r.method r.path = .putContent uid

namespace Server

variable {S : Server} {r : HttpRequest} {id : AuthIdentity} {body : String}

theorem not_touchesBody_inl (op : FlowOp) : ¬ TouchesBody (.inl op) := by
  rintro (h | h)
  · cases h
  · cases h

theorem avoids_answered (p : Bridge Response) : Avoids body TouchesBody (answered p) :=
  (Avoids.lift_bind not_touchesBody_inl p).mpr fun _ _ _ => Avoids.ret _

/-- A handler that begins with such an operation. -/
theorem not_avoids_call {op : ServerOp} {k : ServerAns op → Handler Reply} (h : TouchesBody op) :
    ¬ Avoids body TouchesBody (.call op k) := by
  intro havoids
  exact havoids [] op k ((Prog.reaches_nil _ _).mpr rfl) (fun _ he => absurd he List.not_mem_nil) h

/-! ### Handlers of several operations -/

/-- The operation neither reads the body nor changes the core. -/
abbrev Untouched (op : ServerOp) : Prop := ¬ TouchesBody op

theorem untouched_core {call : CoreRequest} {auth : AuthContext} (h : call.mutates = false) :
    Untouched (.inr (.core call auth)) := by
  rintro (hread | hmut)
  · cases hread
  · exact absurd (h.symm.trans hmut) Bool.false_ne_true

theorem calls_childrenOf (uid : String) : (childrenOf id uid).Calls Untouched :=
  ⟨untouched_core rfl, fun _ => trivial⟩

theorem calls_withChildren (budget : ℤ) (es : List DirectoryEntry) :
    (withChildren id budget es).Calls Untouched := by
  induction es generalizing budget with
  | nil => exact trivial
  | cons e es ih =>
    unfold withChildren
    split_ifs
    · exact (Prog.calls_bind _ _ _).mpr ⟨ih budget, fun _ _ _ => trivial⟩
    · refine (Prog.calls_bind _ _ _).mpr ⟨calls_childrenOf e.uid, fun _ _ _ => ?_⟩
      exact (Prog.calls_bind _ _ _).mpr ⟨ih (budget - 1), fun _ _ _ => trivial⟩
    · exact (Prog.calls_bind _ _ _).mpr ⟨ih budget, fun _ _ _ => trivial⟩

theorem calls_entries (limit : ℤ) (children : Bool) (es : List DirectoryEntry) :
    (entries id limit children es).Calls Untouched := by
  unfold entries
  split_ifs
  · exact (Prog.calls_bind _ _ _).mpr ⟨calls_withChildren limit es, fun _ _ _ => trivial⟩
  · exact trivial

theorem calls_ite {α : Type} {b : Bool} {p q : Handler α} (hp : p.Calls Untouched)
    (hq : q.Calls Untouched) : (if b then p else q).Calls Untouched := by
  cases b
  · exact hq
  · exact hp

theorem calls_listDir (limit : ℤ) (uri uid : String) : (listDir id limit uri uid).Calls Untouched := by
  have hcontinue : ∀ (b c : Bool) (refusal : Reply) (es : List DirectoryEntry),
      (if b then pure refusal else entries id limit c es : Handler Reply).Calls Untouched :=
    fun _ c _ es => calls_ite trivial (calls_entries limit c es)
  unfold listDir
  dsimp only
  refine calls_ite ?_ ?_
  · exact ⟨untouched_core rfl, fun _ => hcontinue _ _ _ _⟩
  · exact ⟨untouched_core rfl, fun _ => hcontinue _ _ _ _⟩

theorem calls_searchPrincipals (query : List (String × String)) :
    (searchPrincipals id query).Calls Untouched := by
  unfold searchPrincipals
  extract_lets q types wants limit withRoles
  have hroles : ∀ roles, (withRoles roles).Calls Untouched := by
    intro roles
    dsimp only [withRoles]
    refine calls_ite ?_ ?_
    · refine ⟨untouched_core rfl, fun claims => calls_ite trivial (calls_ite ?_ trivial)⟩
      exact ⟨nofun, fun _ => trivial⟩
    · refine calls_ite ?_ trivial
      exact ⟨nofun, fun _ => trivial⟩
  refine calls_ite ?_ (hroles _)
  exact ⟨nofun, hroles⟩

/-! ### Routes -/

/-- **What a route touches.** -/
theorem avoids_authed {route : Route} (hupload : ∀ uid, route ≠ .putContent uid) :
    Avoids body TouchesBody (S.authed r id route) ↔ ¬ route.Touches S.poco id := by
  have hadmin : ∀ {role : String} {call : CoreRequest}, call.mutates = true →
      (Avoids body TouchesBody (if !isTenantAdmin id then pure adminRequired
        else changeRole S.poco id role (forwardPlain id call)) ↔
          ¬(isTenantAdmin id = true ∧ refusesReservedRole S.poco id role = false)) := by
    intro role call hmut
    rw [RoleEndpoint.avoids_ite_admin, RoleEndpoint.avoids_changeRole, not_and]
    exact imp_congr_right fun _ => imp_congr_right fun _ =>
      iff_of_false (not_avoids_call (.inr hmut)) not_false
  cases route with
  | issueToken | revokeToken | authExchange | ssoRedeem | verifyMfa | providers | oauthStart _
  | oauthCallback _ | notFound | whoami | introspect | listIntegrations =>
    exact iff_of_true (Avoids.ret _) not_false
  | refreshToken | ssoHandoff | downloadTicket _ | playbackTicket _ =>
    exact iff_of_true (avoids_answered _) not_false
  | listTenants =>
    exact iff_of_true ((Avoids.lift_bind not_touchesBody_inl _).mpr fun _ _ _ => Avoids.ret _) not_false
  | storageUsage | getAllRoles | getUsersForRole _ | getRolesForUser _ | erasureStatus _
  | listVersions _ | listRenditions _ | statNode _ | existsNode _ | getAllMeta _ | getAcls _
  | getMeta _ _ =>
    exact iff_of_true (.of_calls ⟨untouched_core rfl, fun _ => trivial⟩) not_false
  | triggerSync | removeDir _ | removeFile _ | undelete _ | deleteMeta _ _ =>
    exact iff_of_false (not_avoids_call (.inr rfl)) (not_not_intro trivial)
  | makeDir _ | touchFile _ | renameNode _ | moveNode _ | copyNode _ | setMeta _ _
  | restoreVersion _ | purgeVersions _ | eraseNode _ | grantPerm _ | revokePerm _ =>
    exact iff_of_false (not_avoids_call (.inl rfl)) (not_not_intro trivial)
  | createRole =>
    refine RoleEndpoint.avoids_ite_admin.trans ?_
    exact imp_congr_right fun _ => iff_of_false (not_avoids_call (.inl rfl)) not_false
  | deleteRole role => exact hadmin (by rfl)
  | assignUserToRole role user => exact hadmin (by rfl)
  | removeUserFromRole role user => exact hadmin (by rfl)
  | searchPrincipals => exact iff_of_true (.of_calls (calls_searchPrincipals _)) not_false
  | listDir uid => exact iff_of_true (.of_calls (calls_listDir _ _ _)) not_false
  | getContent uid => exact iff_of_true (.of_calls ⟨nofun, fun _ => trivial⟩) not_false
  | getVersion uid version => exact iff_of_true (.of_calls ⟨nofun, fun _ => trivial⟩) not_false
  | checkPerm uid => exact iff_of_true (.of_calls ⟨nofun, fun _ => trivial⟩) not_false
  | putContent uid => exact absurd rfl (hupload uid)

/-- The routes in front of authentication that read the body themselves; a form
is read by Poco, field by field. -/
def TouchesInFront (S : Server) (r : HttpRequest) : Route → Prop
  | .verifyMfa => True
  | .ssoRedeem => r.json = true
  | .authExchange => S.hasIntegration = true ∧ r.json = true
  | _ => False

theorem avoids_front (route : Route) :
    Avoids body TouchesBody (S.front r route) ↔ ¬ S.TouchesInFront r route := by
  cases route with
  | verifyMfa => exact iff_of_false (not_avoids_call (.inl rfl)) (not_not_intro trivial)
  | ssoRedeem =>
    unfold front ssoRedeem
    dsimp only
    by_cases hjson : r.json = true
    · rw [if_pos hjson]
      exact iff_of_false (not_avoids_call (.inl rfl)) (not_not_intro hjson)
    · rw [if_neg hjson]
      exact iff_of_true (avoids_answered _) hjson
  | authExchange =>
    unfold front authExchange
    dsimp only
    by_cases hconfigured : S.hasIntegration = true
    · rw [hconfigured, Bool.not_true, if_neg Bool.false_ne_true]
      by_cases hjson : r.json = true
      · rw [if_pos hjson]
        exact iff_of_false (not_avoids_call (.inl rfl)) (not_not_intro ⟨hconfigured, hjson⟩)
      · rw [if_neg hjson]
        exact iff_of_true (avoids_answered _) fun h => hjson h.2
    · rw [if_pos (by simpa using hconfigured)]
      exact iff_of_true (avoids_answered _) fun h => hconfigured h.1
  | oauthStart provider =>
    exact iff_of_true ((Avoids.inl_bind not_touchesBody_inl _).mpr fun _ _ _ => Avoids.ret _) not_false
  | issueToken | revokeToken | oauthCallback _ =>
    exact iff_of_true (avoids_answered _) not_false
  | _ => exact iff_of_true (Avoids.ret _) not_false

/-! ### The request -/

/-- The request gets to a handler that reads the body or makes a mutating call. -/
def Touches (S : Server) (r : HttpRequest) : Prop :=
  (S.corsOrigins = [] ∨ r.method ≠ "OPTIONS") ∧ startsWith "/v1/" r.path = true ∧
    match frontRoute r.method r.path with
    | some route => S.TouchesInFront r route
    | none => ∃ T id, (caller S.config.toConfig r.client).Yields T (.ok id) ∧
        (authedRoute r.method (pathSegments r.path)).Touches S.poco id

theorem avoids_behind {route : Route} (hupload : ∀ uid, route ≠ .putContent uid) :
    Avoids body TouchesBody (S.behind r fun id => S.authed r id route) ↔
      ¬ ∃ T id, (caller S.config.toConfig r.client).Yields T (.ok id) ∧ route.Touches S.poco id := by
  refine (Avoids.lift_bind not_touchesBody_inl _).trans ?_
  constructor
  · rintro h ⟨T, id, hy, htouches⟩
    exact (avoids_authed hupload).mp (h T (.ok id) hy) htouches
  · intro h T result hy
    cases result with
    | error resp => exact Avoids.ret _
    | ok id => exact (avoids_authed hupload).mpr fun htouches => h ⟨T, id, hy, htouches⟩

/-- A request with a ticket is for the content of a file. -/
theorem authedRoute_of_ticketed {uid : String} {ticket : Jwt} (h : S.ticketed r = some (uid, ticket)) :
    ∃ uid', authedRoute r.method (pathSegments r.path) = .getContent uid' := by
  unfold ticketed at h
  split at h
  · rename_i resource uid sub hsegs hauth
    by_cases hcontent : r.method = "GET" ∧ resource = "files" ∧ sub = "content"
    · obtain ⟨hmethod, rfl, rfl⟩ := hcontent
      rw [hsegs, hmethod]
      exact ⟨if uid = "root" then "" else uid, by simp [authedRoute, uidRoute, filesRoute]⟩
    · rw [if_neg hcontent] at h
      cases h
  · cases h

theorem avoids_guarded (hupload : ∀ uid, authedRoute r.method (pathSegments r.path) ≠ .putContent uid) :
    Avoids body TouchesBody (S.guarded r) ↔
      ¬ ∃ T id, (caller S.config.toConfig r.client).Yields T (.ok id) ∧
        (authedRoute r.method (pathSegments r.path)).Touches S.poco id := by
  unfold guarded
  dsimp only
  cases hticket : S.ticketed r with
  | none => exact avoids_behind hupload
  | some found =>
    obtain ⟨uid, ticket⟩ := found
    obtain ⟨uid', hroute⟩ := authedRoute_of_ticketed hticket
    have hnone : ¬ ∃ T id, (caller S.config.toConfig r.client).Yields T (.ok id) ∧
        (authedRoute r.method (pathSegments r.path)).Touches S.poco id := by
      rw [hroute]
      rintro ⟨T, id, -, h⟩
      exact h
    refine iff_of_true ((Avoids.lift_bind not_touchesBody_inl _).mpr fun T answer hy => ?_) hnone
    cases answer with
    | none => exact (avoids_behind hupload).mpr hnone
    | some id => exact .of_calls ⟨nofun, fun _ => trivial⟩

theorem avoids_readyz : Avoids body TouchesBody S.readyz := by
  have hanswer : ∀ b : Bool, ∀ q q' : Reply,
      (if b then pure q else pure q' : Handler Reply).Calls Untouched :=
    fun _ _ _ => calls_ite trivial trivial
  refine .of_calls ⟨untouched_core rfl, fun listed => calls_ite ?_ (hanswer _ _ _)⟩
  exact ⟨nofun, fun healthy => hanswer _ _ _⟩

theorem avoids_handleV1 (hupload : ∀ uid, v1Route r.method r.path ≠ .putContent uid) :
    Avoids body TouchesBody (S.handleV1 r) ↔
      ¬ match frontRoute r.method r.path with
        | some route => S.TouchesInFront r route
        | none => ∃ T id, (caller S.config.toConfig r.client).Yields T (.ok id) ∧
            (authedRoute r.method (pathSegments r.path)).Touches S.poco id := by
  unfold v1Route at hupload
  unfold handleV1
  cases hfront : frontRoute r.method r.path with
  | some route => exact avoids_front route
  | none =>
    rw [hfront, Option.getD_none] at hupload
    exact avoids_guarded hupload

/-- **What a request touches.** -/
theorem avoids_handleRequest (hupload : ¬ r.Uploads) :
    Avoids body TouchesBody (S.handleRequest r) ↔ S.declaresTooLong r = true ∨ ¬ S.Touches r := by
  unfold handleRequest
  by_cases hpreflight : (!S.corsOrigins.isEmpty && r.method == "OPTIONS") = true
  · rw [if_pos hpreflight]
    refine iff_of_true (Avoids.ret _) (.inr fun h => ?_)
    simp only [Bool.and_eq_true, Bool.not_eq_true', beq_iff_eq, List.isEmpty_eq_false_iff] at hpreflight
    rcases h.1 with hnone | hmethod
    · exact hpreflight.1 hnone
    · exact hmethod hpreflight.2
  rw [if_neg hpreflight]
  by_cases hlong : S.declaresTooLong r = true
  · rw [if_pos hlong]
    exact iff_of_true (Avoids.ret _) (.inl hlong)
  rw [if_neg hlong, or_iff_right hlong]
  by_cases hv1 : startsWith "/v1/" r.path = true
  · have hfixed : ∀ fixed, startsWith "/v1/" fixed = false → (r.path == fixed) = false := by
      intro fixed hno
      by_contra heq
      rw [Bool.not_eq_false, beq_iff_eq] at heq
      rw [heq, hno] at hv1
      cases hv1
    rw [hfixed "/healthz" (by decide), hfixed "/readyz" (by decide), if_neg Bool.false_ne_true, if_neg Bool.false_ne_true,
      if_pos hv1, avoids_handleV1 fun uid hroute => hupload ⟨hv1, uid, hroute⟩]
    have hmethod : S.corsOrigins = [] ∨ r.method ≠ "OPTIONS" := by
      by_cases hnone : S.corsOrigins = []
      · exact .inl hnone
      · exact .inr fun hmethod => hpreflight (by simp [hnone, hmethod])
    exact not_congr ⟨fun h => ⟨hmethod, hv1, h⟩, fun h => h.2.2⟩
  · refine iff_of_true ?_ fun h => hv1 h.2.1
    split_ifs
    · exact Avoids.ret _
    · exact avoids_readyz
    · exact Avoids.ret _

end Server

/-- The request declares more than `M` bytes. -/
def HttpRequest.Declares (r : HttpRequest) (M : ℤ) : Prop := ∃ n, r.contentLength = some n ∧ M < n

/-- Every other request has the limit of the requests that are buffered. -/
theorem bodyCap_of_not_uploads {S : Server} {r : HttpRequest} (h : ¬ r.Uploads) :
    S.bodyCap r = S.maxBodyBytes := by
  refine if_neg fun hstream => h ⟨?_, (of_isStreamingUploadPath hstream).1⟩
  obtain ⟨-, mid, -, -, hpath⟩ := isStreamingUploadPath_iff.mp hstream
  rw [startsWith, List.isPrefixOf_iff_prefix, hpath]
  exact ⟨"files/".toList ++ (mid ++ "/content".toList), rfl⟩

theorem declaresTooLong_iff {S : Server} {r : HttpRequest} (hlimit : 0 < S.maxBodyBytes)
    (hupload : ¬ r.Uploads) : S.declaresTooLong r = true ↔ r.Declares S.maxBodyBytes := by
  unfold Server.declaresTooLong HttpRequest.Declares
  rw [bodyCap_of_not_uploads hupload]
  cases r.contentLength <;> simp [hlimit]

def smallServer : Server where
  poco := .plain
  libraries := .refusing
  config := sampleFlowConfig
  pkceChallengeS256 := id
  readToken _ := none
  usableProviders := []
  corsOrigins := []
  maxBodyBytes := 4
  maxUploadBytes := 8
  childrenScanLimit := 250

/-- A completion of a second factor with six bytes of body. -/
def sixBytes (contentLength : Option ℤ) : HttpRequest where
  method := "POST"
  uri := "/v1/auth/2fa"
  contentLength := contentLength
  body := "abcdef"

theorem not_uploads_sixBytes (n : Option ℤ) : ¬ (sixBytes n).Uploads :=
  fun h => absurd (v1Route_eq_putContent.mp h.2).1 (show ¬ "POST" = "PUT" by decide)

/-- A body that is no longer than its declared length is within the limit or is
not touched. -/
theorem capped_of_contentLength {S : Server} {r : HttpRequest} {n : ℤ} (hlimit : 0 < S.maxBodyBytes)
    (hupload : ¬ r.Uploads) (hn : r.contentLength = some n) (hframe : r.body.length ≤ n) :
    Capped S.maxBodyBytes r.body (S.handleRequest r) := by
  rw [capped_iff, Server.avoids_handleRequest hupload, declaresTooLong_iff hlimit hupload]
  exact fun hlong => .inl ⟨n, hn, hlong.trans_le hframe⟩

end HttpBridge
