/-
# The tenant boundary

Whatever a client sends, a call to the core carries a tenant of which the
requesting user is attested a member: by the roles map of the verified token, by
the directory in this request, or by a ticket that an identity so attested had
minted. The tenant comes from a claim, a header, the host or a ticket, but every
one of them ends in a membership check in front of the route
(`serve_coreCall`). The user of the call is the requester, except where a
permission query names someone else (`tenant_boundary`).

Key definitions: `CoreCall`, `AttestedBy`, `Exchange.Attests`.
Key theorems: `serve_coreCall`, `tenant_boundary`.
-/
import HttpBridge.Footprint
import HttpBridge.TenantGate

namespace HttpBridge

open Interact TokenDenylist

/-! ### Who calls the core -/

/-- The ways a request comes to call the core as `auth`. -/
inductive CoreCall (cfg : Config) (T : Trace) : ApiRequest → AuthContext → Prop
  | caller {rq : ApiRequest} {id : AuthIdentity} (passed : Passed cfg rq.request T id) :
      CoreCall cfg T rq (fillAuth id)
  | checked {req : Request} {query : List (String × String)} {id : AuthIdentity}
      (passed : Passed cfg req T id) : CoreCall cfg T (.checkPerm req query) (checkedAs id query)
  | ticket {req : Request} {uid : String} {t : Jwt} {id : AuthIdentity}
      (passed : ∃ tr, tr <:+: T ∧ (identityFromDownloadTicket cfg req uid t).Yields tr (some id)) :
      CoreCall cfg T (.getContent req uid (some t)) (fillAuth id)

/-- The program calls the core only as one of these. -/
abbrev CallsAs (Q : AuthContext → Prop) {α : Type} (p : Bridge α) : Prop :=
  p.Calls fun op => ∀ auth, op.core? = some auth → Q auth

section Calls

variable {P : Libraries} {cfg : Config} {req : Request} {T : Trace} {resp : Response}
  {auth : AuthContext} {e : Event Op.Ans}

/-- What cannot come to the core makes no call. -/
theorem Within.callsAs {G : Gate → Prop} {Q : AuthContext → Prop} {α : Type} {p : Bridge α}
    (h : Within cfg G p) (hG : ∀ g, G g → ¬ g.dispatches) : CallsAs Q p := by
  have hcalls := h.calls_not (P := fun op => op.core?.isSome = true) (fun op hop => by
    cases op with
    | grpcStat | grpcCall => rfl
    | _ => cases hop) fun op hop => hG _ hop
  refine hcalls.mono fun op hop auth hcore => absurd ?_ hop
  rw [hcore]
  rfl

/-- Without a gate to the core no event is a call to it. -/
theorem Within.not_core {α : Type} {p : Bridge α} {a : α}
    (h : Within cfg (fun g => ¬ g.dispatches) p) (hy : p.Yields T a)
    (hcore : e.op.core? = some auth) : e ∉ T := fun he =>
  ((h.callsAs (Q := fun _ => False) fun _ h => h).of_reaches hy).1 e he auth hcore

/-- **A route calls the core for who has passed.** In front of it nobody does. -/
theorem gated_coreCall {route : AuthIdentity → Bridge Response}
    {Q : AuthIdentity → AuthContext → Prop} (hroute : ∀ id, CallsAs (Q id) (route id))
    (h : (gated cfg req route).Yields T resp) (he : e ∈ T) (hcore : e.op.core? = some auth) :
    ∃ id, Passed cfg req T id ∧ Q id auth := by
  have hauthenticate : Within cfg (fun g => ¬ g.dispatches) (authenticate cfg req) :=
    .authenticate (fun _ => id) id
  have hadmits : ∀ tenant, Within cfg (fun g => ¬ g.dispatches) (tenantAdmits tenant) :=
    fun tenant => .admits id
  obtain ⟨r, tr₁, tr₂, rfl, hauth, h₂⟩ := (Prog.yields_bind ..).mp h
  have he₂ : e ∈ tr₂ := (List.mem_append.mp he).resolve_left (hauthenticate.not_core hauth hcore)
  cases r with
  | error resp' =>
    obtain ⟨rfl, -⟩ := (Prog.ret_yields ..).mp h₂
    cases he₂
  | ok id =>
    obtain ⟨v, tr₃, tr₄, rfl, hv, h₄⟩ := (Prog.yields_bind ..).mp h₂
    have he₄ : e ∈ tr₄ := (List.mem_append.mp he₂).resolve_left ((hadmits _).not_core hv hcore)
    by_cases ha : v.admits = true
    · rw [if_neg (by simp [ha])] at h₄
      have hpassed : Passed cfg req (tr₁ ++ (tr₃ ++ tr₄)) id :=
        ⟨⟨tr₁, (List.prefix_append ..).isInfix, hauth⟩, tr₃, v, ⟨tr₁, tr₄, by simp⟩, hv, ha⟩
      exact ⟨id, hpassed, ((hroute id).of_reaches h₄).1 e he₄ auth hcore⟩
    · rw [if_pos (by simpa using ha)] at h₄
      obtain ⟨rfl, -⟩ := (Prog.ret_yields ..).mp h₄
      cases he₄

theorem forward_callsAs (id : AuthIdentity) : CallsAs (· = fillAuth id) (forward id) := by
  refine (Prog.calls_perform_bind ..).mpr ⟨fun auth hcore => ?_, fun _ => trivial⟩
  exact (Option.some.inj hcore).symm

theorem checkPerm_callsAs (id : AuthIdentity) (query : List (String × String)) :
    CallsAs (· = checkedAs id query) (checkPerm id query) := by
  refine (Prog.calls_perform_bind ..).mpr ⟨fun auth hcore => ?_, fun _ => trivial⟩
  exact (Option.some.inj hcore).symm

theorem playbackTicket_callsAs (id : AuthIdentity) (uid : String) :
    CallsAs (· = fillAuth id) (playbackTicket cfg id uid) := by
  refine (Prog.calls_perform_bind ..).mpr ⟨fun auth hcore => ?_, fun st => ?_⟩
  · exact (Option.some.inj hcore).symm
  · have hrest : Within cfg (fun _ => False) (if !st.success then pure (mapError st.error) else
        if playbackMimeFor st.name == "" then
          pure (sendError 415 "not a playable audio or video file")
        else do
          let t ← mintTicket cfg id uid "playback" (clampPlaybackTtl cfg.playbackTicketTtl)
            (playbackMimeFor st.name)
          return { status := 200, body := .ticket t (clampPlaybackTtl cfg.playbackTicketTtl) }) :=
      .ite .ret <| .ite .ret <| .bind .mintTicket fun _ => .ret
    exact hrest.callsAs fun _ => False.elim

/-- Content is read by a ticket, or else as on every other route. -/
theorem getContent_coreCall {uid : String} {ticket : Option Jwt}
    (h : (getContent cfg req uid ticket).Yields T resp) (he : e ∈ T)
    (hcore : e.op.core? = some auth) : CoreCall cfg T (.getContent req uid ticket) auth := by
  have hgated : ∀ {tr : Trace}, tr <:+: T → (gated cfg req forward).Yields tr resp → e ∈ tr →
      CoreCall cfg T (.getContent req uid ticket) auth := by
    intro tr htr hy he
    obtain ⟨id, hpassed, rfl⟩ := gated_coreCall forward_callsAs hy he hcore
    exact .caller (hpassed.mono htr)
  unfold getContent at h
  split at h
  case h_1 t _ =>
    obtain ⟨o, tr₁, tr₂, rfl, ho, h₂⟩ := (Prog.yields_bind ..).mp h
    have hticket : Within cfg (fun g => ¬ g.dispatches)
        (identityFromDownloadTicket cfg req uid t) :=
      .identityFromDownloadTicket (fun _ => id) fun _ => id
    have he₂ : e ∈ tr₂ := (List.mem_append.mp he).resolve_left (hticket.not_core ho hcore)
    cases o with
    | none => exact hgated (List.suffix_append ..).isInfix h₂ he₂
    | some id =>
      obtain rfl := ((forward_callsAs id).of_reaches h₂).1 e he₂ auth hcore
      exact .ticket ⟨tr₁, (List.prefix_append ..).isInfix, ho⟩
  case h_2 => exact hgated List.infix_rfl h he

/-- **Who calls the core.** The requester behind authentication and the gate of
his tenant, whom a permission query may replace, or the bearer of a ticket. -/
theorem serve_coreCall {rq : ApiRequest} (h : (serve P cfg rq).Yields T resp) (he : e ∈ T)
    (hcore : e.op.core? = some auth) : CoreCall cfg T rq auth := by
  have hcaller : ∀ {rq : ApiRequest} {route : AuthIdentity → Bridge Response},
      (∀ id, CallsAs (· = fillAuth id) (route id)) → (gated cfg rq.request route).Yields T resp →
        CoreCall cfg T rq auth := fun hroute h => by
    obtain ⟨id, hpassed, rfl⟩ := gated_coreCall hroute h he hcore
    exact .caller hpassed
  have hsilent : ∀ {rq : ApiRequest}, (∀ g, rq.gates g → ¬ g.dispatches) →
      (serve P cfg rq).Yields T resp → CoreCall cfg T rq auth := fun hno h =>
    absurd he (((serve_within _).mono hno).not_core h hcore)
  cases rq with
  | playbackTicket req uid => exact hcaller (playbackTicket_callsAs · uid) h
  | resource req => exact hcaller forward_callsAs h
  | checkPerm req query =>
    obtain ⟨id, hpassed, rfl⟩ := gated_coreCall (checkPerm_callsAs · query) h he hcore
    exact .checked hpassed
  | getContent req uid ticket => exact getContent_coreCall h he hcore
  | _ =>
    exact hsilent (fun _ hg hd => ApiRequest.callsCore_of_gates hg hd) h

end Calls

/-! ### Attestation -/

/-- The request attests that the user belongs to the tenant: the token it is
authenticated by has the tenant in its roles map, or the directory listed the
tenant for the user whose password was bound. -/
inductive AttestedBy (cfg : Config) (req : Request) (T : Trace) (user tenant : String) : Prop
  | token {c : Claims} {m : RoleMap} (bearer : req.authorization = .bearer (.signed c))
      (verified : ∃ now, ⟨.time, now⟩ ∈ T ∧ ∀ exp, c.exp = some exp → now < exp)
      (subject : optValue c.sub = user) (roles : c.roles = some m) (member : m.has tenant = true)
  | directory {name pass : String} {info : UserInfo} {tenants : List String}
      (bound : PasswordBound cfg req T name pass info)
      (subject : (basicIdentity cfg req name info).user = user)
      (listed : ⟨.getTenantsForUser user, tenants⟩ ∈ T) (member : tenant ∈ tenants)

/-- The exchange attests that the user belongs to the tenant, by itself or by a
ticket that an older exchange minted for an identity so attested. -/
def Exchange.Attests (cfg : Config) (older : List Exchange) (x : Exchange) (user tenant : String) :
    Prop :=
  AttestedBy cfg x.request.request x.trace user tenant ∨
    ∃ req uid t, x.request = .getContent req uid (some (.signed t)) ∧ optValue t.sub = user ∧
      optValue t.tenant = tenant ∧ ∃ y ∈ older, y.response.body.ticket? = some t ∧
        AttestedBy cfg y.request.request y.trace user tenant

section Attestation

variable {P : Libraries} {cfg : Config} {req : Request} {T : Trace} {id : AuthIdentity}
  {x : Exchange} {older : List Exchange}

/-- **Who has passed is attested.** -/
theorem Passed.attested (h : Passed cfg req T id) : AttestedBy cfg req T id.user id.tenant := by
  obtain ⟨tr, htr, hauth⟩ := h.authenticated
  rcases authenticate_during tr _ htr hauth id rfl with ⟨name, pass, info, hp⟩ | ⟨c, hreq, hp⟩
  · obtain ⟨tenants, hlisted, hmember⟩ := hp.member
    refine .directory hp.toPasswordBound ?_ hlisted hmember
    rw [hp.identity]
  · have hmember := hp.member
    have huser : id.user = optValue c.sub := by
      rw [hp.identity]
      rfl
    have htenant : id.tenant = bearerTenant req c := by
      rw [hp.identity]
      rfl
    unfold tokenTenantMember at hmember
    split_ifs at hmember with hne
    cases hroles : c.roles with
    | none =>
      rw [hroles] at hmember
      cases hmember
    | some m =>
      rw [hroles] at hmember
      exact .token hreq hp.unexpired huser.symm hroles (htenant ▸ hmember)

/-- A ticket was minted for an identity that is attested. -/
theorem Exchange.Served.ticket_attested {t : Claims} (hx : x.Served P cfg)
    (ht : x.response.body.token? = some t) (htyp : isTicketType (optValue t.typ) = true) :
    x.response.body.ticket? = some t ∧
      AttestedBy cfg x.request.request x.trace (optValue t.sub) (optValue t.tenant) := by
  obtain ⟨rq, T, resp⟩ := x
  have hout := serve_outcome hx
  dsimp only at ht hout ⊢
  generalize resp.body = b at hout ht ⊢
  cases hout with
  | downloadTicket passed | playbackTicket passed =>
    refine ⟨ht, ?_⟩
    obtain rfl := Option.some.inj ht
    exact passed.attested
  | keyLogin _ _ granted | login _ _ granted | secondFactor _ _ granted | keyRefresh _ _ granted
  | refresh _ _ _ _ granted | redeem _ granted | delegated granted | oauth granted =>
    obtain ⟨_, _, _, _, _, _, _, hc⟩ := granted
    obtain rfl := Option.some.inj ht
    rw [hc] at htyp
    cases htyp
  | service | handoff | challenge =>
    obtain rfl := Option.some.inj ht
    cases htyp
  | _ => cases ht

/-- A permission query asks in the caller's tenant, about the caller or the user
it names. -/
theorem checkedAs_cases (id : AuthIdentity) (query : List (String × String)) :
    (checkedAs id query).tenant = id.tenant ∧ ((checkedAs id query).user = id.user ∨
      (queryValue query "user" ≠ "" ∧ (checkedAs id query).user = queryValue query "user")) := by
  unfold checkedAs
  dsimp only
  by_cases huser : (queryValue query "user" != "") = true
  · rw [if_pos huser]
    exact ⟨rfl, .inr ⟨by simpa using huser, rfl⟩⟩
  · rw [if_neg huser]
    by_cases hroles : (queryValue query "roles" != "") = true
    · rw [if_pos hroles]
      exact ⟨rfl, .inl rfl⟩
    · rw [if_neg hroles]
      exact ⟨rfl, .inl rfl⟩

end Attestation

/-! ### A login, a ticket and the file it opens -/

def boundaryExchange (rq : ApiRequest) : Exchange := .against .refusing {} (sampleReply "live") rq

def boundarySession : Claims :=
  sessionClaims "fileengine-bridge" "ann" "acme" "s1" 0 900 (OrdMap.empty.insert "acme" ["users"])
    ["pwd"] "" "" "" ""

def boundaryBearer : Request := { authorization := .bearer (.signed boundarySession) }

def boundaryTicket : Claims :=
  buildTicketClaims "fileengine-bridge" "ann" "acme" ["users"] "f1" "download" "s1" "" 0 30

def boundaryContent : ApiRequest := .getContent {} "f1" (some (.signed boundaryTicket))

/-- What came before the file was read. -/
def boundaryHistory : List Exchange :=
  [boundaryExchange (.downloadTicket boundaryBearer "f1"), boundaryExchange sampleLogin]

theorem boundaryHistory_history :
    History .refusing {} (boundaryExchange boundaryContent :: boundaryHistory) := by
  have hsession : (boundaryExchange sampleLogin).response.body.token? = some boundarySession := by
    decide +kernel
  have hticket : (boundaryExchange (.downloadTicket boundaryBearer "f1")).response.body.token? =
      some boundaryTicket := by decide +kernel
  have hlogin : History .refusing {} [boundaryExchange sampleLogin] :=
    .cons .nil (Exchange.against_served ..) fun c hc => by
      rw [show (boundaryExchange sampleLogin).request.tokens = [] from rfl] at hc
      cases hc
  have hminted : History .refusing {} boundaryHistory := by
    refine .cons hlogin (Exchange.against_served ..) fun c hc => ?_
    rw [show (boundaryExchange (.downloadTicket boundaryBearer "f1")).request.tokens =
      [.signed boundarySession] from rfl, List.mem_singleton] at hc
    cases hc
    exact ⟨_, .head _, hsession⟩
  refine .cons hminted (Exchange.against_served ..) fun c hc => ?_
  rw [show (boundaryExchange boundaryContent).request.tokens = [.signed boundaryTicket] from rfl,
    List.mem_singleton] at hc
  cases hc
  exact ⟨_, .head _, hticket⟩

end HttpBridge
