/-
# What a session leaves on record

Two records are kept of a session the proxy hands out. The audit trail has to
hold it before the token is sent: no session is answered unless the sink
accepted an event of success of its subject (`session_recorded`).

The register of live sessions holds it for the WebDAV door, under the tenant
that was asked for, and sign-out is to take it out again. It looks under the
tenant of the token, which the mint may have replaced: the entry goes exactly
if the token is presented before it expires and the directory gave roles in the
tenant that was asked for, or none at all (`presence_released_iff`).

Key definitions: `Presence`, `recordedIn`, `removedIn`.
Key theorems: `session_recorded`, `presence_released_iff`.
-/
import HttpBridge.TenantGate

namespace HttpBridge

open Interact TokenDenylist

/-! ### The audit trail -/

section Audit

variable {P : Libraries} {cfg : Config} {rq : ApiRequest} {T : Trace} {resp : Response} {c : Claims}

/-- **No session without its record.** Where an audit is kept, a session is
answered only after the sink has accepted an event of success that names its
subject. -/
theorem session_recorded (haudit : cfg.auditEnabled = true)
    (h : (serve P cfg rq).Yields T resp) (hc : resp.body.session? = some c) :
    ∃ e : AuthEvent, ⟨.publish e, true⟩ ∈ T ∧ e.outcome = "ok" ∧ c.sub = some e.actor := by
  obtain ⟨user, hsub, hrecorded⟩ := (serve_outcome h).recorded hc
  obtain ⟨e, he, hok, hactor⟩ := hrecorded haudit
  refine ⟨e, he, hok, ?_⟩
  rw [hsub, hactor]

theorem auditedLogin_recorded : ∃ c,
    ((serve .refusing { auditEnabled := true } sampleLogin).run (sampleReply "live")).2.body.session? =
      some c ∧
    ∃ e : AuthEvent, ⟨.publish e, true⟩ ∈
        ((serve .refusing { auditEnabled := true } sampleLogin).run (sampleReply "live")).1 ∧
      e.outcome = "ok" ∧ c.sub = some e.actor := by
  obtain ⟨c, hc⟩ := Option.isSome_iff_exists.mp (show
    ((serve .refusing { auditEnabled := true } sampleLogin).run
      (sampleReply "live")).2.body.session?.isSome = true by decide +kernel)
  exact ⟨c, hc, session_recorded rfl (Prog.yields_run _ _) hc⟩

end Audit

/-! ### The register of live sessions -/

/-- An entry of the register. -/
structure Presence where
  tenant : String
  uid : String
  member : String
  deriving DecidableEq

def Presence.added? : Event Op.Ans → Option Presence
  | ⟨.sessionAdd tenant uid member _, _⟩ => some ⟨tenant, uid, member⟩
  | _ => none

def Presence.removed? : Event Op.Ans → Option Presence
  | ⟨.sessionRemove tenant uid member, _⟩ => some ⟨tenant, uid, member⟩
  | _ => none

/-- The entries a request records. -/
def recordedIn (T : Trace) : List Presence := T.filterMap Presence.added?

/-- The entries a request takes out. -/
def removedIn (T : Trace) : List Presence := T.filterMap Presence.removed?

/-- Every entry recorded in `T` is that of the session in the answer, under the
tenant asked of the mint. -/
def Registered (cfg : Config) (ip : String) (T : Trace) (b : Body) : Prop :=
  ∀ c, b.session? = some c → ∀ e ∈ recordedIn T, ∃ m, ⟨.getRolesByTenant e.uid, m⟩ ∈ T ∧
    c.sub = some e.uid ∧ c.tenant = some (mintedTenant e.tenant m) ∧
    e.member = optValue c.jti ++ "|" ++ ip ∧ optValue c.jti ≠ "" ∧
    cfg.webdavIpBindingEnabled = true ∧ ∃ exp, c.exp = some exp

/-- Whatever the program answers, it records the session it answers with. -/
def Registers (cfg : Config) (ip : String) (p : Bridge Response) : Prop :=
  ∀ T resp, p.Yields T resp → Registered cfg ip T resp.body

theorem filterMap_eq_nil_of_calls {f : Event Op.Ans → Option Presence} {α : Type} {p : Bridge α}
    {T : Trace} {a : α} (h : p.Calls fun op => ∀ b, f ⟨op, b⟩ = none) (hy : p.Yields T a) :
    T.filterMap f = [] := by
  refine List.filterMap_eq_nil_iff.mpr fun e he => ?_
  exact (h.of_reaches hy).1 e he e.ans

/-- What cannot come to the register records nothing. -/
theorem Within.recordedIn_eq {cfg : Config} {α : Type} {p : Bridge α} {T : Trace} {a : α}
    (h : Within cfg (fun g => ¬ g.registers) p) (hy : p.Yields T a) : recordedIn T = [] := by
  have hcalls := h.calls_not (P := fun op => (Gate.call op).registers) (fun op hop => by
    cases op with
    | sessionAdd => rfl
    | _ => exact hop.elim) fun op hop => hop
  refine filterMap_eq_nil_of_calls (hcalls.mono fun op hop a => ?_) hy
  cases op with
  | sessionAdd => exact absurd trivial hop
  | _ => rfl

theorem recordSession_recorded {cfg : Config} {tenant uid jti ip : String} {T : Trace} {a : Unit}
    {e : Presence} (h : (recordSession cfg tenant uid jti ip).Yields T a) (he : e ∈ recordedIn T) :
    cfg.webdavIpBindingEnabled = true ∧ jti ≠ "" ∧ e = ⟨tenant, uid, jti ++ "|" ++ ip⟩ := by
  unfold recordSession at h
  split_ifs at h with hoff
  · obtain ⟨rfl, -⟩ := (Prog.ret_yields ..).mp h
    cases he
  · obtain ⟨now, tr₁, rfl, h₁⟩ := (Prog.yields_perform_bind ..).mp h
    obtain ⟨ttl, tr₂, tr₃, rfl, httl, h₃⟩ := (Prog.yields_bind ..).mp h₁
    obtain ⟨ok, tr₄, rfl, h₄⟩ := (Prog.yields_perform_bind ..).mp h₃
    obtain ⟨rfl, -⟩ := (Prog.ret_yields ..).mp h₄
    have hnone : recordedIn tr₂ = [] := Within.recordedIn_eq .sessionTtl httl
    have hentry : recordedIn (⟨.time, now⟩ :: (tr₂ ++
        [⟨.sessionAdd tenant uid (jti ++ "|" ++ ip) (now + ttl), ok⟩])) =
        recordedIn tr₂ ++ [⟨tenant, uid, jti ++ "|" ++ ip⟩] := by
      show List.filterMap Presence.added? (tr₂ ++ _) = _
      rw [List.filterMap_append]
      rfl
    rw [hentry, hnone, List.nil_append, List.mem_singleton] at he
    simp only [Bool.or_eq_true, not_or, Bool.not_eq_true', Bool.not_eq_false, beq_iff_eq] at hoff
    exact ⟨hoff.1, hoff.2, he⟩

namespace Registers

variable {cfg : Config} {ip : String}

theorem ret {resp : Response} : Registers cfg ip (pure resp) := by
  intro T resp' h c _ e he
  obtain ⟨rfl, -⟩ := (Prog.ret_yields ..).mp h
  cases he

/-- A part that records nothing comes before. -/
theorem skip {α : Type} {p : Bridge α} {f : α → Bridge Response}
    (hp : Within cfg (fun g => ¬ g.registers) p) (hf : ∀ a, Registers cfg ip (f a)) :
    Registers cfg ip (p >>= f) := by
  intro T resp h c hc e he
  obtain ⟨a, tr₁, tr₂, rfl, hy, h₂⟩ := (Prog.yields_bind ..).mp h
  have hnone : recordedIn (tr₁ ++ tr₂) = recordedIn tr₂ := by
    rw [recordedIn, List.filterMap_append]
    show recordedIn tr₁ ++ _ = _
    rw [hp.recordedIn_eq hy]
    rfl
  rw [hnone] at he
  obtain ⟨m, hm, hrest⟩ := hf a tr₂ resp h₂ c hc e he
  exact ⟨m, List.mem_append_right _ hm, hrest⟩

theorem ite {b : Prop} [Decidable b] {p q : Bridge Response} (hp : Registers cfg ip p)
    (hq : Registers cfg ip q) : Registers cfg ip (if b then p else q) := by
  split
  · exact hp
  · exact hq

/-- The register is written for the session that was minted, under the tenant
asked of the mint. -/
theorem grant {user tenant aip : String} {amr : List String} {answer : Claims → Response}
    (hanswer : ∀ c, (answer c).body.session? = some c) :
    Registers cfg ip (do
      let token ← mintJwt cfg user tenant amr aip "" "" ""
      let _ ← recordSession cfg tenant user (optValue token.jti) ip
      return answer token) := by
  intro T resp h c hc e he
  obtain ⟨c', tr₁, tr₂, rfl, hmint, h₂⟩ := (Prog.yields_bind ..).mp h
  obtain ⟨_, tr₃, tr₄, rfl, hrecord, h₄⟩ := (Prog.yields_bind ..).mp h₂
  obtain ⟨rfl, rfl⟩ := (Prog.ret_yields ..).mp h₄
  rw [hanswer] at hc
  cases hc
  obtain ⟨m, now, jti, rfl, rfl⟩ := mintJwt_yields.mp hmint
  simp only [List.append_nil, recordedIn, List.filterMap_append] at he
  have he : e ∈ recordedIn tr₃ := he
  obtain ⟨hbinding, hjti, rfl⟩ := recordSession_recorded hrecord he
  exact ⟨m, by simp, rfl, rfl, rfl, hjti, hbinding, _, rfl⟩

theorem of_within {p : Bridge Response} (h : Within cfg (fun g => ¬ g.registers) p) :
    Registers cfg ip p := by
  intro T resp hy c _ e he
  rw [h.recordedIn_eq hy] at he
  cases he

theorem grantSession {user tenant aip field : String} {amr : List String}
    {recoveryCodes : Option String} :
    Registers cfg ip (HttpBridge.grantSession cfg user tenant amr aip ip field recoveryCodes) :=
  grant fun _ => rfl

end Registers

/-! ### Endpoint by endpoint -/

section Endpoints

variable {P : Libraries} {cfg : Config} {req : Request}

theorem issueToken_registers : Registers cfg req.clientIp (issueToken cfg req) := by
  unfold issueToken
  split
  · exact .of_within (.issueServiceKeyToken id)
  · refine .skip (.authenticateBasic id) fun ⟨ok, id⟩ => .ite (.of_within .refuseLogin) ?_
    refine .skip (.admits fun h => h) fun v => .ite (.of_within (.bind .emitAuth fun _ => .ret)) ?_
    refine .skip (.plain rfl) fun tenants => ?_
    split
    · exact .of_within (.bind .emitAuth fun _ => .ret)
    · refine .skip .emitAuth fun _ => .ite .ret <| .ite .grantSession <| .skip .mfaRequired fun a => ?_
      split
      · exact .ret
      · exact .ite (.of_within .challenge) .grantSession

theorem verifyMfa_registers {mfaToken : Option Jwt} {action method code : String} :
    Registers cfg req.clientIp (verifyMfa cfg req mfaToken action method code) := by
  have henroll : ∀ g : Gate, g.enrolls → ¬ g.registers := fun g hg hr => by
    cases g with
    | call op =>
      cases op with
      | sessionAdd => cases hg
      | _ => exact hr
    | _ => exact hr
  refine .skip (.plain rfl) fun now => ?_
  split
  · exact .ret
  · refine .ite (.of_within (.bind .emitAuth fun _ => .ret)) <| .ite (.of_within .sendCode) <|
      .ite (.of_within (.enrollBegin henroll)) <| .ite ?_ ?_
    · refine .skip (.mfaEnrollComplete henroll) fun codes => ?_
      split
      · exact .of_within (.bind .emitAuth fun _ => .ret)
      · exact .skip .emitAuth fun _ => .ite .ret .grantSession
    · exact .skip (.bind (.plain rfl) fun _ => .ret) fun _ =>
        .ite (.of_within (.bind .emitAuth fun _ => .ret)) <|
        .skip .emitAuth fun _ => .ite .ret .grantSession

theorem refreshToken_registers {id : AuthIdentity} :
    Registers cfg req.clientIp (refreshToken cfg req id) := by
  refine .ite (.of_within .refreshServiceKeyToken) <| .skip (.plain rfl) fun tenants => ?_
  split
  · exact .of_within (.bind .emitAuth fun _ => .ret)
  · exact .skip .emitAuth fun _ => .ite .ret .grantSession

theorem ssoRedeem_registers {form : Option (Option Jwt)} :
    Registers cfg req.clientIp (ssoRedeem cfg req form) := by
  unfold ssoRedeem
  split
  · exact .ret
  · exact .ret
  · refine .skip (.plain rfl) fun now => ?_
    split
    · exact .ret
    · exact .ite .ret <| .skip (.replay id) fun _ => .ite .ret <| .ite .ret <|
        .skip .emitAuth fun _ => .ite .ret .grantSession

theorem authExchange_registers {form : Option (String × String)} :
    Registers cfg req.clientIp (authExchange P cfg req form) := by
  refine .ite .ret ?_
  split
  · exact .ret
  · refine .ite .ret <| .ite .ret <| .ite (.of_within (.bind .emitAuth fun _ => .ret)) <|
      .skip .verifyIntegrationAssertion fun r => ?_
    unfold acceptAssertion
    split
    · exact .of_within (.bind .emitAuth fun _ => .ret)
    · refine .skip (.plain rfl) fun now => .skip (.replay id) fun _ =>
        .ite (.of_within (.bind .emitAuth fun _ => .ret)) <| .ite ?_ <| .ite .ret ?_
      · exact .of_within <| .ite .ret <| .ite .ret <| .bind .emitAuth fun _ => .ite .ret <|
          .bind .mintServiceJwt fun _ => .ret
      · refine .skip (.plain rfl) fun tenants => ?_
        dsimp only
        split
        · exact .of_within (.bind .emitAuth fun _ => .ret)
        · exact .skip .emitAuth fun _ => .ite .ret .grantSession

theorem oauthCallback_registers {provider code state idpError : String} :
    Registers cfg req.clientIp (oauthCallback cfg req provider code state idpError) := by
  refine .ite .ret (.skip (.plain rfl) fun st => ?_)
  split
  · exact .ret
  refine .ite .ret (.ite .ret ?_)
  split
  · exact .ret
  refine .skip (.plain rfl) fun tokens => ?_
  split
  · exact .ret
  refine .skip .verifiedIdentity fun vid => ?_
  split
  · exact .ret
  · exact .ite .ret <| .skip (.plain rfl) fun _ =>
      .ite (.of_within (.bind .emitAuth fun _ => .ret)) <| .skip .emitAuth fun _ => .ite .ret <|
      .grant fun _ => rfl

/-- **What is recorded is the session that is answered.** -/
theorem serve_registers (rq : ApiRequest) :
    Registers cfg rq.request.clientIp (serve P cfg rq) := by
  have hsilent : ∀ {rq : ApiRequest}, (∀ g, rq.gates g → ¬ g.registers) →
      Registers cfg rq.request.clientIp (serve P cfg rq) := fun h =>
    .of_within ((serve_within _).mono h)
  have hcheck : ∀ jti, ¬ (Gate.check jti).registers := fun _ => id
  have hadmits : ∀ t, ¬ (Gate.admits t).registers := fun _ => id
  cases rq with
  | issueToken req => exact issueToken_registers
  | verifyMfa req mfaToken action method code => exact verifyMfa_registers
  | ssoRedeem req form => exact ssoRedeem_registers
  | authExchange req form => exact authExchange_registers
  | oauthCallback req provider code state idpError => exact oauthCallback_registers
  | refreshToken req =>
    refine .skip (.authenticate hcheck (hadmits _)) fun r => ?_
    split
    · exact .ret
    · exact .skip (.admits (hadmits _)) fun _ => .ite .ret refreshToken_registers
  | revokeToken req =>
    refine hsilent ?_
    rintro _ ⟨_, _, rfl⟩
    exact id
  | ssoHandoff | downloadTicket | playbackTicket | getContent | resource | checkPerm =>
    refine hsilent fun g hg hr => ?_
    cases g with
    | call op =>
      cases op with
      | sessionAdd => simp [ApiRequest.gates, Gate.authenticates, Gate.dispatches, Op.core?] at hg
      | _ => exact hr
    | _ => exact hr

end Endpoints

/-! ### Sign-out -/

section SignOut

variable {P : Libraries} {cfg : Config} {req : Request} {c : Claims} {T : Trace} {resp : Response}
  {now : ℤ} {dir : Directory}

theorem dropSession_removed {tenant uid jti ip : String} {a : Unit}
    (h : (dropSession cfg tenant uid jti ip).Yields T a)
    (hbinding : cfg.webdavIpBindingEnabled = true) (hjti : jti ≠ "") :
    removedIn T = [⟨tenant, uid, jti ++ "|" ++ ip⟩] := by
  unfold dropSession at h
  rw [if_neg (by simp [hbinding, hjti])] at h
  obtain ⟨ok, tr, rfl, h₁⟩ := (Prog.yields_perform_bind ..).mp h
  obtain ⟨rfl, -⟩ := (Prog.ret_yields ..).mp h₁
  rfl

theorem emitAuth_removed {action outcome actor tenant sourceAddr : String} {b : Bool}
    (h : (emitAuth cfg action outcome actor tenant sourceAddr).Yields T b) : removedIn T = [] := by
  refine filterMap_eq_nil_of_calls ?_ h
  unfold emitAuth
  split_ifs
  · exact (Prog.calls_perform ..).mpr fun _ => rfl
  · trivial

/-- A sign-out takes out the entry of its token, under the tenant of the token,
and nothing if the token has expired. -/
theorem revokeToken_removed (h : (revokeToken cfg req).Yields T resp)
    (hbearer : req.authorization = .bearer (.signed c)) (hread : T.head? = some ⟨.time, now⟩)
    (hbinding : cfg.webdavIpBindingEnabled = true) (hjti : optValue c.jti ≠ "") :
    removedIn T = if (Jwt.signed c).verify now = none then []
      else [⟨optValue c.tenant, optValue c.sub, optValue c.jti ++ "|" ++ req.clientIp⟩] := by
  unfold revokeToken at h
  rw [hbearer] at h
  obtain ⟨n, tr, rfl, h₁⟩ := (Prog.yields_perform_bind ..).mp h
  cases hread
  have hcut : removedIn (⟨.time, now⟩ :: tr) = removedIn tr := rfl
  rw [hcut]
  cases hv : (Jwt.signed c).verify now with
  | none =>
    simp only [hv, Prog.pure_eq_ret, Prog.ret_yields] at h₁
    rw [h₁.1]
    rfl
  | some claims =>
    obtain ⟨hc, -⟩ := Jwt.verify_eq_some.mp hv
    cases hc
    rw [hv] at h₁
    obtain ⟨revoked, tr₁, tr₂, rfl, hrevoke, h₂⟩ := (Prog.yields_bind ..).mp h₁
    obtain ⟨_, tr₃, tr₄, rfl, hemit, h₄⟩ := (Prog.yields_bind ..).mp h₂
    obtain ⟨_, tr₅, tr₆, rfl, hdrop, h₆⟩ := (Prog.yields_bind ..).mp h₄
    have hrest : tr₆ = [] := by
      split_ifs at h₆
      · exact ((Prog.ret_yields ..).mp h₆).1
      · exact ((Prog.ret_yields ..).mp h₆).1
    have hsilent : removedIn tr₁ = [] := by
      refine filterMap_eq_nil_of_calls (TokenDenylist.revoke_calls.mono fun op hop a => ?_) hrevoke
      rcases hop with ⟨rfl, -⟩ | rfl | ⟨_, rfl⟩ <;> rfl
    have hsplit : removedIn (tr₁ ++ (tr₃ ++ (tr₅ ++ tr₆))) =
        removedIn tr₁ ++ (removedIn tr₃ ++ (removedIn tr₅ ++ removedIn tr₆)) := by
      simp only [removedIn, List.filterMap_append]
    rw [hsplit, hsilent, emitAuth_removed hemit, dropSession_removed hdrop hbinding hjti, hrest]
    rfl

/-- A sign-out with the token of the session that `x` answered, from the same
address, with its first reading of the clock. -/
structure SignsOut (P : Libraries) (cfg : Config) (x y : Exchange) (c : Claims) (now : ℤ) : Prop where
  minted : x.Served P cfg
  answered : x.response.body.session? = some c
  served : y.Served P cfg
  signOut : y.request = .revokeToken y.request.request
  bearer : y.request.request.authorization = .bearer (.signed c)
  address : y.request.request.clientIp = x.request.request.clientIp
  reading : y.trace.head? = some ⟨.time, now⟩

/-- **When a sign-out releases the presence of its session.** Exactly if the
token has not expired and the directory gave the mint no roles, or roles in the
tenant that was asked for. -/
theorem presence_released_iff {x y : Exchange} (h : SignsOut P cfg x y c now)
    (hdir : dir.Answers x.trace) {e : Presence} (he : e ∈ recordedIn x.trace) :
    removedIn y.trace = [e] ↔ (∀ exp, c.exp = some exp → now < exp) ∧
      ((dir.getRolesByTenant e.uid).isEmpty = true ∨
        (dir.getRolesByTenant e.uid).has e.tenant = true) := by
  obtain ⟨m, hm, hsub, htenant, hmember, hjti, hbinding, exp, hexp⟩ :=
    serve_registers x.request _ _ h.minted c h.answered e he
  obtain rfl : m = dir.getRolesByTenant e.uid := hdir _ hm
  have hserved : (revokeToken cfg y.request.request).Yields y.trace y.response := by
    have hy : (serve P cfg y.request).Yields y.trace y.response := h.served
    rw [h.signOut] at hy
    exact hy
  rw [revokeToken_removed hserved h.bearer h.reading hbinding hjti, ← mintedTenant_eq_self]
  by_cases hv : (Jwt.signed c).verify now = none
  · rw [if_pos hv]
    refine iff_of_false (by simp) fun ⟨hlive, _⟩ => ?_
    rw [Jwt.verify_eq_some.mpr ⟨rfl, hlive⟩] at hv
    cases hv
  · have hlive : ∀ exp, c.exp = some exp → now < exp := by
      obtain ⟨c', hc'⟩ := Option.ne_none_iff_exists'.mp hv
      obtain ⟨hc, hlive⟩ := Jwt.verify_eq_some.mp hc'
      cases hc
      exact hlive
    obtain ⟨tenant, uid, member⟩ := e
    dsimp only at hsub htenant hmember ⊢
    have hentry : (⟨optValue c.tenant, optValue c.sub,
        optValue c.jti ++ "|" ++ y.request.request.clientIp⟩ : Presence) =
        ⟨mintedTenant tenant (dir.getRolesByTenant uid), uid, member⟩ := by
      rw [htenant, hsub, h.address, hmember]
      rfl
    rw [if_neg hv, hentry, List.singleton_inj, Presence.mk.injEq]
    constructor
    · exact fun heq => ⟨hlive, heq.1⟩
    · exact fun hkeep => ⟨hkeep.2, rfl, rfl⟩

end SignOut

/-- A deployment that keeps the register, with one provider. -/
def presenceConfig : Config := { webdavIpBindingEnabled := true, oauthProviders := [("idp", false)] }

/-- The provider vouches for the user, who has roles in `acme`; the login was
started in `default`. -/
def callbackReply : (op : Op) → op.Ans
  | .oauthConsume _ => some ⟨"idp", "v", "n", "default", "/"⟩
  | .oauthExchangeCode .. => some ("at", "it")
  | .oauthFetchIdentity .. => some ⟨"ann@acme", true⟩
  | .getUserInfoByEmail _ => { userId := "ann", authenticated := true }
  | op => sampleReply "live" op

/-- A session and the sign-out with it. -/
def signOutAfter (rq : ApiRequest) : Exchange × Exchange :=
  let x := Exchange.against .refusing presenceConfig callbackReply rq
  let token := (x.response.body.session?.map Jwt.signed).getD .other
  (x, .against .refusing presenceConfig callbackReply (.revokeToken { authorization := .bearer token }))

theorem signOutAfter_signsOut {rq : ApiRequest} {c : Claims} (hip : rq.request.clientIp = "")
    (hc : (signOutAfter rq).1.response.body.session? = some c) :
    SignsOut .refusing presenceConfig (signOutAfter rq).1 (signOutAfter rq).2 c 0 where
  minted := Exchange.against_served ..
  answered := hc
  served := Exchange.against_served ..
  signOut := rfl
  bearer := by
    show Authorization.bearer (((signOutAfter rq).1.response.body.session?.map Jwt.signed).getD _) = _
    rw [hc]
    rfl
  address := hip.symm
  reading := rfl

/-- The presence of a login goes with its sign-out. -/
theorem login_released_iff : ∃ c e,
    (signOutAfter sampleLogin).1.response.body.session? = some c ∧
    e ∈ recordedIn (signOutAfter sampleLogin).1.trace ∧
    (removedIn (signOutAfter sampleLogin).2.trace = [e] ↔ (∀ exp, c.exp = some exp → 0 < exp) ∧
      (((directoryOf callbackReply).getRolesByTenant e.uid).isEmpty = true ∨
        ((directoryOf callbackReply).getRolesByTenant e.uid).has e.tenant = true)) := by
  obtain ⟨c, hc⟩ := Option.isSome_iff_exists.mp (show
    (signOutAfter sampleLogin).1.response.body.session?.isSome = true by decide +kernel)
  have he : ⟨"acme", "ann", "s1|"⟩ ∈ recordedIn (signOutAfter sampleLogin).1.trace := by
    decide +kernel
  exact ⟨c, _, hc, he, presence_released_iff (signOutAfter_signsOut rfl hc)
    (directoryOf_answers callbackReply _) he⟩

/-- **A signed-out session stays present.** After a callback whose login was
started in another tenant, the entry is not the one that is taken out. -/
theorem not_presence_released :
    ¬ ∀ x y c now e, SignsOut .refusing presenceConfig x y c now → e ∈ recordedIn x.trace →
      now < c.exp.getD 0 → removedIn y.trace = [e] := by
  intro h
  obtain ⟨c, hc⟩ := Option.isSome_iff_exists.mp (show
    (signOutAfter (.oauthCallback {} "idp" "code" "state" "")).1.response.body.session?.isSome = true by
      decide +kernel)
  have hlive : ((signOutAfter (.oauthCallback {} "idp" "code" "state" "")).1.response.body.session?.bind
      (·.exp)) = some 900 := by decide +kernel
  rw [hc] at hlive
  have hexp : c.exp = some 900 := hlive
  have hremoved := h _ _ c 0 ⟨"default", "ann", "s1|"⟩ (signOutAfter_signsOut rfl hc)
    (by decide +kernel) (by rw [hexp]; decide)
  exact absurd hremoved (by decide +kernel)

end HttpBridge
