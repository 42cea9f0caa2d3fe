/-
# Enrollment in the course of a login

A user of whom a second factor is required and who has none enrolls during the
login: `ldap_manager` says `must_enroll`, and the token of the pending second
factor is good for `enroll_begin` and `enroll_complete` as well. The answer is
told to the client but does not stand in the token, so `verifyMfa` enrolls for
every pending token it accepts (`Served.enrolls_iff_asks`). In a history no factor
is enrolled without `must_enroll` exactly if nobody asks for it with the token of
a login that was answered without (`enrolls_iff`).

Key definitions: `MintsPending`, `Enrolls`, `AsksToEnroll`.
Key theorems: `enrolls_iff`.
-/
import HttpBridge.TenantGate

namespace HttpBridge

open Interact TokenDenylist

/-! ### What an exchange does about an enrollment -/

/-- The login was challenged for the pending token `p`, and `ldap_manager` said
whether the user has to enroll. -/
def Exchange.MintsPending (x : Exchange) (p : Claims) (mustEnroll : Bool) : Prop :=
  (∃ expiresIn methods, x.response.body = .mfaChallenge p expiresIn mustEnroll methods) ∧
    Challenged x.trace (optValue p.sub) (optValue p.tenant) mustEnroll

/-- A step of an enrollment is forwarded, or a session is minted from one. -/
def Exchange.Enrolls (x : Exchange) : Prop :=
  (∃ e ∈ x.trace, e.op.enrolls = true) ∨
    ∃ req mfaToken method code c, x.request = .verifyMfa req mfaToken "enroll_complete" method code ∧
      x.response.body.session? = some c

/-- The pending token `p` is presented for an enrollment, from its address and
before it expires. -/
def Exchange.AsksToEnroll (x : Exchange) (p : Claims) : Prop :=
  ∃ req action method code now rest,
    x.request = .verifyMfa req (some (.signed p)) action method code ∧
    x.trace = ⟨.time, now⟩ :: rest ∧ (action = "enroll_begin" ∨ action = "enroll_complete") ∧
    (∀ exp, p.exp = some exp → now < exp) ∧ p.mfaPending = some true ∧ optValue p.sub ≠ "" ∧
    optValue p.mip = req.clientIp

section Steps

variable {P : Libraries} {cfg : Config} {req : Request} {T : Trace} {resp : Response}

/-- What cannot come to an enrollment forwards no step of one. -/
theorem Within.not_enrolls {α : Type} {p : Bridge α} {a : α}
    (h : Within cfg (fun g => ¬ g.enrolls) p) (hy : p.Yields T a) :
    ¬ ∃ e ∈ T, e.op.enrolls = true := by
  have hcalls := h.calls_not (P := fun op => op.enrolls = true) (fun op hop => by
    cases op with
    | postMfaEnrollBegin | postMfaEnrollComplete => rfl
    | _ => cases hop) fun op hop => hop
  rintro ⟨e, he, henrolls⟩
  exact (hcalls.of_reaches hy).1 e he henrolls

/-- Whoever asks for an enrollment with a pending token gets it forwarded. -/
theorem verifyMfa_enrolls {mfaToken : Option Jwt} {action method code : String} {p : Claims}
    (h : (verifyMfa cfg req mfaToken action method code).Yields T resp)
    (hasks : Exchange.AsksToEnroll ⟨.verifyMfa req mfaToken action method code, T, resp⟩ p) :
    ∃ e ∈ T, e.op.enrolls = true := by
  obtain ⟨_, _, _, _, now, rest, hrequest, htrace, haction, hexp, hpending, hsub, hmip⟩ := hasks
  cases hrequest
  dsimp only at htrace
  subst htrace
  obtain ⟨_, rest', hevents, h₁⟩ := (Prog.yields_perform_bind ..).mp h
  cases hevents
  rw [pendingClaims_eq_some.mpr ⟨rfl, hexp, hpending⟩] at h₁
  have hpass : ¬ (optValue p.sub == "" || optValue p.mip != req.clientIp) = true := by
    simp [hsub, hmip]
  dsimp only at h₁
  rw [if_neg hpass] at h₁
  rcases haction with rfl | rfl
  · obtain ⟨r, tr, rfl, -⟩ := (Prog.yields_perform_bind ..).mp h₁
    exact ⟨_, .tail _ (.head _), rfl⟩
  · obtain ⟨codes, tr₁, tr₂, rfl, h₂, -⟩ := (Prog.yields_bind ..).mp h₁
    obtain ⟨r, tr, rfl, -⟩ := (Prog.yields_perform_bind ..).mp h₂
    exact ⟨_, .tail _ (.head _), rfl⟩

/-- An enrollment that is not asked for so is neither forwarded nor does it end
in a session. -/
theorem verifyMfa_not_enrolls {mfaToken : Option Jwt} {action method code : String}
    (h : (verifyMfa cfg req mfaToken action method code).Yields T resp)
    (hasks : ∀ p, ¬ Exchange.AsksToEnroll ⟨.verifyMfa req mfaToken action method code, T, resp⟩ p) :
    (¬ ∃ e ∈ T, e.op.enrolls = true) ∧
      (action = "enroll_complete" → resp.body.session? = none) := by
  have hreg : ∀ g : Gate, g.registers → ¬ g.enrolls := fun g hg he => by
    cases g with
    | call op =>
      cases op with
      | sessionAdd => cases he
      | _ => exact hg
    | _ => exact hg
  obtain ⟨now, rest, rfl, h₁⟩ := (Prog.yields_perform_bind ..).mp h
  have htail : (∃ e ∈ (⟨.time, now⟩ :: rest : Trace), e.op.enrolls = true) ↔
      ∃ e ∈ rest, e.op.enrolls = true := by
    simp [Op.enrolls]
  rw [htail]
  cases hp : pendingClaims now mfaToken with
  | none =>
    rw [hp] at h₁
    obtain ⟨rfl, rfl⟩ := (Prog.ret_yields ..).mp h₁
    exact ⟨by simp, fun _ => rfl⟩
  | some p =>
    obtain ⟨rfl, hexp, hpending⟩ := pendingClaims_eq_some.mp hp
    rw [hp] at h₁
    dsimp only at h₁
    by_cases hpass : (optValue p.sub == "" || optValue p.mip != req.clientIp) = true
    · rw [if_pos hpass] at h₁
      have hrefused : Within cfg (fun g => ¬ g.enrolls) (do
          let _ ← emitAuth cfg "mfa_failure" "denied"
            (if optValue p.sub == "" then "<unknown>" else optValue p.sub) (optValue p.tenant) req.clientIp
          return unauthorized req) := .bind .emitAuth fun _ => .ret
      refine ⟨hrefused.not_enrolls h₁, fun _ => ?_⟩
      obtain ⟨_, _, _, _, -, h₂⟩ := (Prog.yields_bind ..).mp h₁
      obtain ⟨-, rfl⟩ := (Prog.ret_yields ..).mp h₂
      rfl
    · rw [if_neg hpass] at h₁
      simp only [Bool.or_eq_true, not_or, beq_iff_eq, bne_iff_ne, ne_eq, not_not] at hpass
      have hother : ¬ (action = "enroll_begin" ∨ action = "enroll_complete") := fun ha =>
        hasks p ⟨req, action, method, code, now, rest, rfl, rfl, ha, hexp, hpending, hpass⟩
      rw [not_or] at hother
      simp only [beq_iff_eq, if_neg hother.1, if_neg hother.2] at h₁
      have hw : Within cfg (fun g => ¬ g.enrolls) (if action = "send" then
          sendCode req (optValue p.sub) (optValue p.tenant) (if method = "" then "totp" else method)
        else verifyCode cfg req (optValue p.sub) (optValue p.tenant)
          (if method = "" then "totp" else method) code) := .ite .sendCode (.verifyCode hreg)
      exact ⟨hw.not_enrolls h₁, fun ha => absurd ha hother.2⟩

variable {x : Exchange}

/-- **The second step enrolls whoever asks.** An exchange has to do with an
enrollment exactly if one is asked for with a pending token, unexpired and from
its address. -/
theorem Exchange.Served.enrolls_iff_asks (h : x.Served P cfg) :
    x.Enrolls ↔ ∃ p, x.AsksToEnroll p := by
  obtain ⟨rq, T, resp⟩ := x
  cases rq with
  | verifyMfa req mfaToken action method code =>
    constructor
    · intro henrolls
      by_contra hasks
      obtain ⟨hnot, hnone⟩ := verifyMfa_not_enrolls h (not_exists.mp hasks)
      rcases henrolls with hforward | ⟨_, _, _, _, c, hrequest, hc⟩
      · exact hnot hforward
      · cases hrequest
        rw [hnone rfl] at hc
        cases hc
    · rintro ⟨p, hasks⟩
      exact .inl (verifyMfa_enrolls h hasks)
  | _ =>
    refine iff_of_false ?_ ?_
    · rintro (hforward | ⟨_, _, _, _, _, hrequest, -⟩)
      · refine ((serve_within _).mono fun g hg henrolls => ?_).not_enrolls h hforward
        obtain ⟨_, _, _, _, _, hrequest⟩ := ApiRequest.eq_of_gates_enrolls hg henrolls
        cases hrequest
      · cases hrequest
    · rintro ⟨_, _, _, _, _, _, _, hrequest, -⟩
      cases hrequest

end Steps

/-! ### Histories -/

section Histories

variable {P : Libraries} {cfg : Config} {h : List Exchange} {p : Claims}

/-- A token that waits for a second factor was issued by a challenged login. -/
theorem Exchange.Served.mintsPending {x : Exchange} (hx : x.Served P cfg)
    (hp : x.response.body.token? = some p) (hpending : p.mfaPending = some true) :
    ∃ mustEnroll, x.MintsPending p mustEnroll := by
  obtain ⟨rq, T, resp⟩ := x
  have hout := serve_outcome hx
  dsimp only [Exchange.MintsPending] at hp hout ⊢
  generalize resp.body = b at hout hp ⊢
  cases hout with
  | challenge _ asked =>
    obtain rfl := Option.some.inj hp
    exact ⟨_, ⟨_, _, rfl⟩, asked⟩
  | keyLogin _ _ granted | login _ _ granted | secondFactor _ _ granted | keyRefresh _ _ granted
  | refresh _ _ _ _ granted | redeem _ granted | delegated granted | oauth granted =>
    obtain rfl := Option.some.inj hp
    rw [granted.mfaPending] at hpending
    cases hpending
  | service | handoff | downloadTicket | playbackTicket =>
    obtain rfl := Option.some.inj hp
    cases hpending
  | _ => cases hp

/-- Who asks for an enrollment in a history was challenged in it. -/
theorem History.challenged {x : Exchange} {older : List Exchange}
    (hh : History P cfg (x :: older)) (hasks : x.AsksToEnroll p) :
    ∃ y ∈ older, ∃ mustEnroll, y.MintsPending p mustEnroll := by
  obtain ⟨_, _, _, _, _, _, hrequest, -, -, -, hpending, -⟩ := hasks
  cases hh with
  | cons past _ handedOut =>
    obtain ⟨y, hy, hp⟩ := handedOut p (by simp [hrequest, ApiRequest.tokens])
    exact ⟨y, hy, (past.served hy).mintsPending hp hpending⟩

/-- Every enrollment goes back to logins that were told to enroll, and to one at
least. -/
def EnrollsAsTold (h : List Exchange) : Prop :=
  ∀ x older, x :: older <:+ h → x.Enrolls → ∃ p, x.request.presented? = some (.signed p) ∧
    (∃ y ∈ older, y.MintsPending p true) ∧ ∀ y ∈ older, ¬ y.MintsPending p false

/-- **Which factors are enrolled as told.** In a history no step of an enrollment
is forwarded, and no session minted from one, for a login that was answered
without `must_enroll`, exactly if nobody asks for an enrollment with the token of
such a login. -/
theorem enrolls_iff (hh : History P cfg h) :
    EnrollsAsTold h ↔ ∀ x older, x :: older <:+ h → ∀ p, x.AsksToEnroll p →
      ∀ y ∈ older, ¬ y.MintsPending p false := by
  constructor
  · intro htold x older hsuffix p hasks
    have hx : x.Served P cfg := hh.served (hsuffix.subset (.head _))
    obtain ⟨p', hpresented, -, hnone⟩ := htold x older hsuffix (hx.enrolls_iff_asks.mpr ⟨p, hasks⟩)
    obtain ⟨_, _, _, _, _, _, hrequest, -⟩ := hasks
    rw [hrequest] at hpresented
    cases hpresented
    exact hnone
  · intro hnone x older hsuffix henrolls
    have hx : x.Served P cfg := hh.served (hsuffix.subset (.head _))
    obtain ⟨p, hasks⟩ := hx.enrolls_iff_asks.mp henrolls
    obtain ⟨y, hy, mustEnroll, hminted⟩ := (hh.of_suffix hsuffix).challenged hasks
    have hp := hnone x older hsuffix p hasks
    have htold : mustEnroll = true := by
      cases mustEnroll with
      | true => rfl
      | false => exact absurd hminted (hp y hy)
    rw [htold] at hminted
    obtain ⟨_, _, _, _, _, _, hrequest, -⟩ := hasks
    exact ⟨p, by rw [hrequest]; rfl, ⟨y, hy, hminted⟩, hp⟩

end Histories

/-! ### A login, and an enrollment nobody asked for -/

/-- The user's password is right, a second factor required of him, and an
enrollment accepted. -/
def enrollReply (mustEnroll : Bool) : (op : Op) → op.Ans
  | .postMfaRequired .. => ⟨true, 200, some ⟨some true, some mustEnroll, none, none⟩⟩
  | .postMfaEnrollComplete .. => ⟨true, 200, some ⟨some true, none⟩⟩
  | op => sampleReply "live" op

def enrollExchange (mustEnroll : Bool) (rq : ApiRequest) : Exchange :=
  .against .refusing twoFactorConfig (enrollReply mustEnroll) rq

/-- Whether an answer tells the client to enroll. -/
def Body.mustEnroll? : Body → Option Bool
  | .mfaChallenge _ _ mustEnroll _ => some mustEnroll
  | _ => none

/-- The token the login issues. -/
def enrollPending : Claims := mfaPendingClaims "fileengine-bridge" "ann" "acme" "" "s1" 0 300

def enrollRequest : ApiRequest :=
  .verifyMfa {} (some (.signed enrollPending)) "enroll_complete" "" "123456"

/-- A login, and an enrollment with its token. -/
def enrollHistory (mustEnroll : Bool) : List Exchange :=
  [enrollExchange mustEnroll enrollRequest, enrollExchange mustEnroll sampleLogin]

theorem enrollHistory_history (mustEnroll : Bool) :
    History .refusing twoFactorConfig (enrollHistory mustEnroll) := by
  have hlogin : (enrollExchange mustEnroll sampleLogin).response.body.token? = some enrollPending := by
    cases mustEnroll <;> decide +kernel
  have hfirst : History .refusing twoFactorConfig [enrollExchange mustEnroll sampleLogin] :=
    .cons .nil (Exchange.against_served ..) fun c hc => by
      rw [show (enrollExchange mustEnroll sampleLogin).request.tokens = [] from rfl] at hc
      cases hc
  refine .cons hfirst (Exchange.against_served ..) fun c hc => ?_
  rw [show (enrollExchange mustEnroll enrollRequest).request.tokens = [.signed enrollPending] from rfl,
    List.mem_singleton] at hc
  cases hc
  exact ⟨_, .head _, hlogin⟩

theorem enrollHistory_asTold : EnrollsAsTold (enrollHistory true) := by
  refine (enrolls_iff (enrollHistory_history true)).mpr fun x older hsuffix p _ y hy hminted => ?_
  have htold : ∀ y ∈ enrollHistory true, y.response.body.mustEnroll? ≠ some false := by
    decide +kernel
  obtain ⟨⟨_, _, hbody⟩, -⟩ := hminted
  refine htold y (hsuffix.subset (.tail _ hy)) ?_
  rw [hbody]
  rfl

/-- **A factor is enrolled although nobody was told to.** The user has one, and
the token of his login enrolls another and signs in with it. -/
theorem not_enrollsAsTold :
    ¬ ∀ h, History .refusing twoFactorConfig h → EnrollsAsTold h := by
  intro hall
  obtain ⟨c, hc⟩ := Option.isSome_iff_exists.mp (show
    (enrollExchange false enrollRequest).response.body.session?.isSome = true by decide +kernel)
  have henrolls : (enrollExchange false enrollRequest).Enrolls :=
    .inr ⟨_, _, _, _, c, rfl, hc⟩
  obtain ⟨p, hp, ⟨y, hy, ⟨_, _, hbody⟩, -⟩, -⟩ :=
    hall _ (enrollHistory_history false) _ _ List.suffix_rfl henrolls
  obtain rfl := List.mem_singleton.mp hy
  have htold : (enrollExchange false sampleLogin).response.body.mustEnroll? = some false := by
    decide +kernel
  rw [hbody] at htold
  cases htold

end HttpBridge
