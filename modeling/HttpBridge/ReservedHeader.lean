/-
# A reserved `X-Tenant` header

A reserved label in the `X-Tenant` header is to count as no header: the sign-in
origin is no tenant. `resolveTenant` ignores it, and with it HTTP Basic. The
bearer path reads the header itself. There a reserved label goes unnoticed only
for a token that is refused on other grounds, names the label as its own
tenant, or may act neither in that tenant nor in the label
(`reserved_header_ignored_iff`).

Key definitions: `SameOutcome`, `HeaderIdle`.
Key theorems: `reserved_header_ignored_iff`.
-/
import HttpBridge.Authenticate
import HttpBridge.World

namespace HttpBridge

open Interact TokenDenylist

/-- The request with this in its `X-Tenant` header. -/
def Request.withTenant (req : Request) (xTenant : String) : Request :=
  { req with xTenant := xTenant }

/-- The same refusal, or identities of the same tenant and roles. -/
def SameOutcome : Except Response AuthIdentity → Except Response AuthIdentity → Prop
  | .ok id, .ok id' => id.tenant = id'.tenant ∧ id.roles = id'.roles
  | .error resp, .error resp' => resp = resp'
  | _, _ => False

theorem SameOutcome.refl (r : Except Response AuthIdentity) : SameOutcome r r := by
  cases r with
  | error resp => rfl
  | ok id => exact ⟨rfl, rfl⟩

/-- The credential is no session, or one for which the label is as good as the
tenant it names. -/
def HeaderIdle (req : Request) (label : String) : Prop :=
  match req.authorization with
  | .bearer (.signed c) =>
    c.mfaPending.getD false = true ∨ isTicketType (optValue c.typ) = true ∨
      bearerTenant (req.withTenant label) c = optValue c.tenant ∨
      (tokenTenantMember c label = false ∧ tokenTenantMember c (optValue c.tenant) = false)
  | _ => True

variable {cfg : Config} {req : Request} {label : String} {c : Claims}

/-! ### Where the header does nothing -/

theorem resolveTenant_of_reserved {loginLabel host : String}
    (hres : isReservedTenantLabel loginLabel label = true) :
    resolveTenant loginLabel label host = resolveTenant loginLabel "" host := by
  simp [resolveTenant, hres]

/-- HTTP Basic ignores a reserved label. -/
theorem authenticateMember_of_reserved
    (hres : isReservedTenantLabel cfg.loginSubdomain label = true) :
    authenticateMember cfg (req.withTenant label) = authenticateMember cfg (req.withTenant "") := by
  have htenant : requestTenant cfg (req.withTenant label) = requestTenant cfg (req.withTenant "") := by
    rw [requestTenant_eq, requestTenant_eq]
    exact resolveTenant_of_reserved hres
  have hidentity : basicIdentity cfg (req.withTenant label) =
      basicIdentity cfg (req.withTenant "") := by
    funext user info
    unfold basicIdentity
    rw [htenant]
  have hbasic : authenticateBasic cfg (req.withTenant label) =
      authenticateBasic cfg (req.withTenant "") := by
    unfold authenticateBasic
    rw [hidentity]
    rfl
  unfold authenticateMember
  rw [hbasic]
  rfl

/-- A bearer token is refused alike, or acts in the same tenant. -/
theorem authenticateBearer_of_idle {token : Jwt} (hreq : req.authorization = .bearer token)
    (h : HeaderIdle req label) :
    authenticateBearer cfg (req.withTenant label) token =
      authenticateBearer cfg (req.withTenant "") token := by
  unfold authenticateBearer
  congr 1
  funext now
  cases hv : token.verify now with
  | none => rfl
  | some c =>
    obtain ⟨rfl, -⟩ := Jwt.verify_eq_some.mp hv
    simp only [HeaderIdle, hreq] at h
    dsimp only
    congr 1
    funext permitted
    refine if_congr Iff.rfl rfl ?_
    rcases h with h | h | h | ⟨hlabel, htenant⟩
    · rw [if_pos h, if_pos h]
      rfl
    · refine if_congr Iff.rfl rfl ?_
      rw [if_pos h, if_pos h]
      rfl
    · have hidentity : bearerIdentity (req.withTenant label) c =
          bearerIdentity (req.withTenant "") c := by
        unfold bearerIdentity
        rw [h]
        rfl
      rw [hidentity, h]
      rfl
    · refine if_congr Iff.rfl rfl (if_congr Iff.rfl rfl ?_)
      have hnone : tokenTenantMember c (bearerTenant (req.withTenant label) c) = false := by
        unfold bearerTenant
        split
        · exact htenant
        · exact hlabel
      have hnone' : tokenTenantMember c (bearerTenant (req.withTenant "") c) = false := htenant
      rw [if_pos (by rw [hnone]; rfl), if_pos (by rw [hnone']; rfl)]

/-! ### Where it does something -/

/-- A world at this time that knows nothing against any token, and requires no
second factor. -/
def vouchingReply (now : ℤ) : (op : Op) → op.Ans
  | .time => now
  | .denylistFind _ => none
  | .denylistLookup _ => .allowed
  | .requiresFind _ => some (false, now + 1)
  | op => Weather.fair.reply op

theorem permits_vouching {D : DenylistOptions} {jti : String} (now : ℤ) :
    ((permits D jti).run (vouchingReply now)).2 = true := by
  by_cases h : D.enabled = false ∨ jti = ""
  · unfold permits
    rw [check_of_disabled h]
    rfl
  · obtain ⟨hD, hj⟩ := not_or.mp h
    unfold permits
    rw [check_eq (by simpa using hD) hj]
    rfl

theorem tenantRequires2fa_vouching {user tenant : String} (now : ℤ) :
    ((tenantRequires2fa user tenant).run (vouchingReply now)).2 = false := by
  have hfresh : (some (false, now + 1)).filter (fun e : Bool × ℤ => decide (now < e.2)) =
      some (false, now + 1) := by
    simp [Option.filter]
  unfold tenantRequires2fa
  simp only [Prog.run_bind]
  split
  case h_1 e he =>
    cases hfresh.symm.trans he
    rfl
  case h_2 he => cases hfresh.symm.trans he

/-- There a session is accepted wherever it is a member. -/
theorem authenticateBearer_vouching {now : ℤ} (hexp : ∀ exp, c.exp = some exp → now < exp)
    (hmfa : c.mfaPending.getD false = false) (htyp : isTicketType (optValue c.typ) = false) :
    ((authenticateBearer cfg req (.signed c)).run (vouchingReply now)).2 =
      if tokenTenantMember c (bearerTenant req c) then .ok (bearerIdentity req c)
      else .error forbidTenant := by
  have hverify : (Jwt.signed c).verify now = some c := Jwt.verify_eq_some.mpr ⟨rfl, hexp⟩
  unfold authenticateBearer
  rw [Prog.run_bind]
  split
  case h_1 hnone => cases hverify.symm.trans hnone
  case h_2 claims hclaims =>
    cases hverify.symm.trans hclaims
    rw [Prog.run_bind, permits_vouching, hmfa, htyp]
    cases tokenTenantMember c (bearerTenant req c) with
    | false => rfl
    | true =>
      simp only [Bool.not_true, Bool.false_eq_true, if_false, if_true]
      split_ifs
      · rfl
      · rw [Prog.run_bind, tenantRequires2fa_vouching]
        rfl

/-- A header that changes no outcome there is idle. -/
theorem headerIdle_of_same (h : ∀ env : (op : Op) → op.Ans,
    SameOutcome ((authenticate cfg (req.withTenant label)).run env).2
      ((authenticate cfg (req.withTenant "")).run env).2) : HeaderIdle req label := by
  unfold HeaderIdle
  split
  case h_2 => trivial
  case h_1 c hreq =>
    by_cases hmfa : c.mfaPending.getD false = true
    · exact .inl hmfa
    by_cases htyp : isTicketType (optValue c.typ) = true
    · exact .inr (.inl htyp)
    by_cases hempty : label = ""
    · rw [hempty]
      exact .inr (.inr (.inl rfl))
    have htenant : bearerTenant (req.withTenant label) c = label := by
      simp [bearerTenant, Request.withTenant, hempty]
    have htenant' : bearerTenant (req.withTenant "") c = optValue c.tenant := rfl
    rw [Bool.not_eq_true] at hmfa htyp
    have hlive : ∀ exp, c.exp = some exp → c.exp.getD 0 - 1 < exp := by
      intro exp he
      rw [he, Option.getD_some]
      omega
    have hsame := h (vouchingReply (c.exp.getD 0 - 1))
    have hlabel : (req.withTenant label).authorization = .bearer (.signed c) := hreq
    have hnone : (req.withTenant "").authorization = .bearer (.signed c) := hreq
    rw [authenticate_of_bearer hlabel, authenticate_of_bearer hnone,
      authenticateBearer_vouching hlive hmfa htyp, authenticateBearer_vouching hlive hmfa htyp,
      htenant, htenant'] at hsame
    cases hmember : tokenTenantMember c label with
    | false =>
      cases hmember' : tokenTenantMember c (optValue c.tenant) with
      | false => exact .inr (.inr (.inr ⟨rfl, rfl⟩))
      | true =>
        rw [hmember, hmember'] at hsame
        exact hsame.elim
    | true =>
      cases hmember' : tokenTenantMember c (optValue c.tenant) with
      | false =>
        rw [hmember, hmember'] at hsame
        exact hsame.elim
      | true =>
        rw [hmember, hmember'] at hsame
        exact .inr (.inr (.inl hsame.1))

/-- With and without an idle header the same is done. -/
theorem authenticate_of_idle (hres : isReservedTenantLabel cfg.loginSubdomain label = true)
    (h : HeaderIdle req label) :
    authenticate cfg (req.withTenant label) = authenticate cfg (req.withTenant "") := by
  by_cases hb : ∃ token, req.authorization = .bearer token
  · obtain ⟨token, ht⟩ := hb
    have hlabel : (req.withTenant label).authorization = .bearer token := ht
    have hnone : (req.withTenant "").authorization = .bearer token := ht
    rw [authenticate_of_bearer hlabel, authenticate_of_bearer hnone]
    exact authenticateBearer_of_idle ht h
  · have hlabel : ∀ token, (req.withTenant label).authorization ≠ .bearer token := not_exists.mp hb
    have hnone : ∀ token, (req.withTenant "").authorization ≠ .bearer token := not_exists.mp hb
    rw [authenticate_of_not_bearer hlabel, authenticate_of_not_bearer hnone]
    exact authenticateMember_of_reserved hres

/-- **When a reserved header is as good as none.** Whatever the world answers,
the outcome is the same with and without it, exactly if it is idle for the
credential; and then the two requests are one program. -/
theorem reserved_header_ignored_iff
    (hres : isReservedTenantLabel cfg.loginSubdomain label = true) :
    ((∀ env : (op : Op) → op.Ans,
      SameOutcome ((authenticate cfg (req.withTenant label)).run env).2
        ((authenticate cfg (req.withTenant "")).run env).2) ↔ HeaderIdle req label) ∧
    (HeaderIdle req label →
      authenticate cfg (req.withTenant label) = authenticate cfg (req.withTenant "")) := by
  refine ⟨⟨headerIdle_of_same, fun h env => ?_⟩, authenticate_of_idle hres⟩
  rw [authenticate_of_idle hres h]
  exact .refl _

/-! ### A tenant by the name of the sign-in origin -/

/-- A session of the tenant `acme`. -/
def acmeSession : Claims :=
  sessionClaims "fileengine-bridge" "ann" "acme" "s1" 0 900
    (OrdMap.empty.insert "acme" ["users"]) ["pwd"] "" "" "" ""

theorem login_header_ignored_iff :
    ((∀ env : (op : Op) → op.Ans,
      SameOutcome
        ((authenticate {} (Request.withTenant { authorization := .basic "ann:secret" } "Login")).run
          env).2
        ((authenticate {} (Request.withTenant { authorization := .basic "ann:secret" } "")).run
          env).2) ↔
      HeaderIdle { authorization := .basic "ann:secret" } "Login") ∧
    (HeaderIdle { authorization := .basic "ann:secret" } "Login" →
      authenticate {} (Request.withTenant { authorization := .basic "ann:secret" } "Login") =
        authenticate {} (Request.withTenant { authorization := .basic "ann:secret" } "")) :=
  reserved_header_ignored_iff (show isReservedTenantLabel ({} : Config).loginSubdomain "Login" = true by
    decide)

/-- **A reserved header is honoured.** With it the session is refused that is
accepted without it. -/
theorem not_reserved_header_ignored :
    ¬ ∀ (req : Request) (label : String), isReservedTenantLabel "login" label = true →
      ∀ env : (op : Op) → op.Ans,
        SameOutcome ((authenticate {} (req.withTenant label)).run env).2
          ((authenticate {} (req.withTenant "")).run env).2 := by
  intro h
  have hsame : SameOutcome (.error forbidTenant)
      (.ok (bearerIdentity { authorization := .bearer (.signed acmeSession) } acmeSession)) :=
    h { authorization := .bearer (.signed acmeSession) } "login" (by decide) (vouchingReply 0)
  exact hsame

end HttpBridge
