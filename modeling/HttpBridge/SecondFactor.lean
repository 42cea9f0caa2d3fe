/-
# No session from a password alone

Where a second factor is required of a user, no session whose derivation starts
with the user's password should come about without it. A derivation
(`Chain`) runs through a history of exchanges: each step presents a token
issued by the last and is issued the next.

The invariant of a derivation is that its last token is the user's and either
still waits for the second factor, or the factor was passed on the way
(`Chain.secured`). A waiting token opens nothing but the second step. So every
session has passed it (`session_passed_second_factor`), unless a refresh or a
hand-off is asked for with the password itself: `authenticate` takes HTTP Basic
there too, and asks for no second factor (`not_session_passed_second_factor`).

Key definitions: `Chain`, `Secured`.
Key theorems: `session_passed_second_factor`.
-/
import HttpBridge.TenantGate

namespace HttpBridge

open Interact TokenDenylist

/-! ### Derivations -/

/-- The request carries the user's password. -/
def BoundAs (bind : String → String → UserInfo) (req : Request) (user : String) : Prop :=
  ∃ name pass, basicCredentials req.authorization = some (name, pass) ∧
    (bind name pass).authenticated = true ∧
    user = if (bind name pass).userId == "" then name else (bind name pass).userId

/-- An exchange that starts from the user's password. -/
def Exchange.StartsWith (bind : String → String → UserInfo) (user : String) (x : Exchange) : Prop :=
  match x.request with
  | .issueToken req => serviceKeyCredentials req.authorization = none ∧ BoundAs bind req user
  | .refreshToken req | .ssoHandoff req => BoundAs bind req user
  | _ => False

/-- A derivation of a token from the user's password in a history, newest
first, with the exchanges it runs through. -/
inductive Chain (bind : String → String → UserInfo) (user : String) :
    List Exchange → Claims → List Exchange → Prop
  | password {h : List Exchange} {x : Exchange} {c : Claims} (start : x.StartsWith bind user)
      (issued : x.response.body.issued? = some c) : Chain bind user (x :: h) c [x]
  | step {h : List Exchange} {x : Exchange} {p c : Claims} {links : List Exchange}
      (chain : Chain bind user h p links) (presents : x.request.presented? = some (.signed p))
      (issued : x.response.body.issued? = some c) : Chain bind user (x :: h) c (x :: links)
  | older {h : List Exchange} {x : Exchange} {c : Claims} {links : List Exchange}
      (chain : Chain bind user h c links) : Chain bind user (x :: h) c links

/-- A successful second step for the user. -/
def Exchange.PassesSecondFactor (user : String) (x : Exchange) : Prop :=
  (∃ req mfaToken action method code, x.request = .verifyMfa req mfaToken action method code) ∧
    PassedSecondFactor x.trace user

/-- An exchange of the proxy, with the password checks of a directory and an
`ldap_manager` that requires a second factor of the user. -/
structure Exchange.Genuine (P : Libraries) (cfg : Config) (bind : String → String → UserInfo)
    (user : String) (x : Exchange) : Prop where
  served : (serve P cfg x.request).Yields x.trace x.response
  bound : ∀ name pass info, ⟨.authenticateUser name pass, info⟩ ∈ x.trace → info = bind name pass
  required : ∀ tenant r answer, ⟨.postMfaRequired user tenant, r⟩ ∈ x.trace →
    readMfaRequired r = some answer → answer.required = true

/-- The exchange does not refresh or hand off on the user's password. -/
def Exchange.KeepsPassword (bind : String → String → UserInfo) (user : String) (x : Exchange) :
    Prop :=
  ∀ req, x.request = .refreshToken req ∨ x.request = .ssoHandoff req → ¬ BoundAs bind req user

/-! ### The invariant -/

/-- The token waits for the second factor, or the factor was passed. -/
def Secured (user : String) (c : Claims) (links : List Exchange) : Prop :=
  c.sub = some user ∧ ((c.mfaPending = some true ∧ c.sso = none) ∨
    ∃ x ∈ links, x.PassesSecondFactor user)

section Chain

variable {P : Libraries} {cfg : Config} {bind : String → String → UserInfo} {user : String}
  {x : Exchange} {p c : Claims} {links : List Exchange}

/-- A session waits for nothing. -/
theorem session_not_pending {rq : ApiRequest} {tr : Trace} {resp : Response}
    (h : (serve P cfg rq).Yields tr resp) (hc : resp.body.session? = some c) :
    c.mfaPending = none := by
  rcases (serve_outcome h).session_cases hc with ⟨_, _, _, _, _, hg⟩ | ⟨_, _, _, _, _, _, rfl⟩
  · exact hg.mfaPending
  · rfl

/-- A bearer's identity is its token's, which does not wait for a second factor. -/
theorem Passed.of_bearer {req : Request} {T : Trace} {id : AuthIdentity}
    (h : Passed cfg req T id) (hreq : req.authorization = .bearer (.signed p)) :
    id.user = optValue p.sub ∧ p.mfaPending ≠ some true := by
  obtain ⟨tr, -, hp⟩ := h.bearerPassed hreq
  refine ⟨by rw [hp.identity]; rfl, fun hpending => ?_⟩
  have := hp.session
  rw [hpending] at this
  cases this

theorem BoundAs.eq_user {req : Request} {T : Trace} {name pass : String} {info : UserInfo}
    (h : BoundAs bind req user) (hp : PasswordBound cfg req T name pass info)
    (hbind : info = bind name pass) : (basicIdentity cfg req name info).user = user := by
  obtain ⟨name', pass', hcred, -, rfl⟩ := h
  obtain ⟨rfl, rfl⟩ : name = name' ∧ pass = pass' := by
    simpa using hp.credentials.symm.trans hcred
  rw [hbind]
  rfl

/-- A login that may not do without the second factor waits for it. -/
theorem secured_of_password (hmfa : cfg.mfaEnabled = true) (hx : x.Genuine P cfg bind user)
    (hkeeps : x.KeepsPassword bind user) (hstart : x.StartsWith bind user)
    (hissued : x.response.body.issued? = some c) : Secured user c [x] := by
  obtain ⟨rq, tr, resp⟩ := x
  have hout := serve_outcome hx.served
  have hbound := hx.bound
  dsimp only at hout hissued hbound
  generalize resp.body = b at hout hissued
  cases hout with
  | keyLogin credentials =>
    obtain ⟨noKey, -⟩ := hstart
    rw [noKey] at credentials
    cases credentials
  | login loggedIn factor granted =>
    obtain ⟨name, pass, info, hp, rfl⟩ := loggedIn.bound
    rw [hstart.2.eq_user hp (hbound _ _ _ hp.bound)] at factor
    rcases factor with h | ⟨r, answer, he, hr, hno⟩
    · rw [h] at hmfa
      cases hmfa
    · rw [hx.required _ r answer he hr] at hno
      cases hno
  | challenge loggedIn =>
    obtain ⟨name, pass, info, hp, rfl⟩ := loggedIn.bound
    rw [hstart.2.eq_user hp (hbound _ _ _ hp.bound)] at hissued
    obtain rfl := Option.some.inj hissued
    exact ⟨rfl, .inl ⟨rfl, rfl⟩⟩
  | keyRefresh | refresh => exact absurd hstart (hkeeps _ (.inl rfl))
  | handoff => exact absurd hstart (hkeeps _ (.inr rfl))
  | secondFactor | redeem | delegated | service | oauth => exact hstart.elim
  | _ => cases hissued

/-- What is issued for a token that is secured is secured. -/
theorem secured_of_step (hx : x.Genuine P cfg bind user) (hp : Secured user p links)
    (hpresents : x.request.presented? = some (.signed p))
    (hissued : x.response.body.issued? = some c) : Secured user c (x :: links) := by
  obtain ⟨hsub, hsecured⟩ := hp
  have huser : optValue p.sub = user := by rw [hsub]; rfl
  -- only the second step takes a token that waits for it
  have hon : ∀ {c : Claims}, c.sub = some user → ¬ (p.mfaPending = some true ∧ p.sso = none) →
      Secured user c (x :: links) := fun hc hnot =>
    ⟨hc, .inr ((hsecured.resolve_left hnot).imp fun y hy => ⟨.tail _ hy.1, hy.2⟩)⟩
  obtain ⟨rq, tr, resp⟩ := x
  have hout := serve_outcome hx.served
  dsimp only at hout hissued hpresents hon
  generalize resp.body = b at hout hissued
  cases hout with
  | secondFactor pending passed granted =>
    obtain rfl := Option.some.inj hissued
    cases hpresents
    rw [huser] at passed granted
    exact ⟨granted.sub, .inr ⟨_, .head _, ⟨_, _, _, _, _, rfl⟩, passed⟩⟩
  | keyRefresh passed _ granted | refresh passed _ _ _ granted =>
    obtain rfl := Option.some.inj hissued
    obtain ⟨hid, hnot⟩ := passed.of_bearer (Authorization.eq_of_bearer? hpresents)
    refine hon ?_ fun h => hnot h.1
    rw [granted.sub, hid, huser]
  | handoff passed =>
    obtain rfl := Option.some.inj hissued
    obtain ⟨hid, hnot⟩ := passed.of_bearer (Authorization.eq_of_bearer? hpresents)
    refine hon ?_ fun h => hnot h.1
    rw [buildHandoffClaims, hid, huser]
  | redeem code granted =>
    obtain rfl := Option.some.inj hissued
    cases hpresents
    refine hon (by rw [granted.sub, huser]) fun h => ?_
    rw [h.2] at code
    exact absurd code (by decide)
  | keyLogin | login | challenge | delegated | service | oauth => cases hpresents
  | _ => cases hissued

theorem Chain.mem {h : List Exchange} (hchain : Chain bind user h c links) {y : Exchange}
    (hy : y ∈ links) : y ∈ h := by
  induction hchain with
  | password =>
    obtain rfl := List.mem_singleton.mp hy
    exact .head _
  | step _ _ _ ih =>
    rcases List.mem_cons.mp hy with rfl | hy
    · exact .head _
    · exact .tail _ (ih hy)
  | older _ ih => exact .tail _ (ih hy)

/-- **The invariant of a derivation.** -/
theorem Chain.secured {h : List Exchange} (hmfa : cfg.mfaEnabled = true)
    (hrun : ∀ x ∈ h, x.Genuine P cfg bind user) (hkeeps : ∀ x ∈ h, x.KeepsPassword bind user)
    (hchain : Chain bind user h c links) : Secured user c links := by
  induction hchain with
  | password start issued =>
    exact secured_of_password hmfa (hrun _ (.head _)) (hkeeps _ (.head _)) start issued
  | step _ presents issued ih =>
    exact secured_of_step (hrun _ (.head _))
      (ih (fun x hx => hrun x (.tail _ hx)) fun x hx => hkeeps x (.tail _ hx)) presents issued
  | older _ ih => exact ih (fun x hx => hrun x (.tail _ hx)) fun x hx => hkeeps x (.tail _ hx)

/-- **A session has passed the second factor.** In every run in which nobody
refreshes or hands off on the user's password, a session derived from it has
the second step of the user on its way. -/
theorem session_passed_second_factor {h : List Exchange} (hmfa : cfg.mfaEnabled = true)
    (hrun : ∀ x ∈ h, x.Genuine P cfg bind user) (hkeeps : ∀ x ∈ h, x.KeepsPassword bind user)
    (hchain : Chain bind user h c (x :: links)) (hsession : x.response.body.session? = some c) :
    ∃ y ∈ x :: links, y.PassesSecondFactor user := by
  refine (hchain.secured hmfa hrun hkeeps).2.resolve_left fun hpending => ?_
  have hserved := (hrun x (hchain.mem (.head _))).served
  rw [session_not_pending hserved hsession] at hpending
  cases hpending.1

end Chain

/-! ### A login with and without the second step -/

/-- The user's password is right, and a second factor required of him. -/
def requiredReply : (op : Op) → op.Ans
  | .postMfaRequired .. => ⟨true, 200, some ⟨some true, none, none, none⟩⟩
  | op => sampleReply "live" op

/-- The exchange of a request in that environment. -/
def sampleExchange (rq : ApiRequest) : Exchange where
  request := rq
  trace := ((serve .refusing twoFactorConfig rq).run requiredReply).1
  response := ((serve .refusing twoFactorConfig rq).run requiredReply).2

def sampleBind (name pass : String) : UserInfo := requiredReply (.authenticateUser name pass)

theorem sampleExchange_genuine (rq : ApiRequest) :
    (sampleExchange rq).Genuine .refusing twoFactorConfig sampleBind "ann" where
  served := Prog.yields_run _ _
  bound _ _ _ he := Prog.mem_run he
  required tenant r answer he hr := by
    have hans : r = requiredReply (.postMfaRequired "ann" tenant) := Prog.mem_run he
    rw [hans] at hr
    obtain rfl := Option.some.inj hr
    rfl

/-- The token the login issues. -/
def samplePending : Claims := mfaPendingClaims "fileengine-bridge" "ann" "acme" "" "s1" 0 300

def sampleVerify : ApiRequest :=
  .verifyMfa {} (some (.signed samplePending)) "verify" "totp" "123456"

theorem twoStepLogin_passed : ∃ y ∈ [sampleExchange sampleVerify, sampleExchange sampleLogin],
    y.PassesSecondFactor "ann" := by
  have hpending : (sampleExchange sampleLogin).response.body.issued? = some samplePending := by
    decide +kernel
  obtain ⟨c, hc⟩ := Option.isSome_iff_exists.mp (show
    (sampleExchange sampleVerify).response.body.session?.isSome = true by decide +kernel)
  have hchain : Chain sampleBind "ann" [sampleExchange sampleVerify, sampleExchange sampleLogin] c
      [sampleExchange sampleVerify, sampleExchange sampleLogin] :=
    .step (.password ⟨by decide, "ann", "secret", by decide, rfl, rfl⟩ hpending) rfl (by
      rw [Body.issued?, hc]
      rfl)
  have hmfa : twoFactorConfig.mfaEnabled = true := rfl
  refine session_passed_second_factor (P := .refusing) hmfa ?_ ?_ hchain hc
  · intro x hx
    simp only [List.mem_cons, List.not_mem_nil, or_false] at hx
    rcases hx with rfl | rfl <;> exact sampleExchange_genuine _
  · intro x hx req hreq
    simp only [List.mem_cons, List.not_mem_nil, or_false] at hx
    rcases hx with rfl | rfl <;> rcases hreq with hreq | hreq <;> cases hreq

/-- A refresh with the password. -/
def passwordRefresh : ApiRequest :=
  .refreshToken { authorization := .basic "ann:secret", xTenant := "acme" }

/-- **A password alone gets a session.** The refresh issues one, and nobody
asked for the second factor. -/
theorem not_session_passed_second_factor :
    ¬ ∀ h c x links, (∀ y ∈ h, y.Genuine .refusing twoFactorConfig sampleBind "ann") →
      Chain sampleBind "ann" h c (x :: links) → x.response.body.session? = some c →
      ∃ y ∈ x :: links, y.PassesSecondFactor "ann" := by
  intro h
  obtain ⟨c, hc⟩ := Option.isSome_iff_exists.mp (show
    (sampleExchange passwordRefresh).response.body.session?.isSome = true by decide +kernel)
  obtain ⟨y, hy, ⟨req, mfaToken, action, method, code, hreq⟩, -⟩ :=
    h [sampleExchange passwordRefresh] c _ [] (fun y hy => List.mem_singleton.mp hy ▸
      sampleExchange_genuine _) (.password ⟨"ann", "secret", by decide, rfl, rfl⟩ (by
        rw [Body.issued?, hc]
        rfl)) hc
  obtain rfl := List.mem_singleton.mp hy
  cases hreq

end HttpBridge
