/-
# The strength of a session is kept

Which factors a user has passed stands in the `amr` of the session, and a
session is renewed (`auth/refresh`) and carried to another client
(`sso/handoff`, `sso/redeem`) without the user. On the way the list is written
into claims, read back into an identity and written again, with `pwd` where it
is empty and `sso` in front of what was carried over. Neither counts as a second
factor. So at the end of every chain of renewals the session satisfies a second
factor exactly if the first one did (`factor_kept`).

Key definitions: `Renewed`.
Key theorems: `factor_kept`.
-/
import HttpBridge.TenantGate

namespace HttpBridge

open Interact TokenDenylist

/-- The tokens a session is renewed as: by a refresh, or by a hand-off code and
its redemption. -/
inductive Renewed (P : Libraries) (cfg : Config) (S : Claims) : Claims → Prop
  | start : Renewed P cfg S S
  | refresh {p c : Claims} {x : Exchange} {req : Request} (chain : Renewed P cfg S p)
      (served : x.Served P cfg) (request : x.request = .refreshToken req)
      (bearer : req.authorization = .bearer (.signed p))
      (answered : x.response.body.session? = some c) : Renewed P cfg S c
  | handoff {p code c : Claims} {x y : Exchange} {req req' : Request} (chain : Renewed P cfg S p)
      (handedOff : x.Served P cfg) (handoff : x.request = .ssoHandoff req)
      (bearer : req.authorization = .bearer (.signed p))
      (answeredCode : x.response.body.handoffCode? = some code) (redeemed : y.Served P cfg)
      (redeem : y.request = .ssoRedeem req' (some (some (.signed code))))
      (answered : y.response.body.session? = some c) : Renewed P cfg S c

/-- The token has passed a second factor. -/
def Claims.strong (c : Claims) : Bool := satisfiesSecondFactor (c.amr.getD [])

/-- The invariant of a renewal: it is as strong as the session, and a key
session's factor is the key. -/
def KeepsFactor (S c : Claims) : Prop :=
  c.strong = S.strong ∧ (optValue c.skid = "" ∨ c.amr = some ["svc"])

section Steps

variable {P : Libraries} {cfg : Config} {S p c : Claims} {x : Exchange} {req : Request}

/-- A bearer's factors are its token's. -/
theorem Passed.amr_of_bearer {T : Trace} {id : AuthIdentity} (h : Passed cfg req T id)
    (hreq : req.authorization = .bearer (.signed p)) :
    id.amr = p.amr.getD [] ∧ id.serviceKeyId = optValue p.skid := by
  obtain ⟨tr, -, hp⟩ := h.bearerPassed hreq
  rw [hp.identity]
  exact ⟨rfl, rfl⟩

/-- The default for an empty list is no second factor. -/
theorem satisfiesSecondFactor_default (amr : List String) :
    satisfiesSecondFactor (if amr.isEmpty then ["pwd"] else amr) = satisfiesSecondFactor amr := by
  cases amr with
  | nil => rfl
  | cons a amr => rfl

theorem keepsFactor_of_refresh (hp : KeepsFactor S p) (hx : x.Served P cfg)
    (hrequest : x.request = .refreshToken req) (hbearer : req.authorization = .bearer (.signed p))
    (hc : x.response.body.session? = some c) : KeepsFactor S c := by
  obtain ⟨hstrong, hkey⟩ := hp
  have hout := hx.outcome hrequest
  generalize x.response.body = b at hout hc
  cases hout with
  | keyRefresh passed key granted =>
    obtain rfl := Option.some.inj hc
    obtain ⟨-, hskid⟩ := passed.amr_of_bearer hbearer
    rw [hskid] at key
    have hsvc : p.amr = some ["svc"] := hkey.resolve_left key
    refine ⟨?_, .inr granted.amr_eq⟩
    rw [← hstrong, Claims.strong, granted.amr_eq, Claims.strong, hsvc]
  | refresh passed _ _ _ granted =>
    obtain rfl := Option.some.inj hc
    obtain ⟨hamr, -⟩ := passed.amr_of_bearer hbearer
    refine ⟨?_, .inl granted.skid_eq⟩
    rw [← hstrong, Claims.strong, granted.amr_eq, Claims.strong, ← hamr]
    exact satisfiesSecondFactor_default _
  | _ => cases hc

theorem keepsFactor_of_handoff {code : Claims} {y : Exchange} {req' : Request}
    (hp : KeepsFactor S p) (hx : x.Served P cfg) (hhandoff : x.request = .ssoHandoff req)
    (hbearer : req.authorization = .bearer (.signed p))
    (hcode : x.response.body.handoffCode? = some code) (hy : y.Served P cfg)
    (hredeem : y.request = .ssoRedeem req' (some (some (.signed code))))
    (hc : y.response.body.session? = some c) : KeepsFactor S c := by
  obtain ⟨hstrong, -⟩ := hp
  -- the code carries the factors of the session that was handed off
  have hcarried : code.amr.getD [] = p.amr.getD [] := by
    have hout := hx.outcome hhandoff
    generalize x.response.body = b at hout hcode
    cases hout with
    | handoff passed =>
      obtain rfl := Option.some.inj hcode
      exact (passed.amr_of_bearer hbearer).1
    | _ => cases hcode
  have hout := hy.outcome hredeem
  generalize y.response.body = b at hout hc
  cases hout with
  | redeem _ granted =>
    obtain rfl := Option.some.inj hc
    refine ⟨?_, .inl granted.skid_eq⟩
    calc Claims.strong _ = satisfiesSecondFactor ("sso" :: code.amr.getD []) := by
          rw [Claims.strong, granted.amr_eq]
          rfl
      _ = satisfiesSecondFactor (p.amr.getD []) := by
          rw [hcarried]
          rfl
      _ = S.strong := hstrong
  | _ => cases hc

end Steps

section Chain

variable {P : Libraries} {cfg : Config} {S c : Claims}

/-- What the proxy hands out as a key session has no factor but the key. -/
theorem HandsOut.key_amr (h : HandsOut P cfg Body.session? S) :
    optValue S.skid = "" ∨ S.amr = some ["svc"] := by
  obtain ⟨x, hx, hS⟩ := h
  exact (serve_outcome hx).key_amr hS

theorem Renewed.keepsFactor (hS : HandsOut P cfg Body.session? S ∨ optValue S.skid = "")
    (h : Renewed P cfg S c) : KeepsFactor S c := by
  induction h with
  | start => exact ⟨rfl, hS.elim HandsOut.key_amr .inl⟩
  | refresh _ served request bearer answered ih =>
    exact keepsFactor_of_refresh ih served request bearer answered
  | handoff _ handedOff handoff bearer answeredCode redeemed redeem answered ih =>
    exact keepsFactor_of_handoff ih handedOff handoff bearer answeredCode redeemed redeem answered

/-- **A second factor is neither gained nor lost.** However often a session is
renewed, the last token satisfies a second factor exactly if the session did. -/
theorem factor_kept (hS : HandsOut P cfg Body.session? S ∨ optValue S.skid = "")
    (h : Renewed P cfg S c) :
    satisfiesSecondFactor (c.amr.getD []) = true ↔ satisfiesSecondFactor (S.amr.getD []) = true := by
  have hstrong : c.strong = S.strong := (h.keepsFactor hS).1
  rw [Claims.strong, Claims.strong] at hstrong
  rw [hstrong]

end Chain

/-! ### A session, refreshed and carried over -/

/-- A session after a second factor. -/
def strongSession (amr : List String) : Claims :=
  sessionClaims "fileengine-bridge" "ann" "acme" "s1" 0 900 (OrdMap.empty.insert "acme" ["users"]) amr
    "" "" "" ""

def strongBearer (amr : List String) : Request := { authorization := .bearer (.signed (strongSession amr)) }

def strongCode : Claims :=
  buildHandoffClaims "fileengine-bridge" "ann" "acme" "s1" 0 60 ["pwd", "totp"]

def strongExchange (rq : ApiRequest) : Exchange :=
  .against .refusing twoFactorConfig (sampleReply "live") rq

theorem strongSession_renewed :
    Renewed .refusing twoFactorConfig (strongSession ["pwd", "totp"])
      (strongSession ["sso", "pwd", "totp"]) := by
  have hrefresh : (strongExchange (.refreshToken (strongBearer ["pwd", "totp"]))).response.body.session? =
      some (strongSession ["pwd", "totp"]) := by decide +kernel
  have hcode : (strongExchange (.ssoHandoff (strongBearer ["pwd", "totp"]))).response.body.handoffCode? =
      some strongCode := by decide +kernel
  have hredeem : (strongExchange
      (.ssoRedeem {} (some (some (.signed strongCode))))).response.body.session? =
      some (strongSession ["sso", "pwd", "totp"]) := by decide +kernel
  exact .handoff (.refresh .start (Exchange.against_served ..) rfl rfl hrefresh)
    (Exchange.against_served ..) rfl rfl hcode (Exchange.against_served ..) rfl hredeem

theorem strongSession_kept :
    satisfiesSecondFactor ((strongSession ["sso", "pwd", "totp"]).amr.getD []) = true ↔
      satisfiesSecondFactor ((strongSession ["pwd", "totp"]).amr.getD []) = true :=
  factor_kept (.inl ⟨strongExchange sampleSecondFactor, Exchange.against_served .., by decide +kernel⟩)
    strongSession_renewed

end HttpBridge
