/-
# The address that a token is bound to

A session minted by an integration's exchange or for a hand-off code, and a
service token, carry the client's address (`aip`). Nothing reads the claim again:
`authenticate` takes the token from any address (`admittedFrom_iff`), and a
renewal mints without one (`refreshToken_aip`). So a bound session keeps its
binding only where it is of no use at all: it attests no tenant, and is refused
from everywhere (`address_binding_iff`).

Key definitions: `TiedTo`, `AdmittedFrom`.
Key theorems: `admittedFrom_iff`, `refreshToken_aip`, `address_binding_iff`.
-/
import HttpBridge.ReservedHeader
import HttpBridge.TenantGate

namespace HttpBridge

open Interact TokenDenylist

/-! ### Bound sessions -/

/-- The sessions that are bound to an address: those minted with it, and those
derived from them by renewals and hand-offs. A renewal keeps the binding; the
session of a hand-off code has the one it is minted with, and else its parent's.
`renewed` tells the sessions that come straight of a renewal. -/
inductive TiedTo (P : Libraries) (cfg : Config) : Claims → String → (renewed : Bool) → Prop
  | minted {c : Claims} {a : String} {x : Exchange} (served : x.Served P cfg)
      (answered : x.response.body.session? = some c) (bound : c.aip = some a) : TiedTo P cfg c a false
  | refresh {p c : Claims} {a : String} {b : Bool} {x : Exchange} {req : Request}
      (parent : TiedTo P cfg p a b) (served : x.Served P cfg) (request : x.request = .refreshToken req)
      (bearer : req.authorization = .bearer (.signed p))
      (answered : x.response.body.session? = some c) : TiedTo P cfg c a true
  | redeem {p k c : Claims} {a : String} {b : Bool} {x y : Exchange} {req req' : Request}
      (parent : TiedTo P cfg p a b) (handedOff : x.Served P cfg) (request : x.request = .ssoHandoff req)
      (bearer : req.authorization = .bearer (.signed p)) (code : x.response.body.handoffCode? = some k)
      (served : y.Served P cfg) (redeemed : y.request = .ssoRedeem req' (some (some (.signed k))))
      (answered : y.response.body.session? = some c) : TiedTo P cfg c (c.aip.getD a) false

/-- `authenticate` takes the token as a bearer in a request from the address. -/
def AdmittedFrom (cfg : Config) (c : Claims) (ip : String) : Prop :=
  ∃ req T id, req.authorization = .bearer (.signed c) ∧ req.clientIp = ip ∧
    (authenticate cfg req).Yields T (.ok id)

/-! ### Acceptance -/

section Acceptance

variable {cfg : Config} {c : Claims}

/-- **Where a session is accepted from.** The address plays no part. -/
theorem admittedFrom_iff (hsession : c.mfaPending.getD false = false)
    (hbearer : isTicketType (optValue c.typ) = false) (ip : String) :
    AdmittedFrom cfg c ip ↔ ∃ tenant, tokenTenantMember c tenant = true := by
  constructor
  · rintro ⟨req, T, id, hreq, -, hauth⟩
    rw [authenticate_of_bearer hreq] at hauth
    obtain ⟨c', hp⟩ := authenticateBearer_during.of_yields hauth id rfl
    cases hp.signed
    exact ⟨_, hp.member⟩
  · rintro ⟨tenant, hmember⟩
    have hne : tenant ≠ "" := by
      rintro rfl
      cases hmember
    let req : Request := { authorization := .bearer (.signed c), xTenant := tenant, clientIp := ip }
    let now : ℤ := c.exp.getD 1 - 1
    have htenant : bearerTenant req c = tenant := if_neg (by simpa using hne)
    have hexp : ∀ exp, c.exp = some exp → now < exp := by
      intro exp hexp
      show c.exp.getD 1 - 1 < exp
      rw [hexp, Option.getD_some]
      omega
    have hrun : ((authenticate cfg req).run (vouchingReply now)).2 = .ok (bearerIdentity req c) := by
      rw [authenticate_of_bearer rfl, authenticateBearer_vouching hexp hsession hbearer, htenant,
        if_pos hmember]
    have hyields := Prog.yields_run (vouchingReply now) (authenticate cfg req)
    rw [hrun] at hyields
    exact ⟨req, _, _, rfl, rfl, hyields⟩

end Acceptance

/-! ### Derivations -/

section Derivations

variable {P : Libraries} {cfg : Config} {c : Claims} {a : String} {renewed : Bool}

/-- Nothing marks a session as another kind of token. -/
theorem Exchange.Served.session_kind {x : Exchange} (hx : x.Served P cfg)
    (hc : x.response.body.session? = some c) :
    c.mfaPending.getD false = false ∧ isTicketType (optValue c.typ) = false := by
  rcases (hx.outcome rfl).session_cases hc with ⟨_, _, _, _, _, hg⟩ | ⟨_, _, _, _, _, _, rfl⟩
  · obtain ⟨-, -, -, -, -, -, -, rfl⟩ := hg
    exact ⟨rfl, rfl⟩
  · exact ⟨rfl, rfl⟩

/-- **A renewal mints without an address.** -/
theorem refreshToken_aip {req : Request} {id : AuthIdentity} {T : Trace} :
    (refreshToken cfg req id).During T fun resp => ∀ c, resp.body.session? = some c → c.aip = none := by
  have herror : ∀ resp : Response, resp.body.session? = none →
      (pure resp : Bridge Response).During T fun resp => ∀ c, resp.body.session? = some c → c.aip = none := by
    intro resp hnone
    refine .ret fun c hc => ?_
    rw [hnone] at hc
    cases hc
  have hmint : ∀ {user tenant keyId generation label : String} {amr : List String}
      {f : Claims → Bridge Response}, (∀ c, c.aip = none → (f c).During T fun resp =>
        ∀ c, resp.body.session? = some c → c.aip = none) →
      (mintJwt cfg user tenant amr "" keyId generation label >>= f).During T fun resp =>
        ∀ c, resp.body.session? = some c → c.aip = none := by
    intro user tenant keyId generation label amr f hf
    refine .bind fun tr c _ hc => hf c ?_
    obtain ⟨m, now, jti, -, rfl⟩ := mintJwt_yields.mp hc
    rfl
  have hgive : ∀ {c : Claims} {recoveryCodes : Option String}, c.aip = none →
      (pure { status := 200, body := .session "token" c cfg.tokenTtl recoveryCodes } : Bridge Response).During T
        fun resp => ∀ c, resp.body.session? = some c → c.aip = none := by
    intro c recoveryCodes hnone
    refine .ret fun c' hc => ?_
    cases Option.some.inj hc
    exact hnone
  refine .ite (fun _ => .skip fun key => .ite (fun _ => herror _ rfl) fun _ => .skip fun _ =>
    .ite (fun _ => .skip fun _ => herror _ rfl) fun _ => .skip fun recorded =>
    .ite (fun _ => herror _ rfl) fun _ => hmint fun c => hgive) fun _ => .skip fun tenants => ?_
  split
  · exact .skip fun _ => herror _ rfl
  · exact .skip fun recorded => .ite (fun _ => herror _ rfl) fun _ => hmint fun c hc => .skip fun _ => hgive hc

theorem TiedTo.session_kind (h : TiedTo P cfg c a renewed) :
    c.mfaPending.getD false = false ∧ isTicketType (optValue c.typ) = false := by
  cases h with
  | minted served answered => exact served.session_kind answered
  | refresh _ served _ _ answered => exact served.session_kind answered
  | redeem _ _ _ _ _ served _ answered => exact served.session_kind answered

theorem TiedTo.aip_of_renewed (h : TiedTo P cfg c a true) : c.aip = none := by
  cases h with
  | @refresh p _ _ _ x req _ served request _ answered =>
    have hy : (gated cfg req (refreshToken cfg req)).Yields x.trace x.response := by
      have hserved := served
      unfold Exchange.Served at hserved
      rw [request] at hserved
      exact hserved
    refine Prog.During.of_yields (gated_during (fun resp fields hf c hc => ?_) fun id _ => refreshToken_aip)
      hy c answered
    rw [hf] at hc
    cases hc

/-- **Where a binding holds.** A bound session is accepted from its address only
and keeps the binding at a renewal exactly if it is no renewed one and attests no
tenant. -/
theorem address_binding_iff (h : TiedTo P cfg c a renewed) :
    ((∀ ip, AdmittedFrom cfg c ip → ip = a) ∧ (renewed = true → c.aip = some a)) ↔
      renewed = false ∧ ∀ tenant, tokenTenantMember c tenant = false := by
  obtain ⟨hsession, hbearer⟩ := h.session_kind
  constructor
  · rintro ⟨henforced, hkept⟩
    refine ⟨?_, fun tenant => ?_⟩
    · cases renewed with
      | false => rfl
      | true =>
        have hnone := h.aip_of_renewed
        rw [hkept rfl] at hnone
        cases hnone
    · by_contra hmember
      obtain ⟨ip, hne⟩ : ∃ ip : String, ip ≠ a := by
        by_cases hempty : a = ""
        · exact ⟨"::1", by rw [hempty]; decide⟩
        · exact ⟨"", Ne.symm hempty⟩
      refine hne (henforced ip ?_)
      exact (admittedFrom_iff hsession hbearer ip).mpr ⟨tenant, by simpa using hmember⟩
  · rintro ⟨rfl, hnone⟩
    refine ⟨fun ip haccepted => ?_, nofun⟩
    obtain ⟨tenant, hmember⟩ := (admittedFrom_iff hsession hbearer ip).mp haccepted
    rw [hnone tenant] at hmember
    cases hmember

end Derivations

/-! ### A session that is redeemed for a code -/

/-- The session of a code that is redeemed from `10.0.0.1`. -/
def redeemedSession (roles : RoleMap) : Claims :=
  sessionClaims "fileengine-bridge" "ann" "acme" "s1" 0 900 roles ["sso", "pwd"] "10.0.0.1" "" "" ""

def redeemRequest : ApiRequest :=
  .ssoRedeem { clientIp := "10.0.0.1" }
    (some (some (.signed (buildHandoffClaims "fileengine-bridge" "ann" "acme" "j1" 0 60 ["pwd"]))))

/-- A directory that gives the user no role. -/
def rolelessReply : (op : Op) → op.Ans
  | .getRolesByTenant _ => .empty
  | op => sampleReply "live" op

theorem address_binding_roleless : TiedTo .refusing {} (redeemedSession .empty) "10.0.0.1" false ∧
    ∀ ip, AdmittedFrom {} (redeemedSession .empty) ip → ip = "10.0.0.1" := by
  have hsession : (Exchange.against .refusing {} rolelessReply redeemRequest).response.body.session? =
      some (redeemedSession .empty) := by decide +kernel
  have hbound : TiedTo .refusing {} (redeemedSession .empty) "10.0.0.1" false :=
    .minted (Exchange.against_served ..) hsession rfl
  refine ⟨hbound, ((address_binding_iff hbound).mpr ⟨rfl, fun tenant => ?_⟩).1⟩
  unfold tokenTenantMember
  split
  · rfl
  · rfl

/-- A session redeemed from one address is accepted from another. -/
theorem not_address_binding :
    ¬ ∀ (P : Libraries) (cfg : Config) (c : Claims) (a : String) (renewed : Bool),
      TiedTo P cfg c a renewed →
        (∀ ip, AdmittedFrom cfg c ip → ip = a) ∧ (renewed = true → c.aip = some a) := by
  intro h
  have hsession : (Exchange.against .refusing {} (sampleReply "live") redeemRequest).response.body.session? =
      some (redeemedSession (OrdMap.empty.insert "acme" ["users"])) := by decide +kernel
  have hbound : TiedTo .refusing {} (redeemedSession (OrdMap.empty.insert "acme" ["users"])) "10.0.0.1" false :=
    .minted (Exchange.against_served ..) hsession rfl
  have hmember : tokenTenantMember (redeemedSession (OrdMap.empty.insert "acme" ["users"])) "acme" = true := by
    decide +kernel
  have haccepted : AdmittedFrom {} (redeemedSession (OrdMap.empty.insert "acme" ["users"])) "192.0.2.7" :=
    (admittedFrom_iff rfl rfl _).mpr ⟨"acme", hmember⟩
  exact absurd ((h _ _ _ _ _ hbound).1 _ haccepted) (by decide)

end HttpBridge
