/-
# Confinement of a service key

A key is bound to one tenant. Its session goes through the same refresh, ticket
and identity code as any other; what keeps it in its tenant is the mint, which
leaves only that tenant in the roles map (`rolesForKeySession`), and the marker
`skid`, which sends every refresh through the status check of the key. Both are
the invariant of a derivation (`KeyDerived.credential`). So a credential derived
from a key acts as the key's user, in the key's tenant, with the roles the
directory gave there, and no hand-off code comes of it (`key_confined`).

Key definitions: `KeyDerived`, `ActsAs`, `KeyCredential`.
Key theorems: `key_confined`.
-/
import HttpBridge.CredentialKinds

namespace HttpBridge

open Interact TokenDenylist

/-! ### Derivations -/

/-- A login with a service key, answered with the session `c`. -/
structure Exchange.KeyLogin (P : Libraries) (cfg : Config) (x : Exchange) (req : Request)
    (keyId secret : String) (c : Claims) : Prop where
  served : x.Served P cfg
  request : x.request = .issueToken req
  credentials : serviceKeyCredentials req.authorization = some (keyId, secret)
  answered : x.response.body.session? = some c

/-- The credentials derived from the session of `x₀` by refreshes and tickets,
each with the exchange its session was minted in and the renewals on the way. -/
inductive KeyDerived (P : Libraries) (cfg : Config) (x₀ : Exchange) (c₀ : Claims) :
    Claims → Exchange → List Exchange → Prop
  | login : KeyDerived P cfg x₀ c₀ c₀ x₀ []
  | refresh {p c : Claims} {x y : Exchange} {req : Request} {renewals : List Exchange}
      (chain : KeyDerived P cfg x₀ c₀ p y renewals) (served : x.Served P cfg)
      (request : x.request = .refreshToken req)
      (bearer : req.authorization = .bearer (.signed p))
      (answered : x.response.body.session? = some c) : KeyDerived P cfg x₀ c₀ c x (x :: renewals)
  | ticket {p t : Claims} {x y : Exchange} {req : Request} {uid : String} {renewals : List Exchange}
      (chain : KeyDerived P cfg x₀ c₀ p y renewals) (served : x.Served P cfg)
      (request : x.request = .downloadTicket req uid ∨ x.request = .playbackTicket req uid)
      (bearer : req.authorization = .bearer (.signed p))
      (answered : x.response.body.ticket? = some t) : KeyDerived P cfg x₀ c₀ t y renewals

/-- Whoever authenticates with the token, as a bearer or by a ticket, is such an
identity; the other consumers refuse it. -/
structure ActsAs (cfg : Config) (c : Claims) (Q : AuthIdentity → Prop) : Prop where
  bearer : ∀ req T id, req.authorization = .bearer (.signed c) →
    (authenticate cfg req).Yields T (.ok id) → Q id
  ticket : ∀ req uid T id, (identityFromDownloadTicket cfg req uid (.signed c)).Yields T (some id) →
    Q id
  verifyMfa : Consumer.verifyMfa.Refuses cfg c
  ssoRedeem : Consumer.ssoRedeem.Refuses cfg c

/-- The identity is the user's in the tenant, with the roles in the directory's
answer. -/
def Confined (user tenant : String) (m : RoleMap) (id : AuthIdentity) : Prop :=
  id.user = user ∧ id.tenant = tenant ∧ m.find tenant = some id.roles

/-! ### The invariant -/

/-- A session of the key, minted with the directory's answer `m`. -/
structure KeySession (cfg : Config) (keyId tenant user generation : String) (T : Trace)
    (m : RoleMap) (c : Claims) : Prop where
  granted : Granted cfg T user tenant ["svc"] keyId c m
  generation : c.skgen = some generation

/-- A session of the key, or a ticket minted from one. -/
inductive KeyCredential (cfg : Config) (keyId tenant user generation : String) (T : Trace)
    (m : RoleMap) (c : Claims) : Prop
  | session (h : KeySession cfg keyId tenant user generation T m c)
  | ticket {id : AuthIdentity} {uid typ mediaType : String} {now ttl : ℤ}
      (roles : ⟨.getRolesByTenant user, m⟩ ∈ T) (confined : Confined user tenant m id)
      (typ_eq : isTicketType typ = true) (claims : c = buildTicketClaims cfg.jwtIssuer id.user
        id.tenant id.roles uid typ id.sessionJti mediaType now ttl)

section Steps

variable {P : Libraries} {cfg : Config} {keyId tenant user generation : String} {T : Trace}
  {m : RoleMap} {c : Claims} {req : Request} {id : AuthIdentity}

/-- **A key session attests its own tenant only.** -/
theorem KeySession.identity (hkey : keyId ≠ "")
    (h : KeySession cfg keyId tenant user generation T m c) {T' : Trace}
    (hp : BearerPassed cfg req (.signed c) T' id c) :
    Confined user tenant m id ∧ id.serviceKeyId = keyId ∧ id.serviceKeyGen = generation := by
  have hroles : c.roles = some (m.restrict tenant) := by
    rw [h.granted.roles_eq, mintedRoles, if_neg (by simpa using hkey)]
    rfl
  have hmember := hp.member
  unfold tokenTenantMember at hmember
  rw [hroles] at hmember
  split_ifs at hmember with hne
  obtain ⟨roles, hfind⟩ := OrdMap.has_eq_true.mp hmember
  have htenant : bearerTenant req c = tenant := by
    rw [OrdMap.find_restrict] at hfind
    by_contra hno
    rw [if_neg (Ne.symm hno)] at hfind
    cases hfind
  rw [hp.identity]
  refine ⟨⟨?_, htenant, ?_⟩, h.granted.skid_eq, ?_⟩
  · show optValue c.sub = user
    rw [h.granted.sub]
    rfl
  · show m.find tenant = some (c.rolesIn (bearerTenant req c))
    rw [Claims.rolesIn, if_neg hne, hroles, Option.bind_some, hfind]
    rw [htenant, OrdMap.find_restrict, if_pos rfl] at hfind
    rw [hfind]
    rfl
  · show optValue c.skgen = generation
    rw [h.generation]
    rfl

/-- **A credential of the key acts as the key.** -/
theorem KeyCredential.actsAs (hkey : keyId ≠ "")
    (h : KeyCredential cfg keyId tenant user generation T m c) :
    ActsAs cfg c (Confined user tenant m) := by
  cases h with
  | session h =>
    obtain ⟨now, jti, aip, keyGen, keyName, -, hc⟩ := h.granted.claims
    have hrefuses : ∀ consumer : Consumer, consumer ≠ .bearer → consumer.Refuses cfg c := by
      intro consumer hne
      refine Consumer.refuses fun htakes => hne ?_
      rw [hc] at htakes
      cases consumer <;> simp [Consumer.Takes, sessionClaims, isTicketType] at htakes ⊢
    refine ⟨fun req T' id hreq hauth => ?_, fun req uid T' id hy => ?_, hrefuses _ (by decide),
      hrefuses _ (by decide)⟩
    · rw [authenticate_of_bearer hreq] at hauth
      obtain ⟨c', hp⟩ := authenticateBearer_during.of_yields hauth id rfl
      cases hp.signed
      exact (h.identity hkey hp).1
    · have hnone : some id = none := hrefuses .ticket (by decide) req uid T' _ hy
      cases hnone
  | @ticket id₀ uid typ mediaType now ttl roles confined typ_eq claims =>
    have hrefuses : ∀ consumer : Consumer, consumer ≠ .ticket → consumer.Refuses cfg c := by
      intro consumer hne
      refine Consumer.refuses fun htakes => hne ?_
      rw [claims] at htakes
      cases consumer <;> simp [Consumer.Takes, buildTicketClaims, typ_eq] at htakes ⊢
    refine ⟨fun req T' id hreq hauth => ?_, fun req uid T' id hy => ?_, hrefuses _ (by decide),
      hrefuses _ (by decide)⟩
    · obtain ⟨resp, hresp⟩ := hrefuses .bearer (by decide) req T' _ hreq hauth
      cases hresp
    · obtain ⟨t, hp⟩ := identityFromDownloadTicket_during.of_yields hy id rfl
      cases hp.signed
      obtain ⟨huser, htenant, hroles⟩ := confined
      have hne := hp.admitted.ne_empty
      rw [claims] at hne
      have hne : id₀.tenant ≠ "" := hne
      rw [hp.identity, claims]
      refine ⟨huser, htenant, ?_⟩
      rw [ticketIdentity_roles hne]
      exact hroles

/-- What a credential of the key gets through authentication is the key's. -/
theorem KeyCredential.passed (hkey : keyId ≠ "")
    (h : KeyCredential cfg keyId tenant user generation T m c)
    (hreq : req.authorization = .bearer (.signed c)) {T' : Trace} (hpassed : Passed cfg req T' id) :
    KeySession cfg keyId tenant user generation T m c ∧ Confined user tenant m id ∧
      id.serviceKeyId = keyId ∧ id.serviceKeyGen = generation := by
  obtain ⟨tr, -, hp⟩ := hpassed.bearerPassed hreq
  cases h with
  | session h => exact ⟨h, h.identity hkey hp⟩
  | ticket roles confined typ_eq claims =>
    have hbearer := hp.bearer
    rw [claims] at hbearer
    rw [show isTicketType (optValue (buildTicketClaims ..).typ) = _ from typ_eq] at hbearer
    cases hbearer

theorem KeyCredential.refresh {x : Exchange} {p : Claims} (hkey : keyId ≠ "")
    (hp : KeyCredential cfg keyId tenant user generation T m p) (hx : x.Served P cfg)
    (hrequest : x.request = .refreshToken req) (hbearer : req.authorization = .bearer (.signed p))
    (hc : x.response.body.session? = some c) :
    KeyAccepted x.trace .status keyId tenant user generation ∧
      ∃ m, KeyCredential cfg keyId tenant user generation x.trace m c := by
  have hout := hx.outcome hrequest
  generalize x.response.body = b at hout hc
  cases hout with
  | keyRefresh passed key granted recorded hgeneration accepted =>
    obtain rfl := Option.some.inj hc
    obtain ⟨-, ⟨huser, htenant, -⟩, hskid, hskgen⟩ := hp.passed hkey hbearer passed
    rw [huser, htenant, hskid] at granted
    rw [hskgen] at hgeneration
    rw [huser, htenant, hskid, hskgen] at accepted
    exact ⟨accepted, _, .session ⟨granted, hgeneration⟩⟩
  | refresh passed noKey =>
    obtain ⟨-, -, hskid, -⟩ := hp.passed hkey hbearer passed
    exact absurd (hskid.symm.trans noKey) hkey
  | _ => cases hc

theorem KeyCredential.mintTicket {x : Exchange} {p : Claims} {uid : String} (hkey : keyId ≠ "")
    (hp : KeyCredential cfg keyId tenant user generation T m p) (hx : x.Served P cfg)
    (hrequest : x.request = .downloadTicket req uid ∨ x.request = .playbackTicket req uid)
    (hbearer : req.authorization = .bearer (.signed p))
    (hc : x.response.body.ticket? = some c) :
    KeyCredential cfg keyId tenant user generation T m c := by
  obtain ⟨rq, T', resp⟩ := x
  have hout := serve_outcome hx
  dsimp only at hrequest hc hout
  generalize resp.body = b at hout hc
  cases hout with
  | downloadTicket passed | playbackTicket passed =>
    obtain rfl := Option.some.inj hc
    rcases hrequest with hrequest | hrequest <;> cases hrequest
    obtain ⟨hsession, hconfined, -⟩ := hp.passed hkey hbearer passed
    exact .ticket hsession.granted.roles hconfined rfl rfl
  | _ => cases hc

/-- No hand-off code comes of a credential of the key. -/
theorem KeyCredential.no_handoff {x : Exchange} (hkey : keyId ≠ "")
    (hp : KeyCredential cfg keyId tenant user generation T m c) (hx : x.Served P cfg)
    (hrequest : x.request = .ssoHandoff req) (hbearer : req.authorization = .bearer (.signed c)) :
    x.response.body.handoffCode? = none := by
  have hout := hx.outcome hrequest
  generalize x.response.body = b at hout ⊢
  cases hout with
  | handoff passed named noKey =>
    obtain ⟨-, -, hskid, -⟩ := hp.passed hkey hbearer passed
    exact absurd (hskid.symm.trans noKey) hkey
  | _ => rfl

/-- The session of the login is the key's, which was verified for it. -/
theorem Exchange.KeyLogin.session {x : Exchange} {secret : String}
    (h : x.KeyLogin P cfg req keyId secret c) :
    KeyAccepted x.trace (.verify secret) keyId (requestTenant cfg req) (optValue c.sub)
        (optValue c.skgen) ∧
      ∃ m, KeySession cfg keyId (requestTenant cfg req) (optValue c.sub) (optValue c.skgen) x.trace
        m c := by
  obtain ⟨hserved, hrequest, hcredentials, hanswered⟩ := h
  have hout := hserved.outcome hrequest
  generalize x.response.body = b at hout hanswered
  cases hout with
  | keyLogin credentials admitted granted recorded accepted =>
    obtain rfl := Option.some.inj hanswered
    rw [hcredentials] at credentials
    cases credentials
    obtain ⟨generation, hgeneration, haccepted⟩ := accepted
    rw [granted.sub, hgeneration]
    exact ⟨haccepted, _, granted, hgeneration⟩
  | login loggedIn =>
    have hnone := loggedIn.noKey
    rw [hcredentials] at hnone
    cases hnone
  | _ => cases hanswered

end Steps

section Chain

variable {P : Libraries} {cfg : Config} {x₀ x : Exchange} {c₀ c : Claims} {req₀ : Request}
  {keyId secret : String} {renewals : List Exchange}

/-- **The invariant of a derivation.** -/
theorem KeyDerived.credential (hlogin : x₀.KeyLogin P cfg req₀ keyId secret c₀)
    (h : KeyDerived P cfg x₀ c₀ c x renewals) :
    (∀ y ∈ renewals, KeyAccepted y.trace .status keyId (requestTenant cfg req₀) (optValue c₀.sub)
        (optValue c₀.skgen)) ∧
      ∃ m, KeyCredential cfg keyId (requestTenant cfg req₀) (optValue c₀.sub) (optValue c₀.skgen)
        x.trace m c := by
  have hkey : keyId ≠ "" := keyId_ne_empty hlogin.credentials
  induction h with
  | login =>
    obtain ⟨-, m, hsession⟩ := hlogin.session
    exact ⟨List.forall_mem_nil _, m, .session hsession⟩
  | refresh chain served request bearer answered ih =>
    obtain ⟨hrenewals, m, hp⟩ := ih
    obtain ⟨haccepted, hc⟩ := hp.refresh hkey served request bearer answered
    refine ⟨fun y hy => ?_, hc⟩
    rcases List.mem_cons.mp hy with rfl | hy
    · exact haccepted
    · exact hrenewals y hy
  | ticket chain served request bearer answered ih =>
    obtain ⟨hrenewals, m, hp⟩ := ih
    exact ⟨hrenewals, m, hp.mintTicket hkey served request bearer answered⟩

/-- **A service key is confined.** Whatever is derived from its session acts as
the key's user, in the key's tenant, with the roles the directory gave there when
the session was minted, and hands off nothing; and `ldap_manager` knew the key at
the login and at every renewal as the same user's, of the same generation, while
the directory listed the tenant for the user. -/
theorem key_confined (hlogin : x₀.KeyLogin P cfg req₀ keyId secret c₀)
    (h : KeyDerived P cfg x₀ c₀ c x renewals) :
    KeyAccepted x₀.trace (.verify secret) keyId (requestTenant cfg req₀) (optValue c₀.sub)
        (optValue c₀.skgen) ∧
      (∀ y ∈ renewals, KeyAccepted y.trace .status keyId (requestTenant cfg req₀) (optValue c₀.sub)
        (optValue c₀.skgen)) ∧
      (∃ m, ⟨.getRolesByTenant (optValue c₀.sub), m⟩ ∈ x.trace ∧
        ActsAs cfg c (Confined (optValue c₀.sub) (requestTenant cfg req₀) m)) ∧
      ∀ (z : Exchange) req, z.Served P cfg → z.request = .ssoHandoff req →
        req.authorization = .bearer (.signed c) → z.response.body.handoffCode? = none := by
  have hkey : keyId ≠ "" := keyId_ne_empty hlogin.credentials
  obtain ⟨hrenewals, m, hc⟩ := h.credential hlogin
  refine ⟨hlogin.session.1, hrenewals, ⟨m, ?_, hc.actsAs hkey⟩, fun z req => hc.no_handoff hkey⟩
  cases hc with
  | session h => exact h.granted.roles
  | ticket roles => exact roles

end Chain

/-! ### A key, its session and a ticket -/

def keyConfig : Config :=
  { ldapManagerUrl := "https://manager", serviceCredInternalSecret := "internal" }

/-- An `ldap_manager` that knows the key. -/
def keyReply : (op : Op) → op.Ans
  | .postServiceCred .. => ⟨true, 200, some ⟨some "ann", some "g1", some "backup"⟩⟩
  | op => sampleReply "live" op

def keyExchange (rq : ApiRequest) : Exchange := .against .refusing keyConfig keyReply rq

def keyRequest : Request := { authorization := .basic "fesk_1:secret", xTenant := "acme" }

def keySession : Claims :=
  sessionClaims "fileengine-bridge" "ann" "acme" "s1" 0 900 (OrdMap.empty.insert "acme" ["users"])
    ["svc"] "" "fesk_1" "g1" "backup"

def keyBearer : Request := { authorization := .bearer (.signed keySession), xTenant := "acme" }

def keyTicket : Claims :=
  buildTicketClaims "fileengine-bridge" "ann" "acme" ["users"] "f1" "download" "s1" "" 0 30

/-- The ticket of a refreshed session. -/
theorem keyTicket_derived : KeyDerived .refusing keyConfig (keyExchange (.issueToken keyRequest))
    keySession keyTicket (keyExchange (.refreshToken keyBearer))
    [keyExchange (.refreshToken keyBearer)] := by
  have hrefresh : (keyExchange (.refreshToken keyBearer)).response.body.session? = some keySession := by
    decide +kernel
  have hticket : (keyExchange (.downloadTicket keyBearer "f1")).response.body.ticket? =
      some keyTicket := by decide +kernel
  exact .ticket (.refresh .login (Exchange.against_served ..) rfl rfl hrefresh)
    (Exchange.against_served ..) (.inl rfl) rfl hticket

theorem keyTicket_confined : ∃ m,
    ⟨.getRolesByTenant "ann", m⟩ ∈ (keyExchange (.refreshToken keyBearer)).trace ∧
      ActsAs keyConfig keyTicket (Confined "ann" "acme" m) := by
  have hlogin : (keyExchange (.issueToken keyRequest)).KeyLogin .refusing keyConfig keyRequest
      "fesk_1" "secret" keySession :=
    ⟨Exchange.against_served .., rfl, by decide +kernel, by decide +kernel⟩
  exact (key_confined hlogin keyTicket_derived).2.2.1

end HttpBridge
