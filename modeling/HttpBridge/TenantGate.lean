/-
# The tenant a session is minted for

A session should be minted only for a tenant that the tenant gate admitted
during the same request. The gate stands on the requested tenant, and only in
a login by password or service key and before a refresh; the tenant of the
session is chosen afterwards, from the tenants and the roles the directory
gives. So it is the gated one when the directory keeps it
(`session_admitted_iff`), and after a second factor, an OAuth callback, an
exchange or a redemption no gate was passed at all (`not_session_admitted`).

Key definitions: `Directory.Keeps`, `ApiRequest.KeepsTenant`.
Key theorems: `session_admitted_iff`.
-/
import HttpBridge.Footprint
import HttpBridge.Outcomes
import HttpBridge.World

namespace HttpBridge

open Interact TokenDenylist

/-! ### The directory of a request -/

/-- What the directory answers in the course of a request. -/
structure Directory where
  authenticateUser : String → String → UserInfo
  getTenantsForUser : String → List String
  getRolesByTenant : String → RoleMap

/-- An answer of the directory in a trace is this directory's. -/
def Directory.Gave (dir : Directory) : Event Op.Ans → Prop
  | ⟨.authenticateUser username password, info⟩ => info = dir.authenticateUser username password
  | ⟨.getTenantsForUser username, tenants⟩ => tenants = dir.getTenantsForUser username
  | ⟨.getRolesByTenant username, byTenant⟩ => byTenant = dir.getRolesByTenant username
  | _ => True

def Directory.Answers (dir : Directory) (T : Trace) : Prop := ∀ e ∈ T, dir.Gave e

/-- The directory in the answers of an environment. -/
def directoryOf (env : (op : Op) → op.Ans) : Directory where
  authenticateUser username password := env (.authenticateUser username password)
  getTenantsForUser username := env (.getTenantsForUser username)
  getRolesByTenant username := env (.getRolesByTenant username)

theorem directoryOf_answers (env : (op : Op) → op.Ans) {α : Type} (p : Bridge α) :
    (directoryOf env).Answers (p.run env).1 := by
  intro e he
  have hans := Prog.mem_run he
  obtain ⟨op, a⟩ := e
  cases op with
  | authenticateUser | getTenantsForUser | getRolesByTenant => exact hans
  | _ => trivial

/-- A session asked for in the tenant is minted for it: the user belongs to it
and has roles in it or none at all; or the user does not belong to it, has no
role in the tenant that stands in for it, and it is the first with roles. -/
def Directory.Keeps (dir : Directory) (user tenant : String) : Prop :=
  (tenant ∈ dir.getTenantsForUser user ∧ ((dir.getRolesByTenant user).isEmpty = true ∨
    (dir.getRolesByTenant user).has tenant = true)) ∨
  (tenant ∉ dir.getTenantsForUser user ∧ ∃ first,
    (dir.getTenantsForUser user).head? = some first ∧
    (dir.getRolesByTenant user).isEmpty = false ∧ (dir.getRolesByTenant user).has first = false ∧
    (dir.getRolesByTenant user).firstKey = some tenant)

theorem Directory.keeps_iff {dir : Directory} {user tenant active : String}
    (h : memberTenant (dir.getTenantsForUser user) tenant = some active) :
    mintedTenant active (dir.getRolesByTenant user) = tenant ↔ dir.Keeps user tenant := by
  unfold Directory.Keeps
  unfold memberTenant at h
  split_ifs at h with hm
  · obtain rfl : tenant = active := Option.some.inj h
    have hmem : tenant ∈ dir.getTenantsForUser user := by simpa using hm
    rw [mintedTenant_eq_self]
    simp [hmem]
  · rw [mintedTenant_eq]
    have hnot : tenant ∉ dir.getTenantsForUser user := by simpa using hm
    have hne : active ≠ tenant := by
      rintro rfl
      exact hnot (List.mem_of_mem_head? h)
    simp [hnot, hne, h]

/-! ### The tenant that is gated -/

/-- The tenant a request acts in once authenticated. -/
def gatedTenant (cfg : Config) (req : Request) : String :=
  match req.authorization with
  | .bearer (.signed claims) => bearerTenant req claims
  | _ => requestTenant cfg req

variable {P : Libraries} {cfg : Config} {req : Request} {T : Trace} {id : AuthIdentity}

theorem gatedTenant_of_not_bearer (h : ∀ token, req.authorization ≠ .bearer token) :
    gatedTenant cfg req = requestTenant cfg req := by
  unfold gatedTenant
  split
  case h_1 claims hb => exact absurd hb (h _)
  · rfl

theorem tenant_eq_gatedTenant {tr : Trace} (h : (authenticate cfg req).Yields tr (.ok id)) :
    id.tenant = gatedTenant cfg req := by
  rcases authenticate_during.of_yields h id rfl with ⟨user, pass, info, hp⟩ | ⟨claims, hb, hp⟩
  · rw [gatedTenant_of_not_bearer fun token ht => ?_, hp.identity]
    · rfl
    · have := hp.credentials
      rw [ht] at this
      cases this
  · rw [hp.identity, gatedTenant, hb]
    rfl

/-- Only the gated tenant is asked about in front of a route that asks about none. -/
theorem gated_asks {route : AuthIdentity → Bridge Response} {tr : Trace} {resp : Response}
    {tenant : String} {o : Option TenantEntry} (hroute : ∀ id, Within cfg Gate.registers (route id))
    (h : (gated cfg req route).Yields tr resp) (he : ⟨.tenantFind tenant, o⟩ ∈ tr) :
    tenant = gatedTenant cfg req := by
  obtain ⟨r, tr₁, tr₂, rfl, hauth, h⟩ := (Prog.yields_bind ..).mp h
  rcases List.mem_append.mp he with he | he
  · by_cases hb : ∃ token, req.authorization = .bearer token
    · obtain ⟨token, ht⟩ := hb
      rw [authenticate_of_bearer ht] at hauth
      obtain ⟨_, hj⟩ := (Within.authenticateBearer (G := fun g => ∃ jti, g = .check jti)
        fun jti => ⟨jti, rfl⟩).asks hauth he
      cases hj
    · have hb := not_exists.mp hb
      rw [authenticate_of_not_bearer hb] at hauth
      have hg := (Within.authenticateMember (G := (· = .admits (requestTenant cfg req))) rfl).asks
        hauth he
      cases hg
      exact (gatedTenant_of_not_bearer hb).symm
  · cases r with
    | error resp' =>
      obtain ⟨rfl, -⟩ := (Prog.ret_yields ..).mp h
      cases he
    | ok id =>
      have hw : Within cfg (fun g => g = .admits id.tenant ∨ g.registers)
          (tenantAdmits id.tenant >>= fun v =>
            if !v.admits then pure (tenantRefused v.code v.reason) else route id) :=
        .bind (.admits (.inl rfl)) fun _ => .ite .ret ((hroute id).mono fun _ => .inr)
      cases (hw.asks h he).resolve_right fun h => h
      exact tenant_eq_gatedTenant hauth

/-- A login asks about the requested tenant only. -/
theorem issueToken_asks {tr : Trace} {resp : Response} {tenant : String} {o : Option TenantEntry}
    (h : (issueToken cfg req).Yields tr resp) (he : ⟨.tenantFind tenant, o⟩ ∈ tr) :
    tenant = requestTenant cfg req := by
  unfold issueToken at h
  split at h
  · have hg := (Within.issueServiceKeyToken (G := (· = .admits (requestTenant cfg req))) rfl).asks h he
    cases hg
    rfl
  · obtain ⟨⟨ok, id⟩, tr₁, tr₂, rfl, hbasic, h⟩ := (Prog.yields_bind ..).mp h
    rcases List.mem_append.mp he with he | he
    · have hg := (Within.authenticateBasic (G := (· = .admits (requestTenant cfg req))) rfl).asks
        hbasic he
      cases hg
      rfl
    · cases ok with
      | false => exact ((Within.refuseLogin (G := fun _ => False)).asks h he).elim
      | true =>
        cases ((Within.admitLogin (G := fun g => g = .admits id.tenant ∨ g.registers) (.inl rfl)
          fun _ => .inr).asks h he).resolve_right fun h => h
        obtain ⟨user, pass, info, -, hid⟩ := authenticateBasic_during.of_yields hbasic rfl
        obtain rfl : id = basicIdentity cfg req user info := hid
        rfl

/-! ### The tenant of the session -/

/-- The user HTTP Basic credentials are bound as. -/
def Directory.boundUser (dir : Directory) (cfg : Config) (req : Request) : Option String :=
  (basicCredentials req.authorization).map fun (user, pass) =>
    (basicIdentity cfg req user (dir.authenticateUser user pass)).user

/-- The directory keeps the tenant a Basic request addresses. -/
def Directory.KeepsAddressed (dir : Directory) (cfg : Config) (req : Request) : Prop :=
  ∃ user ∈ dir.boundUser cfg req, dir.Keeps user (requestTenant cfg req)

/-- A refreshed session is a key's, or the directory keeps its tenant. -/
def Directory.KeepsRefreshed (dir : Directory) (cfg : Config) (req : Request) : Prop :=
  match req.authorization with
  | .bearer (.signed claims) =>
    optValue claims.skid ≠ "" ∨ dir.Keeps (optValue claims.sub) (bearerTenant req claims)
  | _ => dir.KeepsAddressed cfg req

/-- The gate stands before the request's session, and the directory keeps the
tenant it admitted. -/
def ApiRequest.KeepsTenant (cfg : Config) (dir : Directory) : ApiRequest → Prop
  | .issueToken req =>
    (serviceKeyCredentials req.authorization).isSome = true ∨ dir.KeepsAddressed cfg req
  | .refreshToken req => dir.KeepsRefreshed cfg req
  | _ => False

section Session

variable {dir : Directory} {tr : Trace}

theorem keepsAddressed_iff {user pass : String} {info : UserInfo} (hdir : dir.Answers T)
    (h : PasswordBound cfg req T user pass info) : dir.KeepsAddressed cfg req ↔
      dir.Keeps (basicIdentity cfg req user info).user (requestTenant cfg req) := by
  have hinfo : info = dir.authenticateUser user pass := hdir _ h.bound
  simp [Directory.KeepsAddressed, Directory.boundUser, h.credentials, hinfo]

theorem keepsRefreshed_iff (hdir : dir.Answers tr)
    (h : (authenticate cfg req).Yields tr (.ok id)) : dir.KeepsRefreshed cfg req ↔
      id.serviceKeyId ≠ "" ∨ dir.Keeps id.user (gatedTenant cfg req) := by
  rcases authenticate_during.of_yields h id rfl with ⟨user, pass, info, hp⟩ | ⟨claims, hb, hp⟩
  · have hbasic : ∀ token, req.authorization ≠ .bearer token := fun token ht => by
      have := hp.credentials
      rw [ht] at this
      cases this
    have hrefreshed : dir.KeepsRefreshed cfg req = dir.KeepsAddressed cfg req := by
      unfold Directory.KeepsRefreshed
      split
      case h_1 claims hb => exact absurd hb (hbasic _)
      · rfl
    rw [hrefreshed, keepsAddressed_iff hdir hp.toPasswordBound, gatedTenant_of_not_bearer hbasic,
      hp.identity]
    simp [basicIdentity]
  · rw [hp.identity, gatedTenant, Directory.KeepsRefreshed, hb]
    rfl

/-- A session whose tenant is chosen behind the gate of `tenant`. -/
theorem admitted_iff_keeps {user tenant active : String} {amr : List String} {c : Claims}
    {m : RoleMap} (hdir : dir.Answers tr) (hadmitted : Admitted tenant tr)
    (hasks : ∀ t o, ⟨.tenantFind t, o⟩ ∈ tr → t = tenant)
    (hmember : memberTenant (dir.getTenantsForUser user) tenant = some active)
    (hgranted : Granted cfg tr user active amr "" c m) :
    Admitted (optValue c.tenant) tr ↔ dir.Keeps user tenant := by
  obtain rfl : m = _ := hdir _ hgranted.roles
  have htenant : optValue c.tenant = mintedTenant active (dir.getRolesByTenant user) := by
    rw [hgranted.tenant_eq]
    rfl
  rw [← Directory.keeps_iff hmember, htenant]
  constructor
  · intro h
    obtain ⟨o, ho⟩ := h.asked
    exact hasks _ o ho
  · intro h
    rwa [h]

/-- **Which session is minted for an admitted tenant.** Exactly that of a
request behind the gate whose tenant the directory keeps. -/
theorem session_admitted_iff {rq : ApiRequest} {resp : Response} {c : Claims}
    (h : (serve P cfg rq).Yields tr resp) (hdir : dir.Answers tr)
    (hc : resp.body.session? = some c) :
    Admitted (optValue c.tenant) tr ↔ rq.KeepsTenant cfg dir := by
  -- without a gate no tenant is asked about, and none admitted
  have hnever : ∀ {rq : ApiRequest}, (serve P cfg rq).Yields tr resp →
      (∀ t, ¬ rq.gates (.admits t)) → ¬ Admitted (optValue c.tenant) tr := fun h hno hadm =>
    hno _ ((serve_within _).asks h hadm.asked.choose_spec)
  have hout := serve_outcome h
  generalize resp.body = b at hout hc
  cases hout with
  | keyLogin credentials admitted granted =>
    obtain rfl := Option.some.inj hc
    rw [granted.tenant_of_key (keyId_ne_empty credentials)]
    simp [admitted, ApiRequest.KeepsTenant, credentials]
  | login loggedIn _ granted =>
    obtain rfl := Option.some.inj hc
    obtain ⟨noKey, ⟨user, pass, info, hbound, rfl⟩, tenants, htenants, hmember⟩ := loggedIn
    obtain rfl : tenants = _ := hdir _ htenants
    rw [admitted_iff_keeps hdir hbound.admitted (fun t o => issueToken_asks h) hmember granted,
      ← keepsAddressed_iff hdir hbound]
    simp [ApiRequest.KeepsTenant, noKey]
  | @keyRefresh _ id _ _ passed key granted =>
    obtain rfl := Option.some.inj hc
    obtain ⟨tr', htr', hauth⟩ := passed.authenticated
    have hkeeps := keepsRefreshed_iff (fun e he => hdir e (htr'.subset he)) hauth
    rw [granted.tenant_of_key key]
    exact iff_of_true passed.admitted (hkeeps.mpr (.inl key))
  | @refresh _ id tenants _ _ _ passed noKey asked member granted =>
    obtain rfl := Option.some.inj hc
    obtain rfl : tenants = _ := hdir _ asked
    obtain ⟨tr', htr', hauth⟩ := passed.authenticated
    have hkeeps := keepsRefreshed_iff (fun e he => hdir e (htr'.subset he)) hauth
    have ht := tenant_eq_gatedTenant hauth
    rw [ht] at member
    refine (admitted_iff_keeps hdir (ht ▸ passed.admitted)
      (fun t o => gated_asks (fun _ => .refreshToken fun _ h => h) h) member granted).trans ?_
    simpa [noKey, ApiRequest.KeepsTenant] using hkeeps.symm
  | secondFactor => exact iff_of_false (hnever h fun _ hg => hg.elim id id) id
  | redeem => exact iff_of_false (hnever h fun _ hg => hg.elim nofun id) id
  | delegated => exact iff_of_false (hnever h fun _ hg => hg.elim nofun id) id
  | service => exact iff_of_false (hnever h fun _ hg => hg.elim nofun id) id
  | oauth => exact iff_of_false (hnever h fun _ => id) id
  | _ => cases hc

/-- A deployment with second factors. -/
def twoFactorConfig : Config :=
  { mfaEnabled := true, ldapManagerUrl := "http://ldap-manager:8080", mfaInternalSecret := "k" }

/-- The user is known, has a role in the tenant, need not have a second factor
and has a valid code; the registry gives the tenant's state. -/
def sampleReply (state : String) : (op : Op) → op.Ans
  | .authenticateUser .. => { userId := "ann", authenticated := true }
  | .getTenantsForUser _ => ["acme"]
  | .getRolesByTenant _ => OrdMap.empty.insert "acme" ["users"]
  | .getTenantState _ => some ⟨true, true, state⟩
  | .postMfaRequired .. => ⟨true, 200, some ⟨some false, none, none, none⟩⟩
  | .postMfaVerify .. => ⟨true, 200, some (some true)⟩
  | .random => "s1"
  | op => Weather.fair.reply op

/-- A login in the tenant. -/
def sampleLogin : ApiRequest :=
  .issueToken { authorization := .basic "ann:secret", xTenant := "acme" }

theorem login_admitted_iff_keeps : ∃ c,
    ((serve .refusing twoFactorConfig sampleLogin).run (sampleReply "live")).2.body.session? =
      some c ∧
    (Admitted (optValue c.tenant)
        ((serve .refusing twoFactorConfig sampleLogin).run (sampleReply "live")).1 ↔
      sampleLogin.KeepsTenant twoFactorConfig (directoryOf (sampleReply "live"))) := by
  obtain ⟨c, hc⟩ := Option.isSome_iff_exists.mp (show
    ((serve .refusing twoFactorConfig sampleLogin).run
      (sampleReply "live")).2.body.session?.isSome = true by decide +kernel)
  exact ⟨c, hc, session_admitted_iff (Prog.yields_run _ _) (directoryOf_answers _ _) hc⟩

/-- The second step of a login in the tenant. -/
def sampleSecondFactor : ApiRequest :=
  .verifyMfa {} (some (.signed (mfaPendingClaims "fileengine-bridge" "ann" "acme" "" "p1" 0 300)))
    "verify" "totp" "123456"

/-- **Not every session is minted for an admitted tenant.** After a second
factor a session is minted for a suspended one. -/
theorem not_session_admitted :
    ¬ ∀ rq tr resp c, (serve .refusing twoFactorConfig rq).Yields tr resp → resp.body.session? = some c →
      Admitted (optValue c.tenant) tr := by
  intro h
  obtain ⟨c, hc⟩ := Option.isSome_iff_exists.mp (show
    ((serve .refusing twoFactorConfig sampleSecondFactor).run
      (sampleReply "suspended")).2.body.session?.isSome = true by decide +kernel)
  have hadmitted := h _ _ _ c (Prog.yields_run _ _) hc
  exact ((serve_within sampleSecondFactor).asks (Prog.yields_run (sampleReply "suspended") _)
    hadmitted.asked.choose_spec).elim (fun h => h) fun h => h

end Session

end HttpBridge
