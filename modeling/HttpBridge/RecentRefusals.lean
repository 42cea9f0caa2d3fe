/-
# How stale a refusal can be

The caches of the gate and of the mandates keep what turns a request away as
well: a refusal of the registry for ten seconds, shorter than an admission, so
that a tenant back in service does not wait on a cache; a mandate of the second
factor, like an exemption, for thirty.

Whoever is refused for his tenant reads the code and the reason of an answer
that the registry gave his own instance less than ten seconds before, and
whoever is asked for a second factor owes it to a reply less than thirty seconds
old that does not exempt the tenant. So it is of every endpoint, however the
steps interleave (`refusals_recent`).

Key definitions: `gateCache`, `mandateCache`, `Explained`.
Key theorems: `serve_explained`, `refusals_recent`.
-/
import HttpBridge.MandateStaleness

namespace HttpBridge

open Interact TokenDenylist

/-! ### The two caches, whatever they answer -/

/-- The answer of a tenant's entry. -/
def TenantEntry.admission (e : TenantEntry) : Admission := ⟨e.admits, e.code, e.reason⟩

/-- The tenant caches: every answer is that of a reply of the registry. -/
def gateCache (D : DenylistOptions) (inst : ℕ → ℕ) :
    ReadCache (World.system D inst) ℕ String Admission where
  site := inst
  entry w i tenant := ((w.tenants i).lookup tenant).map fun e => (e.admission, e.until_)
  life v := if v.admits then 60 else 10
  trusted _ := True
  now m := ⟨.time, m⟩
  justifies tenant v e := ∃ reply, e = ⟨.getTenantState tenant, reply⟩ ∧ v = admissionOf reply
  put op tenant v u := ∃ e, op = .tenantPut tenant e ∧ e.admission = v ∧ e.until_ = u
  found tenant v u e := ∃ te, e = ⟨.tenantFind tenant, some te⟩ ∧ te.admission = v ∧ te.until_ = u
  entry_step w t op c i tenant v u h _ := by
    obtain ⟨e, he, heq⟩ := Option.map_eq_some_iff.mp h
    cases heq
    rcases World.effect_tenants he with h | ⟨rfl, rfl⟩
    · exact .inl (by rw [h]; rfl)
    · exact .inr ⟨rfl, e, rfl, rfl, rfl⟩
  entry_tick _ _ _ _ := rfl
  found_step w t op c tenant v u h := by
    obtain ⟨te, he, rfl, rfl⟩ := h
    obtain ⟨rfl, hans⟩ := Event.mk.inj he
    have hlookup : (w.tenants (inst t)).lookup tenant = some te := eq_of_heq hans
    show ((w.tenants (inst t)).lookup tenant).map _ = _
    rw [hlookup]
    rfl

/-- The caches of mandates: every answer is read off a reply of `ldap_manager`. -/
def mandateCache (D : DenylistOptions) (inst : ℕ → ℕ) :
    ReadCache (World.system D inst) ℕ String Bool where
  toJustifiedCache :=
    { requiresStamps D inst with
      trusted := fun _ => True
      justifies := fun tenant v e => ∃ user r, e = ⟨.postMfaRequired user tenant, r⟩ ∧
        v = ((readMfaRequired r).map (·.tenantRequires)).getD true
      entry_step := fun w t op c i tenant v u h _ => by
        rcases World.effect_requires h with h | ⟨hi, hop⟩
        · exact .inl h
        · exact .inr ⟨hi.symm, hop⟩ }
  found tenant v u e := e = ⟨.requiresFind tenant, some (v, u)⟩
  found_step w t op c tenant v u h := by
    obtain ⟨rfl, hans⟩ := Event.mk.inj h
    exact eq_of_heq hans

section Stamps

variable {P : Libraries} {cfg : Config} {D : DenylistOptions} {inst : ℕ → ℕ} {T tr : Trace}
  {tenant user : String}

/-- The gate stamps what it caches, whichever way it comes out. -/
theorem tenantAdmits_gateStamps (tenant : String) :
    (tenantAdmits tenant).Every (gateCache D inst).Stamps := by
  have hno : ∀ {tr : Trace} {op : Op}, (∀ tenant e, op ≠ .tenantPut tenant e) →
      (gateCache D inst).Stamps tr op := by
    rintro tr op h tenant v u ⟨e, rfl, -⟩
    exact absurd rfl (h tenant e)
  unfold tenantAdmits
  split_ifs
  · exact Prog.every_ret _ _
  refine (Prog.every_call ..).mpr ⟨hno fun _ _ => nofun, fun now => ?_⟩
  refine (Prog.every_call ..).mpr ⟨hno fun _ _ => nofun, fun cached => ?_⟩
  dsimp only [bind, Prog.bind]
  split
  · exact Prog.every_ret _ _
  refine (Prog.every_call ..).mpr ⟨hno fun _ _ => nofun, fun reply => ?_⟩
  refine (Prog.every_call ..).mpr ⟨?_, fun _ => Prog.every_ret _ _⟩
  rintro tenant' v u ⟨e, he, rfl, rfl⟩ -
  cases he
  exact ⟨now, _, ⟨reply, rfl, rfl⟩, .cons_cons _ (.cons _ (.cons_cons _ .slnil)), le_rfl⟩

theorem serve_gateStamps (rq : ApiRequest) :
    (serve P cfg rq).Every (gateCache D inst).Stamps := by
  refine serve_every_of_gate rq (fun tr₀ tr op h => h.append tr₀) tenantAdmits_gateStamps
    fun tr op h => ?_
  rintro tenant v u ⟨e, rfl, -⟩
  exact absurd trivial h

/-- The question for a second factor stamps what it caches. -/
theorem tenantRequires2fa_mandateStamps (user tenant : String) :
    (tenantRequires2fa user tenant).Every (mandateCache D inst).Stamps := by
  have hno : ∀ {tr : Trace} {op : Op}, (∀ tenant v u, op ≠ .requiresPut tenant v u) →
      (mandateCache D inst).Stamps tr op := fun h tenant v u hop => absurd hop (h tenant v u)
  refine (Prog.every_call ..).mpr ⟨hno fun _ _ _ => nofun, fun now => ?_⟩
  refine (Prog.every_call ..).mpr ⟨hno fun _ _ _ => nofun, fun cached => ?_⟩
  dsimp only [bind, Prog.bind]
  split
  · exact Prog.every_ret _ _
  refine (Prog.every_call ..).mpr ⟨hno fun _ _ _ => nofun, fun r => ?_⟩
  refine (Prog.every_call ..).mpr ⟨?_, fun _ => Prog.every_ret _ _⟩
  intro tenant' v u hop _
  cases hop
  exact ⟨now, _, ⟨user, r, rfl, rfl⟩, .cons_cons _ (.cons _ (.cons_cons _ .slnil)), le_rfl⟩

theorem serve_mandateStamps (rq : ApiRequest) :
    (serve P cfg rq).Every (mandateCache D inst).Stamps := by
  refine (serve_within rq).every_of_switch (fun tr₀ tr op h => h.append tr₀) (fun op tr h => ?_)
    tenantRequires2fa_mandateStamps
  rintro tenant v u rfl
  cases h

/-- An answer of the gate is found in the cache, or asked for. -/
theorem tenantAdmits_relies {v : Admission} (h : (tenantAdmits tenant).Yields tr v)
    (hne : tenant ≠ "") (htr : tr <:+: T) :
    ∃ n, ⟨.time, n⟩ ∈ T ∧ (gateCache D inst).Relies tenant v n T := by
  rcases tenantAdmits_yields.mp h with ⟨he, -⟩ | ⟨-, now, cached, ⟨e, rfl, hn, rfl, rfl⟩ |
    ⟨reply, -, rfl, rfl⟩⟩
  · exact absurd he hne
  · exact ⟨now, htr.subset (by simp), .inl ⟨_, _, ⟨e, rfl, rfl, rfl⟩, htr.subset (by simp), hn⟩⟩
  · refine ⟨now, htr.subset (by simp), .inr ⟨_, ⟨reply, rfl, rfl⟩, .trans ?_ htr.sublist⟩⟩
    exact .cons_cons _ (.cons _ (.cons_cons _ (List.nil_sublist _)))

/-- An answer about the second factor is found in the cache, or asked for. -/
theorem tenantRequires2fa_relies {v : Bool} (h : (tenantRequires2fa user tenant).Yields tr v)
    (htr : tr <:+: T) : ∃ n, ⟨.time, n⟩ ∈ T ∧ (mandateCache D inst).Relies tenant v n T := by
  rcases tenantRequires2fa_yields.mp h with ⟨now, cached, ⟨e, rfl, hn, rfl, rfl⟩ | ⟨r, -, hv, rfl⟩⟩
  · exact ⟨now, htr.subset (by simp), .inl ⟨e.2, _, rfl, htr.subset (by simp), hn⟩⟩
  · refine ⟨now, htr.subset (by simp), .inr ⟨_, ⟨user, r, rfl, hv⟩, .trans ?_ htr.sublist⟩⟩
    exact .cons_cons _ (.cons _ (.cons_cons _ (List.nil_sublist _)))

end Stamps

/-! ### What a refusal comes from -/

/-- In the course of `T` the gate of a tenant refused, for this reason. -/
def TurnedAway (code reason : String) (T : Trace) : Prop :=
  ∃ tenant tr, tenant ≠ "" ∧ tr <:+: T ∧ (tenantAdmits tenant).Yields tr ⟨false, code, reason⟩

/-- In the course of `T` a second factor was found to be required. -/
def Demanded (tenant : String) (T : Trace) : Prop :=
  ∃ user tr, tr <:+: T ∧ (tenantRequires2fa user tenant).Yields tr true

/-- A response that refuses for the tenant's state, or asks for a second factor, has
the gate's answer behind it. -/
structure Explained (T : Trace) (resp : Response) : Prop where
  refused : ∀ code reason, resp = tenantRefused code reason → TurnedAway code reason T
  demanded : ∀ tenant, resp = secondFactorRequired tenant → Demanded tenant T

section Explained

variable {P : Libraries} {cfg : Config} {req : Request} {T tr : Trace} {tenant : String}

/-- The response is neither. -/
theorem Explained.of_ne {resp : Response} (hr : ∀ code reason, resp ≠ tenantRefused code reason)
    (hd : ∀ tenant, resp ≠ secondFactorRequired tenant) : Explained T resp :=
  ⟨fun code reason h => absurd h (hr code reason), fun tenant h => absurd h (hd tenant)⟩

theorem Explained.sendError {status : ℕ} {error : String} :
    Explained T (HttpBridge.sendError status error) := by
  refine .of_ne (fun code reason h => ?_) fun tenant h => ?_
  · simp [HttpBridge.sendError, tenantRefused] at h
  · simp [HttpBridge.sendError, secondFactorRequired] at h

theorem Explained.sendOAuthError {status : ℕ} {error description : String} :
    Explained T (HttpBridge.sendOAuthError status error description) := by
  refine .of_ne (fun code reason h => ?_) fun tenant h => ?_
  · simp [HttpBridge.sendOAuthError, tenantRefused] at h
  · simp [HttpBridge.sendOAuthError, secondFactorRequired] at h

theorem Explained.unauthorized : Explained T (HttpBridge.unauthorized req) := by
  refine .of_ne (fun code reason h => ?_) fun tenant h => ?_
  · simp [HttpBridge.unauthorized, tenantRefused] at h
  · simp [HttpBridge.unauthorized, secondFactorRequired] at h

/-- What is served is no refusal. -/
theorem Explained.served {resp : Response} (h : ∀ fields, resp.body ≠ .error fields) :
    Explained T resp := by
  refine .of_ne (fun code reason he => ?_) fun tenant he => ?_
  · exact h _ (congrArg Response.body he)
  · exact h _ (congrArg Response.body he)

theorem tenantRefused_inj {code reason code' reason' : String}
    (h : tenantRefused code reason = tenantRefused code' reason') :
    code = code' ∧ reason = reason' := by
  simp only [tenantRefused, Response.mk.injEq, Body.error.injEq, List.cons.injEq, Prod.mk.injEq] at h
  tauto

/-- A refusal of the gate explains its response. -/
theorem Explained.tenantRefused {v : Admission} (hne : tenant ≠ "") (htr : tr <:+: T)
    (hv : (tenantAdmits tenant).Yields tr v) (ha : v.admits = false) :
    Explained T (HttpBridge.tenantRefused v.code v.reason) := by
  refine ⟨fun code reason h => ?_, fun t h => ?_⟩
  · obtain ⟨rfl, rfl⟩ := tenantRefused_inj h
    refine ⟨tenant, tr, hne, htr, ?_⟩
    rwa [← ha]
  · simp [HttpBridge.tenantRefused, HttpBridge.secondFactorRequired] at h

theorem Explained.secondFactorRequired {user : String} (htr : tr <:+: T)
    (hv : (tenantRequires2fa user tenant).Yields tr true) :
    Explained T (HttpBridge.secondFactorRequired tenant) := by
  refine ⟨fun code reason h => ?_, fun t h => ?_⟩
  · simp [HttpBridge.tenantRefused, HttpBridge.secondFactorRequired] at h
  · simp only [HttpBridge.secondFactorRequired, Response.mk.injEq, Body.error.injEq,
      List.cons.injEq, Prod.mk.injEq] at h
    obtain rfl : tenant = t := by tauto
    exact ⟨user, tr, htr, hv⟩

end Explained

/-! ### Endpoint by endpoint -/

section Endpoints

variable {P : Libraries} {cfg : Config} {req : Request} {T : Trace} {id : AuthIdentity}

theorem grantSession_explained {user tenant aip ip field : String} {amr : List String}
    {recovery : Option String} :
    (grantSession cfg user tenant amr aip ip field recovery).During T (Explained T) :=
  grantSession_during fun _ _ _ => .served nofun

theorem grantKeySession_explained {user tenant keyId generation label : String} :
    (grantKeySession cfg user tenant keyId generation label).During T (Explained T) :=
  .skip fun _ => .ret (.served nofun)

/-- Where something is recorded first, an audit that fails is no refusal either. -/
theorem recorded_explained {action actor tenant sourceAddr : String} {p : Bridge Response}
    (h : p.During T (Explained T)) :
    (do let recorded ← emitAuth cfg action "ok" actor tenant sourceAddr
        if !recorded then return auditUnavailable else p).During T (Explained T) :=
  .skip fun _ => .ite (fun _ => .ret .sendError) fun _ => h

/-- An error that is explained may be passed on. -/
theorem error_explained {α : Type} {resp : Response} (h : Explained T resp) :
    (pure (.error resp) : Bridge (Except Response α)).During T fun r =>
      ∀ resp, r = .error resp → Explained T resp := by
  refine .ret ?_
  rintro _ ⟨⟩
  exact h

/-- A password login that fails for the tenant's state bears the gate's answer. -/
theorem authenticateBasic_refused : (authenticateBasic cfg req).During T fun r =>
    (r.1 = false → Explained T (tenantRefused r.2.tenantRefusalCode r.2.tenantRefusalReason) ∨
      r.2.tenantRefusalCode = "") ∧ (r.1 = true → r.2.tenant ≠ "") := by
  have htenant : requestTenant cfg req ≠ "" := by
    rw [requestTenant_eq]
    exact resolveTenant_ne_empty _ _ _
  unfold authenticateBasic
  split
  · exact .ret ⟨fun _ => .inr rfl, nofun⟩
  case h_2 user pass _ =>
    refine .skip fun info => .ite (fun _ => .ret ⟨fun _ => .inr rfl, nofun⟩) fun _ => ?_
    refine .bind fun tr v htr hv => .ite (fun ha => .ret ⟨fun _ => .inl ?_, nofun⟩) fun _ => .ret ?_
    · exact .tenantRefused htenant htr hv (by simpa using ha)
    · exact ⟨nofun, fun _ => htenant⟩

theorem authenticateMember_explained : (authenticateMember cfg req).During T fun r =>
    ∀ resp, r = .error resp → Explained T resp := by
  refine .bind fun tr ⟨ok, out⟩ htr hbasic => .ite (fun hno => .ite (fun hcode => ?_) fun _ => ?_)
    fun _ => .skip fun tenants => .ite (fun _ => error_explained .sendError) fun _ => .ret fun _ h => nomatch h
  · have hrefused := (authenticateBasic_refused tr _ htr hbasic).1 (by simpa using hno)
    exact error_explained (hrefused.resolve_right (by simpa using hcode))
  · exact error_explained .unauthorized

theorem authenticateBearer_explained {token : Jwt} : (authenticateBearer cfg req token).During T
    fun r => ∀ resp, r = .error resp → Explained T resp := by
  refine .skip fun now => ?_
  split
  · exact error_explained .unauthorized
  case h_2 claims _ =>
    refine .skip fun permitted => .ite (fun _ => .skip fun _ => error_explained .unauthorized) fun _ =>
      .ite (fun _ => error_explained .unauthorized) fun _ => .ite (fun _ => error_explained .unauthorized) fun _ =>
      .ite (fun _ => error_explained .sendError) fun _ => .ite (fun _ => .ret fun _ h => nomatch h) fun _ =>
      .bind fun tr required htr hv => .ite (fun hyes => error_explained ?_) fun _ => .ret fun _ h => nomatch h
    rw [hyes] at hv
    exact .secondFactorRequired htr hv

theorem authenticate_explained : (authenticate cfg req).During T fun r =>
    ∀ resp, r = .error resp → Explained T resp := by
  unfold authenticate
  split
  · exact authenticateBearer_explained
  · exact authenticateMember_explained

/-- Whoever is authenticated acts in a tenant that has a name. -/
theorem authenticate_tenant : (authenticate cfg req).During T fun r =>
    ∀ id, r = .ok id → id.tenant ≠ "" := by
  intro tr r htr hr id hid
  rcases authenticate_during tr r htr hr id hid with ⟨_, _, _, hb⟩ | ⟨claims, -, hb⟩
  · rw [hb.identity]
    show requestTenant cfg req ≠ ""
    rw [requestTenant_eq]
    exact resolveTenant_ne_empty _ _ _
  · rw [hb.identity]
    show bearerTenant req claims ≠ ""
    intro hempty
    have hmember := hb.member
    rw [hempty, tokenTenantMember] at hmember
    simp at hmember

theorem gated_explained {route : AuthIdentity → Bridge Response}
    (hroute : ∀ id, (route id).During T (Explained T)) :
    (gated cfg req route).During T (Explained T) := by
  refine .bind fun tr r htr hr => ?_
  split
  case h_1 resp => exact .ret (authenticate_explained tr _ htr hr _ rfl)
  case h_2 id =>
    refine .bind fun tr' v htr' hv => .ite (fun ha => .ret ?_) fun _ => hroute id
    exact .tenantRefused (authenticate_tenant tr _ htr hr _ rfl) htr' hv (by simpa using ha)

theorem issueToken_explained : (issueToken cfg req).During T (Explained T) := by
  have htenant : requestTenant cfg req ≠ "" := by
    rw [requestTenant_eq]
    exact resolveTenant_ne_empty _ _ _
  unfold issueToken
  split
  case h_1 keyId secret _ =>
    refine .bind fun tr v htr hv => .ite (fun ha => .skip fun _ => .ret ?_) fun _ =>
      .ite (fun _ => .skip fun _ => .ret .unauthorized) fun _ => .skip fun key => ?_
    · exact .tenantRefused htenant htr hv (by simpa using ha)
    split
    · exact .ret .sendError
    · exact .skip fun _ => .ret .unauthorized
    · exact .skip fun tenants => .ite (fun _ => .skip fun _ => .ret .sendError) fun _ =>
        recorded_explained grantKeySession_explained
  case h_2 =>
    refine .bind fun tr ⟨ok, id⟩ htr hbasic => .ite (fun hno => .ite (fun hcode => ?_) fun _ => ?_)
      fun hok => .bind fun tr' v htr' hv => .ite (fun ha => .skip fun _ => .ret ?_) fun _ =>
      .skip fun tenants => ?_
    · have hrefused := (authenticateBasic_refused tr _ htr hbasic).1 (by simpa using hno)
      exact .skip fun _ => .ret (hrefused.resolve_right (by simpa using hcode))
    · exact .skip fun _ => .ret .unauthorized
    · have hne := (authenticateBasic_refused tr _ htr hbasic).2 (by simpa using hok)
      exact .tenantRefused hne htr' hv (by simpa using ha)
    split
    · exact .skip fun _ => .ret .unauthorized
    · refine recorded_explained (.ite (fun _ => grantSession_explained) fun _ => .skip fun answer => ?_)
      split
      · exact .ret .sendError
      · exact .ite (fun _ => .skip fun _ => .skip fun _ => .ret (.served nofun)) fun _ =>
          grantSession_explained

theorem verifyMfa_explained {mfaToken : Option Jwt} {action method code : String} :
    (verifyMfa cfg req mfaToken action method code).During T (Explained T) := by
  refine .skip fun now => ?_
  split
  · exact .ret .unauthorized
  refine .ite (fun _ => .skip fun _ => .ret .unauthorized) fun _ => .ite (fun _ => ?_) fun _ =>
    .ite (fun _ => ?_) fun _ => .ite (fun _ => ?_) fun _ => ?_
  · exact .ite (fun _ => .ret (.served nofun)) fun _ => .skip fun _ => .ret (.served nofun)
  · exact .skip fun _ => .ite (fun _ => .ret .sendError) fun _ => .ret (.served nofun)
  · refine .skip fun codes => ?_
    split
    · exact .skip fun _ => .ret .sendError
    · exact recorded_explained grantSession_explained
  · exact .skip fun ok => .ite (fun _ => .skip fun _ => .ret .sendError) fun _ =>
      recorded_explained grantSession_explained

theorem refreshToken_explained : (refreshToken cfg req id).During T (Explained T) := by
  refine .ite (fun _ => ?_) fun _ => .skip fun tenants => ?_
  · exact .skip fun key => .ite (fun _ => .ret .sendError) fun _ => .skip fun tenants =>
      .ite (fun _ => .skip fun _ => .ret .unauthorized) fun _ =>
      recorded_explained grantKeySession_explained
  · split
    · exact .skip fun _ => .ret .unauthorized
    · exact recorded_explained grantSession_explained

theorem ssoHandoff_explained : (ssoHandoff cfg req id).During T (Explained T) :=
  .ite (fun _ => .skip fun _ => .ret .sendError) fun _ => .skip fun _ => .skip fun _ => .skip fun _ =>
    .ret (.served nofun)

theorem ssoRedeem_explained {form : Option (Option Jwt)} :
    (ssoRedeem cfg req form).During T (Explained T) := by
  unfold ssoRedeem
  split
  · exact .ret .sendError
  · exact .ret .sendOAuthError
  refine .skip fun now => ?_
  split
  · exact .ret .sendOAuthError
  · exact .ite (fun _ => .ret .sendOAuthError) fun _ => .skip fun _ =>
      .ite (fun _ => .ret .sendOAuthError) fun _ => .ite (fun _ => .ret .sendError) fun _ =>
      recorded_explained grantSession_explained

theorem authExchange_explained {form : Option (String × String)} :
    (authExchange P cfg req form).During T (Explained T) := by
  refine .ite (fun _ => .ret .sendError) fun _ => ?_
  split
  · exact .ret .sendError
  refine .ite (fun _ => .ret .sendError) fun _ => .ite (fun _ => .ret .sendOAuthError) fun _ =>
    .ite (fun _ => .skip fun _ => .ret .sendOAuthError) fun _ => .skip fun r => ?_
  unfold acceptAssertion
  split
  · exact .skip fun _ => .ret .sendOAuthError
  refine .skip fun _ => .skip fun _ => .ite (fun _ => .skip fun _ => .ret .sendOAuthError) fun _ =>
    .ite (fun _ => ?_) fun _ => .ite (fun _ => .ret .sendOAuthError) fun _ => .skip fun tenants => ?_
  · exact .ite (fun _ => .ret .sendOAuthError) fun _ => .ite (fun _ => .ret .sendOAuthError) fun _ =>
      recorded_explained (.skip fun _ => .ret (.served nofun))
  · dsimp only
    split
    · exact .skip fun _ => .ret .sendOAuthError
    · exact recorded_explained grantSession_explained

theorem verifiedIdentity_explained {provider accessToken idToken nonce : String} {b : Bool} :
    (verifiedIdentity provider accessToken idToken nonce b).During T fun r =>
      ∀ resp, r = .error resp → Explained T resp := by
  refine .ite (fun _ => .skip fun u => ?_) fun _ => .ite (fun _ => error_explained .sendError) fun _ =>
    .skip fun vid => ?_
  · split
    · exact error_explained .sendError
    · exact .ret fun _ h => nomatch h
  · split
    · exact error_explained .sendError
    · refine .ite (fun _ => .ret fun _ h => nomatch h) fun _ => .skip fun u => ?_
      split <;> exact .ret fun _ h => nomatch h

theorem oauthCallback_explained {provider code state idpError : String} :
    (oauthCallback cfg req provider code state idpError).During T (Explained T) := by
  refine .ite (fun _ => .ret .sendError) fun _ => .skip fun st => ?_
  split
  · exact .ret .sendError
  refine .ite (fun _ => .ret .sendError) fun _ => .ite (fun _ => .ret .sendError) fun _ => ?_
  split
  · exact .ret .sendError
  refine .skip fun tokens => ?_
  split
  · exact .ret .sendError
  refine .bind fun tr r htr hr => ?_
  split
  · exact .ret (verifiedIdentity_explained tr _ htr hr _ rfl)
  · exact .ite (fun _ => .ret .sendError) fun _ => .skip fun info =>
      .ite (fun _ => .skip fun _ => .ret .sendError) fun _ => recorded_explained <|
      .skip fun _ => .skip fun _ => .ret (.served nofun)

theorem revokeToken_explained : (revokeToken cfg req).During T (Explained T) := by
  unfold revokeToken
  split
  · refine .skip fun now => ?_
    split
    · exact .ret (.served nofun)
    · exact .skip fun _ => .skip fun _ => .skip fun _ => .ite (fun _ => .ret .sendOAuthError) fun _ =>
        .ret (.served nofun)
  · exact .ret (.served nofun)

theorem playbackTicket_explained {uid : String} :
    (playbackTicket cfg id uid).During T (Explained T) :=
  .skip fun _ => .ite (fun _ => .ret .sendError) fun _ => .ite (fun _ => .ret .sendError) fun _ =>
    .skip fun _ => .ret (.served nofun)

/-- A route whose answer is the core's is no refusal. -/
theorem core_explained {op : Op} {auth : AuthContext} :
    (perform op >>= fun _ => pure { status := 200, body := .core auth } : Bridge Response).During T
      (Explained T) :=
  .skip fun _ => .ret (.served nofun)

theorem getContent_explained {uid : String} {ticket : Option Jwt} :
    (getContent cfg req uid ticket).During T (Explained T) := by
  have hgated : (gated cfg req forward).During T (Explained T) := gated_explained fun _ => core_explained
  unfold getContent
  split
  · refine .skip fun o => ?_
    split
    · exact core_explained
    · exact hgated
  · exact hgated

/-- **A refusal has its reason**, whichever the endpoint. -/
theorem serve_explained (rq : ApiRequest) : (serve P cfg rq).During T (Explained T) := by
  cases rq with
  | issueToken req => exact issueToken_explained
  | revokeToken req => exact revokeToken_explained
  | authExchange req form => exact authExchange_explained
  | ssoRedeem req form => exact ssoRedeem_explained
  | verifyMfa req mfaToken action method code => exact verifyMfa_explained
  | oauthCallback req provider code state idpError => exact oauthCallback_explained
  | refreshToken req => exact gated_explained fun id => refreshToken_explained
  | ssoHandoff req => exact gated_explained fun id => ssoHandoff_explained
  | downloadTicket req uid => exact gated_explained fun id => .skip fun _ => .ret (.served nofun)
  | playbackTicket req uid => exact gated_explained fun id => playbackTicket_explained
  | getContent req uid ticket => exact getContent_explained
  | resource req => exact gated_explained fun id => core_explained
  | checkPerm req query => exact gated_explained fun id => core_explained

end Endpoints

/-! ### How old the answer behind a refusal is -/

section Age

variable {P : Libraries} {cfg : Config} {inst : ℕ → ℕ} {w₀ : World} {ms : List (Move ApiRequest Weather)}
  {τ : ℕ} {n : ℤ} {tenant : String}

/-- What was seen after a reading was seen at a clock no less. -/
theorem step_after_reading {later earlier : List (Step World Op.Ans)} {y : Step World Op.Ans} {m : ℤ}
    (hlog : (requests P cfg inst w₀ ms).log = later ++ y :: earlier)
    (h : ⟨.time, m⟩ ∈ trace y.thread earlier) : m ≤ y.before.clock := by
  obtain ⟨x, hx, -, hxe⟩ := (mem_trace y.thread _ earlier).mp h
  have hclock : m = x.before.clock := step_time (serve P cfg) w₀ (by rw [hlog]; simp [hx]) hxe
  rw [hclock]
  exact clock_ge (serve P cfg) w₀ hlog hx

/-- A reply of the registry to instance `i`, later than `m`. -/
def RegistrySaid (inst : ℕ → ℕ) (i : ℕ) (tenant : String) (reply : Option TenantStateReply) (m : ℤ)
    (l : List (Step World Op.Ans)) : Prop :=
  ∃ y ∈ l, inst y.thread = i ∧ y.event = ⟨.getTenantState tenant, reply⟩ ∧ m < y.before.clock

/-- A reply of `ldap_manager` to instance `i` about the second factor, later than `m`. -/
def ManagerSaid (inst : ℕ → ℕ) (i : ℕ) (tenant : String) (r : HttpResult RequiredBody) (m : ℤ)
    (l : List (Step World Op.Ans)) : Prop :=
  ∃ y ∈ l, inst y.thread = i ∧ (∃ user, y.event = ⟨.postMfaRequired user tenant, r⟩) ∧
    m < y.before.clock

/-- Whatever the gate answers, the registry answered it within the lifetime. -/
theorem relies_registrySaid (h₀ : ∀ i, w₀.tenants i = ∅) {v : Admission}
    (h : (gateCache cfg.denylist inst).Relies tenant v n (trace τ (requests P cfg inst w₀ ms).log)) :
    ∃ reply, v = admissionOf reply ∧ RegistrySaid inst (inst τ) tenant reply
      (n - if v.admits then 60 else 10) (requests P cfg inst w₀ ms).log := by
  have hlife : 0 < (gateCache cfg.denylist inst).life v := by
    show (0 : ℤ) < if v.admits then 60 else 10
    split <;> decide
  obtain ⟨later, y, earlier, m, hlog, hsite, ⟨reply, hy, hv⟩, hm, hage⟩ :=
    (gateCache cfg.denylist inst).relies_recent (serve P cfg) w₀ serve_gateStamps
      (fun i key => by simp [gateCache, h₀ i]) trivial hlife h
  refine ⟨reply, hv, y, by rw [hlog]; simp, hsite, hy, ?_⟩
  exact lt_of_lt_of_le hage (step_after_reading hlog hm)

/-- Whatever is answered about the second factor, `ldap_manager` answered it within
the last thirty seconds. -/
theorem relies_managerSaid (h₀ : ∀ i, w₀.requires i = ∅) {v : Bool}
    (h : (mandateCache cfg.denylist inst).Relies tenant v n (trace τ (requests P cfg inst w₀ ms).log)) :
    ∃ r, v = ((readMfaRequired r).map (·.tenantRequires)).getD true ∧
      ManagerSaid inst (inst τ) tenant r (n - 30) (requests P cfg inst w₀ ms).log := by
  have hlife : 0 < (mandateCache cfg.denylist inst).life v := show (0 : ℤ) < 30 by decide
  obtain ⟨later, y, earlier, m, hlog, hsite, ⟨user, r, hy, hv⟩, hm, hage⟩ :=
    (mandateCache cfg.denylist inst).relies_recent (serve P cfg) w₀ serve_mandateStamps
      (fun i key => by simp [mandateCache, requiresStamps, h₀ i]) trivial hlife h
  refine ⟨r, hv, y, by rw [hlog]; simp, hsite, ⟨user, hy⟩, ?_⟩
  exact lt_of_lt_of_le hage (step_after_reading hlog hm)

/-- **A refusal is no older than its cache allows.** In every run, a request that
was refused for the state of a tenant was told the code and the reason of a reply
that the registry gave its own instance after `n - 10`, where `n` is a reading of
the request's; and one that was asked for a second factor had its instance told so
by `ldap_manager`, or told nothing that can be read, after `n - 30`. -/
theorem refusals_recent (htenants : ∀ i, w₀.tenants i = ∅) (hrequires : ∀ i, w₀.requires i = ∅)
    {rq : ApiRequest} {resp : Response}
    (hdone : (requests P cfg inst w₀ ms).job τ = some (rq, .ret resp)) :
    (∀ code reason, resp = tenantRefused code reason → ∃ n tenant reply,
      ⟨.time, n⟩ ∈ trace τ (requests P cfg inst w₀ ms).log ∧
      admissionOf reply = ⟨false, code, reason⟩ ∧
      RegistrySaid inst (inst τ) tenant reply (n - 10) (requests P cfg inst w₀ ms).log) ∧
    ∀ tenant, resp = secondFactorRequired tenant → ∃ n r,
      ⟨.time, n⟩ ∈ trace τ (requests P cfg inst w₀ ms).log ∧ ¬ Exempting r ∧
      ManagerSaid inst (inst τ) tenant r (n - 30) (requests P cfg inst w₀ ms).log := by
  have hyields : (serve P cfg rq).Yields (trace τ (requests P cfg inst w₀ ms).log) resp :=
    Pool.run_reaches_some _ (serve P cfg) w₀ hdone
  have hexplained := (serve_explained rq).of_yields hyields
  refine ⟨fun code reason h => ?_, fun tenant h => ?_⟩
  · obtain ⟨tenant, tr, hne, htr, hv⟩ := hexplained.refused code reason h
    obtain ⟨n, hn, hrelies⟩ : ∃ n, ⟨.time, n⟩ ∈ trace τ (requests P cfg inst w₀ ms).log ∧
        (gateCache cfg.denylist inst).Relies tenant ⟨false, code, reason⟩ n _ :=
      tenantAdmits_relies hv hne htr
    obtain ⟨reply, hreply, hsaid⟩ := relies_registrySaid htenants hrelies
    exact ⟨n, tenant, reply, hn, hreply.symm, hsaid⟩
  · obtain ⟨user, tr, htr, hv⟩ := hexplained.demanded tenant h
    obtain ⟨n, hn, hrelies⟩ : ∃ n, ⟨.time, n⟩ ∈ trace τ (requests P cfg inst w₀ ms).log ∧
        (mandateCache cfg.denylist inst).Relies tenant true n _ := tenantRequires2fa_relies hv htr
    obtain ⟨r, hr, hsaid⟩ := relies_managerSaid hrequires hrelies
    refine ⟨n, r, hn, ?_, hsaid⟩
    rintro ⟨a, ha, hfalse⟩
    rw [ha] at hr
    simp [hfalse] at hr

end Age

/-- A session is refused while its tenant is suspended, and again nine seconds later,
when the tenant is live. -/
def refusedTwice : List (Move ApiRequest Weather) :=
  List.replicate 10 (.exec 1 ⟨sampleReply "live", false⟩) ++
    .spawn 1 (.resource boundaryBearer) :: .tick 9 ::
      (List.replicate 10 (.exec 0 ⟨sampleReply "suspended", false⟩) ++
        [.spawn 0 (.resource boundaryBearer)])

theorem refusedTwice_recent : ∃ n tenant reply,
    ⟨.time, n⟩ ∈ trace 1 (requests .refusing {} (fun _ => 0) {} refusedTwice).log ∧
    admissionOf reply = ⟨false, "tenant_suspended", "this tenant is suspended"⟩ ∧
    RegistrySaid (fun _ => 0) 0 tenant reply (n - 10)
      (requests .refusing {} (fun _ => 0) {} refusedTwice).log := by
  obtain ⟨resp, hjob, hresp⟩ : ∃ resp, (requests .refusing {} (fun _ => 0) {} refusedTwice).job 1 =
      some (.resource boundaryBearer, .ret resp) ∧
        resp = tenantRefused "tenant_suspended" "this tenant is suspended" :=
    ⟨_, rfl, by decide +kernel⟩
  exact (refusals_recent (fun _ => rfl) (fun _ => rfl) hjob).1 _ _ hresp

end HttpBridge
