/-
# What a request can get

Everything an endpoint can answer, with what was found on the way: one case of
`Outcome` for each way to a session, a hand-off code, a ticket, the token of a
pending second factor or a call to the core, and the cases that hand out
nothing. A result about what the proxy issues is a case analysis of `Outcome`
and need not look into a handler again.

Key definitions: `Outcome`, `TicketPassed`, `Exchange`, `History`.
Key theorems: `serve_outcome`, `Outcome.session_cases`.
-/
import HttpBridge.Endpoints

namespace HttpBridge

open Interact TokenDenylist

/-- A login by password got as far as its tenant. -/
structure LoggedIn (cfg : Config) (req : Request) (T : Trace) (id : AuthIdentity)
    (tenant : String) : Prop where
  noKey : serviceKeyCredentials req.authorization = none
  bound : ∃ user pass info, PasswordBound cfg req T user pass info ∧
    id = basicIdentity cfg req user info
  member : ∃ tenants, ⟨.getTenantsForUser id.user, tenants⟩ ∈ T ∧
    memberTenant tenants id.tenant = some tenant

/-- No second factor is asked of the user. -/
def SingleFactor (cfg : Config) (T : Trace) (user tenant : String) : Prop :=
  cfg.mfaEnabled = false ∨ ∃ r answer, ⟨.postMfaRequired user tenant, r⟩ ∈ T ∧
    readMfaRequired r = some answer ∧ answer.required = false

/-- A second factor of the user was verified or enrolled. -/
def PassedSecondFactor (T : Trace) (user : String) : Prop :=
  (∃ tenant method code ip r, ⟨.postMfaVerify user tenant method code ip, r⟩ ∈ T ∧ r.ok = true ∧
    r.status = 200 ∧ r.body = some (some true)) ∨
  ∃ tenant code ip r o, ⟨.postMfaEnrollComplete user tenant code ip, r⟩ ∈ T ∧ r.ok = true ∧
    r.status = 200 ∧ r.body = some o ∧ o.ok = some true

/-- `ldap_manager` knew the key as the user's, of this generation, and the
directory listed the tenant for the user. -/
structure KeyAccepted (T : Trace) (mode : KeyCheck) (keyId tenant user generation : String) :
    Prop where
  answered : ∃ ip r, ⟨.postServiceCred mode keyId tenant ip, r⟩ ∈ T ∧
    (readServiceCred r).verdict = .valid ∧ (readServiceCred r).uid = user ∧
    (readServiceCred r).generation = generation
  member : ∃ tenants, ⟨.getTenantsForUser user, tenants⟩ ∈ T ∧ tenant ∈ tenants

/-- A second factor was asked of the user, who may have to enroll first. -/
def Challenged (T : Trace) (user tenant : String) (mustEnroll : Bool) : Prop :=
  ∃ r answer, ⟨.postMfaRequired user tenant, r⟩ ∈ T ∧ readMfaRequired r = some answer ∧
    answer.required = true ∧ answer.mustEnroll = mustEnroll

/-- What a request may be answered in the course of `T`. -/
inductive Outcome (cfg : Config) (T : Trace) : ApiRequest → Body → Prop
  | error {rq : ApiRequest} (fields : List (String × String)) : Outcome cfg T rq (.error fields)
  | empty {rq : ApiRequest} : Outcome cfg T rq .empty
  | sent {rq : ApiRequest} (sent : Bool) : Outcome cfg T rq (.sent sent)
  | setup {rq : ApiRequest} (blob : String) : Outcome cfg T rq (.setup blob)
  | keyLogin {req : Request} {keyId secret user : String} {c : Claims} {m : RoleMap}
      (credentials : serviceKeyCredentials req.authorization = some (keyId, secret))
      (admitted : Admitted (requestTenant cfg req) T)
      (granted : Granted cfg T user (requestTenant cfg req) ["svc"] keyId c m)
      (recorded : Recorded cfg T user) (accepted : ∃ generation, c.skgen = some generation ∧
        KeyAccepted T (.verify secret) keyId (requestTenant cfg req) user generation) :
      Outcome cfg T (.issueToken req) (.session "token" c cfg.tokenTtl none)
  | login {req : Request} {id : AuthIdentity} {tenant : String} {c : Claims} {m : RoleMap}
      (loggedIn : LoggedIn cfg req T id tenant) (factor : SingleFactor cfg T id.user tenant)
      (granted : Granted cfg T id.user tenant ["pwd"] "" c m) (recorded : Recorded cfg T id.user) :
      Outcome cfg T (.issueToken req) (.session "token" c cfg.tokenTtl none)
  | challenge {req : Request} {id : AuthIdentity} {tenant jti : String} {now : ℤ}
      {mustEnroll : Bool} {methods : List String} (loggedIn : LoggedIn cfg req T id tenant)
      (asked : Challenged T id.user tenant mustEnroll) :
      Outcome cfg T (.issueToken req) (.mfaChallenge
        (mfaPendingClaims cfg.jwtIssuer id.user tenant req.clientIp jti now cfg.mfaChallengeTtl)
        cfg.mfaChallengeTtl mustEnroll methods)
  | secondFactor {req : Request} {p c : Claims} {action method code : String} {amr : List String}
      {recovery : Option String} {m : RoleMap} (pending : p.mfaPending = some true)
      (passed : PassedSecondFactor T (optValue p.sub))
      (granted : Granted cfg T (optValue p.sub) (optValue p.tenant) amr "" c m)
      (recorded : Recorded cfg T (optValue p.sub)) :
      Outcome cfg T (.verifyMfa req (some (.signed p)) action method code)
        (.session "token" c cfg.tokenTtl recovery)
  | keyRefresh {req : Request} {id : AuthIdentity} {c : Claims} {m : RoleMap}
      (passed : Passed cfg req T id) (key : id.serviceKeyId ≠ "")
      (granted : Granted cfg T id.user id.tenant ["svc"] id.serviceKeyId c m)
      (recorded : Recorded cfg T id.user) (generation : c.skgen = some id.serviceKeyGen)
      (accepted : KeyAccepted T .status id.serviceKeyId id.tenant id.user id.serviceKeyGen) :
      Outcome cfg T (.refreshToken req) (.session "token" c cfg.tokenTtl none)
  | refresh {req : Request} {id : AuthIdentity} {tenants : List String} {tenant : String}
      {c : Claims} {m : RoleMap} (passed : Passed cfg req T id)
      (noKey : id.serviceKeyId = "") (asked : ⟨.getTenantsForUser id.user, tenants⟩ ∈ T)
      (member : memberTenant tenants id.tenant = some tenant)
      (granted : Granted cfg T id.user tenant (if id.amr.isEmpty then ["pwd"] else id.amr) "" c m)
      (recorded : Recorded cfg T id.user) :
      Outcome cfg T (.refreshToken req) (.session "token" c cfg.tokenTtl none)
  | handoff {req : Request} {id : AuthIdentity} {jti : String} {now : ℤ}
      (passed : Passed cfg req T id) (named : ⟨.random, jti⟩ ∈ T) (noKey : id.serviceKeyId = "") :
      Outcome cfg T (.ssoHandoff req) (.handoffCode
        (buildHandoffClaims cfg.jwtIssuer id.user id.tenant jti now cfg.ssoHandoffTtl id.amr)
        cfg.ssoHandoffTtl)
  | redeem {req : Request} {p c : Claims} {m : RoleMap} (code : optValue p.sso = "handoff")
      (granted : Granted cfg T (optValue p.sub) (optValue p.tenant) ("sso" :: p.amr.getD []) "" c m)
      (recorded : Recorded cfg T (optValue p.sub)) :
      Outcome cfg T (.ssoRedeem req (some (some (.signed p))))
        (.session "access_token" c cfg.tokenTtl none)
  | delegated {req : Request} {form : Option (String × String)} {user tenant : String}
      {amr : List String} {c : Claims} {m : RoleMap}
      (granted : Granted cfg T user tenant amr "" c m) (recorded : Recorded cfg T user) :
      Outcome cfg T (.authExchange req form) (.session "access_token" c cfg.tokenTtl none)
  | service {req : Request} {form : Option (String × String)} {user tenant aip scope jti : String}
      {now : ℤ} (recorded : Recorded cfg T user) :
      Outcome cfg T (.authExchange req form) (.session "access_token"
        (buildServiceClaims cfg.jwtIssuer user tenant cfg.integrationServiceRoles aip scope jti now
          cfg.tokenTtl) cfg.tokenTtl none)
  | oauth {req : Request} {provider code state idpError user tenant returnTo : String} {c : Claims}
      {m : RoleMap} (granted : Granted cfg T user tenant ["oauth"] "" c m)
      (recorded : Recorded cfg T user) :
      Outcome cfg T (.oauthCallback req provider code state idpError)
        (.redirect returnTo c cfg.tokenTtl)
  | downloadTicket {req : Request} {uid : String} {id : AuthIdentity} {now : ℤ}
      (passed : Passed cfg req T id) : Outcome cfg T (.downloadTicket req uid) (.ticket
        (buildTicketClaims cfg.jwtIssuer id.user id.tenant id.roles uid "download" id.sessionJti ""
          now cfg.downloadTicketTtl) cfg.downloadTicketTtl)
  | playbackTicket {req : Request} {uid mediaType : String} {id : AuthIdentity} {now : ℤ}
      (passed : Passed cfg req T id) : Outcome cfg T (.playbackTicket req uid) (.ticket
        (buildTicketClaims cfg.jwtIssuer id.user id.tenant id.roles uid "playback" id.sessionJti
          mediaType now (clampPlaybackTtl cfg.playbackTicketTtl))
        (clampPlaybackTtl cfg.playbackTicketTtl))
  | content {req : Request} {uid : String} {ticket : Option Jwt} {id : AuthIdentity}
      (passed : Passed cfg req T id) :
      Outcome cfg T (.getContent req uid ticket) (.core (fillAuth id))
  | ticketContent {req : Request} {uid : String} {t : Jwt} {id : AuthIdentity}
      (passed : ∃ tr, tr <:+: T ∧ (identityFromDownloadTicket cfg req uid t).Yields tr (some id)) :
      Outcome cfg T (.getContent req uid (some t)) (.core (fillAuth id))
  | resource {req : Request} {id : AuthIdentity} (passed : Passed cfg req T id) :
      Outcome cfg T (.resource req) (.core (fillAuth id))
  | checked {req : Request} {query : List (String × String)} {id : AuthIdentity}
      (passed : Passed cfg req T id) :
      Outcome cfg T (.checkPerm req query) (.core (checkedAs id query))

/-! ### Endpoint by endpoint -/

section Endpoints

variable {P : Libraries} {cfg : Config} {req : Request} {T : Trace} {id : AuthIdentity}

theorem mfaVerify_yields_true {user tenant method code ip : String} {tr : Trace}
    (h : (mfaVerify user tenant method code ip).Yields tr true) :
    ∃ r, tr = [⟨.postMfaVerify user tenant method code ip, r⟩] ∧ r.ok = true ∧ r.status = 200 ∧
      r.body = some (some true) := by
  simp only [mfaVerify, perform, Prog.yields_perform_bind, Prog.pure_eq_ret, Prog.ret_yields] at h
  obtain ⟨⟨ok, status, body⟩, _, rfl, rfl, h⟩ := h
  simp only [Eq.comm (a := true), Bool.and_eq_true, decide_eq_true_eq] at h
  rcases body with _ | _ | b <;> simp at h
  exact ⟨_, rfl, h.1.1, h.1.2, by rw [h.2]⟩

theorem mfaEnrollComplete_yields_some {user tenant code ip recovery : String} {tr : Trace}
    (h : (mfaEnrollComplete user tenant code ip).Yields tr (some recovery)) :
    ∃ r o, tr = [⟨.postMfaEnrollComplete user tenant code ip, r⟩] ∧ r.ok = true ∧ r.status = 200 ∧
      r.body = some o ∧ o.ok = some true := by
  simp only [mfaEnrollComplete, perform, Prog.yields_perform_bind] at h
  obtain ⟨r, tr', rfl, h⟩ := h
  split_ifs at h with hr
  · simp at h
  · simp only [Prog.pure_eq_ret, Prog.ret_yields] at h
    obtain ⟨rfl, h⟩ := h
    obtain ⟨o, ho, -⟩ := Option.map_eq_some_iff.mp h.symm
    obtain ⟨hbody, hok⟩ := Option.filter_eq_some_iff.mp ho
    simp only [Bool.or_eq_true, not_or, Bool.not_eq_true', Bool.not_eq_false, ne_eq,
      decide_eq_true_eq, Decidable.not_not] at hr
    refine ⟨r, o, rfl, hr.1, hr.2, hbody, ?_⟩
    cases hoo : o.ok with
    | none => simp [hoo] at hok
    | some b => simpa [hoo] using hok

theorem mintTicket_yields {uid typ mediaType : String} {ttl : ℤ} {tr : Trace} {c : Claims}
    (h : (mintTicket cfg id uid typ ttl mediaType).Yields tr c) :
    ∃ now, c = buildTicketClaims cfg.jwtIssuer id.user id.tenant id.roles uid typ id.sessionJti
      mediaType now ttl := by
  simp only [mintTicket, perform, Prog.yields_perform_bind, Prog.pure_eq_ret, Prog.ret_yields] at h
  obtain ⟨now, _, -, -, rfl⟩ := h
  exact ⟨now, rfl⟩

theorem downloadTicket_carries {uid : String} {t : Claims} {tr : Trace} {resp : Response}
    (h : (downloadTicket cfg id uid).Yields tr resp) (ht : resp.body.ticket? = some t) :
    ∃ now, t = buildTicketClaims cfg.jwtIssuer id.user id.tenant id.roles uid "download"
      id.sessionJti "" now cfg.downloadTicketTtl := by
  obtain ⟨t', tr₁, tr₂, -, hmint, hret⟩ := (Prog.yields_bind ..).mp h
  obtain ⟨-, rfl⟩ := (Prog.ret_yields ..).mp hret
  obtain ⟨now, rfl⟩ := mintTicket_yields hmint
  exact ⟨now, (Option.some.inj ht).symm⟩

theorem playbackTicket_carries {uid : String} {t : Claims} {tr : Trace} {resp : Response}
    (h : (playbackTicket cfg id uid).Yields tr resp) (ht : resp.body.ticket? = some t) :
    ∃ mediaType now, t = buildTicketClaims cfg.jwtIssuer id.user id.tenant id.roles uid "playback"
      id.sessionJti mediaType now (clampPlaybackTtl cfg.playbackTicketTtl) := by
  suffices hall : (playbackTicket cfg id uid).During tr fun resp => ∀ t,
      resp.body.ticket? = some t → ∃ mediaType now,
        t = buildTicketClaims cfg.jwtIssuer id.user id.tenant id.roles uid "playback" id.sessionJti
          mediaType now (clampPlaybackTtl cfg.playbackTicketTtl) from hall.of_yields h t ht
  refine .skip fun st => .ite (fun _ => .ret fun _ h => nomatch h) fun _ =>
    .ite (fun _ => .ret fun _ h => nomatch h) fun _ => .bind fun _ _ _ hmint => .ret fun t ht => ?_
  obtain ⟨now, rfl⟩ := mintTicket_yields hmint
  exact ⟨_, now, (Option.some.inj ht).symm⟩

/-- A ticket of either kind carries the identity it is minted for. -/
theorem ticket_carries {uid : String} {t : Claims} {tr : Trace} {resp : Response}
    (h : (downloadTicket cfg id uid).Yields tr resp ∨ (playbackTicket cfg id uid).Yields tr resp)
    (ht : resp.body.ticket? = some t) : ∃ typ mediaType now ttl,
      t = buildTicketClaims cfg.jwtIssuer id.user id.tenant id.roles uid typ id.sessionJti mediaType
        now ttl := by
  rcases h with h | h
  · obtain ⟨now, rfl⟩ := downloadTicket_carries h ht
    exact ⟨_, _, now, _, rfl⟩
  · obtain ⟨mediaType, now, rfl⟩ := playbackTicket_carries h ht
    exact ⟨_, mediaType, now, _, rfl⟩

theorem serviceCredCall_yields {mode : KeyCheck} {keyId tenant ip : String} {key : KeyAnswer}
    {tr : Trace} (h : (serviceCredCall cfg mode keyId tenant ip).Yields tr key)
    (hvalid : key.verdict = .valid) :
    ∃ r, ⟨.postServiceCred mode keyId tenant ip, r⟩ ∈ tr ∧ key = readServiceCred r := by
  unfold serviceCredCall at h
  split_ifs at h
  · obtain ⟨-, rfl⟩ := (Prog.ret_yields ..).mp h
    cases hvalid
  · simp only [perform, Prog.yields_perform_bind, Prog.pure_eq_ret, Prog.ret_yields] at h
    obtain ⟨r, _, rfl, -, rfl⟩ := h
    exact ⟨r, .head _, rfl⟩

theorem grantKeySession_during {user tenant keyId generation label : String} {Q : Response → Prop}
    (hkey : keyId ≠ "") (h : ∀ c m, Granted cfg T user tenant ["svc"] keyId c m →
      c.skgen = some generation → Q { status := 200, body := .session "token" c cfg.tokenTtl none }) :
    (grantKeySession cfg user tenant keyId generation label).During T Q := by
  refine .bind fun tr c htr hc => .ret ?_
  obtain ⟨m, now, jti, rfl, rfl⟩ := mintJwt_yields.mp hc
  refine h _ m ⟨htr.subset (by simp), now, jti, _, _, _, htr.subset (by simp), rfl⟩ ?_
  simp [sessionClaims, hkey]

theorem issueToken_during : (issueToken cfg req).During T fun resp =>
    Outcome cfg T (.issueToken req) resp.body := by
  unfold issueToken
  split
  case h_1 keyId secret hkey =>
    refine .bind fun tr v htr hv => .ite (fun _ => .skip fun _ => .ret (.error _)) fun ha =>
      .ite (fun _ => .skip fun _ => .ret (.error _)) fun _ => .bind fun tr' key htr' hcall => ?_
    split
    · exact .ret (.error _)
    · exact .skip fun _ => .ret (.error _)
    case h_3 hvalid =>
      refine .perform fun tenants htenants => .ite (fun _ => .skip fun _ => .ret (.error _)) fun hm =>
        recorded_during (.ret (.error _)) fun hrec =>
        grantKeySession_during (keyId_ne_empty hkey) fun c m hg hgen =>
        .keyLogin hkey ⟨tr, v, htr, hv, by simpa using ha⟩ hg hrec ⟨_, hgen, ?_⟩
      obtain ⟨r, hr, rfl⟩ := serviceCredCall_yields hcall hvalid
      exact ⟨⟨_, r, htr'.subset hr, hvalid, rfl, rfl⟩, tenants, htenants, by simpa using hm⟩
  case h_2 hkey =>
    refine .bind fun tr ⟨ok, id⟩ htr hbasic => .ite (fun _ => .ite
      (fun _ => .skip fun _ => .ret (.error _)) fun _ => .skip fun _ => .ret (.error _)) fun hok => ?_
    have hbound := authenticateBasic_during tr _ htr hbasic (by simpa using hok)
    refine .skip fun v => .ite (fun _ => .skip fun _ => .ret (.error _)) fun _ =>
      .perform fun tenants htenants => ?_
    split
    · exact .skip fun _ => .ret (.error _)
    case h_2 tenant hmember =>
      have hlogged : LoggedIn cfg req T id tenant := ⟨hkey, hbound, tenants, htenants, hmember⟩
      refine recorded_during (.ret (.error _)) fun hrec => .ite (fun hmfa => ?_) fun _ =>
        .bind fun tr' answer htr' hanswer => ?_
      · exact grantSession_during fun c m hg => .login hlogged (.inl (by simpa using hmfa)) hg hrec
      · split
        · exact .ret (.error _)
        case h_2 answer =>
          obtain ⟨r, rfl, hr⟩ := mfaRequired_yields.mp hanswer
          have hasked := htr'.subset (List.mem_singleton_self _)
          refine .ite (fun hreq => .bind fun tr'' p _ hp => .skip fun _ => .ret ?_) fun hfactor =>
            grantSession_during fun c m hg => .login hlogged
              (.inr ⟨r, answer, hasked, hr.symm, by simpa using hfactor⟩) hg hrec
          simp only [mintMfaPending, perform, Prog.yields_perform_bind, Prog.pure_eq_ret,
            Prog.ret_yields] at hp
          obtain ⟨now, _, -, jti, _, -, -, rfl⟩ := hp
          exact .challenge hlogged ⟨r, answer, hasked, hr.symm, hreq, rfl⟩

theorem verifyMfa_during {mfaToken : Option Jwt} {action method code : String} :
    (verifyMfa cfg req mfaToken action method code).During T fun resp =>
      Outcome cfg T (.verifyMfa req mfaToken action method code) resp.body := by
  refine .skip fun now => ?_
  split
  · exact .ret (.error _)
  case h_2 p hp =>
    obtain ⟨rfl, -, hpend⟩ := pendingClaims_eq_some.mp hp
    refine .ite (fun _ => .skip fun _ => .ret (.error _)) fun _ => .ite (fun _ => ?_) fun _ =>
      .ite (fun _ => ?_) fun _ => .ite (fun _ => ?_) fun _ => ?_
    · exact .ite (fun _ => .ret (.sent _)) fun _ => .skip fun _ => .ret (.sent _)
    · exact .skip fun _ => .ite (fun _ => .ret (.error _)) fun _ => .ret (.setup _)
    · refine .bind fun tr codes htr hcodes => ?_
      split
      · exact .skip fun _ => .ret (.error _)
      case h_2 recovery =>
        obtain ⟨r, o, he, hok, hstatus, hbody, ho⟩ := mfaEnrollComplete_yields_some hcodes
        exact recorded_during (.ret (.error _)) fun hrec => grantSession_during
          fun c m hg => .secondFactor hpend
            (.inr ⟨_, _, _, r, o, htr.subset (by simp [he]), hok, hstatus, hbody, ho⟩) hg hrec
    · refine .bind fun tr ok htr hok => .ite (fun _ => .skip fun _ => .ret (.error _)) fun hyes =>
        recorded_during (.ret (.error _)) fun hrec => grantSession_during
          fun c m hg => .secondFactor hpend (.inl ?_) hg hrec
      obtain rfl : ok = true := by simpa using hyes
      obtain ⟨r, he, hr⟩ := mfaVerify_yields_true hok
      exact ⟨_, _, _, _, r, htr.subset (by simp [he]), hr⟩

theorem refreshToken_during (hpassed : Passed cfg req T id) :
    (refreshToken cfg req id).During T fun resp => Outcome cfg T (.refreshToken req) resp.body := by
  refine .ite (fun hkey => ?_) fun hkey => .perform fun tenants htenants => ?_
  · have hne : id.serviceKeyId ≠ "" := by simpa using hkey
    refine .bind fun tr key htr hcall => .ite (fun _ => .ret (.error _)) fun _ =>
      .bind fun tr' tenants htr' htenants => .ite (fun _ => .skip fun _ => .ret (.error _)) fun hmay =>
      recorded_during (.ret (.error _)) fun hrec => grantKeySession_during hne fun c m hg hgen =>
      .keyRefresh hpassed hne hg hrec hgen ?_
    obtain ⟨hvalid, huid, hgeneration, -, hm⟩ := mayRefresh_iff.mp (by simpa using hmay)
    obtain ⟨r, hr, rfl⟩ := serviceCredCall_yields hcall hvalid
    rw [keyTenants, if_pos hvalid, perform, Prog.perform_yields, huid] at htenants
    exact ⟨⟨_, r, htr.subset hr, hvalid, huid, hgeneration⟩, tenants,
      htr'.subset (by rw [htenants]; exact .head _), hm⟩
  · split
    · exact .skip fun _ => .ret (.error _)
    case h_2 tenant hmember =>
      exact recorded_during (.ret (.error _)) fun hrec => grantSession_during
        fun c m hg => .refresh hpassed (by simpa using hkey) htenants hmember hg hrec

theorem ssoHandoff_during (hpassed : Passed cfg req T id) :
    (ssoHandoff cfg req id).During T fun resp => Outcome cfg T (.ssoHandoff req) resp.body :=
  .ite (fun _ => .skip fun _ => .ret (.error _)) fun hkey => .skip fun _ => .perform fun _ hjti =>
    .skip fun _ => .ret (.handoff hpassed hjti (by simpa using hkey))

theorem ssoRedeem_during {form : Option (Option Jwt)} :
    (ssoRedeem cfg req form).During T fun resp => Outcome cfg T (.ssoRedeem req form) resp.body := by
  unfold ssoRedeem
  split
  · exact .ret (.error _)
  · exact .ret (.error _)
  case h_3 code =>
    refine .skip fun now => ?_
    split
    · exact .ret (.error _)
    case h_2 p hp =>
      obtain ⟨rfl, -⟩ := Jwt.verify_eq_some.mp hp
      exact .ite (fun _ => .ret (.error _)) fun hsso => .skip fun _ => .ite (fun _ => .ret (.error _))
        fun _ => .ite (fun _ => .ret (.error _)) fun _ => recorded_during (.ret (.error _)) fun hrec =>
        grantSession_during fun c m hg => .redeem (by simpa using hsso) hg hrec

theorem authExchange_during {form : Option (String × String)} :
    (authExchange P cfg req form).During T fun resp =>
      Outcome cfg T (.authExchange req form) resp.body := by
  refine .ite (fun _ => .ret (.error _)) fun _ => ?_
  split
  · exact .ret (.error _)
  · refine .ite (fun _ => .ret (.error _)) fun _ => .ite (fun _ => .ret (.error _)) fun _ =>
      .ite (fun _ => .skip fun _ => .ret (.error _)) fun _ => .skip fun r => ?_
    unfold acceptAssertion
    split
    · exact .skip fun _ => .ret (.error _)
    · refine .skip fun _ => .skip fun _ => .ite (fun _ => .skip fun _ => .ret (.error _)) fun _ =>
        .ite (fun _ => ?_) fun _ => .ite (fun _ => .ret (.error _)) fun _ => ?_
      · refine .ite (fun _ => .ret (.error _)) fun _ => .ite (fun _ => .ret (.error _)) fun _ =>
          recorded_during (.ret (.error _)) fun hrec => .bind fun tr c _ hc => .ret ?_
        simp only [mintServiceJwt, perform, Prog.yields_perform_bind, Prog.pure_eq_ret,
          Prog.ret_yields] at hc
        obtain ⟨now, _, -, jti, _, -, -, rfl⟩ := hc
        exact .service hrec
      · refine .skip fun tenants => ?_
        dsimp only
        split
        · exact .skip fun _ => .ret (.error _)
        · exact recorded_during (.ret (.error _)) fun hrec => grantSession_during
            fun c m hg => .delegated hg hrec

theorem verifiedIdentity_error {provider accessToken idToken nonce : String} {b : Bool} :
    (verifiedIdentity provider accessToken idToken nonce b).During T fun r =>
      ∀ resp, r = .error resp → ∃ fields, resp.body = .error fields := by
  have herror : ∀ status text, (pure (.error (sendError status text)) :
      Bridge (Except Response VerifiedIdentity)).During T
        fun r => ∀ resp, r = .error resp → ∃ fields, resp.body = .error fields := by
    refine fun status text => .ret ?_
    rintro _ ⟨⟩
    exact ⟨_, rfl⟩
  refine .ite (fun _ => .skip fun u => ?_) fun _ => .ite (fun _ => herror _ _) fun _ =>
    .skip fun vid => ?_
  · split
    · exact herror _ _
    · exact .ret fun _ h => nomatch h
  · split
    · exact herror _ _
    · refine .ite (fun _ => .ret fun _ h => nomatch h) fun _ => .skip fun u => ?_
      split
      · exact .ret fun _ h => nomatch h
      · exact .ret fun _ h => nomatch h

theorem oauthCallback_during {provider code state idpError : String} :
    (oauthCallback cfg req provider code state idpError).During T fun resp =>
      Outcome cfg T (.oauthCallback req provider code state idpError) resp.body := by
  refine .ite (fun _ => .ret (.error _)) fun _ => .skip fun st => ?_
  split
  · exact .ret (.error _)
  refine .ite (fun _ => .ret (.error _)) fun _ => .ite (fun _ => .ret (.error _)) fun _ => ?_
  split
  · exact .ret (.error _)
  refine .skip fun tokens => ?_
  split
  · exact .ret (.error _)
  refine .bind fun tr r htr hr => ?_
  split
  · obtain ⟨fields, hf⟩ := verifiedIdentity_error tr _ htr hr _ rfl
    exact .ret (hf ▸ .error fields)
  · exact .ite (fun _ => .ret (.error _)) fun _ => .skip fun info =>
      .ite (fun _ => .skip fun _ => .ret (.error _)) fun _ => recorded_during (.ret (.error _))
      fun hrec => mintJwt_during fun c m hg => .skip fun _ => .ret (.oauth hg hrec)

theorem revokeToken_during : (revokeToken cfg req).During T fun resp =>
    Outcome cfg T (.revokeToken req) resp.body := by
  unfold revokeToken
  split
  · refine .skip fun now => ?_
    split
    · exact .ret .empty
    · exact .skip fun _ => .skip fun _ => .skip fun _ => .ite (fun _ => .ret (.error _)) fun _ =>
        .ret .empty
  · exact .ret .empty

theorem downloadTicket_during {uid : String} (hpassed : Passed cfg req T id) :
    (downloadTicket cfg id uid).During T fun resp =>
      Outcome cfg T (.downloadTicket req uid) resp.body :=
  .bind fun _ _ _ ht => .ret <| by
    obtain ⟨now, rfl⟩ := mintTicket_yields ht
    exact .downloadTicket hpassed

theorem playbackTicket_during {uid : String} (hpassed : Passed cfg req T id) :
    (playbackTicket cfg id uid).During T fun resp =>
      Outcome cfg T (.playbackTicket req uid) resp.body :=
  .skip fun _ => .ite (fun _ => .ret (.error _)) fun _ => .ite (fun _ => .ret (.error _)) fun _ =>
    .bind fun _ _ _ ht => .ret <| by
      obtain ⟨now, rfl⟩ := mintTicket_yields ht
      exact .playbackTicket hpassed

/-- What a ticket accepted for a file has passed. -/
structure TicketPassed (cfg : Config) (req : Request) (uid : String) (token : Jwt) (T : Trace)
    (id : AuthIdentity) (t : Claims) : Prop where
  signed : token = .signed t
  unexpired : ∃ now, ⟨.time, now⟩ ∈ T ∧ ∀ exp, t.exp = some exp → now < exp
  ticket : checkTicketClaims t uid = .ok
  permitted : optValue t.sid = "" ∨
    ∃ tr, tr <:+: T ∧ (permits cfg.denylist (optValue t.sid)).Yields tr true
  admitted : Admitted (optValue t.tenant) T
  identity : id = ticketIdentity req t

/-- The bearer of a ticket acts with the roles it was minted with. -/
theorem ticketIdentity_roles {issuer user tenant uid typ sid mediaType : String}
    {roles : List String} {now ttl : ℤ} (h : tenant ≠ "") :
    (ticketIdentity req (buildTicketClaims issuer user tenant roles uid typ sid mediaType now
      ttl)).roles = roles := by
  show Claims.rolesIn _ tenant = roles
  rw [Claims.rolesIn, if_neg (by simpa using h)]
  simp [buildTicketClaims]

theorem identityFromDownloadTicket_during {uid : String} {token : Jwt} :
    (identityFromDownloadTicket cfg req uid token).During T fun o => ∀ id, o = some id →
      ∃ t, TicketPassed cfg req uid token T id t := by
  have hnone : (pure none : Bridge (Option AuthIdentity)).During T fun o => ∀ id, o = some id →
      ∃ t, TicketPassed cfg req uid token T id t := .ret fun _ h => nomatch h
  refine .perform fun now hnow => ?_
  split
  · exact hnone
  case h_2 t hv =>
    obtain ⟨hsigned, hexp⟩ := Jwt.verify_eq_some.mp hv
    refine .ite (fun _ => hnone) fun hticket => .bind fun tr permitted htr hp =>
      .ite (fun _ => hnone) fun hok => .bind fun tr' v htr' hv => .ite (fun _ => hnone) fun ha =>
      .ret ?_
    rintro _ ⟨⟩
    refine ⟨t, hsigned, ⟨now, hnow, hexp⟩, by simpa using hticket, ?_, ⟨tr', v, htr', hv, by simpa using ha⟩,
      rfl⟩
    obtain rfl : permitted = true := by simpa using hok
    unfold ticketSessionPermitted at hp
    split_ifs at hp with hsid
    · exact .inl (by simpa using hsid)
    · exact .inr ⟨tr, htr, hp⟩

theorem getContent_during {uid : String} {ticket : Option Jwt} :
    (getContent cfg req uid ticket).During T fun resp =>
      Outcome cfg T (.getContent req uid ticket) resp.body := by
  have hgated : (gated cfg req forward).During T fun resp =>
      Outcome cfg T (.getContent req uid ticket) resp.body :=
    gated_during (fun _ fields hf => hf ▸ .error fields) fun id hpassed =>
      .skip fun _ => .ret (.content hpassed)
  unfold getContent
  split
  · refine .bind fun tr o htr ho => ?_
    split
    · exact .skip fun _ => .ret (.ticketContent ⟨tr, htr, ho⟩)
    · exact hgated
  · exact hgated

/-- **What a request can be answered.** -/
theorem serve_outcome {rq : ApiRequest} {resp : Response} (h : (serve P cfg rq).Yields T resp) :
    Outcome cfg T rq resp.body := by
  suffices hall : (serve P cfg rq).During T fun resp => Outcome cfg T rq resp.body from
    hall.of_yields h
  have herror : ∀ {rq : ApiRequest} (resp : Response) fields, resp.body = .error fields →
      Outcome cfg T rq resp.body := fun _ fields hf => hf ▸ .error fields
  cases rq with
  | issueToken req => exact issueToken_during
  | revokeToken req => exact revokeToken_during
  | authExchange req form => exact authExchange_during
  | ssoRedeem req form => exact ssoRedeem_during
  | verifyMfa req mfaToken action method code => exact verifyMfa_during
  | oauthCallback req provider code state idpError => exact oauthCallback_during
  | refreshToken req => exact gated_during herror fun id => refreshToken_during
  | ssoHandoff req => exact gated_during herror fun id => ssoHandoff_during
  | downloadTicket req uid => exact gated_during herror fun id => downloadTicket_during
  | playbackTicket req uid => exact gated_during herror fun id => playbackTicket_during
  | getContent req uid ticket => exact getContent_during
  | resource req => exact gated_during herror fun id hpassed => .skip fun _ => .ret (.resource hpassed)
  | checkPerm req query =>
    exact gated_during herror fun id hpassed => .skip fun _ => .ret (.checked hpassed)

end Endpoints

/-- A session is minted with the roles the directory gave, or is a service's. -/
theorem Outcome.session_cases {cfg : Config} {T : Trace} {rq : ApiRequest} {b : Body} {c : Claims}
    (h : Outcome cfg T rq b) (hc : b.session? = some c) :
    (∃ user tenant amr keyId m, Granted cfg T user tenant amr keyId c m) ∨
      ∃ user tenant aip scope jti now, c = buildServiceClaims cfg.jwtIssuer user tenant
        cfg.integrationServiceRoles aip scope jti now cfg.tokenTtl := by
  cases h with
  | keyLogin _ _ granted | login _ _ granted | secondFactor _ _ granted | keyRefresh _ _ granted
  | refresh _ _ _ _ granted | redeem _ granted | delegated granted | oauth granted =>
    obtain rfl := Option.some.inj hc
    exact .inl ⟨_, _, _, _, _, granted⟩
  | service =>
    obtain rfl := Option.some.inj hc
    exact .inr ⟨_, _, _, _, _, _, rfl⟩
  | _ => cases hc

/-- A session is answered only once its subject's success is recorded. -/
theorem Outcome.recorded {cfg : Config} {T : Trace} {rq : ApiRequest} {b : Body} {c : Claims}
    (h : Outcome cfg T rq b) (hc : b.session? = some c) :
    ∃ user, c.sub = some user ∧ Recorded cfg T user := by
  cases h with
  | keyLogin _ _ granted recorded | login _ _ granted recorded | secondFactor _ _ granted recorded
  | keyRefresh _ _ granted recorded | refresh _ _ _ _ granted recorded | redeem _ granted recorded
  | delegated granted recorded | oauth granted recorded =>
    obtain rfl := Option.some.inj hc
    exact ⟨_, granted.sub, recorded⟩
  | service recorded =>
    obtain rfl := Option.some.inj hc
    exact ⟨_, rfl, recorded⟩
  | _ => cases hc

/-- A key session has passed no factor but the key. -/
theorem Outcome.key_amr {cfg : Config} {T : Trace} {rq : ApiRequest} {b : Body} {c : Claims}
    (h : Outcome cfg T rq b) (hc : b.session? = some c) :
    optValue c.skid = "" ∨ c.amr = some ["svc"] := by
  cases h with
  | keyLogin _ _ granted | keyRefresh _ _ granted =>
    obtain rfl := Option.some.inj hc
    exact .inr granted.amr_eq
  | login _ _ granted | secondFactor _ _ granted | refresh _ _ _ _ granted | redeem _ granted
  | delegated granted | oauth granted =>
    obtain rfl := Option.some.inj hc
    exact .inl granted.skid_eq
  | service =>
    obtain rfl := Option.some.inj hc
    exact .inl rfl
  | _ => cases hc

/-! ### Exchanges -/

/-- A request that was answered, with what happened on the way. -/
structure Exchange where
  request : ApiRequest
  trace : Trace
  response : Response

/-- The proxy answers the request so. -/
def Exchange.Served (P : Libraries) (cfg : Config) (x : Exchange) : Prop :=
  (serve P cfg x.request).Yields x.trace x.response

/-- What the answer to a request came of. -/
theorem Exchange.Served.outcome {P : Libraries} {cfg : Config} {x : Exchange} {rq : ApiRequest}
    (hx : x.Served P cfg) (hrequest : x.request = rq) :
    Outcome cfg x.trace rq x.response.body := by
  subst hrequest
  exact serve_outcome hx

/-- The exchange of a request against an environment. -/
def Exchange.against (P : Libraries) (cfg : Config) (env : (op : Op) → op.Ans) (rq : ApiRequest) :
    Exchange where
  request := rq
  trace := ((serve P cfg rq).run env).1
  response := ((serve P cfg rq).run env).2

theorem Exchange.against_served (P : Libraries) (cfg : Config) (env : (op : Op) → op.Ans)
    (rq : ApiRequest) : (Exchange.against P cfg env rq).Served P cfg := Prog.yields_run _ _

/-- The proxy hands the token out, as the `kind` of token that is read from an
answer. -/
def HandsOut (P : Libraries) (cfg : Config) (kind : Body → Option Claims) (c : Claims) : Prop :=
  ∃ x : Exchange, x.Served P cfg ∧ kind x.response.body = some c

/-- What the handlers read of the request. -/
def ApiRequest.request : ApiRequest → Request
  | .issueToken req | .revokeToken req | .authExchange req _ | .ssoRedeem req _
  | .verifyMfa req _ _ _ _ | .oauthCallback req _ _ _ _ | .refreshToken req | .ssoHandoff req
  | .downloadTicket req _ | .playbackTicket req _ | .getContent req _ _ | .resource req
  | .checkPerm req _ => req

def Authorization.bearer? : Authorization → Option Jwt
  | .bearer token => some token
  | _ => none

theorem Authorization.eq_of_bearer? {a : Authorization} {token : Jwt} (h : a.bearer? = some token) :
    a = .bearer token := by
  cases a with
  | bearer t =>
    cases h
    rfl
  | _ => cases h

/-- The token a request presents. -/
def ApiRequest.presented? : ApiRequest → Option Jwt
  | .verifyMfa _ mfaToken _ _ _ => mfaToken
  | .ssoRedeem _ (some code) => code
  | .refreshToken req | .ssoHandoff req => req.authorization.bearer?
  | _ => none

/-- The token a response issues for use in another request. -/
def Body.issued? (b : Body) : Option Claims :=
  b.session? <|> b.handoffCode? <|> b.mfaToken?

/-- The tokens a request carries, wherever they stand in it. -/
def ApiRequest.tokens (rq : ApiRequest) : List Jwt :=
  rq.request.authorization.bearer?.toList ++
    match rq with
    | .verifyMfa _ mfaToken _ _ _ => mfaToken.toList
    | .ssoRedeem _ (some code) => code.toList
    | .getContent _ _ ticket => ticket.toList
    | _ => []

/-- The token in a response, of whatever kind. -/
def Body.token? (b : Body) : Option Claims := b.issued? <|> b.ticket?

/-- A history of exchanges, newest first. Nobody but the proxy signs: a signed
token that a request carries stood in an older response. -/
inductive History (P : Libraries) (cfg : Config) : List Exchange → Prop
  | nil : History P cfg []
  | cons {x : Exchange} {older : List Exchange} (past : History P cfg older)
      (served : x.Served P cfg) (handedOut : ∀ c, .signed c ∈ x.request.tokens →
        ∃ y ∈ older, y.response.body.token? = some c) : History P cfg (x :: older)

/-- What came before an exchange of a history is a history. -/
theorem History.of_suffix {P : Libraries} {cfg : Config} {h older : List Exchange}
    (hh : History P cfg h) (hsuffix : older <:+ h) : History P cfg older := by
  induction hh with
  | nil =>
    obtain rfl := List.suffix_nil.mp hsuffix
    exact .nil
  | cons past served handedOut ih =>
    rcases List.suffix_cons_iff.mp hsuffix with rfl | hsuffix
    · exact .cons past served handedOut
    · exact ih hsuffix

/-- Every exchange of a history is the proxy's. -/
theorem History.served {P : Libraries} {cfg : Config} {h : List Exchange} (hh : History P cfg h)
    {x : Exchange} (hx : x ∈ h) : x.Served P cfg := by
  induction hh with
  | nil => cases hx
  | cons _ served _ ih =>
    rcases List.mem_cons.mp hx with rfl | hx
    · exact served
    · exact ih hx

end HttpBridge
