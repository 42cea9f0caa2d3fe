/-
# Kinds of credential

All tokens are signed with one secret, and four consumers take them: the bearer
path of `authenticate`, `verifyMfa`, `ssoRedeem` and
`identityFromDownloadTicket`. Which kind a token is of shows in its claims only.
Each consumer looks at some of them (`Consumer.Takes`) and refuses the rest
(`Consumer.refuses`); each kind is minted with the claims of its own consumer and
of no other (`MintedAs.takes_iff`). So no kind is taken for another
(`kinds_not_interchangeable`).

Key definitions: `MintedAs`, `Consumer.Refuses`, `Consumer.Takes`.
Key theorems: `kinds_not_interchangeable`.
-/
import HttpBridge.DeploymentRoles

namespace HttpBridge

open Interact TokenDenylist

/-! ### What is minted -/

inductive Kind where
  | session
  | service
  | pending
  | handoff
  | downloadTicket
  | playbackTicket
  deriving DecidableEq

/-- The token is minted as one of the kind, for whatever parameters. -/
inductive MintedAs (cfg : Config) : Kind → Claims → Prop
  | session {user tenant aip keyId keyGen keyName : String} {amr : List String} {T : Trace}
      {c : Claims} (h : (mintJwt cfg user tenant amr aip keyId keyGen keyName).Yields T c) :
      MintedAs cfg .session c
  | service {subject tenant aip scope : String} {T : Trace} {c : Claims}
      (h : (mintServiceJwt cfg subject tenant aip scope).Yields T c) : MintedAs cfg .service c
  | pending {user tenant ip : String} {T : Trace} {c : Claims}
      (h : (mintMfaPending cfg user tenant ip).Yields T c) : MintedAs cfg .pending c
  | handoff {req : Request} {id : AuthIdentity} {T : Trace} {resp : Response} {c : Claims}
      (h : (ssoHandoff cfg req id).Yields T resp) (hc : resp.body.handoffCode? = some c) :
      MintedAs cfg .handoff c
  | downloadTicket {id : AuthIdentity} {uid : String} {T : Trace} {resp : Response} {c : Claims}
      (h : (downloadTicket cfg id uid).Yields T resp) (hc : resp.body.ticket? = some c) :
      MintedAs cfg .downloadTicket c
  | playbackTicket {id : AuthIdentity} {uid : String} {T : Trace} {resp : Response} {c : Claims}
      (h : (playbackTicket cfg id uid).Yields T resp) (hc : resp.body.ticket? = some c) :
      MintedAs cfg .playbackTicket c

/-! ### Who takes it -/

inductive Consumer where
  | bearer
  | verifyMfa
  | ssoRedeem
  | ticket
  deriving DecidableEq

/-- The consumer a kind is minted for. -/
def Kind.consumer : Kind → Consumer
  | .session | .service => .bearer
  | .pending => .verifyMfa
  | .handoff => .ssoRedeem
  | .downloadTicket | .playbackTicket => .ticket

/-- The consumer refuses the token in every request and whatever it is answered. -/
def Consumer.Refuses (cfg : Config) (c : Claims) : Consumer → Prop
  | .bearer => ∀ req T r, req.authorization = .bearer (.signed c) →
      (authenticate cfg req).Yields T r → ∃ resp, r = .error resp
  | .verifyMfa => ∀ req action method code T resp,
      (HttpBridge.verifyMfa cfg req (some (.signed c)) action method code).Yields T resp →
        resp = unauthorized req
  | .ssoRedeem => ∀ req T resp,
      (HttpBridge.ssoRedeem cfg req (some (some (.signed c)))).Yields T resp →
        ∃ description, resp = sendOAuthError 401 "invalid_grant" description
  | .ticket => ∀ req uid T r, (identityFromDownloadTicket cfg req uid (.signed c)).Yields T r →
      r = none

/-- The claims by which a consumer knows its tokens. -/
def Consumer.Takes (c : Claims) : Consumer → Prop
  | .bearer => c.mfaPending.getD false = false ∧ isTicketType (optValue c.typ) = false ∧
      c.roles.isSome = true
  | .verifyMfa => c.mfaPending.getD false = true
  | .ssoRedeem => optValue c.sso = "handoff"
  | .ticket => isTicketType (optValue c.typ) = true

section Consumers

variable {cfg : Config} {c : Claims}

/-- **What a consumer does not know it refuses.** -/
theorem Consumer.refuses {consumer : Consumer} (h : ¬ consumer.Takes c) :
    consumer.Refuses cfg c := by
  cases consumer with
  | bearer =>
    intro req T r hreq hauth
    cases r with
    | error resp => exact ⟨resp, rfl⟩
    | ok id =>
      rw [authenticate_of_bearer hreq] at hauth
      obtain ⟨c', hp⟩ := authenticateBearer_during.of_yields hauth id rfl
      cases hp.signed
      refine absurd ⟨hp.session, hp.bearer, ?_⟩ h
      have hmember := hp.member
      unfold tokenTenantMember at hmember
      cases hroles : c.roles with
      | some rolesObj => rfl
      | none => simp [hroles] at hmember
  | verifyMfa =>
    intro req action method code T resp hy
    obtain ⟨now, rest, rfl, hrest⟩ := (Prog.yields_perform_bind ..).mp hy
    have hnone : pendingClaims now (some (.signed c)) = none := by
      refine Option.eq_none_iff_forall_ne_some.mpr fun p hp => h ?_
      obtain ⟨hsigned, -, hpending⟩ := pendingClaims_eq_some.mp hp
      cases hsigned
      simp [Consumer.Takes, hpending]
    rw [hnone] at hrest
    exact ((Prog.ret_yields ..).mp hrest).2
  | ssoRedeem =>
    intro req T resp hy
    obtain ⟨now, rest, rfl, hrest⟩ := (Prog.yields_perform_bind ..).mp hy
    cases hv : (Jwt.signed c).verify now with
    | none =>
      rw [hv] at hrest
      exact ⟨_, ((Prog.ret_yields ..).mp hrest).2⟩
    | some p =>
      obtain ⟨hsigned, -⟩ := Jwt.verify_eq_some.mp hv
      cases hsigned
      rw [hv] at hrest
      have hno : (optValue c.sso != "handoff") = true := by simpa [Consumer.Takes] using h
      dsimp only at hrest
      rw [if_pos hno] at hrest
      exact ⟨_, ((Prog.ret_yields ..).mp hrest).2⟩
  | ticket =>
    intro req uid T r hy
    cases r with
    | none => rfl
    | some id =>
      obtain ⟨c', hp⟩ := identityFromDownloadTicket_during.of_yields hy id rfl
      cases hp.signed
      exact absurd (checkTicketClaims_eq_ok.mp hp.ticket).1 h

theorem handoff_carries {req : Request} {id : AuthIdentity} {T : Trace} {resp : Response}
    (h : (ssoHandoff cfg req id).Yields T resp) (hc : resp.body.handoffCode? = some c) :
    ∃ jti now, c = buildHandoffClaims cfg.jwtIssuer id.user id.tenant jti now cfg.ssoHandoffTtl id.amr := by
  suffices hall : (ssoHandoff cfg req id).During T fun resp => ∀ c,
      resp.body.handoffCode? = some c → ∃ jti now,
        c = buildHandoffClaims cfg.jwtIssuer id.user id.tenant jti now cfg.ssoHandoffTtl id.amr from
    hall.of_yields h c hc
  refine .ite (fun _ => .skip fun _ => .ret fun _ h => nomatch h) fun _ => .skip fun now =>
    .skip fun jti => .skip fun _ => .ret fun c hc => ?_
  exact ⟨jti, now, (Option.some.inj hc).symm⟩

/-- **A token is known to its own consumer only.** -/
theorem MintedAs.takes_iff {kind : Kind} {consumer : Consumer} (h : MintedAs cfg kind c) :
    consumer.Takes c ↔ consumer = kind.consumer := by
  cases h with
  | session h =>
    obtain ⟨m, now, jti, -, rfl⟩ := mintJwt_yields.mp h
    cases consumer <;> simp [Consumer.Takes, Kind.consumer, sessionClaims, isTicketType]
  | service h =>
    simp only [mintServiceJwt, perform, Prog.yields_perform_bind, Prog.pure_eq_ret,
      Prog.ret_yields] at h
    obtain ⟨now, _, -, jti, _, -, -, rfl⟩ := h
    cases consumer <;> simp [Consumer.Takes, Kind.consumer, buildServiceClaims, isTicketType]
  | pending h =>
    simp only [mintMfaPending, perform, Prog.yields_perform_bind, Prog.pure_eq_ret,
      Prog.ret_yields] at h
    obtain ⟨now, _, -, jti, _, -, -, rfl⟩ := h
    cases consumer <;> simp [Consumer.Takes, Kind.consumer, mfaPendingClaims, isTicketType]
  | handoff h hc =>
    obtain ⟨jti, now, rfl⟩ := handoff_carries h hc
    cases consumer <;> simp [Consumer.Takes, Kind.consumer, buildHandoffClaims, isTicketType]
  | downloadTicket h hc =>
    obtain ⟨now, rfl⟩ := downloadTicket_carries h hc
    cases consumer <;> simp [Consumer.Takes, Kind.consumer, buildTicketClaims, isTicketType]
  | playbackTicket h hc =>
    obtain ⟨mediaType, now, rfl⟩ := playbackTicket_carries h hc
    cases consumer <;> simp [Consumer.Takes, Kind.consumer, buildTicketClaims, isTicketType]

/-- A ticket opens the file it names, as the identity it was minted for. -/
theorem ticket_opens {id id' : AuthIdentity} {uid uid' : String} {req : Request} {T T' : Trace}
    {resp : Response}
    (hmint : (downloadTicket cfg id uid).Yields T resp ∨ (playbackTicket cfg id uid).Yields T resp)
    (hc : resp.body.ticket? = some c)
    (h : (identityFromDownloadTicket cfg req uid' (.signed c)).Yields T' (some id')) :
    uid' = uid ∧ id'.user = id.user ∧ id'.tenant = id.tenant ∧ id'.roles = id.roles := by
  obtain ⟨typ, mediaType, now, ttl, rfl⟩ := ticket_carries hmint hc
  obtain ⟨t, hp⟩ := identityFromDownloadTicket_during.of_yields h id' rfl
  cases hp.signed
  have hne : id.tenant ≠ "" := hp.admitted.ne_empty
  have huid : uid = uid' := (checkTicketClaims_eq_ok.mp hp.ticket).2
  rw [hp.identity]
  exact ⟨huid.symm, rfl, rfl, ticketIdentity_roles hne⟩

/-- **Credentials are not interchangeable.** Whatever it was minted with, a token
is refused by every consumer but its own, and a ticket is accepted for its file
only, as the user, in the tenant and with the roles of the identity it was minted
for. -/
theorem kinds_not_interchangeable :
    (∀ kind c, MintedAs cfg kind c → ∀ consumer, consumer ≠ kind.consumer →
      consumer.Refuses cfg c) ∧
    ∀ id uid T resp t, (downloadTicket cfg id uid).Yields T resp ∨
        (playbackTicket cfg id uid).Yields T resp → resp.body.ticket? = some t →
      ∀ req uid' T' id', (identityFromDownloadTicket cfg req uid' (.signed t)).Yields T' (some id') →
        uid' = uid ∧ id'.user = id.user ∧ id'.tenant = id.tenant ∧ id'.roles = id.roles := by
  constructor
  · intro kind c hminted consumer hne
    exact Consumer.refuses fun htakes => hne (hminted.takes_iff.mp htakes)
  · intro id uid T resp t hmint ht req uid' T' id' h
    exact ticket_opens hmint ht h

end Consumers

/-! ### A ticket, and a bearer that is none -/

/-- The identity of a session. -/
def kindsIdentity : AuthIdentity :=
  { user := "ann", tenant := "acme", roles := ["users", "editors"], sessionJti := "s1" }

def kindsTicket : Claims :=
  buildTicketClaims "fileengine-bridge" "ann" "acme" ["users", "editors"] "f1" "download" "s1" "" 0 30

theorem kindsTicket_minted :
    ((downloadTicket {} kindsIdentity "f1").run (sampleReply "live")).2.body.ticket? =
      some kindsTicket := by decide +kernel

theorem kindsTicket_confined : Consumer.bearer.Refuses {} kindsTicket ∧
    ∃ id', ((identityFromDownloadTicket {} {} "f1" (.signed kindsTicket)).run (sampleReply "live")).2 =
      some id' ∧ id'.user = "ann" ∧ id'.tenant = "acme" ∧ id'.roles = ["users", "editors"] := by
  have hmint := Prog.yields_run (sampleReply "live") (downloadTicket {} kindsIdentity "f1")
  obtain ⟨id', hid'⟩ := Option.isSome_iff_exists.mp (show
    ((identityFromDownloadTicket {} {} "f1" (.signed kindsTicket)).run
      (sampleReply "live")).2.isSome = true by decide +kernel)
  have hopen := Prog.yields_run (sampleReply "live")
    (identityFromDownloadTicket {} {} "f1" (.signed kindsTicket))
  rw [hid'] at hopen
  refine ⟨kinds_not_interchangeable.1 .downloadTicket kindsTicket
    (.downloadTicket hmint kindsTicket_minted) .bearer (by decide), id', hid', ?_⟩
  exact (kinds_not_interchangeable.2 _ _ _ _ _ (.inl hmint) kindsTicket_minted _ _ _ _ hopen).2

end HttpBridge
