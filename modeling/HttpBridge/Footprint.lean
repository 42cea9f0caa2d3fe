/-
# What each endpoint passes through

The gates on the way of each endpoint (`ApiRequest.gates`): which ask the
denylist, which sign out, which ask for a tenant's state, which guard against a
replay, and which come out at the register of live sessions, at an enrollment or
at the core. No endpoint passes through any other (`serve_within`), so what it does to the
shared state is what these gates do.

Key theorems: `serve_within`.
-/
import HttpBridge.Endpoints

namespace HttpBridge

open Interact TokenDenylist

/-- The gates of a request. -/
def ApiRequest.gates : ApiRequest → Gate → Prop
  | .issueToken _, g => (∃ tenant, g = .admits tenant) ∨ g.registers
  | .revokeToken _, g => ∃ jti ttl, g = .revoke jti ttl
  | .authExchange .., g =>
    (∃ jti expiresAt now, g = .replay .assertions jti expiresAt now) ∨ g.registers
  | .ssoRedeem .., g =>
    (∃ jti expiresAt now, g = .replay .ssoCodes jti expiresAt now) ∨ g.registers
  | .verifyMfa .., g => g.registers ∨ g.enrolls
  | .oauthCallback .., g => g.registers
  | .refreshToken _, g => g.authenticates ∨ g.registers
  | .ssoHandoff _, g => g.authenticates
  | .downloadTicket .., g => g.authenticates
  | _, g => g.authenticates ∨ g.dispatches

/-- Only a sign-out writes the store. -/
theorem ApiRequest.eq_of_gates_revoke {rq : ApiRequest} {jti : String} {ttl : ℤ}
    (h : rq.gates (.revoke jti ttl)) : ∃ req, rq = .revokeToken req := by
  cases rq with
  | revokeToken req => exact ⟨req, rfl⟩
  | issueToken | authExchange | ssoRedeem => exact h.elim nofun False.elim
  | _ =>
    simp [ApiRequest.gates, Gate.authenticates, Gate.registers, Gate.enrolls, Gate.dispatches] at h

/-- The endpoints that call the core. -/
def ApiRequest.callsCore : ApiRequest → Prop
  | .playbackTicket .. | .getContent .. | .resource _ | .checkPerm .. => True
  | _ => False

theorem ApiRequest.callsCore_of_gates {rq : ApiRequest} {g : Gate} (h : rq.gates g)
    (hd : g.dispatches) : rq.callsCore := by
  cases g with
  | call op =>
    cases op with
    | grpcStat | grpcCall =>
      cases rq with
      | playbackTicket | getContent | resource | checkPerm => trivial
      | _ =>
        simp [ApiRequest.gates, Gate.authenticates, Gate.registers, Gate.enrolls, Op.enrolls] at h
    | _ => cases hd
  | _ => exact hd.elim

/-- Only the second step of a login enrolls. -/
theorem ApiRequest.eq_of_gates_enrolls {rq : ApiRequest} {g : Gate} (h : rq.gates g)
    (henrolls : g.enrolls) :
    ∃ req mfaToken action method code, rq = .verifyMfa req mfaToken action method code := by
  cases g with
  | call op =>
    cases op with
    | postMfaEnrollBegin | postMfaEnrollComplete =>
      cases rq with
      | verifyMfa req mfaToken action method code => exact ⟨req, mfaToken, action, method, code, rfl⟩
      | _ =>
        simp [ApiRequest.gates, Gate.authenticates, Gate.registers, Gate.dispatches, Op.core?] at h
    | _ => cases henrolls
  | _ => exact henrolls.elim

variable {P : Libraries} {cfg : Config} {req : Request} {G : Gate → Prop} {id : AuthIdentity}

namespace Within

/-! ### Without a gate -/

theorem serviceCredCall {mode : KeyCheck} {keyId tenant ip : String} :
    Within cfg G (HttpBridge.serviceCredCall cfg mode keyId tenant ip) := by
  unfold HttpBridge.serviceCredCall
  exact .ite .ret (.bind (.plain rfl) fun _ => .ret)

theorem grantKeySession {user tenant keyId generation label : String} :
    Within cfg G (HttpBridge.grantKeySession cfg user tenant keyId generation label) :=
  .bind .mintJwt fun _ => .ret

theorem keyTenants {key : KeyAnswer} : Within cfg G (HttpBridge.keyTenants key) := by
  unfold HttpBridge.keyTenants
  exact .ite (.plain rfl) .ret

theorem refreshServiceKeyToken : Within cfg G (HttpBridge.refreshServiceKeyToken cfg req id) :=
  .bind .serviceCredCall fun _ => .ite .ret <|
    .bind .keyTenants fun _ => .ite (.bind .emitAuth fun _ => .ret) <|
    .bind .emitAuth fun _ => .ite .ret .grantKeySession

theorem ssoHandoff : Within cfg G (HttpBridge.ssoHandoff cfg req id) :=
  .ite (.bind .emitAuth fun _ => .ret) <|
    .bind (.plain rfl) fun _ => .bind (.plain rfl) fun _ => .bind .emitAuth fun _ => .ret

theorem challenge {user tenant : String} {answer : MfaAnswer} :
    Within cfg G (HttpBridge.challenge cfg req user tenant answer) :=
  .bind .mintMfaPending fun _ => .bind .emitAuth fun _ => .ret

theorem refuseLogin : Within cfg G (HttpBridge.refuseLogin cfg req id) :=
  .ite (.bind .emitAuth fun _ => .ret) (.bind .emitAuth fun _ => .ret)

theorem sendCode {user tenant vmethod : String} :
    Within cfg G (HttpBridge.sendCode req user tenant vmethod) :=
  .ite .ret (.bind (.bind (.plain rfl) fun _ => .ret) fun _ => .ret)

theorem verifiedIdentity {provider accessToken idToken nonce : String} {verifyIdToken : Bool} :
    Within cfg G
      (HttpBridge.verifiedIdentity provider accessToken idToken nonce verifyIdToken) := by
  refine .ite ?_ (.ite .ret ?_)
  · refine .bind (.plain rfl) fun vid => ?_
    split <;> exact .ret
  · refine .bind (.plain rfl) fun vid => ?_
    split
    · exact .ret
    · refine .ite .ret (.bind (.plain rfl) fun u => ?_)
      split <;> exact .ret

theorem downloadTicket {uid : String} : Within cfg G (HttpBridge.downloadTicket cfg id uid) :=
  .bind .mintTicket fun _ => .ret

/-! ### To the register, to an enrollment and to the core -/

theorem refreshToken (h : ∀ g : Gate, g.registers → G g) :
    Within cfg G (HttpBridge.refreshToken cfg req id) := by
  refine .ite .refreshServiceKeyToken <| .bind (.plain rfl) fun tenants => ?_
  split
  · exact .bind .emitAuth fun _ => .ret
  · exact .bind .emitAuth fun _ => .ite .ret (.grantSession h)

theorem completeLogin {user tenant : String} (h : ∀ g : Gate, g.registers → G g) :
    Within cfg G (HttpBridge.completeLogin cfg req user tenant) := by
  refine .bind .emitAuth fun _ => .ite .ret <| .ite (.grantSession h) <|
    .bind .mfaRequired fun a => ?_
  split
  · exact .ret
  · exact .ite .challenge (.grantSession h)

theorem enrollBegin {user tenant : String} (h : ∀ g : Gate, g.enrolls → G g) :
    Within cfg G (HttpBridge.enrollBegin req user tenant) :=
  .bind (.call rfl (h _ rfl)) fun _ => .ite .ret .ret

theorem mfaEnrollComplete {user tenant code ip : String} (h : ∀ g : Gate, g.enrolls → G g) :
    Within cfg G (HttpBridge.mfaEnrollComplete user tenant code ip) :=
  .bind (.call rfl (h _ rfl)) fun _ => .ite .ret .ret

theorem enrollComplete {user tenant code : String} (h : ∀ g : Gate, g.registers → G g)
    (henroll : ∀ g : Gate, g.enrolls → G g) :
    Within cfg G (HttpBridge.enrollComplete cfg req user tenant code) := by
  refine .bind (.mfaEnrollComplete henroll) fun recoveryCodes => ?_
  split
  · exact .bind .emitAuth fun _ => .ret
  · exact .bind .emitAuth fun _ => .ite .ret (.grantSession h)

theorem verifyCode {user tenant vmethod code : String} (h : ∀ g : Gate, g.registers → G g) :
    Within cfg G (HttpBridge.verifyCode cfg req user tenant vmethod code) :=
  .bind (.bind (.plain rfl) fun _ => .ret) fun _ => .ite (.bind .emitAuth fun _ => .ret) <|
    .bind .emitAuth fun _ => .ite .ret (.grantSession h)

theorem verifyMfa {mfaToken : Option Jwt} {action method code : String}
    (h : ∀ g : Gate, g.registers → G g) (henroll : ∀ g : Gate, g.enrolls → G g) :
    Within cfg G (HttpBridge.verifyMfa cfg req mfaToken action method code) := by
  refine .bind (.plain rfl) fun now => ?_
  split
  · exact .ret
  · exact .ite (.bind .emitAuth fun _ => .ret) <| .ite .sendCode <| .ite (.enrollBegin henroll) <|
      .ite (.enrollComplete h henroll) (.verifyCode h)

theorem oauthLogin {st : OAuthState} {email : String} (h : ∀ g : Gate, g.registers → G g) :
    Within cfg G (HttpBridge.oauthLogin cfg req st email) :=
  .bind (.plain rfl) fun _ => .ite (.bind .emitAuth fun _ => .ret) <|
    .bind .emitAuth fun _ => .ite .ret <|
    .bind .mintJwt fun _ => .bind (.recordSession h) fun _ => .ret

theorem oauthExchange {provider code : String} {st : OAuthState} {verifyIdToken : Bool}
    (h : ∀ g : Gate, g.registers → G g) :
    Within cfg G (HttpBridge.oauthExchange cfg req provider code st verifyIdToken) := by
  refine .bind (.plain rfl) fun tokens => ?_
  split
  · exact .ret
  · refine .bind .verifiedIdentity fun vid => ?_
    split
    · exact .ret
    · exact .ite .ret (.oauthLogin h)

theorem oauthCallback {provider code state idpError : String} (h : ∀ g : Gate, g.registers → G g) :
    Within cfg G (HttpBridge.oauthCallback cfg req provider code state idpError) := by
  refine .ite .ret (.bind (.plain rfl) fun st => ?_)
  split
  · exact .ret
  · refine .ite .ret (.ite .ret ?_)
    split
    · exact .ret
    · exact .oauthExchange h

theorem exchange {claims : IntegrationClaims} (h : ∀ g : Gate, g.registers → G g) :
    Within cfg G (HttpBridge.exchange cfg req claims) := by
  refine .ite ?_ (.ite .ret ?_)
  · exact .ite .ret <| .ite .ret <| .bind .emitAuth fun _ => .ite .ret <|
      .bind .mintServiceJwt fun _ => .ret
  · refine .bind (.plain rfl) fun tenants => ?_
    dsimp only
    split
    · exact .bind .emitAuth fun _ => .ret
    · exact .bind .emitAuth fun _ => .ite .ret (.grantSession h)

theorem redeem {claims : Claims} (h : ∀ g : Gate, g.registers → G g) :
    Within cfg G (HttpBridge.redeem cfg req claims) :=
  .ite .ret <| .bind .emitAuth fun _ => .ite .ret (.grantSession h)

theorem forward (h : ∀ g : Gate, g.dispatches → G g) : Within cfg G (HttpBridge.forward id) :=
  .bind (.call rfl (h _ rfl)) fun _ => .ret

theorem checkPerm {query : List (String × String)} (h : ∀ g : Gate, g.dispatches → G g) :
    Within cfg G (HttpBridge.checkPerm id query) :=
  .bind (.call rfl (h _ rfl)) fun _ => .ret

theorem playbackTicket {uid : String} (h : ∀ g : Gate, g.dispatches → G g) :
    Within cfg G (HttpBridge.playbackTicket cfg id uid) :=
  .bind (.call rfl (h _ rfl)) fun _ => .ite .ret <| .ite .ret <| .bind .mintTicket fun _ => .ret

/-! ### With gates -/

theorem issueServiceKeyToken {keyId secret : String} (h : G (.admits (requestTenant cfg req))) :
    Within cfg G (HttpBridge.issueServiceKeyToken cfg req keyId secret) := by
  refine .bind (.admits h) fun v => .ite (.bind .emitAuth fun _ => .ret) <|
    .ite (.bind .emitAuth fun _ => .ret) <| .bind .serviceCredCall fun key => ?_
  split
  · exact .ret
  · exact .bind .emitAuth fun _ => .ret
  · exact .bind (.plain rfl) fun _ => .ite (.bind .emitAuth fun _ => .ret) <|
      .bind .emitAuth fun _ => .ite .ret .grantKeySession

theorem admitLogin (h : G (.admits id.tenant)) (hreg : ∀ g : Gate, g.registers → G g) :
    Within cfg G (HttpBridge.admitLogin cfg req id) := by
  refine .bind (.admits h) fun v => .ite (.bind .emitAuth fun _ => .ret) <|
    .bind (.plain rfl) fun tenants => ?_
  split
  · exact .bind .emitAuth fun _ => .ret
  · exact .completeLogin hreg

theorem issueToken (h : ∀ tenant, G (.admits tenant)) (hreg : ∀ g : Gate, g.registers → G g) :
    Within cfg G (HttpBridge.issueToken cfg req) := by
  unfold HttpBridge.issueToken
  split
  · exact .issueServiceKeyToken (h _)
  · exact .bind (.authenticateBasic (h _)) fun _ => .ite .refuseLogin (.admitLogin (h _) hreg)

theorem revokeToken (h : ∀ jti ttl, G (.revoke jti ttl)) :
    Within cfg G (HttpBridge.revokeToken cfg req) := by
  unfold HttpBridge.revokeToken
  split
  · refine .bind (.plain rfl) fun now => ?_
    split
    · exact .ret
    · exact .bind (.revoke (h _ _)) fun _ => .bind .emitAuth fun _ => .bind .dropSession fun _ =>
        .ite .ret .ret
  · exact .ret

theorem verifyIntegrationAssertion {assertion iss aud pem : String} :
    Within cfg G (HttpBridge.verifyIntegrationAssertion P assertion iss aud pem) := by
  unfold HttpBridge.verifyIntegrationAssertion
  split
  · exact .ret
  · exact .bind (.plain rfl) fun _ => .ite .ret (.ite .ret .ret)

theorem authExchange {form : Option (String × String)}
    (h : ∀ jti expiresAt now, G (.replay .assertions jti expiresAt now))
    (hreg : ∀ g : Gate, g.registers → G g) :
    Within cfg G (HttpBridge.authExchange P cfg req form) := by
  refine .ite .ret ?_
  split
  · exact .ret
  · refine .ite .ret <| .ite .ret <| .ite (.bind .emitAuth fun _ => .ret) <|
      .bind .verifyIntegrationAssertion fun r => ?_
    unfold acceptAssertion
    split
    · exact .bind .emitAuth fun _ => .ret
    · exact .bind (.plain rfl) fun _ => .bind (.replay (h _ _ _)) fun _ =>
        .ite (.bind .emitAuth fun _ => .ret) (.exchange hreg)

theorem ssoRedeem {form : Option (Option Jwt)}
    (h : ∀ jti expiresAt now, G (.replay .ssoCodes jti expiresAt now))
    (hreg : ∀ g : Gate, g.registers → G g) :
    Within cfg G (HttpBridge.ssoRedeem cfg req form) := by
  unfold HttpBridge.ssoRedeem
  split
  · exact .ret
  · exact .ret
  · refine .bind (.plain rfl) fun now => ?_
    split
    · exact .ret
    · exact .ite .ret (.bind (.replay (h _ _ _)) fun _ => .ite .ret (.redeem hreg))

theorem identityFromDownloadTicket {uid : String} {ticket : Jwt} (hcheck : ∀ jti, G (.check jti))
    (hadmits : ∀ tenant, G (.admits tenant)) :
    Within cfg G (HttpBridge.identityFromDownloadTicket cfg req uid ticket) := by
  refine .bind (.plain rfl) fun now => ?_
  split
  · exact .ret
  · exact .ite .ret <| .bind (.ite .ret (.permits (hcheck _))) fun _ => .ite .ret <|
      .bind (.admits (hadmits _)) fun _ => .ite .ret .ret

theorem getContent {uid : String} {ticket : Option Jwt} (hcheck : ∀ jti, G (.check jti))
    (hadmits : ∀ tenant, G (.admits tenant)) (hcore : ∀ g : Gate, g.dispatches → G g) :
    Within cfg G (HttpBridge.getContent cfg req uid ticket) := by
  unfold HttpBridge.getContent
  split
  · refine .bind (.identityFromDownloadTicket hcheck hadmits) fun id => ?_
    split
    · exact .forward hcore
    · exact .gated hcheck hadmits fun _ => .forward hcore
  · exact .gated hcheck hadmits fun _ => .forward hcore

end Within

/-- **No endpoint passes through a gate that is not its own.** -/
theorem serve_within (rq : ApiRequest) : Within cfg rq.gates (serve P cfg rq) := by
  cases rq with
  | issueToken req => exact .issueToken (fun t => .inl ⟨t, rfl⟩) fun _ => .inr
  | revokeToken req => exact .revokeToken fun jti ttl => ⟨jti, ttl, rfl⟩
  | authExchange req form => exact .authExchange (fun jti e n => .inl ⟨jti, e, n, rfl⟩) fun _ => .inr
  | ssoRedeem req form => exact .ssoRedeem (fun jti e n => .inl ⟨jti, e, n, rfl⟩) fun _ => .inr
  | verifyMfa req mfaToken action method code => exact .verifyMfa (fun _ => .inl) fun _ => .inr
  | oauthCallback req provider code state idpError => exact .oauthCallback fun _ => id
  | refreshToken req =>
    exact .gated (fun _ => .inl trivial) (fun _ => .inl trivial) fun _ => .refreshToken fun _ => .inr
  | ssoHandoff req => exact .gated (fun _ => trivial) (fun _ => trivial) fun _ => .ssoHandoff
  | downloadTicket req uid =>
    exact .gated (fun _ => trivial) (fun _ => trivial) fun _ => .downloadTicket
  | playbackTicket req uid =>
    exact .gated (fun _ => .inl trivial) (fun _ => .inl trivial) fun _ => .playbackTicket fun _ => .inr
  | getContent req uid ticket =>
    exact .getContent (fun _ => .inl trivial) (fun _ => .inl trivial) fun _ => .inr
  | resource req =>
    exact .gated (fun _ => .inl trivial) (fun _ => .inl trivial) fun _ => .forward fun _ => .inr
  | checkPerm req query =>
    exact .gated (fun _ => .inl trivial) (fun _ => .inl trivial) fun _ => .checkPerm fun _ => .inr

end HttpBridge
