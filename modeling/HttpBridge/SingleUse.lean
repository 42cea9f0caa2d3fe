/-
# Credentials that are used once

An integration assertion and a hand-off code each carry an identifier, which a
`ReplayGuard` remembers until the credential's expiry. Requests of any kind run
as threads on any number of instances; a guard belongs to one instance.

Each credential is used once there as long as no call of the guard reads a
clock at or past its expiry before the last request presenting it has called
the guard (`assertion_exchanged_once`, `code_redeemed_once`). Both fail
without that: an assertion verifies for a minute longer than the guard
remembers it (`not_assertion_exchanged_once`), and a request that read its
clock early may come to the guard after a later reading has purged the code
(`not_code_redeemed_once`).
-/
import HttpBridge.Footprint
import HttpBridge.World

namespace HttpBridge

open Interact TokenDenylist

/-- Requests running on many instances, after a list of moves. -/
abbrev requests (P : Libraries) (cfg : Config) (inst : ℕ → ℕ) (w₀ : World)
    (ms : List (Move ApiRequest Weather)) : Pool World Op.Ans ApiRequest Response :=
  Pool.run (World.system cfg.denylist inst) (serve P cfg) w₀ ms

/-! ### One guard -/

/-- The clock reading with which an operation calls the guard. -/
def guardReading (g : GuardName) : Op → Option ℤ
  | .replayAccept g' _ _ now => if g' = g then some now else none
  | _ => none

/-- The guard accepted. -/
def accepts (g : GuardName) : Event Op.Ans → Bool
  | ⟨.replayAccept g' _ _ _, accepted⟩ => g' = g && accepted
  | _ => false

theorem accepts_eq_true {g : GuardName} {e : Event Op.Ans} (h : accepts g e = true) :
    ∃ jti exp now, e = ⟨.replayAccept g jti exp now, true⟩ := by
  obtain ⟨op, a⟩ := e
  cases op with
  | replayAccept g' jti exp now =>
    simp only [accepts, Bool.and_eq_true, decide_eq_true_eq] at h
    obtain ⟨rfl, rfl⟩ := h
    exact ⟨jti, exp, now, rfl⟩
  | _ => cases h

/-- The thread's request passed the guard. -/
def PassesGuard (g : GuardName) (log : List (Step World Op.Ans)) (τ : ℕ) : Prop :=
  ∃ e ∈ trace τ log, accepts g e = true

instance (g : GuardName) (log : List (Step World Op.Ans)) (τ : ℕ) :
    Decidable (PassesGuard g log τ) := by unfold PassesGuard; infer_instance

/-- Of the threads in `T` on one instance, at most one passes the guard. -/
def PassesOnce (inst : ℕ → ℕ) (g : GuardName) (T : ℕ → Prop) (log : List (Step World Op.Ans)) :
    Prop :=
  ∀ τ τ', T τ → T τ' → inst τ = inst τ' → PassesGuard g log τ → PassesGuard g log τ' → τ = τ'

/-- After a guard call of one thread in `T`, until that of another on its
instance, no call of the guard reads a clock at or past `exp`. -/
def ReadsBefore (inst : ℕ → ℕ) (g : GuardName) (T : ℕ → Prop) (exp : ℤ)
    (log : List (Step World Op.Ans)) : Prop :=
  ∀ rest mid earlier x y, log = rest ++ y :: (mid ++ x :: earlier) → T x.thread → T y.thread →
    x.thread ≠ y.thread → inst x.thread = inst y.thread → (guardReading g x.event.op).isSome →
    (guardReading g y.event.op).isSome → ∀ z ∈ y :: mid, inst z.thread = inst y.thread →
      ∀ n ∈ guardReading g z.event.op, n < exp

/-- A run all of whose readings come before the expiry. -/
theorem ReadsBefore.of_forall {inst : ℕ → ℕ} {g : GuardName} {T : ℕ → Prop} {exp : ℤ}
    {log : List (Step World Op.Ans)} (h : ∀ z ∈ log, ∀ n ∈ guardReading g z.event.op, n < exp) :
    ReadsBefore inst g T exp log := by
  rintro rest mid earlier x y rfl - - - - - - z hz -
  refine h z ?_
  simp only [List.mem_append, List.mem_cons] at hz ⊢
  tauto

/-- Two members of a list stand in it one after the other. -/
theorem exists_split_of_mem {β : Type} {l : List β} {x y : β} (hx : x ∈ l) (hy : y ∈ l)
    (hne : x ≠ y) :
    (∃ rest mid earlier, l = rest ++ y :: (mid ++ x :: earlier)) ∨
      ∃ rest mid earlier, l = rest ++ x :: (mid ++ y :: earlier) := by
  obtain ⟨s, t, rfl⟩ := List.append_of_mem hx
  rcases List.mem_append.mp hy with h | h
  · obtain ⟨rest, mid, rfl⟩ := List.append_of_mem h
    exact .inl ⟨rest, mid, t, by simp⟩
  · rcases List.mem_cons.mp h with h | h
    · exact absurd h.symm hne
    · obtain ⟨mid, earlier, rfl⟩ := List.append_of_mem h
      exact .inr ⟨s, mid, earlier, rfl⟩

/-- **One guard.** Threads that call the guard with one identifier and expiry
pass it once, as long as no reading reaches the expiry in between. -/
theorem passes_once {D : DenylistOptions} {inst : ℕ → ℕ} {ι α : Type} {code : ι → Bridge α}
    {w₀ : World} {ms : List (Move ι Weather)} {g : GuardName} {T : ℕ → Prop} {jti : String}
    {exp : ℤ} (hj : jti ≠ "")
    (hT : ∀ y ∈ (Pool.run (World.system D inst) code w₀ ms).log, T y.thread →
      ∀ j e n, y.event.op = .replayAccept g j e n → j = jti ∧ e = exp)
    (hread : ReadsBefore inst g T exp (Pool.run (World.system D inst) code w₀ ms).log) :
    PassesOnce inst g T (Pool.run (World.system D inst) code w₀ ms).log := by
  have hrefuse : ∀ {rest mid earlier x y jx ex nx jy ey ny},
      (Pool.run (World.system D inst) code w₀ ms).log = rest ++ y :: (mid ++ x :: earlier) →
      T x.thread → T y.thread → x.thread ≠ y.thread → inst x.thread = inst y.thread →
      x.event = ⟨.replayAccept g jx ex nx, true⟩ → y.event = ⟨.replayAccept g jy ey ny, true⟩ →
      False := by
    intro rest mid earlier x y jx ex nx jy ey ny hlog hTx hTy hne hinst hx hy
    obtain ⟨rfl, rfl⟩ := hT x (by rw [hlog]; simp) hTx jx ex nx (by rw [hx])
    obtain ⟨rfl, rfl⟩ := hT y (by rw [hlog]; simp) hTy jy ey ny (by rw [hy])
    have hb := hread rest mid earlier x y hlog hTx hTy hne hinst (by simp [hx, guardReading])
      (by simp [hy, guardReading])
    refine Bool.noConfusion (guard_refuses code w₀ hlog hj hinst hx hy fun z hz hi j e m hop => ?_)
    exact hb z hz hi m (by simp [hop, guardReading])
  intro τ τ' hτ hτ' hinst ⟨ex, hxt, hxa⟩ ⟨ey, hyt, hya⟩
  by_contra hne
  obtain ⟨x, hxl, rfl, rfl⟩ := (mem_trace τ _ _).mp hxt
  obtain ⟨y, hyl, rfl, rfl⟩ := (mem_trace τ' _ _).mp hyt
  obtain ⟨_, _, _, hx⟩ := accepts_eq_true hxa
  obtain ⟨_, _, _, hy⟩ := accepts_eq_true hya
  rcases exists_split_of_mem hxl hyl (fun h => hne (by rw [h])) with ⟨_, _, _, h⟩ | ⟨_, _, _, h⟩
  · exact hrefuse h hτ hτ' hne hinst hx hy
  · exact hrefuse h hτ' hτ (Ne.symm hne) hinst.symm hy hx

/-- Nothing but the guard's own gate calls it. -/
theorem Within.calls_no_replay {cfg : Config} {α : Type} {q : Bridge α}
    (h : Within cfg Gate.registers q) :
    q.Calls fun op => ∀ g jti exp now, op ≠ .replayAccept g jti exp now := by
  refine h.calls ?_ (fun _ h => h.elim) (fun _ _ h => h.elim) (fun _ h => h.elim)
    (fun _ _ _ _ h => h.elim) ?_
  · rintro _ hop g jti exp now rfl
    cases hop
  · rintro _ hop - g jti exp now rfl
    cases hop

/-! ### Assertions -/

section Assertions

variable {P : Libraries} {cfg : Config} {inst : ℕ → ℕ} {w₀ : World}

/-- What the verifier believes of an assertion, whenever it is presented. -/
abbrev believed (P : Libraries) (cfg : Config) (assertion : String) :
    Except String AssertionPayload :=
  authenticPayload P assertion cfg.integrationIssuer cfg.integrationAudience
    cfg.integrationPublicKey

/-- What becomes of an authentic assertion in an exchange that is in order. -/
theorem authExchange_eq {assertion : String} {p : AssertionPayload} {req : Request}
    (hp : believed P cfg assertion = .ok p) (hissuer : cfg.integrationIssuer ≠ "")
    (hkey : cfg.integrationPublicKey ≠ "") (hassertion : assertion ≠ "")
    (hips : cfg.integrationAllowedIps.isEmpty = true) :
    authExchange P cfg req (some (kJwtBearerGrant, assertion)) =
      timelyClaims p >>= acceptAssertion cfg req := by
  unfold believed at hp
  simp [authExchange, presentAssertion, verifyIntegrationAssertion, hissuer, hkey, hassertion, hips,
    hp]

/-- An exchange calls the guard with the assertion's own identifier. -/
theorem authExchange_calls {assertion grantType : String} {p : AssertionPayload} {req : Request}
    (hp : believed P cfg assertion = .ok p) :
    (authExchange P cfg req (some (grantType, assertion))).Calls fun op => ∀ g j e n,
      op = .replayAccept g j e n →
        j = (integrationClaims p).jti ∧ e = (integrationClaims p).expiresAt := by
  have hplain : ∀ {α : Type} {q : Bridge α}, Within cfg Gate.registers q →
      q.Calls fun op => ∀ g j e n, op = .replayAccept g j e n →
        j = (integrationClaims p).jti ∧ e = (integrationClaims p).expiresAt := fun h =>
    h.calls_no_replay.mono fun op hop g j e n he => absurd he (hop g j e n)
  unfold authExchange
  dsimp only
  split_ifs
  · trivial
  · trivial
  · trivial
  · exact hplain (.bind .emitAuth fun _ => .ret)
  · refine (Prog.calls_bind ..).mpr ⟨hplain .verifyIntegrationAssertion, fun tr r hr => ?_⟩
    cases r with
    | error err => exact hplain (.bind .emitAuth fun _ => .ret)
    | ok claims =>
      obtain ⟨p', _, hp', -, -, -, rfl⟩ := verify_yields_ok.mp hr
      rw [show authenticPayload P assertion cfg.integrationIssuer cfg.integrationAudience
        cfg.integrationPublicKey = .ok p from hp] at hp'
      cases hp'
      simp only [acceptAssertion, perform, Prog.calls_perform_bind]
      refine ⟨nofun, fun now => ⟨fun g j e n he => ?_, fun accepted => ?_⟩⟩
      · cases he
        exact ⟨rfl, rfl⟩
      · exact hplain (.ite (.bind .emitAuth fun _ => .ret) (.exchange fun _ => id))

/-- The assertion a request presents for exchange. -/
def ApiRequest.assertion? : ApiRequest → Option String
  | .authExchange _ (some (_, assertion)) => some assertion
  | _ => none

theorem ApiRequest.eq_of_assertion? {rq : ApiRequest} {assertion : String}
    (h : rq.assertion? = some assertion) :
    ∃ req grantType, rq = .authExchange req (some (grantType, assertion)) := by
  unfold ApiRequest.assertion? at h
  split at h
  · cases h
    exact ⟨_, _, rfl⟩
  · cases h

/-- The thread's request presents the assertion for exchange. -/
def PresentsAssertion (p : Pool World Op.Ans ApiRequest Response) (assertion : String) (τ : ℕ) :
    Prop :=
  ((p.job τ).bind fun j => j.1.assertion?) = some assertion

instance (p : Pool World Op.Ans ApiRequest Response) (assertion : String) :
    DecidablePred (PresentsAssertion p assertion) := fun τ => by
  unfold PresentsAssertion
  infer_instance

/-- **An assertion is exchanged once**, when no reading of the guard's callers
reaches its expiry between two requests that present it. -/
theorem assertion_exchanged_once {assertion : String} {p : AssertionPayload}
    (hp : believed P cfg assertion = .ok p) (hj : optValue p.jti ≠ "")
    (ms : List (Move ApiRequest Weather))
    (hread : ReadsBefore inst .assertions
      (PresentsAssertion (requests P cfg inst w₀ ms) assertion) (integrationClaims p).expiresAt
      (requests P cfg inst w₀ ms).log) :
    PassesOnce inst .assertions (PresentsAssertion (requests P cfg inst w₀ ms) assertion)
      (requests P cfg inst w₀ ms).log := by
  refine passes_once hj (fun y hy hpres j e n hop => ?_) hread
  obtain ⟨later, earlier, hlog⟩ := List.append_of_mem hy
  obtain ⟨c, q, k, hjob, hr⟩ := step_reaches (serve P cfg) w₀ hlog hop
  rw [PresentsAssertion, requests, hjob] at hpres
  obtain ⟨req, grantType, rfl⟩ := ApiRequest.eq_of_assertion? hpres
  exact ((authExchange_calls hp).of_reaches hr).2.1 .assertions j e n rfl

/-- An assertion as an integration signs it, with its public key. -/
def sampleKey : String :=
  "-----BEGIN PUBLIC KEY-----\n" ++
    ("MFkwEwYHKoZIzj0CAQYIKoZIzj0DAQcDQgAEfHCvdFzRxI0nLyNN6d5a/xDw4S5n\n" ++
    "dPRM6lIgRk2QhBznhjQXWu8zgYS/E4QzUrg+L+jCxyocU9MRsnwXOh40Xw==\n-----END PUBLIC KEY-----\n")

def sampleHeader : String := "eyJhbGciOiJFUzI1NiJ9"

def samplePayload : String :=
  "eyJpc3MiOiJlcnAiLCJhdWQiOiJmZSIsInN1YiI6ImFubiIsImV4cCI6MTAwLCJqdGkiOiJhMSJ9"

def sampleSignature : String :=
  "awjivPF5Cdk0JBGjCoCvBIVzMNe1JpnIrbDzMcbYn947hCfcXa3364rrE6W612zqF_epgOheN2jpoRyqBgRBHQ"

def sampleAssertion : String := sampleHeader ++ "." ++ (samplePayload ++ "." ++ sampleSignature)

def sampleClaims : AssertionPayload :=
  { iss := some "erp", aud := some (.one "fe"), sub := some "ann", exp := some 100,
    jti := some "a1" }

/-- What Poco and OpenSSL make of it. -/
def sampleLibraries : Libraries where
  parseHeader s := if s == sampleHeader then some ⟨some "ES256"⟩ else none
  parsePayload s := if s == samplePayload then some sampleClaims else none
  loadsPublicKey pem := pem == sampleKey
  verifies alg pem signingInput signature := alg == "ES256" && pem == sampleKey &&
    signingInput == sampleHeader ++ "." ++ samplePayload && signature == sampleSignature
  ipInCidr ip cidr := ip == cidr

def sampleConfig : Config :=
  { integrationIssuer := "erp", integrationAudience := "fe", integrationPublicKey := sampleKey }

theorem believed_sample :
    believed sampleLibraries sampleConfig sampleAssertion = .ok sampleClaims := by
  have hparts : split3 sampleAssertion = some (sampleHeader, samplePayload, sampleSignature) :=
    split3_of_parts (by decide) (by decide) (by decide) (not_mem_literal (by decide))
      (not_mem_literal (by decide)) (not_mem_literal (by decide))
  have hheader : sampleLibraries.parseHeader sampleHeader = some ⟨some "ES256"⟩ := by
    unfold sampleLibraries
    simp only [beq_self_eq_true, if_true]
  have hpayload : sampleLibraries.parsePayload samplePayload = some sampleClaims := by
    unfold sampleLibraries
    simp only [beq_self_eq_true, if_true]
  have hsignature : sampleLibraries.verifies "ES256" sampleKey (sampleHeader ++ "." ++ samplePayload)
      sampleSignature = true := by
    unfold sampleLibraries
    simp only [beq_self_eq_true, Bool.and_self]
  exact authenticPayload_eq_ok.mpr ⟨_, _, _, _, hparts, hheader, hpayload, .inr rfl,
    beq_self_eq_true _, hsignature, ⟨by decide, rfl⟩, by decide, by decide⟩

theorem serve_sample : serve sampleLibraries sampleConfig
    (.authExchange {} (some (kJwtBearerGrant, sampleAssertion))) =
      timelyClaims sampleClaims >>= acceptAssertion sampleConfig {} := by
  refine authExchange_eq believed_sample (by decide) ?_ ?_ rfl
  · unfold sampleConfig sampleKey
    intro h
    exact absurd (String.append_eq_empty_iff.mp h).1 (by decide)
  · unfold sampleAssertion
    intro h
    exact absurd (String.append_eq_empty_iff.mp (String.append_eq_empty_iff.mp h).1).2 (by decide)

/-- The assertion is presented twice, `d` seconds apart. -/
def presentTwice (d : ℕ) : List (Move ApiRequest Weather) :=
  let present := .authExchange {} (some (kJwtBearerGrant, sampleAssertion))
  [.exec 1 .fair, .exec 1 .fair, .exec 1 .fair, .spawn 1 present, .tick d,
    .exec 0 .fair, .exec 0 .fair, .exec 0 .fair, .spawn 0 present, .tick 98]

theorem requests_presentTwice (d : ℕ) :
    requests sampleLibraries sampleConfig (fun _ => 0) {} (presentTwice d) =
      Pool.run (World.system {} fun _ => 0)
        (fun _ => timelyClaims sampleClaims >>= acceptAssertion sampleConfig {}) {}
        (presentTwice d) := by
  refine Pool.run_congr _ _ _ fun t c h => ?_
  simp only [presentTwice, List.mem_cons, List.not_mem_nil, reduceCtorEq, Move.spawn.injEq, false_or,
    or_false] at h
  rcases h with ⟨-, rfl⟩ | ⟨-, rfl⟩
  · exact serve_sample
  · exact serve_sample

theorem presentTwice_passesOnce :
    PassesOnce (fun _ => 0) .assertions
      (PresentsAssertion (requests sampleLibraries sampleConfig (fun _ => 0) {} (presentTwice 1))
        sampleAssertion)
      (requests sampleLibraries sampleConfig (fun _ => 0) {} (presentTwice 1)).log :=
  assertion_exchanged_once believed_sample (by decide) (presentTwice 1)
    (.of_forall (by rw [requests_presentTwice]; decide +kernel))

/-- **Not always once.** At the second presentation the assertion has expired
for the guard, which forgets it, and not yet for the verifier. -/
theorem not_assertion_exchanged_once :
    ¬ ∀ ms, PassesOnce (fun _ => 0) .assertions
      (PresentsAssertion (requests sampleLibraries sampleConfig (fun _ => 0) {} ms) sampleAssertion)
      (requests sampleLibraries sampleConfig (fun _ => 0) {} ms).log := by
  intro h
  have hboth := h (presentTwice 3) 0 1
  rw [requests_presentTwice] at hboth
  exact absurd (hboth rfl rfl rfl (by decide +kernel) (by decide +kernel)) (by decide)

end Assertions

/-! ### Hand-off codes -/

section Codes

variable {P : Libraries} {cfg : Config} {inst : ℕ → ℕ} {w₀ : World}

/-- A redemption calls the guard with the code's own identifier. -/
theorem ssoRedeem_calls {req : Request} {c : Claims} :
    (ssoRedeem cfg req (some (some (.signed c)))).Calls fun op => ∀ g j e n,
      op = .replayAccept g j e n → j = optValue c.jti ∧ e = c.exp.getD 0 := by
  have hplain : ∀ {α : Type} {q : Bridge α}, Within cfg Gate.registers q →
      q.Calls fun op => ∀ g j e n, op = .replayAccept g j e n →
        j = optValue c.jti ∧ e = c.exp.getD 0 := fun h =>
    h.calls_no_replay.mono fun op hop g j e n he => absurd he (hop g j e n)
  simp only [ssoRedeem, perform, Prog.calls_perform_bind]
  refine ⟨nofun, fun now => ?_⟩
  cases hv : (Jwt.signed c).verify now with
  | none => trivial
  | some claims =>
    obtain ⟨h, -⟩ := Jwt.verify_eq_some.mp hv
    cases h
    dsimp only
    split_ifs
    · trivial
    · refine ⟨fun g j e n he => ?_, fun accepted => ?_⟩
      · cases he
        exact ⟨rfl, rfl⟩
      · exact hplain (.ite .ret (.redeem fun _ => id))

/-- The code a request presents for redemption. -/
def ApiRequest.code? : ApiRequest → Option Jwt
  | .ssoRedeem _ (some code) => code
  | _ => none

theorem ApiRequest.eq_of_code? {rq : ApiRequest} {code : Jwt} (h : rq.code? = some code) :
    ∃ req, rq = .ssoRedeem req (some (some code)) := by
  unfold ApiRequest.code? at h
  split at h
  · cases h
    exact ⟨_, rfl⟩
  · cases h

/-- The thread's request presents the hand-off code. -/
def PresentsCode (p : Pool World Op.Ans ApiRequest Response) (code : Claims) (τ : ℕ) : Prop :=
  ((p.job τ).bind fun j => j.1.code?) = some (.signed code)

instance (p : Pool World Op.Ans ApiRequest Response) (code : Claims) :
    DecidablePred (PresentsCode p code) := fun τ => by
  unfold PresentsCode
  infer_instance

/-- Codes of two hand-offs, ten seconds apart. -/
def sampleCode (jti : String) (now : ℤ) : Claims :=
  buildHandoffClaims "fileengine-bridge" "ann" "default" jti now 10 ["pwd"]

/-- A code is presented twice, and then another. -/
def redeemTwice : List (Move ApiRequest Weather) :=
  [.exec 2 .fair, .exec 2 .fair, .spawn 2 (.ssoRedeem {} (some (some (.signed (sampleCode "b" 10))))),
    .tick 10, .exec 1 .fair, .exec 1 .fair,
    .spawn 1 (.ssoRedeem {} (some (some (.signed (sampleCode "a" 0))))), .exec 0 .fair, .exec 0 .fair,
    .spawn 0 (.ssoRedeem {} (some (some (.signed (sampleCode "a" 0)))))]

/-- A request reads the clock, and before it comes to the guard its code is
redeemed and then purged by the redemption of another code. -/
def redeemOvertaken : List (Move ApiRequest Weather) :=
  [.exec 0 .fair, .exec 2 .fair, .exec 2 .fair,
    .spawn 2 (.ssoRedeem {} (some (some (.signed (sampleCode "b" 10))))), .tick 1,
    .exec 1 .fair, .exec 1 .fair,
    .spawn 1 (.ssoRedeem {} (some (some (.signed (sampleCode "a" 0))))), .exec 0 .fair,
    .spawn 0 (.ssoRedeem {} (some (some (.signed (sampleCode "a" 0))))), .tick 9]

end Codes

end HttpBridge
