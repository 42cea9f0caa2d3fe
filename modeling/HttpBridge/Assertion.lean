/-
# Integration assertions

`assertion_verify.cpp`: what an assertion must be to be believed. The verifier
computes everything from the assertion, the configured issuer, audience and
key, and reads the clock for the expiry only; so an assertion that verifies
twice gives the same claims twice (`verify_claims_unique`).

JSON and signatures are Poco's and OpenSSL's: what a header and a payload parse
to, which texts hold a key and which signatures it verifies is a parameter
(`Libraries`), and so is which addresses lie in a range.

Key definitions: `authenticPayload`, `verifyIntegrationAssertion`.
Key theorems: `authenticPayload_eq_ok`, `verify_yields_ok`.
-/
import HttpBridge.Effects

namespace HttpBridge

open Interact

/-- `aud` is a string or an array of strings. -/
inductive Audience where
  | one (aud : String)
  | many (auds : List String)
  deriving DecidableEq

structure AssertionHeader where
  alg : Option String
  deriving DecidableEq

/-- The claims of an assertion; one that is absent, null or of another type is
`none`. -/
structure AssertionPayload where
  iss : Option String := none
  aud : Option Audience := none
  exp : Option ℤ := none
  sub : Option String := none
  tenant : Option String := none
  scope : Option String := none
  jti : Option String := none
  tokenType : Option String := none
  amr : Option (List String) := none
  deriving DecidableEq

/-- Poco and OpenSSL, as far as the exchange calls them. -/
structure Libraries where
  parseHeader : (encoded : String) → Option AssertionHeader
  parsePayload : (encoded : String) → Option AssertionPayload
  loadsPublicKey : (pem : String) → Bool
  verifies : (alg pem signingInput signature : String) → Bool
  ipInCidr : (ip cidr : String) → Bool

/-- Libraries to which nothing is well formed. -/
def Libraries.refusing : Libraries where
  parseHeader _ := none
  parsePayload _ := none
  loadsPublicKey _ := false
  verifies _ _ _ _ := false
  ipInCidr _ _ := false

/-- The claims a verified assertion hands on. -/
structure IntegrationClaims where
  issuer : String
  subject : String
  tenant : String
  scope : String
  jti : String
  tokenType : String
  amr : List String
  expiresAt : ℤ
  deriving DecidableEq

/-- `a.b.c` with three parts that are not empty. -/
def split3 (s : String) : Option (String × String × String) :=
  let rest := after '.' s
  let h := upTo '.' s
  let p := upTo '.' rest
  let sig := after '.' rest
  if '.' ∉ s.toList || '.' ∉ rest.toList || '.' ∈ sig.toList then none
  else if h == "" || p == "" || sig == "" then none
  else some (h, p, sig)

/-- Three parts without a dot, joined by dots, are split into themselves. -/
theorem split3_of_parts {h p sig : String} (hh : h ≠ "") (hp : p ≠ "") (hs : sig ≠ "")
    (dh : '.' ∉ h.toList) (dp : '.' ∉ p.toList) (ds : '.' ∉ sig.toList) :
    split3 (h ++ "." ++ (p ++ "." ++ sig)) = some (h, p, sig) := by
  have hdot : ("." : String) = String.singleton '.' := rfl
  rw [split3, hdot, upTo_append dh, after_append dh, upTo_append dp, after_append dp]
  simp [hh, hp, hs, ds, String.toList_append]
def audienceMatches (claims : AssertionPayload) (expected : String) : Bool :=
  match claims.aud with
  | some (.one aud) => aud == expected
  | some (.many auds) => auds.contains expected
  | none => false

/-- The checks before the clock is read: form, signature, issuer, audience and
the presence of an expiry. -/
def authenticPayload (P : Libraries) (assertion expectedIssuer expectedAudience pem : String) :
    Except String AssertionPayload :=
  match split3 assertion with
  | none => .error "malformed assertion"
  | some (h, p, sig) =>
    match P.parseHeader h, P.parsePayload p with
    | some hdr, some claims =>
      let alg := optValue hdr.alg
      if alg != "RS256" && alg != "ES256" then
        .error "unsupported assertion alg (expected RS256 or ES256)"
      else if !P.loadsPublicKey pem then .error "could not load integration public key (PEM)"
      else if !P.verifies alg pem (h ++ "." ++ p) sig then
        .error "assertion signature verification failed"
      else if optValue claims.iss == "" || optValue claims.iss != expectedIssuer then
        .error "assertion issuer mismatch"
      else if !audienceMatches claims expectedAudience then .error "assertion audience mismatch"
      else if claims.exp.getD 0 == 0 then .error "assertion missing exp"
      else .ok claims
    | _, _ => .error "assertion header/payload not valid JSON"

/-- What is handed on of a payload. -/
def integrationClaims (claims : AssertionPayload) : IntegrationClaims where
  issuer := optValue claims.iss
  subject := optValue claims.sub
  tenant := optValue claims.tenant
  scope := optValue claims.scope
  jti := optValue claims.jti
  tokenType := optValue claims.tokenType
  amr := claims.amr.getD []
  expiresAt := claims.exp.getD 0

/-- Seconds for which an expired assertion still verifies. -/
def kExpLeeway : ℤ := 60

/-- The checks of an authentic assertion from the clock on. -/
def timelyClaims (claims : AssertionPayload) : Bridge (Except String IntegrationClaims) := do
  let now ← perform .time
  if now > claims.exp.getD 0 + kExpLeeway then return .error "assertion expired"
  if optValue claims.sub == "" then return .error "assertion missing sub"
  return .ok (integrationClaims claims)

/-- `verifyIntegrationAssertion`. -/
def verifyIntegrationAssertion (P : Libraries)
    (assertion expectedIssuer expectedAudience pem : String) :
    Bridge (Except String IntegrationClaims) :=
  match authenticPayload P assertion expectedIssuer expectedAudience pem with
  | .error err => return .error err
  | .ok claims => timelyClaims claims

variable {P : Libraries} {assertion iss aud pem : String}

/-- What an authentic assertion has passed. -/
structure Authentic (P : Libraries) (assertion iss aud pem : String) (claims : AssertionPayload)
    (h p sig : String) (hdr : AssertionHeader) : Prop where
  parts : split3 assertion = some (h, p, sig)
  header : P.parseHeader h = some hdr
  payload : P.parsePayload p = some claims
  alg : optValue hdr.alg = "RS256" ∨ optValue hdr.alg = "ES256"
  key : P.loadsPublicKey pem = true
  signature : P.verifies (optValue hdr.alg) pem (h ++ "." ++ p) sig = true
  issuer : optValue claims.iss ≠ "" ∧ optValue claims.iss = iss
  audience : audienceMatches claims aud = true
  expiry : claims.exp.getD 0 ≠ 0

theorem authenticPayload_eq_ok {claims : AssertionPayload} :
    authenticPayload P assertion iss aud pem = .ok claims ↔
      ∃ h p sig hdr, Authentic P assertion iss aud pem claims h p sig hdr := by
  unfold authenticPayload
  constructor
  · intro hok
    split at hok
    · cases hok
    · rename_i h p sig hparts
      split at hok
      · rename_i hdr claims' hh hp
        dsimp only at hok
        split_ifs at hok with h₁ h₂ h₃ h₄ h₅ h₆
        cases hok
        refine ⟨h, p, sig, hdr, hparts, hh, hp, ?_, by simpa using h₂, by simpa using h₃,
          by simpa using h₄, by simpa using h₅, by simpa using h₆⟩
        simp only [Bool.and_eq_true, bne_iff_ne, ne_eq] at h₁
        tauto
      · cases hok
  · rintro ⟨h, p, sig, hdr, ha⟩
    obtain ⟨hi, rfl⟩ := ha.issuer
    have halg : (optValue hdr.alg != "RS256" && optValue hdr.alg != "ES256") = false := by
      rcases ha.alg with h | h <;> simp [h]
    rw [ha.parts]
    simp [ha.header, ha.payload, halg, ha.key, ha.signature, hi, ha.audience, ha.expiry]

/-- **When an assertion verifies.** It is authentic, and its expiry is no more
than the leeway ago. -/
theorem verify_yields_ok {tr : Trace} {c : IntegrationClaims} :
    (verifyIntegrationAssertion P assertion iss aud pem).Yields tr (.ok c) ↔
      ∃ p now, authenticPayload P assertion iss aud pem = .ok p ∧ tr = [⟨.time, now⟩] ∧
        now ≤ c.expiresAt + kExpLeeway ∧ optValue p.sub ≠ "" ∧ c = integrationClaims p := by
  unfold verifyIntegrationAssertion
  cases h : authenticPayload P assertion iss aud pem with
  | error err => simp
  | ok p =>
    simp only [timelyClaims, perform, Prog.yields_perform_bind]
    constructor
    · rintro ⟨now, tr', rfl, h⟩
      by_cases hexp : now > p.exp.getD 0 + kExpLeeway
      · simp [hexp] at h
      · by_cases hsub : optValue p.sub = ""
        · simp [hexp, hsub] at h
        · simp only [hexp, hsub, if_false, beq_iff_eq, Prog.pure_eq_ret, Prog.ret_yields,
            Except.ok.injEq] at h
          obtain ⟨rfl, rfl⟩ := h
          exact ⟨p, now, rfl, rfl, Int.not_lt.mp hexp, hsub, rfl⟩
    · rintro ⟨p', now, hp, rfl, hexp, hsub, rfl⟩
      cases hp
      have hlate : ¬ now > p.exp.getD 0 + kExpLeeway := Int.not_lt.mpr hexp
      refine ⟨now, [], rfl, ?_⟩
      rw [if_neg hlate]
      simp [hsub]

/-- The claims depend on the assertion, not on when it is presented. -/
theorem verify_claims_unique {tr tr' : Trace} {c c' : IntegrationClaims}
    (h : (verifyIntegrationAssertion P assertion iss aud pem).Yields tr (.ok c))
    (h' : (verifyIntegrationAssertion P assertion iss aud pem).Yields tr' (.ok c')) : c = c' := by
  obtain ⟨p, _, hp, -, -, -, rfl⟩ := verify_yields_ok.mp h
  obtain ⟨p', _, hp', -, -, -, rfl⟩ := verify_yields_ok.mp h'
  rw [hp] at hp'
  cases hp'
  rfl

end HttpBridge
