/-
# Id tokens

`verifyIdToken` (`oidc_verify.cpp`): the checks on a token of an identity
provider, in the order of the source. The key is picked from the provider's set
by a loop, which gives the key that `designatedKey` describes (`selectKey_eq`).

What a token should be is `ValidIdToken`, and that is what is accepted, but for
one thing: the expiry goes through a `double`. It is read as it stands up to
`2 ^ 53`; above that it is rounded, and what does not fit a `long` is undefined.
So a token is misjudged if the rounding moves its last second over the clock
(`idToken_exact_iff`).
-/
import HttpBridge.TokenDocuments

namespace HttpBridge

open Net

namespace TokenLibrary

variable {Key : Type} (L : TokenLibrary Key)

/-! ### The signing key -/

/-- The loop over the keys of the set. -/
def selectKey (kid : String) (jwk : Option Members) : List Json → Option Members
  | [] => jwk
  | .obj k :: rest =>
    if L.strField k "kty" != "RSA" then selectKey kid jwk rest
    else
      let kkid := L.strField k "kid"
      if kid != "" && kkid != "" && kkid != kid then selectKey kid jwk rest
      else if kid != "" && kkid == kid then some k
      else selectKey kid (some k) rest
  | _ :: rest => selectKey kid jwk rest

/-- The RSA keys of a set. -/
def rsaKeys (keys : List Json) : List Members :=
  (keys.filterMap Json.members?).filter fun k => L.strField k "kty" == "RSA"

/-- The key a token must be signed with: the first with its id, else the last
without one; for a token without an id the last. -/
def designatedKey (kid : String) (keys : List Json) : Option Members :=
  if kid = "" then (L.rsaKeys keys).getLast?
  else
    ((L.rsaKeys keys).find? fun k => L.strField k "kid" == kid).or
      ((L.rsaKeys keys).filter fun k => L.strField k "kid" == "").getLast?

/-- `rsaPubKeyFromJwk`: `none` where a decoding throws, `some none` for null. -/
def rsaPubKeyFromJwk (nB64 eB64 : String) : Option (Option Key) := do
  let nRaw ← L.b64urlDecode nB64
  let eRaw ← L.b64urlDecode eB64
  if nRaw == "" || eRaw == "" then return none
  return L.rsaKey nRaw eRaw

def signingKey (kid jwksJson : String) : Except Failure Key := do
  let root ← orElse (.refused "invalid JWKS document") (L.object jwksJson)
  let jwk ← orElse (.refused ("no matching JWKS key (kid=" ++ kid ++ ")"))
    (L.selectKey kid none (keysOf root))
  let pkey ← orElse .threw (L.rsaPubKeyFromJwk (L.strField jwk "n") (L.strField jwk "e"))
  orElse (.refused "could not build RSA key from JWK") pkey

/-! ### The checks -/

/-- The checks up to the audience. -/
def genuineClaims (idToken issuer clientId jwksJson : String) : Except Failure Members := do
  let (h, p, sig) ← orElse (.refused "malformed id_token") (split3 idToken)
  let (hdr, claims) ← orElse (.refused "id_token header/payload not valid JSON") (L.documents h p)
  require "unsupported id_token alg (expected RS256)" (L.strField hdr "alg" == "RS256")
  let pkey ← L.signingKey (L.strField hdr "kid") jwksJson
  let sigRaw ← orElse .threw (L.b64urlDecode sig)
  require "id_token signature verification failed" (L.rs256Verify pkey (h ++ "." ++ p) sigRaw)
  require "id_token issuer mismatch" (L.strField claims "iss" == issuer)
  require "id_token audience mismatch" (L.audienceMatches claims clientId)
  return claims

/-- `exp && now > exp + 60`, `none` where the sum overflows. -/
def expired (exp now : ℤ) : Option Bool :=
  if exp = 0 then some false else (Signed.add 64 exp 60).map fun deadline => decide (now > deadline)

/-- All checks. -/
def verifiedClaims (idToken issuer clientId expectedNonce jwksJson : String)
    (nowEpoch clock : ℤ) : Except Failure Members := do
  let claims ← L.genuineClaims idToken issuer clientId jwksJson
  let now := effectiveNow nowEpoch clock
  let exp ← orElse .undefined (L.numField claims "exp")
  let late ← orElse .undefined (expired exp now)
  require "id_token expired" !late
  require "id_token nonce mismatch"
    (expectedNonce == "" || L.strField claims "nonce" == expectedNonce)
  return claims

/-- `verifyIdToken`: how it ends, and `out` afterwards. -/
def verifyIdToken (idToken issuer clientId expectedNonce jwksJson : String) (out : Vouched)
    (nowEpoch clock : ℤ) : Except Failure Unit × Vouched :=
  written (L.verifiedClaims idToken issuer clientId expectedNonce jwksJson nowEpoch clock) out
    (Documents.idTokenClaims L.toConversions)

/-! ### What a token should be -/

/-- The key verifies the signature. -/
def SignedBy (jwk : Members) (h p sig : String) : Prop :=
  ∃ pkey sigRaw, L.rsaPubKeyFromJwk (L.strField jwk "n") (L.strField jwk "e") = some (some pkey) ∧
    L.b64urlDecode sig = some sigRaw ∧ L.rs256Verify pkey (h ++ "." ++ p) sigRaw = true

/-- The key that the set designates verifies the signature. -/
def SignedFrom (jwksJson kid h p sig : String) : Prop :=
  ∃ root jwk, L.object jwksJson = some root ∧ L.designatedKey kid (keysOf root) = some jwk ∧
    L.SignedBy jwk h p sig

/-- What an id token has to be, its expiry and its nonce apart. -/
structure AuthenticIdToken (idToken issuer clientId jwksJson h p sig : String)
    (hdr claims : Members) : Prop where
  reads : L.Reads idToken h p sig hdr claims
  alg : hdr.find "alg" = some (.str "RS256")
  signature : L.SignedFrom jwksJson (textOf hdr "kid") h p sig
  issuer : claims.find "iss" = some (.str issuer)
  audience : NamesAudience claims clientId

/-- What an id token has to be. -/
structure ValidIdToken (idToken issuer clientId expectedNonce jwksJson : String) (now : ℤ)
    (claims : Members) : Prop where
  authentic : ∃ h p sig hdr, L.AuthenticIdToken idToken issuer clientId jwksJson h p sig hdr claims
  inTime : ∀ n, IsInt claims "exp" n → n ≠ 0 → now ≤ n + 60
  nonce : expectedNonce ≠ "" → claims.find "nonce" = some (.str expectedNonce)

/-- The members that are checked have their types, where they are there. -/
structure IdTokenTyped (hdr claims : Members) : Prop where
  kid : TextIfAny hdr "kid"
  iss : TextIfAny claims "iss"
  nonce : TextIfAny claims "nonce"
  exp : IntIfAny claims "exp"
  aud : AudienceTexts claims

/-! ### The loop -/

section Keys
variable {L}

theorem getLast?_cons_or {α : Type} (a : α) (as : List α) (x : Option α) :
    (a :: as).getLast?.or x = as.getLast?.or (some a) := by
  rw [List.getLast?_cons]
  cases as.getLast? <;> rfl

theorem rsaKeys_cons_of_eq {k : Members} (h : L.strField k "kty" = "RSA") (rest : List Json) :
    L.rsaKeys (.obj k :: rest) = k :: L.rsaKeys rest := by
  simp [rsaKeys, Json.members?, h]

theorem rsaKeys_cons_of_ne {k : Members} (h : L.strField k "kty" ≠ "RSA") (rest : List Json) :
    L.rsaKeys (.obj k :: rest) = L.rsaKeys rest := by
  simp [rsaKeys, Json.members?, h]

/-- **What the loop picks**, with `jwk` picked before. -/
theorem selectKey_eq (kid : String) (jwk : Option Members) (keys : List Json) :
    L.selectKey kid jwk keys = (L.designatedKey kid keys).or jwk := by
  induction keys generalizing jwk with
  | nil => simp [selectKey, designatedKey, rsaKeys]
  | cons v rest ih =>
    cases v with
    | obj k =>
      rw [selectKey]
      by_cases hrsa : L.strField k "kty" = "RSA"
      · rw [if_neg (by simpa using hrsa)]
        dsimp only
        unfold designatedKey at ih ⊢
        rw [rsaKeys_cons_of_eq hrsa]
        by_cases hkid : kid = ""
        · simp only [hkid, if_true] at ih ⊢
          rw [getLast?_cons_or]
          simpa using ih (some k)
        simp only [hkid, if_false] at ih ⊢
        by_cases hexact : L.strField k "kid" = kid
        · rw [List.find?_cons_of_pos (by simpa using hexact)]
          simp [hkid, hexact]
        rw [List.find?_cons_of_neg (by simpa using hexact)]
        by_cases hnone : L.strField k "kid" = ""
        · rw [List.filter_cons_of_pos (by simpa using hnone), Option.or_assoc, getLast?_cons_or,
            ← Option.or_assoc, ← ih (some k)]
          simp [hkid, hnone, Ne.symm hkid]
        · rw [List.filter_cons_of_neg (by simpa using hnone), ← ih jwk]
          simp [hkid, hexact, hnone]
      · rw [if_pos (by simpa using hrsa), ih, designatedKey, designatedKey, rsaKeys_cons_of_ne hrsa]
    | _ => exact ih jwk

theorem signingKey_eq_ok {kid jwksJson : String} {pkey : Key} :
    L.signingKey kid jwksJson = .ok pkey ↔
      ∃ root jwk, L.object jwksJson = some root ∧ L.designatedKey kid (keysOf root) = some jwk ∧
        L.rsaPubKeyFromJwk (L.strField jwk "n") (L.strField jwk "e") = some (some pkey) := by
  simp only [signingKey, bind_eq_ok, orElse_eq_ok, selectKey_eq, Option.or_none]
  constructor
  · rintro ⟨root, hroot, jwk, hjwk, _, hkey, rfl⟩
    exact ⟨root, jwk, hroot, hjwk, hkey⟩
  · rintro ⟨root, jwk, hroot, hjwk, hkey⟩
    exact ⟨root, hroot, jwk, hjwk, _, hkey, rfl⟩

end Keys

/-! ### What is accepted -/

/-- What a token has passed at the audience. -/
structure Genuine (idToken issuer clientId jwksJson h p sig : String)
    (hdr claims : Members) : Prop where
  reads : L.Reads idToken h p sig hdr claims
  alg : L.strField hdr "alg" = "RS256"
  signature : L.SignedFrom jwksJson (L.strField hdr "kid") h p sig
  issuer : L.strField claims "iss" = issuer
  audience : L.audienceMatches claims clientId = true

section Accepted
variable {L} {idToken issuer clientId expectedNonce jwksJson : String} {nowEpoch clock : ℤ}
  {claims : Members} {out : Vouched}

theorem genuineClaims_eq_ok : L.genuineClaims idToken issuer clientId jwksJson = .ok claims ↔
    ∃ h p sig hdr, L.Genuine idToken issuer clientId jwksJson h p sig hdr claims := by
  simp only [genuineClaims, bind_eq_ok, orElse_eq_ok, require_eq_ok, Prod.exists, split3_eq_some,
    documents_eq_some, beq_iff_eq, signingKey_eq_ok, exists_const]
  constructor
  · rintro ⟨h, p, sig, hparts, hdr, claims', ⟨hh, hp⟩, halg, pkey, ⟨root, jwk, hroot, hjwk, hkey⟩,
      sigRaw, hraw, hsig, hiss, haud, hok⟩
    cases hok
    exact ⟨h, p, sig, hdr, ⟨hparts, hh, hp⟩, halg, ⟨root, jwk, hroot, hjwk, pkey, sigRaw, hkey, hraw,
      hsig⟩, hiss, haud⟩
  · rintro ⟨h, p, sig, hdr, hg⟩
    obtain ⟨root, jwk, hroot, hjwk, pkey, sigRaw, hkey, hraw, hsig⟩ := hg.signature
    exact ⟨h, p, sig, hg.reads.parts, hdr, claims, ⟨hg.reads.header, hg.reads.payload⟩, hg.alg, pkey,
      ⟨root, jwk, hroot, hjwk, hkey⟩, sigRaw, hraw, hsig, hg.issuer, hg.audience, rfl⟩

theorem verifiedClaims_eq_ok :
    L.verifiedClaims idToken issuer clientId expectedNonce jwksJson nowEpoch clock = .ok claims ↔
      L.genuineClaims idToken issuer clientId jwksJson = .ok claims ∧
      ((L.numField claims "exp").bind (expired · (effectiveNow nowEpoch clock))) = some false ∧
      (expectedNonce ≠ "" → L.strField claims "nonce" = expectedNonce) := by
  simp only [verifiedClaims, bind_eq_ok, orElse_eq_ok, require_eq_ok, exists_const,
    Option.bind_eq_some_iff, Bool.or_eq_true, beq_iff_eq, Bool.not_eq_true']
  constructor
  · rintro ⟨claims', hg, exp, hexp, late, hlate, rfl, hnonce, hok⟩
    cases hok
    exact ⟨hg, ⟨exp, hexp, hlate⟩, hnonce.resolve_left⟩
  · rintro ⟨hg, ⟨exp, hexp, hlate⟩, hnonce⟩
    exact ⟨claims, hg, exp, hexp, false, hlate, rfl, or_iff_not_imp_left.mpr hnonce, rfl⟩

theorem genuineClaims_ne_undefined :
    L.genuineClaims idToken issuer clientId jwksJson ≠ .error .undefined := by
  simp only [genuineClaims, signingKey, ne_eq, bind_eq_error, orElse_eq_error, require_eq_error,
    pure_ne_error]
  simp

/-- A designated key that does not verify the signature is the end of it. -/
theorem verifiedClaims_of_bad_signature {h p sig sigRaw : String} {hdr root jwk : Members} {pkey : Key}
    (hread : L.Reads idToken h p sig hdr claims) (halg : L.strField hdr "alg" = "RS256")
    (hroot : L.object jwksJson = some root)
    (hjwk : L.designatedKey (L.strField hdr "kid") (keysOf root) = some jwk)
    (hkey : L.rsaPubKeyFromJwk (L.strField jwk "n") (L.strField jwk "e") = some (some pkey))
    (hraw : L.b64urlDecode sig = some sigRaw)
    (hbad : L.rs256Verify pkey (h ++ "." ++ p) sigRaw = false) :
    L.verifiedClaims idToken issuer clientId expectedNonce jwksJson nowEpoch clock =
      .error (.refused "id_token signature verification failed") := by
  have hsplit := split3_eq_some.mpr hread.parts
  have hdocs := L.documents_eq_some.mpr ⟨hread.header, hread.payload⟩
  have hsigning : L.signingKey (L.strField hdr "kid") jwksJson = .ok pkey :=
    signingKey_eq_ok.mpr ⟨root, jwk, hroot, hjwk, hkey⟩
  have halg' : (L.strField hdr "alg" == "RS256") = true := beq_iff_eq.mpr halg
  rw [verifiedClaims, bind_eq_error, genuineClaims]
  left
  simp only [bind_eq_error, orElse_eq_ok, require_eq_ok, require_eq_error]
  exact .inr ⟨_, hsplit, .inr ⟨_, hdocs, .inr ⟨(), halg', .inr ⟨pkey, hsigning, .inr ⟨sigRaw, hraw,
    .inl ⟨hbad, trivial⟩⟩⟩⟩⟩⟩

/-- What is undefined is the expiry. -/
theorem verifiedClaims_eq_undefined :
    L.verifiedClaims idToken issuer clientId expectedNonce jwksJson nowEpoch clock =
        .error .undefined ↔
      ∃ claims, L.genuineClaims idToken issuer clientId jwksJson = .ok claims ∧
        ((L.numField claims "exp").bind (expired · (effectiveNow nowEpoch clock))) = none := by
  simp only [verifiedClaims, bind_eq_error, orElse_eq_error, orElse_eq_ok, require_eq_error,
    pure_ne_error, genuineClaims_ne_undefined, reduceCtorEq, and_false, exists_false, or_false,
    false_or, and_true]
  refine exists_congr fun claims => and_congr_right fun _ => ?_
  cases L.numField claims "exp" <;> simp

end Accepted

/-! ### Valid tokens -/

/-- The last second at which a token that ends at `n` is accepted, as it is
computed: `none` where it does not fit. -/
def lastSecond (n : ℤ) : Option ℤ :=
  (Signed.checked 64 (Binary64.roundInt n)).bind (Signed.add 64 · 60)

variable {L}

theorem numField_expired (hL : L.Lawful) {claims : Members} {n : ℤ} (h : IsInt claims "exp" n)
    (hn : n ≠ 0) (now : ℤ) : (L.numField claims "exp").bind (expired · now) =
      (lastSecond n).map fun d => decide (now > d) := by
  rw [numField_of_int hL h, lastSecond]
  by_cases hfits : Signed.Fits 64 (Binary64.roundInt n)
  · have hne : Binary64.roundInt n ≠ 0 := fun h => hn (Binary64.roundInt_eq_zero.mp h)
    rw [Signed.checked_of_fits hfits, Option.bind_some, Option.bind_some, expired, if_neg hne]
  · rw [Signed.checked, if_neg hfits]
    rfl

theorem numField_not_expired (hL : L.Lawful) {claims : Members}
    (h : claims.find "exp" = none ∨ IsInt claims "exp" 0) (now : ℤ) :
    (L.numField claims "exp").bind (expired · now) = some false := by
  have hzero : L.numField claims "exp" = some 0 := by
    rcases h with h | h
    · exact numField_of_none h
    · rw [numField_of_int hL h, Binary64.roundInt_eq_zero.mpr rfl]
      exact Signed.checked_of_fits (by decide)
  rw [hzero]
  rfl

section Valid
variable {idToken issuer clientId expectedNonce jwksJson h p sig : String} {nowEpoch clock now : ℤ}
  {hdr claims : Members} {out : Vouched}

/-- For members of their types the checks up to the audience are what they
should be. -/
theorem genuine_iff (hL : L.Lawful) (ht : IdTokenTyped hdr claims) (hi : issuer ≠ "") :
    L.Genuine idToken issuer clientId jwksJson h p sig hdr claims ↔
      L.AuthenticIdToken idToken issuer clientId jwksJson h p sig hdr claims := by
  have halg : L.strField hdr "alg" = "RS256" ↔ hdr.find "alg" = some (.str "RS256") :=
    strField_eq_alg hL (.inl rfl)
  have hiss : L.strField claims "iss" = issuer ↔ claims.find "iss" = some (.str issuer) :=
    strField_eq_iff ht.iss hi
  have hkid : L.strField hdr "kid" = textOf hdr "kid" := strField_of_text ht.kid
  constructor
  · intro hg
    refine ⟨hg.reads, halg.mp hg.alg, ?_, hiss.mp hg.issuer, (audienceMatches_texts ht.aud _).mp
      hg.audience⟩
    rw [← hkid]
    exact hg.signature
  · intro ha
    refine ⟨ha.reads, halg.mpr ha.alg, ?_, hiss.mpr ha.issuer, (audienceMatches_texts ht.aud _).mpr
      ha.audience⟩
    rw [hkid]
    exact ha.signature

variable (L) in
/-- The members that are checked have their types, if the token is read at all. -/
def WellTypedIdToken (idToken : String) : Prop :=
  ∀ h p sig hdr claims, L.Reads idToken h p sig hdr claims → IdTokenTyped hdr claims

theorem authentic_iff (hL : L.Lawful) (ht : L.WellTypedIdToken idToken) (hi : issuer ≠ "") :
    (∃ h p sig hdr, L.AuthenticIdToken idToken issuer clientId jwksJson h p sig hdr claims) ↔
      L.genuineClaims idToken issuer clientId jwksJson = .ok claims := by
  rw [genuineClaims_eq_ok]
  constructor
  · rintro ⟨h, p, sig, hdr, ha⟩
    exact ⟨h, p, sig, hdr, (genuine_iff hL (ht _ _ _ _ _ ha.reads) hi).mpr ha⟩
  · rintro ⟨h, p, sig, hdr, hg⟩
    exact ⟨h, p, sig, hdr, (genuine_iff hL (ht _ _ _ _ _ hg.reads) hi).mp hg⟩

theorem valid_iff (hL : L.Lawful) (ht : L.WellTypedIdToken idToken) (hi : issuer ≠ "") :
    L.ValidIdToken idToken issuer clientId expectedNonce jwksJson now claims ↔
      L.genuineClaims idToken issuer clientId jwksJson = .ok claims ∧
      (∀ n, IsInt claims "exp" n → n ≠ 0 → now ≤ n + 60) ∧
      (expectedNonce ≠ "" → L.strField claims "nonce" = expectedNonce) := by
  rw [← authentic_iff hL ht hi]
  have hnonce : (∃ h p sig hdr, L.AuthenticIdToken idToken issuer clientId jwksJson h p sig hdr claims) →
      expectedNonce ≠ "" → (L.strField claims "nonce" = expectedNonce ↔
        claims.find "nonce" = some (.str expectedNonce)) := by
    rintro ⟨h, p, sig, hdr, ha⟩ hne
    exact strField_eq_iff (ht _ _ _ _ _ ha.reads).nonce hne
  constructor
  · intro hv
    exact ⟨hv.authentic, hv.inTime, fun hne => (hnonce hv.authentic hne).mpr (hv.nonce hne)⟩
  · rintro ⟨ha, htime, hn⟩
    exact ⟨ha, htime, fun hne => (hnonce ha hne).mp (hn hne)⟩

/-! ### Every call -/

theorem verifyIdToken_eq_ok :
    (L.verifyIdToken idToken issuer clientId expectedNonce jwksJson out nowEpoch clock).1 = .ok () ↔
      ∃ claims, L.verifiedClaims idToken issuer clientId expectedNonce jwksJson nowEpoch clock =
        .ok claims := written_eq_ok

theorem verifyIdToken_eq_error {failure : Failure} :
    (L.verifyIdToken idToken issuer clientId expectedNonce jwksJson out nowEpoch clock).1 =
        .error failure ↔
      L.verifiedClaims idToken issuer clientId expectedNonce jwksJson nowEpoch clock =
        .error failure := written_eq_error

theorem verifyIdToken_keeps (h :
    (L.verifyIdToken idToken issuer clientId expectedNonce jwksJson out nowEpoch clock).1 ≠ .ok ()) :
    (L.verifyIdToken idToken issuer clientId expectedNonce jwksJson out nowEpoch clock).2 = out :=
  written_keeps h

variable (L) (idToken issuer clientId expectedNonce jwksJson) (nowEpoch clock) (out)

/-- A call does what it should: it is defined, it accepts the valid tokens and no
others, and where it does not accept it leaves `out` alone. -/
structure JudgesIdToken : Prop where
  defined : (L.verifyIdToken idToken issuer clientId expectedNonce jwksJson out nowEpoch clock).1 ≠
    .error .undefined
  accepts : (L.verifyIdToken idToken issuer clientId expectedNonce jwksJson out nowEpoch clock).1 =
    .ok () ↔ ∃ claims, L.ValidIdToken idToken issuer clientId expectedNonce jwksJson
      (effectiveNow nowEpoch clock) claims
  keeps : (L.verifyIdToken idToken issuer clientId expectedNonce jwksJson out nowEpoch clock).1 ≠
    .ok () →
      (L.verifyIdToken idToken issuer clientId expectedNonce jwksJson out nowEpoch clock).2 = out

/-- An authentic token whose expiry is misread: it does not fit, or the nonce is
right and the clock is between the last second that is computed and the one that
is meant. -/
def MisreadsExpiry : Prop :=
  ∃ h p sig hdr claims n, L.AuthenticIdToken idToken issuer clientId jwksJson h p sig hdr claims ∧
    IsInt claims "exp" n ∧ n ≠ 0 ∧
    (lastSecond n = none ∨
      (expectedNonce ≠ "" → claims.find "nonce" = some (.str expectedNonce)) ∧
        ∃ d, lastSecond n = some d ∧
          ¬ (effectiveNow nowEpoch clock ≤ d ↔ effectiveNow nowEpoch clock ≤ n + 60))

variable {L idToken issuer clientId expectedNonce jwksJson} {nowEpoch clock} {out}

/-- A token whose expiry is misread is judged wrongly. -/
theorem MisreadsExpiry.not_judges (hL : L.Lawful) (ht : L.WellTypedIdToken idToken)
    (hi : issuer ≠ "")
    (hmis : L.MisreadsExpiry idToken issuer clientId expectedNonce jwksJson nowEpoch clock) :
    ¬ L.JudgesIdToken idToken issuer clientId expectedNonce jwksJson nowEpoch clock out := by
  obtain ⟨h, p, sig, hdr, claims, n, ha, hn, hne, hbad⟩ := hmis
  intro hj
  have hg := (authentic_iff hL ht hi).mp ⟨h, p, sig, hdr, ha⟩
  have hexp := numField_expired hL hn hne (effectiveNow nowEpoch clock)
  rcases hbad with hnone | ⟨hnonce, d, hd, hdiff⟩
  · rw [hnone] at hexp
    exact hj.defined (verifyIdToken_eq_error.mpr
      (verifiedClaims_eq_undefined.mpr ⟨claims, hg, hexp⟩))
  · rw [hd] at hexp
    have hnonce' : expectedNonce ≠ "" → L.strField claims "nonce" = expectedNonce := fun h =>
      (strField_eq_iff (ht _ _ _ _ _ ha.reads).nonce h).mpr (hnonce h)
    apply hdiff
    constructor
    · intro hle
      have hlate : (L.numField claims "exp").bind (expired · (effectiveNow nowEpoch clock)) =
          some false := by
        rw [hexp, Option.map_some, decide_eq_false (not_lt.mpr hle)]
      obtain ⟨claims', hv⟩ := hj.accepts.mp
        (verifyIdToken_eq_ok.mpr ⟨claims, verifiedClaims_eq_ok.mpr ⟨hg, hlate, hnonce'⟩⟩)
      obtain ⟨hg', htime, -⟩ := (valid_iff hL ht hi).mp hv
      obtain rfl : claims = claims' := Except.ok.inj (hg.symm.trans hg')
      exact htime n hn hne
    · intro hle
      have htime : ∀ m, IsInt claims "exp" m → m ≠ 0 → effectiveNow nowEpoch clock ≤ m + 60 := by
        intro m hm _
        rw [hm.unique hn]
        exact hle
      obtain ⟨claims', hv⟩ := verifyIdToken_eq_ok.mp
        (hj.accepts.mpr ⟨claims, (valid_iff hL ht hi).mpr ⟨hg, htime, hnonce'⟩⟩)
      obtain ⟨hg', hlate, -⟩ := verifiedClaims_eq_ok.mp hv
      obtain rfl : claims = claims' := Except.ok.inj (hg.symm.trans hg')
      rw [hexp, Option.map_some, Option.some.injEq, decide_eq_false_iff_not] at hlate
      exact not_lt.mp hlate

theorem judges_of_not_misreads (hL : L.Lawful) (ht : L.WellTypedIdToken idToken) (hi : issuer ≠ "")
    (hno : ¬ L.MisreadsExpiry idToken issuer clientId expectedNonce jwksJson nowEpoch clock) :
    L.JudgesIdToken idToken issuer clientId expectedNonce jwksJson nowEpoch clock out := by
  -- the expiry is read, and for a token with the nonce as it should be
  have hread : ∀ claims, L.genuineClaims idToken issuer clientId jwksJson = .ok claims →
      ∃ late, (L.numField claims "exp").bind (expired · (effectiveNow nowEpoch clock)) = some late ∧
        ((expectedNonce ≠ "" → L.strField claims "nonce" = expectedNonce) → (late = false ↔
          ∀ n, IsInt claims "exp" n → n ≠ 0 → effectiveNow nowEpoch clock ≤ n + 60)) := by
    intro claims hg
    obtain ⟨h, p, sig, hdr, ha⟩ := (authentic_iff hL ht hi).mpr hg
    have htyped := ht _ _ _ _ _ ha.reads
    have hnever : claims.find "exp" = none ∨ IsInt claims "exp" 0 →
        ∀ n, IsInt claims "exp" n → n ≠ 0 → effectiveNow nowEpoch clock ≤ n + 60 := by
      rintro (hnone | hzero) n hn hne
      · exact absurd hn (not_isInt_of_none hnone)
      · exact absurd (hn.unique hzero) hne
    by_cases hzero : claims.find "exp" = none ∨ IsInt claims "exp" 0
    · exact ⟨false, numField_not_expired hL hzero _, fun _ => iff_of_true rfl (hnever hzero)⟩
    · obtain ⟨n, hn⟩ := htyped.exp.cases.resolve_left fun h => hzero (.inl h)
      have hne : n ≠ 0 := by
        rintro rfl
        exact hzero (.inr hn)
      have hexp := numField_expired hL hn hne (effectiveNow nowEpoch clock)
      cases hd : lastSecond n with
      | none => exact absurd ⟨h, p, sig, hdr, claims, n, ha, hn, hne, .inl hd⟩ hno
      | some d =>
        rw [hd] at hexp
        refine ⟨_, hexp, fun hnonce => ?_⟩
        have hsame : effectiveNow nowEpoch clock ≤ d ↔ effectiveNow nowEpoch clock ≤ n + 60 := by
          by_contra hdiff
          exact hno ⟨h, p, sig, hdr, claims, n, ha, hn, hne, .inr ⟨fun h =>
            (strField_eq_iff htyped.nonce h).mp (hnonce h), d, hd, hdiff⟩⟩
        rw [decide_eq_false_iff_not, gt_iff_lt, not_lt, hsame]
        constructor
        · intro hle m hm _
          rw [hm.unique hn]
          exact hle
        · exact fun hall => hall n hn hne
  refine ⟨?_, ?_, verifyIdToken_keeps⟩
  · rw [ne_eq, verifyIdToken_eq_error, verifiedClaims_eq_undefined]
    rintro ⟨claims, hg, hnone⟩
    obtain ⟨late, hlate, -⟩ := hread claims hg
    rw [hlate] at hnone
    cases hnone
  · rw [verifyIdToken_eq_ok]
    refine exists_congr fun claims => ?_
    rw [verifiedClaims_eq_ok, valid_iff hL ht hi]
    refine and_congr_right fun hg => and_congr_left fun hnonce => ?_
    obtain ⟨late, hlate, hiff⟩ := hread claims hg
    rw [hlate, Option.some.injEq, hiff hnonce]

/-- **Id tokens.** A call does what it should unless the token's expiry is
misread. -/
theorem idToken_exact_iff (hL : L.Lawful) (ht : L.WellTypedIdToken idToken) (hi : issuer ≠ "") :
    L.JudgesIdToken idToken issuer clientId expectedNonce jwksJson nowEpoch clock out ↔
      ¬ L.MisreadsExpiry idToken issuer clientId expectedNonce jwksJson nowEpoch clock :=
  ⟨fun hj hmis => hmis.not_judges hL ht hi hj, judges_of_not_misreads hL ht hi⟩

/-- An expiry up to `2 ^ 53` is read as it stands. -/
theorem lastSecond_of_le {n : ℤ} (h : n.natAbs ≤ 2 ^ 53) : lastSecond n = some (n + 60) := by
  have hfits : Signed.Fits 64 n := by
    rw [Signed.fits_long]
    omega
  have hsum : Signed.Fits 64 (n + 60) := by
    rw [Signed.fits_long]
    omega
  rw [lastSecond, Binary64.roundInt_of_le h, Signed.checked_of_fits hfits, Option.bind_some,
    Signed.add_of_fits hsum]

end Valid

/-! ### A token that ends far ahead -/

/-- Two tokens for the app, signed with the key `k1`. -/
def sampleToken (payload : String) : String :=
  "eyJhbGciOiJSUzI1NiIsImtpZCI6ImsxIn0" ++ "." ++ (payload ++ "." ++ "c2lnbmVkIGJ5IE4x")

def roundedPayload : String :=
  "eyJpc3MiOiJodHRwczovL2lkcCIsImF1ZCI6ImFwcCIsImV4cCI6OTAwNzE5OTI1NDc0MDk5M30"

def endlessPayload : String :=
  "eyJpc3MiOiJodHRwczovL2lkcCIsImF1ZCI6ImFwcCIsImV4cCI6OTIyMzM3MjAzNjg1NDc3NTgwN30"

def sampleHeader : Members := [("alg", .str "RS256"), ("kid", .str "k1")]

def claimsUntil (exp : String) : Members :=
  [("iss", .str "https://idp"), ("aud", .str "app"), ("exp", .num exp)]

def sampleKeySet : String :=
  "\x7b\"keys\":[\x7b\"kty\":\"RSA\",\"kid\":\"k1\",\"n\":\"TjE\",\"e\":\"RQ\"\x7d]\x7d"

def sampleTexts : List (String × String) :=
  [("eyJhbGciOiJSUzI1NiIsImtpZCI6ImsxIn0", "\x7b\"alg\":\"RS256\",\"kid\":\"k1\"\x7d"),
    (roundedPayload, "\x7b\"iss\":\"https://idp\",\"aud\":\"app\",\"exp\":9007199254740993\x7d"),
    (endlessPayload, "\x7b\"iss\":\"https://idp\",\"aud\":\"app\",\"exp\":9223372036854775807\x7d"),
    ("c2lnbmVkIGJ5IE4x", "signed by N1"), ("TjE", "N1"), ("TjI", "N2"),
    ("RQ", "E")]

def sampleDocuments : List (String × Json) :=
  [("\x7b\"alg\":\"RS256\",\"kid\":\"k1\"\x7d", .obj sampleHeader),
    ("\x7b\"iss\":\"https://idp\",\"aud\":\"app\",\"exp\":9007199254740993\x7d",
      .obj (claimsUntil "9007199254740993")),
    ("\x7b\"iss\":\"https://idp\",\"aud\":\"app\",\"exp\":9223372036854775807\x7d",
      .obj (claimsUntil "9223372036854775807")),
    (sampleKeySet, .obj [("keys", .arr [.obj [("kty", .str "RSA"), ("kid", .str "k1"),
      ("n", .str "TjE"), ("e", .str "RQ")]])])]

/-- The library, with further documents. -/
def sampleLibrary (documents : List (String × Json)) : TokenLibrary String :=
  listedLibrary sampleTexts (sampleDocuments ++ documents)

theorem sampleLibrary_lawful {documents : List (String × Json)} (h : documents.lookup "" = none) :
    (sampleLibrary documents).Lawful := by
  apply listedLibrary_lawful
  rw [List.lookup_append, h]
  rfl

theorem typed_claimsUntil {exp : String} {n : ℤ} (hn : wholeNumber exp = some n) :
    IdTokenTyped sampleHeader (claimsUntil exp) where
  kid := textIfAny_of_text rfl
  iss := textIfAny_of_text rfl
  nonce := textIfAny_of_none rfl
  exp _ hv := ⟨exp, n, Option.some.inj (hv.symm.trans rfl), hn⟩
  aud _ hv := .inl ⟨"app", Option.some.inj (hv.symm.trans rfl)⟩

section Sample
variable {documents : List (String × Json)} {payload exp : String} {n now : ℤ}
  (hpart : IsPart payload)
  (hpayload : (sampleLibrary documents).part payload = some (claimsUntil exp))
  (hn : wholeNumber exp = some n)
include hpart hpayload

theorem sample_reads : (sampleLibrary documents).Reads (sampleToken payload)
    "eyJhbGciOiJSUzI1NiIsImtpZCI6ImsxIn0" payload "c2lnbmVkIGJ5IE4x" sampleHeader
    (claimsUntil exp) where
  parts := ⟨rfl, ⟨by decide, by decide⟩, hpart, ⟨by decide, by decide⟩⟩
  header := rfl
  payload := hpayload

theorem sample_authentic : (sampleLibrary documents).AuthenticIdToken (sampleToken payload)
    "https://idp" "app" sampleKeySet "eyJhbGciOiJSUzI1NiIsImtpZCI6ImsxIn0" payload
    "c2lnbmVkIGJ5IE4x" sampleHeader (claimsUntil exp) where
  reads := sample_reads hpart hpayload
  alg := rfl
  signature := ⟨_, _, rfl, rfl, "N1", "signed by N1", rfl, rfl, rfl⟩
  issuer := rfl
  audience := .inl rfl

include hn

theorem sample_typed : (sampleLibrary documents).WellTypedIdToken (sampleToken payload) := by
  intro h p sig hdr claims hr
  obtain ⟨-, rfl, rfl⟩ := (sample_reads hpart hpayload).unique hr
  exact typed_claimsUntil hn

theorem sample_genuine (hdocs : documents.lookup "" = none) :
    (sampleLibrary documents).genuineClaims (sampleToken payload) "https://idp" "app"
      sampleKeySet = .ok (claimsUntil exp) :=
  (authentic_iff (sampleLibrary_lawful hdocs) (sample_typed hpart hpayload hn) (by decide)).mp
    ⟨_, _, _, _, sample_authentic hpart hpayload⟩

theorem sample_verified (hdocs : documents.lookup "" = none) (hne : n ≠ 0) {d : ℤ}
    (hd : lastSecond n = some d) (hle : now ≤ d) :
    (sampleLibrary documents).verifiedClaims (sampleToken payload) "https://idp" "app" ""
      sampleKeySet 0 now = .ok (claimsUntil exp) := by
  have hlate : ((sampleLibrary documents).numField (claimsUntil exp) "exp").bind (expired · now) =
      some false := by
    rw [numField_expired (sampleLibrary_lawful hdocs) ⟨exp, rfl, hn⟩ hne, hd, Option.map_some,
      decide_eq_false (not_lt.mpr hle)]
  exact verifiedClaims_eq_ok.mpr ⟨sample_genuine hpart hpayload hn hdocs, hlate, fun h =>
    absurd rfl h⟩

theorem sample_valid (hle : now ≤ n + 60) :
    (sampleLibrary documents).ValidIdToken (sampleToken payload) "https://idp" "app" ""
      sampleKeySet now (claimsUntil exp) where
  authentic := ⟨_, _, _, _, sample_authentic hpart hpayload⟩
  inTime m hm _ := by
    rw [hm.unique ⟨exp, rfl, hn⟩]
    exact hle
  nonce h := absurd rfl h

/-- The sample is misread only if its last second is. -/
theorem sample_misreads_iff (hne : n ≠ 0) :
    (sampleLibrary documents).MisreadsExpiry (sampleToken payload) "https://idp" "app" ""
        sampleKeySet 0 now ↔
      lastSecond n = none ∨ ∃ d, lastSecond n = some d ∧ ¬ (now ≤ d ↔ now ≤ n + 60) := by
  have hexp : IsInt (claimsUntil exp) "exp" n := ⟨exp, rfl, hn⟩
  constructor
  · rintro ⟨h, p, sig, hdr, claims, m, ha, hm, -, hbad⟩
    obtain ⟨-, -, rfl⟩ := (sample_reads hpart hpayload).unique ha.reads
    obtain rfl := hm.unique hexp
    exact hbad.imp_right And.right
  · intro hbad
    exact ⟨_, _, _, _, _, n, sample_authentic hpart hpayload, hexp, hne, hbad.imp_right fun h =>
      ⟨fun hnonce => absurd rfl hnonce, h⟩⟩

end Sample

theorem roundedPayload_isPart : IsPart roundedPayload := ⟨by decide, not_mem_literal (by decide)⟩

theorem endlessPayload_isPart : IsPart endlessPayload := ⟨by decide, not_mem_literal (by decide)⟩

theorem part_roundedPayload {documents : List (String × Json)} :
    (sampleLibrary documents).part roundedPayload = some (claimsUntil "9007199254740993") := rfl

theorem part_endlessPayload {documents : List (String × Json)} :
    (sampleLibrary documents).part endlessPayload = some (claimsUntil "9223372036854775807") := rfl

theorem wholeNumber_rounded : wholeNumber "9007199254740993" = some 9007199254740993 := by decide

theorem wholeNumber_endless : wholeNumber "9223372036854775807" = some 9223372036854775807 := by
  decide

/-- A second after `2 ^ 53` is rounded to `2 ^ 53`. -/
theorem lastSecond_rounded : lastSecond 9007199254740993 = some 9007199254741052 := by decide

/-- The greatest `long` is rounded to `2 ^ 63`, which is none. -/
theorem lastSecond_endless : lastSecond 9223372036854775807 = none := by decide

/-- Today's clock is before the last second either way. -/
theorem idToken_exact_iff_today : (sampleLibrary []).Lawful ∧
    (sampleLibrary []).WellTypedIdToken (sampleToken roundedPayload) ∧
    (sampleLibrary []).JudgesIdToken (sampleToken roundedPayload) "https://idp" "app" "" sampleKeySet
      0 1700000000 ⟨"", "", false⟩ := by
  have ht : (sampleLibrary []).WellTypedIdToken (sampleToken roundedPayload) :=
    sample_typed roundedPayload_isPart part_roundedPayload wholeNumber_rounded
  have hL : (sampleLibrary []).Lawful := sampleLibrary_lawful rfl
  refine ⟨hL, ht, (idToken_exact_iff hL ht (by decide)).mpr ?_⟩
  rw [sample_misreads_iff roundedPayload_isPart part_roundedPayload wholeNumber_rounded (by decide),
    lastSecond_rounded]
  rintro (h | ⟨d, hd, hdiff⟩)
  · cases h
  · cases hd
    exact hdiff (by decide)

/-- In the last second of the first token it is refused, for its expiry is
rounded down; and the second is never accepted. -/
theorem valid_idToken_not_accepted :
    (sampleLibrary []).ValidIdToken (sampleToken roundedPayload) "https://idp" "app" "" sampleKeySet
      9007199254741053 (claimsUntil "9007199254740993") ∧
    ((sampleLibrary []).verifyIdToken (sampleToken roundedPayload) "https://idp" "app" "" sampleKeySet
      ⟨"", "", false⟩ 0 9007199254741053).1 = .error (.refused "id_token expired") ∧
    (sampleLibrary []).ValidIdToken (sampleToken endlessPayload) "https://idp" "app" "" sampleKeySet
      1700000000 (claimsUntil "9223372036854775807") ∧
    ((sampleLibrary []).verifyIdToken (sampleToken endlessPayload) "https://idp" "app" "" sampleKeySet
      ⟨"", "", false⟩ 0 1700000000).1 = .error .undefined := by
  refine ⟨sample_valid roundedPayload_isPart part_roundedPayload wholeNumber_rounded (by decide), ?_,
    sample_valid endlessPayload_isPart part_endlessPayload wholeNumber_endless (by decide), ?_⟩
  · have hexp : (sampleLibrary []).numField (claimsUntil "9007199254740993") "exp" =
        some 9007199254740992 :=
      (numField_of_int (sampleLibrary_lawful rfl) ⟨_, rfl, wholeNumber_rounded⟩).trans (by decide)
    rw [verifyIdToken_eq_error, verifiedClaims,
      sample_genuine roundedPayload_isPart part_roundedPayload wholeNumber_rounded rfl, bind_eq_error]
    refine .inr ⟨_, rfl, ?_⟩
    rw [hexp]
    rfl
  · rw [verifyIdToken_eq_error, verifiedClaims_eq_undefined]
    refine ⟨_, sample_genuine endlessPayload_isPart part_endlessPayload wholeNumber_endless rfl, ?_⟩
    rw [numField_expired (sampleLibrary_lawful rfl) ⟨_, rfl, wholeNumber_endless⟩ (by decide),
      lastSecond_endless]
    rfl

end TokenLibrary
end HttpBridge
