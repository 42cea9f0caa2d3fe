/-
# Assertions as they are sent

`verifyIntegrationAssertion` (`assertion_verify.cpp`) on the assertion's own
documents, with what it leaves in `out`. What an assertion should be is
`ValidAssertion`. The verifier departs from it in three ways: an element of the
audience that converts to no text ends the search before the expected one is
found (`MissesAudience`), or one converts to the expected text without being it
(`AdmitsAudience`); and the expiry goes through a `double`. Apart from these it
accepts what is valid and leaves `out` alone otherwise (`assertion_exact_iff`).

Where it is defined it is the verifier of `Assertion` (`refines_assertion`).
-/
import HttpBridge.IdTokens

namespace HttpBridge

open Net Interact

namespace TokenLibrary

variable {Key : Type} (L : TokenLibrary Key)

/-! ### The checks -/

def loadPublicKeyPem (pem : String) : Option Key := if pem == "" then none else L.publicKey pem

/-- The signature check of the algorithm. -/
def algVerify (alg : String) (pkey : Key) (signingInput sigRaw : String) : Bool :=
  if alg == "RS256" then L.rs256Verify pkey signingInput sigRaw
  else L.es256Verify pkey signingInput sigRaw

/-- The checks up to the audience. -/
def genuineAssertion (assertion expectedIssuer expectedAudience pem : String) :
    Except Failure Members := do
  let (h, p, sig) ← orElse (.refused "malformed assertion") (split3 assertion)
  let (hdr, claims) ← orElse (.refused "assertion header/payload not valid JSON") (L.documents h p)
  let alg := L.strField hdr "alg"
  require "unsupported assertion alg (expected RS256 or ES256)" (alg == "RS256" || alg == "ES256")
  let pkey ← orElse (.refused "could not load integration public key (PEM)") (L.loadPublicKeyPem pem)
  let sigRaw ← orElse .threw (L.b64urlDecode sig)
  require "assertion signature verification failed" (L.algVerify alg pkey (h ++ "." ++ p) sigRaw)
  let iss := L.strField claims "iss"
  require "assertion issuer mismatch" (iss != "" && iss == expectedIssuer)
  require "assertion audience mismatch" (L.audienceMatches claims expectedAudience)
  return claims

/-- The rest of the checks. -/
def assertedClaims (assertion expectedIssuer expectedAudience pem : String)
    (nowEpoch clock : ℤ) : Except Failure (Members × ℤ) := do
  let claims ← L.genuineAssertion assertion expectedIssuer expectedAudience pem
  let exp ← orElse .undefined (L.numField claims "exp")
  require "assertion missing exp" (exp != 0)
  let now := effectiveNow nowEpoch clock
  let deadline ← orElse .undefined (Signed.add 64 exp 60)
  require "assertion expired" (now ≤ deadline)
  require "assertion missing sub" (L.strField claims "sub" != "")
  return (claims, exp)

/-- The elements up to the first that converts to no text. -/
def leadingTexts : List Json → List String
  | [] => []
  | v :: rest =>
    match L.toText v with
    | none => []
    | some s => s :: leadingTexts rest

/-- `out.amr`. -/
def assertedAmr (claims : Members) : List String :=
  match claims.find "amr" with
  | some (.arr items) => L.leadingTexts items
  | _ => []

/-- What is written to `out`. -/
def assertionClaims (claims : Members) (exp : ℤ) : IntegrationClaims where
  issuer := L.strField claims "iss"
  subject := L.strField claims "sub"
  tenant := L.strField claims "tenant"
  scope := L.strField claims "scope"
  jti := L.strField claims "jti"
  tokenType := L.strField claims "token_type"
  amr := L.assertedAmr claims
  expiresAt := exp

/-- `verifyIntegrationAssertion`: how it ends, and `out` afterwards. -/
def verifyIntegrationAssertion (assertion expectedIssuer expectedAudience pem : String)
    (out : IntegrationClaims) (nowEpoch clock : ℤ) : Except Failure Unit × IntegrationClaims :=
  written (L.assertedClaims assertion expectedIssuer expectedAudience pem nowEpoch clock) out
    fun (claims, exp) => L.assertionClaims claims exp

/-! ### What an assertion should be -/

/-- What an assertion has to be, its audience, expiry and subject apart. -/
structure AuthenticAssertion (assertion expectedIssuer pem h p sig : String)
    (hdr claims : Members) : Prop where
  reads : L.Reads assertion h p sig hdr claims
  signature : ∃ alg pkey sigRaw, (alg = "RS256" ∨ alg = "ES256") ∧
    hdr.find "alg" = some (.str alg) ∧ L.loadPublicKeyPem pem = some pkey ∧
    L.b64urlDecode sig = some sigRaw ∧ L.algVerify alg pkey (h ++ "." ++ p) sigRaw = true
  issuer : expectedIssuer ≠ "" ∧ claims.find "iss" = some (.str expectedIssuer)

def NamesSubject (claims : Members) : Prop := ∃ s, s ≠ "" ∧ claims.find "sub" = some (.str s)

/-- What an assertion has to be. -/
structure ValidAssertion (assertion expectedIssuer expectedAudience pem : String) (now : ℤ)
    (claims : Members) : Prop where
  authentic : ∃ h p sig hdr, L.AuthenticAssertion assertion expectedIssuer pem h p sig hdr claims
  audience : NamesAudience claims expectedAudience
  inTime : ∃ n, IsInt claims "exp" n ∧ n ≠ 0 ∧ now ≤ n + 60
  subject : NamesSubject claims

/-- The members that are checked have their types, where they are there; the
audience may be any value. -/
structure AssertionTyped (claims : Members) : Prop where
  iss : TextIfAny claims "iss"
  sub : TextIfAny claims "sub"
  exp : IntIfAny claims "exp"

/-! ### The audience -/

/-- The expected audience is in the list, behind an element that converts to no
text and before which nothing reads as it. -/
def MissesAudience (claims : Members) (expected : String) : Prop :=
  ∃ before v after, claims.find "aud" = some (.arr (before ++ v :: after)) ∧
    .str expected ∈ after ∧ L.toText v = none ∧ ∀ w ∈ before, L.toText w ≠ some expected

/-- The expected audience is not in the list, but an element reads as it, and
every one before that is read. -/
def AdmitsAudience (claims : Members) (expected : String) : Prop :=
  ∃ before v after, claims.find "aud" = some (.arr (before ++ v :: after)) ∧
    .str expected ∉ before ++ v :: after ∧ L.toText v = some expected ∧
    ∀ w ∈ before, L.toText w ≠ none

section Audience
variable {L}

/-- An element that reads as the expected audience is found if every one before it
is read. -/
theorem audienceAmong_eq_true {expected : String} {auds : List Json} :
    L.audienceAmong expected auds = true ↔ ∃ before v after, auds = before ++ v :: after ∧
      L.toText v = some expected ∧ ∀ w ∈ before, L.toText w ≠ none := by
  constructor
  · intro h
    induction auds with
    | nil => cases h
    | cons w auds ih =>
      rw [audienceAmong] at h
      cases htext : L.toText w with
      | none =>
        rw [htext] at h
        cases h
      | some aud =>
        rw [htext] at h
        dsimp only at h
        rw [Bool.or_eq_true, beq_iff_eq] at h
        rcases h with rfl | h
        · exact ⟨[], w, auds, rfl, htext, fun w hw => absurd hw List.not_mem_nil⟩
        · obtain ⟨before, v, after, rfl, hv, hbefore⟩ := ih h
          have hw : L.toText w ≠ none := by
            rw [htext]
            exact Option.some_ne_none aud
          exact ⟨w :: before, v, after, rfl, hv, List.forall_mem_cons.mpr ⟨hw, hbefore⟩⟩
  · rintro ⟨before, v, after, rfl, hv, hbefore⟩
    induction before with
    | nil =>
      rw [List.nil_append, audienceAmong, hv]
      simp
    | cons w before ih =>
      obtain ⟨hw, hbefore⟩ := List.forall_mem_cons.mp hbefore
      obtain ⟨aud, htext⟩ := Option.ne_none_iff_exists'.mp hw
      rw [List.cons_append, audienceAmong, htext]
      dsimp only
      rw [ih hbefore, Bool.or_true]

/-- An element that converts to no text ends the search if nothing before it reads
as the expected audience. -/
theorem audienceAmong_stopped {expected : String} {before after : List Json} {v : Json}
    (hv : L.toText v = none) (hbefore : ∀ w ∈ before, L.toText w ≠ some expected) :
    L.audienceAmong expected (before ++ v :: after) = false := by
  induction before with
  | nil => rw [List.nil_append, audienceAmong, hv]
  | cons w before ih =>
    obtain ⟨hw, hbefore⟩ := List.forall_mem_cons.mp hbefore
    rw [List.cons_append, audienceAmong]
    cases htext : L.toText w with
    | none => rfl
    | some aud =>
      have hne : (aud == expected) = false := by
        rw [beq_eq_false_iff_ne]
        rintro rfl
        exact hw htext
      dsimp only
      rw [hne, ih hbefore, Bool.or_false]

/-- The expected audience is missed only behind an element that converts to no
text. -/
theorem audienceAmong_missed {expected : String} {auds : List Json}
    (h : L.audienceAmong expected auds = false) (hmem : .str expected ∈ auds) :
    ∃ before v after, auds = before ++ v :: after ∧ .str expected ∈ after ∧
      L.toText v = none ∧ ∀ w ∈ before, L.toText w ≠ some expected := by
  induction auds with
  | nil => exact absurd hmem List.not_mem_nil
  | cons w auds ih =>
    rw [audienceAmong] at h
    cases htext : L.toText w with
    | none =>
      have hne : .str expected ≠ w := by
        rintro rfl
        cases htext
      exact ⟨[], w, auds, rfl, (List.mem_cons.mp hmem).resolve_left hne, htext, fun w hw =>
        absurd hw List.not_mem_nil⟩
    | some aud =>
      rw [htext] at h
      dsimp only at h
      rw [Bool.or_eq_false_iff, beq_eq_false_iff_ne] at h
      have hne : .str expected ≠ w := by
        rintro rfl
        exact h.1 (Option.some.inj htext).symm
      obtain ⟨before, v, after, rfl, hafter, hv, hbefore⟩ :=
        ih h.2 ((List.mem_cons.mp hmem).resolve_left hne)
      have hw : L.toText w ≠ some expected := by
        rw [htext]
        exact fun heq => h.1 (Option.some.inj heq)
      exact ⟨w :: before, v, after, rfl, hafter, hv, List.forall_mem_cons.mpr ⟨hw, hbefore⟩⟩

/-- What the audience should be and is not taken for. -/
theorem missesAudience_iff {claims : Members} {expected : String} :
    L.MissesAudience claims expected ↔
      NamesAudience claims expected ∧ L.audienceMatches claims expected = false := by
  unfold MissesAudience NamesAudience audienceMatches
  constructor
  · rintro ⟨before, v, after, hfind, hafter, hv, hbefore⟩
    rw [hfind]
    exact ⟨.inr ⟨_, rfl, List.mem_append_right _ (List.mem_cons_of_mem _ hafter)⟩,
      audienceAmong_stopped hv hbefore⟩
  · rintro ⟨hfind | ⟨auds, hfind, hmem⟩, hno⟩
    · rw [hfind] at hno
      exact absurd hno (by simp)
    · rw [hfind] at hno
      obtain ⟨before, v, after, rfl, hrest⟩ := audienceAmong_missed hno hmem
      exact ⟨before, v, after, hfind, hrest⟩

/-- What the audience should not be and is taken for. -/
theorem admitsAudience_iff {claims : Members} {expected : String} :
    L.AdmitsAudience claims expected ↔
      ¬ NamesAudience claims expected ∧ L.audienceMatches claims expected = true := by
  unfold AdmitsAudience NamesAudience audienceMatches
  constructor
  · rintro ⟨before, v, after, hfind, hmem, hv, hbefore⟩
    rw [hfind]
    refine ⟨?_, audienceAmong_eq_true.mpr ⟨before, v, after, rfl, hv, hbefore⟩⟩
    rintro (h | ⟨auds, h, hmem'⟩)
    · cases h
    · cases h
      exact hmem hmem'
  · rintro ⟨hno, hmatch⟩
    cases hfind : claims.find "aud" with
    | none =>
      rw [hfind] at hmatch
      cases hmatch
    | some v =>
      rw [hfind] at hmatch hno
      cases v with
      | str aud =>
        rw [beq_iff_eq] at hmatch
        exact absurd (.inl (congrArg (some ∘ Json.str) hmatch)) hno
      | arr auds =>
        obtain ⟨before, v, after, rfl, hv, hbefore⟩ := audienceAmong_eq_true.mp hmatch
        exact ⟨before, v, after, rfl, fun hmem => hno (.inr ⟨_, rfl, hmem⟩), hv, hbefore⟩
      | _ => cases hmatch

end Audience

/-! ### What is accepted -/

section Accepted
variable {L} {assertion iss aud pem : String} {nowEpoch clock : ℤ} {claims : Members}
  {out : IntegrationClaims}

variable (L) in
/-- The members that are checked have their types, if the assertion is read at all. -/
def WellTypedAssertion (assertion : String) : Prop :=
  ∀ h p sig hdr claims, L.Reads assertion h p sig hdr claims → AssertionTyped claims

variable (L assertion iss pem) in
/-- The claims of an authentic assertion. -/
def IsAuthentic (claims : Members) : Prop :=
  ∃ h p sig hdr, L.AuthenticAssertion assertion iss pem h p sig hdr claims

variable (L) in
/-- What an assertion has passed at the audience. -/
structure GenuineAssertion (assertion expectedIssuer expectedAudience pem h p sig : String)
    (hdr claims : Members) : Prop where
  reads : L.Reads assertion h p sig hdr claims
  alg : L.strField hdr "alg" = "RS256" ∨ L.strField hdr "alg" = "ES256"
  signature : ∃ pkey sigRaw, L.loadPublicKeyPem pem = some pkey ∧
    L.b64urlDecode sig = some sigRaw ∧
    L.algVerify (L.strField hdr "alg") pkey (h ++ "." ++ p) sigRaw = true
  issuer : L.strField claims "iss" ≠ "" ∧ L.strField claims "iss" = expectedIssuer
  audience : L.audienceMatches claims expectedAudience = true

theorem IsAuthentic.unique {claims' : Members} (h : L.IsAuthentic assertion iss pem claims)
    (h' : L.IsAuthentic assertion iss pem claims') : claims = claims' := by
  obtain ⟨_, _, _, _, ha⟩ := h
  obtain ⟨_, _, _, _, ha'⟩ := h'
  exact (ha.reads.unique ha'.reads).2.2

theorem IsAuthentic.typed (ht : L.WellTypedAssertion assertion)
    (h : L.IsAuthentic assertion iss pem claims) : AssertionTyped claims := by
  obtain ⟨_, _, _, _, ha⟩ := h
  exact ht _ _ _ _ _ ha.reads

theorem genuineAssertion_eq_ok : L.genuineAssertion assertion iss aud pem = .ok claims ↔
    ∃ h p sig hdr, L.GenuineAssertion assertion iss aud pem h p sig hdr claims := by
  simp only [genuineAssertion, bind_eq_ok, orElse_eq_ok, require_eq_ok, Prod.exists, split3_eq_some,
    documents_eq_some, Bool.or_eq_true, Bool.and_eq_true, beq_iff_eq, bne_iff_ne, exists_const]
  constructor
  · rintro ⟨h, p, sig, hparts, hdr, claims', ⟨hh, hp⟩, halg, pkey, hkey, sigRaw, hraw, hsig, hiss,
      haud, hok⟩
    cases hok
    exact ⟨h, p, sig, hdr, ⟨hparts, hh, hp⟩, halg, ⟨pkey, sigRaw, hkey, hraw, hsig⟩, hiss, haud⟩
  · rintro ⟨h, p, sig, hdr, hg⟩
    obtain ⟨pkey, sigRaw, hkey, hraw, hsig⟩ := hg.signature
    exact ⟨h, p, sig, hg.reads.parts, hdr, claims, ⟨hg.reads.header, hg.reads.payload⟩, hg.alg, pkey,
      hkey, sigRaw, hraw, hsig, hg.issuer, hg.audience, rfl⟩

/-- For members of their types the checks up to the audience are what they should
be, the audience apart. -/
theorem genuineAssertion_iff (hL : L.Lawful) (ht : L.WellTypedAssertion assertion) :
    L.genuineAssertion assertion iss aud pem = .ok claims ↔
      L.IsAuthentic assertion iss pem claims ∧ L.audienceMatches claims aud = true := by
  have halg : ∀ {hdr : Members} {alg : String}, alg = "RS256" ∨ alg = "ES256" →
      (L.strField hdr "alg" = alg ↔ hdr.find "alg" = some (.str alg)) := fun h =>
    strField_eq_alg hL h
  rw [genuineAssertion_eq_ok]
  constructor
  · rintro ⟨h, p, sig, hdr, hg⟩
    obtain ⟨pkey, sigRaw, hkey, hraw, hsig⟩ := hg.signature
    obtain ⟨hne, rfl⟩ := hg.issuer
    have hiss := (strField_eq_iff (ht _ _ _ _ _ hg.reads).iss hne).mp rfl
    exact ⟨⟨h, p, sig, hdr, hg.reads, ⟨_, pkey, sigRaw, hg.alg, (halg hg.alg).mp rfl, hkey, hraw,
      hsig⟩, hne, hiss⟩, hg.audience⟩
  · rintro ⟨⟨h, p, sig, hdr, hread, ⟨alg, pkey, sigRaw, hname, hfind, hkey, hraw, hsig⟩, hne, hiss⟩,
      haud⟩
    have hiss' : L.strField claims "iss" = iss :=
      (strField_eq_iff (ht _ _ _ _ _ hread).iss hne).mpr hiss
    obtain rfl := (halg hname).mpr hfind
    refine ⟨h, p, sig, hdr, hread, hname, ⟨pkey, sigRaw, hkey, hraw, hsig⟩, ⟨?_, hiss'⟩, haud⟩
    rw [hiss']
    exact hne

theorem assertedClaims_eq_ok {exp : ℤ} :
    L.assertedClaims assertion iss aud pem nowEpoch clock = .ok (claims, exp) ↔
      L.genuineAssertion assertion iss aud pem = .ok claims ∧ L.numField claims "exp" = some exp ∧
      exp ≠ 0 ∧ (∃ d, Signed.add 64 exp 60 = some d ∧ effectiveNow nowEpoch clock ≤ d) ∧
      L.strField claims "sub" ≠ "" := by
  simp only [assertedClaims, bind_eq_ok, orElse_eq_ok, require_eq_ok, bne_iff_ne, exists_const,
    decide_eq_true_eq]
  constructor
  · rintro ⟨claims', hg, exp', hexp, hne, d, hd, hle, hsub, hok⟩
    cases hok
    exact ⟨hg, hexp, hne, ⟨d, hd, hle⟩, hsub⟩
  · rintro ⟨hg, hexp, hne, ⟨d, hd, hle⟩, hsub⟩
    exact ⟨claims, hg, exp, hexp, hne, d, hd, hle, hsub, rfl⟩

/-- An authentic assertion for another audience is refused for its audience. -/
theorem refused_of_bad_audience (hL : L.Lawful) (ht : L.WellTypedAssertion assertion)
    (ha : L.IsAuthentic assertion iss pem claims) (hno : L.audienceMatches claims aud = false) :
    L.assertedClaims assertion iss aud pem nowEpoch clock =
      .error (.refused "assertion audience mismatch") := by
  obtain ⟨h, p, sig, hdr, hread, ⟨alg, pkey, sigRaw, hname, hfind, hkey, hraw, hsig⟩, hne, hiss⟩ := ha
  obtain rfl : L.strField hdr "alg" = alg := (strField_eq_alg hL hname).mpr hfind
  have hsplit := split3_eq_some.mpr hread.parts
  have hdocs := L.documents_eq_some.mpr ⟨hread.header, hread.payload⟩
  have halg : (L.strField hdr "alg" == "RS256" || L.strField hdr "alg" == "ES256") = true := by
    simpa using hname
  have hiss' : (L.strField claims "iss" != "" && L.strField claims "iss" == iss) = true := by
    rw [(strField_eq_iff (ht _ _ _ _ _ hread).iss hne).mpr hiss]
    simpa using hne
  rw [assertedClaims, bind_eq_error, genuineAssertion]
  left
  simp only [bind_eq_error, orElse_eq_ok, require_eq_ok, require_eq_error]
  exact .inr ⟨_, hsplit, .inr ⟨_, hdocs, .inr ⟨(), halg, .inr ⟨pkey, hkey, .inr ⟨sigRaw, hraw,
    .inr ⟨(), hsig, .inr ⟨(), hiss', .inl ⟨hno, trivial⟩⟩⟩⟩⟩⟩⟩⟩

theorem genuineAssertion_ne_undefined :
    L.genuineAssertion assertion iss aud pem ≠ .error .undefined := by
  simp only [genuineAssertion, ne_eq, bind_eq_error, orElse_eq_error, require_eq_error,
    pure_ne_error]
  simp

theorem assertedClaims_eq_undefined :
    L.assertedClaims assertion iss aud pem nowEpoch clock = .error .undefined ↔
      ∃ claims, L.genuineAssertion assertion iss aud pem = .ok claims ∧
        (L.numField claims "exp" = none ∨ ∃ exp, L.numField claims "exp" = some exp ∧ exp ≠ 0 ∧
          Signed.add 64 exp 60 = none) := by
  simp only [assertedClaims, bind_eq_error, orElse_eq_error, orElse_eq_ok, require_eq_error,
    require_eq_ok, pure_ne_error, genuineAssertion_ne_undefined, reduceCtorEq, and_false,
    exists_false, or_false, false_or, and_true, bne_iff_ne, exists_const]

theorem namesSubject_iff (ht : AssertionTyped claims) :
    L.strField claims "sub" ≠ "" ↔ NamesSubject claims := by
  constructor
  · exact fun hne => ⟨_, hne, (strField_eq_iff ht.sub hne).mp rfl⟩
  · rintro ⟨s, hs, hfind⟩
    rw [(strField_eq_iff ht.sub hs).mpr hfind]
    exact hs

/-- The expiry as it is read and the last second. -/
theorem numField_lastSecond (hL : L.Lawful) {n : ℤ} (h : IsInt claims "exp" n) (hn : n ≠ 0) :
    (L.numField claims "exp").bind (Signed.add 64 · 60) = lastSecond n ∧
      L.numField claims "exp" ≠ some 0 := by
  rw [numField_of_int hL h, lastSecond]
  refine ⟨rfl, fun hzero => hn ?_⟩
  unfold Signed.checked at hzero
  split_ifs at hzero
  exact Binary64.roundInt_eq_zero.mp (Option.some.inj hzero)

/-- Without an expiry, or with zero, it is read as zero. -/
theorem exp_cases (hL : L.Lawful) (ht : AssertionTyped claims) :
    L.numField claims "exp" = some 0 ∨ ∃ n, IsInt claims "exp" n ∧ n ≠ 0 := by
  rcases ht.exp.cases with hnone | ⟨n, hn⟩
  · exact .inl (numField_of_none hnone)
  · by_cases hzero : n = 0
    · subst hzero
      left
      rw [numField_of_int hL hn, Binary64.roundInt_eq_zero.mpr rfl]
      exact Signed.checked_of_fits (by decide)
    · exact .inr ⟨n, hn, hzero⟩

theorem verifyIntegrationAssertion_eq_ok :
    (L.verifyIntegrationAssertion assertion iss aud pem out nowEpoch clock).1 = .ok () ↔
      ∃ claims exp, L.assertedClaims assertion iss aud pem nowEpoch clock = .ok (claims, exp) :=
  written_eq_ok.trans Prod.exists

theorem verifyIntegrationAssertion_eq_accepted {c : IntegrationClaims} :
    L.verifyIntegrationAssertion assertion iss aud pem out nowEpoch clock = (.ok (), c) ↔
      ∃ claims exp, L.assertedClaims assertion iss aud pem nowEpoch clock = .ok (claims, exp) ∧
        L.assertionClaims claims exp = c := written_eq.trans Prod.exists

theorem verifyIntegrationAssertion_eq_error {failure : Failure} :
    (L.verifyIntegrationAssertion assertion iss aud pem out nowEpoch clock).1 = .error failure ↔
      L.assertedClaims assertion iss aud pem nowEpoch clock = .error failure := written_eq_error

theorem verifyIntegrationAssertion_keeps
    (h : (L.verifyIntegrationAssertion assertion iss aud pem out nowEpoch clock).1 ≠ .ok ()) :
    (L.verifyIntegrationAssertion assertion iss aud pem out nowEpoch clock).2 = out :=
  written_keeps h

/-- **What is accepted.** -/
theorem accepted_iff (hL : L.Lawful) (ht : L.WellTypedAssertion assertion) :
    (L.verifyIntegrationAssertion assertion iss aud pem out nowEpoch clock).1 = .ok () ↔
      ∃ claims n d, L.IsAuthentic assertion iss pem claims ∧ L.audienceMatches claims aud = true ∧
        IsInt claims "exp" n ∧ n ≠ 0 ∧ lastSecond n = some d ∧ effectiveNow nowEpoch clock ≤ d ∧
        NamesSubject claims := by
  simp only [verifyIntegrationAssertion_eq_ok, assertedClaims_eq_ok, genuineAssertion_iff hL ht]
  constructor
  · rintro ⟨claims, exp, ⟨hauth, haud⟩, hexp, hne, ⟨d, hd, hle⟩, hsub⟩
    have htyped := hauth.typed ht
    rcases exp_cases hL htyped with hzero | ⟨n, hn, hn0⟩
    · rw [hexp, Option.some.injEq] at hzero
      exact absurd hzero hne
    · have hlast := (numField_lastSecond hL hn hn0).1
      rw [hexp, Option.bind_some, hd] at hlast
      exact ⟨claims, n, d, hauth, haud, hn, hn0, hlast.symm, hle, (namesSubject_iff htyped).mp hsub⟩
  · rintro ⟨claims, n, d, hauth, haud, hn, hn0, hd, hle, hsub⟩
    obtain ⟨hlast, hread⟩ := numField_lastSecond hL hn hn0
    rw [hd, Option.bind_eq_some_iff] at hlast
    obtain ⟨exp, hexp, hadd⟩ := hlast
    have hne : exp ≠ 0 := by
      rintro rfl
      exact hread hexp
    exact ⟨claims, exp, ⟨hauth, haud⟩, hexp, hne, ⟨d, hadd, hle⟩,
      (namesSubject_iff (hauth.typed ht)).mpr hsub⟩

/-- What is undefined. -/
theorem undefined_iff (hL : L.Lawful) (ht : L.WellTypedAssertion assertion) :
    (L.verifyIntegrationAssertion assertion iss aud pem out nowEpoch clock).1 = .error .undefined ↔
      ∃ claims n, L.IsAuthentic assertion iss pem claims ∧ L.audienceMatches claims aud = true ∧
        IsInt claims "exp" n ∧ n ≠ 0 ∧ lastSecond n = none := by
  simp only [verifyIntegrationAssertion_eq_error, assertedClaims_eq_undefined,
    genuineAssertion_iff hL ht]
  constructor
  · rintro ⟨claims, ⟨hauth, haud⟩, hbad⟩
    rcases exp_cases hL (hauth.typed ht) with hzero | ⟨n, hn, hn0⟩
    · rw [hzero] at hbad
      rcases hbad with h | ⟨exp, hexp, hne, -⟩
      · cases h
      · exact absurd (Option.some.inj hexp).symm hne
    · refine ⟨claims, n, hauth, haud, hn, hn0, ?_⟩
      rw [← (numField_lastSecond hL hn hn0).1]
      rcases hbad with hnone | ⟨exp, hexp, -, hadd⟩
      · rw [hnone]
        rfl
      · rw [hexp]
        exact hadd
  · rintro ⟨claims, n, hauth, haud, hn, hn0, hnone⟩
    obtain ⟨hlast, hread⟩ := numField_lastSecond hL hn hn0
    refine ⟨claims, ⟨hauth, haud⟩, ?_⟩
    rw [hnone] at hlast
    cases hexp : L.numField claims "exp" with
    | none => exact .inl rfl
    | some exp =>
      rw [hexp] at hlast hread
      exact .inr ⟨exp, rfl, fun hzero => hread (congrArg some hzero), hlast⟩

end Accepted

/-! ### Exactly the valid ones -/

/-- The audience is taken for the expected one. -/
def TakesAudience (claims : Members) (expected : String) : Prop :=
  NamesAudience claims expected ∧ ¬ L.MissesAudience claims expected ∨
    L.AdmitsAudience claims expected

/-- The assertion is authentic and ends at `n`. -/
structure EndsAt (assertion iss pem : String) (claims : Members) (n : ℤ) : Prop where
  authentic : L.IsAuthentic assertion iss pem claims
  exp : IsInt claims "exp" n
  ne_zero : n ≠ 0

/-- A call does what it should. -/
structure JudgesAssertion (assertion iss aud pem : String) (out : IntegrationClaims)
    (nowEpoch clock : ℤ) : Prop where
  defined : (L.verifyIntegrationAssertion assertion iss aud pem out nowEpoch clock).1 ≠
    .error .undefined
  accepts : (L.verifyIntegrationAssertion assertion iss aud pem out nowEpoch clock).1 = .ok () ↔
    ∃ claims, L.ValidAssertion assertion iss aud pem (effectiveNow nowEpoch clock) claims
  keeps : (L.verifyIntegrationAssertion assertion iss aud pem out nowEpoch clock).1 ≠ .ok () →
    (L.verifyIntegrationAssertion assertion iss aud pem out nowEpoch clock).2 = out

/-- How claims that end at `n` are misread: the audience one way or the other, or
the expiry. -/
inductive Misread (claims : Members) (aud : String) (n now : ℤ) : Prop
  | missed (haud : L.MissesAudience claims aud) (hsub : NamesSubject claims) (hle : now ≤ n + 60)
  | admitted (haud : L.AdmitsAudience claims aud) (hsub : NamesSubject claims) (d : ℤ)
      (hd : lastSecond n = some d) (hle : now ≤ d)
  | moved (haud : NamesAudience claims aud) (hread : ¬ L.MissesAudience claims aud)
      (hsub : NamesSubject claims) (d : ℤ) (hd : lastSecond n = some d)
      (hdiff : ¬ (now ≤ d ↔ now ≤ n + 60))
  | endless (haud : L.TakesAudience claims aud) (hnone : lastSecond n = none)

def MisreadsAssertion (assertion iss aud pem : String) (now : ℤ) : Prop :=
  ∃ claims n, L.EndsAt assertion iss pem claims n ∧ L.Misread claims aud n now

section Exactly
variable {L} {assertion iss aud pem : String} {nowEpoch clock : ℤ} {claims : Members}
  {out : IntegrationClaims} {n : ℤ}

theorem takesAudience_iff : L.TakesAudience claims aud ↔ L.audienceMatches claims aud = true := by
  unfold TakesAudience
  rw [missesAudience_iff, admitsAudience_iff]
  cases L.audienceMatches claims aud
  · simp
  · simp [em]

theorem EndsAt.unique {claims' : Members} {m : ℤ} (h : L.EndsAt assertion iss pem claims n)
    (h' : L.EndsAt assertion iss pem claims' m) : claims = claims' ∧ n = m := by
  obtain rfl := h.authentic.unique h'.authentic
  exact ⟨rfl, h.exp.unique h'.exp⟩

/-- What is valid ends at some time. -/
theorem ValidAssertion.endsAt {now : ℤ} (h : L.ValidAssertion assertion iss aud pem now claims) :
    ∃ n, L.EndsAt assertion iss pem claims n ∧ now ≤ n + 60 := by
  obtain ⟨n, hn, hne, hle⟩ := h.inTime
  exact ⟨n, ⟨h.authentic, hn, hne⟩, hle⟩

/-- When an assertion that ends at `n` is valid. -/
theorem EndsAt.valid_iff {now : ℤ} (he : L.EndsAt assertion iss pem claims n) :
    (∃ claims', L.ValidAssertion assertion iss aud pem now claims') ↔
      NamesAudience claims aud ∧ now ≤ n + 60 ∧ NamesSubject claims := by
  constructor
  · rintro ⟨claims', hv⟩
    obtain ⟨m, he', hle⟩ := hv.endsAt
    obtain ⟨rfl, rfl⟩ := he.unique he'
    exact ⟨hv.audience, hle, hv.subject⟩
  · rintro ⟨haud, hle, hsub⟩
    exact ⟨claims, he.authentic, haud, ⟨n, he.exp, he.ne_zero, hle⟩, hsub⟩

/-- When it is accepted. -/
theorem EndsAt.accepted_iff (hL : L.Lawful) (ht : L.WellTypedAssertion assertion)
    (he : L.EndsAt assertion iss pem claims n) :
    (L.verifyIntegrationAssertion assertion iss aud pem out nowEpoch clock).1 = .ok () ↔
      L.TakesAudience claims aud ∧
      (∃ d, lastSecond n = some d ∧ effectiveNow nowEpoch clock ≤ d) ∧ NamesSubject claims := by
  rw [TokenLibrary.accepted_iff hL ht, takesAudience_iff]
  constructor
  · rintro ⟨claims', m, d, ha, haud, hm, hne, hd, hle, hsub⟩
    obtain ⟨rfl, rfl⟩ := he.unique ⟨ha, hm, hne⟩
    exact ⟨haud, ⟨d, hd, hle⟩, hsub⟩
  · rintro ⟨haud, ⟨d, hd, hle⟩, hsub⟩
    exact ⟨claims, n, d, he.authentic, haud, he.exp, he.ne_zero, hd, hle, hsub⟩

/-- Claims that are not misread are accepted if they should be. -/
theorem read_of_not_misread {now : ℤ} (hno : ¬ L.Misread claims aud n now) :
    L.TakesAudience claims aud ∧ (∃ d, lastSecond n = some d ∧ now ≤ d) ∧ NamesSubject claims ↔
      NamesAudience claims aud ∧ now ≤ n + 60 ∧ NamesSubject claims := by
  constructor
  · rintro ⟨haud, ⟨d, hd, hle⟩, hsub⟩
    rcases haud with ⟨hnames, hread⟩ | hadmits
    · have hsame : now ≤ d ↔ now ≤ n + 60 := by
        by_contra hdiff
        exact hno (.moved hnames hread hsub d hd hdiff)
      exact ⟨hnames, hsame.mp hle, hsub⟩
    · exact absurd (.admitted hadmits hsub d hd hle) hno
  · rintro ⟨hnames, hle, hsub⟩
    have hread : ¬ L.MissesAudience claims aud := fun hmisses => hno (.missed hmisses hsub hle)
    have htakes : L.TakesAudience claims aud := .inl ⟨hnames, hread⟩
    cases hd : lastSecond n with
    | none => exact absurd (.endless htakes hd) hno
    | some d =>
      have hsame : now ≤ d ↔ now ≤ n + 60 := by
        by_contra hdiff
        exact hno (.moved hnames hread hsub d hd hdiff)
      exact ⟨htakes, ⟨d, rfl, hsame.mpr hle⟩, hsub⟩

/-- An assertion that is misread is judged wrongly. -/
theorem MisreadsAssertion.not_judges (hL : L.Lawful) (ht : L.WellTypedAssertion assertion)
    (hmis : L.MisreadsAssertion assertion iss aud pem (effectiveNow nowEpoch clock)) :
    ¬ L.JudgesAssertion assertion iss aud pem out nowEpoch clock := by
  obtain ⟨claims, n, he, hmis⟩ := hmis
  intro hj
  have hjudged := (he.accepted_iff hL ht).symm.trans (hj.accepts.trans he.valid_iff)
  cases hmis with
  | missed haud hsub hle =>
    obtain ⟨hnames, hno⟩ := missesAudience_iff.mp haud
    have htakes := takesAudience_iff.mp (hjudged.mpr ⟨hnames, hle, hsub⟩).1
    rw [hno] at htakes
    cases htakes
  | admitted haud hsub d hd hle =>
    exact (admitsAudience_iff.mp haud).1 (hjudged.mp ⟨.inr haud, ⟨d, hd, hle⟩, hsub⟩).1
  | moved hnames hread hsub d hd hdiff =>
    apply hdiff
    constructor
    · intro hle
      exact (hjudged.mp ⟨.inl ⟨hnames, hread⟩, ⟨d, hd, hle⟩, hsub⟩).2.1
    · intro hle
      obtain ⟨-, ⟨d', hd', hle'⟩, -⟩ := hjudged.mpr ⟨hnames, hle, hsub⟩
      rw [hd] at hd'
      cases hd'
      exact hle'
  | endless haud hnone =>
    exact hj.defined ((undefined_iff hL ht).mpr ⟨claims, n, he.authentic, takesAudience_iff.mp haud,
      he.exp, he.ne_zero, hnone⟩)

theorem judges_of_not_misreads_assertion (hL : L.Lawful) (ht : L.WellTypedAssertion assertion)
    (hno : ¬ L.MisreadsAssertion assertion iss aud pem (effectiveNow nowEpoch clock)) :
    L.JudgesAssertion assertion iss aud pem out nowEpoch clock := by
  have hiff : ∀ {claims n}, L.EndsAt assertion iss pem claims n →
      ((L.verifyIntegrationAssertion assertion iss aud pem out nowEpoch clock).1 = .ok () ↔
        ∃ claims, L.ValidAssertion assertion iss aud pem (effectiveNow nowEpoch clock) claims) := by
    intro claims n he
    rw [he.accepted_iff hL ht, he.valid_iff]
    exact read_of_not_misread fun hmis => hno ⟨claims, n, he, hmis⟩
  refine ⟨?_, ?_, verifyIntegrationAssertion_keeps⟩
  · rw [ne_eq, undefined_iff hL ht]
    rintro ⟨claims, n, ha, haud, hn, hne, hnone⟩
    exact hno ⟨claims, n, ⟨ha, hn, hne⟩, .endless (takesAudience_iff.mpr haud) hnone⟩
  · constructor
    · intro hok
      obtain ⟨claims, n, -, ha, -, hn, hne, -⟩ := (accepted_iff hL ht).mp hok
      exact (hiff ⟨ha, hn, hne⟩).mp hok
    · rintro ⟨claims, hv⟩
      obtain ⟨n, he, -⟩ := hv.endsAt
      exact (hiff he).mpr ⟨claims, hv⟩

/-- **Assertions.** A call does what it should unless the assertion is misread. -/
theorem assertion_exact_iff (hL : L.Lawful) (ht : L.WellTypedAssertion assertion) :
    L.JudgesAssertion assertion iss aud pem out nowEpoch clock ↔
      ¬ L.MisreadsAssertion assertion iss aud pem (effectiveNow nowEpoch clock) :=
  ⟨fun hj hmis => hmis.not_judges hL ht hj, judges_of_not_misreads_assertion hL ht⟩

/-- Texts for an audience and an expiry up to `2 ^ 53` are not misread. -/
theorem not_misread_of_texts {now : ℤ} (haud : AudienceTexts claims) (hn : n.natAbs ≤ 2 ^ 53) :
    ¬ L.Misread claims aud n now := by
  have htexts := audienceMatches_texts (L := L) haud aud
  have hlast := lastSecond_of_le hn
  intro hmis
  cases hmis with
  | missed hmisses =>
    obtain ⟨hnames, hno⟩ := missesAudience_iff.mp hmisses
    rw [htexts.mpr hnames] at hno
    cases hno
  | admitted hadmits =>
    obtain ⟨hno, htakes⟩ := admitsAudience_iff.mp hadmits
    exact hno (htexts.mp htakes)
  | moved _ _ _ d hd hdiff =>
    rw [hlast] at hd
    cases hd
    exact hdiff Iff.rfl
  | endless _ hnone =>
    rw [hlast] at hnone
    cases hnone

end Exactly

/-! ### Two assertions -/

def samplePem : String := "-----BEGIN PUBLIC KEY-----\nTjE=\n-----END PUBLIC KEY-----\n"

def sampleSignature : String :=
  "c2lnbmVkIGJ5IC0tLS0tQkVHSU4gUFVCTElDIEtFWS0tLS0tClRqRT0KLS0tLS1FTkQgUFVCTElDIEtFWS0tLS0tCg"

def sampleAssertion (payload : String) : String :=
  "eyJhbGciOiJSUzI1NiJ9" ++ "." ++ (payload ++ "." ++ sampleSignature)

def textsPayload : String := "eyJpc3MiOiJodHRwczovL2FwcCIsImF1ZCI6WyJmaWxlcyIsImJyaWRnZSJdLCJleHAi" ++
  "OjE3MDAwMDAwMDAsInN1YiI6InUxIn0"

def nullPayload : String := "eyJpc3MiOiJodHRwczovL2FwcCIsImF1ZCI6W251bGwsImJyaWRnZSJdLCJleHAiOjE3" ++
  "MDAwMDAwMDAsInN1YiI6InUxIn0"

def claimsFor (auds : List Json) : Members :=
  [("iss", .str "https://app"), ("aud", .arr auds), ("exp", .num "1700000000"), ("sub", .str "u1")]

def assertionTexts : List (String × String) :=
  [("eyJhbGciOiJSUzI1NiJ9", "\x7b\"alg\":\"RS256\"\x7d"),
    (textsPayload, "\x7b\"iss\":\"https://app\",\"aud\":[\"files\",\"bridge\"]," ++
      "\"exp\":1700000000,\"sub\":\"u1\"\x7d"),
    (nullPayload, "\x7b\"iss\":\"https://app\",\"aud\":[null,\"bridge\"]," ++
      "\"exp\":1700000000,\"sub\":\"u1\"\x7d"),
    (sampleSignature, "signed by " ++ samplePem)]

def assertionDocuments : List (String × Json) :=
  [("\x7b\"alg\":\"RS256\"\x7d", .obj [("alg", .str "RS256")]),
    ("\x7b\"iss\":\"https://app\",\"aud\":[\"files\",\"bridge\"]," ++
      "\"exp\":1700000000,\"sub\":\"u1\"\x7d", .obj (claimsFor [.str "files", .str "bridge"])),
    ("\x7b\"iss\":\"https://app\",\"aud\":[null,\"bridge\"]," ++
      "\"exp\":1700000000,\"sub\":\"u1\"\x7d", .obj (claimsFor [.null, .str "bridge"]))]

def assertionLibrary : TokenLibrary String := listedLibrary assertionTexts assertionDocuments

theorem assertionLibrary_lawful : assertionLibrary.Lawful := listedLibrary_lawful rfl

section Sample
variable {payload : String} {auds : List Json} (hpart : IsPart payload)
  (hpayload : assertionLibrary.part payload = some (claimsFor auds))
include hpart hpayload

theorem sampleAssertion_reads : assertionLibrary.Reads (sampleAssertion payload)
    "eyJhbGciOiJSUzI1NiJ9" payload sampleSignature [("alg", .str "RS256")] (claimsFor auds) where
  parts := ⟨rfl, ⟨by decide +kernel, by decide +kernel⟩, hpart, ⟨by decide +kernel, by decide +kernel⟩⟩
  header := rfl
  payload := hpayload

theorem sampleAssertion_endsAt : assertionLibrary.EndsAt (sampleAssertion payload) "https://app"
    samplePem (claimsFor auds) 1700000000 where
  authentic := ⟨_, _, _, _, sampleAssertion_reads hpart hpayload,
    ⟨"RS256", samplePem, "signed by " ++ samplePem, .inl rfl, rfl, rfl, rfl, rfl⟩, by decide, rfl⟩
  exp := ⟨"1700000000", rfl, by decide⟩
  ne_zero := by decide

theorem sampleAssertion_typed :
    assertionLibrary.WellTypedAssertion (sampleAssertion payload) := by
  intro h p sig hdr claims hr
  obtain ⟨-, rfl, rfl⟩ := (sampleAssertion_reads hpart hpayload).unique hr
  exact {
    iss := textIfAny_of_text rfl
    sub := textIfAny_of_text rfl
    exp := fun _ hv => ⟨"1700000000", 1700000000, Option.some.inj (hv.symm.trans rfl), by decide⟩ }

end Sample

theorem textsPayload_isPart : IsPart textsPayload where
  ne_empty h := absurd (String.append_eq_empty_iff.mp h).1 (by decide)
  no_dot := not_mem_append (not_mem_literal (by decide)) (not_mem_literal (by decide))

theorem nullPayload_isPart : IsPart nullPayload where
  ne_empty h := absurd (String.append_eq_empty_iff.mp h).1 (by decide)
  no_dot := not_mem_append (not_mem_literal (by decide)) (not_mem_literal (by decide))

/-- The expected audience is the second of two texts. -/
theorem assertion_exact_iff_texts : assertionLibrary.Lawful ∧
    assertionLibrary.WellTypedAssertion (sampleAssertion textsPayload) ∧
    assertionLibrary.JudgesAssertion (sampleAssertion textsPayload) "https://app" "bridge" samplePem
      ⟨"", "", "", "", "", "", [], 0⟩ 0 1700000030 := by
  have ht : assertionLibrary.WellTypedAssertion (sampleAssertion textsPayload) :=
    sampleAssertion_typed textsPayload_isPart rfl
  have he := sampleAssertion_endsAt textsPayload_isPart rfl
  refine ⟨assertionLibrary_lawful, ht, (assertion_exact_iff assertionLibrary_lawful ht).mpr ?_⟩
  rintro ⟨claims, n, he', hmis⟩
  obtain ⟨rfl, rfl⟩ := he.unique he'
  refine not_misread_of_texts ?_ (by decide) hmis
  intro v hv
  refine .inr ⟨_, (Option.some.inj hv).symm, ?_⟩
  simp

/-- Behind a null the expected audience is not found. -/
theorem valid_assertion_not_accepted :
    assertionLibrary.ValidAssertion (sampleAssertion nullPayload) "https://app" "bridge" samplePem
      1700000030 (claimsFor [.null, .str "bridge"]) ∧
    (assertionLibrary.verifyIntegrationAssertion (sampleAssertion nullPayload) "https://app" "bridge"
      samplePem ⟨"", "", "", "", "", "", [], 0⟩ 0 1700000030).1 =
        .error (.refused "assertion audience mismatch") := by
  have ht : assertionLibrary.WellTypedAssertion (sampleAssertion nullPayload) :=
    sampleAssertion_typed nullPayload_isPart rfl
  have he := sampleAssertion_endsAt nullPayload_isPart rfl
  have hmem : Json.str "bridge" ∈ [Json.null, .str "bridge"] :=
    List.mem_cons_of_mem _ List.mem_cons_self
  constructor
  · exact {
      authentic := he.authentic
      audience := .inr ⟨_, rfl, hmem⟩
      inTime := ⟨1700000000, he.exp, he.ne_zero, by decide⟩
      subject := ⟨"u1", by decide, rfl⟩ }
  · apply verifyIntegrationAssertion_eq_error.mpr
    exact refused_of_bad_audience assertionLibrary_lawful ht he.authentic rfl

/-! ### The verifier of `Assertion` -/

/-- The claims as they are read. -/
def readClaims (claims : Members) : AssertionPayload where
  iss := some (L.strField claims "iss")
  aud :=
    match claims.find "aud" with
    | some (.str aud) => some (.one aud)
    | some (.arr auds) => some (.many (L.leadingTexts auds))
    | _ => none
  exp := L.numField claims "exp"
  sub := some (L.strField claims "sub")
  tenant := some (L.strField claims "tenant")
  scope := some (L.strField claims "scope")
  jti := some (L.strField claims "jti")
  tokenType := some (L.strField claims "token_type")
  amr := some (L.assertedAmr claims)

/-- The library as the exchange calls it. -/
def libraries (ipInCidr : (ip cidr : String) → Bool) : Libraries where
  parseHeader h := (L.part h).map fun hdr => ⟨some (L.strField hdr "alg")⟩
  parsePayload p := (L.part p).map L.readClaims
  loadsPublicKey pem := (L.loadPublicKeyPem pem).isSome
  verifies alg pem signingInput sig :=
    match L.loadPublicKeyPem pem, L.b64urlDecode sig with
    | some pkey, some sigRaw => L.algVerify alg pkey signingInput sigRaw
    | _, _ => false
  ipInCidr := ipInCidr

section Refinement
variable {L} {assertion iss aud pem : String} {clock : ℤ} {claims : Members}
  {out c : IntegrationClaims} {payload : AssertionPayload} {ipInCidr : String → String → Bool}

/-- The loop is membership in the texts it reads. -/
theorem audienceAmong_eq_contains (expected : String) (auds : List Json) :
    L.audienceAmong expected auds = (L.leadingTexts auds).contains expected := by
  induction auds with
  | nil => rfl
  | cons v rest ih =>
    rw [audienceAmong, leadingTexts]
    cases L.toText v with
    | none => rfl
    | some aud =>
      dsimp only
      rw [ih, List.contains_cons, Bool.beq_comm]

theorem audienceMatches_readClaims (expected : String) :
    HttpBridge.audienceMatches (L.readClaims claims) expected =
      L.audienceMatches claims expected := by
  unfold HttpBridge.audienceMatches audienceMatches readClaims
  cases claims.find "aud" with
  | none => rfl
  | some v =>
    cases v with
    | arr auds => exact (audienceAmong_eq_contains expected auds).symm
    | _ => rfl

theorem verifies_libraries {alg signingInput sig : String} :
    (L.libraries ipInCidr).verifies alg pem signingInput sig = true ↔
      ∃ pkey sigRaw, L.loadPublicKeyPem pem = some pkey ∧ L.b64urlDecode sig = some sigRaw ∧
        L.algVerify alg pkey signingInput sigRaw = true := by
  unfold libraries
  dsimp only
  cases L.loadPublicKeyPem pem with
  | none => simp
  | some pkey => cases L.b64urlDecode sig <;> simp

theorem authenticPayload_libraries :
    authenticPayload (L.libraries ipInCidr) assertion iss aud pem = .ok payload ↔
      ∃ claims, L.genuineAssertion assertion iss aud pem = .ok claims ∧
        (L.numField claims "exp").getD 0 ≠ 0 ∧ L.readClaims claims = payload := by
  rw [authenticPayload_eq_ok]
  constructor
  · rintro ⟨h, p, sig, hdr, ha⟩
    obtain ⟨hdr', hh, rfl⟩ := Option.map_eq_some_iff.mp ha.header
    obtain ⟨claims, hp, rfl⟩ := Option.map_eq_some_iff.mp ha.payload
    have haud := ha.audience
    rw [audienceMatches_readClaims] at haud
    exact ⟨claims, genuineAssertion_eq_ok.mpr ⟨h, p, sig, hdr', ⟨split3_eq_some.mp ha.parts, hh, hp⟩,
      ha.alg, verifies_libraries.mp ha.signature, ha.issuer, haud⟩, ha.expiry, rfl⟩
  · rintro ⟨claims, hg, hexp, rfl⟩
    obtain ⟨h, p, sig, hdr, hg⟩ := genuineAssertion_eq_ok.mp hg
    obtain ⟨pkey, sigRaw, hkey, -⟩ := hg.signature
    refine ⟨h, p, sig, ⟨some (L.strField hdr "alg")⟩, ?_⟩
    exact {
      parts := split3_eq_some.mpr hg.reads.parts
      header := Option.map_eq_some_iff.mpr ⟨hdr, hg.reads.header, rfl⟩
      payload := Option.map_eq_some_iff.mpr ⟨claims, hg.reads.payload, rfl⟩
      alg := hg.alg
      key := Option.isSome_iff_exists.mpr ⟨pkey, hkey⟩
      signature := verifies_libraries.mpr hg.signature
      issuer := hg.issuer
      audience := (audienceMatches_readClaims aud).trans hg.audience
      expiry := hexp }

theorem integrationClaims_readClaims {exp : ℤ} (h : L.numField claims "exp" = some exp) :
    integrationClaims (L.readClaims claims) = L.assertionClaims claims exp := by
  simp [integrationClaims, readClaims, assertionClaims, h, optValue]

/-- Where it is defined, what is accepted is what the verifier of `Assertion`
accepts, with the same claims. -/
theorem refines_assertion
    (hdef : (L.verifyIntegrationAssertion assertion iss aud pem out 0 clock).1 ≠ .error .undefined) :
    L.verifyIntegrationAssertion assertion iss aud pem out 0 clock = (.ok (), c) ↔
      (HttpBridge.verifyIntegrationAssertion (L.libraries ipInCidr) assertion iss aud pem).Yields
        [⟨.time, clock⟩] (.ok c) := by
  rw [verify_yields_ok, verifyIntegrationAssertion_eq_accepted]
  constructor
  · rintro ⟨claims, exp, hok, rfl⟩
    obtain ⟨hg, hexp, hne, ⟨d, hd, hle⟩, hsub⟩ := assertedClaims_eq_ok.mp hok
    rw [Signed.eq_of_add hd] at hle
    have hexp' : (L.numField claims "exp").getD 0 ≠ 0 := by
      rw [hexp]
      exact hne
    exact ⟨L.readClaims claims, clock, authenticPayload_libraries.mpr ⟨claims, hg, hexp', rfl⟩, rfl,
      hle, hsub, (integrationClaims_readClaims hexp).symm⟩
  · rintro ⟨payload, now, hpayload, htr, hle, hsub, rfl⟩
    obtain ⟨claims, hg, hne, rfl⟩ := authenticPayload_libraries.mp hpayload
    cases htr
    cases hexp : L.numField claims "exp" with
    | none =>
      rw [hexp] at hne
      exact absurd rfl hne
    | some exp =>
      rw [hexp] at hne
      rw [integrationClaims_readClaims hexp] at hle ⊢
      cases hd : Signed.add 64 exp 60 with
      | none =>
        exact absurd (verifyIntegrationAssertion_eq_error.mpr (assertedClaims_eq_undefined.mpr
          ⟨claims, hg, .inr ⟨exp, hexp, hne, hd⟩⟩)) hdef
      | some d =>
        have hle' : clock ≤ d := by
          rw [Signed.eq_of_add hd]
          exact hle
        exact ⟨claims, exp, assertedClaims_eq_ok.mpr ⟨hg, hexp, hne, ⟨d, hd, hle'⟩, hsub⟩, rfl⟩

end Refinement

end TokenLibrary
end HttpBridge
