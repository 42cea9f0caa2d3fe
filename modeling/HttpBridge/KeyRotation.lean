/-
# Key sets that change

`OAuthProvider::verifyIdToken` (`oauth_provider.cpp`) verifies id tokens with a
key set of the provider that it keeps. When a token is signed with a key that
the kept set does not have, the set is fetched once more; whether that is so is
read off the error of `verifyIdToken` (`misses_iff`).

For a token that the provider's current set verifies and whose key the kept set
does not name, that works unless the kept set is no JSON object, or has a key
without an id: then that key is tried, and no new set is fetched when the
signature does not verify (`rotation_iff`).
-/
import HttpBridge.IdTokens
import HttpBridge.OAuthRequests

namespace HttpBridge

open Net Interact

/-- The source's `HttpResult`, with the body as it was sent. -/
structure HttpReply where
  ok : Bool
  status : ℕ
  body : String
  error : String

inductive ProviderOp where
  | get (url : String)
  | time

def ProviderOp.isGet : ProviderOp → Bool
  | .get _ => true
  | .time => false

abbrev ProviderOp.Ans : ProviderOp → Type
  | .get _ => HttpReply
  | .time => ℤ

abbrev Provider (α : Type) := Prog ProviderOp ProviderOp.Ans α

abbrev ask (op : ProviderOp) : Provider op.Ans := Prog.perform op

/-- `jwks_cache_`. -/
abbrev JwksCache := (jwksUri : String) → Option String

def JwksCache.put (cache : JwksCache) (jwksUri body : String) : JwksCache := fun uri =>
  if uri = jwksUri then some body else cache uri

namespace OAuthProvider

def succeeded (r : HttpReply) : Bool := r.ok && 200 ≤ r.status && r.status < 300

/-- `fetchJwks`: the set, empty where there is none, and `err` and the cache
afterwards. -/
def fetchJwks (jwksUri : String) (force : Bool) (err : String) (cache : JwksCache) :
    Provider (String × String × JwksCache) :=
  match force, cache jwksUri with
  | false, some jwks => return (jwks, err, cache)
  | _, _ => do
    let r ← ask (.get jwksUri)
    if !succeeded r then
      let reason := if r.ok then "HTTP " ++ toString r.status else r.error
      return ("", "jwks unreachable (" ++ reason ++ ")", cache)
    return (r.body, err, cache.put jwksUri r.body)

/-- How a call ends, `out` and the cache. -/
abbrev Ending := Except Failure Unit × Vouched × JwksCache

/-- The text of an error that is worth another fetch. -/
def keyMiss : List Char := "no matching JWKS key".toList

/-- What follows an attempt. -/
def settle (out : Vouched) (cache : JwksCache) (again : String → Provider Ending) :
    Except Failure Unit × Vouched → Provider Ending
  | (.ok (), claims) => return (.ok (), claims, cache)
  | (.error (.refused err), _) =>
    if (indexOf keyMiss err.toList).isSome then again err
    else return (.error (.refused err), out, cache)
  | (.error failure, _) => return (.error failure, out, cache)

/-- The loop over the attempts that are left. The clock is asked in each,
whether or not it is looked at. -/
def attempts (verify : (jwks : String) → (clock : ℤ) → Except Failure Unit × Vouched)
    (jwksUri : String) (out : Vouched) :
    (left : ℕ) → (force : Bool) → (err : String) → JwksCache → Provider Ending
  | 0, _, err, cache => return (.error (.refused err), out, cache)
  | left + 1, force, err, cache => do
    let (jwks, err, cache) ← fetchJwks jwksUri force err cache
    if jwks == "" then return (.error (.refused err), out, cache)
    let clock ← ask .time
    settle out cache (fun err => attempts verify jwksUri out left true err cache) (verify jwks clock)

variable {Key : Type}

/-- `OAuthProvider::verifyIdToken`. -/
def verifyIdToken (L : TokenLibrary Key) (cfg : OAuthProviderConfig)
    (idToken expectedNonce : String) (out : Vouched) (err : String) (cache : JwksCache) :
    Provider Ending :=
  if cfg.jwksUri == "" then
    return (.error (.refused "no jwks_uri configured for id_token verification"), out, cache)
  else
    attempts (fun jwks clock => L.verifyIdToken idToken cfg.issuer cfg.clientId expectedNonce jwks
      ⟨"", "", false⟩ 0 clock) cfg.jwksUri out 2 false err cache

/-! ### When another set is fetched -/

/-- The verifier ends with an error that is worth another fetch. -/
def Misses {α : Type} (x : Except Failure α) : Prop :=
  ∃ err, x = .error (.refused err) ∧ keyMiss <:+: err.toList

section Misses
variable {α β : Type}

theorem misses_bind {x : Except Failure α} {f : α → Except Failure β} :
    Misses (x >>= f) ↔ Misses x ∨ ∃ a, x = .ok a ∧ Misses (f a) := by
  simp only [Misses, bind_eq_error]
  constructor
  · rintro ⟨err, hx | ⟨a, ha, hf⟩, hmiss⟩
    · exact .inl ⟨err, hx, hmiss⟩
    · exact .inr ⟨a, ha, err, hf, hmiss⟩
  · rintro (⟨err, hx, hmiss⟩ | ⟨a, ha, err, hf, hmiss⟩)
    · exact ⟨err, .inl hx, hmiss⟩
    · exact ⟨err, .inr ⟨a, ha, hf⟩, hmiss⟩

theorem misses_require {err : String} {c : Bool} :
    Misses (require err c) ↔ c = false ∧ keyMiss <:+: err.toList := by
  simp only [Misses, require_eq_error, Failure.refused.injEq]
  constructor
  · rintro ⟨_, ⟨hc, rfl⟩, hmiss⟩
    exact ⟨hc, hmiss⟩
  · rintro ⟨hc, hmiss⟩
    exact ⟨err, ⟨hc, rfl⟩, hmiss⟩

theorem misses_orElse {failure : Failure} {x : Option α} : Misses (orElse failure x) ↔
    x = none ∧ ∃ err, failure = .refused err ∧ keyMiss <:+: err.toList := by
  simp only [Misses, orElse_eq_error]
  constructor
  · rintro ⟨err, ⟨hx, rfl⟩, hmiss⟩
    exact ⟨hx, err, rfl, hmiss⟩
  · rintro ⟨hx, err, rfl, hmiss⟩
    exact ⟨err, ⟨hx, rfl⟩, hmiss⟩

theorem not_misses_pure {a : α} : ¬ Misses (pure a : Except Failure α) := by
  rintro ⟨err, h, -⟩
  cases h

end Misses

/-- The errors of the other checks. -/
theorem not_keyMiss : ∀ err ∈ ["malformed id_token", "id_token header/payload not valid JSON",
    "unsupported id_token alg (expected RS256)", "invalid JWKS document",
    "could not build RSA key from JWK", "id_token signature verification failed",
    "id_token issuer mismatch", "id_token audience mismatch", "id_token expired",
    "id_token nonce mismatch"], ¬ keyMiss <:+: err.toList := by decide +kernel

theorem keyMiss_infix (kid : String) :
    keyMiss <:+: ("no matching JWKS key (kid=" ++ kid ++ ")").toList := by
  have htext : "no matching JWKS key (kid=" = "no matching JWKS key" ++ " (kid=" := rfl
  rw [htext, String.toList_append, String.toList_append, String.toList_append, List.append_assoc,
    List.append_assoc]
  exact (List.prefix_append _ _).isInfix

section Attempt
variable {L : TokenLibrary Key} {idToken issuer clientId expectedNonce jwksJson h p sig : String}
  {hdr claims : Members} {nowEpoch clock : ℤ}

theorem misses_iff (hread : L.Reads idToken h p sig hdr claims)
    (halg : L.strField hdr "alg" = "RS256") :
    Misses (L.verifiedClaims idToken issuer clientId expectedNonce jwksJson nowEpoch clock) ↔
      ∃ root, L.object jwksJson = some root ∧
        L.designatedKey (L.strField hdr "kid") (keysOf root) = none := by
  have hsplit := split3_eq_some.mpr hread.parts
  have hdocs := L.documents_eq_some.mpr ⟨hread.header, hread.payload⟩
  have hsilent := not_keyMiss
  simp only [List.forall_mem_cons] at hsilent
  simp only [TokenLibrary.verifiedClaims, TokenLibrary.genuineClaims,
    TokenLibrary.signingKey, misses_bind, misses_require, misses_orElse, not_misses_pure,
    hsilent, keyMiss_infix, TokenLibrary.selectKey_eq, Option.or_none, orElse_eq_ok, hsplit,
    Failure.refused.injEq, exists_eq_left', and_false, and_true, or_false, false_or, exists_false,
    reduceCtorEq, false_and]
  constructor
  · rintro ⟨_, hparts, _, hdocs', _, -, root, hroot, hkey⟩
    cases hparts
    rw [hdocs] at hdocs'
    cases hdocs'
    exact ⟨root, hroot, hkey⟩
  · rintro ⟨root, hroot, hkey⟩
    exact ⟨_, rfl, _, hdocs, (), require_eq_ok.mpr (beq_iff_eq.mpr halg), root, hroot, hkey⟩

theorem alg_of_verified (hread : L.Reads idToken h p sig hdr claims)
    (hv : ∃ c, L.verifiedClaims idToken issuer clientId expectedNonce jwksJson nowEpoch clock =
      .ok c) : L.strField hdr "alg" = "RS256" := by
  obtain ⟨c, hc⟩ := hv
  obtain ⟨_, _, _, _, hgen⟩ :=
    TokenLibrary.genuineClaims_eq_ok.mp (TokenLibrary.verifiedClaims_eq_ok.mp hc).1
  obtain ⟨-, rfl, -⟩ := hread.unique hgen.reads
  exact hgen.alg

/-- Of two sets that are asked at one time the one accepts what the other does if
the key it designates verifies the signature. -/
theorem verifies_iff_signed {current : String} (hread : L.Reads idToken h p sig hdr claims)
    (hcur : ∃ c, L.verifiedClaims idToken issuer clientId expectedNonce current nowEpoch clock =
      .ok c) :
    (∃ c, L.verifiedClaims idToken issuer clientId expectedNonce jwksJson nowEpoch clock = .ok c) ↔
      L.SignedFrom jwksJson (L.strField hdr "kid") h p sig := by
  obtain ⟨c, hc⟩ := hcur
  obtain ⟨hg, hexp, hnonce⟩ := TokenLibrary.verifiedClaims_eq_ok.mp hc
  obtain ⟨h', p', sig', hdr', hgen⟩ := TokenLibrary.genuineClaims_eq_ok.mp hg
  obtain ⟨⟨rfl, rfl, rfl⟩, rfl, rfl⟩ := hread.unique hgen.reads
  constructor
  · rintro ⟨c', hc'⟩
    obtain ⟨_, _, _, _, hgen'⟩ :=
      TokenLibrary.genuineClaims_eq_ok.mp (TokenLibrary.verifiedClaims_eq_ok.mp hc').1
    obtain ⟨⟨rfl, rfl, rfl⟩, rfl, rfl⟩ := hread.unique hgen'.reads
    exact hgen'.signature
  · intro hsigned
    exact ⟨claims, TokenLibrary.verifiedClaims_eq_ok.mpr ⟨TokenLibrary.genuineClaims_eq_ok.mpr
      ⟨h, p, sig, hdr, hread, hgen.alg, hsigned, hgen.issuer, hgen.audience⟩, hexp, hnonce⟩⟩

end Attempt

/-- The last RSA key of a set that has no id. -/
def unnamedKey (L : TokenLibrary Key) (root : Members) : Option Members :=
  ((L.rsaKeys (keysOf root)).filter fun k => L.strField k "kid" == "").getLast?

/-- No key of the set has the id. -/
def NotNamed (L : TokenLibrary Key) (jwksJson kid : String) : Prop :=
  ∀ root, L.object jwksJson = some root → ∀ k, .obj k ∈ keysOf root → L.strField k "kid" ≠ kid

theorem designatedKey_of_notNamed {L : TokenLibrary Key} {jwksJson kid : String} {root : Members}
    (hroot : L.object jwksJson = some root) (hkid : kid ≠ "") (hno : NotNamed L jwksJson kid) :
    L.designatedKey kid (keysOf root) = unnamedKey L root := by
  have hnone : ((L.rsaKeys (keysOf root)).find? fun k => L.strField k "kid" == kid) = none := by
    rw [List.find?_eq_none]
    intro k hk
    obtain ⟨v, hv, hobj⟩ := List.mem_filterMap.mp (List.mem_filter.mp hk).1
    cases v with
    | obj o =>
      cases hobj
      simpa using hno root hroot k hv
    | _ => cases hobj
  rw [TokenLibrary.designatedKey, if_neg hkid, hnone, Option.none_or, unnamedKey]

/-! ### The loop -/

section Loop
variable {verify : (jwks : String) → (clock : ℤ) → Except Failure Unit × Vouched}
  {jwksUri err : String} {out : Vouched} {left : ℕ} {cache : JwksCache}
  {again : String → Provider Ending} {v : Except Failure Unit × Vouched}
  {tr : List (Event ProviderOp.Ans)} {r : Ending}

theorem settle_ok (h : v.1 = .ok ()) : settle out cache again v = .ret (.ok (), v.2, cache) := by
  obtain ⟨verdict, claims⟩ := v
  cases h
  rfl

theorem settle_misses (h : Misses v.1) : ∃ err, settle out cache again v = again err := by
  obtain ⟨verdict, claims⟩ := v
  obtain ⟨err, herr, hmiss⟩ := h
  cases herr
  have hfind : (indexOf keyMiss err.toList).isSome = true := by
    rw [Option.isSome_iff_ne_none, ne_eq, indexOf_eq_none, not_not]
    exact hmiss
  exact ⟨err, if_pos hfind⟩

theorem settle_else (hok : v.1 ≠ .ok ()) (hmiss : ¬ Misses v.1) :
    settle out cache again v = .ret (v.1, out, cache) := by
  obtain ⟨verdict, claims⟩ := v
  cases verdict with
  | ok u => exact absurd rfl hok
  | error failure =>
    cases failure with
    | refused err =>
      have hfind : ¬ (indexOf keyMiss err.toList).isSome = true := by
        rw [Option.isSome_iff_ne_none, ne_eq, indexOf_eq_none, not_not]
        exact fun h => hmiss ⟨err, rfl, h⟩
      exact if_neg hfind
    | threw => rfl
    | undefined => rfl

/-- An attempt with a set that is kept. -/
theorem attempts_kept {jwks : String} (hcache : cache jwksUri = some jwks) (hne : jwks ≠ "") :
    (attempts verify jwksUri out (left + 1) false err cache).Yields tr r ↔
      ∃ now tr', tr = ⟨.time, now⟩ :: tr' ∧ (settle out cache (fun err =>
        attempts verify jwksUri out left true err cache) (verify jwks now)).Yields tr' r := by
  have hkept : fetchJwks jwksUri false err cache = .ret (jwks, err, cache) := by
    unfold fetchJwks
    rw [hcache]
    rfl
  rw [attempts, hkept, Prog.ret_bind]
  dsimp only
  rw [if_neg (by simpa using hne), Prog.yields_perform_bind]

theorem attempts_kept_ok {jwks : String} (hcache : cache jwksUri = some jwks) (hne : jwks ≠ "")
    {now : ℤ} (hok : (verify jwks now).1 = .ok ()) :
    (attempts verify jwksUri out (left + 1) false err cache).Yields [⟨.time, now⟩]
      (.ok (), (verify jwks now).2, cache) := by
  rw [attempts_kept hcache hne]
  refine ⟨now, [], rfl, ?_⟩
  rw [settle_ok hok]
  exact (Prog.ret_yields _ _ _).mpr ⟨rfl, rfl⟩

theorem attempts_kept_else {jwks : String} (hcache : cache jwksUri = some jwks) (hne : jwks ≠ "")
    {now : ℤ} (hok : (verify jwks now).1 ≠ .ok ()) (hmiss : ¬ Misses (verify jwks now).1) :
    (attempts verify jwksUri out (left + 1) false err cache).Yields [⟨.time, now⟩]
      ((verify jwks now).1, out, cache) := by
  rw [attempts_kept hcache hne]
  refine ⟨now, [], rfl, ?_⟩
  rw [settle_else hok hmiss]
  exact (Prog.ret_yields _ _ _).mpr ⟨rfl, rfl⟩

/-- An attempt with a set that is fetched. -/
theorem attempts_fetched (h : (attempts verify jwksUri out (left + 1) true err cache).Yields tr r) :
    ∃ reply tr', tr = ⟨.get jwksUri, reply⟩ :: tr' ∧ (succeeded reply = true → reply.body ≠ "" →
      ∃ now tr'', tr' = ⟨.time, now⟩ :: tr'' ∧ (settle out (cache.put jwksUri reply.body)
        (fun err => attempts verify jwksUri out left true err (cache.put jwksUri reply.body))
        (verify reply.body now)).Yields tr'' r) := by
  have hfetch : fetchJwks jwksUri true err cache = (ask (.get jwksUri) >>= fun reply =>
      if !succeeded reply then
        .ret ("", "jwks unreachable (" ++
          (if reply.ok then "HTTP " ++ toString reply.status else reply.error) ++ ")", cache)
      else .ret (reply.body, err, cache.put jwksUri reply.body)) := rfl
  rw [attempts, hfetch] at h
  obtain ⟨x, tr₁, tr₂, rfl, hx, hrest⟩ := (Prog.yields_bind _ _ _ _).mp h
  obtain ⟨reply, tr', rfl, hreply⟩ := (Prog.yields_perform_bind _ _ _ _).mp hx
  refine ⟨reply, tr' ++ tr₂, rfl, fun hok hne => ?_⟩
  rw [hok] at hreply
  obtain ⟨rfl, rfl⟩ := (Prog.ret_yields _ _ _).mp hreply
  dsimp only at hrest
  rw [if_neg (by simpa using hne), Prog.yields_perform_bind] at hrest
  exact hrest

end Loop

/-! ### A key that is new -/

/-- The set verifies the token at a time. -/
def VerifiesAt (L : TokenLibrary Key) (cfg : OAuthProviderConfig) (idToken nonce jwksJson : String)
    (now : ℤ) : Prop :=
  (L.verifyIdToken idToken cfg.issuer cfg.clientId nonce jwksJson ⟨"", "", false⟩ 0 now).1 = .ok ()

/-- The provider answers with `current`, and the clock shows times at which that
verifies the token. -/
def Serves (L : TokenLibrary Key) (cfg : OAuthProviderConfig) (idToken nonce current : String) :
    Event ProviderOp.Ans → Prop
  | ⟨.get url, reply⟩ => url = cfg.jwksUri → succeeded reply = true ∧ reply.body = current
  | ⟨.time, now⟩ => VerifiesAt L cfg idToken nonce current now

/-- The token is accepted, after one fetch at most. -/
def Transparent (L : TokenLibrary Key) (cfg : OAuthProviderConfig) (idToken nonce current : String)
    (out : Vouched) (err : String) (cache : JwksCache) : Prop :=
  ∀ tr r, (verifyIdToken L cfg idToken nonce out err cache).Yields tr r →
    (∀ e ∈ tr, Serves L cfg idToken nonce current e) →
    r.1 = .ok () ∧ tr.countP (fun e => e.op.isGet) ≤ 1

/-- The kept set is a JSON object, and the last of its RSA keys without an id, if
it has one, verifies the signature. -/
def LeavesChoice (L : TokenLibrary Key) (cached h p sig : String) : Prop :=
  ∃ root, L.object cached = some root ∧
    ∀ jwk, unnamedKey L root = some jwk → L.SignedBy jwk h p sig

theorem object_ne_empty {L : TokenLibrary Key} (hL : L.Lawful) {text : String} {root : Members}
    (h : L.object text = some root) : text ≠ "" := by
  rintro rfl
  rw [TokenLibrary.object, hL.parse_empty] at h
  cases h

section Rotation
variable {L : TokenLibrary Key} {cfg : OAuthProviderConfig} {idToken nonce h p sig err : String}
  {hdr claims : Members} {cached current : String} {now : ℤ} {out : Vouched} {cache : JwksCache}

theorem misses_verify : Misses (L.verifyIdToken idToken cfg.issuer cfg.clientId nonce cached
      ⟨"", "", false⟩ 0 now).1 ↔
    Misses (L.verifiedClaims idToken cfg.issuer cfg.clientId nonce cached 0 now) :=
  exists_congr fun _ => and_congr_left fun _ => TokenLibrary.verifyIdToken_eq_error

/-- **Key sets that change.** For a token that the current set verifies and whose
key the kept set does not name, it does not matter what is kept, exactly if the
kept set leaves the choice to the provider. -/
theorem rotation_iff (hL : L.Lawful) (huri : cfg.jwksUri ≠ "")
    (hcache : cache cfg.jwksUri = some cached) (hread : L.Reads idToken h p sig hdr claims)
    (hkid : L.strField hdr "kid" ≠ "") (hno : NotNamed L cached (L.strField hdr "kid"))
    (hnow : VerifiesAt L cfg idToken nonce current now) :
    Transparent L cfg idToken nonce current out err cache ↔ LeavesChoice L cached h p sig := by
  have hcurrent : ∀ {t}, VerifiesAt L cfg idToken nonce current t →
      ∃ c, L.verifiedClaims idToken cfg.issuer cfg.clientId nonce current 0 t = .ok c :=
    TokenLibrary.verifyIdToken_eq_ok.mp
  have halg : L.strField hdr "alg" = "RS256" := alg_of_verified hread (hcurrent hnow)
  have hkept : ∀ {t}, VerifiesAt L cfg idToken nonce current t →
      (VerifiesAt L cfg idToken nonce cached t ↔
        L.SignedFrom cached (L.strField hdr "kid") h p sig) := fun ht =>
    TokenLibrary.verifyIdToken_eq_ok.trans (verifies_iff_signed hread (hcurrent ht))
  have hmiss : ∀ {t}, Misses (L.verifyIdToken idToken cfg.issuer cfg.clientId nonce cached
      ⟨"", "", false⟩ 0 t).1 ↔ ∃ root, L.object cached = some root ∧ unnamedKey L root = none := by
    intro t
    rw [misses_verify, misses_iff hread halg]
    refine exists_congr fun root => and_congr_right fun hroot => ?_
    rw [designatedKey_of_notNamed hroot hkid hno]
  have hprogram : verifyIdToken L cfg idToken nonce out err cache = attempts (fun jwks clock =>
      L.verifyIdToken idToken cfg.issuer cfg.clientId nonce jwks ⟨"", "", false⟩ 0 clock)
      cfg.jwksUri out 2 false err cache := if_neg (by simpa using huri)
  constructor
  · intro htrans
    by_contra hbad
    have hrefused : ¬ VerifiesAt L cfg idToken nonce cached now := by
      intro hok
      obtain ⟨root, jwk, hroot, hkey, hsigned⟩ := (hkept hnow).mp hok
      rw [designatedKey_of_notNamed hroot hkid hno] at hkey
      refine hbad ⟨root, hroot, fun jwk' hkey' => ?_⟩
      obtain rfl := Option.some.inj (hkey.symm.trans hkey')
      exact hsigned
    have hfinal : ¬ Misses (L.verifyIdToken idToken cfg.issuer cfg.clientId nonce cached
        ⟨"", "", false⟩ 0 now).1 := by
      rw [hmiss]
      rintro ⟨root, hroot, hnone⟩
      refine hbad ⟨root, hroot, fun jwk hkey => ?_⟩
      rw [hnone] at hkey
      cases hkey
    by_cases hempty : cached = ""
    · have hy : (verifyIdToken L cfg idToken nonce out err cache).Yields []
          (.error (.refused err), out, cache) := by
        rw [hprogram, attempts]
        unfold fetchJwks
        rw [hcache, hempty]
        exact (Prog.ret_yields _ _ _).mpr ⟨rfl, rfl⟩
      have hok := (htrans [] _ hy fun e he => absurd he List.not_mem_nil).1
      cases hok
    · have hy : (verifyIdToken L cfg idToken nonce out err cache).Yields [⟨.time, now⟩]
          ((L.verifyIdToken idToken cfg.issuer cfg.clientId nonce cached ⟨"", "", false⟩ 0 now).1,
            out, cache) := by
        rw [hprogram]
        exact attempts_kept_else hcache hempty hrefused hfinal
      refine hrefused (htrans _ _ hy fun e he => ?_).1
      rw [List.mem_singleton] at he
      subst he
      exact hnow
  · rintro ⟨root, hroot, hlast⟩ tr r hy hserves
    rw [hprogram, attempts_kept hcache (object_ne_empty hL hroot)] at hy
    obtain ⟨t, rest, rfl, hy⟩ := hy
    have ht : VerifiesAt L cfg idToken nonce current t := hserves _ List.mem_cons_self
    cases hkey : unnamedKey L root with
    | some jwk =>
      have hok := (hkept ht).mpr ⟨root, jwk, hroot,
        (designatedKey_of_notNamed hroot hkid hno).trans hkey, hlast jwk hkey⟩
      rw [settle_ok hok] at hy
      obtain ⟨rfl, rfl⟩ := (Prog.ret_yields _ _ _).mp hy
      exact ⟨rfl, Nat.zero_le _⟩
    | none =>
      obtain ⟨err', hagain⟩ := settle_misses (hmiss.mpr ⟨root, hroot, hkey⟩)
      rw [hagain] at hy
      obtain ⟨reply, rest, rfl, hfetched⟩ := attempts_fetched hy
      obtain ⟨hok, hbody⟩ :=
        hserves ⟨.get cfg.jwksUri, reply⟩ (List.mem_cons_of_mem _ List.mem_cons_self) rfl
      have hne : current ≠ "" := by
        obtain ⟨c, hc⟩ := hcurrent ht
        obtain ⟨_, _, _, _, hgen⟩ := TokenLibrary.genuineClaims_eq_ok.mp
          (TokenLibrary.verifiedClaims_eq_ok.mp hc).1
        obtain ⟨root', _, hroot', -⟩ := hgen.signature
        exact object_ne_empty hL hroot'
      rw [hbody] at hfetched
      obtain ⟨t', rest, rfl, hsettled⟩ := hfetched hok hne
      have ht' : VerifiesAt L cfg idToken nonce current t' :=
        hserves _ (List.mem_cons_of_mem _ (List.mem_cons_of_mem _ List.mem_cons_self))
      rw [settle_ok ht'] at hsettled
      obtain ⟨rfl, rfl⟩ := (Prog.ret_yields _ _ _).mp hsettled
      exact ⟨rfl, le_refl 1⟩

end Rotation

/-! ### A provider that has changed its key -/

open TokenLibrary (sampleLibrary sampleLibrary_lawful sampleToken sampleHeader sampleKeySet
  claimsUntil roundedPayload sample_reads sample_verified roundedPayload_isPart part_roundedPayload
  wholeNumber_rounded lastSecond_rounded)

/-- The provider's former key, with its id. -/
def namedKeySet : String :=
  "\x7b\"keys\":[\x7b\"kty\":\"RSA\",\"kid\":\"k0\",\"n\":\"TjI\",\"e\":\"RQ\"\x7d]\x7d"

/-- The same key without an id. -/
def unnamedKeySet : String :=
  "\x7b\"keys\":[\x7b\"kty\":\"RSA\",\"n\":\"TjI\",\"e\":\"RQ\"\x7d]\x7d"

def namedKey : Members :=
  [("kty", .str "RSA"), ("kid", .str "k0"), ("n", .str "TjI"), ("e", .str "RQ")]

def nameless : Members := [("kty", .str "RSA"), ("n", .str "TjI"), ("e", .str "RQ")]

def formerKeys : List (String × Json) :=
  [(namedKeySet, .obj [("keys", .arr [.obj namedKey])]),
    (unnamedKeySet, .obj [("keys", .arr [.obj nameless])])]

def rotatingProvider : OAuthProviderConfig where
  issuer := "https://idp"
  clientId := "app"
  jwksUri := "https://idp/keys"

/-- A cache with one set. -/
def keeping (jwksJson : String) : JwksCache := fun uri =>
  if uri = "https://idp/keys" then some jwksJson else none

theorem rotating_verifies : VerifiesAt (sampleLibrary formerKeys) rotatingProvider
    (sampleToken roundedPayload) "" sampleKeySet 1700000000 := by
  have hverified : (sampleLibrary formerKeys).verifiedClaims (sampleToken roundedPayload)
      "https://idp" "app" "" sampleKeySet 0 1700000000 = .ok (claimsUntil "9007199254740993") :=
    sample_verified roundedPayload_isPart part_roundedPayload wholeNumber_rounded rfl (by decide)
      lastSecond_rounded (by decide)
  exact TokenLibrary.verifyIdToken_eq_ok.mpr ⟨_, hverified⟩

theorem rotating_reads : (sampleLibrary formerKeys).Reads (sampleToken roundedPayload)
    "eyJhbGciOiJSUzI1NiIsImtpZCI6ImsxIn0" roundedPayload "c2lnbmVkIGJ5IE4x" sampleHeader
    (claimsUntil "9007199254740993") := sample_reads roundedPayload_isPart part_roundedPayload

theorem object_namedKeySet : (sampleLibrary formerKeys).object namedKeySet =
    some [("keys", .arr [.obj namedKey])] := rfl

theorem object_unnamedKeySet : (sampleLibrary formerKeys).object unnamedKeySet =
    some [("keys", .arr [.obj nameless])] := rfl

/-- A set of one key names that key only. -/
theorem notNamed_of_single {L : TokenLibrary Key} {jwksJson kid : String} {k : Members}
    (h : L.object jwksJson = some [("keys", .arr [.obj k])]) (hk : L.strField k "kid" ≠ kid) :
    NotNamed L jwksJson kid := by
  intro root hroot k' hk'
  rw [h] at hroot
  cases hroot
  have hsame : Json.obj k' = .obj k := List.mem_singleton.mp hk'
  cases hsame
  exact hk

/-- With the former key's id in the kept set the token is accepted. -/
theorem rotation_iff_named : (sampleLibrary formerKeys).Lawful ∧
    NotNamed (sampleLibrary formerKeys) namedKeySet "k1" ∧
    Transparent (sampleLibrary formerKeys) rotatingProvider (sampleToken roundedPayload) ""
      sampleKeySet ⟨"", "", false⟩ "" (keeping namedKeySet) := by
  have hL : (sampleLibrary formerKeys).Lawful := sampleLibrary_lawful rfl
  have hno : NotNamed (sampleLibrary formerKeys) namedKeySet "k1" :=
    notNamed_of_single object_namedKeySet (by decide)
  have hkid : (sampleLibrary formerKeys).strField sampleHeader "kid" ≠ "" := by decide
  have hkept : keeping namedKeySet rotatingProvider.jwksUri = some namedKeySet := rfl
  have hchoice : LeavesChoice (sampleLibrary formerKeys) namedKeySet
      "eyJhbGciOiJSUzI1NiIsImtpZCI6ImsxIn0" roundedPayload "c2lnbmVkIGJ5IE4x" := by
    refine ⟨_, object_namedKeySet, fun jwk hjwk => ?_⟩
    cases hjwk
  exact ⟨hL, hno, (rotation_iff hL (by decide) hkept rotating_reads hkid hno rotating_verifies).mpr
    hchoice⟩

/-- **A key without an id is in the way.** The provider's current set verifies the
token, and the kept one does not name its key; but its key has no id, so it is
tried, and the token is refused without another fetch. -/
theorem not_transparent :
    VerifiesAt (sampleLibrary formerKeys) rotatingProvider (sampleToken roundedPayload) ""
      sampleKeySet 1700000000 ∧
    NotNamed (sampleLibrary formerKeys) unnamedKeySet "k1" ∧
    (verifyIdToken (sampleLibrary formerKeys) rotatingProvider (sampleToken roundedPayload) ""
      ⟨"", "", false⟩ "" (keeping unnamedKeySet)).Yields [⟨.time, (1700000000 : ℤ)⟩]
        (.error (.refused "id_token signature verification failed"), ⟨"", "", false⟩,
          keeping unnamedKeySet) := by
  refine ⟨rotating_verifies, notNamed_of_single object_unnamedKeySet (by decide), ?_⟩
  have hprogram : verifyIdToken (sampleLibrary formerKeys) rotatingProvider
      (sampleToken roundedPayload) "" ⟨"", "", false⟩ "" (keeping unnamedKeySet) =
      attempts (fun jwks clock => (sampleLibrary formerKeys).verifyIdToken
        (sampleToken roundedPayload) "https://idp" "app" "" jwks ⟨"", "", false⟩ 0 clock)
        "https://idp/keys" ⟨"", "", false⟩ 2 false "" (keeping unnamedKeySet) := rfl
  have hkept : keeping unnamedKeySet "https://idp/keys" = some unnamedKeySet := rfl
  have hverdict : ((sampleLibrary formerKeys).verifyIdToken (sampleToken roundedPayload)
      "https://idp" "app" "" unnamedKeySet ⟨"", "", false⟩ 0 1700000000).1 =
        .error (.refused "id_token signature verification failed") :=
    TokenLibrary.verifyIdToken_eq_error.mpr (TokenLibrary.verifiedClaims_of_bad_signature
      rotating_reads rfl object_unnamedKeySet rfl rfl rfl rfl)
  have hrefused : ((sampleLibrary formerKeys).verifyIdToken (sampleToken roundedPayload)
      "https://idp" "app" "" unnamedKeySet ⟨"", "", false⟩ 0 1700000000).1 ≠ .ok () := by
    rw [hverdict]
    intro h
    cases h
  have hmiss : ¬ Misses ((sampleLibrary formerKeys).verifyIdToken (sampleToken roundedPayload)
      "https://idp" "app" "" unnamedKeySet ⟨"", "", false⟩ 0 1700000000).1 := by
    rw [hverdict]
    rintro ⟨err, herr, hmiss⟩
    cases herr
    exact not_keyMiss _ (by decide) hmiss
  rw [hprogram, ← hverdict]
  exact attempts_kept_else hkept (by decide) hrefused hmiss

end OAuthProvider
end HttpBridge
