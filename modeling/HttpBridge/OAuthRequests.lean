/-
# The requests to a provider

A sign-in with a provider is two requests: the browser is sent to the provider's
authorization endpoint with the parameters of the sign-in in the query
(`buildAuthorizeUrl`), and the code it comes back with is posted to the token
endpoint in a form (`exchangeCode`). Every value is percent-encoded, byte by
byte, and `urlDecode` undoes that (`urlDecode_urlEncode`). So whatever the bytes,
a provider that takes the query and the form apart finds the parameters that were
meant, each once, behind those the endpoint's address has anyway
(`oauth_parameters_read_back`).
-/
import HttpBridge.Net.JsonText
import HttpBridge.Net.Query
import HttpBridge.Providers
import HttpBridge.ReturnUrls

namespace HttpBridge

open Net
open JsonText (hexValue)

structure OAuthProviderConfig where
  name : String := ""
  kind : ProviderKind := .oidc
  clientId : String := ""
  clientSecret : String := ""
  authUrl : String := ""
  tokenUrl : String := ""
  userinfoUrl : String := ""
  emailsUrl : String := ""
  scopes : String := ""
  redirectUri : String := ""
  issuer : String := ""
  jwksUri : String := ""
  verifyIdToken : Bool := true
  deriving DecidableEq

/-! ### Percent-encoding -/

/-- `strtol` in base 16. A prefix `0x` is not read, for two characters leave no
room for a digit behind it. -/
def strtolHex (s : List Char) : ℤ :=
  let body := s.dropWhile isSpace
  let rest := match body with
    | '-' :: rest => rest
    | '+' :: rest => rest
    | rest => rest
  let digits := rest.takeWhile fun c => (hexValue c).isSome
  let n : ℕ := digits.foldl (fun n c => 16 * n + (hexValue c).getD 0) 0
  if body.head? == some '-' then -n else n

/-- `static_cast<char>`. -/
def byteOf (n : ℤ) : Char := Char.ofNat (n % 256).toNat

def urlDecodeChars : List Char → List Char
  | '%' :: a :: b :: s => byteOf (strtolHex [a, b]) :: urlDecodeChars s
  | c :: s => (if c = '+' then ' ' else c) :: urlDecodeChars s
  | [] => []

/-- `utils.cpp`, `urlDecode`. -/
def urlDecode (encoded : String) : String := String.ofList (urlDecodeChars encoded.toList)

/-- Every character is a byte. -/
def IsBytes (s : String) : Prop := ∀ c ∈ s.toList, c.toNat < 256

theorem strtolHex_hexDigit :
    ∀ i < 16, ∀ j < 16, strtolHex [hexDigit i, hexDigit j] = 16 * i + j := by decide +kernel

theorem urlDecodeChars_cons {c : Char} (hc : c ≠ '%') (s : List Char) :
    urlDecodeChars (c :: s) = (if c = '+' then ' ' else c) :: urlDecodeChars s := by
  rw [urlDecodeChars]
  intro a b s' h
  exact absurd h hc

/-- What one character is encoded as is decoded to it. -/
theorem urlDecodeChars_escaped {c : Char} (hc : c.toNat < 256) (s : List Char) :
    urlDecodeChars (['%', hexDigit (c.toNat / 16 % 16), hexDigit (c.toNat % 16)] ++ s) =
      c :: urlDecodeChars s := by
  have hvalue : 16 * (((c.toNat / 16 % 16 : ℕ) : ℤ)) + ((c.toNat % 16 : ℕ) : ℤ) = c.toNat := by omega
  have hbyte : byteOf c.toNat = c := by
    have hmod : ((c.toNat : ℤ) % 256).toNat = c.toNat := by omega
    rw [byteOf, hmod, Char.ofNat_toNat]
  rw [List.cons_append, List.cons_append, List.cons_append, List.nil_append, urlDecodeChars,
    strtolHex_hexDigit _ (Nat.mod_lt _ (by decide)) _ (Nat.mod_lt _ (by decide)), hvalue, hbyte]

theorem urlDecode_urlEncode {s : String} (hs : IsBytes s) : urlDecode (urlEncode s) = s := by
  rw [urlDecode, urlEncode, String.toList_ofList, ← String.toList_inj, String.toList_ofList]
  rw [IsBytes] at hs
  generalize s.toList = cs at hs
  induction cs with
  | nil => rfl
  | cons c cs ih =>
    have htail := ih fun d hd => hs d (List.mem_cons_of_mem _ hd)
    rw [List.flatMap_cons]
    split_ifs with hplain
    · have hpercent : c ≠ '%' := by
        rintro rfl
        exact absurd hplain (by decide)
      have hplus : c ≠ '+' := by
        rintro rfl
        exact absurd hplain (by decide)
      rw [List.singleton_append, urlDecodeChars_cons hpercent, if_neg hplus, htail]
    · rw [urlDecodeChars_escaped (hs c List.mem_cons_self), htail]

/-- The characters an encoded text is of. -/
theorem mem_urlEncode {s : String} {c : Char} (h : c ∈ (urlEncode s).toList) :
    c.isAlphanum = true ∨ c ∈ ['-', '_', '.', '~', '%'] := by
  have hdigit : ∀ i < 16, (hexDigit i).isAlphanum = true := by decide
  rw [urlEncode, String.toList_ofList, List.mem_flatMap] at h
  obtain ⟨d, -, hd⟩ := h
  split_ifs at hd with hplain
  · rw [List.mem_singleton] at hd
    subst hd
    rw [Bool.or_eq_true, decide_eq_true_iff] at hplain
    exact hplain.imp_right (List.mem_append_left ['%'])
  · simp only [List.mem_cons, List.not_mem_nil, or_false] at hd
    rcases hd with rfl | rfl | rfl
    · exact .inr (by decide)
    · exact .inl (hdigit _ (Nat.mod_lt _ (by decide)))
    · exact .inl (hdigit _ (Nat.mod_lt _ (by decide)))

theorem not_mem_urlEncode {c : Char} (hc : c ∈ ['&', '=', '#', '?']) (s : String) :
    c ∉ (urlEncode s).toList := by
  intro h
  have hno : ∀ c ∈ ['&', '=', '#', '?'],
      ¬ (c.isAlphanum = true ∨ c ∈ ['-', '_', '.', '~', '%']) := by decide
  exact hno c hc (mem_urlEncode h)

/-! ### The two requests -/

/-- `OAuthProvider::buildAuthorizeUrl`. -/
def buildAuthorizeUrl (cfg : OAuthProviderConfig) (state codeChallenge nonce : String) : String :=
  let sep := if '?' ∉ cfg.authUrl.toList then "?" else "&"
  let url := cfg.authUrl ++ sep ++
    "response_type=code" ++
    "&client_id=" ++ urlEncode cfg.clientId ++
    "&redirect_uri=" ++ urlEncode cfg.redirectUri ++
    "&scope=" ++ urlEncode cfg.scopes ++
    "&state=" ++ urlEncode state ++
    "&code_challenge=" ++ urlEncode codeChallenge ++
    "&code_challenge_method=S256"
  if nonce != "" then url ++ "&nonce=" ++ urlEncode nonce else url

/-- The form that `exchangeCode` posts. -/
def tokenForm (cfg : OAuthProviderConfig) (code codeVerifier : String) : String :=
  "grant_type=authorization_code&code=" ++ urlEncode code ++
    "&redirect_uri=" ++ urlEncode cfg.redirectUri ++
    "&client_id=" ++ urlEncode cfg.clientId ++
    "&client_secret=" ++ urlEncode cfg.clientSecret ++
    "&code_verifier=" ++ urlEncode codeVerifier

/-- `OAuthProvider::exchangeCode`: the access token and the id token, or the
error. `postForm` answers with a status and a parsed body, or with what failed. -/
def exchangeCode (V : Conversions) (postForm : String → String → Except String (ℕ × Option Json))
    (cfg : OAuthProviderConfig) (code codeVerifier : String) : Except String (String × String) :=
  match postForm cfg.tokenUrl (tokenForm cfg code codeVerifier) with
  | .error e => .error ("token endpoint unreachable: " ++ e)
  | .ok (status, body) =>
    if status < 200 || status ≥ 300 then
      .error ("token exchange failed (HTTP " ++ toString status ++ ")")
    else
      match body.bind Json.members? with
      | none => .error "token response was not valid JSON"
      | some obj =>
        if V.strField obj "access_token" == "" then .error "token response had no access_token"
        else .ok (V.strField obj "access_token", V.strField obj "id_token")

/-! ### What a provider reads -/

/-- A query or a form, taken apart and decoded. -/
def queryParameters (query : List Char) : List (String × String) :=
  (Query.pairs query).map fun p => (urlDecode (String.ofList p.1), urlDecode (String.ofList p.2))

/-- The parameters an endpoint's address has of its own. -/
def ownParameters (url : String) : List (String × String) :=
  ((uriOf url).query.map queryParameters).getD []

/-- What the authorization request is meant to say. -/
def authorizeParameters (cfg : OAuthProviderConfig) (state codeChallenge nonce : String) :
    List (String × String) :=
  [("response_type", "code"), ("client_id", cfg.clientId), ("redirect_uri", cfg.redirectUri),
    ("scope", cfg.scopes), ("state", state), ("code_challenge", codeChallenge),
    ("code_challenge_method", "S256")] ++ if nonce = "" then [] else [("nonce", nonce)]

/-- What the token request is meant to say. -/
def exchangeParameters (cfg : OAuthProviderConfig) (code codeVerifier : String) :
    List (String × String) :=
  [("grant_type", "authorization_code"), ("code", code), ("redirect_uri", cfg.redirectUri),
    ("client_id", cfg.clientId), ("client_secret", cfg.clientSecret),
    ("code_verifier", codeVerifier)]

/-- A parameter as it is written. -/
def encoded (p : String × String) : List Char × List Char := (p.1.toList, (urlEncode p.2).toList)

/-- The names that occur. -/
def parameterNames : List String :=
  ["response_type", "client_id", "redirect_uri", "scope", "state", "code_challenge",
    "code_challenge_method", "nonce", "grant_type", "code", "client_secret", "code_verifier"]

/-- The words that the requests are written with need no encoding. -/
theorem word_unreserved : ∀ n ∈ "authorization_code" :: "S256" :: parameterNames, ∀ c ∈ n.toList,
    (c.isAlphanum || c ∈ ['-', '_', '.', '~']) = true ∧ c.toNat < 256 := by decide +kernel

theorem urlEncode_word {n : String} (hn : n ∈ "authorization_code" :: "S256" :: parameterNames) :
    urlEncode n = n := by
  have hplain := word_unreserved n hn
  rw [urlEncode, ← String.toList_inj, String.toList_ofList]
  generalize n.toList = cs at hplain
  induction cs with
  | nil => rfl
  | cons c cs ih =>
    have htail := ih fun d hd => hplain d (List.mem_cons_of_mem c hd)
    rw [List.flatMap_cons, if_pos (hplain c List.mem_cons_self).1, htail, List.singleton_append]

theorem urlDecode_word {n : String} (hn : n ∈ "authorization_code" :: "S256" :: parameterNames) :
    urlDecode n = n := by
  have hread := urlDecode_urlEncode fun c hc => (word_unreserved n hn c hc).2
  rwa [urlEncode_word hn] at hread

theorem word_of_name {n : String} (hn : n ∈ parameterNames) :
    n ∈ "authorization_code" :: "S256" :: parameterNames :=
  List.mem_cons_of_mem _ (List.mem_cons_of_mem _ hn)

theorem not_mem_name {c : Char} (hc : c ∈ ['&', '=', '#']) {n : String} (hn : n ∈ parameterNames) :
    c ∉ n.toList := by
  intro hmem
  have hno : ∀ c ∈ ['&', '=', '#'], ¬ (c.isAlphanum || c ∈ ['-', '_', '.', '~']) = true := by decide
  exact hno c hc (word_unreserved n (word_of_name hn) c hmem).1

section Reading
variable {ps : List (String × String)}

theorem plain_encoded {p : String × String} (hp : p.1 ∈ parameterNames) :
    Query.Plain (encoded p) := by
  have hvalue : '&' ∉ (urlEncode p.2).toList := not_mem_urlEncode (by simp) p.2
  constructor <;> dsimp only [encoded]
  · exact not_mem_name (by simp) hp
  · exact not_mem_name (by simp) hp
  · exact hvalue

/-- What is written for such parameters is read as them. -/
theorem queryParameters_joined (hne : ps ≠ [])
    (hps : ∀ p ∈ ps, p.1 ∈ parameterNames ∧ IsBytes p.2) :
    queryParameters (Query.joined (ps.map encoded)) = ps := by
  have hplain : ∀ e ∈ ps.map encoded, Query.Plain e := by
    intro e he
    obtain ⟨p, hp, rfl⟩ := List.mem_map.mp he
    exact plain_encoded (hps p hp).1
  rw [queryParameters, Query.pairs_joined (by simpa using hne) hplain, List.map_map]
  calc ps.map _ = ps.map id := List.map_congr_left fun p hp => by
        obtain ⟨hn, hv⟩ := hps p hp
        simp only [encoded, Function.comp_apply, String.ofList_toList,
          urlDecode_word (word_of_name hn), urlDecode_urlEncode hv, id]
    _ = ps := List.map_id ps

theorem toList_tokenForm (cfg : OAuthProviderConfig) (code codeVerifier : String) :
    (tokenForm cfg code codeVerifier).toList =
      Query.joined ((exchangeParameters cfg code codeVerifier).map encoded) := by
  have hplain : urlEncode "authorization_code" = "authorization_code" := urlEncode_word (by simp)
  unfold tokenForm
  simp [exchangeParameters, Query.joined, Query.written, encoded, hplain]

theorem toList_buildAuthorizeUrl (cfg : OAuthProviderConfig) (state codeChallenge nonce : String) :
    (buildAuthorizeUrl cfg state codeChallenge nonce).toList = cfg.authUrl.toList ++
      (if '?' ∉ cfg.authUrl.toList then '?' else '&') ::
        Query.joined ((authorizeParameters cfg state codeChallenge nonce).map encoded) := by
  have hplain : urlEncode "code" = "code" ∧ urlEncode "S256" = "S256" :=
    ⟨urlEncode_word (by simp [parameterNames]), urlEncode_word (by simp)⟩
  unfold buildAuthorizeUrl
  dsimp only
  by_cases hquery : '?' ∈ cfg.authUrl.toList <;> by_cases hnonce : nonce = "" <;>
    simp [authorizeParameters, Query.joined, Query.written, encoded, hplain, hquery, hnonce]

theorem hash_not_mem_joined (hps : ∀ p ∈ ps, p.1 ∈ parameterNames) :
    '#' ∉ Query.joined (ps.map encoded) := by
  intro h
  rcases Query.mem_joined h with h | h | ⟨e, he, h⟩
  · exact absurd h (by decide)
  · exact absurd h (by decide)
  · obtain ⟨p, hp, rfl⟩ := List.mem_map.mp he
    have hvalue : '#' ∉ (urlEncode p.2).toList := not_mem_urlEncode (by simp) p.2
    dsimp only [encoded] at h
    exact h.elim (not_mem_name (by simp) (hps p hp)) hvalue

/-- The authorization request is the endpoint's address with the parameters
behind its query. -/
theorem queryParameters_buildAuthorizeUrl {cfg : OAuthProviderConfig}
    {state codeChallenge nonce : String} (hfragment : '#' ∉ cfg.authUrl.toList)
    (hps : ∀ p ∈ authorizeParameters cfg state codeChallenge nonce,
      p.1 ∈ parameterNames ∧ IsBytes p.2) :
    ∃ query, uriOf (buildAuthorizeUrl cfg state codeChallenge nonce) =
        { uriOf cfg.authUrl with query := some query } ∧
      queryParameters query =
        ownParameters cfg.authUrl ++ authorizeParameters cfg state codeChallenge nonce := by
  have hne : authorizeParameters cfg state codeChallenge nonce ≠ [] := List.cons_ne_nil _ _
  have hread := queryParameters_joined hne hps
  have hhash := hash_not_mem_joined fun p hp => (hps p hp).1
  have hquery := Uri.query_isSome hfragment
  rw [uriOf, toList_buildAuthorizeUrl, ownParameters, uriOf]
  by_cases hq : '?' ∈ cfg.authUrl.toList
  · obtain ⟨q, hq'⟩ := Option.isSome_iff_exists.mp (hquery.mpr hq)
    rw [if_neg (not_not.mpr hq), hq']
    refine ⟨_, Uri.parse_extend_query hfragment hq' (by simpa using hhash), ?_⟩
    rw [queryParameters, Query.pairs_append, List.map_append]
    exact congrArg _ hread
  · have hnone : (Uri.parse cfg.authUrl.toList).query = none := by
      rwa [← Option.not_isSome_iff_eq_none, hquery]
    rw [if_pos hq, hnone]
    exact ⟨_, Uri.parse_append_query hfragment hq hhash, hread⟩

/-- A name that no parameter before has occurs once. -/
theorem count_name {own : List (String × String)} (hnodup : (ps.map Prod.fst).Nodup)
    (hown : ∀ p ∈ own, p.1 ∉ ps.map Prod.fst) {p : String × String} (hp : p ∈ ps) :
    ((own ++ ps).map Prod.fst).count p.1 = 1 := by
  have hmem : p.1 ∈ ps.map Prod.fst := List.mem_map_of_mem hp
  have hzero : (own.map Prod.fst).count p.1 = 0 := by
    rw [List.count_eq_zero]
    intro h
    obtain ⟨q, hq, heq⟩ := List.mem_map.mp h
    exact hown q hq (heq ▸ hmem)
  rw [List.map_append, List.count_append, hzero, List.count_eq_one_of_mem hnodup hmem]

theorem nodup_authorizeParameters (cfg : OAuthProviderConfig) (state codeChallenge nonce : String) :
    ((authorizeParameters cfg state codeChallenge nonce).map Prod.fst).Nodup := by
  by_cases hnonce : nonce = "" <;> simp [authorizeParameters, hnonce]

end Reading

/-- What the requests carry is read back: the query of the authorization request
is what the endpoint's address had and the parameters of the sign-in, each once,
and the form is the parameters of the exchange. -/
theorem oauth_parameters_read_back (cfg : OAuthProviderConfig)
    (state codeChallenge nonce code codeVerifier : String)
    (hbytes : ∀ s ∈ [cfg.clientId, cfg.clientSecret, cfg.redirectUri, cfg.scopes, state,
      codeChallenge, nonce, code, codeVerifier], IsBytes s)
    (hfragment : '#' ∉ cfg.authUrl.toList)
    (hnames : ∀ p ∈ ownParameters cfg.authUrl,
      p.1 ∉ (authorizeParameters cfg state codeChallenge nonce).map Prod.fst) :
    (∃ query, uriOf (buildAuthorizeUrl cfg state codeChallenge nonce) =
        { uriOf cfg.authUrl with query := some query } ∧
      queryParameters query =
        ownParameters cfg.authUrl ++ authorizeParameters cfg state codeChallenge nonce ∧
      ∀ p ∈ authorizeParameters cfg state codeChallenge nonce,
        ((queryParameters query).map Prod.fst).count p.1 = 1) ∧
    (queryParameters (tokenForm cfg code codeVerifier).toList =
        exchangeParameters cfg code codeVerifier ∧
      ∀ p ∈ exchangeParameters cfg code codeVerifier,
        ((queryParameters (tokenForm cfg code codeVerifier).toList).map Prod.fst).count p.1 = 1) ∧
    ∀ s, IsBytes s → urlDecode (urlEncode s) = s := by
  have hliteral : IsBytes "code" ∧ IsBytes "S256" ∧ IsBytes "authorization_code" := by
    unfold IsBytes
    decide +kernel
  simp only [List.forall_mem_cons, List.not_mem_nil, false_implies, implies_true, and_true] at hbytes
  obtain ⟨hid, hsecret, hredirect, hscopes, hstate, hchallenge, hnonce, hcode, hverifier⟩ := hbytes
  have hauthorize : ∀ p ∈ authorizeParameters cfg state codeChallenge nonce,
      p.1 ∈ parameterNames ∧ IsBytes p.2 := by
    intro p hp
    rw [authorizeParameters, List.mem_append] at hp
    rcases hp with hp | hp
    · simp only [List.mem_cons, List.not_mem_nil, or_false] at hp
      refine ⟨?_, ?_⟩
      · rcases hp with rfl | rfl | rfl | rfl | rfl | rfl | rfl <;> simp [parameterNames]
      · rcases hp with rfl | rfl | rfl | rfl | rfl | rfl | rfl
        exacts [hliteral.1, hid, hredirect, hscopes, hstate, hchallenge, hliteral.2.1]
    · split_ifs at hp
      · cases hp
      · rw [List.mem_singleton] at hp
        subst hp
        exact ⟨by simp [parameterNames], hnonce⟩
  have hexchange : ∀ p ∈ exchangeParameters cfg code codeVerifier,
      p.1 ∈ parameterNames ∧ IsBytes p.2 := by
    intro p hp
    simp only [exchangeParameters, List.mem_cons, List.not_mem_nil, or_false] at hp
    refine ⟨?_, ?_⟩
    · rcases hp with rfl | rfl | rfl | rfl | rfl | rfl <;> simp [parameterNames]
    · rcases hp with rfl | rfl | rfl | rfl | rfl | rfl
      exacts [hliteral.2.2, hcode, hredirect, hid, hsecret, hverifier]
  have hform : queryParameters (tokenForm cfg code codeVerifier).toList =
      exchangeParameters cfg code codeVerifier := by
    rw [toList_tokenForm]
    exact queryParameters_joined (List.cons_ne_nil _ _) hexchange
  obtain ⟨query, huri, hquery⟩ := queryParameters_buildAuthorizeUrl hfragment hauthorize
  refine ⟨⟨query, huri, hquery, fun p hp => ?_⟩, ⟨hform, fun p hp => ?_⟩,
    fun s => urlDecode_urlEncode⟩
  · rw [hquery]
    exact count_name (nodup_authorizeParameters cfg state codeChallenge nonce) hnames hp
  · have hnodup : ((exchangeParameters cfg code codeVerifier).map Prod.fst).Nodup := by
      simp [exchangeParameters]
    have hnone : ∀ q ∈ ([] : List (String × String)),
        q.1 ∉ (exchangeParameters cfg code codeVerifier).map Prod.fst := by simp
    rw [hform]
    exact count_name hnodup hnone hp

/-- An endpoint with a query of its own, and values with every kind of
separator in them. -/
def acmeProvider : OAuthProviderConfig where
  name := "acme"
  clientId := "a&b=c"
  clientSecret := "p+q %"
  authUrl := "https://idp.example/authorize?tenant=acme"
  tokenUrl := "https://idp.example/token"
  scopes := "openid email"
  redirectUri := "https://files.example/v1/auth/oauth/acme/callback"

theorem oauth_parameters_read_back_acme :
    (∃ query, uriOf (buildAuthorizeUrl acmeProvider "s#1" "ch_-~." "n?") =
        { uriOf acmeProvider.authUrl with query := some query } ∧
      queryParameters query =
        ownParameters acmeProvider.authUrl ++ authorizeParameters acmeProvider "s#1" "ch_-~." "n?" ∧
      ∀ p ∈ authorizeParameters acmeProvider "s#1" "ch_-~." "n?",
        ((queryParameters query).map Prod.fst).count p.1 = 1) ∧
    (queryParameters (tokenForm acmeProvider "\xff\x00" "v").toList =
        exchangeParameters acmeProvider "\xff\x00" "v" ∧
      ∀ p ∈ exchangeParameters acmeProvider "\xff\x00" "v",
        ((queryParameters (tokenForm acmeProvider "\xff\x00" "v").toList).map Prod.fst).count
          p.1 = 1) ∧
    ∀ s, IsBytes s → urlDecode (urlEncode s) = s :=
  oauth_parameters_read_back acmeProvider "s#1" "ch_-~." "n?" "\xff\x00" "v"
    (by unfold IsBytes; decide +kernel) (by decide +kernel) (by decide +kernel)

end HttpBridge
