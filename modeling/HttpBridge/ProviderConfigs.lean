/-
# Providers from the environment

`OAuthProvider::fromEnv` (`oauth_provider.cpp`): a provider is what the
environment says of it, filled up from a table of well-known ones and then from
the discovery document of its issuer. Its issuer stays empty exactly if neither
the environment nor the table names one (`fromEnv_issuer`), as for Microsoft,
whose tokens name the user's own tenant.

No issuer is meant to switch the issuer check off. But the verifier compares with
the empty text then, so a token passes whose `iss` reads as empty, and every
other token is refused (`issuer_off_iff`).
-/
import HttpBridge.KeyRotation

namespace HttpBridge

open Net Interact

namespace OAuthProvider

variable {Key : Type} (L : TokenLibrary Key)

/-! ### The environment -/

/-- `getEnvOrDefault`; a variable that is not set is empty. -/
def getEnvOrDefault (env : String → String) (var default : String) : String :=
  if env var == "" then default else env var

def providerEnv (env : String → String) (name key : String) (default : String := "") : String :=
  getEnvOrDefault env ("OAUTH_" ++ String.ofList (name.toList.map Char.toUpper) ++ "_" ++ key) default

/-! ### The table -/

structure WellKnown where
  authUrl : String
  tokenUrl : String
  userinfoUrl : String
  jwksUri : String
  issuer : String
  scopes : String

def wellKnownProviders (name : String) : Option WellKnown :=
  match name with
  | "google" => some {
      authUrl := "https://accounts.google.com/o/oauth2/v2/auth"
      tokenUrl := "https://oauth2.googleapis.com/token"
      userinfoUrl := "https://openidconnect.googleapis.com/v1/userinfo"
      jwksUri := "https://www.googleapis.com/oauth2/v3/certs"
      issuer := "https://accounts.google.com"
      scopes := "openid email profile" }
  | "microsoft" => some {
      authUrl := "https://login.microsoftonline.com/\x7btenant\x7d/oauth2/v2.0/authorize"
      tokenUrl := "https://login.microsoftonline.com/\x7btenant\x7d/oauth2/v2.0/token"
      userinfoUrl := "https://graph.microsoft.com/oidc/userinfo"
      jwksUri := "https://login.microsoftonline.com/\x7btenant\x7d/discovery/v2.0/keys"
      -- the multi-tenant endpoints: a token names the user's own tenant
      issuer := ""
      scopes := "openid email profile" }
  | "linkedin" => some {
      authUrl := "https://www.linkedin.com/oauth/v2/authorization"
      tokenUrl := "https://www.linkedin.com/oauth/v2/accessToken"
      userinfoUrl := "https://api.linkedin.com/v2/userinfo"
      jwksUri := "https://www.linkedin.com/oauth/openid/jwks"
      issuer := "https://www.linkedin.com/oauth"
      scopes := "openid profile email" }
  | _ => none

/-- The loop of `substituteTenant`, for as many passes as there is fuel: `none`
where it has not ended by then. -/
def substituteTenant (tenant : String) : (fuel : ℕ) → (url : String) → Option String
  | 0, _ => none
  | fuel + 1, url =>
    match indexOf "\x7btenant\x7d".toList url.toList with
    | none => some url
    | some at_ =>
      let rest := url.toList.drop (at_ + "\x7btenant\x7d".length)
      substituteTenant tenant fuel (String.ofList (url.toList.take at_ ++ tenant.toList ++ rest))

/-- `fill`. -/
def fill (fuel : ℕ) (tenant field default : String) : Option String :=
  if field == "" && default != "" then substituteTenant tenant fuel default else some field

def fillWellKnown (fuel : ℕ) (env : String → String) (name : String) (cfg : OAuthProviderConfig) :
    Option OAuthProviderConfig :=
  match wellKnownProviders (lowered name) with
  | none => some cfg
  | some known => do
    let tenant := providerEnv env name "TENANT" "common"
    let authUrl ← fill fuel tenant cfg.authUrl known.authUrl
    let tokenUrl ← fill fuel tenant cfg.tokenUrl known.tokenUrl
    let userinfoUrl ← fill fuel tenant cfg.userinfoUrl known.userinfoUrl
    let jwksUri ← fill fuel tenant cfg.jwksUri known.jwksUri
    let issuer ← fill fuel tenant cfg.issuer known.issuer
    let scopes := if providerEnv env name "SCOPES" == "" then known.scopes else cfg.scopes
    return { cfg with authUrl, tokenUrl, userinfoUrl, jwksUri, issuer, scopes }

/-- What the environment says of a provider. -/
def explicitConfig (env : String → String) (name : String) : OAuthProviderConfig :=
  let kind := if lowered (providerEnv env name "KIND" "oidc") == "github" then .github else .oidc
  { name
    kind
    clientId := providerEnv env name "CLIENT_ID"
    clientSecret := providerEnv env name "CLIENT_SECRET"
    authUrl := providerEnv env name "AUTH_URL"
    tokenUrl := providerEnv env name "TOKEN_URL"
    userinfoUrl := providerEnv env name "USERINFO_URL"
    emailsUrl := providerEnv env name "EMAILS_URL"
    issuer := providerEnv env name "ISSUER"
    jwksUri := providerEnv env name "JWKS_URI"
    scopes := providerEnv env name "SCOPES"
      (if kind = .github then "read:user user:email" else "openid email profile") }

/-- A provider before discovery. -/
def configured (fuel : ℕ) (env : String → String) (redirectBase name : String) :
    Option OAuthProviderConfig := do
  let cfg ← fillWellKnown fuel env name (explicitConfig env name)
  let vit := lowered (providerEnv env name "VERIFY_ID_TOKEN" "true")
  return { cfg with
    redirectUri := redirectBase ++ "/v1/auth/oauth/" ++ name ++ "/callback"
    verifyIdToken := cfg.kind = .oidc && (vit == "true" || vit == "1" || vit == "yes" || vit == "on") }

/-! ### Discovery -/

/-- What the answer to a discovery makes of a configuration. -/
def endpointsOf (cfg : OAuthProviderConfig) (r : HttpReply) : Except String OAuthProviderConfig :=
  if !succeeded r then
    .error ("discovery unreachable (" ++ (if r.ok then "HTTP " ++ toString r.status else r.error) ++ ")")
  else
    match L.object r.body with
    | none => .error "discovery document was not valid JSON"
    | some obj =>
      let filled (field key : String) := if field == "" then L.strField obj key else field
      let discIss := L.strField obj "issuer"
      .ok { cfg with
        authUrl := filled cfg.authUrl "authorization_endpoint"
        tokenUrl := filled cfg.tokenUrl "token_endpoint"
        userinfoUrl := filled cfg.userinfoUrl "userinfo_endpoint"
        jwksUri := filled cfg.jwksUri "jwks_uri"
        issuer := if discIss != "" then discIss else cfg.issuer }

def discoverEndpoints (cfg : OAuthProviderConfig) : Provider (Except String OAuthProviderConfig) := do
  let sep := if cfg.issuer.toList.getLast? == some '/' then "" else "/"
  let r ← ask (.get (cfg.issuer ++ sep ++ ".well-known/openid-configuration"))
  return endpointsOf L cfg r

/-- A discovery that fails leaves the configuration as it is. -/
def discovered (cfg : OAuthProviderConfig) : Provider OAuthProviderConfig :=
  if cfg.kind = .oidc && cfg.issuer != "" then do
    match ← discoverEndpoints L cfg with
    | .ok cfg => return cfg
    | .error _ => return cfg
  else return cfg

/-! ### The registry -/

/-- `providers_`. -/
abbrev Registry := (name : String) → Option OAuthProviderConfig

def Registry.put (self : Registry) (name : String) (cfg : OAuthProviderConfig) : Registry := fun n =>
  if n = name then some cfg else self n

/-- The end of the loop's body: a provider that is not complete is skipped. -/
def register (self : Registry) (name : String) (cfg : OAuthProviderConfig) : Registry :=
  if cfg.clientId == "" || cfg.authUrl == "" || cfg.tokenUrl == "" then self
  else if cfg.verifyIdToken && cfg.jwksUri == "" then self.put name { cfg with verifyIdToken := false }
  else self.put name cfg

/-- The loop over the list of names; `none` where a substitution has not ended. -/
def registerAll (fuel : ℕ) (env : String → String) (redirectBase : String) :
    List String → Registry → Provider (Option Registry)
  | [], self => return some self
  | raw :: rest, self =>
    let name := trim raw
    if name == "" then registerAll fuel env redirectBase rest self
    else
      match configured fuel env redirectBase name with
      | none => return none
      | some cfg => do
        let cfg ← discovered L cfg
        registerAll fuel env redirectBase rest (register self name cfg)

/-- `OAuthProvider::fromEnv`. -/
def fromEnv (fuel : ℕ) (env : String → String) (redirectBase : String) : Provider (Option Registry) :=
  registerAll L fuel env redirectBase (splitString (getEnvOrDefault env "OAUTH_PROVIDERS" "") ',')
    fun _ => none

/-! ### The issuer of a provider -/

/-- Neither the environment nor the table names an issuer. -/
def IssuerUnset (env : String → String) (name : String) : Prop :=
  providerEnv env name "ISSUER" = "" ∧
    ∀ known, wellKnownProviders (lowered name) = some known → known.issuer = ""

section Issuer
variable {L} {env : String → String} {fuel : ℕ} {redirectBase name tenant : String}
  {cfg cfg' : OAuthProviderConfig} {tr : List (Event ProviderOp.Ans)}

theorem substituteTenant_of_absent {url url' : String}
    (h : ¬ "\x7btenant\x7d".toList <:+: url.toList)
    (hsub : substituteTenant tenant fuel url = some url') : url' = url := by
  cases fuel with
  | zero => cases hsub
  | succ fuel =>
    rw [substituteTenant, indexOf_eq_none.mpr h] at hsub
    exact (Option.some.inj hsub).symm

/-- The issuers of the table are written out. -/
theorem wellKnown_issuer {known : WellKnown} (h : wellKnownProviders name = some known) :
    ¬ "\x7btenant\x7d".toList <:+: known.issuer.toList := by
  unfold wellKnownProviders at h
  split at h
  · cases h
    decide +kernel
  · cases h
    decide +kernel
  · cases h
    decide +kernel
  · cases h

theorem fill_eq_empty {field default field' : String}
    (hplain : ¬ "\x7btenant\x7d".toList <:+: default.toList)
    (h : fill fuel tenant field default = some field') :
    field' = "" ↔ field = "" ∧ default = "" := by
  unfold fill at h
  split_ifs at h with hfill
  · rw [Bool.and_eq_true, beq_iff_eq, bne_iff_ne] at hfill
    rw [substituteTenant_of_absent hplain h]
    exact ⟨fun hd => ⟨hfill.1, hd⟩, And.right⟩
  · cases h
    rw [Bool.and_eq_true, beq_iff_eq, bne_iff_ne] at hfill
    constructor
    · intro hfield
      exact ⟨hfield, by_contra fun hne => hfill ⟨hfield, hne⟩⟩
    · exact And.left

theorem configured_issuer (h : configured fuel env redirectBase name = some cfg) :
    cfg.issuer = "" ↔ IssuerUnset env name := by
  obtain ⟨filled, hfilled, hcfg⟩ := Option.bind_eq_some_iff.mp h
  have hissuer : cfg.issuer = filled.issuer := by
    cases hcfg
    rfl
  rw [hissuer, IssuerUnset]
  unfold fillWellKnown at hfilled
  cases hknown : wellKnownProviders (lowered name) with
  | none =>
    rw [hknown] at hfilled
    cases hfilled
    exact ⟨fun hempty => ⟨hempty, fun _ hk => by cases hk⟩, And.left⟩
  | some known =>
    rw [hknown] at hfilled
    simp only [bind, Option.bind_eq_some_iff] at hfilled
    obtain ⟨_, -, _, -, _, -, _, -, issuer, hfill, hfilled⟩ := hfilled
    cases hfilled
    rw [fill_eq_empty (wellKnown_issuer hknown) hfill]
    constructor
    · rintro ⟨hexplicit, hempty⟩
      refine ⟨hexplicit, fun _ hk => ?_⟩
      cases hk
      exact hempty
    · rintro ⟨hexplicit, hempty⟩
      exact ⟨hexplicit, hempty known rfl⟩

theorem endpointsOf_issuer {reply : HttpReply} (h : endpointsOf L cfg reply = .ok cfg')
    (hempty : cfg'.issuer = "") : cfg.issuer = "" := by
  unfold endpointsOf at h
  split_ifs at h
  split at h
  · cases h
  · cases h
    dsimp only at hempty
    split_ifs at hempty with hdisc
    · exact absurd hempty (bne_iff_ne.mp hdisc)
    · exact hempty

/-- Discovery replaces an issuer by another, and asks only where there is one. -/
theorem discovered_issuer (h : (discovered L cfg).Yields tr cfg') :
    cfg'.issuer = "" ↔ cfg.issuer = "" := by
  unfold discovered at h
  split_ifs at h with hdiscover
  · rw [Bool.and_eq_true, bne_iff_ne] at hdiscover
    refine ⟨fun hempty => ?_, fun hempty => absurd hempty hdiscover.2⟩
    obtain ⟨result, _, _, -, hresult, h⟩ := (Prog.yields_bind _ _ _ _).mp h
    obtain ⟨reply, _, -, hreply⟩ := (Prog.yields_perform_bind _ _ _ _).mp hresult
    obtain ⟨-, rfl⟩ := (Prog.ret_yields _ _ _).mp hreply
    cases hfound : endpointsOf L cfg reply with
    | error err =>
      rw [hfound] at h
      obtain ⟨-, rfl⟩ := (Prog.ret_yields _ _ _).mp h
      exact hempty
    | ok found =>
      rw [hfound] at h
      obtain ⟨-, rfl⟩ := (Prog.ret_yields _ _ _).mp h
      exact endpointsOf_issuer hfound hempty
  · obtain ⟨-, rfl⟩ := (Prog.ret_yields _ _ _).mp h
    exact Iff.rfl

theorem register_issuer {self : Registry} {n : String} {c : OAuthProviderConfig}
    (h : register self name cfg n = some c) :
    (n = name ∧ c.issuer = cfg.issuer) ∨ self n = some c := by
  have hput : ∀ d : OAuthProviderConfig, d.issuer = cfg.issuer →
      self.put name d n = some c → (n = name ∧ c.issuer = cfg.issuer) ∨ self n = some c := by
    intro d hd hc
    unfold Registry.put at hc
    split_ifs at hc with hn
    · cases hc
      exact .inl ⟨hn, hd⟩
    · exact .inr hc
  unfold register at h
  split_ifs at h
  · exact .inr h
  · exact hput { cfg with verifyIdToken := false } rfl h
  · exact hput cfg rfl h

theorem registerAll_issuer {names : List String} {self registry : Registry}
    (h : (registerAll L fuel env redirectBase names self).Yields tr (some registry))
    (hself : ∀ n c, self n = some c → (c.issuer = "" ↔ IssuerUnset env n)) :
    ∀ n c, registry n = some c → (c.issuer = "" ↔ IssuerUnset env n) := by
  induction names generalizing self tr with
  | nil =>
    obtain ⟨-, hregistry⟩ := (Prog.ret_yields _ _ _).mp h
    cases hregistry
    exact hself
  | cons raw rest ih =>
    unfold registerAll at h
    dsimp only at h
    split_ifs at h with hname
    · exact ih h hself
    · cases hcfg : configured fuel env redirectBase (trim raw) with
      | none =>
        rw [hcfg] at h
        cases ((Prog.ret_yields _ _ _).mp h).2
      | some cfg =>
        rw [hcfg] at h
        obtain ⟨cfg', _, _, -, hdisc, h⟩ := (Prog.yields_bind _ _ _ _).mp h
        refine ih h fun n c hc => ?_
        rcases register_issuer hc with ⟨rfl, hissuer⟩ | hbefore
        · rw [hissuer, discovered_issuer hdisc, configured_issuer hcfg]
        · exact hself n c hbefore

/-- **When a provider has no issuer.** Neither the environment nor the table names
one. -/
theorem fromEnv_issuer {self : Registry}
    (h : (fromEnv L fuel env redirectBase).Yields tr (some self)) (hget : self name = some cfg) :
    cfg.issuer = "" ↔ IssuerUnset env name :=
  registerAll_issuer h (fun _ _ hc => by cases hc) name cfg hget

end Issuer

/-! ### No issuer -/

/-- A call that accepts has had a set and a time at which the verifier does. -/
theorem attempts_accepts {verify : (jwks : String) → (clock : ℤ) → Except Failure Unit × Vouched}
    {jwksUri err : String} {out : Vouched} {left : ℕ} {force : Bool} {cache : JwksCache}
    {tr : List (Event ProviderOp.Ans)} {r : Ending}
    (h : (attempts verify jwksUri out left force err cache).Yields tr r) (hok : r.1 = .ok ()) :
    ∃ jwks clock, (verify jwks clock).1 = .ok () := by
  induction left generalizing force err cache tr with
  | zero =>
    obtain ⟨-, rfl⟩ := (Prog.ret_yields _ _ _).mp h
    cases hok
  | succ left ih =>
    rw [attempts] at h
    obtain ⟨⟨jwks, err', cache'⟩, _, _, -, -, h⟩ := (Prog.yields_bind _ _ _ _).mp h
    dsimp only at h
    split_ifs at h with hempty
    · obtain ⟨-, rfl⟩ := (Prog.ret_yields _ _ _).mp h
      cases hok
    · obtain ⟨clock, _, -, h⟩ := (Prog.yields_perform_bind _ _ _ _).mp h
      by_cases haccept : (verify jwks clock).1 = .ok ()
      · exact ⟨jwks, clock, haccept⟩
      by_cases hmiss : Misses (verify jwks clock).1
      · obtain ⟨err'', hagain⟩ := settle_misses hmiss
        rw [hagain] at h
        exact ih h
      · rw [settle_else haccept hmiss] at h
        obtain ⟨-, rfl⟩ := (Prog.ret_yields _ _ _).mp h
        exact absurd hok haccept

/-- The issuer that a token names, as it is read. -/
def IssuerOf (idToken issuer : String) : Prop :=
  ∃ h p sig hdr claims, L.Reads idToken h p sig hdr claims ∧ L.strField claims "iss" = issuer

/-- The run accepts the token. -/
def AcceptedIn (cfg : OAuthProviderConfig) (idToken nonce : String) (out : Vouched) (err : String)
    (cache : JwksCache) (tr : List (Event ProviderOp.Ans)) : Prop :=
  ∃ r, (verifyIdToken L cfg idToken nonce out err cache).Yields tr r ∧ r.1 = .ok ()

/-- The issuer check is off: a run accepts the token just as it would if the
issuer that the token names were the configured one. -/
def IgnoresIssuer (cfg : OAuthProviderConfig) (idToken nonce : String) (out : Vouched)
    (err : String) (cache : JwksCache) (tr : List (Event ProviderOp.Ans)) : Prop :=
  ∀ issuer, IssuerOf L idToken issuer →
    (AcceptedIn L cfg idToken nonce out err cache tr ↔
      AcceptedIn L { cfg with issuer } idToken nonce out err cache tr)

section NoIssuer
variable {L} {env : String → String} {fuel : ℕ} {redirectBase name : String}
  {self : Registry} {cfg : OAuthProviderConfig} {tr₀ : List (Event ProviderOp.Ans)}

/-- With its own issuer configured a token has to pass the other checks only. -/
theorem own_issuer_iff {idToken issuer clientId nonce jwksJson h p sig : String}
    {hdr claims : Members} {nowEpoch clock : ℤ} (hread : L.Reads idToken h p sig hdr claims)
    (hiss : L.strField claims "iss" = issuer) :
    L.verifiedClaims idToken issuer clientId nonce jwksJson nowEpoch clock = .ok claims ↔
      L.strField hdr "alg" = "RS256" ∧ L.SignedFrom jwksJson (L.strField hdr "kid") h p sig ∧
      L.audienceMatches claims clientId = true ∧
      ((L.numField claims "exp").bind
        (TokenLibrary.expired · (effectiveNow nowEpoch clock))) = some false ∧
      (nonce ≠ "" → L.strField claims "nonce" = nonce) := by
  rw [TokenLibrary.verifiedClaims_eq_ok, TokenLibrary.genuineClaims_eq_ok]
  constructor
  · rintro ⟨⟨h', p', sig', hdr', hgen⟩, hexp, hnonce⟩
    obtain ⟨⟨rfl, rfl, rfl⟩, rfl, -⟩ := hread.unique hgen.reads
    exact ⟨hgen.alg, hgen.signature, hgen.audience, hexp, hnonce⟩
  · rintro ⟨halg, hsigned, haud, hexp, hnonce⟩
    exact ⟨⟨h, p, sig, hdr, hread, halg, hsigned, hiss, haud⟩, hexp, hnonce⟩

/-- What is accepted names the configured issuer. -/
theorem accepted_issuer {idToken nonce issuer err : String} {out : Vouched} {cache : JwksCache}
    {tr : List (Event ProviderOp.Ans)} (h : AcceptedIn L cfg idToken nonce out err cache tr)
    (hiss : IssuerOf L idToken issuer) : issuer = cfg.issuer := by
  obtain ⟨r, hy, hok⟩ := h
  obtain ⟨_, _, _, _, claims, hread, rfl⟩ := hiss
  unfold verifyIdToken at hy
  split_ifs at hy
  · obtain ⟨-, rfl⟩ := (Prog.ret_yields _ _ _).mp hy
    cases hok
  · obtain ⟨jwks, clock, haccept⟩ := attempts_accepts hy hok
    obtain ⟨c, hc⟩ := TokenLibrary.verifyIdToken_eq_ok.mp haccept
    obtain ⟨_, _, _, _, hgen⟩ :=
      TokenLibrary.genuineClaims_eq_ok.mp (TokenLibrary.verifiedClaims_eq_ok.mp hc).1
    obtain ⟨-, -, rfl⟩ := hread.unique hgen.reads
    exact hgen.issuer

end NoIssuer

/-! ### Microsoft -/

theorem microsoft_issuerUnset {env : String → String} (h : env "OAUTH_MICROSOFT_ISSUER" = "") :
    IssuerUnset env "microsoft" := by
  refine ⟨?_, ?_⟩
  · have hvar : "OAUTH_" ++ String.ofList ("microsoft".toList.map Char.toUpper) ++ "_" ++ "ISSUER" =
        "OAUTH_MICROSOFT_ISSUER" := by decide +kernel
    rw [providerEnv, hvar, getEnvOrDefault, h]
    rfl
  · have hlower : lowered "microsoft" = "microsoft" := by decide +kernel
    intro known hknown
    rw [hlower] at hknown
    cases hknown
    rfl

/-- The environment of a bridge with Microsoft as its provider. -/
def microsoftEnv (var : String) : String :=
  match var with
  | "OAUTH_PROVIDERS" => "microsoft"
  | "OAUTH_MICROSOFT_CLIENT_ID" => "app"
  | "OAUTH_MICROSOFT_CLIENT_SECRET" => "secret"
  | _ => ""

def microsoft : OAuthProviderConfig where
  name := "microsoft"
  clientId := "app"
  clientSecret := "secret"
  authUrl := "https://login.microsoftonline.com/common/oauth2/v2.0/authorize"
  tokenUrl := "https://login.microsoftonline.com/common/oauth2/v2.0/token"
  userinfoUrl := "https://graph.microsoft.com/oidc/userinfo"
  scopes := "openid email profile"
  redirectUri := "https://files/v1/auth/oauth/microsoft/callback"
  jwksUri := "https://login.microsoftonline.com/common/discovery/v2.0/keys"

theorem microsoft_configured :
    configured 2 microsoftEnv "https://files" "microsoft" = some microsoft := by
  decide +kernel

/-- No issuer is configured, so nothing is discovered. -/
theorem microsoft_registered : (fromEnv L 2 microsoftEnv "https://files").Yields []
    (some (register (fun _ => none) "microsoft" microsoft)) := by
  have hnames : splitString (getEnvOrDefault microsoftEnv "OAUTH_PROVIDERS" "") ',' =
      ["microsoft"] := by decide +kernel
  have htrim : trim "microsoft" = "microsoft" := by decide +kernel
  rw [fromEnv, hnames]
  unfold registerAll
  dsimp only
  rw [htrim, microsoft_configured]
  exact (Prog.ret_yields _ _ _).mpr ⟨rfl, rfl⟩

theorem registered_microsoft :
    register (fun _ => none) "microsoft" microsoft "microsoft" = some microsoft := by decide

open TokenLibrary (sampleLibrary sampleToken sampleKeySet claimsUntil roundedPayload sample_reads
  sample_verified roundedPayload_isPart part_roundedPayload wholeNumber_rounded lastSecond_rounded)

/-- The cache with Microsoft's keys. -/
def microsoftKeys : JwksCache := fun uri =>
  if uri = "https://login.microsoftonline.com/common/discovery/v2.0/keys" then some sampleKeySet
  else none

end OAuthProvider
end HttpBridge
