/-
# Whose word an address has

A sign-in maps an address of the provider to a user of the directory, so the
address must be one the provider vouches for. `oauthCallback` puts it together
with its flag from up to two documents: the claims of the id token, and where
these have no address the answer of the userinfo endpoint (or the GitHub list).

`Attested` says that one document both gives the address and calls it verified.
That holds of every address the callback looks up, unless an id token without an
address calls it verified and the userinfo answer gives one that it does not
(`emailAttested_iff`): the callback takes the flags together.
-/
import HttpBridge.Providers
import HttpBridge.SignIns
import HttpBridge.World

namespace HttpBridge

open Interact Net

/-! ### Attested addresses -/

section Attested

variable (V : Conversions) (kind : ProviderKind) (verifies : Bool) (D : Documents)

/-- Where the id token is read, it has no address. -/
def LacksEmail : Prop :=
  verifies = true → ∃ o, D.idToken = some o ∧ V.strField o "email" = ""

/-- A document that the callback reads gives the address and says of it that it
is verified: the id token, and where that has none the userinfo answer or an
entry of the list. -/
inductive Attested : String → Prop
  | idToken {o : Members} (hverifies : verifies = true) (ho : D.idToken = some o)
      (hflag : V.boolField o "email_verified" = true) : Attested (V.strField o "email")
  | userinfo {o : Members} (hkind : kind = .oidc) (hlacks : LacksEmail V verifies D)
      (ho : D.userinfo.body = some (.obj o)) (hflag : V.boolField o "email_verified" = true) :
      Attested (V.strField o "email")
  | entry {items : List Json} {o : Members} (hkind : kind = .github)
      (hlacks : LacksEmail V verifies D) (hitems : D.emails.body = some (.arr items))
      (ho : .obj o ∈ items) (hflag : V.boolField o "verified" = true) :
      Attested (V.strField o "email")

/-- An id token without an address that calls it verified, and a userinfo answer
with one that does not. -/
structure FlagsMixed : Prop where
  kind : kind = .oidc
  verifies : verifies = true
  idToken : ∃ o, D.idToken = some o ∧ V.strField o "email" = "" ∧
    V.boolField o "email_verified" = true
  userinfo : ∃ o, Documents.succeeded D.userinfo = true ∧ D.userinfo.body = some (.obj o) ∧
    V.strField o "email" ≠ "" ∧ V.boolField o "email_verified" = false

end Attested

variable {V : Conversions} {kind : ProviderKind} {verifies : Bool} {D : Documents}

/-! ### What is fetched -/

theorem primaryEntry_spec {items : List Json} {o : Members}
    (h : Documents.primaryEntry V items = some o) :
    Json.obj o ∈ items ∧ V.boolField o "verified" = true := by
  induction items with
  | nil => cases h
  | cons v rest ih =>
    have hrest : Documents.primaryEntry V rest = some o →
        Json.obj o ∈ v :: rest ∧ V.boolField o "verified" = true := fun h =>
      ⟨List.mem_cons_of_mem v (ih h).1, (ih h).2⟩
    cases v with
    | obj o' =>
      rw [Documents.primaryEntry] at h
      split_ifs at h with hentry
      · cases h
        exact ⟨List.mem_cons_self, (Bool.and_eq_true_iff.mp hentry).2⟩
      · exact hrest h
    | _ => exact hrest h

theorem members?_eq_some {r : HttpResult Json} {o : Members}
    (h : r.body.bind Json.members? = some o) : r.body = some (.obj o) := by
  obtain ⟨v, hv, ho⟩ := Option.bind_eq_some_iff.mp h
  cases v with
  | obj o' =>
    cases ho
    exact hv
  | _ => cases ho

theorem items?_eq_some {r : HttpResult Json} {items : List Json}
    (h : r.body.bind Json.items? = some items) : r.body = some (.arr items) := by
  obtain ⟨v, hv, hitems⟩ := Option.bind_eq_some_iff.mp h
  cases v with
  | arr items' =>
    cases hitems
    exact hv
  | _ => cases hitems

/-- What a fetch vouches for: an address of the list that is verified, or the
address and the flag of the userinfo answer. -/
theorem fetchIdentity_eq_some {v : Vouched} (h : D.fetchIdentity V kind = some v) :
    (kind = .github ∧ v.emailVerified = true ∧ ∃ items o, D.emails.body = some (.arr items) ∧
      .obj o ∈ items ∧ V.boolField o "verified" = true ∧ v.email = V.strField o "email") ∨
    (kind = .oidc ∧ ∃ o, Documents.succeeded D.userinfo = true ∧ D.userinfo.body = some (.obj o) ∧
      v.email = V.strField o "email" ∧ v.email ≠ "" ∧
      v.emailVerified = V.boolField o "email_verified") := by
  cases kind with
  | github =>
    left
    rw [Documents.fetchIdentity, if_pos rfl, Documents.fetchIdentityGithub] at h
    split at h
    · cases h
    split at h
    · cases h
    split at h
    · cases h
    split at h
    · cases h
    next items hitems =>
    split at h
    · cases h
    next o ho =>
    split at h
    · cases h
    cases h
    obtain ⟨hmem, hverified⟩ := primaryEntry_spec ho
    exact ⟨rfl, rfl, items, o, items?_eq_some hitems, hmem, hverified, rfl⟩
  | oidc =>
    right
    rw [Documents.fetchIdentity, if_neg nofun] at h
    split at h
    · cases h
    next hu =>
    split at h
    · cases h
    next o ho =>
    split at h
    · cases h
    next hempty =>
    cases h
    exact ⟨rfl, o, by simpa using hu, members?_eq_some ho, rfl, by simpa using hempty, rfl⟩

/-- A verified address that was fetched is attested. -/
theorem attested_of_fetched {v : Vouched} (h : D.fetchIdentity V kind = some v)
    (hlacks : LacksEmail V verifies D) (hverified : v.emailVerified = true) :
    Attested V kind verifies D v.email := by
  rcases fetchIdentity_eq_some h with ⟨hkind, -, items, o, hitems, ho, hflag, he⟩ |
    ⟨hkind, o, -, ho, he, -, hv⟩
  · rw [he]
    exact .entry hkind hlacks hitems ho hflag
  · rw [he]
    rw [hv] at hverified
    exact .userinfo hkind hlacks ho hverified

/-- The mix attests no address but the one the id token lacks. -/
theorem FlagsMixed.not_attested (h : FlagsMixed V kind verifies D) {email : String}
    (hne : email ≠ "") : ¬ Attested V kind verifies D email := by
  intro ha
  obtain ⟨o, ho, hempty, -⟩ := h.idToken
  cases ha with
  | idToken _ ho' _ =>
    rw [ho'] at ho
    cases ho
    exact hne hempty
  | userinfo _ _ ho' hflag =>
    obtain ⟨u, -, hu, -, hunverified⟩ := h.userinfo
    rw [ho'] at hu
    cases hu
    rw [hflag] at hunverified
    cases hunverified
  | entry hkind =>
    rw [h.kind] at hkind
    cases hkind

/-! ### The callback -/

/-- In the course of `T` the provider answers with these documents. -/
structure AnsweredBy (V : Conversions) (kind : ProviderKind) (D : Documents) (provider : String)
    (T : Trace) : Prop where
  idToken : ∀ idToken nonce a, ⟨.oauthVerifyIdToken provider idToken nonce, a⟩ ∈ T →
    a = (D.verifyIdToken V).map Vouched.identity
  identity : ∀ accessToken a, ⟨.oauthFetchIdentity provider accessToken, a⟩ ∈ T →
    a = (D.fetchIdentity V kind).map Vouched.identity

/-- A verified identity is attested, unless the flags are mixed. -/
theorem verifiedIdentity_attested {provider accessToken idToken nonce : String} {T : Trace}
    (hT : AnsweredBy V kind D provider T) (hmixed : ¬ FlagsMixed V kind verifies D) :
    (verifiedIdentity provider accessToken idToken nonce verifies).During T fun r =>
      ∀ vid, r = .ok vid → vid.emailVerified = true → Attested V kind verifies D vid.email := by
  have herror : ∀ resp, (pure (.error resp) : Bridge (Except Response VerifiedIdentity)).During T
      fun r => ∀ vid, r = .ok vid → vid.emailVerified = true →
        Attested V kind verifies D vid.email := fun resp => .ret fun _ h => nomatch h
  refine .ite (fun hv => .perform fun a ha => ?_) fun hv => .ite (fun _ => herror _) fun _ =>
    .perform fun a ha => ?_
  · have hlacks : LacksEmail V verifies D := by
      intro h
      rw [h] at hv
      cases hv
    have hfetched := hT.identity _ a ha
    split
    · exact herror _
    next u =>
    refine .ret ?_
    rintro _ ⟨⟩ hverified
    obtain ⟨v, hfetch, rfl⟩ := Option.map_eq_some_iff.mp hfetched.symm
    exact attested_of_fetched hfetch hlacks hverified
  · have hverifies : verifies = true := by simpa using hv
    have hclaims := hT.idToken _ _ a ha
    split
    · exact herror _
    next vid =>
    rw [Documents.verifyIdToken, Option.map_map] at hclaims
    obtain ⟨o, ho, rfl⟩ := Option.map_eq_some_iff.mp hclaims.symm
    have hown : V.boolField o "email_verified" = true →
        Attested V kind verifies D (V.strField o "email") := .idToken hverifies ho
    refine .ite (fun _ => .ret ?_) fun hempty => .perform fun b hb => ?_
    · rintro _ ⟨⟩ hverified
      exact hown hverified
    have hempty' : V.strField o "email" = "" := by
      simpa [Vouched.identity, Documents.idTokenClaims] using hempty
    have hfetched := hT.identity _ b hb
    split
    · refine .ret ?_
      rintro _ ⟨⟩ hverified
      exact hown hverified
    next u =>
    refine .ret ?_
    rintro _ ⟨⟩ hverified
    obtain ⟨v, hfetch, rfl⟩ := Option.map_eq_some_iff.mp hfetched.symm
    by_cases hu : v.emailVerified = true
    · exact attested_of_fetched hfetch (fun _ => ⟨o, ho, hempty'⟩) hu
    · have hflag : V.boolField o "email_verified" = true := by
        simpa [Vouched.identity, Documents.idTokenClaims, hu] using hverified
      rcases fetchIdentity_eq_some hfetch with ⟨-, hv, -⟩ | ⟨hkind, u, hok, huser, he, hne, hv⟩
      · exact absurd hv hu
      · refine absurd ⟨hkind, hverifies, ⟨o, ho, hempty', hflag⟩, u, hok, huser, he ▸ hne, ?_⟩ hmixed
        rw [← hv]
        simpa using hu

/-- The operation looks a user up by an attested address, if by any. -/
def LooksUpAttested (V : Conversions) (kind : ProviderKind) (verifies : Bool) (D : Documents)
    (op : Op) : Prop :=
  ∀ email, op = .getUserInfoByEmail email → Attested V kind verifies D email

/-- A login looks up the address it is given, and no other. -/
theorem LooksUpAttested.of_ofLogin {tenant email : String} (h : Attested V kind verifies D email)
    (op : Op) (hop : op.ofLogin tenant email) : LooksUpAttested V kind verifies D op := by
  rintro e rfl
  obtain rfl : e = email := hop
  exact h

/-- Whether the deployment reads the id tokens of the provider. -/
def Config.readsIdTokens (cfg : Config) (provider : String) : Bool :=
  (cfg.oauthProviders.lookup provider).getD false

/-- Whoever a callback looks up, it does so by an attested address, unless the
flags are mixed. -/
theorem oauthCallback_looksUp {cfg : Config} {req : Request}
    {provider code state idpError : String} {T : Trace} (hT : AnsweredBy V kind D provider T)
    (hmixed : ¬ FlagsMixed V kind (cfg.readsIdTokens provider) D) :
    (oauthCallback cfg req provider code state idpError).Performs T
      (LooksUpAttested V kind (cfg.readsIdTokens provider) D) := by
  refine .ite (fun _ => .ret) fun _ => .perform nofun fun o _ => ?_
  split
  · exact .ret
  refine .ite (fun _ => .ret) fun _ => .ite (fun _ => .ret) fun _ => ?_
  split
  · exact .ret
  next verifies hprovider =>
  have hverifies : cfg.readsIdTokens provider = verifies := by
    rw [Config.readsIdTokens, hprovider, Option.getD_some]
  rw [hverifies] at hmixed ⊢
  refine .perform nofun fun tokens _ => ?_
  split
  · exact .ret
  refine .bind ?_ fun tr r htr hr => ?_
  · refine verifiedIdentity_performs.mono fun op hop e he => ?_
    rw [he] at hop
    exact hop.elim
  · split
    · exact .ret
    next vid =>
    have hattested := verifiedIdentity_attested hT hmixed tr _ htr hr vid rfl
    exact .ite (fun _ => .ret) fun hverified =>
      oauthLogin_performs.mono (.of_ofLogin (hattested (by simpa using hverified)))

/-! ### A provider that mixes the flags -/

/-- A sign-in in which all goes well until the user is looked up. -/
def signInReply (V : Conversions) (kind : ProviderKind) (D : Documents) (provider : String) :
    (op : Op) → op.Ans
  | .oauthConsume _ => some ⟨provider, "v", "n", "acme", "/"⟩
  | .oauthExchangeCode .. => some ("at", "it")
  | .oauthVerifyIdToken .. => (D.verifyIdToken V).map Vouched.identity
  | .oauthFetchIdentity .. => (D.fetchIdentity V kind).map Vouched.identity
  | op => Weather.fair.reply op

theorem signInReply_answers {α : Type} {provider : String} (p : Bridge α) :
    AnsweredBy V kind D provider (p.run (signInReply V kind D provider)).1 where
  idToken _ _ _ h := Prog.mem_run h
  identity _ _ h := Prog.mem_run h

theorem FlagsMixed.fetched (h : FlagsMixed V kind verifies D) :
    ∃ v, D.fetchIdentity V kind = some v ∧ v.email ≠ "" := by
  obtain ⟨u, hok, hu, hne, -⟩ := h.userinfo
  refine ⟨⟨V.strField u "sub", V.strField u "email", V.boolField u "email_verified"⟩, ?_, hne⟩
  have hgithub : kind ≠ .github := h.kind ▸ nofun
  rw [Documents.fetchIdentity, if_neg hgithub, hok, hu]
  simp [Json.members?, hne]

/-- Then an address is looked up that the id token lacks. -/
theorem FlagsMixed.looksUp {cfg : Config} {provider : String}
    (h : FlagsMixed V kind (cfg.readsIdTokens provider) D) : ∃ email a, email ≠ "" ∧
      ⟨.getUserInfoByEmail email, a⟩ ∈
        ((oauthCallback cfg {} provider "c" "s" "").run (signInReply V kind D provider)).1 := by
  obtain ⟨o, ho, hempty, hflag⟩ := h.idToken
  obtain ⟨v, hv, hne⟩ := h.fetched
  have hclaims : D.verifyIdToken V = some (Documents.idTokenClaims V o) := by
    rw [Documents.verifyIdToken, ho]
    rfl
  have hprovider : cfg.oauthProviders.lookup provider = some true := by
    have hverifies := h.verifies
    rw [Config.readsIdTokens] at hverifies
    cases hlookup : cfg.oauthProviders.lookup provider with
    | none =>
      rw [hlookup] at hverifies
      cases hverifies
    | some b =>
      rw [hlookup] at hverifies
      exact congrArg some hverifies
  refine ⟨v.email, {}, hne, ?_⟩
  simp [oauthCallback, oauthExchange, verifiedIdentity, oauthLogin, perform, Prog.perform, Prog.run,
    signInReply, hprovider, hclaims, hv, hempty, hflag, Vouched.identity, Documents.idTokenClaims,
    Weather.fair]

/-- **When every address looked up is attested.** Whatever the documents of the
provider, every address a callback looks a user up by was attested by the document
that gave it, unless the flags of two documents are mixed. -/
theorem emailAttested_iff {cfg : Config} {provider : String} :
    (∀ req code state idpError T q, (oauthCallback cfg req provider code state idpError).Reaches T q →
      AnsweredBy V kind D provider T → ∀ email a, ⟨.getUserInfoByEmail email, a⟩ ∈ T →
        Attested V kind (cfg.readsIdTokens provider) D email) ↔
      ¬ FlagsMixed V kind (cfg.readsIdTokens provider) D := by
  constructor
  · intro h hmixed
    obtain ⟨email, a, hne, hlookup⟩ := hmixed.looksUp
    refine hmixed.not_attested hne ?_
    exact h _ _ _ _ _ _ (Prog.yields_run _ _) (signInReply_answers _) email a hlookup
  · intro hmixed req code state idpError T q hreach hT email a hlookup
    exact (oauthCallback_looksUp hT hmixed).of_reaches hreach _ hlookup email rfl

/-- Poco's conversions, where no number, array or object is read as a text or a
flag. -/
def Conversions.refusing : Conversions where
  text _ := none
  flag _ := none
  int64 _ := none

/-- An id token without an address, and an address the user has not confirmed. -/
def unconfirmed : Documents where
  idToken := some [("sub", .str "u1"), ("email_verified", .bool true)]
  userinfo := ⟨true, 200, some (.obj [("sub", .str "u1"), ("email", .str "boss@acme.com"),
    ("email_verified", .bool false)])⟩
  emails := ⟨false, 0, none⟩

/-- **Not every address looked up is attested.** -/
theorem not_emailAttested :
    ¬ ∀ (V : Conversions) (kind : ProviderKind) (D : Documents) (cfg : Config) (provider : String)
      req code state idpError T q, (oauthCallback cfg req provider code state idpError).Reaches T q →
      AnsweredBy V kind D provider T → ∀ email a, ⟨.getUserInfoByEmail email, a⟩ ∈ T →
        Attested V kind (cfg.readsIdTokens provider) D email := by
  intro h
  have hmixed : FlagsMixed .refusing .oidc
      (Config.readsIdTokens { oauthProviders := [("idp", true)] } "idp") unconfirmed :=
    ⟨rfl, rfl, ⟨_, rfl, by decide +kernel, by decide +kernel⟩, _, by decide +kernel, rfl,
      by decide +kernel, by decide +kernel⟩
  obtain ⟨email, a, hne, hlookup⟩ := hmixed.looksUp
  refine hmixed.not_attested hne ?_
  exact h _ _ _ _ _ _ _ _ _ _ _ (Prog.yields_run _ _) (signInReply_answers _) email a hlookup

end HttpBridge
