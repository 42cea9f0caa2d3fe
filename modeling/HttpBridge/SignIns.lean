/-
# What a callback does

The operations of `oauthCallback`, in the order of the handler: it consumes the
state it is called with, and goes on only with what was stored under that state
(`oauthCallback_reaches`): the provider it talks to, the verifier, the nonce and
the tenant are the stored ones. The one address it looks a user up by is the one
the provider vouched for.
-/
import HttpBridge.Outcomes

namespace HttpBridge

open Interact

/-- What a login of the user with this address does in the tenant. -/
def Op.ofLogin (tenant email : String) : Op → Prop
  | .getUserInfoByEmail e => e = email
  | .publish e => e.tenant = tenant
  | .getRolesByTenant _ | .time | .random => True
  | .sessTtlFind t | .sessTtlPut t _ _ | .postSessionTtl t _ | .sessionAdd t _ _ _ => t = tenant
  | _ => False

/-- What is asked of the provider, given what was stored at the start. -/
def Op.ofProvider (provider : String) (st : OAuthState) : Op → Prop
  | .oauthExchangeCode p _ verifier => p = provider ∧ verifier = st.codeVerifier
  | .oauthVerifyIdToken p _ nonce => p = provider ∧ nonce = st.nonce
  | .oauthFetchIdentity p _ => p = provider
  | _ => False

/-- What a sign-in with the provider does. -/
def Op.ofSignIn (provider : String) (st : OAuthState) (op : Op) : Prop :=
  op.ofProvider provider st ∨ ∃ email, op.ofLogin st.tenant email

variable {cfg : Config} {req : Request} {st : OAuthState} {T : Trace}

theorem emitAuth_performs {action outcome actor tenant ip email : String} :
    (emitAuth cfg action outcome actor tenant ip).Performs T (Op.ofLogin tenant email) :=
  .ite (fun _ => .of_calls ((Prog.calls_perform _ _).mpr rfl)) fun _ => .ret

theorem recordSession_performs {tenant uid jti ip email : String} :
    (recordSession cfg tenant uid jti ip).Performs T (Op.ofLogin tenant email) := by
  have httl : (sessionTtl cfg tenant ip).Performs T (Op.ofLogin tenant email) := by
    refine .perform trivial fun now _ => .perform rfl fun cached _ => ?_
    split
    · exact .ret
    · exact .bind (.ite (fun _ => .perform rfl fun _ _ => .ret) fun _ => .ret) fun _ _ _ _ =>
        .perform rfl fun _ _ => .ret
  exact .ite (fun _ => .ret) fun _ => .perform trivial fun now _ => .bind httl fun _ ttl _ _ =>
    .perform rfl fun _ _ => .ret

theorem oauthLogin_performs {email : String} :
    (oauthLogin cfg req st email).Performs T (Op.ofLogin st.tenant email) := by
  have hmint : ∀ user, (mintJwt cfg user st.tenant ["oauth"] "" "" "" "").Performs T
      (Op.ofLogin st.tenant email) := fun user =>
    .perform trivial fun _ _ => .perform trivial fun _ _ => .perform trivial fun _ _ => .ret
  refine .perform rfl fun info _ => .ite (fun _ => .bind emitAuth_performs fun _ _ _ _ => .ret)
    fun _ => .bind emitAuth_performs fun _ recorded _ _ => .ite (fun _ => .ret) fun _ => ?_
  exact .bind (hmint _) fun _ token _ _ => .bind recordSession_performs fun _ _ _ _ => .ret

theorem verifiedIdentity_performs {provider accessToken idToken : String} {b : Bool} :
    (verifiedIdentity provider accessToken idToken st.nonce b).Performs T
      (Op.ofProvider provider st) := by
  refine .ite (fun _ => .perform rfl fun u _ => ?_) fun _ => .ite (fun _ => .ret) fun _ =>
    .perform ⟨rfl, rfl⟩ fun vid _ => ?_
  · split
    · exact .ret
    · exact .ret
  · split
    · exact .ret
    · refine .ite (fun _ => .ret) fun _ => .perform rfl fun u _ => ?_
      split
      · exact .ret
      · exact .ret

theorem oauthExchange_performs {provider code : String} {b : Bool} :
    (oauthExchange cfg req provider code st b).Performs T (Op.ofSignIn provider st) := by
  refine .perform (.inl ⟨rfl, rfl⟩) fun tokens _ => ?_
  split
  · exact .ret
  refine .bind (verifiedIdentity_performs.mono fun _ => .inl) fun tr r _ _ => ?_
  split
  · exact .ret
  · exact .ite (fun _ => .ret) fun _ => oauthLogin_performs.mono fun _ h => .inr ⟨_, h⟩

/-- **A callback works with what was stored.** It consumes its state, and what it
does after that is bound to what it found. -/
theorem oauthCallback_reaches {provider code state idpError : String} {q : Bridge Response}
    (h : (oauthCallback cfg req provider code state idpError).Reaches T q) :
    T = [] ∨ ∃ o T', T = ⟨.oauthConsume state, o⟩ :: T' ∧ (T' ≠ [] →
      ∃ st, o = some st ∧ st.provider = provider ∧ ∀ e ∈ T', e.op.ofSignIn provider st) := by
  have hret : ∀ {resp : Response} {T' : Trace}, (pure resp : Bridge Response).Reaches T' q → T' = [] :=
    fun hr => ((Prog.ret_reaches _ _ _).mp hr).1
  unfold oauthCallback at h
  split at h
  · exact .inl (hret h)
  rcases T with _ | ⟨e, T⟩
  · exact .inl rfl
  obtain ⟨o, rfl, h⟩ := h
  refine .inr ⟨o, T, rfl, fun hne => ?_⟩
  cases o with
  | none => exact absurd (hret h) hne
  | some st =>
    change (if st.provider != provider then _ else _ : Bridge Response).Reaches T q at h
    split at h
    · exact absurd (hret h) hne
    next hprovider =>
    refine ⟨st, rfl, by simpa using hprovider, ?_⟩
    split at h
    · exact absurd (hret h) hne
    split at h
    · exact absurd (hret h) hne
    · exact oauthExchange_performs.of_reaches h

/-- A callback redirects to the address of the sign-in it consumed, if at all,
with a session for the tenant of it. -/
theorem oauthCallback_redirects {provider code state idpError : String} :
    (oauthCallback cfg req provider code state idpError).During T fun resp =>
      ∀ returnTo token expiresIn, resp.body = .redirect returnTo token expiresIn →
        ∃ st user m, ⟨.oauthConsume state, some st⟩ ∈ T ∧ returnTo = st.returnTo ∧
          Granted cfg T user st.tenant ["oauth"] "" token m := by
  refine .ite (fun _ => .ret fun _ _ _ h => nomatch h) fun _ => .perform fun o ho => ?_
  split
  · exact .ret fun _ _ _ h => nomatch h
  next st =>
  refine .ite (fun _ => .ret fun _ _ _ h => nomatch h) fun _ =>
    .ite (fun _ => .ret fun _ _ _ h => nomatch h) fun _ => ?_
  split
  · exact .ret fun _ _ _ h => nomatch h
  refine .skip fun tokens => ?_
  split
  · exact .ret fun _ _ _ h => nomatch h
  refine .bind fun tr r htr hr => ?_
  split
  · obtain ⟨fields, hfields⟩ := verifiedIdentity_error tr _ htr hr _ rfl
    refine .ret fun _ _ _ h => ?_
    rw [hfields] at h
    cases h
  · refine .ite (fun _ => .ret fun _ _ _ h => nomatch h) fun _ => .skip fun info =>
      .ite (fun _ => .skip fun _ => .ret fun _ _ _ h => nomatch h) fun _ => .skip fun accepted =>
      .ite (fun _ => .ret fun _ _ _ h => nomatch h) fun _ => mintJwt_during fun c m hg =>
      .skip fun _ => .ret ?_
    intro returnTo token expiresIn h
    cases h
    exact ⟨st, _, m, ho, rfl, hg⟩

/-! ### Who mints -/

/-- Where `p` draws the identifier of a token it answers with a session, and
nowhere else. -/
def MintsIff (p : Bridge Response) : Prop :=
  ∀ tr resp, p.Yields tr resp →
    ((∃ jti, ⟨.random, jti⟩ ∈ tr) ↔ resp.body.session?.isSome = true)

theorem MintsIff.refused {resp : Response} (h : resp.body.session? = none) :
    MintsIff (pure resp) := by
  intro tr resp' hy
  obtain ⟨rfl, rfl⟩ := (Prog.ret_yields _ _ _).mp hy
  simp [h]

theorem MintsIff.bind {α : Type} {p : Bridge α} {f : α → Bridge Response}
    (hp : ∀ T, p.Performs T (· ≠ .random)) (hf : ∀ tr a, p.Yields tr a → MintsIff (f a)) :
    MintsIff (p >>= f) := by
  intro tr resp hy
  obtain ⟨a, tr₁, tr₂, rfl, h₁, h₂⟩ := (Prog.yields_bind p f tr resp).mp hy
  rw [← hf tr₁ a h₁ tr₂ resp h₂]
  constructor
  · rintro ⟨jti, hjti⟩
    rcases List.mem_append.mp hjti with h | h
    · exact absurd rfl ((hp tr₁).of_reaches h₁ _ h)
    · exact ⟨jti, h⟩
  · rintro ⟨jti, hjti⟩
    exact ⟨jti, List.mem_append_right _ hjti⟩

theorem MintsIff.perform {op : Op} {f : op.Ans → Bridge Response} (hop : op ≠ .random)
    (hf : ∀ a, MintsIff (f a)) : MintsIff (perform op >>= f) :=
  .bind (fun _ => .of_calls ((Prog.calls_perform _ _).mpr hop)) fun _ a _ => hf a

theorem MintsIff.ite {c : Prop} [Decidable c] {p q : Bridge Response} (hp : MintsIff p)
    (hq : MintsIff q) : MintsIff (if c then p else q) := by
  split
  · exact hp
  · exact hq

theorem oauthLogin_mintsIff {email : String} : MintsIff (oauthLogin cfg req st email) := by
  have hemit : ∀ {action outcome actor tenant ip} T,
      (emitAuth cfg action outcome actor tenant ip).Performs T (· ≠ .random) := fun T =>
    .ite (fun _ => .of_calls ((Prog.calls_perform _ _).mpr nofun)) fun _ => .ret
  refine .perform nofun fun info => .ite (.bind hemit fun _ _ _ => .refused rfl) <|
    .bind hemit fun _ recorded _ => .ite (.refused rfl) ?_
  intro tr resp hy
  obtain ⟨token, tr₁, tr₂, rfl, hmint, hrest⟩ := (Prog.yields_bind _ _ _ _).mp hy
  obtain ⟨_, _, _, _, _, hret⟩ := (Prog.yields_bind _ _ _ _).mp hrest
  obtain ⟨m, now, jti, rfl, -⟩ := mintJwt_yields.mp hmint
  obtain ⟨-, rfl⟩ := (Prog.ret_yields _ _ _).mp hret
  exact ⟨fun _ => rfl, fun _ => ⟨jti, by simp⟩⟩

/-- **Who mints.** A callback draws the identifier of a token if and only if it
answers with one. -/
theorem oauthCallback_mintsIff {provider code state idpError : String} :
    MintsIff (oauthCallback cfg req provider code state idpError) := by
  have hprovider : ∀ {accessToken idToken st b} T,
      (verifiedIdentity provider accessToken idToken (OAuthState.nonce st) b).Performs T
        (· ≠ .random) := by
    refine fun T => verifiedIdentity_performs.mono fun op hop he => ?_
    rw [he] at hop
    exact hop
  refine .ite (.refused rfl) <| .perform nofun fun o => ?_
  split
  · exact .refused rfl
  refine .ite (.refused rfl) <| .ite (.refused rfl) ?_
  split
  · exact .refused rfl
  refine .perform nofun fun tokens => ?_
  split
  · exact .refused rfl
  refine .bind hprovider fun tr r hr => ?_
  split
  · obtain ⟨fields, hfields⟩ := verifiedIdentity_error.of_yields hr _ rfl
    refine .refused ?_
    rw [hfields]
    rfl
  · exact .ite (.refused rfl) oauthLogin_mintsIff

end HttpBridge
