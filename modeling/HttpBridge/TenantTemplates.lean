/-
# The tenant in a URL template

`substituteTenant` (`oauth_provider.cpp`) is meant to put the tenant where a
template says `{tenant}`. Its loop searches from the start of the text it is
rewriting, not behind what it has put in, and so is `Net.replaceLoop`
(`substituteTenant_eq_replaceLoop`): it does what it is meant to exactly if the
tenant put in at every placeholder of the template leaves no placeholder
(`substituteTenant_iff`). For the templates of the table this comes to the tenant
not holding the placeholder itself (`substituteTenant_template`).

A tenant that holds it stops the proxy from starting: a provider of the table that
takes a template with a placeholder is never configured (`configured_ends_iff`),
and `fromEnv` does not return (`fromEnv_never_returns`).
-/
import HttpBridge.ProviderConfigs
import HttpBridge.Net.Replace

namespace HttpBridge

open Net Interact

namespace OAuthProvider

/-- What stands for the tenant in a template. -/
def placeholder : String := "\x7btenant\x7d"

/-- The template with the tenant at every placeholder of it. -/
def replaced (tenant url : String) : String :=
  String.ofList (replaceAll placeholder.toList tenant.toList url.toList)

theorem toList_placeholder : placeholder.toList = ['{', 't', 'e', 'n', 'a', 'n', 't', '}'] :=
  String.toList_ofList

theorem unbordered_placeholder : Unbordered placeholder.toList := by
  rw [toList_placeholder]
  decide +kernel

/-- Each placeholder of the template gives way to the tenant once: what stands
between them stays as it is. -/
theorem replaced_pieces (tenant url : String) : ∃ xs : List (List Char),
    (∀ x ∈ xs, ¬ placeholder.toList <:+: x) ∧ url.toList = placeholder.toList.intercalate xs ∧
      (replaced tenant url).toList = tenant.toList.intercalate xs :=
  ⟨pieces placeholder.toList 0 url.toList, not_infix_of_mem_pieces unbordered_placeholder _,
    (replaceAll_self unbordered_placeholder _).symm, String.toList_ofList⟩

/-- The position found splits a text at the first occurrence. -/
theorem splitFirst_eq_indexOf (pat : List Char) : ∀ s : List Char,
    splitFirst pat s = (indexOf pat s).map fun i => (s.take i, s.drop (i + pat.length))
  | [] => by cases pat <;> simp [splitFirst, indexOf]
  | c :: s => by
    rw [splitFirst, indexOf]
    by_cases h : pat <+: c :: s
    · simp [h, List.isPrefixOf_iff_prefix.mpr h]
    · have hb : pat.isPrefixOf (c :: s) = false :=
        Bool.eq_false_iff.mpr fun hp => h (List.isPrefixOf_iff_prefix.mp hp)
      rw [if_neg h, hb, splitFirst_eq_indexOf pat s]
      cases indexOf pat s with
      | none => rfl
      | some i => simp [Nat.succ_add]

theorem substituteTenant_eq_replaceLoop (tenant : String) : ∀ (fuel : ℕ) (url : String),
    substituteTenant tenant fuel url =
      (replaceLoop placeholder.toList tenant.toList fuel url.toList).map String.ofList
  | 0, _ => rfl
  | fuel + 1, url => by
    have hplace : "\x7btenant\x7d" = placeholder := rfl
    rw [substituteTenant, hplace, replaceLoop, splitFirst_eq_indexOf]
    cases indexOf placeholder.toList url.toList with
    | none => simp
    | some at_ =>
      dsimp only [Option.map_some]
      rw [substituteTenant_eq_replaceLoop tenant fuel, String.toList_ofList, String.length_toList]

/-- What the loop does to the list of characters it does to the text. -/
theorem substituteTenant_eq_some_iff {tenant url : String} {fuel : ℕ} :
    substituteTenant tenant fuel url = some (replaced tenant url) ↔
      replaceLoop placeholder.toList tenant.toList fuel url.toList =
        some (replaceAll placeholder.toList tenant.toList url.toList) := by
  rw [substituteTenant_eq_replaceLoop, Option.map_eq_some_iff]
  constructor
  · rintro ⟨r, hr, he⟩
    rw [hr, String.ofList_injective he]
  · exact fun h => ⟨_, h, rfl⟩

/-- **When the substitution does what it is meant to.** The tenant put in at every
placeholder leaves no placeholder. -/
theorem substituteTenant_iff (tenant url : String) :
    (∃ fuel, substituteTenant tenant fuel url = some (replaced tenant url)) ↔
      ¬ placeholder.toList <:+: (replaced tenant url).toList := by
  rw [replaced, String.toList_ofList, ← replaceLoop_iff unbordered_placeholder]
  exact exists_congr fun fuel => substituteTenant_eq_some_iff

/-- A tenant that holds the placeholder is put in again and again. -/
theorem substituteTenant_eq_none {tenant url : String}
    (htenant : placeholder.toList <:+: tenant.toList) (hurl : placeholder.toList <:+: url.toList)
    (fuel : ℕ) : substituteTenant tenant fuel url = none := by
  rw [substituteTenant_eq_replaceLoop, replaceLoop_eq_none htenant hurl]
  rfl

/-- With `{tenant}` for a tenant the template of Microsoft's authorization
endpoint is never done. -/
theorem substituteTenant_loops :
    ¬ ∃ fuel url, substituteTenant "\x7btenant\x7d" fuel
      "https://login.microsoftonline.com/\x7btenant\x7d/oauth2/v2.0/authorize" = some url := by
  rintro ⟨fuel, url, h⟩
  rw [substituteTenant_eq_none (by decide +kernel) (by decide +kernel)] at h
  cases h

/-! ### The templates of the table -/

/-- A template with one placeholder at most, and no other braces around it. -/
def Template (url : String) : Prop :=
  ¬ placeholder.toList <:+: url.toList ∨
    ∃ pre post, url.toList = pre ++ placeholder.toList ++ post ∧ '{' ∉ pre ∧ '}' ∉ post

theorem not_infix_of_no_brace {l : List Char} (h : '{' ∉ l ∨ '}' ∉ l) :
    ¬ placeholder.toList <:+: l := by
  intro hinf
  rcases h with h | h
  · exact h (hinf.subset (by simp [toList_placeholder]))
  · exact h (hinf.subset (by simp [toList_placeholder]))

/-- A literal with the placeholder at its first brace. -/
theorem template_literal {cs : List Char}
    (hplace : (cs.dropWhile (· ≠ '{')).take 8 = ['{', 't', 'e', 'n', 'a', 'n', 't', '}'])
    (hpost : '}' ∉ (cs.dropWhile (· ≠ '{')).drop 8) : Template (String.ofList cs) := by
  refine .inr ⟨cs.takeWhile (· ≠ '{'), (cs.dropWhile (· ≠ '{')).drop 8, ?_, ?_, hpost⟩
  · rw [String.toList_ofList, toList_placeholder, ← hplace, List.append_assoc, List.take_append_drop,
      List.takeWhile_append_dropWhile]
  · intro hmem
    simpa using List.mem_takeWhile_imp hmem

/-- What a tenant makes of a template holds the placeholder only if both do. -/
theorem infix_replaced_iff {url : String} (h : Template url) (tenant : String) :
    placeholder.toList <:+: (replaced tenant url).toList ↔
      placeholder.toList <:+: url.toList ∧ placeholder.toList <:+: tenant.toList := by
  rw [replaced, String.toList_ofList]
  rcases h with h | ⟨pre, post, hurl, hpre, hpost⟩
  · rw [replaceAll_of_free h]
    exact (and_iff_left_of_imp fun hurl => absurd hurl h).symm
  · have hplace : placeholder.toList = '{' :: ("tenant".toList ++ ['}']) := by
      rw [toList_placeholder, show "tenant".toList = _ from String.toList_ofList]
      rfl
    rw [hurl, replaceAll_append unbordered_placeholder (not_infix_of_no_brace (.inl hpre)),
      replaceAll_of_free (not_infix_of_no_brace (.inr hpost))]
    have hbetween : placeholder.toList <:+: pre ++ tenant.toList ++ post ↔
        placeholder.toList <:+: tenant.toList := by
      rw [hplace]
      exact infix_between_iff hpre hpost
    rw [hbetween]
    exact (and_iff_right (List.infix_append pre _ post)).symm

theorem length_pieces_le {url : String} (h : Template url) :
    (pieces placeholder.toList 0 url.toList).length ≤ 2 := by
  rcases h with h | ⟨pre, post, hurl, hpre, hpost⟩
  · rw [pieces_of_free h]
    exact Nat.le_succ 1
  · rw [hurl, pieces_append unbordered_placeholder (not_infix_of_no_brace (.inl hpre)),
      pieces_of_free (not_infix_of_no_brace (.inr hpost))]
    exact Nat.le_refl 2

/-- Two passes do for a template, unless no number does. -/
theorem substituteTenant_template {url : String} (h : Template url) {tenant : String} {fuel : ℕ}
    (hfuel : 2 ≤ fuel)
    (hno : ¬ (placeholder.toList <:+: url.toList ∧ placeholder.toList <:+: tenant.toList)) :
    substituteTenant tenant fuel url = some (replaced tenant url) := by
  have hfree :
      ¬ placeholder.toList <:+: replaceAll placeholder.toList tenant.toList url.toList := by
    rw [← infix_replaced_iff h tenant, replaced, String.toList_ofList] at hno
    exact hno
  have hpasses := (length_pieces_le h).trans hfuel
  rw [substituteTenant_eq_some_iff]
  exact replaceLoop_eq unbordered_placeholder url.toList [] fuel hfree hpasses

/-- The fields that are filled from the table, each with its template. -/
def templates (known : WellKnown) (cfg : OAuthProviderConfig) : List (String × String) :=
  [(cfg.authUrl, known.authUrl), (cfg.tokenUrl, known.tokenUrl),
    (cfg.userinfoUrl, known.userinfoUrl), (cfg.jwksUri, known.jwksUri), (cfg.issuer, known.issuer)]

theorem template_of_wellKnown {name : String} {known : WellKnown} {cfg : OAuthProviderConfig}
    (h : wellKnownProviders name = some known) : ∀ t ∈ templates known cfg, Template t.2 := by
  have plain : ∀ {url : String}, '{' ∉ url.toList → Template url := fun hno =>
    .inl (not_infix_of_no_brace (.inl hno))
  simp only [templates, List.forall_mem_cons, List.not_mem_nil, false_implies, implies_true,
    and_true]
  unfold wellKnownProviders at h
  split at h
  · cases h
    refine ⟨plain ?_, plain ?_, plain ?_, plain ?_, plain ?_⟩ <;> exact not_mem_literal (by decide)
  · cases h
    exact ⟨template_literal rfl (by decide), template_literal rfl (by decide),
      plain (not_mem_literal (by decide)), template_literal rfl (by decide),
      plain (not_mem_literal (by decide))⟩
  · cases h
    refine ⟨plain ?_, plain ?_, plain ?_, plain ?_, plain ?_⟩ <;> exact not_mem_literal (by decide)
  · cases h

/-- The placeholder is put in for itself. -/
def Loops (tenant : String) (t : String × String) : Prop :=
  t.1 = "" ∧ placeholder.toList <:+: t.2.toList ∧ placeholder.toList <:+: tenant.toList

theorem fill_of_loops {tenant : String} {t : String × String} (h : Loops tenant t) (fuel : ℕ) :
    fill fuel tenant t.1 t.2 = none := by
  obtain ⟨hfield, hurl, htenant⟩ := h
  have hdefault : t.2 ≠ "" := by
    intro hempty
    rw [hempty] at hurl
    exact absurd hurl (by simp [toList_placeholder])
  rw [fill, hfield, if_pos (by simpa using hdefault), substituteTenant_eq_none htenant hurl]

theorem fill_isSome {tenant : String} {t : String × String} (h : Template t.2)
    (hno : ¬ Loops tenant t) {fuel : ℕ} (hfuel : 2 ≤ fuel) :
    (fill fuel tenant t.1 t.2).isSome = true := by
  unfold fill
  split_ifs with hfill
  · rw [Bool.and_eq_true, beq_iff_eq] at hfill
    rw [substituteTenant_template h hfuel fun hboth => hno ⟨hfill.1, hboth⟩]
    rfl
  · rfl

theorem fillWellKnown_isSome_iff {fuel : ℕ} {env : String → String} {name : String}
    {cfg : OAuthProviderConfig} {known : WellKnown}
    (hknown : wellKnownProviders (lowered name) = some known) :
    (fillWellKnown fuel env name cfg).isSome = true ↔ ∀ t ∈ templates known cfg,
      (fill fuel (providerEnv env name "TENANT" "common") t.1 t.2).isSome = true := by
  unfold fillWellKnown
  rw [hknown]
  simp only [bind, templates, List.forall_mem_cons, List.not_mem_nil, false_implies, implies_true,
    and_true, Option.isSome_iff_exists, Option.bind_eq_some_iff]
  constructor
  · rintro ⟨_, auth, hauth, token, htoken, userinfo, huserinfo, jwks, hjwks, issuer, hissuer, -⟩
    exact ⟨⟨auth, hauth⟩, ⟨token, htoken⟩, ⟨userinfo, huserinfo⟩, ⟨jwks, hjwks⟩, ⟨issuer, hissuer⟩⟩
  · rintro ⟨⟨auth, hauth⟩, ⟨token, htoken⟩, ⟨userinfo, huserinfo⟩, ⟨jwks, hjwks⟩, issuer, hissuer⟩
    exact ⟨_, auth, hauth, token, htoken, userinfo, huserinfo, jwks, hjwks, issuer, hissuer, rfl⟩

/-- A provider of the table one of whose blank fields takes a template in which
the placeholder is put in for itself. -/
def Stuck (env : String → String) (name : String) : Prop :=
  ∃ known, wellKnownProviders (lowered name) = some known ∧
    ∃ t ∈ templates known (explicitConfig env name),
      Loops (providerEnv env name "TENANT" "common") t

theorem configured_isSome {fuel : ℕ} {env : String → String} {redirectBase name : String} :
    (configured fuel env redirectBase name).isSome =
      (fillWellKnown fuel env name (explicitConfig env name)).isSome := by
  unfold configured
  cases fillWellKnown fuel env name (explicitConfig env name) <;> rfl

/-- **When a provider is configured.** In two passes for each template, or never. -/
theorem configured_ends_iff (env : String → String) (redirectBase name : String) :
    (∃ fuel, (configured fuel env redirectBase name).isSome = true) ↔ ¬ Stuck env name := by
  simp only [configured_isSome]
  constructor
  · rintro ⟨fuel, h⟩ ⟨known, hknown, t, ht, hloops⟩
    have hfill := (fillWellKnown_isSome_iff hknown).mp h t ht
    rw [fill_of_loops hloops] at hfill
    cases hfill
  · intro hno
    refine ⟨2, ?_⟩
    cases hknown : wellKnownProviders (lowered name) with
    | none =>
      rw [fillWellKnown, hknown]
      rfl
    | some known =>
      rw [fillWellKnown_isSome_iff hknown]
      intro t ht
      exact fill_isSome (template_of_wellKnown hknown t ht)
        (fun hloops => hno ⟨known, hknown, t, ht, hloops⟩) (Nat.le_refl 2)

theorem registerAll_of_stuck {Key : Type} {L : TokenLibrary Key} {env : String → String}
    {redirectBase : String} {fuel : ℕ} {r : Option Registry} : ∀ {names : List String}
    {self : Registry} {tr : List (Event ProviderOp.Ans)}, (∃ raw ∈ names, Stuck env (trim raw)) →
      (registerAll L fuel env redirectBase names self).Yields tr r → r = none := by
  intro names
  induction names with
  | nil =>
    rintro self tr ⟨raw, hraw, -⟩
    cases hraw
  | cons raw rest ih =>
    rintro self tr ⟨raw', hraw', hstuck⟩ hr
    have hrest : raw' ≠ raw → ∃ raw ∈ rest, Stuck env (trim raw) := fun hne =>
      ⟨raw', (List.mem_cons.mp hraw').resolve_left hne, hstuck⟩
    unfold registerAll at hr
    dsimp only at hr
    split_ifs at hr with hname
    · -- an empty name is no provider of the table
      refine ih (hrest ?_) hr
      rintro rfl
      obtain ⟨known, hknown, -⟩ := hstuck
      rw [beq_iff_eq.mp hname] at hknown
      cases hknown
    · cases hcfg : configured fuel env redirectBase (trim raw) with
      | none =>
        rw [hcfg] at hr
        exact ((Prog.ret_yields _ _ _).mp hr).2
      | some cfg =>
        rw [hcfg] at hr
        obtain ⟨cfg', _, _, -, -, hr⟩ := (Prog.yields_bind _ _ _ _).mp hr
        refine ih (hrest ?_) hr
        rintro rfl
        have hsome : (configured fuel env redirectBase (trim raw')).isSome = true := by
          rw [hcfg]
          rfl
        exact (configured_ends_iff env redirectBase _).mp ⟨fuel, hsome⟩ hstuck

/-- **The proxy does not start.** Where a listed provider is stuck, `fromEnv` does
not return, whatever the others are and however many passes are allowed. -/
theorem fromEnv_never_returns {Key : Type} (L : TokenLibrary Key) {env : String → String}
    {redirectBase : String} (h : ∃ raw ∈ splitString (getEnvOrDefault env "OAUTH_PROVIDERS" "") ',',
      Stuck env (trim raw)) (fuel : ℕ) (tr : List (Event ProviderOp.Ans)) (self : Registry) :
    ¬ (fromEnv L fuel env redirectBase).Yields tr (some self) := by
  intro hr
  cases registerAll_of_stuck h hr

end OAuthProvider

end HttpBridge
