/-
# Where a sign-in token is delivered

A sign-in with a provider ends in a redirect to the address the client named at
its start, with the token behind it. So the address is admitted only if it
begins with an entry of a list, up to a boundary (`utils.cpp`,
`returnUrlAllowed`), and the token goes into its fragment, which a browser sends
to no server.

Both are string operations on an address that the client chooses. Read as a
reference, an admitted address has the origin of an entry
(`originOf_of_allowed`), and the token is in the fragment of the redirect and
nowhere else (`parse_redirectLocation`), whatever else the address contains.
-/
import HttpBridge.Net.Uri
import HttpBridge.SignIns
import HttpBridge.World

namespace HttpBridge

open Interact Net

/-! ### The list -/

/-- `utils.cpp`, `trim`. -/
def trim (s : String) : String := trimmed [' ', '\t', '\n', '\r', '\x0c', '\x0b'] s

/-- The body of the loop of `returnUrlAllowed`: whether it returns true at `pre`. -/
def prefixAdmits (pre url : String) : Bool :=
  if pre == "" then false
  else if !startsWith pre url then false
  else if url.toList.length == pre.toList.length then true
  else if pre.toList.getLast? == some '/' then true
  else
    match url.toList[pre.toList.length]? with
    | some next => next == '/' || next == '?' || next == '#'
    | none => false

/-- `utils.cpp`, `returnUrlAllowed`. -/
def returnUrlAllowed (allowlist url : String) : Bool :=
  (splitString allowlist ',').any fun p => prefixAdmits (trim p) url

/-- The entries of a list that are not blank. -/
def allowlistEntries (allowlist : String) : List String :=
  ((splitString allowlist ',').map trim).filter (· ≠ "")

/-- What an entry matches: itself, and what it is continued by at a boundary. -/
theorem exists_of_prefixAdmits {pre url : String} (h : prefixAdmits pre url = true) :
    pre ≠ "" ∧ ∃ t, url.toList = pre.toList ++ t ∧
      (t = [] ∨ pre.toList.getLast? = some '/' ∨ Uri.Ends t) := by
  unfold prefixAdmits at h
  split_ifs at h with hempty hpre hlength hslash
  all_goals
    have hprefix : pre.toList <+: url.toList := by simpa [startsWith] using hpre
    obtain ⟨t, ht⟩ := hprefix
    refine ⟨by simpa using hempty, t, ht.symm, ?_⟩
  · left
    have hlength' : url.toList.length = pre.toList.length := by simpa using hlength
    rw [← ht, List.length_append] at hlength'
    exact List.length_eq_zero_iff.mp (by omega)
  · right
    left
    simpa using hslash
  · right
    right
    rw [← ht, List.getElem?_append_right (Nat.le_refl _), Nat.sub_self, ← List.head?_eq_getElem?] at h
    cases hhead : t.head? with
    | none =>
      rw [hhead] at h
      cases h
    | some next =>
      rw [hhead] at h
      simp only [Bool.or_eq_true, beq_iff_eq] at h
      rw [Uri.Ends, hhead]
      rcases h with (h | h) | h
      · exact .inr (.inl (congrArg some h))
      · exact .inr (.inr (.inl (congrArg some h)))
      · exact .inr (.inr (.inr (congrArg some h)))

/-! ### Origins -/

/-- A string as a reference. -/
def uriOf (s : String) : Uri := Uri.parse s.toList

/-- The scheme, and the host and the port of the authority. -/
def originOf (s : String) : Option (List Char) × Option (List Char × Option (List Char)) :=
  ((uriOf s).scheme,
    (uriOf s).authority.map fun a => ((Uri.hostPort a).host, (Uri.hostPort a).port))

/-- An entry of the form `scheme://host[:port][/path]`. -/
structure OriginForm (e : String) : Prop where
  scheme : (uriOf e).scheme.isSome
  authority : ∃ a, (uriOf e).authority = some a ∧ (Uri.hostPort a).host ≠ [] ∧
    (Uri.hostPort a).userinfo = none
  query : (uriOf e).query = none
  fragment : (uriOf e).fragment = none

/-- An entry matches references with its own scheme and authority only. -/
theorem OriginForm.of_prefixAdmits {e url : String} (he : OriginForm e) (h : prefixAdmits e url = true) :
    (uriOf url).scheme = (uriOf e).scheme ∧ (uriOf url).authority = (uriOf e).authority := by
  obtain ⟨sch, hsch⟩ := Option.isSome_iff_exists.mp he.scheme
  obtain ⟨a, ha, hhost, -⟩ := he.authority
  have hne : a ≠ [] := by
    intro hempty
    rw [hempty] at hhost
    exact hhost rfl
  obtain ⟨-, t, ht, hboundary⟩ := exists_of_prefixAdmits h
  have horigin := Uri.origin_append hsch ha hne hboundary
  rw [hsch, ha, uriOf, ht]
  exact horigin

/-- **An admitted address has the origin of an entry.** -/
theorem originOf_of_allowed {allowlist url : String}
    (hform : ∀ e ∈ allowlistEntries allowlist, OriginForm e)
    (h : returnUrlAllowed allowlist url = true) :
    ∃ e ∈ allowlistEntries allowlist, originOf url = originOf e := by
  obtain ⟨p, hp, hadmits⟩ := List.any_eq_true.mp h
  have hmem : trim p ∈ allowlistEntries allowlist := by
    rw [allowlistEntries, List.mem_filter, decide_eq_true_iff]
    exact ⟨List.mem_map.mpr ⟨p, hp, rfl⟩, (exists_of_prefixAdmits hadmits).1⟩
  obtain ⟨hscheme, hauthority⟩ := (hform _ hmem).of_prefixAdmits hadmits
  refine ⟨trim p, hmem, ?_⟩
  rw [originOf, originOf, hscheme, hauthority]

/-! ### The redirect -/

def hexDigit (n : ℕ) : Char := if n < 10 then Char.ofNat (0x30 + n) else Char.ofNat (0x41 + n - 10)

/-- `utils.cpp`, `urlEncode`. -/
def urlEncode (decoded : String) : String :=
  String.ofList (decoded.toList.flatMap fun c =>
    if c.isAlphanum || c ∈ ['-', '_', '.', '~'] then [c]
    else ['%', hexDigit (c.toNat / 16 % 16), hexDigit (c.toNat % 16)])

/-- The parameters `oauthCallback` puts behind the address. -/
def tokenParameters (token : String) (expiresIn : ℤ) : String :=
  "token=" ++ urlEncode token ++ "&token_type=Bearer&expires_in=" ++ toString expiresIn

/-- `oauthCallback`: the address it redirects to. -/
def redirectLocation (returnTo token : String) (expiresIn : ℤ) : String :=
  let sep := if '#' ∉ returnTo.toList then "#" else "&"
  returnTo ++ sep ++ tokenParameters token expiresIn

/-- **The token is in the fragment.** The redirect is the address itself, with
the token behind its fragment. -/
theorem parse_redirectLocation (returnTo token : String) (expiresIn : ℤ) :
    uriOf (redirectLocation returnTo token expiresIn) =
      { uriOf returnTo with
        fragment := some ((((uriOf returnTo).fragment.map (· ++ ['&'])).getD []) ++
          (tokenParameters token expiresIn).toList) } := by
  unfold redirectLocation uriOf
  dsimp only
  by_cases h : '#' ∉ returnTo.toList
  · have hnone : (Uri.parse returnTo.toList).fragment = none := by
      simp only [Uri.parse, cut_of_not_mem h]
    rw [if_pos h, hnone, String.toList_append, String.toList_append]
    have happ := Uri.parse_append_fragment h (tokenParameters token expiresIn).toList
    simpa using happ
  · obtain ⟨b, f, hsplit, hb⟩ := List.eq_append_cons_of_mem (not_not.mp h)
    have hfragment := Uri.parse_append_fragment hb f
    rw [if_neg h, String.toList_append, String.toList_append, hsplit, hfragment, List.append_assoc,
      List.append_assoc, List.cons_append, Uri.parse_append_fragment hb]
    simp

/-- The address of a redirect, with the tokens as `sign` writes them. -/
def Body.location? (sign : Claims → String) : Body → Option String
  | .redirect returnTo token expiresIn => some (redirectLocation returnTo (sign token) expiresIn)
  | _ => none

/-- **A token goes to a listed origin, in the fragment.** If every entry of the
list has the form of an origin and the list admits `returnTo`, then it has the
origin of an entry, and a callback for a sign-in with that address redirects to
`returnTo` itself, with the token behind its fragment. -/
theorem returnUrlAllowed_delivers {allowlist returnTo : String}
    (hform : ∀ e ∈ allowlistEntries allowlist, OriginForm e)
    (hallowed : returnUrlAllowed allowlist returnTo = true) :
    (∃ e ∈ allowlistEntries allowlist, originOf returnTo = originOf e) ∧
      ∀ (cfg : Config) (req : Request) (provider code state idpError : String) (T : Trace)
        (resp : Response), (oauthCallback cfg req provider code state idpError).Yields T resp →
        (∀ st, ⟨.oauthConsume state, some st⟩ ∈ T → st.returnTo = returnTo) →
        ∀ (sign : Claims → String) (location : String), resp.body.location? sign = some location →
          ∃ token expiresIn, resp.body = .redirect returnTo token expiresIn ∧
            originOf location = originOf returnTo ∧
            uriOf location =
              { uriOf returnTo with
                fragment := some ((((uriOf returnTo).fragment.map (· ++ ['&'])).getD []) ++
                  (tokenParameters (sign token) expiresIn).toList) } := by
  refine ⟨originOf_of_allowed hform hallowed, ?_⟩
  intro cfg req provider code state idpError T resp hrun hst sign location hlocation
  cases hbody : resp.body with
  | redirect target token expiresIn =>
    obtain ⟨st, _, _, hconsumed, htarget, -⟩ := oauthCallback_redirects.of_yields hrun _ _ _ hbody
    rw [hst st hconsumed] at htarget
    rw [hbody, htarget] at hlocation
    cases hlocation
    have hparse := parse_redirectLocation returnTo (sign token) expiresIn
    refine ⟨token, expiresIn, by rw [htarget], ?_, hparse⟩
    rw [originOf, hparse, originOf]
  | _ =>
    rw [hbody] at hlocation
    cases hlocation

/-! ### An address that tries -/

/-- An address with the host of another in its query, and a fragment. -/
def tryingAddress : String := "https://app.acme.com?next=\\\\@evil.com:443/#top"

/-- A sign-in that ends at this address. -/
def tryingReply : (op : Op) → op.Ans
  | .oauthConsume _ => some ⟨"idp", "v", "n", "acme", tryingAddress⟩
  | .oauthExchangeCode .. => some ("at", "")
  | .oauthFetchIdentity .. => some ⟨"ann@acme", true⟩
  | .getUserInfoByEmail _ => { userId := "ann", authenticated := true }
  | op => Weather.fair.reply op

def tryingResponse : Response :=
  ((oauthCallback { oauthProviders := [("idp", false)] } {} "idp" "c" "st" "").run tryingReply).2

def tryingLocation : String := tryingAddress ++ "&token=t&token_type=Bearer&expires_in=" ++ toString 900

theorem tryingAddress_delivers :
    originOf tryingAddress = originOf "https://app.acme.com" ∧
      tryingResponse.body.location? (fun _ => "t") = some tryingLocation ∧
      originOf tryingLocation = originOf "https://app.acme.com" := by
  have hentries : allowlistEntries " https://app.acme.com , " = ["https://app.acme.com"] := by
    decide +kernel
  have hform : ∀ e ∈ allowlistEntries " https://app.acme.com , ", OriginForm e := by
    rw [hentries]
    intro e he
    rw [List.mem_singleton] at he
    rw [he]
    exact ⟨by decide +kernel, ⟨"app.acme.com".toList, by decide +kernel⟩, by decide +kernel,
      by decide +kernel⟩
  have hallowed : returnUrlAllowed " https://app.acme.com , " tryingAddress = true := by
    decide +kernel
  obtain ⟨⟨e, he, horigin⟩, hdelivers⟩ := returnUrlAllowed_delivers hform hallowed
  rw [hentries, List.mem_singleton] at he
  rw [he] at horigin
  have hlocation : tryingResponse.body.location? (fun _ => "t") = some tryingLocation := by
    decide +kernel
  obtain ⟨_, _, _, hlocated, _⟩ := hdelivers _ _ _ _ _ _ _ _ (Prog.yields_run tryingReply _)
    (fun st hst => congrArg OAuthState.returnTo (Option.some.inj (Prog.mem_run hst)))
    (fun _ => "t") tryingLocation hlocation
  exact ⟨horigin, hlocation, hlocated.trans horigin⟩

end HttpBridge
