/-
# Which requests are streaming uploads

The limit on a request's body is chosen before it is routed:
`isStreamingUploadPath` compares the two ends of the path with the upload's, the
router cuts the path at its slashes and drops empty pieces. Both accept the
uploads of which the path is its segments, each behind one slash; a doubled or a
trailing slash is the router's only (`isStreamingUploadPath_agrees_iff`).
-/
import HttpBridge.Router
import Mathlib.Data.List.Chain

namespace HttpBridge

/-- `utils.cpp`, `isStreamingUploadPath`. -/
def isStreamingUploadPath (method path : String) : Bool :=
  let kPrefix := "/v1/files/".toList
  let kSuffix := "/content".toList
  let s := path.toList
  let mid := (s.drop kPrefix.length).take (s.length - kPrefix.length - kSuffix.length)
  if method ≠ "PUT" then false
  else if s.length ≤ kPrefix.length + kSuffix.length then false
  else if !kPrefix.isPrefixOf s then false
  else if !kSuffix.isSuffixOf s then false
  else !mid.isEmpty && '/' ∉ mid

/-- No slash of the path follows another or ends it. -/
structure SingleSlashes (path : String) : Prop where
  single : path.toList.IsChain fun a b => ¬(a = '/' ∧ b = '/')
  last : path.toList.getLast? ≠ some '/'

/-! ### The scan -/

theorem isStreamingUploadPath_iff {method path : String} :
    isStreamingUploadPath method path = true ↔
      method = "PUT" ∧ ∃ mid : List Char, mid ≠ [] ∧ '/' ∉ mid ∧
        path.toList = "/v1/files/".toList ++ (mid ++ "/content".toList) := by
  unfold isStreamingUploadPath
  dsimp only
  generalize "/v1/files/".toList = kPrefix
  generalize "/content".toList = kSuffix
  have hcut : ∀ mid : List Char, ((kPrefix ++ (mid ++ kSuffix)).drop kPrefix.length).take
      ((kPrefix ++ (mid ++ kSuffix)).length - kPrefix.length - kSuffix.length) = mid := fun mid => by
    rw [List.drop_left, List.length_append, Nat.add_sub_cancel_left, List.length_append,
      Nat.add_sub_cancel, List.take_left]
  constructor
  · intro h
    split_ifs at h with hmethod hlength hprefix hsuffix
    rw [Bool.not_eq_true', Bool.not_eq_false, List.isPrefixOf_iff_prefix] at hprefix
    rw [Bool.not_eq_true', Bool.not_eq_false, List.isSuffixOf_iff_suffix] at hsuffix
    obtain ⟨t, ht⟩ := hprefix
    -- the suffix is long enough to stand behind the prefix
    rw [← ht, List.length_append] at hlength
    rw [← ht] at hsuffix
    obtain ⟨mid, rfl⟩ := List.suffix_of_suffix_length_le hsuffix (List.suffix_append kPrefix t) (by omega)
    rw [← ht, hcut, Bool.and_eq_true, Bool.not_eq_true', List.isEmpty_eq_false_iff, decide_eq_true_iff] at h
    exact ⟨not_not.mp hmethod, mid, h.1, h.2, ht.symm⟩
  · rintro ⟨rfl, mid, hmid, hslash, hpath⟩
    have hpos := List.length_pos_iff.mpr hmid
    rw [hpath, hcut, if_neg (by simp), if_neg, if_neg, if_neg]
    · rw [Bool.and_eq_true, Bool.not_eq_true', List.isEmpty_eq_false_iff, decide_eq_true_iff]
      exact ⟨hmid, hslash⟩
    · rw [Bool.not_eq_true', Bool.not_eq_false, List.isSuffixOf_iff_suffix, ← List.append_assoc]
      exact List.suffix_append _ _
    · rw [Bool.not_eq_true', Bool.not_eq_false, List.isPrefixOf_iff_prefix]
      exact List.prefix_append _ _
    · rw [List.length_append, List.length_append]
      omega

/-! ### The router -/

/-- A path without doubled and trailing slashes is its segments, each behind a
slash. -/
theorem eq_flatMap_splitChars (s : List Char)
    (hsingle : ('/' :: s).IsChain fun a b => ¬(a = '/' ∧ b = '/'))
    (hlast : ('/' :: s).getLast? ≠ some '/') :
    '/' :: s = ((splitChars '/' s).filter (· ≠ [])).flatMap ('/' :: ·) := by
  induction hn : s.length using Nat.strong_induction_on generalizing s with
  | _ n ih =>
  by_cases hslash : '/' ∈ s
  · obtain ⟨seg, rest, rfl, hseg⟩ := List.eq_append_cons_of_mem hslash
    have hne : seg ≠ [] := by
      rintro rfl
      rw [List.nil_append, List.isChain_cons_cons] at hsingle
      exact hsingle.1 ⟨rfl, rfl⟩
    have hsplit : '/' :: (seg ++ '/' :: rest) = ('/' :: seg) ++ '/' :: rest := rfl
    rw [hsplit, List.isChain_append] at hsingle
    rw [hsplit, List.getLast?_append_of_ne_nil _ (List.cons_ne_nil _ _)] at hlast
    have hrest := ih rest.length (by rw [← hn, List.length_append, List.length_cons]; omega) rest
      hsingle.2.1 hlast rfl
    rw [splitChars_append hseg, List.filter_cons_of_pos (by simpa using hne), List.flatMap_cons, ← hrest,
      hsplit]
  · have hne : s ≠ [] := by
      rintro rfl
      exact hlast rfl
    rw [splitChars_of_not_mem hslash hne, List.filter_cons_of_pos (by simpa using hne)]
    simp

section Routes

variable {method uid uid' : String} {subs : List String}

/-- What is dispatched to is not what stands in front of it. -/
theorem eq_of_ite {c : Prop} [Decidable c] {r r' r'' : Route} (h : (if c then r else r') = r'')
    (hne : r ≠ r'') : r' = r'' := by
  by_cases hc : c
  · rw [if_pos hc] at h
    exact absurd h hne
  · rwa [if_neg hc] at h

theorem rolesRoute_ne : rolesRoute method subs ≠ .putContent uid := by
  unfold rolesRoute
  split <;> (try split_ifs) <;> exact Route.noConfusion

theorem dirsRoute_ne : dirsRoute method uid' subs ≠ .putContent uid := by
  unfold dirsRoute
  split <;> (try split_ifs) <;> exact Route.noConfusion

theorem nodesRoute_ne : nodesRoute method uid' subs ≠ .putContent uid := by
  unfold nodesRoute
  split <;> (try split_ifs) <;> exact Route.noConfusion

theorem filesRoute_eq (h : filesRoute method uid' subs = .putContent uid) :
    method = "PUT" ∧ subs = ["content"] := by
  unfold filesRoute at h
  split at h
  · split_ifs at h
  · rename_i sub
    by_cases hput : sub = "content" ∧ method = "PUT"
    · exact ⟨hput.2, by rw [hput.1]⟩
    · rw [if_neg hput] at h
      split_ifs at h
  · split_ifs at h
  · cases h

theorem uidRoute_eq {resource : String} {rest : List String}
    (h : uidRoute method resource rest = .putContent uid) :
    method = "PUT" ∧ resource = "files" ∧ ∃ name, rest = [name, "content"] := by
  unfold uidRoute at h
  split at h
  · cases h
  · rename_i name subs
    dsimp only at h
    generalize (if name = "root" then "" else name) = uid' at h
    by_cases herasures : resource = "erasures"
    · rw [if_pos herasures] at h
      split_ifs at h
    rw [if_neg herasures] at h
    replace h := eq_of_ite h dirsRoute_ne
    by_cases hfiles : resource = "files"
    · rw [if_pos hfiles] at h
      obtain ⟨hmethod, rfl⟩ := filesRoute_eq h
      exact ⟨hmethod, hfiles, name, rfl⟩
    · rw [if_neg hfiles] at h
      replace h := eq_of_ite h nodesRoute_ne
      cases h

/-- The uploads are the authenticated requests with these segments. -/
theorem authedRoute_eq_putContent {segs : List String} :
    (∃ uid, authedRoute method segs = .putContent uid) ↔
      method = "PUT" ∧ ∃ v name, segs = [v, "files", name, "content"] := by
  constructor
  · rintro ⟨uid, h⟩
    unfold authedRoute at h
    dsimp only at h
    iterate 8 replace h := eq_of_ite h nofun
    replace h := eq_of_ite h rolesRoute_ne
    iterate 2 replace h := eq_of_ite h nofun
    obtain ⟨hmethod, hfiles, name, hrest⟩ := uidRoute_eq h
    refine ⟨hmethod, ?_⟩
    match segs, hfiles, hrest with
    | [v, resource, _, _], hfiles, hrest =>
      obtain ⟨rfl, hsub⟩ := List.cons.inj hrest
      obtain rfl : resource = "files" := hfiles
      exact ⟨v, _, by rw [hsub]⟩
  · rintro ⟨rfl, v, name, rfl⟩
    exact ⟨if name = "root" then "" else name, by simp [authedRoute, uidRoute, filesRoute]⟩

end Routes

/-! ### Agreement -/

/-- No route in front of authentication is an upload. -/
theorem frontRoute_ne {method path uid : String} : frontRoute method path ≠ some (.putContent uid) := by
  unfold frontRoute
  dsimp only
  split_ifs <;> exact nofun

/-- A path with the segments of an upload is none of the fixed ones. -/
theorem frontRoute_eq_none {method path v name : String}
    (hsegs : pathSegments path = [v, "files", name, "content"]) : frontRoute method path = none := by
  have hfixed : ∀ fixed, (pathSegments fixed).getD 1 "" = "auth" → path ≠ fixed := by
    rintro fixed hauth rfl
    rw [hsegs] at hauth
    exact absurd hauth (by simp)
  unfold frontRoute
  rw [if_neg (hfixed _ (by decide)), if_neg (hfixed _ (by decide)), if_neg (hfixed _ (by decide)),
    if_neg (hfixed _ (by decide)), if_neg fun h => hfixed _ (by decide) h.1, if_neg (by simp [hsegs])]

/-- A path below `/v1/` is compared with the fixed paths first. -/
theorem v1Route_eq_putContent {method path : String} :
    (∃ uid, v1Route method path = .putContent uid) ↔
      method = "PUT" ∧ ∃ v name, pathSegments path = [v, "files", name, "content"] := by
  rw [← authedRoute_eq_putContent]
  unfold v1Route
  constructor
  · rintro ⟨uid, h⟩
    cases hfront : frontRoute method path with
    | none =>
      rw [hfront] at h
      exact ⟨uid, h⟩
    | some route =>
      rw [hfront, Option.getD_some] at h
      rw [h] at hfront
      exact absurd hfront frontRoute_ne
  · rintro ⟨uid, h⟩
    obtain ⟨-, v, name, hsegs⟩ := authedRoute_eq_putContent.mp ⟨uid, h⟩
    rw [frontRoute_eq_none hsegs]
    exact ⟨uid, h⟩

/-- What the scan accepts is routed to the upload, and has no slash too many. -/
theorem of_isStreamingUploadPath {method path : String} (h : isStreamingUploadPath method path = true) :
    (∃ uid, v1Route method path = .putContent uid) ∧ SingleSlashes path := by
  obtain ⟨rfl, mid, hmid, hslash, hpath⟩ := isStreamingUploadPath_iff.mp h
  refine ⟨v1Route_eq_putContent.mpr ⟨rfl, "v1", String.ofList mid, ?_⟩, ⟨?_, ?_⟩⟩
  · apply List.map_injective_iff.mpr fun _ _ => String.toList_injective
    have hsplit : splitChars '/' ("/v1/files/".toList ++ (mid ++ "/content".toList)) =
        [[], "v1".toList, "files".toList, mid, "content".toList] := by
      show splitChars '/' ([] ++ '/' :: (['v', '1'] ++ '/' :: ("files".toList ++ '/' ::
        (mid ++ '/' :: "content".toList)))) = _
      rw [splitChars_append (by simp), splitChars_append (by simp), splitChars_append (by decide),
        splitChars_append hslash, splitChars_of_not_mem (by decide) (by decide)]
      rfl
    rw [map_toList_pathSegments, hpath, hsplit]
    simp [hmid]
  · have hchain : mid.IsChain fun a b => ¬(a = '/' ∧ b = '/') :=
      List.Pairwise.isChain (List.pairwise_of_forall_mem_list fun a ha b _ hab => hslash (hab.1 ▸ ha))
    rw [hpath, List.isChain_append, List.isChain_append]
    refine ⟨by decide, ⟨hchain, by decide, fun x hx y _ hxy => ?_⟩, fun x _ y hy hxy => ?_⟩
    · exact hslash (hxy.1 ▸ List.mem_of_mem_getLast? hx)
    · rw [List.head?_append_of_ne_nil _ hmid] at hy
      exact hslash (hxy.2 ▸ List.mem_of_mem_head? hy)
  · rw [hpath, ← List.append_assoc, List.getLast?_append_of_ne_nil _ (by decide)]
    decide

/-- An upload that is routed and has no slash too many is accepted by the scan. -/
theorem isStreamingUploadPath_of_plain {method path v name : String} (hmethod : method = "PUT")
    (hv1 : startsWith "/v1/" path = true) (hsegs : pathSegments path = [v, "files", name, "content"])
    (hsingles : SingleSlashes path) : isStreamingUploadPath method path = true := by
  obtain ⟨s, hs⟩ := List.isPrefixOf_iff_prefix.mp hv1
  have hhead : path.toList = '/' :: (['v', '1', '/'] ++ s) := hs.symm
  obtain ⟨hsingle, hlast⟩ := hsingles
  rw [hhead] at hsingle hlast
  have hjoin := eq_flatMap_splitChars _ hsingle hlast
  have hpieces : (splitChars '/' (['v', '1', '/'] ++ s)).filter (· ≠ []) =
      [v.toList, "files".toList, name.toList, "content".toList] := by
    have hmap := map_toList_pathSegments path
    rw [hsegs, hhead] at hmap
    rw [splitChars, if_pos rfl, List.filter_cons_of_neg (by simp)] at hmap
    exact hmap.symm
  rw [hpieces] at hjoin
  have hname : '/' ∉ name.toList ∧ name.toList ≠ [] :=
    @of_mem_pathSegments path name (by rw [hsegs]; simp)
  have hfirst : v.toList = ['v', '1'] := by
    have hsplit : splitChars '/' (['v', '1', '/'] ++ s) = ['v', '1'] :: splitChars '/' s :=
      splitChars_append (s := ['v', '1']) (by decide) s
    rw [hsplit, List.filter_cons_of_pos (by decide)] at hpieces
    exact (List.cons.inj hpieces).1.symm
  refine isStreamingUploadPath_iff.mpr ⟨hmethod, name.toList, hname.2, hname.1, ?_⟩
  rw [hhead, hjoin, hfirst]
  simp

/-- **The scan agrees with the router** on every path below `/v1/` except the
uploads with a doubled or a trailing slash. -/
theorem isStreamingUploadPath_agrees_iff {method path : String} (hv1 : startsWith "/v1/" path = true) :
    (isStreamingUploadPath method path = true ↔ ∃ uid, v1Route method path = .putContent uid) ↔
      (method = "PUT" → (∃ v name, pathSegments path = [v, "files", name, "content"]) → SingleSlashes path) := by
  constructor
  · rintro hagree hmethod hsegs
    exact (of_isStreamingUploadPath (hagree.mpr (v1Route_eq_putContent.mpr ⟨hmethod, hsegs⟩))).2
  · intro hsingles
    refine ⟨fun h => (of_isStreamingUploadPath h).1, fun h => ?_⟩
    obtain ⟨hmethod, v, name, hsegs⟩ := v1Route_eq_putContent.mp h
    exact isStreamingUploadPath_of_plain hmethod hv1 hsegs (hsingles hmethod ⟨v, name, hsegs⟩)

theorem upload_agrees : isStreamingUploadPath "PUT" "/v1/files/a%2Fb/content" = true ↔
    ∃ uid, v1Route "PUT" "/v1/files/a%2Fb/content" = .putContent uid :=
  (isStreamingUploadPath_agrees_iff (by decide)).mpr fun _ _ => ⟨by decide, by decide⟩

/-- An upload with a doubled slash has the limit of the requests that are
buffered. -/
theorem not_isStreamingUploadPath_agrees :
    startsWith "/v1/" "/v1//files/abc/content" = true ∧
      v1Route "PUT" "/v1//files/abc/content" = .putContent "abc" ∧
      isStreamingUploadPath "PUT" "/v1//files/abc/content" = false := by decide

end HttpBridge
