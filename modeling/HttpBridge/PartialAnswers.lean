/-
# Partial answers

A 206 names the bytes it carries, as `bytes a-b/n` or `bytes a-b/*`. The plan of
an answer comes from the total that the core reports on its first frame, or,
with a core that windows but reports none, from the length of its window; and a
window may come without a length as well.

With a total, and with a window of which the length is known, an answer is well
formed: what the plan names is what is declared, and no more is written
(`plan_names`). With neither, the code answers with a first byte and an empty last
one (`partial_answers_iff`).
-/
import HttpBridge.RangeArithmetic

namespace HttpBridge
namespace Ranges

open Signed

/-! ### Well-formed answers -/

/-- The content range of the bytes from `a` to `b`, of a total that may be unknown. -/
def contentRangeText (a b : ℕ) : Option ℕ → String
  | some n => "bytes " ++ toString a ++ "-" ++ toString b ++ "/" ++ toString n
  | none => "bytes " ++ toString a ++ "-" ++ toString b ++ "/*"

theorem toList_contentRangeText (a b : ℕ) (total : Option ℕ) :
    ∃ s, (contentRangeText a b total).toList =
      "bytes ".toList ++ (Nat.toDigits 10 a ++ '-' :: (Nat.toDigits 10 b ++ '/' :: s)) := by
  cases total with
  | some n => exact ⟨Nat.toDigits 10 n, by simp [contentRangeText]⟩
  | none => exact ⟨['*'], by simp [contentRangeText]⟩

/-- An answer names a run of bytes, and declares and carries no other number of
them. -/
def WellFormedPartial (head : Head) (body : Bytes) : Prop :=
  ∃ (a b : ℕ) (total : Option ℕ), a ≤ b ∧ (∀ n ∈ total, b < n) ∧
    head.contentRange = contentRangeText a b total ∧
    (∀ l ∈ head.contentLength, l = b - a + 1) ∧ (body.length : ℤ) ≤ b - a + 1

theorem isDigit_of_mem {n : ℕ} {c : Char} (hc : c ∈ Nat.toDigits 10 n) : c.isDigit = true :=
  Nat.isDigit_of_mem_toDigits (by decide) (by decide) hc

theorem toList_toString (n : ℕ) : (toString n).toList = Nat.toDigits 10 n := by simp

/-- What follows the digits of a number is read off the text. -/
theorem digits_append_inj {a b : ℕ} {s t : List Char} (hs : ∀ c ∈ s.head?, c.isDigit = false)
    (ht : ∀ c ∈ t.head?, c.isDigit = false)
    (h : Nat.toDigits 10 a ++ s = Nat.toDigits 10 b ++ t) : s = t := by
  have hstop : ∀ u : List Char, (∀ c ∈ u.head?, c.isDigit = false) → u.dropWhile Char.isDigit = u := by
    intro u hu
    cases u with
    | nil => rfl
    | cons c u => exact List.dropWhile_cons_of_neg (by simp [hu c rfl])
  have hdrop := congrArg (List.dropWhile Char.isDigit) h
  rw [List.dropWhile_append_of_pos fun c => isDigit_of_mem,
    List.dropWhile_append_of_pos fun c => isDigit_of_mem, hstop s hs, hstop t ht] at hdrop
  exact hdrop

/-- A range without a last byte is not one of the two forms. -/
theorem unnamed_ne_contentRangeText {rs : ℤ} (hrs : 0 ≤ rs) (a b : ℕ) (total : Option ℕ) :
    "bytes " ++ toString rs ++ "-" ++ "" ++ "/*" ≠ contentRangeText a b total := by
  obtain ⟨r, rfl⟩ := Int.eq_ofNat_of_zero_le hrs
  intro h
  obtain ⟨s, hs⟩ := toList_contentRangeText a b total
  have hcast : toString (r : ℤ) = toString r := rfl
  rw [← h, hcast] at hs
  simp only [String.toList_append, List.append_assoc, toList_toString] at hs
  have hrest := digits_append_inj (by simp) (by simp) (List.append_cancel_left hs)
  -- the last byte would have to begin with the slash
  cases hb : Nat.toDigits 10 b with
  | nil => exact absurd hb Nat.toDigits_ne_nil
  | cons d ds =>
    have hd : d.isDigit = true := isDigit_of_mem (by rw [hb]; exact List.mem_cons_self)
    rw [hb] at hrest
    obtain ⟨hslash, -⟩ : '/' = d ∧ ['*'] = ds ++ '/' :: s := by
      simpa using hrest
    rw [← hslash] at hd
    exact absurd hd (by decide)

/-! ### What is planned -/

section Plan

variable {rs re : ℤ} {f : GetFileResponse}

/-- The plan for a window without a total, of which the length is known. -/
theorem plan_window_names (hrs : 0 ≤ rs) (htotal : f.totalSize ≤ 0) (hranged : f.ranged = true)
    (hpos : 0 < f.rangeLength) (hfits : rs + f.rangeLength < 2 ^ 63) :
    ∃ a b : ℕ, a ≤ b ∧ (plan true rs re f).contentRange = contentRangeText a b none ∧
      (plan true rs re f).length = b - a + 1 := by
  obtain ⟨a, rfl⟩ := Int.eq_ofNat_of_zero_le hrs
  obtain ⟨b, hb⟩ := Int.eq_ofNat_of_zero_le (show 0 ≤ a + f.rangeLength - 1 by omega)
  have holder : (true && decide (f.totalSize ≤ 0) && f.ranged) = true := by simp [htotal, hranged]
  have hlong : toLong (a + f.rangeLength - 1) = a + f.rangeLength - 1 :=
    toLong_eq (by omega) (by omega)
  unfold plan
  rw [if_pos holder]
  refine ⟨a, b, by omega, ?_, ?_⟩
  · simp only [if_pos hpos, hlong]
    rw [hb]
    rfl
  · rw [if_pos hpos]
    dsimp only
    omega

/-- The plan for a total. -/
theorem planRange_names (hrs : 0 ≤ rs ∧ rs < 2 ^ 63) (hopen : re < 0 ∨ rs ≤ re) {total : ℤ}
    (htotal : total < 2 ^ 63) (hstatus : (planRange true rs re total).status = 206) :
    ∃ a b n : ℕ, a ≤ b ∧ b < n ∧
      (planRange true rs re total).contentRange = contentRangeText a b (some n) ∧
      (planRange true rs re total).length = b - a + 1 := by
  obtain ⟨a, rfl⟩ := Int.eq_ofNat_of_zero_le hrs.1
  unfold planRange at hstatus ⊢
  by_cases hwhole : (!true || decide (total ≤ 0)) = true
  · rw [if_pos hwhole] at hstatus
    exact absurd hstatus (of_decide_eq_false rfl)
  rw [if_neg hwhole] at hstatus ⊢
  by_cases hpast : total ≤ a
  · rw [if_pos hpast] at hstatus
    exact absurd hstatus (of_decide_eq_false rfl)
  rw [if_neg hpast]
  have hlast : a ≤ (if 0 ≤ re then min re (total - 1) else total - 1) ∧
      (if 0 ≤ re then min re (total - 1) else total - 1) < total := by
    split_ifs <;> omega
  dsimp only
  generalize (if 0 ≤ re then min re (total - 1) else total - 1) = last at hlast ⊢
  obtain ⟨b, rfl⟩ := Int.eq_ofNat_of_zero_le (show 0 ≤ last by omega)
  obtain ⟨n, rfl⟩ := Int.eq_ofNat_of_zero_le (show 0 ≤ total by omega)
  exact ⟨a, b, n, by omega, by omega, rfl, toLong_eq (by omega) (by omega)⟩

/-- A plan for a partial answer names the bytes that it declares, where a window
without a total comes with its length. -/
theorem plan_names (hrs : 0 ≤ rs ∧ rs < 2 ^ 63) (hopen : re < 0 ∨ rs ≤ re) (hf : f.Typed)
    (hwindow : f.totalSize ≤ 0 → f.ranged = true → 0 < f.rangeLength ∧ rs + f.rangeLength < 2 ^ 63)
    (hstatus : (plan true rs re f).status = 206) :
    ∃ (a b : ℕ) (total : Option ℕ), a ≤ b ∧ (∀ n ∈ total, b < n) ∧
      (plan true rs re f).contentRange = contentRangeText a b total ∧
      (plan true rs re f).length = b - a + 1 := by
  unfold plan at hstatus ⊢
  by_cases holder : (true && decide (f.totalSize ≤ 0) && f.ranged) = true
  · have hcore : f.totalSize ≤ 0 ∧ f.ranged = true := by simpa using holder
    obtain ⟨hpos, hfits⟩ := hwindow hcore.1 hcore.2
    obtain ⟨a, b, hle, hrange, hlength⟩ :=
      @plan_window_names rs re f hrs.1 hcore.1 hcore.2 hpos hfits
    exact ⟨a, b, none, hle, by simp, hrange, hlength⟩
  · rw [if_neg holder] at hstatus ⊢
    obtain ⟨a, b, n, hle, hlt, hrange, hlength⟩ :=
      planRange_names hrs hopen (fits_long.mp hf.totalSize).2 hstatus
    refine ⟨a, b, some n, hle, fun m hm => ?_, hrange, hlength⟩
    rwa [← Option.mem_some.mp hm]

/-- A window that comes with neither a total nor a length is answered without a
last byte. -/
theorem plan_unnamed (htotal : f.totalSize ≤ 0) (hranged : f.ranged = true) (hlength : f.rangeLength ≤ 0) :
    plan true rs re f =
      { status := 206
        start := rs
        length := -1
        contentRange := "bytes " ++ toString rs ++ "-" ++ "" ++ "/*" } := by
  have holder : (true && decide (f.totalSize ≤ 0) && f.ranged) = true := by simp [htotal, hranged]
  unfold plan
  rw [if_pos holder]
  simp only [not_lt.mpr hlength, ↓reduceIte]
  rfl

theorem plan_whole : (plan false rs re f).status = 200 := rfl

end Plan

/-! ### What is answered -/

theorem onChunk_head (s : Sink) (chunk : Bytes) : (onChunk s chunk).1.head = s.head := by
  unfold onChunk
  dsimp only
  split_ifs <;> rfl

/-- Once a head was sent, no frame changes it. -/
theorem readLoop_head (heard : Sink → GetFileResponse → Sink × Bool) (frames : List GetFileResponse)
    (s : Sink) : (readLoop heard onChunk false s frames).1.head = s.head := by
  induction frames generalizing s with
  | nil => rfl
  | cons f fs ih =>
    rw [readLoop]
    simp only [Bool.false_eq_true, ↓reduceIte, Bool.not_true]
    by_cases hsuccess : f.success = true
    · rw [if_neg (by simp [hsuccess])]
      by_cases hempty : f.data.isEmpty = true
      · rw [if_pos hempty]
        exact ih s
      rw [if_neg hempty]
      by_cases hmore : (onChunk s f.data).2 = true
      · rw [if_neg (by simp [hmore]), ih, onChunk_head]
      · rw [if_pos (by simpa using hmore), onChunk_head]
    · rw [if_pos (by simpa using hsuccess)]

section Answer

variable {playbackMime rangeHeader : String} {core : GetFileRequest → Stream}

/-- The plan of the answer, made from the first frame. -/
def planFrom (rangeHeader : String) (f : GetFileResponse) : RangePlan :=
  plan (usesRange (parseRange rangeHeader)) ((parseRange rangeHeader).getD (-1, -1)).1
    ((parseRange rangeHeader).getD (-1, -1)).2 f

theorem heardBy_eq (s : Sink) (f : GetFileResponse) :
    heardBy playbackMime rangeHeader s f =
      begin (contentType playbackMime) ((parseRange rangeHeader).getD (-1, -1)).1 s f
        (planFrom rangeHeader f) := rfl

section Begun

variable {f : GetFileResponse} {rest : List GetFileResponse}
  (hframes : (core (fileRequest (parseRange rangeHeader))).frames = f :: rest) (hsuccess : f.success = true)
include hframes hsuccess

/-- A refusal is answered with 416. -/
theorem getContent_refused (hstatus : (planFrom rangeHeader f).status = 416) :
    ∃ head body, getContent playbackMime rangeHeader core = .content head body ∧ head.status = 416 := by
  have hhead : (sinkOf playbackMime rangeHeader core).head =
      some { status := 416, contentRange := (planFrom rangeHeader f).contentRange, contentLength := some 0 } := by
    rw [sinkOf, streamFileDownload_fst, hframes, readLoop, hsuccess, heardBy_eq, begin, if_pos hstatus]
    rfl
  exact ⟨_, _, getContent_of_head hhead, rfl⟩

/-- Any other plan is what the answer is headed by, and the rest of the stream is
read behind it. -/
theorem getContent_begun (hstatus : (planFrom rangeHeader f).status ≠ 416) :
    ∃ body, getContent playbackMime rangeHeader core =
        .content (headOf (planFrom rangeHeader f) (contentType playbackMime)) body ∧
      ((∀ f' ∈ f :: rest, f'.success = true) → 0 < (planFrom rangeHeader f).length →
        0 ≤ ((parseRange rangeHeader).getD (-1, -1)).1 →
        (body.length : ℤ) ≤ (planFrom rangeHeader f).length) := by
  have hheard := @heardBy_eq playbackMime rangeHeader {} f
  rw [begin, if_neg hstatus] at hheard
  have hsink : sinkOf playbackMime rangeHeader core =
      (readLoop (heardBy playbackMime rangeHeader) onChunk false (heardBy playbackMime rangeHeader {} f).1
        (f :: rest)).1 := by
    rw [sinkOf, streamFileDownload_fst, hframes, readLoop_first rest hsuccess (by rw [hheard])]
  have hhead : (sinkOf playbackMime rangeHeader core).head =
      some (headOf (planFrom rangeHeader f) (contentType playbackMime)) := by
    rw [hsink, readLoop_head, hheard]
    rfl
  refine ⟨_, getContent_of_head hhead, fun hall hlength hstart => ?_⟩
  have hskip : 0 ≤ (heardBy playbackMime rangeHeader {} f).1.skip := by
    rw [hheard]
    dsimp only
    split_ifs
    · exact hstart
    · exact le_refl 0
  have hremaining : (heardBy playbackMime rangeHeader {} f).1.remaining = (planFrom rangeHeader f).length := by
    rw [hheard]
  have hwritten := (readLoop_written (heardBy playbackMime rangeHeader) (f :: rest) hall
    (heardBy playbackMime rangeHeader {} f).1 hskip (by rw [hremaining]; exact hlength)).1
  have hnone : (heardBy playbackMime rangeHeader {} f).1.written = [] := by rw [hheard]
  rw [hsink, hwritten, hnone, List.nil_append, List.length_take, hremaining]
  omega

end Begun

/-- A core that windows without a total says how long its window is. -/
def WindowNamed (rangeHeader : String) (core : GetFileRequest → Stream) : Prop :=
  ∀ rs re f rest, parseRange rangeHeader = some (rs, re) → usesRange (some (rs, re)) = true →
    (core (fileRequest (some (rs, re)))).frames = f :: rest → f.totalSize ≤ 0 → f.ranged = true →
      0 < f.rangeLength ∧ rs + f.rangeLength < 2 ^ 63

theorem getContent_of_nil (hframes : (core (fileRequest (parseRange rangeHeader))).frames = []) {head : Head}
    {body : Bytes} (h : getContent playbackMime rangeHeader core = .content head body) :
    head.status = 200 := by
  have hnone : (sinkOf playbackMime rangeHeader core).head = none := by
    rw [sinkOf, streamFileDownload_fst, hframes]
    rfl
  unfold getContent at h
  dsimp only at h
  split at h
  · cases h
  · cases h
    rfl
  · rename_i head' hhead
    exact absurd (hnone.symm.trans hhead) (by simp)

/-- A plan by range is made for a range that the header names. -/
theorem planFrom_eq {f : GetFileResponse} (h : (planFrom rangeHeader f).status = 206) :
    ∃ rs re, parseRange rangeHeader = some (rs, re) ∧ usesRange (some (rs, re)) = true ∧
      planFrom rangeHeader f = plan true rs re f := by
  rcases hparse : parseRange rangeHeader with - | ⟨rs, re⟩
  · rw [planFrom, hparse] at h
    exact absurd h (of_decide_eq_false rfl)
  have huses : usesRange (some (rs, re)) = true := by
    by_contra hne
    rw [planFrom, hparse, Bool.eq_false_iff.mpr hne, plan_whole] at h
    exact absurd h (by decide)
  refine ⟨rs, re, rfl, huses, ?_⟩
  rw [planFrom, hparse, huses]
  rfl

/-- What is answered by range is headed by a plan by range. -/
theorem planFrom_of_partial {f : GetFileResponse} {rest : List GetFileResponse}
    (hframes : (core (fileRequest (parseRange rangeHeader))).frames = f :: rest)
    (hall : ∀ f' ∈ f :: rest, f'.success = true) {head : Head} {body : Bytes}
    (h : getContent playbackMime rangeHeader core = .content head body) (hstatus : head.status = 206) :
    (planFrom rangeHeader f).status = 206 ∧
      head = headOf (planFrom rangeHeader f) (contentType playbackMime) ∧
      (0 < (planFrom rangeHeader f).length → 0 ≤ ((parseRange rangeHeader).getD (-1, -1)).1 →
        (body.length : ℤ) ≤ (planFrom rangeHeader f).length) := by
  have hfirst : f.success = true := hall f List.mem_cons_self
  by_cases hrefused : (planFrom rangeHeader f).status = 416
  · obtain ⟨head', body', hanswer, hstatus'⟩ :=
      @getContent_refused playbackMime rangeHeader core f rest hframes hfirst hrefused
    rw [hanswer] at h
    cases h
    rw [hstatus'] at hstatus
    exact absurd hstatus (by decide)
  obtain ⟨body', hanswer, hbody⟩ :=
    @getContent_begun playbackMime rangeHeader core f rest hframes hfirst hrefused
  rw [hanswer] at h
  cases h
  refine ⟨?_, rfl, hbody hall⟩
  by_contra hne
  have hwhole : (headOf (planFrom rangeHeader f) (contentType playbackMime)).status = 200 := if_neg hne
  rw [hwhole] at hstatus
  exact absurd hstatus (by decide)

/-- An answer by range to a core that names its windows is well formed. -/
theorem wellFormed_of_windowNamed (hcore : ∀ rq, ∀ f ∈ (core rq).frames, f.Typed)
    (hsuccess : ∀ rq, ∀ f ∈ (core rq).frames, f.success = true) (hnamed : WindowNamed rangeHeader core)
    {head : Head} {body : Bytes} (h : getContent playbackMime rangeHeader core = .content head body)
    (hstatus : head.status = 206) : WellFormedPartial head body := by
  cases hframes : (core (fileRequest (parseRange rangeHeader))).frames with
  | nil =>
    rw [getContent_of_nil hframes h] at hstatus
    exact absurd hstatus (by decide)
  | cons f rest =>
    have hall : ∀ f' ∈ f :: rest, f'.success = true := by
      rw [← hframes]
      exact hsuccess _
    have hf : f.Typed := hcore _ f (by rw [hframes]; exact List.mem_cons_self)
    obtain ⟨hplan, rfl, hbody⟩ := planFrom_of_partial hframes hall h hstatus
    obtain ⟨rs, re, hparse, huses, hfrom⟩ := planFrom_eq hplan
    have hstart := parseRange_start hparse
    have hnames := plan_names hstart (open_of_usesRange huses) hf
      (hnamed rs re f rest hparse huses (by rw [← hparse, hframes])) (by rw [← hfrom, hplan])
    rw [← hfrom] at hnames
    obtain ⟨a, b, total, hle, htotal, hrange, hlength⟩ := hnames
    refine ⟨a, b, total, hle, htotal, hrange, fun l hl => ?_, ?_⟩
    · have hdeclared : (headOf (planFrom rangeHeader f) (contentType playbackMime)).contentLength =
          some (planFrom rangeHeader f).length := if_pos (by omega)
      rw [hdeclared, Option.mem_some] at hl
      rw [← hl, hlength]
    · rw [← hlength]
      exact hbody (by omega) (by rw [hparse]; exact hstart.1)

/-- **Partial answers are well formed** exactly where a core that windows without
a total says how long its window is, and the window ends where a `long` reaches. -/
theorem partial_answers_iff (hcore : ∀ rq, ∀ f ∈ (core rq).frames, f.Typed)
    (hsuccess : ∀ rq, ∀ f ∈ (core rq).frames, f.success = true)
    (hend : ∀ rs re, parseRange rangeHeader = some (rs, re) → re < 2 ^ 63 - 1) :
    (∃ answer, getContent? playbackMime rangeHeader core = some answer ∧
        ∀ head body, answer = .content head body → head.status = 206 → WellFormedPartial head body) ↔
      WindowNamed rangeHeader core := by
  constructor
  · rintro ⟨answer, hanswer, hformed⟩ rs re f rest hparse huses hframes htotal hranged
    by_cases hlength : 0 < f.rangeLength
    · refine ⟨hlength, ?_⟩
      by_contra hover
      have hnone : getContent? playbackMime rangeHeader core = none :=
        getContent?_eq_none_of_window hcore hparse huses hframes
          (hsuccess _ f (by rw [hframes]; exact List.mem_cons_self))
          ⟨htotal, hranged, hlength, by omega⟩
      rw [hnone] at hanswer
      cases hanswer
    · -- the answer has no last byte
      have hfrom : planFrom rangeHeader f = plan true rs re f := by
        rw [planFrom, hparse, huses]
        rfl
      have hplan := hfrom.trans (plan_unnamed htotal hranged (not_lt.mp hlength))
      rw [← hparse] at hframes
      obtain ⟨body, hbody, -⟩ := @getContent_begun playbackMime rangeHeader core f rest hframes
        (hsuccess _ f (by rw [hframes]; exact List.mem_cons_self))
        (by rw [hplan]; exact of_decide_eq_false rfl)
      obtain ⟨a, b, total, -, -, hrange, -⟩ := hformed _ body
        ((eq_getContent hcore hanswer).trans hbody) (by rw [hplan]; rfl)
      rw [hplan] at hrange
      exact absurd hrange (unnamed_ne_contentRangeText (parseRange_start hparse).1 a b total)
  · intro hnamed
    have hfits : ArithmeticFits rangeHeader core := by
      refine ⟨fun hparse => ?_, fun rs re f rest hparse huses hframes _ hwindow => ?_⟩
      · have hlt := hend _ _ hparse
        omega
      · obtain ⟨htotal, hranged, -, hover⟩ := hwindow
        have hlt := (hnamed rs re f rest hparse huses hframes htotal hranged).2
        omega
    refine ⟨_, getContent?_eq hcore hfits, fun head body hcontent hstatus => ?_⟩
    exact wellFormed_of_windowNamed hcore hsuccess hnamed hcontent hstatus

end Answer

/-- An older core on a file of ten bytes, which reads what it is asked for and
reports no total, and a length only where it is `measured`. -/
def windowCore (measured : Bool) (rq : GetFileRequest) : Stream where
  frames := [⟨true, "", window tenBytes rq, 0, if measured then (window tenBytes rq).length else 0, true⟩]
  status := .ok

theorem windowCore_typed (measured : Bool) (rq : GetFileRequest) :
    ∀ f ∈ (windowCore measured rq).frames, f.Typed := by
  intro f hf
  obtain rfl := List.mem_singleton.mp hf
  have hle := length_window_le tenBytes rq
  have hten : tenBytes.length = 10 := rfl
  refine ⟨fits_long.mpr (by dsimp only; omega), fits_long.mpr ?_, by dsimp only; omega⟩
  dsimp only
  split_ifs <;> omega

theorem windowCore_wellFormed : ∃ answer, getContent? "" "bytes=2-5" (windowCore true) = some answer ∧
    ∀ head body, answer = .content head body → head.status = 206 → WellFormedPartial head body := by
  have hparse : parseRange "bytes=2-5" = some (2, 5) := by decide +kernel
  refine (partial_answers_iff (windowCore_typed true) ?_ ?_).mpr ?_
  · intro rq f hf
    obtain rfl := List.mem_singleton.mp hf
    rfl
  · intro rs re h
    obtain ⟨-, rfl⟩ := Prod.mk.inj (Option.some.inj (hparse.symm.trans h))
    decide
  · intro rs re f rest h _ hframes _ _
    obtain ⟨rfl, rfl⟩ := Prod.mk.inj (Option.some.inj (hparse.symm.trans h))
    obtain ⟨rfl, -⟩ := List.cons.inj hframes
    exact ⟨by decide, by decide⟩

/-- The rest of a file behind its fifth byte, of a length that the core does not
say, is answered without a last byte. -/
theorem not_partial_answers : ∃ head, getContent? "" "bytes=5-" (windowCore false) =
      some (.content head [5, 6, 7, 8, 9]) ∧
    head.status = 206 ∧ head.contentRange = "bytes 5-/*" ∧ ¬ WellFormedPartial head [5, 6, 7, 8, 9] := by
  have hparse : parseRange "bytes=5-" = some (5, -1) := by decide +kernel
  have hanswer : getContent? "" "bytes=5-" (windowCore false) =
      some (.content { status := 206
                       contentType := some "application/octet-stream"
                       acceptRanges := true
                       contentRange := "bytes " ++ toString (5 : ℤ) ++ "-" ++ "" ++ "/*" }
        [5, 6, 7, 8, 9]) := by
    unfold getContent?
    simp only [hparse]
    rfl
  refine ⟨_, hanswer, rfl, by decide, ?_⟩
  rintro ⟨a, b, total, -, -, hrange, -⟩
  exact unnamed_ne_contentRangeText (by decide) a b total hrange

end Ranges
end HttpBridge
