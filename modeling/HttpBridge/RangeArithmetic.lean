/-
# The arithmetic of a range

`parseRange`, `getContent` and `planRange` compute with `long`s that a client
and the core choose, where signed overflow is undefined. The functions here are
those of `Ranges` with every sum and difference of the source checked
(`Signed.add`, `Signed.sub`): `none` is a run that has overflowed, and one that has not
gives the answer of `Ranges.getContent` (`eq_getContent`).

A number of a header is read by `stol`, which throws where it does not fit, and
the plan for a reported total always fits. What may overflow is the length of a
range from byte zero to `2 ^ 63 - 1`, and the last byte of a window that a core
reports without a total (`range_arithmetic_iff`).
-/
import HttpBridge.Num.Signed
import HttpBridge.Ranges

namespace HttpBridge
namespace Ranges

open Signed

/-! ### Checked steps -/

/-- What `getContent` asks the core for. -/
def fileRequest? (range : Option (ℤ × ℤ)) : Option GetFileRequest :=
  match range with
  | none => some {}
  | some (rs, re) =>
    if !usesRange range then some {}
    else if 0 ≤ re then do
      let d ← sub 64 re rs
      let length ← add 64 d 1
      return { offset := rs, length := length }
    else some { offset := rs }

/-- `range_response.h`, `planRange`. -/
def planRange? (hasRange : Bool) (rs re total : ℤ) : Option RangePlan :=
  if !hasRange || total ≤ 0 then some { length := if 0 < total then total else -1 }
  else if total ≤ rs then some { status := 416, contentRange := "bytes */" ++ toString total }
  else do
    let bound ← sub 64 total 1
    let last := if 0 ≤ re then min re bound else bound
    let d ← sub 64 last rs
    let length ← add 64 d 1
    return { status := 206
             start := rs
             length := length
             contentRange := "bytes " ++ toString rs ++ "-" ++ toString last ++ "/" ++ toString total }

/-- The last byte of a window of which a length is known. -/
def windowEnd? (rs length : ℤ) : Option String :=
  if 0 < length then do
    let n ← add 64 rs length
    let last ← sub 64 n 1
    return toString last
  else some ""

/-- The plan of an answer, as `onMeta` makes it from the first frame. -/
def plan? (hasRange : Bool) (rs re : ℤ) (f : GetFileResponse) : Option RangePlan := do
  let planned ← planRange? hasRange rs re f.totalSize
  if hasRange && f.totalSize ≤ 0 && f.ranged then
    let length := if 0 < f.rangeLength then f.rangeLength else -1
    let last ← windowEnd? rs length
    return { status := 206
             start := rs
             length := length
             contentRange := "bytes " ++ toString rs ++ "-" ++ last ++ "/*" }
  else return planned

/-- What `onMeta` does with a plan. -/
def begin (ctype : String) (rs : ℤ) (s : Sink) (f : GetFileResponse) (plan : RangePlan) : Sink × Bool :=
  if plan.status = 416 then
    ({ s with head := some { status := 416, contentRange := plan.contentRange, contentLength := some 0 } },
      false)
  else
    ({ s with
        skip := if plan.status = 206 && !f.ranged then rs else s.skip
        remaining := plan.length
        head := some
          { status := if plan.status = 206 then 206 else 200
            contentType := some ctype
            acceptRanges := true
            contentRange := plan.contentRange
            contentLength := if 0 ≤ plan.length then some plan.length else none } },
      true)

/-- The plan that `onMeta` makes where nothing overflows. -/
def plan (hasRange : Bool) (rs re : ℤ) (f : GetFileResponse) : RangePlan :=
  if hasRange && f.totalSize ≤ 0 && f.ranged then
    let length := if 0 < f.rangeLength then f.rangeLength else -1
    { status := 206
      start := rs
      length := length
      contentRange := "bytes " ++ toString rs ++ "-" ++
        (if 0 < length then toString (toLong (rs + length - 1)) else "") ++ "/*" }
  else planRange hasRange rs re f.totalSize

theorem onMeta_eq (hasRange : Bool) (rs re : ℤ) (ctype : String) (s : Sink) (f : GetFileResponse) :
    onMeta hasRange rs re ctype s f = begin ctype rs s f (plan hasRange rs re f) := rfl

/-- `getContent`, `onMeta`. -/
def onMeta? (hasRange : Bool) (rs re : ℤ) (ctype : String) (s : Sink) (f : GetFileResponse) :
    Option (Sink × Bool) :=
  (plan? hasRange rs re f).map (begin ctype rs s f)

/-- `getContent`, `onChunk`. -/
def onChunk? (s : Sink) (chunk : Bytes) : Option (Sink × Bool) := do
  let d := if 0 < s.skip then min s.skip chunk.length else 0
  let p := chunk.drop d.toNat
  let left ← sub 64 chunk.length d
  let skip ← sub 64 s.skip d
  if 0 < s.skip && left = 0 then return ({ s with skip := skip }, true)
  else
    let n := if 0 ≤ s.remaining then min left s.remaining else left
    let written := s.written ++ p.take n.toNat
    if 0 ≤ s.remaining then
      let remaining ← sub 64 s.remaining n
      return ({ s with skip := skip, remaining := remaining, written := written }, !(remaining ≤ 0))
    else return ({ s with skip := skip, written := written }, true)

/-- A callback on variables that are gone once a step was undefined. -/
def orStop {σ β : Type} (step : σ → β → Option (σ × Bool)) (s : Option σ) (b : β) : Option σ × Bool :=
  match s.bind fun s => step s b with
  | some (s', more) => (some s', more)
  | none => (none, false)

/-- `getContent`; `none` where a step was undefined. -/
def getContent? (playbackMime rangeHeader : String) (core : GetFileRequest → Stream) :
    Option ContentAnswer := do
  let range := parseRange rangeHeader
  let ctype := if playbackMime == "" then "application/octet-stream" else playbackMime
  let bounds := range.getD (-1, -1)
  let rq ← fileRequest? range
  let result := streamFileDownload (orStop (onMeta? (usesRange range) bounds.1 bounds.2 ctype))
    (orStop onChunk?) (some {}) (core rq)
  let sink ← result.1
  match sink.head, result.2 with
  | none, some err => return .error (mapError err)
  | none, none => return .content { status := 200, contentType := some ctype, contentLength := some 0 } []
  | some head, _ => return .content head sink.written

/-! ### What the core can send -/

/-- The fields of a frame are `int64`s, and its data is a string. -/
structure GetFileResponse.Typed (f : GetFileResponse) : Prop where
  totalSize : Fits 64 f.totalSize
  rangeLength : Fits 64 f.rangeLength
  data : (f.data.length : ℤ) < 2 ^ 63

/-- The callbacks' variables are `long`s, of which a length below zero is `-1`. -/
structure Sink.Typed (s : Sink) : Prop where
  skip : 0 ≤ s.skip ∧ s.skip < 2 ^ 63
  remaining : -1 ≤ s.remaining ∧ s.remaining < 2 ^ 63

theorem Sink.typed_initially : Sink.Typed {} := ⟨by decide, by decide⟩

/-- The window that `f` reports without a total ends outside of the range of a
`long`. -/
def WindowOverflows (rs : ℤ) (f : GetFileResponse) : Prop :=
  f.totalSize ≤ 0 ∧ f.ranged = true ∧ 0 < f.rangeLength ∧ 2 ^ 63 ≤ rs + f.rangeLength

section Steps

variable {hasRange : Bool} {rs re : ℤ} {f : GetFileResponse} {ctype : String} {s : Sink}

/-- The plan for a total always fits. -/
theorem planRange?_eq {total : ℤ} (hrs : hasRange = true → 0 ≤ rs ∧ rs < 2 ^ 63) (htotal : Fits 64 total) :
    planRange? hasRange rs re total = some (planRange hasRange rs re total) := by
  have htotal' := fits_long.mp htotal
  unfold planRange? planRange
  by_cases hwhole : (!hasRange || decide (total ≤ 0)) = true
  · rw [if_pos hwhole, if_pos hwhole]
  rw [if_neg hwhole, if_neg hwhole]
  by_cases hpast : total ≤ rs
  · rw [if_pos hpast, if_pos hpast]
  rw [if_neg hpast, if_neg hpast]
  simp only [Bool.or_eq_true, Bool.not_eq_true', decide_eq_true_eq, not_or, Bool.not_eq_false] at hwhole
  have hstart := hrs hwhole.1
  have hbound : sub 64 total 1 = some (total - 1) := sub_of_fits (fits_long.mpr (by omega))
  have hlast : 0 ≤ (if 0 ≤ re then min re (total - 1) else total - 1) ∧
      (if 0 ≤ re then min re (total - 1) else total - 1) ≤ total - 1 := by
    by_cases hre : 0 ≤ re
    · rw [if_pos hre]
      omega
    · rw [if_neg hre]
      omega
  rw [hbound]
  simp only [Option.bind_eq_bind, Option.bind_some]
  generalize (if 0 ≤ re then min re (total - 1) else total - 1) = last at hlast ⊢
  have hd : sub 64 last rs = some (last - rs) := sub_of_fits (fits_long.mpr (by omega))
  have hlength : add 64 (last - rs) 1 = some (last - rs + 1) := add_of_fits (fits_long.mpr (by omega))
  have hlong : toLong (last - rs + 1) = last - rs + 1 := toLong_eq (by omega) (by omega)
  rw [hd, Option.bind_some, hlength, hlong]
  rfl

/-- A planned length is a `long`, and an answer by range has a request by range. -/
theorem planRange_spec {total : ℤ} (hrs : hasRange = true → 0 ≤ rs ∧ rs < 2 ^ 63)
    (htotal : Fits 64 total) (hopen : hasRange = true → re < 0 ∨ rs ≤ re) :
    (-1 ≤ (planRange hasRange rs re total).length ∧ (planRange hasRange rs re total).length < 2 ^ 63) ∧
      ((planRange hasRange rs re total).status = 206 → hasRange = true) := by
  have htotal' := fits_long.mp htotal
  unfold planRange
  by_cases hwhole : (!hasRange || decide (total ≤ 0)) = true
  · rw [if_pos hwhole]
    refine ⟨?_, fun h => absurd h (of_decide_eq_false rfl)⟩
    dsimp only
    split_ifs <;> omega
  rw [if_neg hwhole]
  simp only [Bool.or_eq_true, Bool.not_eq_true', decide_eq_true_eq, not_or, Bool.not_eq_false] at hwhole
  have hstart := hrs hwhole.1
  have hlast := hopen hwhole.1
  by_cases hpast : total ≤ rs
  · rw [if_pos hpast]
    exact ⟨⟨le_refl (-1), by dsimp only; omega⟩, fun _ => hwhole.1⟩
  rw [if_neg hpast]
  have hlong : ∀ n : ℤ, -1 ≤ n → n < 2 ^ 63 → -1 ≤ toLong n ∧ toLong n < 2 ^ 63 := fun n h h' => by
    rw [toLong_eq (by omega) h']
    exact ⟨h, h'⟩
  refine ⟨?_, fun _ => hwhole.1⟩
  dsimp only
  apply hlong
  · split_ifs <;> omega
  · split_ifs <;> omega

/-- The window's last byte is computed unless it overflows. -/
theorem windowEnd?_eq {length : ℤ} (hrs : 0 ≤ rs) (hfits : 0 < length → rs + length < 2 ^ 63) :
    windowEnd? rs length = some (if 0 < length then toString (toLong (rs + length - 1)) else "") := by
  unfold windowEnd?
  by_cases hlength : 0 < length
  · have hlt := hfits hlength
    have hadd : add 64 rs length = some (rs + length) := add_of_fits (fits_long.mpr (by omega))
    have hsub : sub 64 (rs + length) 1 = some (rs + length - 1) := sub_of_fits (fits_long.mpr (by omega))
    have hlong : toLong (rs + length - 1) = rs + length - 1 := toLong_eq (by omega) (by omega)
    rw [if_pos hlength, if_pos hlength, hadd, hlong]
    simp only [Option.bind_eq_bind, Option.bind_some, hsub]
    rfl
  · rw [if_neg hlength, if_neg hlength]

/-- The plan is made unless the end of a window does not fit. -/
theorem plan?_eq (hrs : hasRange = true → 0 ≤ rs ∧ rs < 2 ^ 63) (hf : f.Typed)
    (hwindow : hasRange = true → ¬ WindowOverflows rs f) :
    plan? hasRange rs re f = some (plan hasRange rs re f) := by
  unfold plan? plan
  rw [planRange?_eq hrs hf.totalSize]
  simp only [Option.bind_eq_bind, Option.bind_some]
  by_cases holder : (hasRange && decide (f.totalSize ≤ 0) && f.ranged) = true
  · rw [if_pos holder, if_pos holder]
    simp only [Bool.and_eq_true, decide_eq_true_eq] at holder
    have hfits : 0 < (if 0 < f.rangeLength then f.rangeLength else -1) →
        rs + (if 0 < f.rangeLength then f.rangeLength else -1) < 2 ^ 63 := by
      intro hpos
      by_cases hlength : 0 < f.rangeLength
      · rw [if_pos hlength]
        by_contra hlt
        exact hwindow holder.1.1 ⟨holder.1.2, holder.2, hlength, by omega⟩
      · rw [if_neg hlength] at hpos
        omega
    rw [windowEnd?_eq (hrs holder.1.1).1 hfits]
    rfl
  · rw [if_neg holder, if_neg holder]
    rfl

theorem plan?_eq_none (hrange : hasRange = true) (hrs : 0 ≤ rs ∧ rs < 2 ^ 63) (hf : f.Typed)
    (hwindow : WindowOverflows rs f) : plan? hasRange rs re f = none := by
  obtain ⟨htotal, hranged, hlength, hover⟩ := hwindow
  have hadd : add 64 rs f.rangeLength = none := add_eq_none fun h => by
    have hlt := (fits_long.mp h).2
    omega
  unfold plan?
  rw [planRange?_eq (fun _ => hrs) hf.totalSize]
  simp only [Option.bind_eq_bind, Option.bind_some]
  rw [if_pos (by simp [hrange, htotal, hranged]), if_pos hlength, windowEnd?, if_pos hlength, hadd]
  rfl

theorem plan_spec (hrs : hasRange = true → 0 ≤ rs ∧ rs < 2 ^ 63) (hf : f.Typed)
    (hopen : hasRange = true → re < 0 ∨ rs ≤ re) :
    (-1 ≤ (plan hasRange rs re f).length ∧ (plan hasRange rs re f).length < 2 ^ 63) ∧
      ((plan hasRange rs re f).status = 206 → hasRange = true) := by
  have hlength := fits_long.mp hf.rangeLength
  unfold plan
  by_cases holder : (hasRange && decide (f.totalSize ≤ 0) && f.ranged) = true
  · rw [if_pos holder]
    simp only [Bool.and_eq_true, decide_eq_true_eq] at holder
    refine ⟨?_, fun _ => holder.1.1⟩
    dsimp only
    split_ifs <;> omega
  · rw [if_neg holder]
    exact planRange_spec hrs hf.totalSize hopen

theorem onMeta?_eq (hrs : hasRange = true → 0 ≤ rs ∧ rs < 2 ^ 63) (hf : f.Typed)
    (hwindow : hasRange = true → ¬ WindowOverflows rs f) :
    onMeta? hasRange rs re ctype s f = some (onMeta hasRange rs re ctype s f) := by
  rw [onMeta?, onMeta_eq, plan?_eq hrs hf hwindow]
  rfl

/-- What `onMeta` leaves are `long`s again. -/
theorem onMeta_typed (hs : s.Typed) (hrs : hasRange = true → 0 ≤ rs ∧ rs < 2 ^ 63) (hf : f.Typed)
    (hopen : hasRange = true → re < 0 ∨ rs ≤ re) : (onMeta hasRange rs re ctype s f).1.Typed := by
  obtain ⟨hlength, hstatus⟩ := plan_spec hrs hf hopen
  rw [onMeta_eq, begin]
  by_cases hrefused : (plan hasRange rs re f).status = 416
  · rw [if_pos hrefused]
    exact ⟨hs.skip, hs.remaining⟩
  · rw [if_neg hrefused]
    refine ⟨?_, hlength⟩
    dsimp only
    split_ifs with hskip
    · rw [Bool.and_eq_true, decide_eq_true_iff] at hskip
      exact hrs (hstatus hskip.1)
    · exact hs.skip

/-- The sums and differences of `onChunk` fit, and leave `long`s. -/
theorem onChunk?_eq (hs : s.Typed) {chunk : Bytes} (hchunk : (chunk.length : ℤ) < 2 ^ 63) :
    onChunk? s chunk = some (onChunk s chunk) ∧ (onChunk s chunk).1.Typed := by
  obtain ⟨⟨hskip, hskip'⟩, hremaining, hremaining'⟩ := hs
  have hd : 0 ≤ (if 0 < s.skip then min s.skip (chunk.length : ℤ) else 0) ∧
      (if 0 < s.skip then min s.skip (chunk.length : ℤ) else 0) ≤ s.skip ∧
      (if 0 < s.skip then min s.skip (chunk.length : ℤ) else 0) ≤ chunk.length := by
    by_cases hpos : 0 < s.skip
    · rw [if_pos hpos]
      omega
    · rw [if_neg hpos]
      omega
  unfold onChunk? onChunk
  dsimp only
  generalize (if 0 < s.skip then min s.skip (chunk.length : ℤ) else 0) = d at hd
  have hleft : sub 64 (chunk.length : ℤ) d = some ((chunk.drop d.toNat).length : ℤ) := by
    rw [sub_of_fits (fits_long.mpr (by omega)), List.length_drop]
    congr 1
    omega
  have hskips : sub 64 s.skip d = some (s.skip - d) := sub_of_fits (fits_long.mpr (by omega))
  rw [hleft, hskips]
  simp only [Option.bind_eq_bind, Option.bind_some]
  have hbound : 0 ≤ ((chunk.drop d.toNat).length : ℤ) ∧ ((chunk.drop d.toNat).length : ℤ) < 2 ^ 63 := by
    rw [List.length_drop]
    omega
  generalize ((chunk.drop d.toNat).length : ℤ) = left at hbound
  by_cases hnone : (0 < s.skip && left = 0) = true
  · rw [if_pos hnone, if_pos hnone]
    exact ⟨rfl, ⟨by dsimp only; omega, by dsimp only; omega⟩, hremaining, hremaining'⟩
  rw [if_neg hnone, if_neg hnone]
  by_cases howed : 0 ≤ s.remaining
  · have hrest : sub 64 s.remaining (min left s.remaining) = some (s.remaining - min left s.remaining) :=
      sub_of_fits (fits_long.mpr (by omega))
    simp only [if_pos howed, hrest, Option.bind_some]
    exact ⟨rfl, ⟨by dsimp only; omega, by dsimp only; omega⟩, by dsimp only; omega, by dsimp only; omega⟩
  · simp only [if_neg howed]
    exact ⟨rfl, ⟨by dsimp only; omega, by dsimp only; omega⟩, hremaining, hremaining'⟩

end Steps

/-! ### The whole run -/

/-- As long as no step is undefined, the loop goes as without the checks. -/
theorem readLoop_orStop (heard : Sink → GetFileResponse → Sink × Bool)
    (heard? : Sink → GetFileResponse → Option (Sink × Bool)) (frames : List GetFileResponse)
    (hframes : ∀ f ∈ frames, f.Typed) (first : Bool) (s : Sink) (hs : s.Typed)
    (hheard : first = true → ∀ f rest, frames = f :: rest → f.success = true →
      heard? s f = some (heard s f) ∧ (heard s f).1.Typed) :
    readLoop (orStop heard?) (orStop onChunk?) first (some s) frames =
      (some (readLoop heard onChunk first s frames).1, (readLoop heard onChunk first s frames).2) := by
  induction frames generalizing first s with
  | nil => rfl
  | cons f fs ih =>
    have hf := hframes f List.mem_cons_self
    have hfs : ∀ f ∈ fs, f.Typed := fun f' hf' => hframes f' (List.mem_cons_of_mem f hf')
    rw [readLoop, readLoop]
    by_cases hsuccess : f.success = true
    · have hfirst : (if first = true then orStop heard? (some s) f else (some s, true)) =
          (some (if first = true then heard s f else (s, true)).1,
            (if first = true then heard s f else (s, true)).2) ∧
          (if first = true then heard s f else (s, true)).1.Typed := by
        by_cases h : first = true
        · obtain ⟨heq, htyped⟩ := hheard h f fs rfl hsuccess
          simp only [if_pos h]
          exact ⟨by simp [orStop, heq], htyped⟩
        · simp only [if_neg h]
          exact ⟨trivial, hs⟩
      simp only [hsuccess, hfirst.1]
      generalize (if first = true then heard s f else (s, true)) = r at hfirst ⊢
      by_cases hgo : r.2 = true
      · simp only [hgo, Bool.not_true, Bool.false_eq_true, ↓reduceIte]
        by_cases hempty : f.data.isEmpty = true
        · rw [if_pos hempty, if_pos hempty]
          exact ih hfs false r.1 hfirst.2 (fun h => absurd h Bool.false_ne_true)
        · obtain ⟨hchunk, htyped⟩ := onChunk?_eq hfirst.2 hf.data
          rw [if_neg hempty, if_neg hempty]
          simp only [orStop, Option.bind_some, hchunk]
          by_cases hmore : (onChunk r.1 f.data).2 = true
          · rw [if_neg (by simp [hmore]), if_neg (by simp [hmore])]
            exact ih hfs false _ htyped (fun h => absurd h Bool.false_ne_true)
          · rw [if_pos (by simpa using hmore), if_pos (by simpa using hmore)]
      · simp [hgo]
    · simp [hsuccess]

section Run

variable {playbackMime rangeHeader : String} {core : GetFileRequest → Stream}

/-- Neither the length of the range asked for nor the end of a window that is
reported without a total leaves the range of a `long`. -/
structure ArithmeticFits (rangeHeader : String) (core : GetFileRequest → Stream) : Prop where
  length : parseRange rangeHeader ≠ some (0, 2 ^ 63 - 1)
  window : ∀ rs re f rest, parseRange rangeHeader = some (rs, re) → usesRange (some (rs, re)) = true →
    (core (fileRequest (some (rs, re)))).frames = f :: rest → f.success = true → ¬ WindowOverflows rs f

theorem open_of_usesRange {rs re : ℤ} (h : usesRange (some (rs, re)) = true) : re < 0 ∨ rs ≤ re := by
  unfold usesRange at h
  rw [Bool.not_eq_true', Bool.and_eq_false_iff, decide_eq_false_iff_not, decide_eq_false_iff_not] at h
  omega

theorem parseRange_bounds {rs re : ℤ} (hparse : parseRange rangeHeader = some (rs, re)) :
    re < 2 ^ 63 := by
  unfold parseRange at hparse
  dsimp only at hparse
  split_ifs at hparse with hprefix hdash hempty
  all_goals
    split at hparse
    case h_1 start last hstart hlast =>
      split_ifs at hparse with hpos
      rw [Option.some.injEq, Prod.mk.injEq] at hparse
      rw [← hparse.2]
      first
        | exact (stol_bounds hlast).2
        | rw [← Option.some.inj hlast]
          omega
    case h_2 => cases hparse

/-- The request overflows exactly where it asks for `2 ^ 63` bytes. -/
theorem fileRequest?_eq (h : parseRange rangeHeader ≠ some (0, 2 ^ 63 - 1)) :
    fileRequest? (parseRange rangeHeader) = some (fileRequest (parseRange rangeHeader)) := by
  rcases hparse : parseRange rangeHeader with - | ⟨rs, re⟩
  · rfl
  have hrs := parseRange_start hparse
  have hre := parseRange_bounds hparse
  unfold fileRequest? fileRequest
  dsimp only
  by_cases huses : usesRange (some (rs, re)) = true
  · simp only [huses, Bool.not_true, Bool.false_eq_true, ↓reduceIte]
    by_cases hpos : 0 ≤ re
    · have hle := (open_of_usesRange huses).resolve_left (by omega)
      have hlt : re - rs + 1 < 2 ^ 63 := by
        by_contra hge
        have heq : rs = 0 ∧ re = 2 ^ 63 - 1 := by omega
        exact h (by rw [hparse, heq.1, heq.2])
      have hd : sub 64 re rs = some (re - rs) := sub_of_fits (fits_long.mpr (by omega))
      have hlength : add 64 (re - rs) 1 = some (re - rs + 1) := add_of_fits (fits_long.mpr (by omega))
      have hlong : toLong (re - rs + 1) = re - rs + 1 := toLong_eq (by omega) hlt
      rw [if_pos hpos, if_pos hpos, hd, hlong]
      simp only [Option.bind_eq_bind, Option.bind_some, hlength]
      rfl
    · rw [if_neg hpos, if_neg hpos]
  · simp only [huses, Bool.not_false, ↓reduceIte]

theorem fileRequest?_eq_none : fileRequest? (some (0, 2 ^ 63 - 1)) = none := by decide

/-- What the checked callbacks come to is what the callbacks come to. -/
theorem streamFileDownload_orStop {heard : Sink → GetFileResponse → Sink × Bool}
    {heard? : Sink → GetFileResponse → Option (Sink × Bool)} {stream : Stream}
    (h : readLoop (orStop heard?) (orStop onChunk?) true (some {}) stream.frames =
      (some (readLoop heard onChunk true {} stream.frames).1,
        (readLoop heard onChunk true {} stream.frames).2)) :
    streamFileDownload (orStop heard?) (orStop onChunk?) (some {}) stream =
      (some (streamFileDownload heard onChunk {} stream).1,
        (streamFileDownload heard onChunk {} stream).2) := by
  unfold streamFileDownload
  rw [h]
  generalize readLoop heard onChunk true {} stream.frames = r
  obtain ⟨sink, err⟩ := r
  cases err with
  | some err => rfl
  | none => cases stream.status <;> rfl

/-- The bounds that `getContent` goes by, where the request is served by range. -/
theorem start_of_usesRange (h : usesRange (parseRange rangeHeader) = true) :
    0 ≤ ((parseRange rangeHeader).getD (-1, -1)).1 ∧
      ((parseRange rangeHeader).getD (-1, -1)).1 < 2 ^ 63 := by
  rcases hparse : parseRange rangeHeader with - | ⟨rs, re⟩
  · rw [hparse] at h
    exact absurd h Bool.false_ne_true
  · exact parseRange_start hparse

theorem end_of_usesRange (h : usesRange (parseRange rangeHeader) = true) :
    ((parseRange rangeHeader).getD (-1, -1)).2 < 0 ∨
      ((parseRange rangeHeader).getD (-1, -1)).1 ≤ ((parseRange rangeHeader).getD (-1, -1)).2 := by
  rcases hparse : parseRange rangeHeader with - | ⟨rs, re⟩
  · rw [hparse] at h
    exact absurd h Bool.false_ne_true
  · rw [hparse] at h
    exact open_of_usesRange h

theorem ArithmeticFits.first (h : ArithmeticFits rangeHeader core) {f : GetFileResponse}
    {rest : List GetFileResponse} (hsuccess : f.success = true)
    (hframes : (core (fileRequest (parseRange rangeHeader))).frames = f :: rest)
    (huses : usesRange (parseRange rangeHeader) = true) :
    ¬ WindowOverflows ((parseRange rangeHeader).getD (-1, -1)).1 f := by
  rcases hparse : parseRange rangeHeader with - | ⟨rs, re⟩
  · rw [hparse] at huses
    exact absurd huses Bool.false_ne_true
  · rw [hparse] at huses hframes
    exact h.window rs re f rest hparse huses hframes hsuccess

theorem getContent?_eq (hcore : ∀ rq, ∀ f ∈ (core rq).frames, f.Typed)
    (h : ArithmeticFits rangeHeader core) :
    getContent? playbackMime rangeHeader core = some (getContent playbackMime rangeHeader core) := by
  have hfirst : true = true → ∀ f rest,
      (core (fileRequest (parseRange rangeHeader))).frames = f :: rest → f.success = true →
        onMeta? (usesRange (parseRange rangeHeader)) ((parseRange rangeHeader).getD (-1, -1)).1
            ((parseRange rangeHeader).getD (-1, -1)).2 (contentType playbackMime) {} f =
          some (onMeta (usesRange (parseRange rangeHeader)) ((parseRange rangeHeader).getD (-1, -1)).1
            ((parseRange rangeHeader).getD (-1, -1)).2 (contentType playbackMime) {} f) ∧
        (onMeta (usesRange (parseRange rangeHeader)) ((parseRange rangeHeader).getD (-1, -1)).1
            ((parseRange rangeHeader).getD (-1, -1)).2 (contentType playbackMime) {} f).1.Typed := by
    intro _ f rest hframes hsuccess
    have hf : f.Typed := hcore _ f (by rw [hframes]; exact List.mem_cons_self)
    exact ⟨onMeta?_eq start_of_usesRange hf (h.first hsuccess hframes),
      onMeta_typed Sink.typed_initially start_of_usesRange hf end_of_usesRange⟩
  have hread := readLoop_orStop _ _ (core (fileRequest (parseRange rangeHeader))).frames (hcore _)
    true {} Sink.typed_initially hfirst
  have hstream := streamFileDownload_orStop hread
  unfold getContent? getContent
  simp only [fileRequest?_eq h.length, Option.bind_eq_bind, Option.bind_some]
  rw [contentType] at hstream
  rw [hstream]
  simp only [Option.bind_some]
  generalize streamFileDownload _ _ _ _ = result
  obtain ⟨⟨head, skip, remaining, written⟩, err⟩ := result
  cases head with
  | some head => rfl
  | none => cases err <;> rfl

theorem getContent?_eq_none_of_length (h : parseRange rangeHeader = some (0, 2 ^ 63 - 1)) :
    getContent? playbackMime rangeHeader core = none := by
  unfold getContent?
  simp only [h, fileRequest?_eq_none]
  rfl

theorem getContent?_eq_none_of_window (hcore : ∀ rq, ∀ f ∈ (core rq).frames, f.Typed) {rs re : ℤ}
    {f : GetFileResponse} {rest : List GetFileResponse} (hparse : parseRange rangeHeader = some (rs, re))
    (huses : usesRange (some (rs, re)) = true)
    (hframes : (core (fileRequest (some (rs, re)))).frames = f :: rest) (hsuccess : f.success = true)
    (hwindow : WindowOverflows rs f) : getContent? playbackMime rangeHeader core = none := by
  by_cases hlength : parseRange rangeHeader = some (0, 2 ^ 63 - 1)
  · exact getContent?_eq_none_of_length hlength
  have hrq := fileRequest?_eq hlength
  have hf : f.Typed := hcore _ f (by rw [hframes]; exact List.mem_cons_self)
  have hplan : plan? true rs re f = none := plan?_eq_none rfl (parseRange_start hparse) hf hwindow
  rw [hparse] at hrq
  unfold getContent?
  simp only [hparse, hrq, huses, Option.getD_some, Option.bind_eq_bind, Option.bind_some]
  have hnone : ∀ ctype, (streamFileDownload (orStop (onMeta? true rs re ctype)) (orStop onChunk?)
      (some {}) (core (fileRequest (some (rs, re))))).1 = none := by
    intro ctype
    rw [streamFileDownload_fst, hframes, readLoop, hsuccess]
    simp [orStop, onMeta?, hplan]
  rw [hnone]
  rfl

/-- **When the arithmetic stays in range.** -/
theorem getContent?_isSome_iff (hcore : ∀ rq, ∀ f ∈ (core rq).frames, f.Typed) :
    (getContent? playbackMime rangeHeader core).isSome = true ↔ ArithmeticFits rangeHeader core := by
  constructor
  · intro hsome
    refine ⟨fun h => ?_, fun rs re f rest hparse huses hframes hsuccess hwindow => ?_⟩
    · rw [getContent?_eq_none_of_length h] at hsome
      exact absurd hsome Bool.false_ne_true
    · rw [getContent?_eq_none_of_window hcore hparse huses hframes hsuccess hwindow] at hsome
      exact absurd hsome Bool.false_ne_true
  · intro h
    rw [getContent?_eq hcore h]
    rfl

/-- A run without overflow gives the answer of `getContent`. -/
theorem eq_getContent (hcore : ∀ rq, ∀ f ∈ (core rq).frames, f.Typed) {a : ContentAnswer}
    (h : getContent? playbackMime rangeHeader core = some a) :
    a = getContent playbackMime rangeHeader core := by
  have hfits := (getContent?_isSome_iff hcore).mp (by rw [h]; rfl)
  rw [getContent?_eq hcore hfits] at h
  exact (Option.some.inj h).symm

/-- **The arithmetic of a range fits** and an accepted bounded range is asked
for as it is, exactly unless the range is that of `2 ^ 63` bytes from the first
on, or the core reports a window, but no total, that ends past `2 ^ 63 - 1`. -/
theorem range_arithmetic_iff (hcore : ∀ rq, ∀ f ∈ (core rq).frames, f.Typed) :
    ((getContent? playbackMime rangeHeader core).isSome = true ∧
        ∀ s e, parseRange rangeHeader = some (s, e) → 0 ≤ e → s ≤ e →
          fileRequest? (some (s, e)) = some { offset := s, length := e - s + 1 } ∧ 0 < e - s + 1) ↔
      ArithmeticFits rangeHeader core := by
  rw [getContent?_isSome_iff hcore]
  refine ⟨fun h => h.1, fun h => ⟨h, fun s e hparse hpos hle => ⟨?_, by omega⟩⟩⟩
  have hrs := parseRange_start hparse
  have hre := parseRange_bounds hparse
  have hlt : e - s + 1 < 2 ^ 63 := by
    by_contra hge
    have heq : s = 0 ∧ e = 2 ^ 63 - 1 := by omega
    exact h.length (by rw [hparse, heq.1, heq.2])
  have hrq := fileRequest?_eq h.length
  rw [hparse, fileRequest, usesRange_eq (.inr hle)] at hrq
  simp only [Bool.not_true, Bool.false_eq_true, ↓reduceIte, if_pos hpos] at hrq
  rw [hrq, toLong_eq (by omega) hlt]

end Run

theorem length_window_le (c : Bytes) (rq : GetFileRequest) : (window c rq).length ≤ c.length := by
  unfold window
  dsimp only
  split_ifs
  · rw [List.length_drop]
    omega
  · rw [List.length_take, List.length_drop]
    omega

/-- A core that reads what it is asked for from a file of ten bytes. -/
def tenByteCore (rq : GetFileRequest) : Stream where
  frames := [⟨true, "", window tenBytes rq, 10, 0, true⟩]
  status := .ok

theorem tenByteCore_typed (rq : GetFileRequest) : ∀ f ∈ (tenByteCore rq).frames, f.Typed := by
  intro f hf
  obtain rfl := List.mem_singleton.mp hf
  refine ⟨fits_long.mpr (by dsimp only; omega), fits_long.mpr (by dsimp only; omega), ?_⟩
  have hle := length_window_le tenBytes rq
  have hten : tenBytes.length = 10 := rfl
  dsimp only
  omega

theorem tenByteRange_fits :
    (getContent? "" "bytes=2-5" tenByteCore).isSome = true ∧
      fileRequest? (some (2, 5)) = some { offset := 2, length := 4 } := by
  have hparse : parseRange "bytes=2-5" = some (2, 5) := by decide +kernel
  have hfits : ArithmeticFits "bytes=2-5" tenByteCore := by
    refine ⟨by rw [hparse]; decide, ?_⟩
    intro rs re f rest _ _ hframes _ hwindow
    obtain ⟨rfl, -⟩ := List.cons.inj hframes
    exact absurd hwindow.1 (by dsimp only; omega)
  have h : (getContent? "" "bytes=2-5" tenByteCore).isSome = true ∧ _ :=
    (range_arithmetic_iff tenByteCore_typed).mpr hfits
  exact ⟨h.1, (h.2 2 5 hparse (by decide) (by decide)).1⟩

/-- The length of the longest range a header can name overflows. -/
theorem not_range_arithmetic :
    parseRange "bytes=0-9223372036854775807" = some (0, 2 ^ 63 - 1) ∧
      getContent? "" "bytes=0-9223372036854775807" tenByteCore = none ∧
      (fileRequest (parseRange "bytes=0-9223372036854775807")).length = -2 ^ 63 := by
  have hparse : parseRange "bytes=0-9223372036854775807" = some (0, 2 ^ 63 - 1) := by decide +kernel
  refine ⟨hparse, getContent?_eq_none_of_length hparse, ?_⟩
  rw [hparse]
  decide +kernel

end Ranges
end HttpBridge
