/-
# Serving a range of a file

`getContent` hands a range request to the core, which reads the window it is
asked for, or ignores it and streams the whole file (an older core). The answer
is planned from the total the core reports on the first frame
(`range_response.h`), before any byte is written, and what the core sends is
trimmed frame by frame: first what stands before the window, then what stands
behind it.

The trimming is one law of the frames' concatenation, however it is cut
(`readLoop_written`). So an accepted range is answered with exactly its bytes
under a `Content-Range` and a `Content-Length` that name them, and a request
without one with the whole file (`getContent_ranges`).
-/
import HttpBridge.Effects

namespace HttpBridge
namespace Ranges

abbrev Bytes := List UInt8

/-! ### The header -/

/-- The value a `long` has where the arithmetic may leave its range. -/
def toLong (n : ℤ) : ℤ := n.bmod (2 ^ 64)

theorem toLong_eq {n : ℤ} (h : -2 ^ 63 ≤ n) (h' : n < 2 ^ 63) : toLong n = n :=
  Int.bmod_eq_of_le (by omega) (by omega)

/-- `parseRange`, where it returns true; an end below zero is open. -/
def parseRange (h : String) : Option (ℤ × ℤ) :=
  if !startsWith "bytes=" h then none
  else
    let r := String.ofList (h.toList.drop 6)
    let e := after '-' r
    if '-' ∉ r.toList then none
    else
      match stol (upTo '-' r), if e == "" then some (-1) else stol e with
      | some start, some last => if 0 ≤ start then some (start, last) else none
      | _, _ => none

theorem stol_bounds {s : String} {n : ℤ} (h : stol s = some n) : -2 ^ 63 ≤ n ∧ n < 2 ^ 63 := by
  unfold stol at h
  obtain ⟨⟨negative, k⟩, _, h⟩ := Option.bind_eq_some_iff.mp h
  dsimp only at h
  split_ifs at h with hneg hb hb
  all_goals
    rw [Bool.and_eq_true, decide_eq_true_iff, decide_eq_true_iff] at hb
    rw [Option.some.injEq] at h
    omega

/-- An accepted start is a `long` that is not negative. -/
theorem parseRange_start {h : String} {rs re : ℤ} (hparse : parseRange h = some (rs, re)) :
    0 ≤ rs ∧ rs < 2 ^ 63 := by
  unfold parseRange at hparse
  dsimp only at hparse
  split_ifs at hparse with hprefix hdash
  all_goals
    split at hparse
    case h_1 start last hstart hlast =>
      split_ifs at hparse with hpos
      rw [Option.some.injEq, Prod.mk.injEq] at hparse
      rw [← hparse.1]
      exact ⟨hpos, (stol_bounds hstart).2⟩
    case h_2 => cases hparse

/-! ### The plan -/

/-- `range_response.h`, `RangePlan`: a length below zero is unknown, and a 200
has no content range. -/
structure RangePlan where
  status : ℕ := 200
  start : ℤ := 0
  length : ℤ := -1
  contentRange : String := ""

/-- `range_response.h`, `planRange`. -/
def planRange (hasRange : Bool) (rs re total : ℤ) : RangePlan :=
  if !hasRange || total ≤ 0 then { length := if 0 < total then total else -1 }
  else if total ≤ rs then { status := 416, contentRange := "bytes */" ++ toString total }
  else
    let last := if 0 ≤ re then min re (total - 1) else total - 1
    { status := 206
      start := rs
      length := toLong (last - rs + 1)
      contentRange := "bytes " ++ toString rs ++ "-" ++ toString last ++ "/" ++ toString total }

/-! ### The stream -/

structure GetFileRequest where
  offset : ℤ := 0
  length : ℤ := 0

structure GetFileResponse where
  success : Bool
  error : String := ""
  data : Bytes
  totalSize : ℤ := 0
  rangeLength : ℤ := 0
  ranged : Bool := false

/-- What a stream ends with. -/
inductive GrpcStatus where
  | ok
  | cancelled
  | failed (message : String)

/-- What the core sends. -/
structure Stream where
  frames : List GetFileResponse
  status : GrpcStatus

section Download

variable {σ : Type} (onMeta : σ → GetFileResponse → σ × Bool) (onChunk : σ → Bytes → σ × Bool)

/-- The loop of `streamFileDownload`: what the callbacks leave, and the error of
a frame that carries one. -/
def readLoop : (first : Bool) → σ → List GetFileResponse → σ × Option String
  | _, s, [] => (s, none)
  | first, s, f :: fs =>
    if !f.success then (s, some f.error)
    else
      let heard := if first then onMeta s f else (s, true)
      if !heard.2 then (heard.1, none)
      else if f.data.isEmpty then readLoop false heard.1 fs
      else
        let taken := onChunk heard.1 f.data
        if !taken.2 then (taken.1, none) else readLoop false taken.1 fs

/-- `grpc_client_wrapper.cpp`, `streamFileDownload`: an error, or none. -/
def streamFileDownload (s : σ) (stream : Stream) : σ × Option String :=
  match readLoop onMeta onChunk true s stream.frames, stream.status with
  | (s, some err), _ => (s, some err)
  | (s, none), .failed message => (s, some message)
  | (s, none), _ => (s, none)

end Download

/-! ### The answer -/

/-- The status line and the headers of an answer with content. -/
structure Head where
  status : ℕ
  nosniff : Bool := true
  contentType : Option String := none
  acceptRanges : Bool := false
  contentRange : String := ""
  contentLength : Option ℤ := none

/-- The variables that the callbacks share, and what was written. -/
structure Sink where
  head : Option Head := none
  skip : ℤ := 0
  remaining : ℤ := -1
  written : Bytes := []

/-- `getContent`, `onMeta`. -/
def onMeta (hasRange : Bool) (rs re : ℤ) (ctype : String) (s : Sink) (f : GetFileResponse) :
    Sink × Bool :=
  let planned := planRange hasRange rs re f.totalSize
  let plan : RangePlan :=
    -- an older core that windows but reports no total
    if hasRange && f.totalSize ≤ 0 && f.ranged then
      let length := if 0 < f.rangeLength then f.rangeLength else -1
      { status := 206
        start := rs
        length := length
        contentRange := "bytes " ++ toString rs ++ "-" ++
          (if 0 < length then toString (toLong (rs + length - 1)) else "") ++ "/*" }
    else planned
  if plan.status = 416 then
    ({ s with head := some { status := 416, contentRange := plan.contentRange, contentLength := some 0 } },
      false)
  else
    ({ s with
        skip := if plan.status = 206 && !f.ranged then rs else s.skip
        remaining := plan.length
        head := some
          { status := if plan.status = 206 then 206 else 200
            contentType := some ctype
            acceptRanges := true
            contentRange := plan.contentRange
            contentLength := if 0 ≤ plan.length then some plan.length else none } },
      true)

/-- `getContent`, `onChunk`. -/
def onChunk (s : Sink) (chunk : Bytes) : Sink × Bool :=
  let d := if 0 < s.skip then min s.skip chunk.length else 0
  let p := chunk.drop d.toNat
  let skip := s.skip - d
  if 0 < s.skip && (p.length : ℤ) = 0 then ({ s with skip := skip }, true)
  else
    let n := if 0 ≤ s.remaining then min (p.length : ℤ) s.remaining else p.length
    let written := s.written ++ p.take n.toNat
    if 0 ≤ s.remaining then
      ({ s with skip := skip, remaining := s.remaining - n, written := written },
        !(s.remaining - n ≤ 0))
    else ({ s with skip := skip, written := written }, true)

inductive ContentAnswer where
  | error (resp : Response)
  | content (head : Head) (body : Bytes)

/-- Whether the request is served by range: an end before the start is not. -/
def usesRange : Option (ℤ × ℤ) → Bool
  | none => false
  | some (rs, re) => !(0 ≤ re && re < rs)

/-- What `getContent` asks the core for. -/
def fileRequest (range : Option (ℤ × ℤ)) : GetFileRequest :=
  match range with
  | none => {}
  | some (rs, re) =>
    if !usesRange range then {}
    else { offset := rs, length := if 0 ≤ re then toLong (re - rs + 1) else 0 }

/-- `getContent`; `playbackMime` is the ticket's, `core` the stream of a request. -/
def getContent (playbackMime rangeHeader : String) (core : GetFileRequest → Stream) : ContentAnswer :=
  let range := parseRange rangeHeader
  let ctype := if playbackMime == "" then "application/octet-stream" else playbackMime
  let bounds := range.getD (-1, -1)
  let result := streamFileDownload (onMeta (usesRange range) bounds.1 bounds.2 ctype) onChunk {}
    (core (fileRequest range))
  match result.1.head, result.2 with
  | none, some err => .error (mapError err)
  | none, none => .content { status := 200, contentType := some ctype, contentLength := some 0 } []
  | some head, _ => .content head result.1.written

/-! ### Trimming -/

/-- What a chunk adds while bytes are still owed. -/
theorem onChunk_spec {s : Sink} (hskip : 0 ≤ s.skip) (hremaining : 0 < s.remaining) (chunk : Bytes) :
    (onChunk s chunk).1.written =
        s.written ++ (chunk.drop s.skip.toNat).take s.remaining.toNat ∧
      (onChunk s chunk).1.skip = s.skip - min s.skip chunk.length ∧
      (onChunk s chunk).1.remaining =
        s.remaining - min ((chunk.drop s.skip.toNat).length : ℤ) s.remaining ∧
      (onChunk s chunk).1.head = s.head ∧
      (onChunk s chunk).2 = decide (0 < (onChunk s chunk).1.remaining) := by
  have hd : (if 0 < s.skip then min s.skip chunk.length else 0) = min s.skip (chunk.length : ℤ) := by
    by_cases hpos : 0 < s.skip
    · rw [if_pos hpos]
    · rw [if_neg hpos]
      omega
  have hdrop : chunk.drop (min s.skip (chunk.length : ℤ)).toNat = chunk.drop s.skip.toNat := by
    rcases le_total s.skip chunk.length with hle | hle
    · rw [min_eq_left hle]
    · rw [min_eq_right hle, List.drop_of_length_le (by omega), List.drop_of_length_le (by omega)]
  unfold onChunk
  simp only [hd, hdrop]
  by_cases hnone : (0 < s.skip && ((chunk.drop s.skip.toNat).length : ℤ) = 0) = true
  · rw [if_pos hnone]
    rw [Bool.and_eq_true, decide_eq_true_iff, decide_eq_true_iff] at hnone
    have hempty : chunk.drop s.skip.toNat = [] := List.length_eq_zero_iff.mp (by exact_mod_cast hnone.2)
    refine ⟨by simp [hempty], rfl, ?_, rfl, by simpa using hremaining⟩
    rw [hempty]
    simp
    omega
  · rw [if_neg hnone, if_pos hremaining.le, if_pos hremaining.le]
    refine ⟨?_, rfl, rfl, rfl, ?_⟩
    · rcases le_total ((chunk.drop s.skip.toNat).length : ℤ) s.remaining with hle | hle
      · rw [min_eq_left hle, List.take_of_length_le (by omega), List.take_of_length_le (by omega)]
      · rw [min_eq_right hle]
    · rw [← decide_not]
      exact decide_eq_decide.mpr not_le

/-- **What is written is the window of what was sent.** However the rest of the
stream is cut into frames, the callbacks write its bytes behind those to skip,
as many as are owed. -/
theorem readLoop_written (heard : Sink → GetFileResponse → Sink × Bool)
    (frames : List GetFileResponse) (hframes : ∀ f ∈ frames, f.success = true) (s : Sink) (hskip : 0 ≤ s.skip)
    (hremaining : 0 < s.remaining) :
    (readLoop heard onChunk false s frames).1.written =
        s.written ++ ((frames.flatMap (·.data)).drop s.skip.toNat).take s.remaining.toNat ∧
      (readLoop heard onChunk false s frames).1.head = s.head := by
  induction frames generalizing s with
  | nil => simp [readLoop]
  | cons f fs ih =>
    have hsuccess := hframes f List.mem_cons_self
    have hrest : ∀ f ∈ fs, f.success = true := fun f' hf' => hframes f' (List.mem_cons_of_mem _ hf')
    rw [readLoop, hsuccess]
    simp only [Bool.not_true, Bool.false_eq_true, ↓reduceIte]
    by_cases hempty : f.data = []
    · rw [if_pos (by simpa using hempty), List.flatMap_cons, hempty, List.nil_append]
      exact ih hrest s hskip hremaining
    · rw [if_neg (by simpa using hempty)]
      obtain ⟨hwritten, hskip', hremaining', hhead, hmore⟩ := onChunk_spec hskip hremaining f.data
      -- what the chunk leaves of the two counters
      have hk : (onChunk s f.data).1.skip.toNat = s.skip.toNat - f.data.length := by
        rw [hskip']
        omega
      have hr : (onChunk s f.data).1.remaining.toNat =
          s.remaining.toNat - (f.data.drop s.skip.toNat).length := by
        rw [hremaining']
        omega
      have hsplit : ((f :: fs).flatMap (·.data)).drop s.skip.toNat =
          f.data.drop s.skip.toNat ++
            (fs.flatMap (·.data)).drop (onChunk s f.data).1.skip.toNat := by
        rw [List.flatMap_cons, List.drop_append, hk]
      rw [hsplit, List.take_append, ← hr, ← List.append_assoc, ← hwritten, hmore]
      by_cases hleft : 0 < (onChunk s f.data).1.remaining
      · rw [if_neg (by simpa using hleft)]
        obtain ⟨ih₁, ih₂⟩ := ih hrest (onChunk s f.data).1 (by rw [hskip']; omega) hleft
        exact ⟨ih₁, ih₂.trans hhead⟩
      · have hzero : (onChunk s f.data).1.remaining.toNat = 0 := by omega
        rw [if_pos (by simpa using hleft), hzero, List.take_zero, List.append_nil]
        exact ⟨rfl, hhead⟩

/-! ### The answer is planned from the total -/

theorem streamFileDownload_fst {σ : Type} (onMeta : σ → GetFileResponse → σ × Bool)
    (onChunk : σ → Bytes → σ × Bool) (s : σ) (stream : Stream) :
    (streamFileDownload onMeta onChunk s stream).1 =
      (readLoop onMeta onChunk true s stream.frames).1 := by
  unfold streamFileDownload
  rcases hread : readLoop onMeta onChunk true s stream.frames with ⟨s', err⟩
  cases err with
  | some err => rfl
  | none => cases stream.status <;> rfl

/-- A first frame that is let pass is read like the others. -/
theorem readLoop_first {σ : Type} {onMeta : σ → GetFileResponse → σ × Bool}
    {onChunk : σ → Bytes → σ × Bool} {s : σ} {f : GetFileResponse} (fs : List GetFileResponse)
    (hsuccess : f.success = true) (hgo : (onMeta s f).2 = true) :
    readLoop onMeta onChunk true s (f :: fs) = readLoop onMeta onChunk false (onMeta s f).1 (f :: fs) := by
  rw [readLoop, readLoop, hsuccess]
  simp [hgo]

section Answer

variable {playbackMime rangeHeader : String} {core : GetFileRequest → Stream} {c : Bytes}

/-- The bytes a request asks the core for. -/
def window (c : Bytes) (rq : GetFileRequest) : Bytes :=
  let tail := c.drop rq.offset.toNat
  if rq.length = 0 then tail else tail.take rq.length.toNat

/-- What a core sends for the request: the total on the first frame, an `int64`,
and in any number of frames either exactly the window or all of the file. -/
structure Serves (c : Bytes) (rq : GetFileRequest) (frames : List GetFileResponse) : Prop where
  success : ∀ f ∈ frames, f.success = true
  fits : (c.length : ℤ) < 2 ^ 63
  first : ∃ f rest, frames = f :: rest ∧ f.totalSize = c.length ∧
    ((f.ranged = true ∧ frames.flatMap (·.data) = window c rq) ∨
      (f.ranged = false ∧ frames.flatMap (·.data) = c))

/-- The content type of an answer. -/
def contentType (playbackMime : String) : String :=
  if playbackMime == "" then "application/octet-stream" else playbackMime

/-- What a planned answer is headed by. -/
def headOf (plan : RangePlan) (ctype : String) : Head where
  status := if plan.status = 206 then 206 else 200
  contentType := some ctype
  acceptRanges := true
  contentRange := plan.contentRange
  contentLength := if 0 ≤ plan.length then some plan.length else none

/-- What a request does with the first frame. -/
def heardBy (playbackMime rangeHeader : String) : Sink → GetFileResponse → Sink × Bool :=
  let range := parseRange rangeHeader
  onMeta (usesRange range) (range.getD (-1, -1)).1 (range.getD (-1, -1)).2 (contentType playbackMime)

/-- The callbacks' variables after the stream. -/
def sinkOf (playbackMime rangeHeader : String) (core : GetFileRequest → Stream) : Sink :=
  (streamFileDownload (heardBy playbackMime rangeHeader) onChunk {}
    (core (fileRequest (parseRange rangeHeader)))).1

/-- Once a head was sent, no error of the stream changes the answer. -/
theorem getContent_of_head {head : Head} (h : (sinkOf playbackMime rangeHeader core).head = some head) :
    getContent playbackMime rangeHeader core =
      .content head (sinkOf playbackMime rangeHeader core).written := by
  unfold getContent
  dsimp only
  split
  · rename_i hnone _
    exact absurd (hnone.symm.trans h) (by simp)
  · rename_i hnone _
    exact absurd (hnone.symm.trans h) (by simp)
  · rename_i head' hhead
    rw [← Option.some.inj (hhead.symm.trans h)]
    rfl

/-- The plan of an answer to a core that reports the total. -/
def planOf (rangeHeader : String) (total : ℤ) : RangePlan :=
  let range := parseRange rangeHeader
  planRange (usesRange range) (range.getD (-1, -1)).1 (range.getD (-1, -1)).2 total

/-- What the first frame settles where it reports the total. -/
theorem heardBy_of_total {f : GetFileResponse} (htotal : 0 < f.totalSize) (s : Sink) :
    heardBy playbackMime rangeHeader s f =
      if (planOf rangeHeader f.totalSize).status = 416 then
        ({ s with head := some { status := 416
                                 contentRange := (planOf rangeHeader f.totalSize).contentRange
                                 contentLength := some 0 } }, false)
      else
        ({ s with
            skip := if (planOf rangeHeader f.totalSize).status = 206 && !f.ranged then
              ((parseRange rangeHeader).getD (-1, -1)).1 else s.skip
            remaining := (planOf rangeHeader f.totalSize).length
            head := some (headOf (planOf rangeHeader f.totalSize) (contentType playbackMime)) },
          true) := by
  unfold heardBy onMeta planOf
  simp only [not_le.mpr htotal, decide_false, Bool.and_false, Bool.false_and, Bool.false_eq_true,
    ↓reduceIte]
  rfl

section Plan

variable {f : GetFileResponse} {rest : List GetFileResponse}
  (hframes : (core (fileRequest (parseRange rangeHeader))).frames = f :: rest)
  (hsuccess : ∀ f' ∈ f :: rest, f'.success = true) (htotal : 0 < f.totalSize)
include hframes hsuccess htotal

/-- A start behind the end is refused without a byte. -/
theorem getContent_of_refusal (hstatus : (planOf rangeHeader f.totalSize).status = 416) :
    getContent playbackMime rangeHeader core =
      .content { status := 416
                 contentRange := (planOf rangeHeader f.totalSize).contentRange
                 contentLength := some 0 } [] := by
  have hsink : sinkOf playbackMime rangeHeader core =
      { head := some { status := 416
                       contentRange := (planOf rangeHeader f.totalSize).contentRange
                       contentLength := some 0 } } := by
    rw [sinkOf, streamFileDownload_fst, hframes, readLoop, hsuccess f List.mem_cons_self,
      heardBy_of_total htotal, if_pos hstatus]
    rfl
  rw [getContent_of_head (by rw [hsink]), hsink]

/-- An answer that is not refused carries the planned number of the bytes sent,
from the start of the range where the core has ignored it. -/
theorem getContent_of_plan (playbackMime : String) (hstatus : (planOf rangeHeader f.totalSize).status ≠ 416)
    (hlength : 0 < (planOf rangeHeader f.totalSize).length) {skip : ℤ} (hskip : 0 ≤ skip)
    (hskips : (if (planOf rangeHeader f.totalSize).status = 206 && !f.ranged then
      ((parseRange rangeHeader).getD (-1, -1)).1 else 0) = skip) :
    getContent playbackMime rangeHeader core =
      .content (headOf (planOf rangeHeader f.totalSize) (contentType playbackMime))
        ((((f :: rest).flatMap (·.data)).drop skip.toNat).take
          (planOf rangeHeader f.totalSize).length.toNat) := by
  have hheard : heardBy playbackMime rangeHeader {} f =
      ({ head := some (headOf (planOf rangeHeader f.totalSize) (contentType playbackMime))
         skip := skip
         remaining := (planOf rangeHeader f.totalSize).length }, true) := by
    rw [heardBy_of_total htotal, if_neg hstatus]
    simp only [hskips]
  have hgo : (heardBy playbackMime rangeHeader {} f).2 = true := by rw [hheard]
  have hread := readLoop_written (heardBy playbackMime rangeHeader) (f :: rest) hsuccess
    (heardBy playbackMime rangeHeader {} f).1 (by rw [hheard]; exact hskip)
    (by rw [hheard]; exact hlength)
  rw [← readLoop_first rest (hsuccess f List.mem_cons_self) hgo, ← hframes, ← streamFileDownload_fst,
    ← sinkOf, hheard] at hread
  rw [getContent_of_head hread.2, hread.1, hframes]
  rfl

end Plan

/-! ### The answer is exact -/

/-- The last byte a range reaches. -/
def lastByte (c : Bytes) (re : ℤ) : ℤ := if 0 ≤ re then min re (c.length - 1) else c.length - 1

/-- The bytes of `c` from `rs` to `last`, both included. -/
def slice (c : Bytes) (rs last : ℤ) : Bytes := (c.drop rs.toNat).take (last - rs + 1).toNat

theorem length_slice {rs last : ℤ} (hrs : 0 ≤ rs) (hle : rs ≤ last) (hlast : last < c.length) :
    ((slice c rs last).length : ℤ) = last - rs + 1 := by
  rw [slice, List.length_take, List.length_drop]
  omega

variable {rs re : ℤ}

theorem usesRange_eq (h : re < 0 ∨ rs ≤ re) : usesRange (some (rs, re)) = true := by
  unfold usesRange
  rw [Bool.not_eq_true', Bool.and_eq_false_iff, decide_eq_false_iff_not, decide_eq_false_iff_not]
  omega

/-- A range that is used is planned for, whatever the file holds. -/
theorem not_whole (hopen : re < 0 ∨ rs ≤ re) (hpos : 0 < c.length) :
    ¬(!usesRange (some (rs, re)) || decide ((c.length : ℤ) ≤ 0)) = true := by
  have hnonempty : ¬(c.length : ℤ) ≤ 0 := by omega
  rw [usesRange_eq hopen, decide_eq_false hnonempty]
  decide

/-- A satisfiable range is planned from its start to its last byte. -/
theorem planOf_range (hparse : parseRange rangeHeader = some (rs, re)) (hopen : re < 0 ∨ rs ≤ re)
    (hfits : (c.length : ℤ) < 2 ^ 63) (hlt : rs < c.length) :
    planOf rangeHeader c.length =
      { status := 206
        start := rs
        length := lastByte c re - rs + 1
        contentRange := "bytes " ++ toString rs ++ "-" ++ toString (lastByte c re) ++ "/" ++
          toString (c.length : ℤ) } := by
  have hrs := (parseRange_start hparse).1
  have hlong : toLong (lastByte c re - rs + 1) = lastByte c re - rs + 1 := by
    refine toLong_eq ?_ ?_
    · unfold lastByte
      split_ifs <;> omega
    · unfold lastByte
      split_ifs <;> omega
  have hsome := not_whole hopen (show 0 < c.length by omega)
  rw [planOf, hparse]
  unfold planRange
  rw [Option.getD_some, if_neg hsome, if_neg (by omega)]
  show ({ status := 206
          start := rs
          length := toLong (lastByte c re - rs + 1)
          contentRange := _ } : RangePlan) = _
  rw [hlong]
  rfl

/-- A range that starts behind the end is refused. -/
theorem planOf_refusal (hparse : parseRange rangeHeader = some (rs, re)) (hopen : re < 0 ∨ rs ≤ re)
    (hpos : 0 < c.length) (hle : (c.length : ℤ) ≤ rs) :
    planOf rangeHeader c.length =
      { status := 416, contentRange := "bytes */" ++ toString (c.length : ℤ) } := by
  have hsome := not_whole hopen hpos
  rw [planOf, hparse]
  unfold planRange
  rw [Option.getD_some, if_neg hsome, if_pos hle]

theorem planOf_whole (hnone : usesRange (parseRange rangeHeader) = false) (hpos : 0 < c.length) :
    planOf rangeHeader c.length = { length := c.length } := by
  have hlt : (0 : ℤ) < c.length := by omega
  rw [planOf, hnone]
  unfold planRange
  rw [if_pos (by rfl), if_pos hlt]

/-- Whether or not the core has windowed, what is cut out of what it sent is the
slice. -/
theorem cut_eq_slice {D : Bytes} {ranged : Bool} (hrs : 0 ≤ rs) (hopen : re < 0 ∨ rs ≤ re)
    (hend : re < 2 ^ 63 - 1)
    (hsent : (ranged = true ∧ D = window c (fileRequest (some (rs, re)))) ∨ (ranged = false ∧ D = c)) :
    (D.drop (if ranged then 0 else rs).toNat).take (lastByte c re - rs + 1).toNat =
      slice c rs (lastByte c re) := by
  rcases hsent with ⟨hranged, hD⟩ | ⟨hranged, hD⟩
  · rw [hranged, if_pos rfl, hD, Int.toNat_zero, List.drop_zero, window, fileRequest,
      usesRange_eq hopen]
    simp only [Bool.not_true, Bool.false_eq_true, ↓reduceIte]
    by_cases hre : 0 ≤ re
    · have hlong : toLong (re - rs + 1) = re - rs + 1 := toLong_eq (by omega) (by omega)
      have hle : (lastByte c re - rs + 1).toNat ≤ (re - rs + 1).toNat := by
        rw [lastByte, if_pos hre]
        omega
      rw [if_pos hre, hlong, if_neg (by omega), List.take_take, min_eq_left hle]
      rfl
    · rw [if_neg hre, if_pos rfl]
      rfl
  · rw [hranged, hD]
    rfl

/-- **An answer carries exactly the range.** For every file that is not empty, an
accepted range that starts behind the end is refused with an empty body, any
other is answered with its bytes, a length and a content range that name them;
and without an accepted range the whole file is answered. -/
theorem getContent_ranges (hc : c ≠ [])
    (hcore : Serves c (fileRequest (parseRange rangeHeader))
      (core (fileRequest (parseRange rangeHeader))).frames)
    (hend : ∀ rs re, parseRange rangeHeader = some (rs, re) → re < 2 ^ 63 - 1) :
    (∀ rs re, parseRange rangeHeader = some (rs, re) → re < 0 ∨ rs ≤ re →
      (c.length ≤ rs → ∃ head, getContent playbackMime rangeHeader core = .content head [] ∧
        head.status = 416 ∧ head.contentLength = some 0) ∧
      (rs < c.length → ∃ head,
        getContent playbackMime rangeHeader core = .content head (slice c rs (lastByte c re)) ∧
        head.status = 206 ∧ head.contentLength = some ((slice c rs (lastByte c re)).length : ℤ) ∧
        head.contentRange = "bytes " ++ toString rs ++ "-" ++ toString (lastByte c re) ++ "/" ++
          toString (c.length : ℤ))) ∧
    (parseRange rangeHeader = none → ∃ head,
      getContent playbackMime rangeHeader core = .content head c ∧
      head.status = 200 ∧ head.contentLength = some (c.length : ℤ)) := by
  obtain ⟨f, rest, hframes, htotal, hsent⟩ := hcore.first
  have hpos : 0 < c.length := List.length_pos_iff.mpr hc
  have hsuccess : ∀ f' ∈ f :: rest, f'.success = true := by
    rw [← hframes]
    exact hcore.success
  have htotal' : 0 < f.totalSize := by omega
  refine ⟨fun rs re hparse hopen => ⟨fun hle => ?_, fun hlt => ?_⟩, fun hnone => ?_⟩
  · have hplan := planOf_refusal hparse hopen hpos hle
    rw [← htotal] at hplan
    exact ⟨_, getContent_of_refusal hframes hsuccess htotal' (by rw [hplan]), rfl, rfl⟩
  · have hplan := planOf_range hparse hopen hcore.fits hlt
    have hrs := (parseRange_start hparse).1
    have hle : rs ≤ lastByte c re ∧ lastByte c re < c.length := by
      unfold lastByte
      split_ifs <;> omega
    have hlength := length_slice hrs hle.1 hle.2
    rw [← htotal] at hplan
    rw [hparse] at hsent
    have hskip : 0 ≤ if f.ranged then 0 else rs := by split_ifs <;> omega
    have hskips : (if (planOf rangeHeader f.totalSize).status = 206 && !f.ranged then
        ((parseRange rangeHeader).getD (-1, -1)).1 else 0) = if f.ranged then 0 else rs := by
      rw [hplan, hparse]
      cases f.ranged <;> rfl
    have hanswer := getContent_of_plan hframes hsuccess htotal' playbackMime
      (by rw [hplan]; exact of_decide_eq_false rfl) (by rw [hplan]; dsimp only; omega) hskip hskips
    rw [hplan, ← hframes, hparse, htotal] at hanswer
    dsimp only at hanswer
    rw [cut_eq_slice hrs hopen (hend rs re hparse) hsent] at hanswer
    refine ⟨_, hanswer, rfl, ?_, rfl⟩
    rw [hlength]
    exact if_pos (by dsimp only; omega)
  · have hwhole : usesRange (parseRange rangeHeader) = false := by rw [hnone]; rfl
    have hplan := planOf_whole hwhole hpos
    rw [← htotal] at hplan
    have hskips : (if (planOf rangeHeader f.totalSize).status = 206 && !f.ranged then
        ((parseRange rangeHeader).getD (-1, -1)).1 else 0) = 0 := by
      rw [hplan]
      rfl
    have hanswer := getContent_of_plan hframes hsuccess htotal' playbackMime
      (by rw [hplan]; exact of_decide_eq_false rfl) (by rw [hplan]; exact htotal') le_rfl hskips
    have hall : (f :: rest).flatMap (·.data) = c := by
      rw [← hframes]
      rcases hsent with ⟨-, hsent⟩ | ⟨-, hsent⟩
      · rw [hsent, hnone]
        rfl
      · exact hsent
    rw [hplan, hall, Int.toNat_zero, List.drop_zero, htotal, Int.toNat_natCast, List.take_length] at hanswer
    have hle : (0 : ℤ) ≤ c.length := Int.natCast_nonneg _
    refine ⟨_, hanswer, rfl, ?_⟩
    dsimp only [headOf]
    rw [if_pos hle]

end Answer

/-- Ten bytes, streamed from the start in three frames by a core that ignores
the range. -/
def tenBytes : Bytes := [0, 1, 2, 3, 4, 5, 6, 7, 8, 9]

def olderCore (_ : GetFileRequest) : Stream where
  frames := [⟨true, "", [0, 1, 2], 10, 0, false⟩, ⟨true, "", [3, 4, 5, 6], 0, 0, false⟩,
    ⟨true, "", [7, 8, 9], 0, 0, false⟩]
  status := .ok

theorem getContent_ranges_olderCore : ∃ head,
    getContent "" "bytes=2-5" olderCore = .content head [2, 3, 4, 5] ∧ head.status = 206 ∧
      head.contentRange = "bytes 2-5/10" := by
  have hparse : parseRange "bytes=2-5" = some (2, 5) := by decide +kernel
  have hserves : Serves tenBytes (fileRequest (parseRange "bytes=2-5"))
      (olderCore (fileRequest (parseRange "bytes=2-5"))).frames :=
    ⟨by simp [olderCore], by decide, _, _, rfl, rfl, .inr ⟨rfl, rfl⟩⟩
  have hend : ∀ rs re, parseRange "bytes=2-5" = some (rs, re) → re < 2 ^ 63 - 1 := by
    intro rs re h
    obtain ⟨-, rfl⟩ := Prod.mk.inj (Option.some.inj (hparse.symm.trans h))
    decide
  obtain ⟨head, hanswer, hstatus, -, hrange⟩ :=
    ((getContent_ranges (by decide) hserves hend).1 2 5 hparse (.inr (by decide))).2 (by decide)
  exact ⟨head, hanswer, hstatus, hrange⟩

end Ranges
end HttpBridge
