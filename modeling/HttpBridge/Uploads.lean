/-
# Uploading a file

`putContent` reads the body of a request in pieces and writes each to the core's
stream, the first together with the target and who uploads. The reader returns
false once it gets nothing: at the end of the body, and as well where the
connection ends before it. After either the stream is half-closed, and on that
the core commits what it has.

So an upload is kept whole exactly where the body arrives whole or the stream
to the core breaks, and the core reports no success on a broken stream
(`putContent_keeps_iff`).
-/
import HttpBridge.Ranges

namespace HttpBridge
namespace Uploads

open Ranges (Bytes GrpcStatus)

structure PutFileRequest where
  uid : String := ""
  auth : Option AuthContext := none
  data : Bytes := []
  deriving DecidableEq

structure PutFileResponse where
  success : Bool
  error : String := ""

/-! ### The stream -/

/-- A call on the stream: a write, with whether it was taken, or the half-close. -/
inductive StreamCall where
  | write (rq : PutFileRequest) (taken : Bool)
  | writesDone

/-- What the core sees of a stream. -/
inductive Seen where
  | message (rq : PutFileRequest)
  | halfClose
  deriving DecidableEq

/-- A stream is broken once a write is not taken: the core sees no more of it,
nor its end. -/
def seen : List StreamCall → List Seen
  | [] => []
  | .write rq true :: calls => .message rq :: seen calls
  | .write _ false :: _ => []
  | .writesDone :: calls => .halfClose :: seen calls

/-- The lambda of `putContent`: the next piece of the body and what is left, or
nothing once a read gets nothing. -/
def nextChunk : List Bytes → Option (Bytes × List Bytes)
  | [] => none
  | piece :: pieces => if piece.isEmpty then none else some (piece, pieces)

section Upload

variable (uid : String) (auth : AuthContext) (taken : ℕ → Bool)

/-- The loop of `streamFileUpload` from its `k`-th write on: the calls it makes,
and `first` after it. -/
def writeLoop (first : Bool) (k : ℕ) : List Bytes → List StreamCall × Bool
  | [] => ([], first)
  | piece :: pieces =>
    match nextChunk (piece :: pieces) with
    | none => ([], first)
    | some (chunk, _) =>
      let rq : PutFileRequest :=
        if first then { uid := uid, auth := some auth, data := chunk } else { data := chunk }
      if !taken k then ([.write rq false], false)
      else
        let rest := writeLoop false (k + 1) pieces
        (.write rq true :: rest.1, rest.2)

/-- The calls `streamFileUpload` makes. An empty body still names the target. -/
def streamCalls (pieces : List Bytes) : List StreamCall :=
  let looped := writeLoop uid auth taken true 0 pieces
  let last : List StreamCall :=
    if looped.2 then [.write { uid := uid, auth := some auth } (taken 0)] else []
  looped.1 ++ last ++ [.writesDone]

/-- `grpc_client_wrapper.cpp`, `streamFileUpload`: the calls and the response. -/
def streamFileUpload (pieces : List Bytes) (response : PutFileResponse) (status : GrpcStatus) :
    List StreamCall × PutFileResponse :=
  (streamCalls uid auth taken pieces,
    match status with
    | .ok => response
    | .cancelled => ⟨false, "Cancelled"⟩
    | .failed message => ⟨false, message⟩)

/-- `putContent`: what the core sees, and the answer. -/
def putContent (pieces : List Bytes) (response : PutFileResponse) (status : GrpcStatus) :
    List Seen × Response :=
  let r := streamFileUpload uid auth taken pieces response status
  (seen r.1, if r.2.success then { status := 204, body := .empty } else mapError r.2.error)

end Upload

/-! ### The calls, by the messages -/

/-- The messages of an upload: the first names the target and who uploads. -/
def messages (uid : String) (auth : AuthContext) : List Bytes → List PutFileRequest
  | [] => [{ uid := uid, auth := some auth }]
  | piece :: pieces =>
    { uid := uid, auth := some auth, data := piece } :: pieces.map fun d => { data := d }

/-- Writing messages from the `k`-th write on, until one is not taken. -/
def writes (taken : ℕ → Bool) : ℕ → List PutFileRequest → List StreamCall
  | _, [] => []
  | k, m :: ms => if taken k then .write m true :: writes taken (k + 1) ms else [.write m false]

section Calls

variable {uid : String} {auth : AuthContext} {taken : ℕ → Bool}

theorem flatMap_messages (pieces : List Bytes) :
    (messages uid auth pieces).flatMap (·.data) = pieces.flatten := by
  cases pieces with
  | nil => rfl
  | cons piece pieces =>
    rw [messages, List.flatMap_cons, List.flatMap_map, List.flatten_cons]
    simp

/-- Only the first message names the target and who uploads. -/
theorem messages_eq_cons (uid : String) (auth : AuthContext) (pieces : List Bytes) :
    ∃ first rest, messages uid auth pieces = first :: rest ∧ first.uid = uid ∧
      first.auth = some auth ∧ ∀ m ∈ rest, m.uid = "" ∧ m.auth = none := by
  cases pieces with
  | nil => exact ⟨_, _, rfl, rfl, rfl, nofun⟩
  | cons piece pieces =>
    refine ⟨_, _, rfl, rfl, rfl, fun m hm => ?_⟩
    obtain ⟨d, -, rfl⟩ := List.mem_map.mp hm
    exact ⟨rfl, rfl⟩

theorem length_messages (pieces : List Bytes) :
    (messages uid auth pieces).length = max 1 pieces.length := by
  cases pieces with
  | nil => rfl
  | cons piece pieces =>
    rw [messages, List.length_cons, List.length_map, List.length_cons]
    omega

theorem nextChunk_cons {piece : Bytes} (h : piece ≠ []) (pieces : List Bytes) :
    nextChunk (piece :: pieces) = some (piece, pieces) := by
  rw [nextChunk, if_neg (by simpa using h)]

/-- After the first write, each piece is a message of its own. -/
theorem writeLoop_later (pieces : List Bytes) (h : ∀ p ∈ pieces, p ≠ []) (k : ℕ) :
    writeLoop uid auth taken false k pieces =
      (writes taken k (pieces.map fun d => { data := d }), false) := by
  induction pieces generalizing k with
  | nil => rfl
  | cons piece pieces ih =>
    have hrest := ih (fun p hp => h p (List.mem_cons_of_mem _ hp)) (k + 1)
    rw [writeLoop, nextChunk_cons (h piece List.mem_cons_self), List.map_cons, writes]
    cases taken k with
    | false => rfl
    | true => simp [hrest]

/-- **The calls are the messages, as far as they are taken, and the half-close.** -/
theorem streamCalls_eq (pieces : List Bytes) (h : ∀ p ∈ pieces, p ≠ []) :
    streamCalls uid auth taken pieces = writes taken 0 (messages uid auth pieces) ++ [.writesDone] := by
  cases pieces with
  | nil =>
    rw [streamCalls, messages, writes, writes]
    cases taken 0 <;> rfl
  | cons piece pieces =>
    have hrest : ∀ p ∈ pieces, p ≠ [] := fun p hp => h p (List.mem_cons_of_mem _ hp)
    rw [streamCalls, writeLoop, nextChunk_cons (h piece List.mem_cons_self), messages, writes]
    cases taken 0 with
    | false => rfl
    | true => simp [writeLoop_later pieces hrest]

/-- A stream that takes every write is seen whole. -/
theorem seen_of_taken (ms : List PutFileRequest) (k : ℕ) (h : ∀ i < ms.length, taken (k + i) = true) :
    seen (writes taken k ms ++ [.writesDone]) = ms.map .message ++ [.halfClose] := by
  induction ms generalizing k with
  | nil => rfl
  | cons m ms ih =>
    have hk : taken k = true := h 0 (by simp)
    have hrest : ∀ i < ms.length, taken (k + 1 + i) = true := fun i hi => by
      have hnext := h (i + 1) (by simpa using hi)
      rwa [show k + 1 + i = k + (i + 1) by omega]
    rw [writes, if_pos hk, List.cons_append, seen, ih (k + 1) hrest]
    rfl

/-- A broken stream is not seen to end. -/
theorem seen_of_broken (ms : List PutFileRequest) (k : ℕ)
    (h : ∃ i < ms.length, taken (k + i) = false) :
    .halfClose ∉ seen (writes taken k ms ++ [.writesDone]) := by
  induction ms generalizing k with
  | nil =>
    obtain ⟨i, hi, -⟩ := h
    exact absurd hi (Nat.not_lt_zero i)
  | cons m ms ih =>
    rw [writes]
    by_cases hk : taken k = true
    · have hrest : ∃ i < ms.length, taken (k + 1 + i) = false := by
        obtain ⟨i, hi, hbroken⟩ := h
        cases i with
        | zero => exact absurd hbroken (by rw [Nat.add_zero, hk]; decide)
        | succ i =>
          refine ⟨i, by simpa using hi, ?_⟩
          rwa [show k + 1 + i = k + (i + 1) by omega]
      rw [if_pos hk, List.cons_append, seen, List.mem_cons, not_or]
      exact ⟨nofun, ih (k + 1) hrest⟩
    · rw [if_neg hk]
      exact List.not_mem_nil

end Calls

/-! ### When an upload keeps its body -/

/-- How a body arrives: in pieces, up to its end or to that of the connection. -/
structure Arrival (body : Bytes) where
  pieces : List Bytes
  nonempty : ∀ p ∈ pieces, p ≠ []
  arrived : pieces.flatten <+: body

/-- What is owed to an upload: a success means that the core saw the whole body
and then its end, with the target and the uploader on the first message only;
and of a body that was cut off the core sees no end. -/
structure KeepsBody {body : Bytes} (uid : String) (auth : AuthContext) (a : Arrival body)
    (r : List Seen × Response) : Prop where
  stored : r.2.status = 204 → ∃ first rest,
    r.1 = (first :: rest).map .message ++ [.halfClose] ∧
    (first :: rest).flatMap (·.data) = body ∧
    first.uid = uid ∧ first.auth = some auth ∧ ∀ m ∈ rest, m.uid = "" ∧ m.auth = none
  cut : a.pieces.flatten ≠ body → .halfClose ∉ r.1

theorem mapError_ne_204 (err : String) : (mapError err).status ≠ 204 := by
  show httpStatusForCoreError err ≠ 204
  unfold httpStatusForCoreError
  split_ifs <;> decide

section Keeps

variable {body : Bytes} {uid : String} {auth : AuthContext} {taken : ℕ → Bool} (a : Arrival body)
  {response : PutFileResponse} {status : GrpcStatus}

theorem putContent_seen : (putContent uid auth taken a.pieces response status).1 =
    seen (writes taken 0 (messages uid auth a.pieces) ++ [.writesDone]) := by
  rw [← streamCalls_eq a.pieces a.nonempty]
  rfl

theorem putContent_ok : (putContent uid auth taken a.pieces response status).2.status = 204 ↔
    status = .ok ∧ response.success = true := by
  unfold putContent streamFileUpload
  cases status with
  | ok =>
    cases hr : response.success with
    | true => simp [hr]
    | false => simpa [hr] using mapError_ne_204 _
  | cancelled => simpa using mapError_ne_204 _
  | failed message => simpa using mapError_ne_204 _

/-- A body is kept exactly where it arrives whole or the stream breaks, and the
core reports no success on a broken stream. -/
theorem putContent_keeps_iff :
    KeepsBody uid auth a (putContent uid auth taken a.pieces response status) ↔
      (a.pieces.flatten = body ∨ ∃ k < max 1 a.pieces.length, taken k = false) ∧
      (status = .ok ∧ response.success = true → ∀ k < max 1 a.pieces.length, taken k = true) := by
  have hlength : (messages uid auth a.pieces).length = max 1 a.pieces.length := length_messages a.pieces
  by_cases htaken : ∀ k < max 1 a.pieces.length, taken k = true
  · -- the core sees every message and the end of the stream
    have htaken' : ∀ i < (messages uid auth a.pieces).length, taken (0 + i) = true := fun i hi => by
      rw [Nat.zero_add]
      exact htaken i (hlength ▸ hi)
    have hseen : (putContent uid auth taken a.pieces response status).1 =
        (messages uid auth a.pieces).map .message ++ [.halfClose] := by
      rw [putContent_seen, seen_of_taken _ 0 htaken']
    constructor
    · intro h
      refine ⟨.inl ?_, fun _ => htaken⟩
      by_contra hcut
      have hmem := h.cut hcut
      rw [hseen] at hmem
      exact hmem (List.mem_append_right _ List.mem_cons_self)
    · intro h
      have hwhole : a.pieces.flatten = body := by
        rcases h.1 with hwhole | ⟨k, hk, hbroken⟩
        · exact hwhole
        · exact absurd (htaken k hk) (by rw [hbroken]; decide)
      refine ⟨fun _ => ?_, fun hcut => absurd hwhole hcut⟩
      obtain ⟨first, rest, hms, huid, hauth, hrest⟩ := messages_eq_cons uid auth a.pieces
      have hdata : (messages uid auth a.pieces).flatMap (·.data) = a.pieces.flatten :=
        flatMap_messages a.pieces
      rw [hms] at hseen hdata
      exact ⟨first, rest, hseen, hdata.trans hwhole, huid, hauth, hrest⟩
  · -- the stream breaks, and the core does not see its end
    have hbroken : ∃ k < max 1 a.pieces.length, taken k = false := by
      push Not at htaken
      obtain ⟨k, hk, hne⟩ := htaken
      exact ⟨k, hk, by simpa using hne⟩
    have hseen : .halfClose ∉ (putContent uid auth taken a.pieces response status).1 := by
      rw [putContent_seen a]
      refine seen_of_broken _ 0 ?_
      obtain ⟨k, hk, hfalse⟩ := hbroken
      exact ⟨k, hlength ▸ hk, by rwa [Nat.zero_add]⟩
    constructor
    · intro h
      refine ⟨.inr hbroken, fun hok => ?_⟩
      obtain ⟨first, rest, hall, -⟩ := h.stored ((putContent_ok a).mpr hok)
      rw [hall] at hseen
      exact absurd (List.mem_append_right _ List.mem_cons_self) hseen
    · intro h
      exact ⟨fun hok => absurd (h.2 ((putContent_ok a).mp hok)) htaken, fun _ => hseen⟩

end Keeps

/-- Of three declared bytes one arrives. -/
def cutOff : Arrival [1, 2, 3] where
  pieces := [[1]]
  nonempty := by simp
  arrived := ⟨[2, 3], rfl⟩

/-- **An upload that is cut off is committed.** -/
theorem not_putContent_keeps :
    ¬∀ (body : Bytes) (uid : String) (auth : AuthContext) (taken : ℕ → Bool) (a : Arrival body)
        (response : PutFileResponse) (status : GrpcStatus),
      KeepsBody uid auth a (putContent uid auth taken a.pieces response status) := by
  intro h
  have hkeeps := h [1, 2, 3] "f1" ⟨"ann", "acme", "", ["users"]⟩ (fun _ => true) cutOff ⟨true, ""⟩ .ok
  exact hkeeps.cut (by decide) (by decide)

end Uploads
end HttpBridge
