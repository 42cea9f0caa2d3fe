/-
# Base64url

The PKCE verifiers and challenges and the handles of sessions are written by a
loop of the proxy's own (`http_server.cpp`, `base64UrlEncode`); tokens go
through Poco's codec, which pads, and a wrapper that takes the padding off and
puts it back (`jwt.h`). Both write the unpadded text of RFC 4648
(`base64UrlEncode_eq`, `b64urlEncode_eq`), so they agree, and either's text is
read back (`b64url_agree`).
-/
import HttpBridge.Net.Base64
import Mathlib.Data.List.DropRight
import Mathlib.Data.Nat.Bitwise

namespace HttpBridge

open Net

/-! ### The loop -/

/-- `tbl`. -/
def base64UrlTable : List Char :=
  "ABCDEFGHIJKLMNOPQRSTUVWXYZabcdefghijklmnopqrstuvwxyz0123456789-_".toList

def tbl (i : ℕ) : Char := base64UrlTable.getD i 'A'

/-- What one pass of the loop appends. -/
def encodeGroup (data : List UInt8) (i : ℕ) : List Char :=
  let vn := ((data.getD i 0).toNat <<< 16, 1)
  let vn := if i + 1 < data.length then (vn.1 ||| (data.getD (i + 1) 0).toNat <<< 8, 2) else vn
  let vn := if i + 2 < data.length then (vn.1 ||| (data.getD (i + 2) 0).toNat, 3) else vn
  [tbl ((vn.1 >>> 18) &&& 0x3f), tbl ((vn.1 >>> 12) &&& 0x3f)] ++
    (if vn.2 ≥ 2 then [tbl ((vn.1 >>> 6) &&& 0x3f)] else []) ++
    (if vn.2 ≥ 3 then [tbl (vn.1 &&& 0x3f)] else [])

/-- The loop from `i` on. -/
def encodeGroups (data : List UInt8) (i : ℕ) : List Char :=
  if i < data.length then encodeGroup data i ++ encodeGroups data (i + 3) else []
termination_by data.length - i

/-- `http_server.cpp`, `base64UrlEncode`. -/
def base64UrlEncode (data : List UInt8) : String := String.ofList (encodeGroups data 0)

theorem base64UrlTable_eq : base64UrlTable = Base64.alphabet := by decide +kernel

theorem tbl_and_eq (v k : ℕ) : tbl ((v >>> k) &&& 0x3f) = Base64.char (v / 2 ^ k % 64) := by
  have hmod : (v >>> k) &&& 0x3f = v / 2 ^ k % 64 := by
    rw [Nat.shiftRight_eq_div_pow]
    exact Nat.and_two_pow_sub_one_eq_mod _ 6
  rw [hmod, tbl, base64UrlTable_eq]
  rfl

section Octets
variable (a b c : UInt8)

theorem or_eq_word : a.toNat <<< 16 ||| b.toNat <<< 8 ||| c.toNat = Base64.word a b c := by
  have ha := a.toNat_lt
  have hb := b.toNat_lt
  have hc := c.toNat_lt
  have hhigh : a.toNat <<< 16 ||| b.toNat <<< 8 = (a.toNat <<< 8 + b.toNat) <<< 8 := by
    have hlt : b.toNat <<< 8 < 2 ^ 16 := by
      rw [Nat.shiftLeft_eq]
      omega
    rw [← Nat.shiftLeft_add_eq_or_of_lt hlt]
    simp only [Nat.shiftLeft_eq]
    omega
  rw [hhigh, ← Nat.shiftLeft_add_eq_or_of_lt hc, Base64.word]
  simp only [Nat.shiftLeft_eq]
  omega

/-- The digits of a word as the loop takes them. -/
theorem digits_of_word : Base64.group a b c =
    [tbl ((Base64.word a b c >>> 18) &&& 0x3f), tbl ((Base64.word a b c >>> 12) &&& 0x3f),
      tbl ((Base64.word a b c >>> 6) &&& 0x3f), tbl (Base64.word a b c &&& 0x3f)] := by
  have hlt := Base64.word_lt a b c
  have hhigh : Base64.word a b c / 2 ^ 18 % 64 = Base64.word a b c / 2 ^ 18 :=
    Nat.mod_eq_of_lt (by omega)
  have hlow := tbl_and_eq (Base64.word a b c) 0
  rw [Nat.shiftRight_zero, Nat.pow_zero, Nat.div_one] at hlow
  rw [tbl_and_eq, tbl_and_eq, tbl_and_eq, hlow, hhigh]
  rfl

end Octets

/-- A pass looks at what is left of the data only. -/
theorem encodeGroup_drop (data : List UInt8) (i : ℕ) :
    encodeGroup data i = encodeGroup (data.drop i) 0 := by
  have hget : ∀ j, (data.drop i).getD j 0 = data.getD (i + j) 0 := fun j => by
    simp [List.getD_eq_getElem?_getD]
  have hlength : ∀ j, (j < (data.drop i).length) = (i + j < data.length) := fun j => by
    rw [List.length_drop, eq_iff_iff]
    omega
  simp only [encodeGroup, hget, hlength, Nat.zero_add, Nat.add_zero]

theorem encodeGroup_three (a b c : UInt8) (rest : List UInt8) :
    encodeGroup (a :: b :: c :: rest) 0 = Base64.group a b c := by
  rw [digits_of_word, ← or_eq_word]
  simp [encodeGroup]

theorem encodeGroup_two (a b : UInt8) : encodeGroup [a, b] 0 = (Base64.group a b 0).take 3 := by
  rw [digits_of_word, ← or_eq_word]
  simp [encodeGroup]

theorem encodeGroup_one (a : UInt8) : encodeGroup [a] 0 = (Base64.group a 0 0).take 2 := by
  rw [digits_of_word, ← or_eq_word]
  simp [encodeGroup]

theorem encodeGroups_eq (data : List UInt8) (i : ℕ) :
    encodeGroups data i = Base64.unpadded (data.drop i) := by
  induction i using encodeGroups.induct data with
  | case1 i hi ih =>
    rw [encodeGroups, if_pos hi, ih, ← List.drop_drop, encodeGroup_drop]
    have hne : data.drop i ≠ [] := by
      intro h
      have hle := List.drop_eq_nil_iff.mp h
      omega
    generalize data.drop i = rest at hne
    match rest with
    | [] => exact absurd rfl hne
    | [a] => rw [encodeGroup_one]; exact List.append_nil _
    | [a, b] => rw [encodeGroup_two]; exact List.append_nil _
    | a :: b :: c :: rest => rw [encodeGroup_three]; rfl
  | case2 i hi =>
    rw [encodeGroups, if_neg hi, List.drop_eq_nil_of_le (not_lt.mp hi)]
    rfl

theorem base64UrlEncode_eq (data : List UInt8) :
    base64UrlEncode data = String.ofList (Base64.unpadded data) := by
  rw [base64UrlEncode, encodeGroups_eq, List.drop_zero]

/-! ### Poco's codec -/

/-- `Poco::Base64Encoder` without line breaks, and `Poco::Base64Decoder`, which
throws where it gives nothing; both with `BASE64_URL_ENCODING`. -/
structure Base64Library where
  encode : List UInt8 → String
  decode : String → Option (List UInt8)

/-- They are the base 64 of RFC 4648, with padding. -/
structure Base64Library.Standard (P : Base64Library) : Prop where
  encode_eq : ∀ s, (P.encode s).toList = Base64.encode s
  decode_eq : ∀ t s, Base64.decode t.toList = some s → P.decode t = some s

section Wrapper
variable (P : Base64Library)

/-- `jwt.h`, `b64urlEncode`. -/
def b64urlEncode (s : List UInt8) : String :=
  String.ofList ((P.encode s).toList.rdropWhile (· = '='))

/-- The loop of `b64urlDecode`. -/
def padded (s : List Char) : List Char :=
  if s.length % 4 ≠ 0 then padded (s ++ ['=']) else s
termination_by (4 - s.length % 4) % 4
decreasing_by
  rw [List.length_append, List.length_singleton]
  omega

/-- `jwt.h`, `b64urlDecode`. -/
def b64urlDecode (s : String) : Option (List UInt8) := P.decode (String.ofList (padded s.toList))

theorem padded_of_length {s : List Char} {n : ℕ} (hn : n < 4) (h : (s.length + n) % 4 = 0) :
    padded s = s ++ List.replicate n '=' := by
  induction n generalizing s with
  | zero =>
    have hfull : s.length % 4 = 0 := h
    rw [padded, if_neg (not_not.mpr hfull), List.replicate_zero, List.append_nil]
  | succ n ih =>
    have hmod : s.length % 4 ≠ 0 := by omega
    have hnext : ((s ++ ['=']).length + n) % 4 = 0 := by
      rw [List.length_append, List.length_singleton, ← h]
      omega
    rw [padded, if_pos hmod, ih (by omega) hnext, List.append_assoc, List.replicate_succ]
    rfl

variable {P}

theorem rdropWhile_append_replicate {u : List Char} (hu : '=' ∉ u) (n : ℕ) :
    (u ++ List.replicate n '=').rdropWhile (· = '=') = u := by
  induction n with
  | zero =>
    rw [List.replicate_zero, List.append_nil, List.rdropWhile_eq_self_iff]
    intro hne hlast
    have hmem := List.getLast_mem hne
    rw [of_decide_eq_true hlast] at hmem
    exact hu hmem
  | succ n ih =>
    rw [List.replicate_succ', ← List.append_assoc, List.rdropWhile_concat_pos _ _ _ (by simp), ih]

theorem b64urlEncode_eq (hP : P.Standard) (s : List UInt8) :
    b64urlEncode P s = String.ofList (Base64.unpadded s) := by
  rw [b64urlEncode, hP.encode_eq, Base64.encode,
    rdropWhile_append_replicate (Base64.pad_not_mem_unpadded s)]

theorem b64urlDecode_unpadded (hP : P.Standard) (s : List UInt8) :
    b64urlDecode P (String.ofList (Base64.unpadded s)) = some s := by
  have hlt : Base64.padding s < 4 := by
    rw [Base64.padding]
    omega
  rw [b64urlDecode, String.toList_ofList,
    padded_of_length hlt (Base64.length_unpadded_add_padding s)]
  apply hP.decode_eq
  rw [String.toList_ofList]
  exact Base64.decode_encode s

/-- The two encoders agree. What they write has four characters of the alphabet
for three bytes, rounded up, and is read back as what was encoded. -/
theorem b64url_agree (hP : P.Standard) (s : List UInt8) :
    base64UrlEncode s = b64urlEncode P s ∧
      (base64UrlEncode s).toList.length = (4 * s.length + 2) / 3 ∧
      (∀ c ∈ (base64UrlEncode s).toList, c ∈ base64UrlTable) ∧
      b64urlDecode P (base64UrlEncode s) = some s := by
  rw [base64UrlEncode_eq, b64urlEncode_eq hP, String.toList_ofList, base64UrlTable_eq]
  exact ⟨rfl, Base64.length_unpadded s, fun c => Base64.mem_unpadded, b64urlDecode_unpadded hP s⟩

/-- A library that is the base 64 of RFC 4648. -/
def rfc4648 : Base64Library where
  encode s := String.ofList (Base64.encode s)
  decode t := Base64.decode t.toList

theorem rfc4648_standard : rfc4648.Standard where
  encode_eq s := by rw [rfc4648, String.toList_ofList]
  decode_eq t s h := h

theorem b64url_agree_rfc4648 :
    base64UrlEncode [0xfb, 0xff, 0x00, 0x61] = b64urlEncode rfc4648 [0xfb, 0xff, 0x00, 0x61] ∧
      (base64UrlEncode [0xfb, 0xff, 0x00, 0x61]).toList.length = 6 ∧
      (∀ c ∈ (base64UrlEncode [0xfb, 0xff, 0x00, 0x61]).toList, c ∈ base64UrlTable) ∧
      b64urlDecode rfc4648 (base64UrlEncode [0xfb, 0xff, 0x00, 0x61]) =
        some [0xfb, 0xff, 0x00, 0x61] :=
  b64url_agree rfc4648_standard [0xfb, 0xff, 0x00, 0x61]

end Wrapper

end HttpBridge
