/-
# Base 64

The URL-safe base 64 of RFC 4648, section 5: three octets are one number of 24
bits, and the four digits of it in base 64 stand for them (`group`). Of the last
one or two octets only the digits that they reach are written (`unpadded`), and
padding characters fill the group up (`encode`).

`decode` reads padded texts back, and only those that `encode` writes: the bits
that no octet reaches are zero. So it undoes `encode` (`decode_encode`).
-/
import Mathlib.Algebra.Group.Nat.Defs
import Mathlib.Data.List.Nodup
import Mathlib.Tactic.Common

namespace Net
namespace Base64

/-- Capitals, small letters, digits, a hyphen and an underscore. -/
def alphabet : List Char :=
  (List.range' 65 26 ++ List.range' 97 26 ++ List.range' 48 10).map Char.ofNat ++ ['-', '_']

/-- The digit `i`. -/
def char (i : ℕ) : Char := alphabet.getD i 'A'

/-- What a digit stands for. -/
def index (c : Char) : Option ℕ := alphabet.idxOf? c

/-- Three octets as one number. -/
def word (a b c : UInt8) : ℕ := a.toNat * 2 ^ 16 + b.toNat * 2 ^ 8 + c.toNat

/-- Its digits. -/
def group (a b c : UInt8) : List Char :=
  [char (word a b c / 2 ^ 18), char (word a b c / 2 ^ 12 % 64), char (word a b c / 2 ^ 6 % 64),
    char (word a b c % 64)]

/-- An encoded text without its padding. -/
def unpadded : List UInt8 → List Char
  | a :: b :: c :: rest => group a b c ++ unpadded rest
  | [a, b] => (group a b 0).take 3
  | [a] => (group a 0 0).take 2
  | [] => []

/-- How many characters the last group lacks. -/
def padding (s : List UInt8) : ℕ := (3 - s.length % 3) % 3

def encode (s : List UInt8) : List Char := unpadded s ++ List.replicate (padding s) '='

/-- The octets of a whole group. -/
def readGroup (i j k l : ℕ) : List UInt8 :=
  let n := i * 2 ^ 18 + j * 2 ^ 12 + k * 2 ^ 6 + l
  [UInt8.ofNat (n / 2 ^ 16), UInt8.ofNat (n / 2 ^ 8 % 256), UInt8.ofNat (n % 256)]

def decode : List Char → Option (List UInt8)
  | [] => some []
  | a :: b :: c :: d :: rest => do
    let i ← index a
    let j ← index b
    if d ≠ '=' then
      let k ← index c
      let l ← index d
      return readGroup i j k l ++ (← decode rest)
    else if rest ≠ [] then none
    else if c ≠ '=' then
      let k ← index c
      if k % 2 ^ 2 = 0 then some ((readGroup i j k 0).take 2) else none
    else if j % 2 ^ 4 = 0 then some ((readGroup i j 0 0).take 1)
    else none
  | _ => none

/-! ### Digits -/

theorem char_eq {i : ℕ} (hi : i < 64) : ∃ h : i < alphabet.length, char i = alphabet[i] := by
  have hlength : i < alphabet.length := hi
  refine ⟨hlength, ?_⟩
  rw [char, List.getD_eq_getElem?_getD, List.getElem?_eq_getElem hlength, Option.getD_some]

theorem nodup_alphabet : alphabet.Nodup := by
  have hcodes : (alphabet.map Char.toNat).Nodup := by decide +kernel
  exact hcodes.of_map

theorem index_char (i : ℕ) (hi : i < 64) : index (char i) = some i := by
  obtain ⟨hlength, hchar⟩ := char_eq hi
  rw [index, List.idxOf?_eq_some_iff]
  refine ⟨hlength, hchar.symm, fun j hj heq => ?_⟩
  have hsame : j = i := nodup_alphabet.getElem_inj_iff.mp (heq.trans hchar)
  omega

theorem char_mem (i : ℕ) (hi : i < 64) : char i ∈ alphabet := by
  obtain ⟨hlength, hchar⟩ := char_eq hi
  rw [hchar]
  exact List.getElem_mem hlength

theorem not_mem_alphabet : '=' ∉ alphabet := by decide

theorem char_ne_pad {i : ℕ} (hi : i < 64) : char i ≠ '=' := by
  intro h
  have hmem := char_mem i hi
  rw [h] at hmem
  exact not_mem_alphabet hmem

section Octets
variable (a b c : UInt8)

theorem word_lt : word a b c < 2 ^ 24 := by
  have ha := a.toNat_lt
  have hb := b.toNat_lt
  have hc := c.toNat_lt
  rw [word]
  omega

/-- The digits of a group are read as its octets. -/
theorem readGroup_digits : readGroup (word a b c / 2 ^ 18) (word a b c / 2 ^ 12 % 64)
    (word a b c / 2 ^ 6 % 64) (word a b c % 64) = [a, b, c] := by
  have ha := a.toNat_lt
  have hb := b.toNat_lt
  have hc := c.toNat_lt
  have hword : word a b c / 2 ^ 18 * 2 ^ 18 + word a b c / 2 ^ 12 % 64 * 2 ^ 12 +
      word a b c / 2 ^ 6 % 64 * 2 ^ 6 + word a b c % 64 = word a b c := by omega
  have h₁ : word a b c / 2 ^ 16 = a.toNat := by
    rw [word]
    omega
  have h₂ : word a b c / 2 ^ 8 % 256 = b.toNat := by
    rw [word]
    omega
  have h₃ : word a b c % 256 = c.toNat := by
    rw [word]
    omega
  rw [readGroup, hword, h₁, h₂, h₃, UInt8.ofNat_toNat, UInt8.ofNat_toNat, UInt8.ofNat_toNat]

theorem mem_group {x : Char} (hx : x ∈ group a b c) : x ∈ alphabet := by
  have hword := word_lt a b c
  simp only [group, List.mem_cons, List.not_mem_nil, or_false] at hx
  rcases hx with rfl | rfl | rfl | rfl <;> exact char_mem _ (by omega)

end Octets

/-! ### Reading a group -/

section Reading
variable {x y z w : Char} {i j k l : ℕ}

theorem decode_four (hx : index x = some i) (hy : index y = some j) (hz : index z = some k)
    (hw : index w = some l) (hpad : w ≠ '=') (t : List Char) :
    decode (x :: y :: z :: w :: t) = (decode t).map (readGroup i j k l ++ ·) := by
  simp only [decode, hx, hy, hz, hw, Option.bind_eq_bind, Option.bind_some]
  rw [if_pos hpad]
  cases decode t <;> rfl

theorem decode_three (hx : index x = some i) (hy : index y = some j) (hz : index z = some k)
    (hpad : z ≠ '=') (hzero : k % 2 ^ 2 = 0) :
    decode [x, y, z, '='] = some ((readGroup i j k 0).take 2) := by
  simp only [decode, hx, hy, hz, Option.bind_eq_bind, Option.bind_some]
  rw [if_neg (not_not.mpr rfl), if_neg (not_not.mpr rfl), if_pos hpad, if_pos hzero]

theorem decode_two (hx : index x = some i) (hy : index y = some j) (hzero : j % 2 ^ 4 = 0) :
    decode [x, y, '=', '='] = some ((readGroup i j 0 0).take 1) := by
  simp only [decode, hx, hy, Option.bind_eq_bind, Option.bind_some]
  rw [if_neg (not_not.mpr rfl), if_neg (not_not.mpr rfl), if_neg (not_not.mpr rfl), if_pos hzero]

end Reading

section Octets
variable (a b c : UInt8)

/-- A whole group is read back in front of any text. -/
theorem decode_group_append (t : List Char) :
    decode (group a b c ++ t) = (decode t).map ([a, b, c] ++ ·) := by
  have hword := word_lt a b c
  have hread := decode_four (index_char (word a b c / 2 ^ 18) (by omega))
    (index_char (word a b c / 2 ^ 12 % 64) (by omega))
    (index_char (word a b c / 2 ^ 6 % 64) (by omega)) (index_char (word a b c % 64) (by omega))
    (char_ne_pad (by omega)) t
  rwa [readGroup_digits] at hread

theorem decode_take_three : decode ((group a b 0).take 3 ++ ['=']) = some [a, b] := by
  have hword := word_lt a b 0
  have hlast : word a b 0 % 64 = 0 ∧ word a b 0 / 2 ^ 6 % 64 % 2 ^ 2 = 0 := by
    simp only [word, UInt8.toNat_zero]
    omega
  have hread := decode_three (index_char (word a b 0 / 2 ^ 18) (by omega))
    (index_char (word a b 0 / 2 ^ 12 % 64) (by omega))
    (index_char (word a b 0 / 2 ^ 6 % 64) (by omega)) (char_ne_pad (by omega)) hlast.2
  have hgroup := readGroup_digits a b 0
  rw [hlast.1] at hgroup
  rwa [hgroup] at hread

theorem decode_take_two : decode ((group a 0 0).take 2 ++ ['=', '=']) = some [a] := by
  have hword := word_lt a 0 0
  have hlast : word a 0 0 / 2 ^ 6 % 64 = 0 ∧ word a 0 0 % 64 = 0 ∧
      word a 0 0 / 2 ^ 12 % 64 % 2 ^ 4 = 0 := by
    simp only [word, UInt8.toNat_zero]
    omega
  have hread := decode_two (index_char (word a 0 0 / 2 ^ 18) (by omega))
    (index_char (word a 0 0 / 2 ^ 12 % 64) (by omega)) hlast.2.2
  have hgroup := readGroup_digits a 0 0
  rw [hlast.1, hlast.2.1] at hgroup
  rwa [hgroup] at hread

end Octets

/-! ### Texts -/

theorem mem_unpadded {x : Char} {s : List UInt8} (hx : x ∈ unpadded s) : x ∈ alphabet := by
  induction s using unpadded.induct with
  | case1 a b c rest ih =>
    rw [unpadded, List.mem_append] at hx
    exact hx.elim (mem_group a b c) ih
  | case2 a b => exact mem_group a b 0 (List.mem_of_mem_take hx)
  | case3 a => exact mem_group a 0 0 (List.mem_of_mem_take hx)
  | case4 => cases hx

theorem pad_not_mem_unpadded (s : List UInt8) : '=' ∉ unpadded s :=
  fun h => not_mem_alphabet (mem_unpadded h)

/-- Four characters for three octets, rounded up. -/
theorem length_unpadded (s : List UInt8) : (unpadded s).length = (4 * s.length + 2) / 3 := by
  induction s using unpadded.induct with
  | case1 a b c rest ih =>
    rw [unpadded, List.length_append, ih]
    simp only [group, List.length_cons, List.length_nil]
    omega
  | case2 a b => simp [unpadded, group]
  | case3 a => simp [unpadded, group]
  | case4 => rfl

theorem length_unpadded_add_padding (s : List UInt8) :
    ((unpadded s).length + padding s) % 4 = 0 := by
  rw [length_unpadded, padding]
  have hmod : s.length % 3 = 0 ∨ s.length % 3 = 1 ∨ s.length % 3 = 2 := by omega
  rcases hmod with h | h | h <;> rw [h] <;> omega

theorem padding_cons (a b c : UInt8) (s : List UInt8) :
    padding (a :: b :: c :: s) = padding s := by
  simp only [padding, List.length_cons]
  omega

theorem decode_encode (s : List UInt8) : decode (encode s) = some s := by
  induction s using unpadded.induct with
  | case1 a b c rest ih =>
    rw [encode] at ih
    rw [encode, padding_cons, unpadded, List.append_assoc, decode_group_append, ih]
    rfl
  | case2 a b => exact decode_take_three a b
  | case3 a => exact decode_take_two a
  | case4 => rfl

end Base64
end Net
