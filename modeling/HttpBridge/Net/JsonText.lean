/-
# JSON texts

The grammar of RFC 8259 as a parser (`parse`), over texts of which each
character is a byte: what lies above 0x7f stands for itself, and a `\u` escape
for the bytes of its code point in UTF-8. The parser spends fuel at each
nesting level and item. The fuel that `parse` gives is enough for any text: what
some fuel reads, it reads too (`parse_of_parseValue`).

A string is read from its characters themselves, or from a longer text
(`readChars_split`).
-/
import HttpBridge.Net.Json
import Mathlib.Data.List.TakeWhile
import Mathlib.Tactic.Common

namespace Net
namespace JsonText

/-! ### Strings -/

def hexValue (c : Char) : Option ℕ :=
  if '0' ≤ c ∧ c ≤ '9' then some (c.toNat - '0'.toNat)
  else if 'a' ≤ c ∧ c ≤ 'f' then some (c.toNat - 'a'.toNat + 10)
  else if 'A' ≤ c ∧ c ≤ 'F' then some (c.toNat - 'A'.toNat + 10)
  else none

/-- Four hexadecimal digits. -/
def hex4 : List Char → Option (ℕ × List Char)
  | a :: b :: c :: d :: s =>
    match hexValue a, hexValue b, hexValue c, hexValue d with
    | some a, some b, some c, some d => some (((a * 16 + b) * 16 + c) * 16 + d, s)
    | _, _, _, _ => none
  | _ => none

/-- The bytes of a code point. -/
def utf8 (n : ℕ) : List Char :=
  let bytes :=
    if n < 0x80 then [n]
    else if n < 0x800 then [0xC0 + n / 0x40, 0x80 + n % 0x40]
    else if n < 0x10000 then [0xE0 + n / 0x1000, 0x80 + n / 0x40 % 0x40, 0x80 + n % 0x40]
    else [0xF0 + n / 0x40000, 0x80 + n / 0x1000 % 0x40, 0x80 + n / 0x40 % 0x40, 0x80 + n % 0x40]
  bytes.map Char.ofNat

/-- The code point after `\u`: a high surrogate stands before a low one. -/
def codePoint (s : List Char) : Option (ℕ × List Char) :=
  match hex4 s with
  | none => none
  | some (n, s) =>
    if n < 0xD800 ∨ 0xE000 ≤ n then some (n, s)
    else if 0xDC00 ≤ n then none
    else
      match s with
      | '\\' :: 'u' :: s =>
        match hex4 s with
        | none => none
        | some (m, s) =>
          if 0xDC00 ≤ m ∧ m < 0xE000 then
            some (0x10000 + (n - 0xD800) * 0x400 + (m - 0xDC00), s)
          else none
      | _ => none

/-- What stands after a backslash, decoded. -/
def readEscape : List Char → Option (List Char × List Char)
  | [] => none
  | 'u' :: s => (codePoint s).map fun (n, s) => (utf8 n, s)
  | c :: s =>
    ([('"', '"'), ('\\', '\\'), ('/', '/'), ('b', '\x08'), ('f', '\x0c'), ('n', '\n'), ('r', '\r'),
      ('t', '\t')].lookup c).map fun d => ([d], s)

/-- The characters of a string up to its closing quote. -/
def readChars : ℕ → List Char → Option (List Char × List Char)
  | 0, _ => none
  | _ + 1, [] => none
  | n + 1, c :: s =>
    if c = '"' then some ([], s)
    else if c = '\\' then
      match readEscape s with
      | none => none
      | some (ds, s) => (readChars n s).map fun (cs, s) => (ds ++ cs, s)
    else if c.toNat < 0x20 then none
    else (readChars n s).map fun (cs, s) => (c :: cs, s)

/-- A string, after its opening quote. -/
def readString (s : List Char) : Option (List Char × List Char) := readChars s.length s

/-! ### Numbers -/

/-- A natural number, without a leading zero. -/
def readWhole : List Char → Option (List Char × List Char)
  | [] => none
  | c :: s =>
    if c = '0' then some ([c], s)
    else if c.isDigit then some (c :: s.takeWhile Char.isDigit, s.dropWhile Char.isDigit)
    else none

def readFraction : List Char → Option (List Char × List Char)
  | '.' :: s =>
    if (s.takeWhile Char.isDigit).isEmpty then none
    else some ('.' :: s.takeWhile Char.isDigit, s.dropWhile Char.isDigit)
  | s => some ([], s)

/-- A sign, if there is one. -/
def readSign (signs : List Char) : List Char → List Char × List Char
  | [] => ([], [])
  | c :: s => if c ∈ signs then ([c], s) else ([], c :: s)

def readExponent : List Char → Option (List Char × List Char)
  | [] => some ([], [])
  | c :: s =>
    if c = 'e' ∨ c = 'E' then
      let (sign, digits) := readSign ['+', '-'] s
      if (digits.takeWhile Char.isDigit).isEmpty then none
      else some (c :: sign ++ digits.takeWhile Char.isDigit, digits.dropWhile Char.isDigit)
    else some ([], c :: s)

/-- The text of a number. -/
def readNumber (s : List Char) : Option (List Char × List Char) :=
  let (sign, s) := readSign ['-'] s
  match readWhole s with
  | none => none
  | some (whole, s) =>
    match readFraction s with
    | none => none
    | some (fraction, s) =>
      match readExponent s with
      | none => none
      | some (exponent, s) => some (sign ++ whole ++ fraction ++ exponent, s)

/-! ### Values -/

def isBlank (c : Char) : Bool := c == ' ' || c == '\t' || c == '\n' || c == '\r'

def skipBlank (s : List Char) : List Char := s.dropWhile isBlank

/-- A value without a nesting level. -/
def readScalar : List Char → Option (Json × List Char)
  | '"' :: s => (readString s).map fun (t, s) => (.str (String.ofList t), s)
  | 'n' :: 'u' :: 'l' :: 'l' :: s => some (.null, s)
  | 't' :: 'r' :: 'u' :: 'e' :: s => some (.bool true, s)
  | 'f' :: 'a' :: 'l' :: 's' :: 'e' :: s => some (.bool false, s)
  | s => (readNumber s).map fun (t, s) => (.num (String.ofList t), s)

mutual

/-- A value off the front of a text. -/
def parseValue : ℕ → List Char → Option (Json × List Char)
  | 0, _ => none
  | n + 1, s =>
    match skipBlank s with
    | '{' :: s =>
      match skipBlank s with
      | '}' :: s => some (.obj [], s)
      | s => (parseMembers n s).map fun (ms, s) => (.obj ms, s)
    | '[' :: s =>
      match skipBlank s with
      | ']' :: s => some (.arr [], s)
      | s => (parseItems n s).map fun (vs, s) => (.arr vs, s)
    | s => readScalar s

/-- The items of an array and the bracket that closes it. -/
def parseItems : ℕ → List Char → Option (List Json × List Char)
  | 0, _ => none
  | n + 1, s =>
    match parseValue n s with
    | none => none
    | some (v, s) =>
      match skipBlank s with
      | ',' :: s => (parseItems n s).map fun (vs, s) => (v :: vs, s)
      | ']' :: s => some ([v], s)
      | _ => none

/-- The members of an object and the brace that closes it. -/
def parseMembers : ℕ → List Char → Option (Members × List Char)
  | 0, _ => none
  | n + 1, s =>
    match skipBlank s with
    | '"' :: s =>
      match readString s with
      | none => none
      | some (k, s) =>
        match skipBlank s with
        | ':' :: s =>
          match parseValue n s with
          | none => none
          | some (v, s) =>
            match skipBlank s with
            | ',' :: s => (parseMembers n s).map fun (ms, s) => ((String.ofList k, v) :: ms, s)
            | '}' :: s => some ([(String.ofList k, v)], s)
            | _ => none
        | _ => none
    | _ => none

end

/-- The value a text stands for. -/
def parse (s : String) : Option Json :=
  match parseValue (2 * s.toList.length + 1) s.toList with
  | some (v, rest) => if (skipBlank rest).isEmpty then some v else none
  | none => none

/-! ### What a string is read from -/

/-- A character that stands for itself in a string. -/
def Plain (c : Char) : Prop := c ≠ '"' ∧ c ≠ '\\' ∧ 0x20 ≤ c.toNat

instance (c : Char) : Decidable (Plain c) := inferInstanceAs (Decidable (_ ∧ _ ∧ _))

-- Before the instance of Batteries, which goes through every character there is.
instance (priority := high) decidableForallMem (P : Char → Prop) [DecidablePred P]
    (cs : List Char) : Decidable (∀ c ∈ cs, P c) :=
  List.decidableBAll P cs

theorem hex4_split {s s' : List Char} {n : ℕ} (h : hex4 s = some (n, s')) :
    ∃ ds, s = ds ++ s' ∧ ds.length = 4 := by
  unfold hex4 at h
  split at h
  · rename_i a b c d s
    split at h
    · rw [Option.some.injEq, Prod.mk.injEq] at h
      exact ⟨[a, b, c, d], by rw [← h.2]; rfl, rfl⟩
    · cases h
  · cases h

theorem codePoint_split {s s' : List Char} {n : ℕ} (h : codePoint s = some (n, s')) :
    ∃ ds, s = ds ++ s' ∧ 4 ≤ ds.length := by
  unfold codePoint at h
  split at h
  · cases h
  · rename_i m s₁ hhex
    obtain ⟨ds, rfl, hds⟩ := hex4_split hhex
    split at h
    · rw [Option.some.injEq, Prod.mk.injEq] at h
      exact ⟨ds, by rw [h.2], by omega⟩
    · split at h
      · cases h
      · split at h
        · rename_i s₂
          split at h
          · cases h
          · rename_i m' s₃ hhex'
            obtain ⟨ds', rfl, -⟩ := hex4_split hhex'
            split at h
            · rw [Option.some.injEq, Prod.mk.injEq] at h
              rw [← h.2]
              exact ⟨ds ++ '\\' :: 'u' :: ds', by simp, by simp; omega⟩
            · cases h
        · cases h

theorem length_utf8_le (n : ℕ) : (utf8 n).length ≤ 4 := by
  unfold utf8
  rw [List.length_map]
  split_ifs <;> simp

/-- An escape is no shorter than what it stands for. -/
theorem readEscape_split {s s' ds : List Char} (h : readEscape s = some (ds, s')) :
    ∃ t, s = t ++ s' ∧ ds.length ≤ t.length := by
  unfold readEscape at h
  split at h
  · cases h
  · rename_i s₁
    obtain ⟨⟨n, s₂⟩, hcode, heq⟩ := Option.map_eq_some_iff.mp h
    rw [Prod.mk.injEq] at heq
    obtain ⟨t, rfl, ht⟩ := codePoint_split hcode
    have hlen := length_utf8_le n
    rw [heq.1] at hlen
    refine ⟨'u' :: t, by rw [← heq.2]; rfl, ?_⟩
    rw [List.length_cons]
    omega
  · rename_i c s₁ _
    obtain ⟨d, -, heq⟩ := Option.map_eq_some_iff.mp h
    rw [Prod.mk.injEq] at heq
    exact ⟨[c], by rw [← heq.2]; rfl, by rw [← heq.1]; exact le_refl _⟩

/-- What is read up to the closing quote: the characters themselves, or less
than stands there. -/
theorem readChars_split {n : ℕ} {s s' cs : List Char} (h : readChars n s = some (cs, s')) :
    ∃ t, s = t ++ '"' :: s' ∧ (t = cs ∧ (∀ c ∈ cs, Plain c) ∨ cs.length < t.length) := by
  induction n generalizing s cs with
  | zero => cases h
  | succ n ih =>
    cases s with
    | nil => cases h
    | cons c s =>
      rw [readChars] at h
      by_cases hquote : c = '"'
      · rw [if_pos hquote, Option.some.injEq, Prod.mk.injEq] at h
        exact ⟨[], by rw [hquote, h.2]; rfl, .inl ⟨h.1, by rw [← h.1]; simp⟩⟩
      rw [if_neg hquote] at h
      by_cases hback : c = '\\'
      · rw [if_pos hback] at h
        split at h
        · cases h
        · rename_i ds s₁ hesc
          obtain ⟨⟨cs₁, s₂⟩, hread, heq⟩ := Option.map_eq_some_iff.mp h
          rw [Prod.mk.injEq] at heq
          obtain ⟨rfl, rfl⟩ := heq
          obtain ⟨t, rfl, ht⟩ := readEscape_split hesc
          obtain ⟨t', rfl, ht'⟩ := ih hread
          refine ⟨c :: t ++ t', by simp, .inr ?_⟩
          rw [List.length_append, List.cons_append, List.length_cons, List.length_append]
          rcases ht' with ⟨rfl, -⟩ | ht' <;> omega
      rw [if_neg hback] at h
      by_cases hctl : c.toNat < 0x20
      · rw [if_pos hctl] at h
        cases h
      · rw [if_neg hctl] at h
        obtain ⟨⟨cs₁, s₂⟩, hread, heq⟩ := Option.map_eq_some_iff.mp h
        rw [Prod.mk.injEq] at heq
        obtain ⟨rfl, rfl⟩ := heq
        obtain ⟨t, rfl, ht⟩ := ih hread
        refine ⟨c :: t, rfl, ?_⟩
        rcases ht with ⟨rfl, hplain⟩ | ht
        · refine .inl ⟨rfl, fun d hd => ?_⟩
          rcases List.mem_cons.mp hd with rfl | hd
          · exact ⟨hquote, hback, by omega⟩
          · exact hplain d hd
        · exact .inr (by rw [List.length_cons, List.length_cons]; omega)

/-! ### Fuel -/

theorem length_skipBlank_le (s : List Char) : (skipBlank s).length ≤ s.length :=
  (List.dropWhile_sublist _).length_le

theorem length_readString_lt {s r cs : List Char} (h : readString s = some (cs, r)) :
    r.length < s.length := by
  obtain ⟨t, rfl, -⟩ := readChars_split h
  rw [List.length_append, List.length_cons]
  omega

theorem length_readSign (signs s : List Char) : (readSign signs s).2.length ≤ s.length := by
  unfold readSign
  split
  · exact le_refl _
  · split_ifs
    · exact (List.length_cons ▸ Nat.le_succ _)
    · exact le_refl _

theorem length_dropWhile_isDigit (s : List Char) : (s.dropWhile Char.isDigit).length ≤ s.length :=
  (List.dropWhile_sublist _).length_le

theorem length_readWhole_lt {s r t : List Char} (h : readWhole s = some (t, r)) :
    r.length < s.length := by
  unfold readWhole at h
  split at h
  · cases h
  · rename_i c s
    have hdrop := length_dropWhile_isDigit s
    split_ifs at h <;> cases h <;> rw [List.length_cons] <;> omega

theorem length_readFraction_le {s r t : List Char} (h : readFraction s = some (t, r)) :
    r.length ≤ s.length := by
  unfold readFraction at h
  split at h
  · rename_i s
    have hdrop := length_dropWhile_isDigit s
    split_ifs at h
    cases h
    rw [List.length_cons]
    omega
  · cases h
    exact le_refl _

theorem length_readExponent_le {s r t : List Char} (h : readExponent s = some (t, r)) :
    r.length ≤ s.length := by
  unfold readExponent at h
  split at h
  · cases h
    exact le_refl _
  · rename_i c s
    have hdrop := length_dropWhile_isDigit (readSign ['+', '-'] s).2
    have hsign := length_readSign ['+', '-'] s
    dsimp only at h
    split_ifs at h
    · cases h
      rw [List.length_cons]
      omega
    · cases h
      exact le_refl _

theorem length_readNumber_lt {s r t : List Char} (h : readNumber s = some (t, r)) :
    r.length < s.length := by
  have hsign := length_readSign ['-'] s
  unfold readNumber at h
  dsimp only at h
  split at h
  · cases h
  · rename_i hw
    have hwhole := length_readWhole_lt hw
    split at h
    · cases h
    · rename_i hf
      have hfraction := length_readFraction_le hf
      split at h
      · cases h
      · rename_i he
        have hexponent := length_readExponent_le he
        cases h
        omega

theorem length_readScalar_lt {s r : List Char} {v : Json} (h : readScalar s = some (v, r)) :
    r.length < s.length := by
  unfold readScalar at h
  split at h
  · obtain ⟨⟨t, r'⟩, hread, heq⟩ := Option.map_eq_some_iff.mp h
    cases heq
    have := length_readString_lt hread
    rw [List.length_cons]
    omega
  · cases h
    simp only [List.length_cons]
    omega
  · cases h
    simp only [List.length_cons]
    omega
  · cases h
    simp only [List.length_cons]
    omega
  · obtain ⟨⟨t, r'⟩, hread, heq⟩ := Option.map_eq_some_iff.mp h
    cases heq
    exact length_readNumber_lt hread

/-- What `p` reads with fuel `n`, it reads with any that suffices for the text. -/
def Suffices {β : Type} (p : ℕ → List Char → Option (β × List Char)) (k n : ℕ) : Prop :=
  ∀ s v r, p n s = some (v, r) →
    r.length < s.length ∧ ∀ m, 2 * s.length + k < m → p m s = some (v, r)

theorem parseValue_suffices {n : ℕ} (hitems : Suffices parseItems 1 n)
    (hmembers : Suffices parseMembers 1 n) : Suffices parseValue 0 (n + 1) := by
  intro s v r h
  have hle := length_skipBlank_le s
  rw [parseValue] at h
  split at h
  · rename_i s₁ hs₁
    have hle₁ := length_skipBlank_le s₁
    rw [hs₁, List.length_cons] at hle
    split at h
    · rename_i s₂ hs₂
      cases h
      rw [hs₂, List.length_cons] at hle₁
      refine ⟨by omega, fun m hm => ?_⟩
      obtain ⟨m, rfl⟩ : ∃ k, m = k + 1 := ⟨m - 1, by omega⟩
      simp only [parseValue, hs₁, hs₂]
    · rename_i hs₂
      obtain ⟨⟨ms, r'⟩, hread, heq⟩ := Option.map_eq_some_iff.mp h
      cases heq
      obtain ⟨hlt, hfuel⟩ := hmembers _ _ _ hread
      refine ⟨by omega, fun m hm => ?_⟩
      obtain ⟨m, rfl⟩ : ∃ k, m = k + 1 := ⟨m - 1, by omega⟩
      simp only [parseValue, hs₁, hfuel m (by omega), Option.map_some]
  · rename_i s₁ hs₁
    have hle₁ := length_skipBlank_le s₁
    rw [hs₁, List.length_cons] at hle
    split at h
    · rename_i s₂ hs₂
      cases h
      rw [hs₂, List.length_cons] at hle₁
      refine ⟨by omega, fun m hm => ?_⟩
      obtain ⟨m, rfl⟩ : ∃ k, m = k + 1 := ⟨m - 1, by omega⟩
      simp only [parseValue, hs₁, hs₂]
    · rename_i hs₂
      obtain ⟨⟨vs, r'⟩, hread, heq⟩ := Option.map_eq_some_iff.mp h
      cases heq
      obtain ⟨hlt, hfuel⟩ := hitems _ _ _ hread
      refine ⟨by omega, fun m hm => ?_⟩
      obtain ⟨m, rfl⟩ : ∃ k, m = k + 1 := ⟨m - 1, by omega⟩
      simp only [parseValue, hs₁, hfuel m (by omega), Option.map_some]
  · rename_i hobj harr
    have hlt := length_readScalar_lt h
    refine ⟨by omega, fun m hm => ?_⟩
    obtain ⟨m, rfl⟩ : ∃ k, m = k + 1 := ⟨m - 1, by omega⟩
    rw [parseValue]
    split
    · rename_i s₁ hs₁
      exact absurd hs₁ (hobj s₁)
    · rename_i s₁ hs₁
      exact absurd hs₁ (harr s₁)
    · exact h

theorem parseItems_suffices {n : ℕ} (hvalue : Suffices parseValue 0 n)
    (hitems : Suffices parseItems 1 n) : Suffices parseItems 1 (n + 1) := by
  intro s vs r h
  rw [parseItems] at h
  split at h
  · cases h
  · rename_i v s₁ hv
    obtain ⟨hlt, hfuel⟩ := hvalue _ _ _ hv
    have hle := length_skipBlank_le s₁
    split at h
    · rename_i s₂ hs₂
      obtain ⟨⟨vs', r'⟩, hread, heq⟩ := Option.map_eq_some_iff.mp h
      cases heq
      rw [hs₂, List.length_cons] at hle
      obtain ⟨hlt', hfuel'⟩ := hitems _ _ _ hread
      refine ⟨by omega, fun m hm => ?_⟩
      obtain ⟨m, rfl⟩ : ∃ k, m = k + 1 := ⟨m - 1, by omega⟩
      simp only [parseItems, hfuel m (by omega), hs₂, hfuel' m (by omega), Option.map_some]
    · rename_i s₂ hs₂
      cases h
      rw [hs₂, List.length_cons] at hle
      refine ⟨by omega, fun m hm => ?_⟩
      obtain ⟨m, rfl⟩ : ∃ k, m = k + 1 := ⟨m - 1, by omega⟩
      simp only [parseItems, hfuel m (by omega), hs₂]
    · cases h

theorem parseMembers_suffices {n : ℕ} (hvalue : Suffices parseValue 0 n)
    (hmembers : Suffices parseMembers 1 n) : Suffices parseMembers 1 (n + 1) := by
  intro s ms r h
  have hle := length_skipBlank_le s
  rw [parseMembers] at h
  split at h
  · rename_i s₁ hs₁
    rw [hs₁, List.length_cons] at hle
    split at h
    · cases h
    · rename_i k s₂ hk
      have hlt := length_readString_lt hk
      have hle₂ := length_skipBlank_le s₂
      split at h
      · rename_i s₃ hs₃
        rw [hs₃, List.length_cons] at hle₂
        split at h
        · cases h
        · rename_i v s₄ hv
          obtain ⟨hlt₄, hfuel⟩ := hvalue _ _ _ hv
          have hle₄ := length_skipBlank_le s₄
          split at h
          · rename_i s₅ hs₅
            obtain ⟨⟨ms', r'⟩, hread, heq⟩ := Option.map_eq_some_iff.mp h
            cases heq
            rw [hs₅, List.length_cons] at hle₄
            obtain ⟨hlt', hfuel'⟩ := hmembers _ _ _ hread
            refine ⟨by omega, fun m hm => ?_⟩
            obtain ⟨m, rfl⟩ : ∃ k, m = k + 1 := ⟨m - 1, by omega⟩
            simp only [parseMembers, hs₁, hk, hs₃, hfuel m (by omega), hs₅,
              hfuel' m (by omega), Option.map_some]
          · rename_i s₅ hs₅
            cases h
            rw [hs₅, List.length_cons] at hle₄
            refine ⟨by omega, fun m hm => ?_⟩
            obtain ⟨m, rfl⟩ : ∃ k, m = k + 1 := ⟨m - 1, by omega⟩
            simp only [parseMembers, hs₁, hk, hs₃, hfuel m (by omega), hs₅]
          · cases h
      · cases h
  · cases h

theorem parse_suffices (n : ℕ) :
    Suffices parseValue 0 n ∧ Suffices parseItems 1 n ∧ Suffices parseMembers 1 n := by
  induction n with
  | zero => exact ⟨fun _ _ _ h => (by cases h), fun _ _ _ h => (by cases h), fun _ _ _ h => (by cases h)⟩
  | succ n ih =>
    obtain ⟨hvalue, hitems, hmembers⟩ := ih
    exact ⟨parseValue_suffices hitems hmembers, parseItems_suffices hvalue hitems,
      parseMembers_suffices hvalue hmembers⟩

/-- No fuel reads more. -/
theorem parse_of_parseValue {n : ℕ} {s : String} {v : Json} {r : List Char}
    (h : parseValue n s.toList = some (v, r)) (hr : skipBlank r = []) : parse s = some v := by
  have hread := ((parse_suffices n).1 _ _ _ h).2 (2 * s.toList.length + 1) (by omega)
  rw [parse, hread]
  show (if (skipBlank r).isEmpty then some v else none) = some v
  rw [hr]
  rfl

end JsonText
end Net
