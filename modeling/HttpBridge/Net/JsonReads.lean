/-
# Texts that are read back

`ReadsAs t v` says that the parser reads `v` off the front of every text that
begins with `t`. It is closed under writing arrays and objects
(`ReadsAs.arr`, `ReadsAs.obj`), and holds of a string between quotes whose
characters are written as an `Escaping` does. Where they are written as they
are, the string is read back only if none of them needed it
(`plain_of_readString`).
-/
import HttpBridge.Net.JsonText
import Mathlib.Data.List.Forall2

namespace Net
namespace JsonText

/-! ### Strings that are read -/

/-- The piece `t` is read as the character `c`. -/
structure ReadsChar (t : List Char) (c : Char) : Prop where
  ne_nil : t ≠ []
  reads : ∀ n s, readChars (n + 1) (t ++ s) = (readChars n s).map fun (cs, s) => (c :: cs, s)

theorem readsChar_plain {c : Char} (h : Plain c) : ReadsChar [c] c where
  ne_nil := List.cons_ne_nil _ _
  reads n s := by
    obtain ⟨hquote, hback, hctl⟩ := h
    show readChars (n + 1) (c :: s) = _
    rw [readChars, if_neg hquote, if_neg hback, if_neg (by omega)]

theorem readsChar_escape {t : List Char} {c : Char}
    (h : ∀ s, readEscape (t ++ s) = some ([c], s)) : ReadsChar ('\\' :: t) c where
  ne_nil := List.cons_ne_nil _ _
  reads n s := by
    show readChars (n + 1) ('\\' :: (t ++ s)) = _
    rw [readChars, if_neg (by decide), if_pos rfl, h s]
    rfl

/-- An escape of one byte by its number. -/
theorem readsChar_unicode {a b c : Char} {x y : ℕ} (ha : hexValue a = some x)
    (hb : hexValue b = some y) (hc : c = Char.ofNat (x * 16 + y)) (hlt : x * 16 + y < 0x80) :
    ReadsChar ['\\', 'u', '0', '0', a, b] c := by
  refine readsChar_escape fun s => ?_
  have hzero : hexValue '0' = some 0 := by decide
  have hhex : hex4 ('0' :: '0' :: a :: b :: s) = some (x * 16 + y, s) := by
    simp [hex4, hzero, ha, hb]
  have hcode : codePoint ('0' :: '0' :: a :: b :: s) = some (x * 16 + y, s) := by
    rw [codePoint, hhex]
    exact if_pos (by omega)
  have hbytes : utf8 (x * 16 + y) = [c] := by
    unfold utf8
    rw [if_pos hlt, hc]
    rfl
  show (codePoint ('0' :: '0' :: a :: b :: s)).map (fun r => (utf8 r.1, r.2)) = _
  rw [hcode, Option.map_some, hbytes]

/-- Characters written piece by piece are read back. -/
theorem readString_pieces {f : Char → List Char} {cs : List Char}
    (h : ∀ c ∈ cs, ReadsChar (f c) c) (s : List Char) :
    readString (cs.flatMap f ++ '"' :: s) = some (cs, s) := by
  have hread : cs.length ≤ (cs.flatMap f).length ∧
      ∀ n, cs.length < n → readChars n (cs.flatMap f ++ '"' :: s) = some (cs, s) := by
    induction cs with
    | nil =>
      refine ⟨le_refl _, fun n hn => ?_⟩
      obtain ⟨n, rfl⟩ : ∃ k, n = k + 1 := ⟨n - 1, by simp at hn; omega⟩
      rfl
    | cons c cs ih =>
      have hc := h c List.mem_cons_self
      have hpos := List.length_pos_iff.mpr hc.ne_nil
      obtain ⟨hle, hrest⟩ := ih fun d hd => h d (List.mem_cons_of_mem c hd)
      rw [List.flatMap_cons, List.length_append, List.length_cons]
      refine ⟨by omega, fun n hn => ?_⟩
      obtain ⟨n, rfl⟩ : ∃ k, n = k + 1 := ⟨n - 1, by omega⟩
      rw [List.append_assoc, hc.reads, hrest n (by omega)]
      rfl
  refine hread.2 _ ?_
  rw [List.length_append, List.length_cons]
  omega

/-- A way to write a string: each character has a piece that is read as it. -/
structure Escaping where
  piece : Char → List Char
  reads : ∀ c, ReadsChar (piece c) c

namespace Escaping

def text (E : Escaping) (cs : List Char) : List Char := cs.flatMap E.piece

/-- A string between quotes is read as it is. -/
theorem readString_text (E : Escaping) (cs s : List Char) :
    readString (E.text cs ++ '"' :: s) = some (cs, s) :=
  readString_pieces (fun c _ => E.reads c) s

end Escaping

/-! ### Strings that need no escape -/

/-- **Unescaped text that is read back is plain.** It stands before a closing
quote after which only one more character comes. -/
theorem plain_of_readString {t rest : List Char} {d : Char} (hd : d ≠ '"')
    (h : readString (t ++ ['"', d]) = some (t, rest)) : ∀ c ∈ t, Plain c := by
  obtain ⟨u, hu, hcase⟩ := readChars_split h
  rcases hcase with ⟨-, hplain⟩ | hlt
  · exact hplain
  · have hlen := congrArg List.length hu
    simp only [List.length_append, List.length_cons, List.length_nil] at hlen
    have hrest : rest = [] := List.eq_nil_of_length_eq_zero (by omega)
    have hlast := congrArg List.getLast? hu
    rw [hrest] at hlast
    simp at hlast
    exact absurd hlast hd

theorem plain_readString {t : List Char} (h : ∀ c ∈ t, Plain c) (s : List Char) :
    readString (t ++ '"' :: s) = some (t, s) := by
  have hread := readString_pieces (f := fun c => [c]) (fun c hc => readsChar_plain (h c hc)) s
  rwa [List.flatMap_singleton' t] at hread

/-! ### Numbers that are read -/

/-- A text after which a number has ended. -/
def Delimited (s : List Char) : Prop :=
  ∀ c ∈ s.head?, c.isDigit = false ∧ c ≠ '.' ∧ c ≠ 'e' ∧ c ≠ 'E'

theorem delimited_nil : Delimited [] := by
  intro c hc
  cases hc

theorem delimited_cons {c : Char} (s : List Char)
    (h : c.isDigit = false ∧ c ≠ '.' ∧ c ≠ 'e' ∧ c ≠ 'E') : Delimited (c :: s) := by
  intro d hd
  rw [List.head?_cons, Option.mem_some_iff] at hd
  rwa [← hd]

theorem takeWhile_digits {ds s : List Char} (hds : ∀ d ∈ ds, d.isDigit = true)
    (hs : ∀ c ∈ s.head?, c.isDigit = false) :
    (ds ++ s).takeWhile Char.isDigit = ds ∧ (ds ++ s).dropWhile Char.isDigit = s := by
  have hstop : s.takeWhile Char.isDigit = [] ∧ s.dropWhile Char.isDigit = s := by
    cases s with
    | nil => exact ⟨rfl, rfl⟩
    | cons c s =>
      have hc : ¬c.isDigit = true := by simp [hs c rfl]
      exact ⟨List.takeWhile_cons_of_neg hc, List.dropWhile_cons_of_neg hc⟩
  rw [List.takeWhile_append_of_pos hds, List.dropWhile_append_of_pos hds, hstop.1, hstop.2,
    List.append_nil]
  exact ⟨rfl, rfl⟩

/-- The digits of a natural number: no leading zero. -/
structure Whole (ds : List Char) : Prop where
  digits : ∀ d ∈ ds, d.isDigit = true
  lead : ∃ d s, ds = d :: s ∧ (d = '0' → s = [])

theorem whole_toDigits (n : ℕ) : Whole (Nat.toDigits 10 n) := by
  refine ⟨fun d hd => Nat.isDigit_of_mem_toDigits (by decide) (by decide) hd, ?_⟩
  induction n using Nat.strongRecOn with
  | _ n ih =>
    by_cases hn : n < 10
    · rw [Nat.toDigits_of_lt_base hn]
      exact ⟨_, [], rfl, fun _ => rfl⟩
    · obtain ⟨d, s, hs, hlead⟩ := ih (n / 10) (by omega)
      have hpos : d ≠ '0' := by
        rintro rfl
        rw [hlead rfl] at hs
        have hval := congrArg (Nat.ofDigitChars 10 · 0) hs
        simp only [Nat.ofDigitChars_ten_toDigits] at hval
        have hzero : Nat.ofDigitChars 10 ['0'] 0 = 0 := by decide
        omega
      rw [Nat.toDigits_of_base_le (by decide) (by omega), hs]
      exact ⟨d, s ++ [_], rfl, fun h => absurd h hpos⟩

theorem readWhole_append {ds s : List Char} (h : Whole ds) (hs : ∀ c ∈ s.head?, c.isDigit = false) :
    readWhole (ds ++ s) = some (ds, s) := by
  obtain ⟨d, ds, rfl, hlead⟩ := h.lead
  rw [List.cons_append, readWhole]
  by_cases hd : d = '0'
  · rw [if_pos hd, hlead hd]
    rfl
  · obtain ⟨htake, hdrop⟩ :=
      takeWhile_digits (fun c hc => h.digits c (List.mem_cons_of_mem d hc)) hs
    rw [if_neg hd, if_pos (h.digits d List.mem_cons_self), htake, hdrop]

theorem readExponent_delimited {s : List Char} (h : Delimited s) : readExponent s = some ([], s) := by
  cases s with
  | nil => rfl
  | cons c s =>
    obtain ⟨-, -, he, hE⟩ := h c rfl
    rw [readExponent, if_neg (by simp [he, hE])]

theorem readFraction_delimited {s : List Char} (h : Delimited s) : readFraction s = some ([], s) := by
  unfold readFraction
  split
  · rename_i s
    exact absurd rfl (h '.' rfl).2.1
  · rfl

/-- The text of a number: a sign, digits, and possibly a fraction. -/
def numberText (negative : Bool) (whole fraction : List Char) : List Char :=
  (if negative then ['-'] else []) ++ whole ++ (if fraction = [] then [] else '.' :: fraction)

theorem readSign_number (negative : Bool) {ds : List Char} (h : Whole ds) (s : List Char) :
    readSign ['-'] ((if negative then ['-'] else []) ++ (ds ++ s)) =
      (if negative then ['-'] else [], ds ++ s) := by
  cases negative with
  | true => rfl
  | false =>
    obtain ⟨d, ds, rfl, -⟩ := h.lead
    have hd : d ≠ '-' := by
      rintro rfl
      exact absurd (h.digits '-' List.mem_cons_self) (by decide)
    show readSign ['-'] (d :: (ds ++ s)) = ([], d :: (ds ++ s))
    rw [readSign, if_neg (by simpa using hd)]

theorem readNumber_append (negative : Bool) {whole fraction rest : List Char} (hw : Whole whole)
    (hf : ∀ d ∈ fraction, d.isDigit = true) (hrest : Delimited rest) :
    readNumber (numberText negative whole fraction ++ rest) =
      some (numberText negative whole fraction, rest) := by
  have hdigit : ∀ c ∈ rest.head?, c.isDigit = false := fun c hc => (hrest c hc).1
  by_cases hnil : fraction = []
  · have hread : readWhole (whole ++ rest) = some (whole, rest) := readWhole_append hw hdigit
    rw [numberText, if_pos hnil, List.append_nil, List.append_assoc, readNumber,
      readSign_number negative hw]
    simp only [hread, readFraction_delimited hrest, readExponent_delimited hrest, List.append_nil]
  · have hread : readWhole (whole ++ ('.' :: fraction ++ rest)) =
        some (whole, '.' :: fraction ++ rest) := by
      refine readWhole_append hw fun c hc => ?_
      rw [List.cons_append, List.head?_cons, Option.mem_some_iff] at hc
      rw [← hc]
      decide
    obtain ⟨htake, hdrop⟩ := takeWhile_digits hf hdigit
    have hfraction : readFraction ('.' :: fraction ++ rest) = some ('.' :: fraction, rest) := by
      rw [List.cons_append, readFraction, htake, hdrop, if_neg (by simpa using hnil)]
    rw [numberText, if_neg hnil, List.append_assoc, List.append_assoc, readNumber,
      readSign_number negative hw]
    simp only [hread, hfraction, readExponent_delimited hrest, List.append_nil, List.append_assoc]

/-! ### Values that are read -/

/-- The parser reads `v` off the front of every text that begins with `t`. -/
structure ReadsAs (t : List Char) (v : Json) : Prop where
  head : ∃ c s, t = c :: s ∧ isBlank c = false ∧ c ≠ ']'
  reads : ∀ n rest, 2 * t.length < n → Delimited rest → parseValue n (t ++ rest) = some (v, rest)

theorem skipBlank_cons {c : Char} (h : isBlank c = false) (s : List Char) :
    skipBlank (c :: s) = c :: s :=
  List.dropWhile_cons_of_neg (by rw [h]; decide)

namespace ReadsAs

/-- A text that is read as a value stands for it. -/
theorem parse {s : String} {v : Json} (h : ReadsAs s.toList v) : parse s = some v := by
  have hread := h.reads (2 * s.toList.length + 1) [] (by omega) delimited_nil
  rw [List.append_nil] at hread
  rw [JsonText.parse, hread]
  rfl

theorem scalar {c : Char} {t : List Char} {v : Json} (hblank : isBlank c = false)
    (hc : c ∉ [']', '{', '[']) (h : ∀ s, Delimited s → readScalar (c :: t ++ s) = some (v, s)) :
    ReadsAs (c :: t) v where
  head := ⟨c, t, rfl, hblank, fun he => hc (by simp [he])⟩
  reads n s hn hs := by
    obtain ⟨n, rfl⟩ : ∃ k, n = k + 1 := ⟨n - 1, by omega⟩
    rw [← h s hs, List.cons_append, parseValue, skipBlank_cons hblank]
    split
    case h_1 he => exact absurd (List.cons.inj he).1 fun he => hc (by simp [he])
    case h_2 he => exact absurd (List.cons.inj he).1 fun he => hc (by simp [he])
    case h_3 => rfl

theorem str {cs t : List Char} (h : ∀ s, readString (t ++ '"' :: s) = some (cs, s)) :
    ReadsAs ('"' :: t ++ ['"']) (.str (String.ofList cs)) := by
  refine scalar (by decide) (by decide) fun s _ => ?_
  show (readString (t ++ ['"'] ++ s)).map _ = _
  rw [List.append_assoc, List.singleton_append, h s]
  rfl

theorem null : ReadsAs ['n', 'u', 'l', 'l'] .null :=
  scalar (by decide) (by decide) fun _ _ => rfl

theorem bool (b : Bool) :
    ReadsAs (if b then ['t', 'r', 'u', 'e'] else ['f', 'a', 'l', 's', 'e']) (.bool b) := by
  cases b with
  | true => exact scalar (by decide) (by decide) fun _ _ => rfl
  | false => exact scalar (by decide) (by decide) fun _ _ => rfl

end ReadsAs

/-- The first character of a number begins no other value. -/
theorem readScalar_number {c : Char} (hc : c.isDigit = true ∨ c = '-') (s : List Char) :
    readScalar (c :: s) = (readNumber (c :: s)).map fun (t, s) => (.num (String.ofList t), s) := by
  have hne : ∀ d : Char, d.isDigit = false → d ≠ '-' → c ≠ d := by
    rintro d hd hd' rfl
    exact hc.elim (fun hc => absurd hc (by rw [hd]; decide)) hd'
  unfold readScalar
  split
  case h_1 h => exact absurd (List.cons.inj h).1 (hne _ (by decide) (by decide))
  case h_2 h => exact absurd (List.cons.inj h).1 (hne _ (by decide) (by decide))
  case h_3 h => exact absurd (List.cons.inj h).1 (hne _ (by decide) (by decide))
  case h_4 h => exact absurd (List.cons.inj h).1 (hne _ (by decide) (by decide))
  case h_5 => rfl

theorem ReadsAs.number (negative : Bool) {whole fraction : List Char} (hw : Whole whole)
    (hf : ∀ d ∈ fraction, d.isDigit = true) :
    ReadsAs (numberText negative whole fraction)
      (.num (String.ofList (numberText negative whole fraction))) := by
  obtain ⟨c, t, htext, hc⟩ : ∃ c t, numberText negative whole fraction = c :: t ∧
      (c.isDigit = true ∨ c = '-') := by
    obtain ⟨d, ds, rfl, -⟩ := hw.lead
    cases negative with
    | true => exact ⟨'-', _, rfl, .inr rfl⟩
    | false => exact ⟨d, _, rfl, .inl (hw.digits d List.mem_cons_self)⟩
  have hne : ∀ d ∈ [' ', '\t', '\n', '\r', ']', '{', '['], c ≠ d := by
    rintro d hd rfl
    revert hc
    simp only [List.mem_cons, List.not_mem_nil, or_false] at hd
    rcases hd with rfl | rfl | rfl | rfl | rfl | rfl | rfl <;> decide
  have hblank : isBlank c = false := by
    simp [isBlank, hne ' ' (by simp), hne '\t' (by simp), hne '\n' (by simp), hne '\r' (by simp)]
  rw [htext]
  refine scalar hblank (fun hmem => ?_) fun s hs => ?_
  · exact hne c (by simp only [List.mem_cons, List.not_mem_nil, or_false] at hmem ⊢; tauto) rfl
  · have hread := readNumber_append negative hw hf hs
    rw [htext] at hread
    rw [List.cons_append] at hread ⊢
    rw [readScalar_number hc, hread]
    rfl

/-! ### Arrays and objects -/

/-- The texts, with a comma before each but the first. -/
def joined : List (List Char) → List Char
  | [] => []
  | [t] => t
  | t :: u :: ts => t ++ ',' :: joined (u :: ts)

/-- A key and the text of its value. -/
def memberText (m : List Char × List Char) : List Char := '"' :: m.1 ++ '"' :: ':' :: m.2

structure ReadsMember (m : List Char × List Char) (kv : String × Json) : Prop where
  key : ∀ s, readString (m.1 ++ '"' :: s) = some (kv.1.toList, s)
  value : ReadsAs m.2 kv.2

/-- What follows an item or a member ends a number. -/
theorem delimited_of_mem {c : Char} (hc : c ∈ [',', ']', '}']) (s : List Char) :
    Delimited (c :: s) := by
  refine delimited_cons s ?_
  simp only [List.mem_cons, List.not_mem_nil, or_false] at hc
  rcases hc with rfl | rfl | rfl <;> decide

theorem parseItems_joined {ts : List (List Char)} {vs : List Json} (h : List.Forall₂ ReadsAs ts vs)
    (hne : ts ≠ []) (n : ℕ) (rest : List Char) (hn : 2 * (joined ts).length + 1 < n) :
    parseItems n (joined ts ++ ']' :: rest) = some (vs, rest) := by
  induction h generalizing n with
  | nil => exact absurd rfl hne
  | @cons t v ts vs ht hts ih =>
    obtain ⟨n, rfl⟩ : ∃ k, n = k + 1 := ⟨n - 1, by omega⟩
    cases hts with
    | nil =>
      rw [joined] at hn ⊢
      rw [parseItems, ht.reads n _ (by omega) (delimited_of_mem (by simp) rest)]
      rfl
    | @cons u w us ws hu hus =>
      rw [joined, List.length_append, List.length_cons] at hn
      rw [joined, List.append_assoc, List.cons_append, parseItems,
        ht.reads n _ (by omega) (delimited_of_mem (by simp) _)]
      show (parseItems n _).map _ = _
      rw [ih (List.cons_ne_nil _ _) n (by omega)]
      rfl

theorem parseMembers_next {m : List Char × List Char} {kv : String × Json} (hm : ReadsMember m kv)
    {n : ℕ} (hn : 2 * m.2.length < n) (s : List Char) :
    parseMembers (n + 1) (memberText m ++ ',' :: s) =
      (parseMembers n s).map fun (ms, s) => (kv :: ms, s) := by
  have hvalue := hm.value.reads n (',' :: s) hn (delimited_of_mem (by simp) s)
  rw [memberText, List.cons_append, List.cons_append, List.append_assoc, parseMembers,
    skipBlank_cons (by decide)]
  simp only [List.cons_append, hm.key, skipBlank_cons (show isBlank ':' = false by decide), hvalue,
    skipBlank_cons (show isBlank ',' = false by decide), String.ofList_toList]

theorem parseMembers_last {m : List Char × List Char} {kv : String × Json} (hm : ReadsMember m kv)
    {n : ℕ} (hn : 2 * m.2.length < n) (s : List Char) :
    parseMembers (n + 1) (memberText m ++ '}' :: s) = some ([kv], s) := by
  have hvalue := hm.value.reads n ('}' :: s) hn (delimited_of_mem (by simp) s)
  rw [memberText, List.cons_append, List.cons_append, List.append_assoc, parseMembers,
    skipBlank_cons (by decide)]
  simp only [List.cons_append, hm.key, skipBlank_cons (show isBlank ':' = false by decide), hvalue,
    skipBlank_cons (show isBlank '}' = false by decide), String.ofList_toList]

theorem length_memberText (m : List Char × List Char) : m.2.length + 3 ≤ (memberText m).length := by
  rw [memberText, List.length_append, List.length_cons, List.length_cons, List.length_cons]
  omega

theorem parseMembers_joined {ms : List (List Char × List Char)} {kvs : Members}
    (h : List.Forall₂ ReadsMember ms kvs) (hne : ms ≠ []) (n : ℕ) (rest : List Char)
    (hn : 2 * (joined (ms.map memberText)).length + 1 < n) :
    parseMembers n (joined (ms.map memberText) ++ '}' :: rest) = some (kvs, rest) := by
  induction h generalizing n with
  | nil => exact absurd rfl hne
  | @cons m kv ms kvs hm hms ih =>
    obtain ⟨n, rfl⟩ : ∃ k, n = k + 1 := ⟨n - 1, by omega⟩
    have hlen := length_memberText m
    cases hms with
    | nil =>
      rw [List.map_cons, List.map_nil, joined] at hn ⊢
      exact parseMembers_last hm (by omega) rest
    | @cons u w us ws hu hus =>
      rw [List.map_cons, List.map_cons, joined, List.length_append, List.length_cons] at hn
      rw [List.map_cons, List.map_cons, joined, List.append_assoc, List.cons_append,
        parseMembers_next hm (by omega), ← List.map_cons,
        ih (List.cons_ne_nil _ _) n (by rw [List.map_cons]; omega)]
      rfl

theorem joined_concat (t u : List Char) : ∀ ts : List (List Char),
    joined (t :: ts ++ [u]) = joined (t :: ts) ++ ',' :: u
  | [] => rfl
  | v :: ts => by
    have ih := joined_concat v u ts
    rw [List.cons_append, List.cons_append, joined, ← List.cons_append, ih, joined,
      List.append_assoc]
    rfl

/-- The head of what is joined is that of the first text. -/
theorem joined_append (t : List Char) (ts : List (List Char)) (s : List Char) :
    ∃ s', joined (t :: ts) ++ s = t ++ s' := by
  cases ts with
  | nil => exact ⟨s, rfl⟩
  | cons u us => exact ⟨',' :: (joined (u :: us) ++ s), by rw [joined, List.append_assoc]; rfl⟩

theorem parseValue_arr (n : ℕ) (s : List Char) :
    parseValue (n + 1) ('[' :: s) =
      match skipBlank s with
      | ']' :: s => some (.arr [], s)
      | s => (parseItems n s).map fun (vs, s) => (.arr vs, s) := by
  rw [parseValue, skipBlank_cons (by decide)]
  rfl

theorem parseValue_obj (n : ℕ) (s : List Char) :
    parseValue (n + 1) ('{' :: s) =
      match skipBlank s with
      | '}' :: s => some (.obj [], s)
      | s => (parseMembers n s).map fun (ms, s) => (.obj ms, s) := by
  rw [parseValue, skipBlank_cons (by decide)]
  rfl

theorem ReadsAs.arr {ts : List (List Char)} {vs : List Json} (h : List.Forall₂ ReadsAs ts vs) :
    ReadsAs ('[' :: joined ts ++ [']']) (.arr vs) := by
  refine ⟨⟨'[', _, rfl, by decide, by decide⟩, fun n rest hn _ => ?_⟩
  obtain ⟨n, rfl⟩ : ∃ k, n = k + 1 := ⟨n - 1, by omega⟩
  rw [List.length_append, List.length_cons, List.length_singleton] at hn
  rw [List.cons_append, List.cons_append, List.append_assoc, List.singleton_append, parseValue_arr]
  cases h with
  | nil => rfl
  | @cons t v ts vs ht hts =>
    obtain ⟨c, u, hc, hblank, hclose⟩ := ht.head
    obtain ⟨s', hs'⟩ := joined_append t ts (']' :: rest)
    have hskip : skipBlank (joined (t :: ts) ++ ']' :: rest) = joined (t :: ts) ++ ']' :: rest := by
      rw [hs', hc]
      exact skipBlank_cons hblank _
    have hitems := parseItems_joined (.cons ht hts) (List.cons_ne_nil _ _) n rest (by omega)
    rw [hskip]
    split
    · rename_i s heq
      rw [hs', hc] at heq
      exact absurd (List.cons.inj heq).1 hclose
    · rw [hitems]
      rfl

theorem ReadsAs.obj {ms : List (List Char × List Char)} {kvs : Members}
    (h : List.Forall₂ ReadsMember ms kvs) :
    ReadsAs ('{' :: joined (ms.map memberText) ++ ['}']) (.obj kvs) := by
  refine ⟨⟨'{', _, rfl, by decide, by decide⟩, fun n rest hn _ => ?_⟩
  obtain ⟨n, rfl⟩ : ∃ k, n = k + 1 := ⟨n - 1, by omega⟩
  rw [List.length_append, List.length_cons, List.length_singleton] at hn
  rw [List.cons_append, List.cons_append, List.append_assoc, List.singleton_append, parseValue_obj]
  cases h with
  | nil => rfl
  | @cons m kv ms kvs hm hms =>
    obtain ⟨s', hs'⟩ := joined_append (memberText m) (ms.map memberText) ('}' :: rest)
    have hskip : skipBlank (joined ((m :: ms).map memberText) ++ '}' :: rest) =
        joined ((m :: ms).map memberText) ++ '}' :: rest := by
      rw [List.map_cons, hs']
      exact skipBlank_cons (by decide) _
    have hmembers := parseMembers_joined (.cons hm hms) (List.cons_ne_nil _ _) n rest (by omega)
    rw [hskip]
    split
    · rename_i s heq
      rw [List.map_cons, hs'] at heq
      exact absurd (List.cons.inj heq).1 (by decide)
    · rw [hmembers]
      rfl

/-- A text of members with a comma between each two. -/
def ReadsMembers (t : List Char) (kvs : Members) : Prop :=
  ∃ ms, List.Forall₂ ReadsMember ms kvs ∧ t = joined (ms.map memberText)

namespace ReadsMembers

variable {t : List Char} {m : List Char × List Char} {kv kv' : String × Json} {kvs : Members}

theorem one (h : ReadsMember m kv) : ReadsMembers (memberText m) [kv] := ⟨[m], .cons h .nil, rfl⟩

theorem cons (h : ReadsMember m kv) (ht : ReadsMembers t (kv' :: kvs)) :
    ReadsMembers (memberText m ++ ',' :: t) (kv :: kv' :: kvs) := by
  obtain ⟨ms, hms, rfl⟩ := ht
  cases hms with
  | cons hm hms => exact ⟨_, .cons h (.cons hm hms), rfl⟩

theorem concat (ht : ReadsMembers t (kv :: kvs)) (h : ReadsMember m kv') :
    ReadsMembers (t ++ ',' :: memberText m) (kv :: kvs ++ [kv']) := by
  obtain ⟨ms, hms, rfl⟩ := ht
  cases hms with
  | @cons m₀ _ ms _ hm hms =>
    refine ⟨m₀ :: ms ++ [m], .cons hm (List.rel_append hms (.cons h .nil)), ?_⟩
    rw [List.map_append, List.map_cons, ← joined_concat]
    rfl

theorem obj (h : ReadsMembers t kvs) : ReadsAs ('{' :: t ++ ['}']) (.obj kvs) := by
  obtain ⟨ms, hms, rfl⟩ := h
  exact .obj hms

end ReadsMembers

/-! ### The last member of an object -/

section Last

variable {key : List Char} {k : String} (hkey : ∀ s, readString (key ++ '"' :: s) = some (k.toList, s))

include hkey

theorem parseMembers_value {n : ℕ} {s rest : List Char} {kvs : Members}
    (h : parseMembers n (memberText (key, s)) = some (kvs, rest)) :
    ∃ n' v s' more, parseValue n' s = some (v, s') ∧ kvs = (k, v) :: more := by
  cases n with
  | zero => cases h
  | succ n =>
    rw [memberText, List.cons_append, parseMembers, skipBlank_cons (by decide)] at h
    simp only [hkey, skipBlank_cons (show isBlank ':' = false by decide)] at h
    split at h
    · cases h
    · rename_i v s' hvalue
      refine ⟨n, v, s', ?_⟩
      split at h
      · obtain ⟨⟨more, r⟩, -, heq⟩ := Option.map_eq_some_iff.mp h
        rw [Prod.mk.injEq, String.ofList_toList] at heq
        exact ⟨more, hvalue, heq.1.symm⟩
      · rw [Option.some.injEq, Prod.mk.injEq, String.ofList_toList] at h
        exact ⟨[], hvalue, h.1.symm⟩
      · cases h

theorem parseMembers_after {ms : List (List Char × List Char)} {kvs out : Members}
    (hms : List.Forall₂ ReadsMember ms kvs) {n : ℕ} {s rest : List Char}
    (hn : 2 * (joined (ms.map memberText ++ [memberText (key, s)])).length < n)
    (h : parseMembers n (joined (ms.map memberText ++ [memberText (key, s)])) = some (out, rest)) :
    ∃ n' v s' more, parseValue n' s = some (v, s') ∧ out = kvs ++ (k, v) :: more := by
  induction hms generalizing n out rest with
  | nil => exact parseMembers_value hkey h
  | @cons m kv ms kvs hm hms ih =>
    obtain ⟨n, rfl⟩ : ∃ j, n = j + 1 := ⟨n - 1, by omega⟩
    have hjoined : joined ((m :: ms).map memberText ++ [memberText (key, s)]) =
        memberText m ++ ',' :: joined (ms.map memberText ++ [memberText (key, s)]) := by
      cases ms <;> rfl
    have hlen := length_memberText m
    rw [hjoined, List.length_append, List.length_cons] at hn
    have hfuel : 2 * m.2.length < n := by omega
    have htail : 2 * (joined (ms.map memberText ++ [memberText (key, s)])).length < n := by omega
    rw [hjoined, parseMembers_next hm hfuel] at h
    obtain ⟨⟨out', r⟩, hrest, heq⟩ := Option.map_eq_some_iff.mp h
    rw [Prod.mk.injEq] at heq
    obtain ⟨n', v, s', more, hvalue, rfl⟩ := ih htail hrest
    exact ⟨n', v, s', more, hvalue, by rw [← heq.1]; rfl⟩

/-- The value of the last member of an object that is parsed has been read off
the end of the text. -/
theorem parse_last {ms : List (List Char × List Char)} {kvs : Members} (hms : List.Forall₂ ReadsMember ms kvs)
    {text : String} {s : List Char} {v : Json}
    (htext : text.toList = '{' :: joined (ms.map memberText ++ [memberText (key, s)]))
    (h : parse text = some v) :
    ∃ n w s' more, parseValue n s = some (w, s') ∧ v = .obj (kvs ++ (k, w) :: more) := by
  obtain ⟨c, hc⟩ : ∃ c, joined (ms.map memberText ++ [memberText (key, s)]) = '"' :: c := by
    cases ms with
    | nil => exact ⟨_, rfl⟩
    | cons m ms =>
      obtain ⟨c, hc⟩ := joined_append (memberText m) (ms.map memberText ++ [memberText (key, s)]) []
      rw [List.append_nil] at hc
      exact ⟨_, hc⟩
  rw [JsonText.parse, htext, List.length_cons] at h
  split at h
  · rename_i v' rest hvalue
    rw [show ∀ l : ℕ, 2 * (l + 1) + 1 = 2 * l + 2 + 1 from fun l => by omega, parseValue_obj, hc,
      skipBlank_cons (by decide)] at hvalue
    split at hvalue
    · rename_i heq
      exact absurd (List.cons.inj heq).1 (by decide)
    · obtain ⟨⟨out, r⟩, hmembers, heq⟩ := Option.map_eq_some_iff.mp hvalue
      rw [← hc] at hmembers
      obtain ⟨n', w, s', more, hw, rfl⟩ := parseMembers_after hkey hms (by omega) hmembers
      rw [Prod.mk.injEq] at heq
      split at h
      · exact ⟨n', w, s', more, hw, by rw [← Option.some.inj h, ← heq.1]⟩
      · cases h
  · cases h

end Last

/-- **A string between quotes at the end of an object is read as it stands only
if it is plain.** -/
theorem plain_of_parseValue {n : ℕ} {t rest : List Char}
    (h : parseValue n ('"' :: t ++ ['"', '}']) = some (.str (String.ofList t), rest)) :
    ∀ c ∈ t, Plain c := by
  cases n with
  | zero => cases h
  | succ n =>
    rw [List.cons_append, parseValue, skipBlank_cons (by decide)] at h
    obtain ⟨⟨cs, r⟩, hread, heq⟩ := Option.map_eq_some_iff.mp h
    rw [Prod.mk.injEq, Json.str.injEq, String.ofList_inj] at heq
    obtain ⟨rfl, -⟩ := heq
    exact plain_of_readString (by decide) hread

/-- So where it is the last member of an object that is parsed. -/
theorem plain_of_last {key : String} (hkey : ∀ c ∈ key.toList, Plain c)
    {ms : List (List Char × List Char)} {kvs : Members} (hms : List.Forall₂ ReadsMember ms kvs)
    {text t : String} (htext : text.toList = '{' :: joined
      (ms.map memberText ++ [memberText (key.toList, '"' :: t.toList ++ ['"', '}'])]))
    (h : parse text = some (.obj (kvs ++ [(key, .str t)]))) : ∀ c ∈ t.toList, Plain c := by
  obtain ⟨n, w, s', more, hvalue, hdoc⟩ := parse_last (plain_readString hkey) hms htext h
  have hlast := List.append_cancel_left (Json.obj.inj hdoc)
  have hw : w = .str (String.ofList t.toList) := by
    rw [String.ofList_toList]
    exact (Prod.mk.inj (List.cons.inj hlast).1).2.symm
  rw [hw] at hvalue
  exact plain_of_parseValue hvalue

/-- A text that is no value at all. -/
theorem parseValue_eq_none {c : Char} {s : List Char} (hblank : isBlank c = false)
    (hc : c ∉ ['{', '[']) (h : readScalar (c :: s) = none) (n : ℕ) : parseValue n (c :: s) = none := by
  cases n with
  | zero => rfl
  | succ n =>
    rw [parseValue, skipBlank_cons hblank]
    split
    · rename_i heq
      exact absurd (List.cons.inj heq).1 fun he => hc (by simp [he])
    · rename_i heq
      exact absurd (List.cons.inj heq).1 fun he => hc (by simp [he])
    · exact h

/-! ### Writing -/

/-- A value all of whose numbers are written as numbers. -/
inductive WellFormed : Json → Prop
  | null : WellFormed .null
  | bool (b : Bool) : WellFormed (.bool b)
  | num (negative : Bool) {whole fraction : List Char} (hw : Whole whole)
      (hf : ∀ d ∈ fraction, d.isDigit = true) :
      WellFormed (.num (String.ofList (numberText negative whole fraction)))
  | str (s : String) : WellFormed (.str s)
  | arr {vs : List Json} (h : ∀ v ∈ vs, WellFormed v) : WellFormed (.arr vs)
  | obj {ms : Members} (h : ∀ m ∈ ms, WellFormed m.2) : WellFormed (.obj ms)

/-- A serializer, whose texts are read back. -/
structure Serializer where
  text : Json → List Char
  reads : ∀ v, WellFormed v → ReadsAs (text v) v

namespace Escaping

variable (E : Escaping)

def quoted (s : String) : List Char := '"' :: E.text s.toList ++ ['"']

theorem readsAs_quoted (s : String) : ReadsAs (E.quoted s) (.str s) := by
  have hread := ReadsAs.str (E.readString_text s.toList)
  rwa [String.ofList_toList] at hread

mutual

/-- A value written without white space. -/
def write : Json → List Char
  | .null => ['n', 'u', 'l', 'l']
  | .bool b => if b then ['t', 'r', 'u', 'e'] else ['f', 'a', 'l', 's', 'e']
  | .num t => t.toList
  | .str s => E.quoted s
  | .arr vs => '[' :: joined (writeItems vs) ++ [']']
  | .obj ms => '{' :: joined ((writeMembers ms).map memberText) ++ ['}']

def writeItems : List Json → List (List Char)
  | [] => []
  | v :: vs => write v :: writeItems vs

def writeMembers : Members → List (List Char × List Char)
  | [] => []
  | (k, v) :: ms => (E.text k.toList, write v) :: writeMembers ms

end

theorem readsAs_writeItems {vs : List Json} (h : ∀ v ∈ vs, ReadsAs (E.write v) v) :
    List.Forall₂ ReadsAs (E.writeItems vs) vs := by
  induction vs with
  | nil =>
    rw [writeItems]
    exact .nil
  | cons v vs ih =>
    rw [writeItems]
    exact .cons (h v List.mem_cons_self) (ih fun w hw => h w (List.mem_cons_of_mem v hw))

theorem readsAs_writeMembers {ms : Members} (h : ∀ m ∈ ms, ReadsAs (E.write m.2) m.2) :
    List.Forall₂ ReadsMember (E.writeMembers ms) ms := by
  induction ms with
  | nil =>
    rw [writeMembers]
    exact .nil
  | cons m ms ih =>
    rw [writeMembers]
    exact .cons ⟨E.readString_text m.1.toList, h m List.mem_cons_self⟩
      (ih fun w hw => h w (List.mem_cons_of_mem m hw))

theorem readsAs_write {v : Json} (h : WellFormed v) : ReadsAs (E.write v) v := by
  induction h with
  | null =>
    rw [write]
    exact .null
  | bool b =>
    rw [write]
    exact .bool b
  | num negative hw hf =>
    rw [write, String.toList_ofList]
    exact .number negative hw hf
  | str s =>
    rw [write]
    exact E.readsAs_quoted s
  | arr _ ih =>
    rw [write]
    exact .arr (E.readsAs_writeItems ih)
  | obj _ ih =>
    rw [write]
    exact .obj (E.readsAs_writeMembers ih)

def serializer : Serializer where
  text := E.write
  reads _ := E.readsAs_write

end Escaping

end JsonText
end Net
