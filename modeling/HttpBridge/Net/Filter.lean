/-
# Search filters

The string representation of LDAP filters (RFC 4515) as a parser (`parse`). An
item is cut at its first `=`, of which the character in front tells the kind,
and its value ends at the first closing parenthesis. A value is cut at its
asterisks, and each of its pieces is `unescape`d: a backslash with two
hexadecimal digits stands for an octet, a parenthesis, an asterisk, a backslash
or a NUL cannot stand for itself, and every other octet does.

* `of_unescape`: a piece that reads as itself is one without such an octet
  (`Clean`), for an escape is longer than what it stands for.
* `readItem_equal`, `of_readItem_equal`: so an equality assertion reads as the
  text it was written with exactly if that text is clean.
* `Reads`: what a text reads as wherever it stands, built up with the filter.
-/
import HttpBridge.Net.JsonText

namespace Net

open JsonText (hexValue)

inductive Filter where
  | and (filters : List Filter)
  | or (filters : List Filter)
  | not (filter : Filter)
  | equal (attr value : String)
  | approx (attr value : String)
  | greaterOrEqual (attr value : String)
  | lessOrEqual (attr value : String)
  | present (attr : String)
  | substrings (attr initial : String) (any : List String) (final : String)
  | extensible (attr rule : String) (dnAttrs : Bool) (value : String)

namespace Filter

/-! ### Values -/

/-- The octets that cannot stand for themselves. -/
def special : List Char := ['(', ')', '*', '\\', '\x00']

/-- A text without them. -/
def Clean (s : List Char) : Prop := ∀ c ∈ s, c ∉ special

/-- What a piece of a value stands for. -/
def unescape : List Char → Option (List Char)
  | [] => some []
  | '\\' :: a :: b :: s =>
    match hexValue a, hexValue b with
    | some a, some b => (unescape s).map (Char.ofNat (16 * a + b) :: ·)
    | _, _ => none
  | c :: s => if c ∈ special then none else (unescape s).map (c :: ·)

/-- The pieces of a value, and what follows it. -/
def readValue (s : List Char) : Option (List (List Char) × List Char) :=
  (((s.takeWhile (· ≠ ')')).splitOn '*').mapM unescape).map fun ps => (ps, s.dropWhile (· ≠ ')'))

/-! ### Items -/

def isKeyChar (c : Char) : Bool := c.isAlphanum || c == '-'

def isKeyString : List Char → Bool
  | [] => false
  | c :: s => c.isAlpha && s.all isKeyChar

def isNumber : List Char → Bool
  | [] => false
  | [c] => c.isDigit
  | c :: s => c.isDigit && c != '0' && s.all Char.isDigit

/-- A name or a dotted number. -/
def isOid (s : List Char) : Bool :=
  isKeyString s || (2 ≤ (s.splitOn '.').length && (s.splitOn '.').all isNumber)

/-- An object identifier and its options. -/
def isAttributeDescription (s : List Char) : Bool :=
  match s.splitOn ';' with
  | [] => false
  | oid :: options => isOid oid && options.all fun o => !o.isEmpty && o.all isKeyChar

/-- What the pieces assert of the attribute. -/
def assertion (attr : String) : List (List Char) → Option Filter
  | [] => none
  | [v] => some (.equal attr (String.ofList v))
  | [[], []] => some (.present attr)
  | v :: vs => some (.substrings attr (String.ofList v) (vs.dropLast.map String.ofList)
      (String.ofList (vs.getLastD [])))

/-- A matching rule in front of `:=`. -/
def matching (left : List Char) (value : String) : Option Filter :=
  let ok (attr rule : List Char) : Bool :=
    (attr.isEmpty || isAttributeDescription attr) && (rule.isEmpty || isOid rule) &&
      !(attr.isEmpty && rule.isEmpty)
  let build (attr rule : List Char) (dnAttrs : Bool) : Option Filter :=
    if ok attr rule then
      some (.extensible (String.ofList attr) (String.ofList rule) dnAttrs value)
    else none
  match left.splitOn ':' with
  | [attr] => build attr [] false
  | [attr, rule] =>
    if rule.map Char.toLower = "dn".toList then build attr [] true else build attr rule false
  | [attr, dn, rule] => if dn.map Char.toLower = "dn".toList then build attr rule true else none
  | _ => none

/-- The item with this text in front of its `=`. -/
def item (left : List Char) (ps : List (List Char)) : Option Filter :=
  let attr := String.ofList left.dropLast
  match left.getLast?, ps with
  | some ':', [v] => matching left.dropLast (String.ofList v)
  | some '~', [v] =>
    if isAttributeDescription left.dropLast then some (.approx attr (String.ofList v)) else none
  | some '>', [v] =>
    if isAttributeDescription left.dropLast then some (.greaterOrEqual attr (String.ofList v))
    else none
  | some '<', [v] =>
    if isAttributeDescription left.dropLast then some (.lessOrEqual attr (String.ofList v)) else none
  | _, ps => if isAttributeDescription left then assertion (String.ofList left) ps else none

def readItem (s : List Char) : Option (Filter × List Char) :=
  match s.dropWhile (· ≠ '=') with
  | [] => none
  | _ :: rest =>
    match readValue rest with
    | none => none
    | some (ps, rest) => (item (s.takeWhile (· ≠ '=')) ps).map fun f => (f, rest)

/-! ### Filters -/

/-- What was read, behind its closing parenthesis. -/
def close {α : Type} : Option (α × List Char) → Option (α × List Char)
  | some (a, ')' :: s) => some (a, s)
  | _ => none

/-- As many as there are, and at least one. -/
def many {α : Type} (read : List Char → Option (α × List Char)) :
    ℕ → List Char → Option (List α × List Char)
  | 0, _ => none
  | n + 1, s =>
    match read s with
    | none => none
    | some (a, s) =>
      if s.head? = some '(' then (many read n s).map fun (as, s) => (a :: as, s) else some ([a], s)

def readFilter : ℕ → List Char → Option (Filter × List Char)
  | 0, _ => none
  | n + 1, '(' :: '&' :: s => close ((many (readFilter n) n s).map fun (fs, s) => (.and fs, s))
  | n + 1, '(' :: '|' :: s => close ((many (readFilter n) n s).map fun (fs, s) => (.or fs, s))
  | n + 1, '(' :: '!' :: s => close ((readFilter n s).map fun (f, s) => (.not f, s))
  | _ + 1, '(' :: s => close (readItem s)
  | _ + 1, _ => none

/-- The filter that a text stands for. -/
def parse (s : String) : Option Filter :=
  match readFilter (s.length + 1) s.toList with
  | some (f, []) => some f
  | _ => none

example : (parse "(&(a=b)(|(c>=1)(d:dn:2.5.13.5:=x)))").isSome = true := by decide +kernel

/-! ### Clean texts -/

instance (s : List Char) : Decidable (Clean s) := inferInstanceAs (Decidable (∀ c ∈ s, c ∉ special))

theorem unescape_of_clean {s : List Char} (h : Clean s) : unescape s = some s := by
  induction s with
  | nil => rfl
  | cons c s ih =>
    have hc := h c List.mem_cons_self
    have hne : c ≠ '\\' := by
      rintro rfl
      exact hc (by decide)
    rw [unescape.eq_3 c s fun _ _ _ hc' => absurd hc' hne, if_neg hc,
      ih fun d hd => h d (List.mem_cons_of_mem c hd)]
    rfl

/-- An escape is longer than the octet it stands for; without one a text that can
be read is clean. -/
theorem of_unescape {s t : List Char} (h : unescape s = some t) :
    t.length < s.length ∨ (t = s ∧ Clean s) := by
  induction s using unescape.induct generalizing t with
  | case1 =>
    cases h
    exact .inr ⟨rfl, fun _ hc => absurd hc List.not_mem_nil⟩
  | case2 a b s x y hb ha ih =>
    rw [unescape, ha, hb] at h
    obtain ⟨u, hu, rfl⟩ := Option.map_eq_some_iff.mp h
    refine .inl ?_
    rcases ih hu with hlt | ⟨rfl, -⟩
    · simp only [List.length_cons]
      omega
    · simp only [List.length_cons]
      omega
  | case3 a b s hno =>
    rw [unescape] at h
    split at h
    case h_1 x y ha hb => exact absurd hb (hno x y ha)
    case h_2 => cases h
  | case4 c s hno hc =>
    rw [unescape.eq_3 c s hno, if_pos hc] at h
    cases h
  | case5 c s hno hc ih =>
    rw [unescape.eq_3 c s hno, if_neg hc] at h
    obtain ⟨u, hu, rfl⟩ := Option.map_eq_some_iff.mp h
    rcases ih hu with hlt | ⟨rfl, hclean⟩
    · exact .inl (by simpa using hlt)
    · refine .inr ⟨rfl, fun d hd => ?_⟩
      rcases List.mem_cons.mp hd with rfl | hd
      · exact hc
      · exact hclean d hd

/-- A text that can be read holds no asterisk and no parenthesis. -/
theorem not_mem_of_unescape {s t : List Char} (h : unescape s = some t) : ')' ∉ s ∧ '*' ∉ s := by
  induction s using unescape.induct generalizing t with
  | case1 => exact ⟨List.not_mem_nil, List.not_mem_nil⟩
  | case2 a b s x y hb ha ih =>
    rw [unescape, ha, hb] at h
    obtain ⟨u, hu, -⟩ := Option.map_eq_some_iff.mp h
    have hdigit : ∀ c z, hexValue c = some z → ')' ≠ c ∧ '*' ≠ c := by
      intro c z hc
      have hclose : hexValue ')' = none := by decide
      have hstar : hexValue '*' = none := by decide
      constructor
      · rintro rfl
        rw [hclose] at hc
        cases hc
      · rintro rfl
        rw [hstar] at hc
        cases hc
    have ha' := hdigit a x ha
    have hb' := hdigit b y hb
    obtain ⟨ih₁, ih₂⟩ := ih hu
    simp only [List.mem_cons, not_or]
    exact ⟨⟨by decide, ha'.1, hb'.1, ih₁⟩, by decide, ha'.2, hb'.2, ih₂⟩
  | case3 a b s hno =>
    rw [unescape] at h
    split at h
    case h_1 x y ha hb => exact absurd hb (hno x y ha)
    case h_2 => cases h
  | case4 c s hno hc =>
    rw [unescape.eq_3 c s hno, if_pos hc] at h
    cases h
  | case5 c s hno hc ih =>
    rw [unescape.eq_3 c s hno, if_neg hc] at h
    obtain ⟨u, hu, -⟩ := Option.map_eq_some_iff.mp h
    obtain ⟨ih₁, ih₂⟩ := ih hu
    simp only [List.mem_cons, not_or]
    refine ⟨⟨?_, ih₁⟩, ?_, ih₂⟩
    · rintro rfl
      exact hc (by decide)
    · rintro rfl
      exact hc (by decide)

/-! ### Values in place -/

section Values

variable {v w : List Char} (rest : List Char)

theorem takeWhile_append_close (h : ')' ∉ v) :
    (v ++ ')' :: rest).takeWhile (· ≠ ')') = v ∧ (v ++ ')' :: rest).dropWhile (· ≠ ')') = ')' :: rest := by
  have hv : ∀ c ∈ v, decide (c ≠ ')') = true := fun c hc => by
    rw [decide_eq_true_iff]
    rintro rfl
    exact h hc
  rw [List.takeWhile_append_of_pos hv, List.dropWhile_append_of_pos hv]
  simp

theorem readValue_of_unescape (h : unescape v = some w) :
    readValue (v ++ ')' :: rest) = some ([w], ')' :: rest) := by
  obtain ⟨hclose, hstar⟩ := not_mem_of_unescape h
  obtain ⟨htake, hdrop⟩ := takeWhile_append_close rest hclose
  unfold readValue
  rw [htake, hdrop, List.splitOn_eq_singleton hstar]
  simp [h]

/-- A value with an asterisk behind it is what it has to begin with. -/
theorem readValue_initial (h : unescape v = some w) :
    readValue (v ++ '*' :: ')' :: rest) = some ([w, []], ')' :: rest) := by
  obtain ⟨hclose, hstar⟩ := not_mem_of_unescape h
  have hclose' : ')' ∉ v ++ ['*'] := by
    rw [List.mem_append, not_or]
    exact ⟨hclose, by decide⟩
  obtain ⟨htake, hdrop⟩ := takeWhile_append_close rest hclose'
  rw [List.append_assoc, List.singleton_append] at htake hdrop
  unfold readValue
  rw [htake, hdrop, List.splitOn_append_cons_self_of_not_mem hstar]
  simp [h, unescape]

/-- A value that is read as the text it was written with is clean. -/
theorem of_readValue {r : List Char} (h : readValue (v ++ ')' :: rest) = some ([v], r)) :
    Clean v ∧ r = ')' :: rest := by
  unfold readValue at h
  obtain ⟨ps, hps, hread⟩ := Option.map_eq_some_iff.mp h
  obtain ⟨rfl, hr⟩ := Prod.mk.inj hread
  generalize hraw : (v ++ ')' :: rest).takeWhile (· ≠ ')') = raw at hps
  -- what is read ends within what was written
  have hprefix : raw <+: v := by
    have hle : raw.length ≤ v.length := by
      by_contra hlt
      have hraw' : raw <+: v ++ ')' :: rest := by
        rw [← hraw]
        exact List.takeWhile_prefix _
      have hlonger : v ++ [')'] <+: raw :=
        List.prefix_of_prefix_length_le (by simp) hraw' (by rw [List.length_append]; simp; omega)
      have hmem : ')' ∈ raw := hlonger.subset (by simp)
      rw [← hraw] at hmem
      exact absurd (List.mem_takeWhile_imp hmem) (by simp)
    have hraw' : raw <+: v ++ ')' :: rest := by
      rw [← hraw]
      exact List.takeWhile_prefix _
    exact List.prefix_of_prefix_length_le hraw' (List.prefix_append _ _) hle
  have hone : raw.splitOn '*' = [raw] ∧ unescape raw = some v := by
    cases hsplit : raw.splitOn '*' with
    | nil => exact absurd hsplit (List.splitOn_ne_nil _ _)
    | cons p ps =>
      rw [hsplit] at hps
      cases ps with
      | nil =>
        have hp : raw = p := by
          have hjoin : ['*'].intercalate (raw.splitOn '*') = raw := List.intercalate_splitOn '*'
          rw [hsplit] at hjoin
          simpa using hjoin.symm
        refine ⟨by rw [hp], ?_⟩
        rw [hp]
        simpa [List.mapM_cons, Option.bind_eq_some_iff] using hps
      | cons q ps =>
        exfalso
        simp [List.mapM_cons, Option.bind_eq_some_iff] at hps
  rcases of_unescape hone.2 with hlt | ⟨rfl, hclean⟩
  · have hle := hprefix.length_le
    omega
  · refine ⟨hclean, ?_⟩
    have hclose := (not_mem_of_unescape hone.2).1
    rw [← hr]
    exact (takeWhile_append_close rest hclose).2

end Values

/-! ### Items in place -/

/-- An attribute that is named by letters. -/
def Word (attr : List Char) : Prop := attr ≠ [] ∧ ∀ c ∈ attr, c.isAlpha = true

instance (attr : List Char) : Decidable (Word attr) := inferInstanceAs (Decidable (_ ∧ _))

theorem of_assertion_equal {attr : String} {ps : List (List Char)} {v : List Char}
    (h : assertion attr ps = some (.equal attr (String.ofList v))) : ps = [v] := by
  unfold assertion at h
  split at h
  · cases h
  · rw [String.ofList_injective (Filter.equal.inj (Option.some.inj h)).2]
  · cases h
  · cases h

section Items

variable {attr : List Char} (hattr : Word attr)
include hattr

theorem Word.not_mem {c : Char} (hc : c.isAlpha = false) : c ∉ attr := fun hmem => by
  rw [hattr.2 c hmem] at hc
  cases hc

theorem Word.isAttributeDescription : isAttributeDescription attr = true := by
  have hsplit : attr.splitOn ';' = [attr] := List.splitOn_eq_singleton (hattr.not_mem (by decide))
  unfold Filter.isAttributeDescription
  rw [hsplit]
  cases attr with
  | nil => exact absurd rfl hattr.1
  | cons c s =>
    have hkey : s.all isKeyChar = true := List.all_eq_true.mpr fun d hd => by
      simp [isKeyChar, Char.isAlphanum, hattr.2 d (List.mem_cons_of_mem c hd)]
    simp [isOid, isKeyString, hattr.2 c List.mem_cons_self, hkey]

/-- Behind a word stands an equality, a presence or a substrings assertion. -/
theorem item_word (ps : List (List Char)) : item attr ps = assertion (String.ofList attr) ps := by
  have hlast : ∀ c : Char, c.isAlpha = false → attr.getLast? ≠ some c := fun c hc h =>
    hattr.not_mem hc (List.mem_of_mem_getLast? h)
  have hkind : ∀ c ∈ [':', '~', '>', '<'], attr.getLast? ≠ some c := fun c hc =>
    hlast c (by revert c; decide)
  unfold item
  split
  case h_1 h => exact absurd h (hkind ':' (by decide))
  case h_2 h => exact absurd h (hkind '~' (by decide))
  case h_3 h => exact absurd h (hkind '>' (by decide))
  case h_4 h => exact absurd h (hkind '<' (by decide))
  case h_5 => rw [if_pos hattr.isAttributeDescription]

theorem readItem_word (s : List Char) :
    readItem (attr ++ '=' :: s) =
      match readValue s with
      | none => none
      | some (ps, rest) => (assertion (String.ofList attr) ps).map fun f => (f, rest) := by
  have hattr' : ∀ c ∈ attr, decide (c ≠ '=') = true := fun c hc => by
    rw [decide_eq_true_iff]
    rintro rfl
    exact hattr.not_mem (by decide) hc
  unfold readItem
  rw [List.takeWhile_append_of_pos hattr', List.dropWhile_append_of_pos hattr']
  simp only [ne_eq, not_true_eq_false, decide_false, Bool.false_eq_true, not_false_eq_true,
    List.dropWhile_cons_of_neg, List.takeWhile_cons_of_neg, List.append_nil, item_word hattr]

variable {v w : List Char} (rest : List Char)

theorem readItem_equal (h : unescape v = some w) :
    readItem (attr ++ '=' :: (v ++ ')' :: rest)) =
      some (.equal (String.ofList attr) (String.ofList w), ')' :: rest) := by
  rw [readItem_word hattr, readValue_of_unescape rest h]
  rfl

/-- What a value has to begin with: anything, where that is empty. -/
def initialOf (attr initial : String) : Filter :=
  if initial = "" then .present attr else .substrings attr initial [] ""

theorem readItem_initial (h : unescape v = some w) :
    readItem (attr ++ '=' :: (v ++ '*' :: ')' :: rest)) =
      some (initialOf (String.ofList attr) (String.ofList w), ')' :: rest) := by
  rw [readItem_word hattr, readValue_initial rest h, initialOf]
  cases w with
  | nil => rfl
  | cons c w =>
    rw [if_neg (by simp)]
    rfl

/-- An equality assertion that reads as the text it was written with was written
with a clean text. -/
theorem of_readItem_equal {r : List Char}
    (h : readItem (attr ++ '=' :: (v ++ ')' :: rest)) =
      some (.equal (String.ofList attr) (String.ofList v), r)) : Clean v ∧ r = ')' :: rest := by
  rw [readItem_word hattr] at h
  cases hread : readValue (v ++ ')' :: rest) with
  | none =>
    rw [hread] at h
    cases h
  | some pr =>
    obtain ⟨ps, r'⟩ := pr
    rw [hread] at h
    obtain ⟨f, hf, hfr⟩ := Option.map_eq_some_iff.mp h
    obtain ⟨rfl, rfl⟩ := Prod.mk.inj hfr
    rw [of_assertion_equal hf] at hread
    exact of_readValue rest hread

end Items

/-! ### Filters in place -/

theorem close_eq_some {α : Type} {o : Option (α × List Char)} {a : α} {s : List Char} :
    close o = some (a, s) ↔ o = some (a, ')' :: s) := by
  unfold close
  split
  · rename_i b t
    simp
  · rename_i hno
    exact ⟨fun h => absurd h (Option.some_ne_none _).symm, fun h => absurd h (hno a s)⟩

theorem readFilter_item {attr : List Char} (hattr : Word attr) (n : ℕ) (s : List Char) :
    readFilter (n + 1) ('(' :: (attr ++ s)) = close (readItem (attr ++ s)) := by
  cases attr with
  | nil => exact absurd rfl hattr.1
  | cons c attr =>
    have hne : ∀ d : Char, d.isAlpha = false → ∀ t, c :: (attr ++ s) ≠ d :: t := by
      intro d hd t h
      rw [← (List.cons.inj h).1, hattr.2 c List.mem_cons_self] at hd
      cases hd
    rw [List.cons_append, readFilter]
    · exact hne '&' (by decide)
    · exact hne '|' (by decide)
    · exact hne '!' (by decide)

/-- What a text reads as, whatever follows it. -/
def Reads (s : List Char) (f : Filter) : Prop :=
  s.head? = some '(' ∧ ∀ n rest, s.length < n → readFilter n (s ++ rest) = some (f, rest)

/-- A filter is read off any spelling of its text. -/
theorem parse_of_reads {s : String} {text : List Char} {f : Filter} (htext : s.toList = text)
    (h : Reads text f) : parse s = some f := by
  subst htext
  have hread := h.2 (s.length + 1) [] (by rw [String.length_toList]; omega)
  rw [List.append_nil] at hread
  rw [parse, hread]

/-- An item whose value is read where it stands. -/
theorem Reads.item {attr v : List Char} {f : Filter} (hattr : Word attr)
    (h : ∀ rest, readItem (attr ++ '=' :: (v ++ ')' :: rest)) = some (f, ')' :: rest)) :
    Reads ('(' :: (attr ++ '=' :: (v ++ [')']))) f := by
  refine ⟨rfl, fun n rest hn => ?_⟩
  obtain ⟨n, rfl⟩ : ∃ m, n = m + 1 := ⟨n - 1, by omega⟩
  have happ : ('(' :: (attr ++ '=' :: (v ++ [')']))) ++ rest =
      '(' :: (attr ++ '=' :: (v ++ ')' :: rest)) := by simp
  rw [happ, readFilter_item hattr, h rest]
  rfl

/-- Filters one behind another. -/
theorem many_of_reads {ps : List (List Char × Filter)} (hps : ∀ p ∈ ps, Reads p.1 p.2) (hne : ps ≠ [])
    {n m : ℕ} (hn : ps.length ≤ n) (hm : ∀ p ∈ ps, p.1.length < m) (rest : List Char) :
    many (readFilter m) n (ps.flatMap (·.1) ++ ')' :: rest) = some (ps.map (·.2), ')' :: rest) := by
  induction ps generalizing n with
  | nil => exact absurd rfl hne
  | cons p ps ih =>
    obtain ⟨n, rfl⟩ : ∃ k, n = k + 1 := ⟨n - 1, by rw [List.length_cons] at hn; omega⟩
    have hp := (hps p List.mem_cons_self).2 m (ps.flatMap (·.1) ++ ')' :: rest) (hm p List.mem_cons_self)
    rw [List.flatMap_cons, List.append_assoc, many, hp]
    cases ps with
    | nil => rfl
    | cons q ps =>
      have hq := (hps q (List.mem_cons_of_mem p List.mem_cons_self)).1
      have hhead : ((q :: ps).flatMap (·.1) ++ ')' :: rest).head? = some '(' := by
        rw [List.flatMap_cons]
        cases hs : q.1 with
        | nil =>
          rw [hs] at hq
          cases hq
        | cons c s =>
          rw [hs] at hq
          exact hq
      have hrest := ih (fun p' hp' => hps p' (List.mem_cons_of_mem p hp')) (List.cons_ne_nil q ps)
        (by simpa using hn) fun p' hp' => hm p' (List.mem_cons_of_mem p hp')
      simp only [hhead, if_true, hrest]
      rfl

theorem Reads.length_pos {s : List Char} {f : Filter} (h : Reads s f) : 0 < s.length := by
  cases s with
  | nil => cases h.1
  | cons c s => exact Nat.succ_pos _

theorem many_of_reads_append {ps : List (List Char × Filter)} (hps : ∀ p ∈ ps, Reads p.1 p.2)
    (hne : ps ≠ []) {n : ℕ} (hn : (ps.flatMap (·.1)).length < n) (rest : List Char) :
    many (readFilter n) n (ps.flatMap (·.1) ++ ')' :: rest) = some (ps.map (·.2), ')' :: rest) := by
  have hlengths : ∀ qs : List (List Char × Filter), (∀ p ∈ qs, Reads p.1 p.2) →
      qs.length ≤ (qs.flatMap (·.1)).length ∧ ∀ p ∈ qs, p.1.length ≤ (qs.flatMap (·.1)).length := by
    intro qs hqs
    induction qs with
    | nil => exact ⟨le_refl 0, fun p hp => absurd hp List.not_mem_nil⟩
    | cons q qs ih =>
      obtain ⟨ih₁, ih₂⟩ := ih fun p hp => hqs p (List.mem_cons_of_mem q hp)
      have hpos := (hqs q List.mem_cons_self).length_pos
      rw [List.flatMap_cons, List.length_append, List.length_cons]
      refine ⟨by omega, fun p hp => ?_⟩
      rcases List.mem_cons.mp hp with rfl | hp
      · omega
      · exact (ih₂ p hp).trans (by omega)
  obtain ⟨hcount, hlength⟩ := hlengths ps hps
  exact many_of_reads hps hne (by omega) (fun p hp => by have hle := hlength p hp; omega) rest

/-- Filters under an operator, `&` or `|`. -/
def Joins (c : Char) (mk : List Filter → Filter) : Prop :=
  ∀ n s, readFilter (n + 1) ('(' :: c :: s) =
    close ((many (readFilter n) n s).map fun (fs, s) => (mk fs, s))

theorem joins_and : Joins '&' .and := fun _ _ => rfl

theorem joins_or : Joins '|' .or := fun _ _ => rfl

theorem Joins.reads {c : Char} {mk : List Filter → Filter} (hop : Joins c mk)
    {ps : List (List Char × Filter)} (hps : ∀ p ∈ ps, Reads p.1 p.2) (hne : ps ≠ []) :
    Reads ('(' :: c :: (ps.flatMap (·.1) ++ [')'])) (mk (ps.map (·.2))) := by
  refine ⟨rfl, fun n rest hn => ?_⟩
  obtain ⟨n, rfl⟩ : ∃ m, n = m + 1 := ⟨n - 1, by omega⟩
  simp only [List.length_cons, List.length_append, List.length_nil] at hn
  have hmany := many_of_reads_append hps hne (n := n) (by omega) rest
  simp only [List.cons_append, List.append_assoc, List.nil_append, hop n, hmany]
  rfl

theorem Reads.and {ps : List (List Char × Filter)} (hps : ∀ p ∈ ps, Reads p.1 p.2) (hne : ps ≠ []) :
    Reads ('(' :: '&' :: (ps.flatMap (·.1) ++ [')'])) (.and (ps.map (·.2))) :=
  joins_and.reads hps hne

theorem Reads.or {ps : List (List Char × Filter)} (hps : ∀ p ∈ ps, Reads p.1 p.2) (hne : ps ≠ []) :
    Reads ('(' :: '|' :: (ps.flatMap (·.1) ++ [')'])) (.or (ps.map (·.2))) :=
  joins_or.reads hps hne

/-! ### What was written -/

theorem of_parse {s : String} {f : Filter} (h : parse s = some f) :
    ∃ n, readFilter n s.toList = some (f, []) := by
  unfold parse at h
  split at h
  · rename_i g hread
    rw [← Option.some.inj h]
    exact ⟨_, hread⟩
  · cases h

theorem Joins.of_readFilter {c : Char} {mk : List Filter → Filter} (hop : Joins c mk)
    (hinj : Function.Injective mk) {n : ℕ} {s r : List Char} {fs : List Filter}
    (h : readFilter n ('(' :: c :: s) = some (mk fs, r)) :
    ∃ m, many (readFilter m) m s = some (fs, ')' :: r) := by
  cases n with
  | zero => cases h
  | succ m =>
    rw [hop, close_eq_some] at h
    obtain ⟨⟨gs, t⟩, hmany, heq⟩ := Option.map_eq_some_iff.mp h
    obtain ⟨hfs, rfl⟩ := Prod.mk.inj heq
    rw [hinj hfs] at hmany
    exact ⟨m, hmany⟩

theorem of_readFilter_and {n : ℕ} {s r : List Char} {fs : List Filter}
    (h : readFilter n ('(' :: '&' :: s) = some (.and fs, r)) :
    ∃ m, many (readFilter m) m s = some (fs, ')' :: r) :=
  joins_and.of_readFilter (fun _ _ => Filter.and.inj) h

theorem of_readFilter_or {n : ℕ} {s r : List Char} {fs : List Filter}
    (h : readFilter n ('(' :: '|' :: s) = some (.or fs, r)) :
    ∃ m, many (readFilter m) m s = some (fs, ')' :: r) :=
  joins_or.of_readFilter (fun _ _ => Filter.or.inj) h

theorem of_many_cons {α : Type} {read : List Char → Option (α × List Char)} {n : ℕ} {s r : List Char}
    {a : α} {as : List α} (h : many read n s = some (a :: as, r)) :
    ∃ t, read s = some (a, t) ∧ (as ≠ [] → ∃ m, many read m t = some (as, r)) := by
  cases n with
  | zero => cases h
  | succ m =>
    rw [many] at h
    cases hread : read s with
    | none =>
      rw [hread] at h
      cases h
    | some p =>
      obtain ⟨b, t⟩ := p
      rw [hread] at h
      dsimp only at h
      by_cases hhead : t.head? = some '('
      · rw [if_pos hhead] at h
        obtain ⟨⟨bs, u⟩, hmany, heq⟩ := Option.map_eq_some_iff.mp h
        obtain ⟨hcons, rfl⟩ := Prod.mk.inj heq
        obtain ⟨rfl, rfl⟩ := List.cons.inj hcons
        exact ⟨t, rfl, fun _ => ⟨m, hmany⟩⟩
      · rw [if_neg hhead] at h
        obtain ⟨hcons, rfl⟩ := Prod.mk.inj (Option.some.inj h)
        obtain ⟨rfl, rfl⟩ := List.cons.inj hcons
        exact ⟨t, rfl, fun hne => absurd rfl hne⟩

/-- An equality that reads as the text it was written with, among other filters. -/
theorem of_readFilter_equal {attr v rest r : List Char} {n : ℕ} (hattr : Word attr)
    (h : readFilter n ('(' :: (attr ++ '=' :: (v ++ ')' :: rest))) =
      some (.equal (String.ofList attr) (String.ofList v), r)) : Clean v ∧ r = rest := by
  cases n with
  | zero => cases h
  | succ m =>
    rw [readFilter_item hattr, close_eq_some] at h
    obtain ⟨hclean, hr⟩ := of_readItem_equal hattr rest h
    exact ⟨hclean, (List.cons.inj hr).2⟩

end Filter
end Net
