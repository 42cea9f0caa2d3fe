/-
# Strings and tenant names

`std::string` is modelled by `String`, one character for each byte. The
searches of the standard library are on the list of characters: `indexOf` is
`find`, `lastIndexOf` is `rfind`, and both give the position of a match or
nothing (`beforeFirst_indexOf`, `behindLast_lastIndexOf`).

On them stands the tenant of a request (`utils.cpp`): the `X-Tenant` header
unless it is a reserved label, else the first label of the host, else
`default`. So a tenant is never empty (`resolveTenant_ne_empty`).
-/
import Mathlib.Algebra.Group.Int.Defs
import Mathlib.Data.List.Basic
import Mathlib.Data.List.DropRight
import Mathlib.Data.String.Basic
import Mathlib.Tactic.Common

namespace HttpBridge

/-- The first position at which `pat` occurs. -/
def indexOf (pat : List Char) : List Char → Option ℕ
  | [] => if pat.isEmpty then some 0 else none
  | c :: s => if pat.isPrefixOf (c :: s) then some 0 else (indexOf pat s).map (· + 1)

/-- The last position at which `pat` occurs. -/
def lastIndexOf (pat : List Char) : List Char → Option ℕ
  | [] => if pat.isEmpty then some 0 else none
  | c :: s =>
    match lastIndexOf pat s with
    | some i => some (i + 1)
    | none => if pat.isPrefixOf (c :: s) then some 0 else none

/-- `s.rfind(pre, 0) == 0`. -/
def startsWith (pre s : String) : Bool := pre.toList.isPrefixOf s.toList

/-- `tolower` of the C locale over a string. -/
def lowered (s : String) : String := String.ofList (s.toList.map Char.toLower)

/-- The string a C string with these bytes stands for: what is before the
first NUL. -/
def cString (s : String) : String := String.ofList (s.toList.takeWhile (· ≠ '\x00'))

/-- `s.substr(0, s.find(c))`: all of `s` where `c` does not occur. -/
def upTo (c : Char) (s : String) : String := String.ofList (s.toList.takeWhile (· ≠ c))

/-- What follows the first `c`. -/
def after (c : Char) (s : String) : String := String.ofList ((s.toList.dropWhile (· ≠ c)).drop 1)

/-- What `getline` reads up to each delimiter; nothing after the last one. -/
def splitChars (delimiter : Char) : List Char → List (List Char)
  | [] => []
  | c :: s =>
    if c = delimiter then [] :: splitChars delimiter s
    else
      match splitChars delimiter s with
      | [] => [[c]]
      | token :: tokens => (c :: token) :: tokens

/-- `utils.cpp`, `splitString`. -/
def splitString (str : String) (delimiter : Char) : List String :=
  (splitChars delimiter str.toList).map String.ofList

/-- `s` from its first character that is not in `blank` to its last. -/
def trimmed (blank : List Char) (s : String) : String :=
  String.ofList ((s.toList.dropWhile (· ∈ blank)).rdropWhile (· ∈ blank))

@[simp] theorem trimmed_empty (blank : List Char) : trimmed blank "" = "" := by
  simp [trimmed]

/-- Splitting at every delimiter gives what `getline` reads, and possibly one
more piece, which is empty. -/
theorem splitOn_eq_splitChars (d : Char) (s : List Char) :
    s.splitOn d = splitChars d s ∨ s.splitOn d = splitChars d s ++ [[]] := by
  induction s with
  | nil => exact .inr (by simp [splitChars, List.splitOn_nil])
  | cons c s ih =>
    rw [List.splitOn_cons_eq_if_modifyHead, splitChars]
    by_cases hc : c = d
    · rw [if_pos hc, if_pos (by simpa using hc)]
      have happ : ([] :: splitChars d s) ++ [[]] = [] :: (splitChars d s ++ [[]]) := rfl
      rw [happ]
      exact ih.imp (congrArg _) (congrArg _)
    · rw [if_neg hc, if_neg (by simpa using hc)]
      have hne := List.splitOn_ne_nil d s
      cases htail : splitChars d s with
      | nil =>
        rw [htail] at ih
        have hs : s.splitOn d = [[]] := ih.resolve_left hne
        exact .inl (by rw [hs]; rfl)
      | cons token tokens =>
        rw [htail] at ih
        refine ih.imp (fun h => ?_) (fun h => ?_)
        · rw [h]
          rfl
        · rw [h]
          rfl

/-! ### Literals -/

/-- A literal is the text of its characters. -/
theorem not_mem_literal {c : Char} {cs : List Char} (h : c ∉ cs) : c ∉ (String.ofList cs).toList := by
  rwa [String.toList_ofList]

theorem not_mem_append {c : Char} {s t : String} (hs : c ∉ s.toList) (ht : c ∉ t.toList) :
    c ∉ (s ++ t).toList := by
  rw [String.toList_append, List.mem_append, not_or]
  exact ⟨hs, ht⟩

/-! ### Numbers -/

/-- `isspace` of the C locale. -/
def isSpace (c : Char) : Bool := c ∈ [' ', '\t', '\n', '\x0b', '\x0c', '\r']

/-- The number a list of decimal digits stands for. -/
def digitsValue (ds : List Char) : ℕ := ds.foldl (fun n c => 10 * n + (c.toNat - '0'.toNat)) 0

/-- The sign and the digits at the head of `s`, as `strtol` reads them. -/
def leadingNumber (s : String) : Option (Bool × ℕ) :=
  let body := s.toList.dropWhile isSpace
  let rest := match body with
    | '-' :: rest => rest
    | '+' :: rest => rest
    | rest => rest
  let digits := rest.takeWhile Char.isDigit
  if digits.isEmpty then none else some (body.head? == some '-', digitsValue digits)

/-- `std::stol`; nothing where it throws. -/
def stol (s : String) : Option ℤ := do
  let (negative, n) ← leadingNumber s
  let value : ℤ := if negative then -n else n
  if -2 ^ 63 ≤ value && value < 2 ^ 63 then some value else none

/-- `std::stoul`; nothing where it throws. -/
def stoul (s : String) : Option ℕ := do
  let (negative, n) ← leadingNumber s
  if n < 2 ^ 64 then some (if negative then (2 ^ 64 - n) % 2 ^ 64 else n) else none

theorem upTo_append {c : Char} {s t : String} (h : c ∉ s.toList) :
    upTo c (s ++ String.singleton c ++ t) = s := by
  have hs : ∀ a ∈ s.toList, decide (a ≠ c) = true := fun a ha => by
    rw [decide_eq_true_iff]
    rintro rfl
    exact h ha
  rw [upTo, String.toList_append, String.toList_append, List.append_assoc,
    List.takeWhile_append_of_pos hs]
  simp

theorem after_append {c : Char} {s t : String} (h : c ∉ s.toList) :
    after c (s ++ String.singleton c ++ t) = t := by
  have hs : ∀ a ∈ s.toList, decide (a ≠ c) = true := fun a ha => by
    rw [decide_eq_true_iff]
    rintro rfl
    exact h ha
  rw [after, String.toList_append, String.toList_append, List.append_assoc,
    List.dropWhile_append_of_pos hs]
  simp

theorem append_upTo_after {c : Char} {s : String} (h : c ∈ s.toList) :
    s = upTo c s ++ String.singleton c ++ after c s ∧ c ∉ (upTo c s).toList := by
  obtain ⟨u, v, hs, hu⟩ := List.eq_append_cons_of_mem h
  have hstr : s = String.ofList u ++ String.singleton c ++ String.ofList v := by
    rw [← String.toList_inj, hs]
    simp
  have hu : c ∉ (String.ofList u).toList := by rwa [String.toList_ofList]
  rw [hstr, upTo_append hu, after_append hu]
  exact ⟨rfl, hu⟩

/-- `utils.cpp`, `isReservedTenantLabel`, with the sign-in label in force. -/
def isReservedTenantLabel (loginLabel label : String) : Bool :=
  lowered label == "www" || lowered label == loginLabel

def allDigits (s : String) : Bool := s.toList.all fun c => '0' ≤ c ∧ c ≤ '9'

/-- `utils.cpp`, `extractTenantFromHostname`: the part before the first hyphen
of the first label, unless that is no tenant's. -/
def extractTenantFromHostname (loginLabel hostname : String) : String :=
  let host := upTo ':' hostname
  if '.' ∉ host.toList then ""
  else
    let subdomain := upTo '-' (upTo '.' host)
    if subdomain == "" || isReservedTenantLabel loginLabel subdomain then ""
    else if allDigits subdomain then ""
    else subdomain

/-- `utils.cpp`, `resolveTenant`. -/
def resolveTenant (loginLabel xTenantHeader host : String) : String :=
  if xTenantHeader != "" && !isReservedTenantLabel loginLabel xTenantHeader then xTenantHeader
  else
    let t := extractTenantFromHostname loginLabel host
    if t == "" then "default" else t

theorem resolveTenant_ne_empty (loginLabel x host : String) :
    resolveTenant loginLabel x host ≠ "" := by
  unfold resolveTenant
  dsimp only
  split_ifs with h₁ h₂
  · simp only [Bool.and_eq_true, bne_iff_ne] at h₁
    exact h₁.1
  · decide
  · simpa using h₂

/-- `getRolesByTenant`'s and `getTenantsForUser`'s `tenantFromGroupDN`: the text
after the last `ou=` of what stands before the tenant base. -/
def tenantFromGroupDN (dn tenantBase : String) : String :=
  if tenantBase == "" then ""
  else
    match indexOf (',' :: tenantBase.toList) dn.toList with
    | none => ""
    | some pos =>
      let head := dn.toList.take pos
      match lastIndexOf "ou=".toList head with
      | none => ""
      | some oupos => String.ofList (head.drop (oupos + 3))

/-- `uidFromDN`: what stands between the first `uid=` and the next comma. -/
def uidFromDN (dn : String) : String :=
  match indexOf "uid=".toList dn.toList with
  | none => ""
  | some pos => upTo ',' (String.ofList (dn.toList.drop (pos + 4)))

/-! ### Searches -/

/-- `head` stands in front of the first `pat` in `s`. -/
def BeforeFirst (pat head s : List Char) : Prop :=
  head ++ pat <+: s ∧ ∀ h, h ++ pat <+: s → head.length ≤ h.length

/-- `w` stands behind the last `pat` in `s`. -/
def BehindLast (pat w s : List Char) : Prop :=
  pat ++ w <:+ s ∧ ∀ v, pat ++ v <:+ s → w.length ≤ v.length

theorem BeforeFirst.eq {pat h₁ h₂ s : List Char} (h : BeforeFirst pat h₁ s)
    (h' : BeforeFirst pat h₂ s) : h₁ = h₂ := by
  have hlen : h₁.length = h₂.length := le_antisymm (h.2 _ h'.1) (h'.2 _ h.1)
  have h₁' := List.prefix_iff_eq_take.mp ((List.prefix_append h₁ pat).trans h.1)
  have h₂' := List.prefix_iff_eq_take.mp ((List.prefix_append h₂ pat).trans h'.1)
  rw [h₁', h₂', hlen]

theorem BehindLast.eq {pat w₁ w₂ s : List Char} (h : BehindLast pat w₁ s)
    (h' : BehindLast pat w₂ s) : w₁ = w₂ := by
  have hlen : w₁.length = w₂.length := le_antisymm (h.2 _ h'.1) (h'.2 _ h.1)
  have h₁' := List.suffix_iff_eq_drop.mp ((List.suffix_append pat w₁).trans h.1)
  have h₂' := List.suffix_iff_eq_drop.mp ((List.suffix_append pat w₂).trans h'.1)
  rw [h₁', h₂', hlen]

theorem indexOf_eq_none {pat s : List Char} : indexOf pat s = none ↔ ¬ pat <:+: s := by
  induction s with
  | nil => simp [indexOf]
  | cons c s ih =>
    rw [indexOf, List.infix_cons_iff]
    by_cases h : pat <+: c :: s
    · simp [List.isPrefixOf_iff_prefix.mpr h, h]
    · simp [h, ih]

theorem beforeFirst_indexOf {pat s : List Char} {i : ℕ} (h : indexOf pat s = some i) :
    BeforeFirst pat (s.take i) s := by
  induction s generalizing i with
  | nil =>
    rw [indexOf] at h
    split_ifs at h with hpat
    rw [List.isEmpty_iff] at hpat
    subst hpat
    exact ⟨by simp, by simp⟩
  | cons c s ih =>
    rw [indexOf] at h
    split_ifs at h with hpat
    · obtain rfl := Option.some.inj h
      exact ⟨by simpa using hpat, by simp⟩
    · obtain ⟨j, hj, rfl⟩ := Option.map_eq_some_iff.mp h
      obtain ⟨hpre, hmin⟩ := ih hj
      refine ⟨by simpa using hpre, fun k hk => ?_⟩
      cases k with
      | nil => exact absurd hk (by simpa using hpat)
      | cons d k =>
        have := hmin k (List.cons_prefix_cons.mp hk).2
        simp only [List.take_succ_cons, List.length_cons]
        omega

theorem lastIndexOf_eq_none {pat s : List Char} : lastIndexOf pat s = none ↔ ¬ pat <:+: s := by
  induction s with
  | nil => simp [lastIndexOf]
  | cons c s ih =>
    rw [lastIndexOf, List.infix_cons_iff]
    cases h : lastIndexOf pat s with
    | none => simp [ih.mp h]
    | some i => 
      have hin : pat <:+: s := by
        by_contra hno
        rw [ih.mpr hno] at h
        cases h
      simp [hin]

theorem behindLast_lastIndexOf {pat s : List Char} {i : ℕ} (h : lastIndexOf pat s = some i) :
    BehindLast pat (s.drop (i + pat.length)) s := by
  induction s generalizing i with
  | nil =>
    rw [lastIndexOf] at h
    split_ifs at h with hpat
    rw [List.isEmpty_iff] at hpat
    subst hpat
    exact ⟨by simp, by simp⟩
  | cons c s ih =>
    rw [lastIndexOf] at h
    cases hs : lastIndexOf pat s with
    | some j =>
      rw [hs] at h
      obtain rfl := Option.some.inj h
      obtain ⟨hsuf, hmin⟩ := ih hs
      have hdrop : (c :: s).drop (j + 1 + pat.length) = s.drop (j + pat.length) := by
        rw [Nat.add_right_comm, List.drop_succ_cons]
      rw [hdrop]
      refine ⟨hsuf.trans (List.suffix_cons c s), fun v hv => ?_⟩
      rcases List.suffix_cons_iff.mp hv with hv | hv
      · have h₁ := hsuf.length_le
        have h₂ := congrArg List.length hv
        simp only [List.length_append, List.length_cons] at h₁ h₂
        omega
      · exact hmin v hv
    | none =>
      rw [hs] at h
      split_ifs at h with hpat
      obtain rfl := Option.some.inj h
      obtain ⟨t, ht⟩ := List.isPrefixOf_iff_prefix.mp hpat
      rw [Nat.zero_add, ← ht, List.drop_left]
      refine ⟨List.suffix_refl _, fun v hv => ?_⟩
      rw [ht] at hv
      rcases List.suffix_cons_iff.mp hv with hv | hv
      · rw [← ht] at hv
        exact (List.append_cancel_left hv).symm ▸ le_rfl
      · exact absurd ((List.prefix_append pat v).isInfix.trans hv.isInfix) (lastIndexOf_eq_none.mp hs)

end HttpBridge
