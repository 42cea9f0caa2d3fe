/-
# Replacing a pattern

A pattern is replaced in a text at every occurrence (`replaceAll`): the text is
taken apart at the occurrences (`pieces`), and the pieces are put together again
with the replacement between them.

A loop that replaces the first occurrence and then searches from the start again
(`replaceLoop`) comes to the same exactly if no occurrence is left in the result
(`replaceLoop_iff`), and then takes a pass for each piece. Otherwise it replaces
what the replacement has brought in, and where the replacement holds the pattern
it does not end (`replaceLoop_eq_none`).

All of this is for patterns no two occurrences of which overlap (`Unbordered`);
proofs about a text go from one occurrence to the next (`occurrence_induction`).
-/
import Mathlib.Data.List.Infix
import Mathlib.Tactic.Common

namespace Net

variable {α : Type}

/-- Nothing but the pattern itself both begins and ends it. -/
def Unbordered (pat : List α) : Prop := pat ≠ [] ∧ ∀ p, p <+: pat → p <:+ pat → p = [] ∨ p = pat

instance [DecidableEq α] {pat : List α} : Decidable (Unbordered pat) :=
  decidable_of_iff (pat ≠ [] ∧ ∀ p ∈ pat.inits, p <:+ pat → p = [] ∨ p = pat)
    (by simp only [Unbordered, List.mem_inits])

/-- An occurrence that follows a text without one does not begin inside it. -/
theorem Unbordered.not_prefix {pat w w₂ rest : List α} (hpat : Unbordered pat) (hw : ¬ pat <:+: w)
    (hsuf : w₂ <:+ w) (hne : w₂ ≠ []) : ¬ pat <+: w₂ ++ pat ++ rest := by
  intro hp
  rw [List.append_assoc] at hp
  rcases List.prefix_or_prefix_of_prefix hp (List.prefix_append w₂ _) with h | ⟨p, rfl⟩
  · exact hw (h.isInfix.trans hsuf.isInfix)
  · -- what of the occurrence lies behind `w₂` begins the pattern and ends it
    have hlen : p.length ≤ (w₂ ++ p).length := by simp
    have hbegins : p <+: w₂ ++ p := List.prefix_of_prefix_length_le
      ((List.prefix_append_right_inj w₂).mp hp) (List.prefix_append _ rest) hlen
    rcases hpat.2 p hbegins (List.suffix_append w₂ p) with rfl | h
    · exact hw (by simpa using hsuf.isInfix)
    · exact hne (List.self_eq_append_left.mp h)

/-- A pattern lies in what stands between a text without its first member and one
without its last only. -/
theorem infix_between_iff {a b : α} {m pre t post : List α} (hpre : a ∉ pre) (hpost : b ∉ post) :
    a :: (m ++ [b]) <:+: pre ++ t ++ post ↔ a :: (m ++ [b]) <:+: t := by
  constructor
  · intro h
    rw [List.infix_append_iff_ne_nil] at h
    rcases h with h | h | ⟨l₁, l₂, -, hl₂, he, -, hl⟩
    · rw [List.infix_append_iff_ne_nil] at h
      rcases h with h | h | ⟨l₁, l₂, hl₁, -, he, hl, -⟩
      · exact absurd (h.subset List.mem_cons_self) hpre
      · exact h
      · obtain ⟨c, l₁, rfl⟩ := List.exists_cons_of_ne_nil hl₁
        obtain ⟨rfl, -⟩ := List.cons.inj he
        exact absurd (hl.subset List.mem_cons_self) hpre
    · exact absurd (h.subset (by simp)) hpost
    · obtain ⟨l₂, c, rfl⟩ := (List.eq_nil_or_concat l₂).resolve_left hl₂
      rw [List.concat_eq_append] at he hl
      rw [← List.cons_append, ← List.append_assoc] at he
      obtain ⟨-, hc⟩ := List.append_inj' he rfl
      obtain rfl := List.singleton_injective hc
      exact absurd (hl.subset (by simp)) hpost
  · exact fun h => h.trans (List.infix_append pre t post)

variable [DecidableEq α]

/-! ### The first occurrence -/

/-- What stands before the first occurrence, and behind it. -/
def splitFirst (pat : List α) : List α → Option (List α × List α)
  | [] => if pat = [] then some ([], []) else none
  | a :: l =>
    if pat <+: a :: l then some ([], (a :: l).drop pat.length)
    else (splitFirst pat l).map fun s => (a :: s.1, s.2)

theorem splitFirst_nil (pat : List α) : splitFirst pat [] = if pat = [] then some ([], []) else none := rfl

theorem splitFirst_cons (pat : List α) (a : α) (l : List α) : splitFirst pat (a :: l) =
    if pat <+: a :: l then some ([], (a :: l).drop pat.length)
    else (splitFirst pat l).map fun s => (a :: s.1, s.2) := rfl

theorem splitFirst_eq_none {pat : List α} : ∀ {l : List α}, splitFirst pat l = none ↔ ¬ pat <:+: l
  | [] => by simp [splitFirst_nil]
  | a :: l => by
    rw [splitFirst_cons, List.infix_cons_iff]
    by_cases h : pat <+: a :: l
    · simp [h]
    · simp [h, splitFirst_eq_none]

theorem splitFirst_eq_some {pat w rest : List α} (hne : pat ≠ []) : ∀ {l : List α},
    splitFirst pat l = some (w, rest) → l = w ++ pat ++ rest ∧ ¬ pat <:+: w := by
  intro l h
  induction l generalizing w with
  | nil => simp [splitFirst_nil, hne] at h
  | cons a l ih =>
    rw [splitFirst_cons] at h
    split_ifs at h with hp
    · cases h
      obtain ⟨rest, hrest⟩ := hp
      rw [← hrest]
      simp [hne]
    · obtain ⟨⟨w, rest⟩, hs, he⟩ := Option.map_eq_some_iff.mp h
      cases he
      obtain ⟨rfl, hw⟩ := ih hs
      refine ⟨rfl, fun hinf => ?_⟩
      rcases List.infix_cons_iff.mp hinf with h' | h'
      · exact hp (h'.trans ((List.prefix_append (a :: w) (pat ++ rest)).trans (by simp)))
      · exact hw h'

/-- Induction over the occurrences of a pattern. -/
theorem occurrence_induction {pat : List α} (hne : pat ≠ []) {P : List α → Prop}
    (free : ∀ l, ¬ pat <:+: l → P l)
    (occurs : ∀ w rest, ¬ pat <:+: w → P rest → P (w ++ pat ++ rest)) (l : List α) : P l := by
  induction h : l.length using Nat.strong_induction_on generalizing l with
  | _ n ih =>
    cases hs : splitFirst pat l with
    | none => exact free l (splitFirst_eq_none.mp hs)
    | some s =>
      obtain ⟨rfl, hw⟩ := splitFirst_eq_some hne hs
      have hpos : 0 < pat.length := List.length_pos_iff.mpr hne
      refine occurs _ _ hw (ih _ ?_ _ rfl)
      rw [← h, List.length_append, List.length_append]
      omega

theorem splitFirst_append {pat w rest : List α} (hpat : Unbordered pat) (hw : ¬ pat <:+: w) :
    splitFirst pat (w ++ pat ++ rest) = some (w, rest) := by
  have key : ∀ u, u <:+ w → splitFirst pat (u ++ pat ++ rest) = some (u, rest) := by
    intro u hu
    induction u with
    | nil =>
      obtain ⟨a, m, rfl⟩ := List.exists_cons_of_ne_nil hpat.1
      have hpre : a :: m <+: a :: (m ++ rest) := List.prefix_append (a :: m) rest
      rw [List.nil_append, List.cons_append, splitFirst_cons, if_pos hpre]
      simp
    | cons a u ih =>
      have hno : ¬ pat <+: a :: (u ++ pat ++ rest) := hpat.not_prefix hw hu (List.cons_ne_nil a u)
      rw [List.cons_append, List.cons_append]
      rw [splitFirst_cons, if_neg hno, ih ((List.suffix_cons a u).trans hu)]
      rfl
  exact key w (List.suffix_refl w)

/-! ### All occurrences -/

/-- What stands between the occurrences, found from left to right, each behind
the one before; `skip` counts what is left of the last. -/
def pieces (pat : List α) : (skip : ℕ) → List α → List (List α)
  | _, [] => [[]]
  | skip + 1, _ :: l => pieces pat skip l
  | 0, a :: l =>
    if pat <+: a :: l then [] :: pieces pat (pat.length - 1) l
    else (pieces pat 0 l).modifyHead (a :: ·)

theorem pieces_cons (pat : List α) (a : α) (l : List α) : pieces pat 0 (a :: l) =
    if pat <+: a :: l then [] :: pieces pat (pat.length - 1) l
    else (pieces pat 0 l).modifyHead (a :: ·) := rfl

/-- The text with the pattern replaced at every occurrence. -/
def replaceAll (pat t l : List α) : List α := t.intercalate (pieces pat 0 l)

theorem pieces_skip (pat : List α) : ∀ u l : List α, pieces pat u.length (u ++ l) = pieces pat 0 l
  | [], _ => rfl
  | _ :: u, l => pieces_skip pat u l

theorem pieces_ne_nil (pat : List α) : ∀ (skip : ℕ) (l : List α), pieces pat skip l ≠ []
  | _, [] => List.cons_ne_nil _ _
  | skip + 1, _ :: l => pieces_ne_nil pat skip l
  | 0, a :: l => by
    have h := pieces_ne_nil pat 0 l
    rw [pieces_cons]
    split_ifs
    · simp
    · cases hp : pieces pat 0 l with
      | nil => exact absurd hp h
      | cons x xs => simp

theorem pieces_of_free {pat : List α} : ∀ {l : List α}, ¬ pat <:+: l → pieces pat 0 l = [l]
  | [], _ => rfl
  | a :: l, h => by
    rw [List.infix_cons_iff, not_or] at h
    rw [pieces_cons, if_neg h.1, pieces_of_free h.2]
    rfl

theorem pieces_append {pat w rest : List α} (hpat : Unbordered pat) (hw : ¬ pat <:+: w) :
    pieces pat 0 (w ++ pat ++ rest) = w :: pieces pat 0 rest := by
  have key : ∀ u, u <:+ w → pieces pat 0 (u ++ pat ++ rest) = u :: pieces pat 0 rest := by
    intro u hu
    induction u with
    | nil =>
      obtain ⟨a, m, rfl⟩ := List.exists_cons_of_ne_nil hpat.1
      have hpre : a :: m <+: a :: (m ++ rest) := List.prefix_append (a :: m) rest
      rw [List.nil_append, List.cons_append, pieces_cons, if_pos hpre]
      exact congrArg _ (pieces_skip _ m rest)
    | cons a u ih =>
      have hno : ¬ pat <+: a :: (u ++ pat ++ rest) := hpat.not_prefix hw hu (List.cons_ne_nil a u)
      rw [List.cons_append, List.cons_append]
      rw [pieces_cons, if_neg hno, ih ((List.suffix_cons a u).trans hu)]
      rfl
  exact key w (List.suffix_refl w)

/-- The pieces hold no occurrence. -/
theorem not_infix_of_mem_pieces {pat : List α} (hpat : Unbordered pat) (l : List α) :
    ∀ x ∈ pieces pat 0 l, ¬ pat <:+: x := by
  induction l using occurrence_induction hpat.1 with
  | free l h => simpa [pieces_of_free h] using h
  | occurs w rest hw ih =>
    rw [pieces_append hpat hw]
    exact List.forall_mem_cons.mpr ⟨hw, ih⟩

theorem replaceAll_of_free {pat t l : List α} (h : ¬ pat <:+: l) : replaceAll pat t l = l := by
  rw [replaceAll, pieces_of_free h, List.intercalate_singleton]

theorem replaceAll_append {pat t w rest : List α} (hpat : Unbordered pat) (hw : ¬ pat <:+: w) :
    replaceAll pat t (w ++ pat ++ rest) = w ++ t ++ replaceAll pat t rest := by
  rw [replaceAll, pieces_append hpat hw, List.intercalate_cons_of_ne_nil (pieces_ne_nil _ _ _)]
  rfl

/-- Replaced by itself the pattern leaves the text as it is. -/
theorem replaceAll_self {pat : List α} (hpat : Unbordered pat) (l : List α) :
    replaceAll pat pat l = l := by
  induction l using occurrence_induction hpat.1 with
  | free l h => exact replaceAll_of_free h
  | occurs w rest hw ih => rw [replaceAll_append hpat hw, ih]

/-! ### The loop -/

/-- Replace the first occurrence and search from the start again, for as many
passes as there is fuel: `none` where that has not ended. -/
def replaceLoop (pat t : List α) : (fuel : ℕ) → List α → Option (List α)
  | 0, _ => none
  | fuel + 1, l =>
    match splitFirst pat l with
    | none => some l
    | some (w, rest) => replaceLoop pat t fuel (w ++ t ++ rest)

/-- What the loop ends with holds no occurrence. -/
theorem not_infix_of_replaceLoop {pat t r : List α} : ∀ {fuel : ℕ} {l : List α},
    replaceLoop pat t fuel l = some r → ¬ pat <:+: r
  | fuel + 1, l, h => by
    rw [replaceLoop] at h
    split at h
    next hs =>
      cases h
      exact splitFirst_eq_none.mp hs
    next => exact not_infix_of_replaceLoop h

/-- **The loop ends.** Where no occurrence is left in the result, the loop finds
the occurrences of the text one by one and takes a pass for each piece. What is
done so far is `x`. -/
theorem replaceLoop_eq {pat t : List α} (hpat : Unbordered pat) (l : List α) :
    ∀ x fuel, ¬ pat <:+: x ++ replaceAll pat t l → (pieces pat 0 l).length ≤ fuel →
      replaceLoop pat t fuel (x ++ l) = some (x ++ replaceAll pat t l) := by
  induction l using occurrence_induction hpat.1 with
  | free l h =>
    intro x fuel hfree hfuel
    rw [pieces_of_free h, List.length_singleton] at hfuel
    rw [replaceAll_of_free h] at hfree ⊢
    obtain ⟨fuel, rfl⟩ : ∃ f, fuel = f + 1 := Nat.exists_eq_succ_of_ne_zero (by omega)
    rw [replaceLoop, splitFirst_eq_none.mpr hfree]
  | occurs w rest hw ih =>
    intro x fuel hfree hfuel
    rw [pieces_append hpat hw, List.length_cons] at hfuel
    rw [replaceAll_append hpat hw] at hfree ⊢
    obtain ⟨fuel, rfl⟩ : ∃ f, fuel = f + 1 := Nat.exists_eq_succ_of_ne_zero (by omega)
    have hdone : ∀ s, x ++ (w ++ t ++ s) = (x ++ w ++ t) ++ s := fun s => by simp
    rw [hdone] at hfree ⊢
    have hxw : ¬ pat <:+: x ++ w := fun h =>
      hfree (h.trans (by rw [List.append_assoc]; exact List.infix_append_left))
    have htext : x ++ (w ++ pat ++ rest) = x ++ w ++ pat ++ rest := by simp
    rw [htext, replaceLoop, splitFirst_append hpat hxw]
    exact ih _ fuel hfree (by omega)

/-- **When the loop replaces every occurrence once.** No occurrence is left in
the result. -/
theorem replaceLoop_iff {pat t : List α} (hpat : Unbordered pat) (l : List α) :
    (∃ fuel, replaceLoop pat t fuel l = some (replaceAll pat t l)) ↔
      ¬ pat <:+: replaceAll pat t l := by
  constructor
  · rintro ⟨fuel, h⟩
    exact not_infix_of_replaceLoop h
  · intro h
    exact ⟨_, replaceLoop_eq hpat l [] _ h (Nat.le_refl _)⟩

/-- A replacement that holds the pattern is never done. -/
theorem replaceLoop_eq_none {pat t : List α} (ht : pat <:+: t) : ∀ {fuel : ℕ} {l : List α},
    pat <:+: l → replaceLoop pat t fuel l = none
  | 0, _, _ => rfl
  | fuel + 1, l, hl => by
    rw [replaceLoop]
    split
    next hs => exact absurd hl (splitFirst_eq_none.mp hs)
    next w rest _ => exact replaceLoop_eq_none ht (ht.trans (List.infix_append w t rest))

end Net
