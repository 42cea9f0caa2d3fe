/-
# Letter case

Lower case in the sense of ASCII: only the capitals `A` to `Z` change. What
relates every character to itself and every capital to its small letter relates
every text to its lower case (`toLower_induction`).
-/
import Mathlib.Data.List.Basic
import Mathlib.Tactic.Common

namespace Net

/-- What relates each character to itself, and each capital to its small letter,
relates a character to its lower case. -/
theorem toLower_induction {p : Char → Char → Prop} (hself : ∀ c, p c c)
    (hcapital : ∀ n < 26, p (Char.ofNat (65 + n)) (Char.ofNat (97 + n))) (c : Char) :
    p c c.toLower := by
  by_cases h : c.val ≥ 'A'.val ∧ c.val ≤ 'Z'.val
  · have hlow : ∀ n < 26, (Char.ofNat (65 + n)).toLower = Char.ofNat (97 + n) := by decide
    have h₁ : 65 ≤ c.toNat := h.1
    have h₂ : c.toNat ≤ 90 := h.2
    have hc : c = Char.ofNat (65 + (c.toNat - 65)) := by
      rw [Nat.add_sub_cancel' h₁, Char.ofNat_toNat]
    rw [hc, hlow _ (by omega)]
    exact hcapital _ (by omega)
  · have hlow : c.toLower = c := dif_neg h
    rw [hlow]
    exact hself c

theorem toLower_toLower (c : Char) : c.toLower.toLower = c.toLower :=
  toLower_induction (p := fun c d => d.toLower = c.toLower) (fun _ => rfl) (by decide) c

/-- What is not a letter is the lower case of itself only. -/
theorem toLower_eq_iff {c d : Char} (hd : d.isAlpha = false) : c.toLower = d ↔ c = d := by
  have hletter : ∀ n < 26, (Char.ofNat (97 + n)).isAlpha = true ∧
      (Char.ofNat (65 + n)).isAlpha = true := by decide
  refine toLower_induction (p := fun c e => e = d ↔ c = d) (fun _ => .rfl) (fun n hn => ?_) c
  obtain ⟨hsmall, hcapital⟩ := hletter n hn
  constructor
  · intro h
    rw [h, hd] at hsmall
    cases hsmall
  · intro h
    rw [h, hd] at hcapital
    cases hcapital

variable {s t : List Char}

theorem map_toLower_map_toLower (s : List Char) :
    (s.map Char.toLower).map Char.toLower = s.map Char.toLower := by
  rw [List.map_map]
  exact List.map_congr_left fun c _ => toLower_toLower c

theorem mem_map_toLower {d : Char} (hd : d.isAlpha = false) :
    d ∈ s.map Char.toLower ↔ d ∈ s := by
  rw [List.mem_map]
  constructor
  · rintro ⟨c, hc, hcd⟩
    rwa [(toLower_eq_iff hd).mp hcd] at hc
  · intro h
    exact ⟨d, h, (toLower_eq_iff hd).mpr rfl⟩

/-- Whether a character that is no letter occurs does not hang on the case. -/
theorem mem_congr_case {d : Char} (hd : d.isAlpha = false)
    (h : s.map Char.toLower = t.map Char.toLower) : d ∈ s ↔ d ∈ t := by
  rw [← mem_map_toLower hd, h, mem_map_toLower hd]

end Net
