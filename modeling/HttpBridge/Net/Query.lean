/-
# Queries

A query is a list of parameters with `&` between them, each a name and a value
with `=` between (`joined`). It is taken apart again at every `&` and at the
first `=` of each piece (`pairs`), which gives the parameters back where no name
contains either character and no value a `&` (`pairs_joined`), also behind
another query (`pairs_append`).
-/
import HttpBridge.Net.Uri

namespace Net
namespace Query

/-- What stands before the first `=` of a piece, and behind it. -/
def pair (piece : List Char) : List Char × List Char :=
  ((cut '=' piece).1, (cut '=' piece).2.getD [])

def pairs (query : List Char) : List (List Char × List Char) := (query.splitOn '&').map pair

def written (p : List Char × List Char) : List Char := p.1 ++ '=' :: p.2

def joined (ps : List (List Char × List Char)) : List Char := ['&'].intercalate (ps.map written)

/-- A parameter that is read back. -/
structure Plain (p : List Char × List Char) : Prop where
  amp : '&' ∉ p.1
  equals : '=' ∉ p.1
  value : '&' ∉ p.2

theorem pair_written {p : List Char × List Char} (hp : Plain p) : pair (written p) = p := by
  rw [pair, written, cut_append_cons hp.equals]
  rfl

theorem pairs_joined {ps : List (List Char × List Char)} (hne : ps ≠ []) (hps : ∀ p ∈ ps, Plain p) :
    pairs (joined ps) = ps := by
  have hamp : ∀ piece ∈ ps.map written, '&' ∉ piece := by
    intro piece hpiece
    obtain ⟨p, hp, rfl⟩ := List.mem_map.mp hpiece
    simp [written, (hps p hp).amp, (hps p hp).value]
  rw [pairs, joined, List.splitOn_intercalate '&' hamp (by simpa using hne), List.map_map]
  calc ps.map (pair ∘ written) = ps.map id :=
        List.map_congr_left fun p hp => pair_written (hps p hp)
    _ = ps := List.map_id ps

theorem pairs_append (s t : List Char) : pairs (s ++ '&' :: t) = pairs s ++ pairs t := by
  rw [pairs, pairs, pairs, List.splitOn_append_cons_self, List.map_append]

/-- The characters of a query are those of its parameters and the two between. -/
theorem mem_joined {c : Char} {ps : List (List Char × List Char)} (h : c ∈ joined ps) :
    c = '&' ∨ c = '=' ∨ ∃ p ∈ ps, c ∈ p.1 ∨ c ∈ p.2 := by
  induction ps with
  | nil => cases h
  | cons p ps ih =>
    have hwritten : c ∈ written p → c = '&' ∨ c = '=' ∨ ∃ q ∈ p :: ps, c ∈ q.1 ∨ c ∈ q.2 := by
      intro hc
      rw [written, List.mem_append, List.mem_cons] at hc
      rcases hc with hc | hc | hc
      · exact .inr (.inr ⟨p, List.mem_cons_self, .inl hc⟩)
      · exact .inr (.inl hc)
      · exact .inr (.inr ⟨p, List.mem_cons_self, .inr hc⟩)
    cases ps with
    | nil =>
      rw [joined, List.map_cons, List.map_nil, List.intercalate_singleton] at h
      exact hwritten h
    | cons r ps =>
      rw [joined, List.map_cons, List.map_cons, List.intercalate_cons_cons, List.mem_append,
        List.mem_append] at h
      rcases h with (h | h) | h
      · exact hwritten h
      · exact .inl (List.mem_singleton.mp h)
      · rcases ih h with h | h | ⟨q, hq, h⟩
        · exact .inl h
        · exact .inr (.inl h)
        · exact .inr (.inr ⟨q, List.mem_cons_of_mem p hq, h⟩)

end Query
end Net
