/-
# Uniform resource identifiers

A reference of RFC 3986 is a list of characters cut into a scheme, an authority,
a path, a query and a fragment: at the first `#`, before it at the first `?`,
and what is left at the `:` and the `//` in front (`Uri.parse`). Every list of
characters is cut so; whether the parts are well formed is another question.

* `parse_append_fragment`: what follows the first `#` is the fragment, and
  nothing else depends on it.
* `parse_origin`, `exists_of_origin`: a reference has a scheme and an authority
  exactly if it begins with them and `://` between, and the authority ends at
  the end or before one of `/?#`.
* `origin_append`: what is put behind a reference leaves its origin unless it
  goes on with the authority.
-/
import Mathlib.Data.List.TakeWhile
import Mathlib.Tactic.Common

namespace Net

/-- What is before the first `c`, and what is behind it where it occurs. -/
def cut (c : Char) : List Char → List Char × Option (List Char)
  | [] => ([], none)
  | d :: s => if d = c then ([], some s) else (d :: (cut c s).1, (cut c s).2)

theorem cut_nil (c : Char) : cut c [] = ([], none) := rfl

theorem cut_cons (c d : Char) (s : List Char) :
    cut c (d :: s) = if d = c then ([], some s) else (d :: (cut c s).1, (cut c s).2) := rfl

theorem cut_append_of_not_mem {c : Char} {s : List Char} (h : c ∉ s) (t : List Char) :
    cut c (s ++ t) = (s ++ (cut c t).1, (cut c t).2) := by
  induction s with
  | nil => rfl
  | cons d s ih =>
    rw [List.mem_cons, not_or] at h
    rw [List.cons_append, cut_cons, if_neg (Ne.symm h.1), ih h.2]
    rfl

theorem cut_of_not_mem {c : Char} {s : List Char} (h : c ∉ s) : cut c s = (s, none) := by
  have happ := cut_append_of_not_mem h []
  rwa [List.append_nil, cut_nil, List.append_nil] at happ

theorem cut_append_cons {c : Char} {s : List Char} (h : c ∉ s) (t : List Char) :
    cut c (s ++ c :: t) = (s, some t) := by
  rw [cut_append_of_not_mem h, cut_cons, if_pos rfl, List.append_nil]

theorem not_mem_cut (c : Char) (s : List Char) : c ∉ (cut c s).1 := by
  induction s with
  | nil => exact List.not_mem_nil
  | cons d s ih =>
    by_cases hd : d = c
    · rw [cut_cons, if_pos hd]
      exact List.not_mem_nil
    · rw [cut_cons, if_neg hd, List.mem_cons, not_or]
      exact ⟨Ne.symm hd, ih⟩

theorem cut_subset {c d : Char} {s : List Char} (h : d ∈ (cut c s).1) : d ∈ s := by
  induction s with
  | nil => exact h
  | cons e s ih =>
    by_cases he : e = c
    · rw [cut_cons, if_pos he] at h
      exact absurd h List.not_mem_nil
    · rw [cut_cons, if_neg he, List.mem_cons] at h
      exact List.mem_cons.mpr (h.imp id ih)

/-- What a cut took away: nothing, or something that begins with `c`. -/
theorem exists_cut (c : Char) (s : List Char) :
    ∃ r, s = (cut c s).1 ++ r ∧ (r = [] ∨ r.head? = some c) := by
  induction s with
  | nil => exact ⟨[], rfl, .inl rfl⟩
  | cons d s ih =>
    by_cases hd : d = c
    · rw [cut_cons, if_pos hd]
      exact ⟨d :: s, rfl, .inr (by rw [hd]; rfl)⟩
    · obtain ⟨r, hs, hr⟩ := ih
      rw [cut_cons, if_neg hd]
      exact ⟨r, by rw [List.cons_append, ← hs], hr⟩

theorem cut_eq_some {c : Char} {s a t : List Char} (h : cut c s = (a, some t)) :
    s = a ++ c :: t := by
  induction s generalizing a with
  | nil => cases h
  | cons d s ih =>
    by_cases hd : d = c
    · rw [cut_cons, if_pos hd] at h
      obtain ⟨rfl, ht⟩ := Prod.mk.inj h
      rw [hd, Option.some.inj ht]
      rfl
    · rw [cut_cons, if_neg hd] at h
      obtain ⟨rfl, ht⟩ := Prod.mk.inj h
      rw [List.cons_append, ← ih (Prod.ext rfl ht)]

/-! ### References -/

structure Uri where
  scheme : Option (List Char)
  authority : Option (List Char)
  path : List Char
  query : Option (List Char)
  fragment : Option (List Char)
  deriving DecidableEq

namespace Uri

/-- The scheme in front of the first `:`, unless a `/` or nothing is. -/
def cutScheme (s : List Char) : Option (List Char) × List Char :=
  match cut ':' s with
  | (name, some rest) => if name.isEmpty || '/' ∈ name then (none, s) else (some name, rest)
  | (_, none) => (none, s)

/-- The authority between `//` and the next `/`. -/
def cutAuthority : List Char → Option (List Char) × List Char
  | '/' :: '/' :: s => (some (s.takeWhile (· ≠ '/')), s.dropWhile (· ≠ '/'))
  | s => (none, s)

/-- A reference cut into its parts. -/
def parse (s : List Char) : Uri :=
  let main := cut '#' s
  let hier := cut '?' main.1
  let named := cutScheme hier.1
  let located := cutAuthority named.2
  { scheme := named.1
    authority := located.1
    path := located.2
    query := hier.2
    fragment := main.2 }

/-- **What follows the first `#` is the fragment.** -/
theorem parse_append_fragment {s : List Char} (h : '#' ∉ s) (t : List Char) :
    parse (s ++ '#' :: t) = { parse s with fragment := some t } := by
  unfold parse
  rw [cut_append_cons h, cut_of_not_mem h]

/-- What follows the first `?` is the query, where there is no fragment. -/
theorem parse_append_query {s t : List Char} (hs : '#' ∉ s) (hq : '?' ∉ s) (ht : '#' ∉ t) :
    parse (s ++ '?' :: t) = { parse s with query := some t } := by
  have hst : '#' ∉ s ++ '?' :: t := by simp [hs, ht]
  unfold parse
  rw [cut_of_not_mem hst, cut_of_not_mem hs]
  dsimp only
  rw [cut_append_cons hq, cut_of_not_mem hq]

/-- What is put behind a query belongs to it. -/
theorem parse_extend_query {s t q : List Char} (hs : '#' ∉ s) (hq : (parse s).query = some q)
    (ht : '#' ∉ t) : parse (s ++ t) = { parse s with query := some (q ++ t) } := by
  have hst : '#' ∉ s ++ t := by simp [hs, ht]
  unfold parse at hq ⊢
  rw [cut_of_not_mem hs] at hq
  rw [cut_of_not_mem hst, cut_of_not_mem hs]
  dsimp only at hq ⊢
  obtain ⟨hier, hhier⟩ : ∃ hier, cut '?' s = (hier, some q) := ⟨(cut '?' s).1, Prod.ext rfl hq⟩
  have hno : '?' ∉ hier := by
    have hcut := not_mem_cut '?' s
    rwa [hhier] at hcut
  have happend : cut '?' (s ++ t) = (hier, some (q ++ t)) := by
    rw [cut_eq_some hhier, List.append_assoc, List.cons_append, cut_append_cons hno]
  rw [happend, hhier]

theorem query_isSome {s : List Char} (hs : '#' ∉ s) : (parse s).query.isSome = true ↔ '?' ∈ s := by
  unfold parse
  rw [cut_of_not_mem hs]
  constructor
  · intro h
    obtain ⟨q, hq⟩ := Option.isSome_iff_exists.mp h
    rw [cut_eq_some (Prod.ext rfl hq : cut '?' s = ((cut '?' s).1, some q))]
    simp
  · intro h
    obtain ⟨a, q, rfl, ha⟩ := List.eq_append_cons_of_mem h
    dsimp only
    rw [cut_append_cons ha]
    rfl

/-! ### Origins -/

/-- The end of an authority: the end, or one of `/?#`. -/
def Ends (r : List Char) : Prop :=
  r = [] ∨ r.head? = some '/' ∨ r.head? = some '?' ∨ r.head? = some '#'

theorem Ends.append {r : List Char} (h : Ends r) (hne : r ≠ []) (t : List Char) : Ends (r ++ t) := by
  cases r with
  | nil => exact absurd rfl hne
  | cons c r => exact .inr (h.resolve_left hne)

/-- `s` begins with the scheme `sch`, `://` and the authority `a`. -/
structure Begins (s sch a : List Char) : Prop where
  named : sch ≠ []
  scheme : ∀ c ∈ sch, c ∉ [':', '/', '?', '#']
  authority : ∀ c ∈ a, c ∉ ['/', '?', '#']
  rest : ∃ r, s = sch ++ ':' :: '/' :: '/' :: (a ++ r) ∧ Ends r

theorem cutScheme_append {sch : List Char} (hne : sch ≠ []) (h : ∀ c ∈ sch, c ∉ [':', '/', '?', '#'])
    (t : List Char) : cutScheme (sch ++ ':' :: t) = (some sch, t) := by
  have hcolon : ':' ∉ sch := fun hc => h _ hc (by decide)
  have hslash : '/' ∉ sch := fun hc => h _ hc (by decide)
  unfold cutScheme
  rw [cut_append_cons hcolon]
  simp [hne, hslash]

theorem takeWhile_append_of_ends {a r : List Char} (h : '/' ∉ a) (hr : r = [] ∨ r.head? = some '/') :
    (a ++ r).takeWhile (· ≠ '/') = a ∧ (a ++ r).dropWhile (· ≠ '/') = r := by
  have ha : ∀ c ∈ a, decide (c ≠ '/') = true := fun c hc => by
    rw [decide_eq_true_iff]
    intro heq
    exact h (heq ▸ hc)
  rw [List.takeWhile_append_of_pos ha, List.dropWhile_append_of_pos ha]
  rcases hr with hr | hr
  · rw [hr]
    exact ⟨List.append_nil a, rfl⟩
  · obtain ⟨r', hr'⟩ := List.head?_eq_some_iff.mp hr
    rw [hr']
    simp

/-- What is left of the end of an authority without the query and the fragment. -/
theorem Ends.cut {r : List Char} (h : Ends r) :
    (Net.cut '?' (Net.cut '#' r).1).1 = [] ∨ (Net.cut '?' (Net.cut '#' r).1).1.head? = some '/' := by
  rcases h with h | h | h | h
  · rw [h]
    exact .inl rfl
  all_goals
    obtain ⟨r', hr'⟩ := List.head?_eq_some_iff.mp h
    rw [hr']
  · exact .inr rfl
  · exact .inl rfl
  · exact .inl rfl

/-- A reference that begins with a scheme and an authority has these. -/
theorem parse_origin {s sch a : List Char} (h : Begins s sch a) :
    (parse s).scheme = some sch ∧ (parse s).authority = some a := by
  obtain ⟨r, hs, hr⟩ := h.rest
  have hschhash : '#' ∉ sch := fun hc => h.scheme _ hc (by decide)
  have hschquery : '?' ∉ sch := fun hc => h.scheme _ hc (by decide)
  have hahash : '#' ∉ a := fun hc => h.authority _ hc (by decide)
  have haquery : '?' ∉ a := fun hc => h.authority _ hc (by decide)
  have haslash : '/' ∉ a := fun hc => h.authority _ hc (by decide)
  have hfront : s = (sch ++ ':' :: '/' :: '/' :: a) ++ r := by
    rw [hs]
    simp
  have hhash : '#' ∉ sch ++ ':' :: '/' :: '/' :: a := by simp [hschhash, hahash]
  have hquery : '?' ∉ sch ++ ':' :: '/' :: '/' :: a := by simp [hschquery, haquery]
  have hhier : (cut '?' (cut '#' s).1).1 =
      sch ++ ':' :: '/' :: '/' :: (a ++ (cut '?' (cut '#' r).1).1) := by
    rw [hfront, cut_append_of_not_mem hhash, cut_append_of_not_mem hquery]
    simp
  have hauthority := takeWhile_append_of_ends haslash hr.cut
  unfold parse
  dsimp only
  rw [hhier, cutScheme_append h.named h.scheme]
  exact ⟨rfl, congrArg some hauthority.1⟩

theorem cutScheme_eq_some {s sch t : List Char} (h : cutScheme s = (some sch, t)) :
    s = sch ++ ':' :: t ∧ sch ≠ [] ∧ ':' ∉ sch ∧ '/' ∉ sch := by
  unfold cutScheme at h
  split at h
  case h_1 name rest hcut =>
    by_cases hname : (name.isEmpty || decide ('/' ∈ name)) = true
    · rw [if_pos hname] at h
      cases h
    · rw [if_neg hname] at h
      obtain ⟨hsch, rfl⟩ := Prod.mk.inj h
      obtain rfl := Option.some.inj hsch
      rw [Bool.or_eq_true, not_or, List.isEmpty_iff, decide_eq_true_iff] at hname
      have hcolon := not_mem_cut ':' s
      rw [hcut] at hcolon
      exact ⟨cut_eq_some hcut, hname.1, hcolon, hname.2⟩
  case h_2 => cases h

theorem cutAuthority_eq_some {s a : List Char} (h : (cutAuthority s).1 = some a) :
    s = '/' :: '/' :: (a ++ (cutAuthority s).2) ∧ '/' ∉ a ∧ Ends (cutAuthority s).2 := by
  unfold cutAuthority at h ⊢
  split at h
  case h_1 s =>
    obtain rfl := Option.some.inj h
    refine ⟨by rw [List.takeWhile_append_dropWhile], fun hmem => ?_, ?_⟩
    · have hne := List.mem_takeWhile_imp hmem
      simp at hne
    · rcases hrest : s.dropWhile (· ≠ '/') with _ | ⟨c, r⟩
      · exact .inl rfl
      · have hhead := List.head?_dropWhile_not (fun c => decide (c ≠ '/')) s
        rw [hrest] at hhead
        simp at hhead
        rw [hhead]
        exact .inr (.inl rfl)
  case h_2 => cases h

/-- A reference that has a scheme and an authority begins with them. -/
theorem exists_of_origin {s sch a : List Char} (hsch : (parse s).scheme = some sch)
    (ha : (parse s).authority = some a) : Begins s sch a := by
  obtain ⟨hier, hhier⟩ : ∃ hier, hier = (cut '?' (cut '#' s).1).1 := ⟨_, rfl⟩
  change (cutScheme (cut '?' (cut '#' s).1).1).1 = some sch at hsch
  change (cutAuthority (cutScheme (cut '?' (cut '#' s).1).1).2).1 = some a at ha
  rw [← hhier] at hsch ha
  obtain ⟨located, hlocated⟩ : ∃ located, cutScheme hier = (some sch, located) := ⟨_, Prod.ext hsch rfl⟩
  rw [hlocated] at ha
  change (cutAuthority located).1 = some a at ha
  obtain ⟨hscheme, hne, hcolon, hslash⟩ := cutScheme_eq_some hlocated
  obtain ⟨hauthority, haslash, hends⟩ := cutAuthority_eq_some ha
  generalize (cutAuthority located).2 = path at hauthority hends
  -- nothing of the hierarchical part is a `?` or a `#`
  have hquery : '?' ∉ hier := hhier ▸ not_mem_cut '?' _
  have hhash : '#' ∉ hier := fun h => not_mem_cut '#' s (cut_subset (hhier ▸ h))
  have hin : ∀ c, c ∈ sch ∨ c ∈ a → c ∈ hier := fun c hc => by
    rw [hscheme, hauthority]
    simp only [List.mem_append, List.mem_cons]
    tauto
  obtain ⟨rq, hrq, hrqends⟩ := exists_cut '?' (cut '#' s).1
  obtain ⟨rf, hrf, hrfends⟩ := exists_cut '#' s
  refine ⟨hne, fun c hc => ?_, fun c hc => ?_, path ++ (rq ++ rf), ?_, ?_⟩
  · simp only [List.mem_cons, List.not_mem_nil, or_false, not_or]
    refine ⟨fun h => hcolon (h ▸ hc), fun h => hslash (h ▸ hc), fun h => hquery ?_, fun h => hhash ?_⟩
    · exact h ▸ hin c (.inl hc)
    · exact h ▸ hin c (.inl hc)
  · simp only [List.mem_cons, List.not_mem_nil, or_false, not_or]
    refine ⟨fun h => haslash (h ▸ hc), fun h => hquery ?_, fun h => hhash ?_⟩
    · exact h ▸ hin c (.inr hc)
    · exact h ▸ hin c (.inr hc)
  · calc s = hier ++ rq ++ rf := by rw [hhier, ← hrq, ← hrf]
      _ = sch ++ ':' :: '/' :: '/' :: (a ++ (path ++ (rq ++ rf))) := by
        rw [hscheme, hauthority]
        simp
  · by_cases hpath : path = []
    · rw [hpath, List.nil_append]
      rcases hrqends with hempty | hhead
      · rw [hempty, List.nil_append]
        exact hrfends.imp id fun h => .inr (.inr h)
      · have hne' : rq ≠ [] := by
          intro hempty
          rw [hempty] at hhead
          cases hhead
        exact Ends.append (.inr (.inr (.inl hhead))) hne' rf
    · exact hends.append hpath _

/-- **The origin does not depend on what is put behind it.** A reference with a
scheme and an authority, continued after its authority has ended, keeps both. -/
theorem origin_append {s t sch a : List Char} (hsch : (parse s).scheme = some sch)
    (ha : (parse s).authority = some a) (hne : a ≠ [])
    (ht : t = [] ∨ s.getLast? = some '/' ∨ Ends t) :
    (parse (s ++ t)).scheme = some sch ∧ (parse (s ++ t)).authority = some a := by
  obtain ⟨hnamed, hscheme, hauthority, r, hs, hr⟩ := exists_of_origin hsch ha
  refine parse_origin ⟨hnamed, hscheme, hauthority, r ++ t, by rw [hs]; simp, ?_⟩
  by_cases hempty : r = []
  · rw [hempty, List.nil_append]
    rcases ht with ht | ht | ht
    · exact .inl ht
    · -- the reference ends with its authority, in which there is no slash
      have hlast : s.getLast? = a.getLast? := by
        obtain ⟨b, c, hconcat⟩ := List.eq_nil_or_concat a |>.resolve_left hne
        have hgroup : sch ++ ':' :: '/' :: '/' :: (b ++ [c]) = (sch ++ ':' :: '/' :: '/' :: b) ++ [c] := by
          simp
        rw [hs, hempty, List.append_nil, hconcat, List.concat_eq_append, hgroup, List.getLast?_concat,
          List.getLast?_concat]
      rw [hlast] at ht
      exact absurd (List.mem_of_getLast? ht) fun h => hauthority _ h (by decide)
    · exact ht
  · exact hr.append hempty t

/-- A host and a port; brackets hold an address with colons. -/
structure HostPort where
  userinfo : Option (List Char)
  host : List Char
  port : Option (List Char)

/-- An authority cut into its parts. -/
def hostPort (authority : List Char) : HostPort :=
  let user := cut '@' authority
  let location := user.2.getD authority
  let named := match cut ']' location with
    | (address, some rest) =>
      if location.head? = some '[' then (address ++ [']'], (cut ':' rest).2) else cut ':' location
    | (_, none) => cut ':' location
  { userinfo := user.2.map fun _ => user.1, host := named.1, port := named.2 }

end Uri
end Net
