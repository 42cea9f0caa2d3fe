/-
# Distinguished names

The string representation of directory names (RFC 4514) as a parser (`parse`).
A text is read into tokens, each a character that stands for itself or what an
escape stands for. Commas that stand for themselves cut the name into its
components, plus signs cut a component into its attribute values, the first
equals sign ends an attribute type, and blanks around any of them do not count.
The empty text is the name of the root.

Two components are equal (`Ava.key`, `rdnKey`) if they hold the same attribute
values in any order, letter case apart. Under that equality a name lies at or
below another if the components of the other are its last (`Dn.Below`).

* `map_key_parse`: what a text reads as, letter case apart, depends on the text
  only up to letter case.
* `below_iff_begins`: where a text ends in that of another name, it lies at or
  below that name exactly if a component begins there.
-/
import HttpBridge.Net.Ascii
import HttpBridge.Net.Filter
import Mathlib.Data.List.DropRight
import Mathlib.Data.Multiset.ZeroCons

namespace Net
namespace Dn

open JsonText (hexValue)

/-! ### Tokens -/

inductive Token where
  | plain (c : Char)
  | escaped (c : Char)
  deriving DecidableEq

def Token.char : Token → Char
  | .plain c => c
  | .escaped c => c

abbrev blank : Token := .plain ' '
abbrev comma : Token := .plain ','
abbrev plus : Token := .plain '+'
abbrev equals : Token := .plain '='

/-- The characters that a backslash may stand in front of. -/
def special : List Char := ['"', '+', ',', ';', '<', '>', ' ', '#', '=', '\\']

/-- Those that never stand for themselves. -/
def forbidden : List Char := ['"', ';', '<', '>', '\x00']

/-- Where the reader is: between characters, behind a backslash, or behind the
first digit of an octet. -/
inductive Lexer where
  | text
  | behind
  | octet (n : ℕ)
  deriving DecidableEq

def step : Lexer → Char → Option (List Token × Lexer)
  | .text, c =>
    if c = '\\' then some ([], .behind)
    else if c ∈ forbidden then none
    else some ([.plain c], .text)
  | .behind, c =>
    match hexValue c with
    | some n => some ([], .octet n)
    | none => if c ∈ special then some ([.escaped c], .text) else none
  | .octet m, c => (hexValue c).map fun n => ([.escaped (Char.ofNat (16 * m + n))], .text)

/-- The tokens of a text, read on from some place, and where the reader is then. -/
def lex : Lexer → List Char → Option (List Token × Lexer)
  | st, [] => some ([], st)
  | st, c :: s =>
    match step st c with
    | none => none
    | some (ts, st) => (lex st s).map fun (us, st) => (ts ++ us, st)

def tokens (s : List Char) : Option (List Token) :=
  match lex .text s with
  | some (ts, .text) => some ts
  | _ => none

/-! ### Names -/

/-- An attribute value assertion. -/
structure Ava where
  type : List Char
  value : List Char
  deriving DecidableEq

abbrev Rdn := List Ava

def trim (ts : List Token) : List Token :=
  (ts.rdropWhile (· = blank)).dropWhile (· = blank)

/-- A character of an attribute type, whose letter case does not count. -/
def typeChar : Token → Option Char
  | .plain c => if Filter.isKeyChar c || c == '.' then some c.toLower else none
  | .escaped _ => none

def readType (ts : List Token) : Option (List Char) :=
  if trim ts = [] then none else (trim ts).mapM typeChar

def readAva (ts : List Token) : Option Ava :=
  match ts.dropWhile (· ≠ equals) with
  | [] => none
  | _ :: value =>
    (readType (ts.takeWhile (· ≠ equals))).map fun type => ⟨type, (trim value).map Token.char⟩

def readRdn (ts : List Token) : Option Rdn := (ts.splitOn plus).mapM readAva

def components (ts : List Token) : Option (List Rdn) := (ts.splitOn comma).mapM readRdn

/-- The components of the name that a text stands for. -/
def parse (s : String) : Option (List Rdn) :=
  if s = "" then some [] else (tokens s.toList).bind components

/-- What counts of an attribute value. -/
def Ava.key (a : Ava) : List Char × List Char := (a.type, a.value.map Char.toLower)

/-- What counts of a component. -/
def rdnKey (rdn : Rdn) : Multiset (List Char × List Char) := ↑(rdn.map Ava.key)

end Dn

/-- A text that is a name, with its components. -/
structure Dn where
  text : String
  rdns : List Dn.Rdn
  reads : Dn.parse text = some rdns

namespace Dn

open JsonText (hexValue)

def key (d : Dn) : List (Multiset (List Char × List Char)) := d.rdns.map rdnKey

/-- The name that a text stands for. -/
def ofText (s : String) (h : (parse s).isSome = true) : Dn :=
  ⟨s, (parse s).get h, Option.eq_some_of_isSome h⟩

/-- The text, letter case apart. -/
abbrev folded (d : Dn) : List Char := d.text.toList.map Char.toLower

/-- At or below, component by component. -/
def Below (d base : Dn) : Prop := base.key <:+ d.key

instance (d base : Dn) : Decidable (d.Below base) :=
  inferInstanceAs (Decidable (base.key <:+ d.key))

example : (parse "OU=a\\,b\\20c + cn=x , dc = fe").map (·.map rdnKey) =
    (parse "CN=X+ou=A\\2cB c,DC=FE").map (·.map rdnKey) := by decide +kernel

/-! ### Lists -/

section Lists

variable {α β γ : Type}

theorem mapM_eq_some {f : α → Option β} {xs : List α} {ys : List β} :
    xs.mapM f = some ys ↔ List.Forall₂ (fun x y => f x = some y) xs ys := by
  induction xs generalizing ys with
  | nil => simp [eq_comm]
  | cons x xs ih =>
    rw [List.mapM_cons, List.forall₂_cons_left_iff]
    simp only [Option.bind_eq_bind, Option.pure_def, Option.bind_eq_some_iff, Option.some.injEq, ih]
    constructor
    · rintro ⟨y, hy, ys, hys, rfl⟩
      exact ⟨y, ys, hy, hys, rfl⟩
    · rintro ⟨y, ys, hy, hys, rfl⟩
      exact ⟨y, hy, ys, hys, rfl⟩

theorem exists_of_mapM {f : α → Option β} {xs : List α} {ys : List β} (h : xs.mapM f = some ys)
    {x : α} (hx : x ∈ xs) : ∃ y, f x = some y := by
  rw [mapM_eq_some] at h
  induction h with
  | nil => simp at hx
  | cons hxy _ ih =>
    rcases List.mem_cons.mp hx with rfl | hx
    · exact ⟨_, hxy⟩
    · exact ih hx

theorem map_mapM (f : α → Option β) (g : β → γ) (xs : List α) :
    (xs.mapM f).map (·.map g) = xs.mapM fun x => (f x).map g := by
  induction xs with
  | nil => rfl
  | cons x xs ih =>
    rw [List.mapM_cons, List.mapM_cons, ← ih]
    cases f x with
    | none => rfl
    | some y => cases xs.mapM f <;> rfl

variable [DecidableEq α] {a : α}

theorem splitOn_append_of_not_mem {w : List α} (h : a ∉ w) (xs : List α) :
    (w ++ xs).splitOn a = (xs.splitOn a).modifyHead (w ++ ·) := by
  induction w with
  | nil => cases h : xs.splitOn a <;> simp [h]
  | cons b w ih =>
    have hb : b ≠ a := fun hb => h (hb ▸ List.mem_cons_self)
    rw [List.cons_append, List.splitOn_cons_eq_if_modifyHead, if_neg (by simpa using hb),
      ih fun hw => h (List.mem_cons_of_mem b hw)]
    cases xs.splitOn a <;> rfl

theorem mapM_splitOn_append {f : List α → Option β} {w : List α} (hw : a ∉ w) {p q : List α}
    {ps : List (List α)} (hp : p.splitOn a = q :: ps) :
    ((w ++ p).splitOn a).mapM f = (f (w ++ q)).bind fun b => (ps.mapM f).map (b :: ·) := by
  rw [splitOn_append_of_not_mem hw, hp, List.modifyHead_cons, List.mapM_cons]
  cases f (w ++ q) with
  | none => rfl
  | some b => cases ps.mapM f <;> rfl

theorem splitOn_map {f : α → α} (hf : ∀ x, f x = a ↔ x = a) (xs : List α) :
    (xs.map f).splitOn a = (xs.splitOn a).map (·.map f) := by
  induction xs with
  | nil => rfl
  | cons x xs ih =>
    rw [List.map_cons, List.splitOn_cons_eq_if_modifyHead, List.splitOn_cons_eq_if_modifyHead, ih]
    by_cases hx : x = a
    · simp [hx, (hf a).mpr rfl]
    · rw [if_neg (by simpa [hf] using hx), if_neg (by simpa using hx)]
      cases xs.splitOn a <;> rfl

theorem length_splitOn (xs : List α) : (xs.splitOn a).length = xs.count a + 1 := by
  induction xs with
  | nil => rfl
  | cons x xs ih =>
    rw [List.splitOn_cons_eq_if_modifyHead]
    by_cases hx : x = a
    · simp [hx, ih]
    · simp [hx, ih]

end Lists

/-! ### Letter case -/

theorem hexValue_toLower (c : Char) : hexValue c.toLower = hexValue c :=
  toLower_induction (p := fun c d => hexValue d = hexValue c) (fun _ => rfl) (by decide) c

def Token.fold : Token → Token
  | .plain c => .plain c.toLower
  | .escaped c => .escaped c.toLower

theorem fold_eq_plain {d : Char} (hd : d ∈ [',', '+', '=', ' ']) (t : Token) :
    t.fold = .plain d ↔ t = .plain d := by
  have hd : d.isAlpha = false := (by decide : ∀ d ∈ [',', '+', '=', ' '], d.isAlpha = false) d hd
  cases t with
  | plain c => simpa [Token.fold] using toLower_eq_iff hd
  | escaped c => simp [Token.fold]

theorem typeChar_fold (t : Token) : typeChar t.fold = typeChar t := by
  cases t with
  | plain c =>
    exact toLower_induction (p := fun c d => typeChar (.plain d) = typeChar (.plain c))
      (fun _ => rfl) (by decide) c
  | escaped c => rfl

theorem decide_fold_eq {d : Char} (hd : d ∈ [',', '+', '=', ' ']) :
    (fun t => decide (t = Token.plain d)) ∘ Token.fold = fun t => decide (t = Token.plain d) := by
  funext t
  simp [fold_eq_plain hd]

theorem trim_fold (ts : List Token) : trim (ts.map Token.fold) = (trim ts).map Token.fold := by
  have hrdrop : (ts.map Token.fold).rdropWhile (· = blank) =
      (ts.rdropWhile (· = blank)).map Token.fold := by
    rw [List.rdropWhile, List.rdropWhile, ← List.map_reverse, List.dropWhile_map,
      decide_fold_eq (by decide), List.map_reverse]
  rw [trim, trim, hrdrop, List.dropWhile_map, decide_fold_eq (by decide)]

theorem readType_fold (ts : List Token) : readType (ts.map Token.fold) = readType ts := by
  have hchar : typeChar ∘ Token.fold = typeChar := funext typeChar_fold
  rw [readType, readType, trim_fold, List.mapM_map, hchar]
  simp

theorem map_key_readAva (ts : List Token) :
    (readAva (ts.map Token.fold)).map Ava.key = (readAva ts).map Ava.key := by
  have hne : (fun t => decide (t ≠ equals)) ∘ Token.fold =
      fun t => decide (t ≠ equals) := by
    funext t
    simp [fold_eq_plain (d := '=') (by decide)]
  have hvalue : ∀ ts : List Token, ((trim (ts.map Token.fold)).map Token.char).map Char.toLower =
      ((trim ts).map Token.char).map Char.toLower := by
    intro ts
    rw [trim_fold, List.map_map, List.map_map, List.map_map]
    refine List.map_congr_left fun t _ => ?_
    cases t <;> exact toLower_toLower _
  rw [readAva, readAva, List.dropWhile_map, List.takeWhile_map, hne, readType_fold]
  cases ts.dropWhile (· ≠ equals) with
  | nil => rfl
  | cons t value => cases readType (ts.takeWhile (· ≠ equals)) <;> simp [Ava.key, hvalue]

theorem map_key_readRdn (ts : List Token) :
    (readRdn (ts.map Token.fold)).map rdnKey = (readRdn ts).map rdnKey := by
  have hkeys : ∀ ts : List Token, (readRdn ts).map rdnKey =
      ((ts.splitOn plus).mapM fun t => (readAva t).map Ava.key).map (↑·) := by
    intro ts
    rw [← map_mapM, Option.map_map]
    rfl
  have hfold : (fun t => (readAva t).map Ava.key) ∘ List.map Token.fold =
      fun t => (readAva t).map Ava.key := funext map_key_readAva
  rw [hkeys, hkeys, splitOn_map (fold_eq_plain (by decide)), List.mapM_map, hfold]

theorem map_key_components (ts : List Token) :
    (components (ts.map Token.fold)).map (·.map rdnKey) =
      (components ts).map (·.map rdnKey) := by
  have hfold : (fun t => (readRdn t).map rdnKey) ∘ List.map Token.fold =
      fun t => (readRdn t).map rdnKey := funext map_key_readRdn
  rw [components, components, map_mapM, map_mapM, splitOn_map (fold_eq_plain (by decide)),
    List.mapM_map, hfold]

/-- What the reader found, letter case apart. -/
def foldRead (r : List Token × Lexer) : List Token × Lexer := (r.1.map Token.fold, r.2)

theorem step_toLower (st : Lexer) (c : Char) :
    (step st c.toLower).map foldRead = (step st c).map foldRead := by
  cases st with
  | text =>
    exact toLower_induction
      (p := fun c d => (step .text d).map foldRead = (step .text c).map foldRead) (fun _ => rfl)
      (by decide) c
  | behind =>
    exact toLower_induction
      (p := fun c d => (step .behind d).map foldRead = (step .behind c).map foldRead) (fun _ => rfl)
      (by decide) c
  | octet m => rw [step, step, hexValue_toLower]

theorem foldRead_append (ts : List Token) (r : Option (List Token × Lexer)) :
    (r.map fun r => (ts ++ r.1, r.2)).map foldRead =
      (r.map foldRead).map fun r => (ts.map Token.fold ++ r.1, r.2) := by
  cases r <;> simp [foldRead]

theorem lex_toLower (st : Lexer) (s : List Char) :
    (lex st (s.map Char.toLower)).map foldRead = (lex st s).map foldRead := by
  induction s generalizing st with
  | nil => rfl
  | cons c s ih =>
    have hstep := step_toLower st c
    rw [List.map_cons, lex, lex]
    cases h : step st c with
    | none =>
      rw [h, Option.map_none, Option.map_eq_none_iff] at hstep
      rw [hstep]
    | some r =>
      rw [h, Option.map_some, Option.map_eq_some_iff] at hstep
      obtain ⟨r', h', hfold⟩ := hstep
      obtain ⟨hts, hst⟩ : r'.1.map Token.fold = r.1.map Token.fold ∧ r'.2 = r.2 := by
        simpa [foldRead] using hfold
      have hrest := ih r.2
      rw [h']
      dsimp only
      rw [foldRead_append, foldRead_append, hst, hts, hrest]

theorem tokens_toLower (s : List Char) :
    (tokens (s.map Char.toLower)).map (·.map Token.fold) = (tokens s).map (·.map Token.fold) := by
  have h : ∀ s, (tokens s).map (·.map Token.fold) =
      ((lex .text s).map foldRead).bind fun r => if r.2 = .text then some r.1 else none := by
    intro s
    rw [tokens]
    rcases lex .text s with _ | ⟨ts, _ | _ | _⟩ <;> rfl
  rw [h, h, lex_toLower]

/-- **Letter case does not count.** -/
theorem map_key_parse {s t : String} (h : s.toList.map Char.toLower = t.toList.map Char.toLower) :
    (parse s).map (·.map rdnKey) = (parse t).map (·.map rdnKey) := by
  have hkeys : ∀ s : List Char, ((tokens s).bind components).map (·.map rdnKey) =
      ((tokens s).map (·.map Token.fold)).bind fun ts => (components ts).map (·.map rdnKey) := by
    intro s
    cases tokens s with
    | none => rfl
    | some ts => exact (map_key_components ts).symm
  have hempty : s = "" ↔ t = "" := by
    rw [← String.toList_eq_nil_iff, ← String.toList_eq_nil_iff, ← List.map_eq_nil_iff, h,
      List.map_eq_nil_iff]
  unfold parse
  by_cases hs : s = ""
  · rw [if_pos hs, if_pos (hempty.mp hs)]
  · rw [if_neg hs, if_neg (hempty.not.mp hs), hkeys, hkeys, ← tokens_toLower, h, tokens_toLower]

/-! ### Reading on -/

theorem lex_cons {c : Char} {s : List Char} {st st' : Lexer} {ts : List Token} :
    lex st (c :: s) = some (ts, st') ↔
      ∃ us st₁ vs, step st c = some (us, st₁) ∧ lex st₁ s = some (vs, st') ∧ us ++ vs = ts := by
  rw [lex]
  cases step st c with
  | none => simp
  | some r =>
    obtain ⟨us, st₁⟩ := r
    dsimp only
    rw [Option.map_eq_some_iff]
    constructor
    · rintro ⟨⟨vs, st₂⟩, hs, heq⟩
      obtain ⟨rfl, rfl⟩ := Prod.mk.inj heq
      exact ⟨us, st₁, vs, rfl, hs, rfl⟩
    · rintro ⟨us', st₂, vs, heq, hs, rfl⟩
      obtain ⟨rfl, rfl⟩ := Prod.mk.inj (Option.some.inj heq)
      exact ⟨(vs, st'), hs, rfl⟩

theorem lex_append {s t : List Char} {st st' : Lexer} {ts : List Token} :
    lex st (s ++ t) = some (ts, st') ↔
      ∃ us st₁ vs, lex st s = some (us, st₁) ∧ lex st₁ t = some (vs, st') ∧ us ++ vs = ts := by
  induction s generalizing st ts with
  | nil => simp [lex]
  | cons c s ih =>
    rw [List.cons_append, lex_cons]
    constructor
    · rintro ⟨ws, st₀, _, hc, h, rfl⟩
      obtain ⟨us, st₁, vs, hs, ht, rfl⟩ := ih.mp h
      exact ⟨_, st₁, vs, lex_cons.mpr ⟨ws, st₀, us, hc, hs, rfl⟩, ht, List.append_assoc ..⟩
    · rintro ⟨_, st₁, vs, h, ht, rfl⟩
      obtain ⟨ws, st₀, us, hc, hs, rfl⟩ := lex_cons.mp h
      exact ⟨ws, st₀, _, hc, ih.mpr ⟨us, st₁, vs, hs, ht, rfl⟩, (List.append_assoc ..).symm⟩

theorem lex_singleton {c : Char} {st st' : Lexer} {ts : List Token} :
    lex st [c] = some (ts, st') ↔ step st c = some (ts, st') := by
  rw [lex_cons]
  simp [lex, eq_comm]

theorem tokens_eq_some {s : List Char} {ts : List Token} :
    tokens s = some ts ↔ lex .text s = some (ts, .text) := by
  rw [tokens]
  rcases lex .text s with _ | ⟨us, _ | _ | _⟩ <;> simp

theorem step_text {c : Char} {ts : List Token} (h : step .text c = some (ts, .text)) :
    ts = [.plain c] := by
  rw [step] at h
  split_ifs at h <;> simp_all

/-- Within an escape nothing is read before its last character. -/
theorem step_escape {st st' : Lexer} {c : Char} {ts : List Token} (hst : st ≠ .text)
    (h : step st c = some (ts, st')) :
    (st' = .text ∧ ∃ e, ts = [.escaped e]) ∨ (st' ≠ .text ∧ ts = []) := by
  cases st with
  | text => exact absurd rfl hst
  | behind =>
    rw [step] at h
    cases hc : hexValue c with
    | none =>
      rw [hc] at h
      dsimp only at h
      split_ifs at h
      obtain ⟨rfl, rfl⟩ := Prod.mk.inj (Option.some.inj h)
      exact .inl ⟨rfl, c, rfl⟩
    | some n =>
      rw [hc] at h
      obtain ⟨rfl, rfl⟩ := Prod.mk.inj (Option.some.inj h)
      exact .inr ⟨by simp, rfl⟩
  | octet m =>
    rw [step, Option.map_eq_some_iff] at h
    obtain ⟨n, -, h⟩ := h
    obtain ⟨rfl, rfl⟩ := Prod.mk.inj h
    exact .inl ⟨rfl, _, rfl⟩

theorem head_of_escape {st : Lexer} {y : List Char} {vs : List Token} (hst : st ≠ .text)
    (h : lex st y = some (vs, .text)) : ∃ e rest, vs = .escaped e :: rest := by
  induction y generalizing st vs with
  | nil => exact absurd (Prod.mk.inj (Option.some.inj h)).2 hst
  | cons c y ih =>
    obtain ⟨us, st₁, ws, hstep, hws, rfl⟩ := lex_cons.mp h
    rcases step_escape hst hstep with ⟨rfl, e, rfl⟩ | ⟨hst₁, rfl⟩
    · exact ⟨e, ws, rfl⟩
    · exact ih hst₁ hws

/-- The last character of a text that reads to its end, and the last token. -/
theorem lex_concat {u : List Char} {c : Char} {ts : List Token}
    (h : lex .text (u ++ [c]) = some (ts, .text)) :
    (∃ us, ts = us ++ [.plain c] ∧ lex .text u = some (us, .text)) ∨
      ∃ us e, ts = us ++ [.escaped e] := by
  obtain ⟨us, st, vs, hu, hc, rfl⟩ := lex_append.mp h
  have hvs : step st c = some (vs, .text) := lex_singleton.mp hc
  by_cases hst : st = .text
  · subst hst
    exact .inl ⟨us, by rw [step_text hvs], hu⟩
  · obtain ⟨-, e, rfl⟩ := (step_escape hst hvs).resolve_right fun h => h.1 rfl
    exact .inr ⟨us, e, rfl⟩

/-! ### Where components begin -/

/-- `u` is what stands in front of a component: nothing, or a text up to a comma
that stands for itself. -/
def Starts (u : List Char) : Prop := u = [] ∨ ∃ v, u = v ++ [','] ∧ (tokens v).isSome

/-- So is `u`, but for blanks. -/
def Begins (u : List Char) : Prop := ∃ v w, u = v ++ w ∧ (∀ c ∈ w, c = ' ') ∧ Starts v

theorem Starts.begins {u : List Char} (h : Starts u) : Begins u :=
  ⟨u, [], (List.append_nil u).symm, by simp, h⟩

/-- The tokens in front of a component. -/
def Cut (ts : List Token) : Prop := ts = [] ∨ ∃ us, ts = us ++ [comma]

theorem lex_blanks {w : List Char} (h : ∀ c ∈ w, c = ' ') :
    lex .text w = some (w.map .plain, .text) := by
  induction w with
  | nil => rfl
  | cons c w ih =>
    obtain rfl : c = ' ' := h c List.mem_cons_self
    have hstep : step .text ' ' = some ([blank], .text) := by decide
    exact lex_cons.mpr ⟨_, _, _, hstep, ih fun d hd => h d (List.mem_cons_of_mem _ hd), rfl⟩

theorem Begins.lex {u : List Char} (h : Begins u) :
    ∃ pre w, Dn.lex .text u = some (pre ++ w, .text) ∧ Cut pre ∧ ∀ t ∈ w, t = blank := by
  obtain ⟨v, w, rfl, hw, hv⟩ := h
  have hblank : ∀ t ∈ w.map Token.plain, t = blank := by
    intro t ht
    obtain ⟨c, hc, rfl⟩ := List.mem_map.mp ht
    rw [hw c hc]
  rcases hv with rfl | ⟨v', rfl, hv'⟩
  · exact ⟨[], _, lex_blanks hw, .inl rfl, hblank⟩
  · obtain ⟨ts, hts⟩ := Option.isSome_iff_exists.mp hv'
    have hcomma : Dn.lex .text [','] = some ([comma], .text) := by decide
    have hfront : Dn.lex .text (v' ++ [',']) = some (ts ++ [comma], .text) :=
      lex_append.mpr ⟨_, _, _, tokens_eq_some.mp hts, hcomma, rfl⟩
    exact ⟨ts ++ [comma], _, lex_append.mpr ⟨_, _, _, hfront, lex_blanks hw, rfl⟩,
      .inr ⟨ts, rfl⟩, hblank⟩

theorem begins_of_blank {pre : List Token} (hpre : Cut pre) : ∀ {w : List Token} {u : List Char},
    lex .text u = some (pre ++ w, .text) → (∀ t ∈ w, t = blank) → Begins u := by
  intro w
  induction w using List.reverseRecOn with
  | nil =>
    intro u h _
    rw [List.append_nil] at h
    rcases List.eq_nil_or_concat' u with rfl | ⟨u, c, rfl⟩
    · exact Starts.begins (.inl rfl)
    · rcases lex_concat h with ⟨us, rfl, hu⟩ | ⟨us, e, rfl⟩
      · rcases hpre with hpre | ⟨us', hpre⟩
        · simp at hpre
        · obtain ⟨rfl, hc⟩ := List.append_inj' hpre rfl
          obtain rfl : c = ',' := by simpa using hc
          exact Starts.begins (.inr ⟨u, rfl, by rw [tokens_eq_some.mpr hu]; rfl⟩)
      · rcases hpre with hpre | ⟨us', hpre⟩
        · simp at hpre
        · have := (List.append_inj' hpre rfl).2
          simp at this
  | append_singleton w t ih =>
    intro u h hw
    obtain rfl : t = blank := hw t (by simp)
    rw [← List.append_assoc] at h
    rcases List.eq_nil_or_concat' u with rfl | ⟨u, c, rfl⟩
    · simp [lex] at h
    · rcases lex_concat h with ⟨us, hts, hu⟩ | ⟨us, e, hts⟩
      · obtain ⟨rfl, hc⟩ := List.append_inj' hts rfl
        obtain rfl : c = ' ' := by simpa using hc.symm
        obtain ⟨v, bs, rfl, hbs, hv⟩ := ih hu fun t ht => hw t (List.mem_append_left _ ht)
        refine ⟨v, bs ++ [' '], (List.append_assoc ..), fun c hc => ?_, hv⟩
        rcases List.mem_append.mp hc with hc | hc
        · exact hbs c hc
        · simpa using hc
      · have := (List.append_inj' hts rfl).2
        simp at this

/-! ### What stands in front of a component -/

theorem length_trim_le (ts : List Token) :
    (trim ts).length ≤ (ts.rdropWhile (· = blank)).length := (List.dropWhile_sublist _).length_le

theorem rdropWhile_cons {p : Token → Bool} {t : Token} {ts : List Token}
    (h : p t = false ∨ ts.rdropWhile p ≠ []) : (t :: ts).rdropWhile p = t :: ts.rdropWhile p := by
  rw [List.rdropWhile, List.reverse_cons, List.dropWhile_append]
  by_cases hts : ts.rdropWhile p = []
  · have hrev : ts.reverse.dropWhile p = [] := List.reverse_eq_nil_iff.mp hts
    have ht : p t = false := h.resolve_right fun h => h hts
    rw [hts, hrev]
    simp [ht]
  · have hrev : ts.reverse.dropWhile p ≠ [] := fun h => hts (List.reverse_eq_nil_iff.mpr h)
    simp [hrev, List.rdropWhile]

theorem trim_cons_blank (ts : List Token) : trim (blank :: ts) = trim ts := by
  by_cases h : ts.rdropWhile (· = blank) = []
  · have hall : ∀ t ∈ ts, decide (t = blank) = true := List.rdropWhile_eq_nil_iff.mp h
    have hnil : (blank :: ts).rdropWhile (· = blank) = [] :=
      List.rdropWhile_eq_nil_iff.mpr (List.forall_mem_cons.mpr ⟨by decide, hall⟩)
    rw [trim, trim, hnil, h]
  · rw [trim, rdropWhile_cons (.inr h), trim, List.dropWhile_cons_of_pos (by decide)]

theorem trim_cons {t : Token} (ht : t ≠ blank) (ts : List Token) :
    trim (t :: ts) = t :: ts.rdropWhile (· = blank) := by
  rw [trim, rdropWhile_cons (.inl (by simpa using ht)), List.dropWhile_cons_of_neg (by simpa using ht)]

theorem trim_append_of_blank {w : List Token} (h : ∀ t ∈ w, t = blank) (ts : List Token) :
    trim (w ++ ts) = trim ts := by
  induction w with
  | nil => rfl
  | cons t w ih =>
    obtain rfl : t = blank := h t List.mem_cons_self
    rw [List.cons_append, trim_cons_blank, ih fun t ht => h t (List.mem_cons_of_mem _ ht)]

/-- Anything but blanks in front makes what is trimmed longer. -/
theorem length_trim_lt {w : List Token} (h : ∃ t ∈ w, t ≠ blank) (ts : List Token) :
    (trim ts).length < (trim (w ++ ts)).length := by
  induction w with
  | nil => simp at h
  | cons t w ih =>
    rw [List.cons_append]
    by_cases ht : t = blank
    · subst ht
      rw [trim_cons_blank]
      exact ih (by simpa using h)
    · have hle : (ts.rdropWhile (· = blank)).length ≤ ((w ++ ts).rdropWhile (· = blank)).length := by
        clear ih h
        induction w with
        | nil => exact le_rfl
        | cons s w ih =>
          by_cases hnil : (w ++ ts).rdropWhile (· = blank) = []
          · rw [hnil] at ih
            exact ih.trans (Nat.zero_le _)
          · rw [List.cons_append, rdropWhile_cons (.inr hnil), List.length_cons]
            exact ih.trans (Nat.le_succ _)
      have hlt := (length_trim_le ts).trans hle
      rw [trim_cons ht, List.length_cons]
      omega

theorem mem_trim {t : Token} {ts : List Token} (ht : t ≠ blank) (h : t ∈ ts) : t ∈ trim ts := by
  have hdrop : ∀ {us : List Token}, t ∈ us → t ∈ us.dropWhile (· = blank) := by
    intro us hus
    rw [← @List.takeWhile_append_dropWhile _ (fun t => decide (t = blank)) us] at hus
    refine (List.mem_append.mp hus).resolve_left fun hus => ?_
    exact ht (by simpa using List.mem_takeWhile_imp hus)
  exact hdrop (List.mem_reverse.mpr (hdrop (List.mem_reverse.mpr h)))

theorem readAva_append {l : List Token} (h : equals ∉ l) (r : List Token) :
    readAva (l ++ equals :: r) = (readType l).map fun type => ⟨type, (trim r).map Token.char⟩ := by
  have hl : ∀ t ∈ l, decide (t ≠ equals) = true := by
    intro t ht
    rw [decide_eq_true_iff]
    rintro rfl
    exact h ht
  rw [readAva, List.dropWhile_append_of_pos hl, List.takeWhile_append_of_pos hl,
    List.dropWhile_cons_of_neg (by decide), List.takeWhile_cons_of_neg (by decide), List.append_nil]

theorem readAva_of_not_mem {ts : List Token} (h : equals ∉ ts) : readAva ts = none := by
  have hnil : ts.dropWhile (· ≠ equals) = [] := by
    rw [List.dropWhile_eq_nil_iff]
    intro t ht
    rw [decide_eq_true_iff]
    rintro rfl
    exact h ht
  rw [readAva, hnil]

theorem of_readType {ts : List Token} {type : List Char} (h : readType ts = some type) :
    type.length = (trim ts).length ∧ ∀ e, .escaped e ∉ ts := by
  rw [readType] at h
  split_ifs at h
  refine ⟨(mapM_eq_some.mp h).length_eq.symm, fun e he => ?_⟩
  obtain ⟨c, hc⟩ := exists_of_mapM h (mem_trim (by simp) he)
  simp [typeChar] at hc

/-- Where the attributes of two texts end alike, what stands in front of the one
tells the values apart. -/
theorem avaKey_ne {w x p : List Token} {a b : Ava} (hw : ∃ t ∈ w, t ≠ blank) (hx : equals ∉ x)
    (hesc : x = [] ∨ ∃ e, .escaped e ∈ w) (ha : readAva (w ++ p) = some a)
    (hb : readAva (x ++ p) = some b) : a.key ≠ b.key := by
  have hp : equals ∈ p := by
    by_contra hp
    rw [readAva_of_not_mem (by simp [hx, hp])] at hb
    cases hb
  obtain ⟨p₁, p₂, rfl, hp₁⟩ := List.eq_append_cons_of_mem hp
  rw [← List.append_assoc, readAva_append (by simp [hx, hp₁])] at hb
  obtain ⟨tb, htb, rfl⟩ := Option.map_eq_some_iff.mp hb
  intro hkey
  by_cases hwe : equals ∈ w
  · -- the value of the one goes on where that of the other begins
    obtain ⟨w₁, w₂, rfl, hw₁⟩ := List.eq_append_cons_of_mem hwe
    have hsplit : (w₁ ++ equals :: w₂) ++ (p₁ ++ equals :: p₂) =
        w₁ ++ equals :: ((w₂ ++ p₁ ++ [equals]) ++ p₂) := by simp
    rw [hsplit, readAva_append hw₁] at ha
    obtain ⟨ta, -, rfl⟩ := Option.map_eq_some_iff.mp ha
    have hlt : (trim p₂).length < (trim ((w₂ ++ p₁ ++ [equals]) ++ p₂)).length :=
      length_trim_lt ⟨equals, by simp, by decide⟩ p₂
    have hlen := congrArg List.length (Prod.mk.inj hkey).2
    simp only [List.length_map] at hlen
    omega
  · -- the type of the one goes on where that of the other begins
    rw [← List.append_assoc, readAva_append (by simp [hwe, hp₁])] at ha
    obtain ⟨ta, hta, rfl⟩ := Option.map_eq_some_iff.mp ha
    rcases hesc with rfl | ⟨e, he⟩
    · have hlt : (trim p₁).length < (trim (w ++ p₁)).length := length_trim_lt hw p₁
      have hlen := congrArg List.length (Prod.mk.inj hkey).1
      rw [(of_readType hta).1, (of_readType htb).1, List.nil_append] at hlen
      omega
    · exact (of_readType hta).2 e (List.mem_append_left _ he)

theorem rdnKey_ne {w x p : List Token} {a b : Rdn} (hw : ∃ t ∈ w, t ≠ blank) (hx : equals ∉ x)
    (hx' : plus ∉ x) (hesc : x = [] ∨ ∃ e, .escaped e ∈ w) (ha : readRdn (w ++ p) = some a)
    (hb : readRdn (x ++ p) = some b) : rdnKey a ≠ rdnKey b := by
  intro hkey
  by_cases hwp : plus ∈ w
  · -- the one has more values
    have hlen : a.length = b.length := by simpa [rdnKey] using congrArg Multiset.card hkey
    have hpos : 0 < w.count plus := List.count_pos_iff.mpr hwp
    rw [← (mapM_eq_some.mp ha).length_eq, ← (mapM_eq_some.mp hb).length_eq, length_splitOn,
      length_splitOn, List.count_append, List.count_append, List.count_eq_zero.mpr hx'] at hlen
    omega
  · obtain ⟨q, ps, hp⟩ := List.exists_cons_of_ne_nil (List.splitOn_ne_nil plus p)
    rw [readRdn, mapM_splitOn_append hwp hp, Option.bind_eq_some_iff] at ha
    rw [readRdn, mapM_splitOn_append hx' hp, Option.bind_eq_some_iff] at hb
    obtain ⟨c, hc, hps⟩ := ha
    obtain ⟨d, hd, hps'⟩ := hb
    obtain ⟨as, has, rfl⟩ := Option.map_eq_some_iff.mp hps
    obtain ⟨as', has', rfl⟩ := Option.map_eq_some_iff.mp hps'
    obtain rfl : as = as' := Option.some.inj (has.symm.trans has')
    refine avaKey_ne hw hx hesc hc hd ((Multiset.cons_inj_left (as.map Ava.key : Multiset _)).mp ?_)
    simpa only [rdnKey, List.map_cons, ← Multiset.cons_coe] using hkey

theorem readRdn_append_of_blank {w : List Token} (h : ∀ t ∈ w, t = blank) (p : List Token) :
    readRdn (w ++ p) = readRdn p := by
  have hno : ∀ t ≠ blank, t ∉ w := fun t ht hmem => ht (h t hmem)
  obtain ⟨q, ps, hp⟩ := List.exists_cons_of_ne_nil (List.splitOn_ne_nil plus p)
  have hava : readAva (w ++ q) = readAva q := by
    by_cases hq : equals ∈ q
    · obtain ⟨l, r, rfl, hl⟩ := List.eq_append_cons_of_mem hq
      have htype : readType (w ++ l) = readType l := by
        rw [readType, readType, trim_append_of_blank h]
      rw [← List.append_assoc, readAva_append (by simp [hno equals (by decide), hl]),
        readAva_append hl, htype]
    · rw [readAva_of_not_mem (by simp [hno equals (by decide), hq]), readAva_of_not_mem hq]
  have hnil : readRdn ([] ++ p) = _ := mapM_splitOn_append List.not_mem_nil hp
  rw [readRdn, mapM_splitOn_append (hno plus (by decide)) hp, hava]
  exact hnil.symm

/-! ### Where a name ends in the text of another -/

theorem components_append (ts us : List Token) :
    components (ts ++ comma :: us) =
      (components ts).bind fun ds => (components us).map (ds ++ ·) := by
  rw [components, List.splitOn_append_cons_self, List.mapM_append, components, components]
  cases (ts.splitOn comma).mapM readRdn with
  | none => rfl
  | some ds => cases (us.splitOn comma).mapM readRdn <;> rfl

/-- The first component, of which some is in front. -/
theorem of_components {w p q : List Token} {ps : List (List Token)} {ds : List Rdn}
    (hw : comma ∉ w) (hp : p.splitOn comma = q :: ps) (h : components (w ++ p) = some ds) :
    ∃ a as, ds = a :: as ∧ readRdn (w ++ q) = some a ∧ ps.mapM readRdn = some as := by
  rw [components, mapM_splitOn_append hw hp, Option.bind_eq_some_iff] at h
  obtain ⟨a, ha, hps⟩ := h
  obtain ⟨as, has, rfl⟩ := Option.map_eq_some_iff.mp hps
  exact ⟨a, as, rfl, ha, has⟩

/-- The components of a name from some place in one of them on. -/
theorem of_components_cut {pre w p q : List Token} {ps : List (List Token)} {ds : List Rdn}
    (hpre : Cut pre) (hw : comma ∉ w) (hp : p.splitOn comma = q :: ps)
    (h : components (pre ++ (w ++ p)) = some ds) :
    ∃ front a as, ds = front ++ a :: as ∧ readRdn (w ++ q) = some a ∧ ps.mapM readRdn = some as := by
  rcases hpre with rfl | ⟨us, rfl⟩
  · obtain ⟨a, as, rfl, ha, has⟩ := of_components hw hp h
    exact ⟨[], a, as, rfl, ha, has⟩
  · rw [List.append_assoc, List.singleton_append, components_append, Option.bind_eq_some_iff] at h
    obtain ⟨front, -, h⟩ := h
    obtain ⟨ds', hds', rfl⟩ := Option.map_eq_some_iff.mp h
    obtain ⟨a, as, rfl, ha, has⟩ := of_components hw hp hds'
    exact ⟨front, a, as, rfl, ha, has⟩

theorem ne_comma_of_components {t : Token} {ts : List Token} {ds : List Rdn}
    (h : components (t :: ts) = some ds) : t ≠ comma := by
  rintro rfl
  have hnil : components [] = none := by decide
  have hno : components ([] ++ comma :: ts) = none := by rw [components_append, hnil]; rfl
  exact absurd (hno.symm.trans h) (by simp)

theorem ne_plus_of_components {t : Token} {ts : List Token} {ds : List Rdn}
    (h : components (t :: ts) = some ds) : t ≠ plus := by
  rintro rfl
  obtain ⟨q, ps, hp⟩ := List.exists_cons_of_ne_nil (List.splitOn_ne_nil comma ts)
  obtain ⟨a, -, -, ha, -⟩ := @of_components [plus] ts q ps ds (by decide) hp h
  have hsplit : ([] ++ plus :: q).splitOn plus = [[]] ++ q.splitOn plus :=
    List.splitOn_append_cons_self [] q
  have hno : readRdn (plus :: q) = none := by
    rw [readRdn, ← List.nil_append (plus :: q), hsplit]
    rfl
  exact absurd (hno.symm.trans ha) (by simp)

/-- What a name begins with its first assertion begins with. -/
theorem exists_readAva {t : Token} {ts : List Token} {ds : List Rdn}
    (h : components (t :: ts) = some ds) : ∃ q b, readAva (t :: q) = some b := by
  have hcomma : comma ∉ [t] := by simpa using (ne_comma_of_components h).symm
  have hplus : plus ∉ [t] := by simpa using (ne_plus_of_components h).symm
  obtain ⟨q, ps, hp⟩ := List.exists_cons_of_ne_nil (List.splitOn_ne_nil comma ts)
  obtain ⟨a, -, -, ha, -⟩ := @of_components [t] ts q ps ds hcomma hp h
  obtain ⟨q', ps', hp'⟩ := List.exists_cons_of_ne_nil (List.splitOn_ne_nil plus q)
  rw [readRdn, mapM_splitOn_append hplus hp', Option.bind_eq_some_iff] at ha
  obtain ⟨b, hb, -⟩ := ha
  exact ⟨q', b, hb⟩

/-- A name begins with a blank or with an attribute type. -/
theorem typeChar_of_components {t : Token} {ts : List Token} {ds : List Rdn}
    (h : components (t :: ts) = some ds) : t = blank ∨ ∃ c, typeChar t = some c := by
  obtain ⟨q, b, hb⟩ := exists_readAva h
  have heq : equals ∈ t :: q := by
    by_contra hno
    exact absurd ((readAva_of_not_mem hno).symm.trans hb) (by simp)
  obtain ⟨l, r, hlr, hl⟩ := List.eq_append_cons_of_mem heq
  rw [hlr, readAva_append hl] at hb
  obtain ⟨type, htype, -⟩ := Option.map_eq_some_iff.mp hb
  by_cases ht : t = blank
  · exact .inl ht
  · cases l with
    | nil =>
      have hno : readType [] = none := by decide
      exact absurd (hno.symm.trans htype) (by simp)
    | cons t' l =>
      obtain rfl : t = t' := (List.cons.inj hlr).1
      rw [readType] at htype
      split_ifs at htype
      exact .inr (exists_of_mapM htype (mem_trim ht List.mem_cons_self))

theorem not_mem_of_hexValue {c : Char} {n : ℕ} (h : hexValue c = some n) :
    c ∉ [',', '+', '=', '\\', '"', ';', '<', '>', '\x00'] := by
  have hno : ∀ c ∈ [',', '+', '=', '\\', '"', ';', '<', '>', '\x00'], hexValue c = none := by decide
  intro hc
  rw [hno c hc] at h
  cases h

theorem step_text_of_hexValue {c : Char} {n : ℕ} (h : hexValue c = some n) :
    step .text c = some ([.plain c], .text) := by
  have hc := not_mem_of_hexValue h
  rw [step, if_neg fun h => hc (by simp [h]), if_neg fun h => hc ?_]
  simp only [forbidden, List.mem_cons, List.not_mem_nil, or_false] at h
  rcases h with rfl | rfl | rfl | rfl | rfl <;> decide

/-- One text read from behind the first digit of an octet, and from its own
beginning. -/
theorem lex_octet {m : ℕ} {y : List Char} {vs vs' : List Token}
    (h : lex (.octet m) y = some (vs, .text)) (h' : lex .text y = some (vs', .text)) :
    ∃ e c rest n, vs = .escaped e :: rest ∧ vs' = .plain c :: rest ∧ hexValue c = some n := by
  cases y with
  | nil => simp [lex] at h
  | cons c y =>
    obtain ⟨us, st₁, rest, hstep, hrest, rfl⟩ := lex_cons.mp h
    rw [step, Option.map_eq_some_iff] at hstep
    obtain ⟨n, hn, hpair⟩ := hstep
    obtain ⟨rfl, rfl⟩ := Prod.mk.inj hpair
    obtain ⟨us', st₂, rest', hstep', hrest', rfl⟩ := lex_cons.mp h'
    rw [step_text_of_hexValue hn] at hstep'
    obtain ⟨rfl, rfl⟩ := Prod.mk.inj (Option.some.inj hstep')
    obtain ⟨rfl, -⟩ := Prod.mk.inj (Option.some.inj (hrest.symm.trans hrest'))
    exact ⟨_, c, rest, n, rfl, rfl, hn⟩

/-- Of the characters that an escape may stand for only a blank begins a name. -/
theorem eq_blank_of_components {c : Char} {y : List Char} {vs : List Token} {ds : List Rdn}
    (hspecial : c ∈ special) (h : lex .text (c :: y) = some (vs, .text))
    (hds : components vs = some ds) : c = ' ' := by
  have hno : ∀ c ∈ special, c ≠ ' ' → c ≠ '\\' → c ∉ forbidden → typeChar (.plain c) = none := by
    decide
  obtain ⟨us, st, ws, hstep, hws, rfl⟩ := lex_cons.mp h
  by_contra hne
  rw [step] at hstep
  split_ifs at hstep with hslash hforbidden
  · -- an escape begins no attribute type
    obtain ⟨rfl, rfl⟩ := Prod.mk.inj (Option.some.inj hstep)
    obtain ⟨e, rest, rfl⟩ := head_of_escape (by simp) hws
    have hescaped := typeChar_of_components hds
    simp [typeChar] at hescaped
  · obtain ⟨rfl, rfl⟩ := Prod.mk.inj (Option.some.inj hstep)
    rcases typeChar_of_components hds with ht | ⟨d, ht⟩
    · exact hne (by simpa using ht)
    · rw [hno c hspecial hne hslash hforbidden] at ht
      cases ht

/-- A name read from within an escape: the escape takes up to two characters, none
of which separates anything. -/
theorem lex_of_escape {st : Lexer} {y : List Char} {vs vs' : List Token} {ds : List Rdn}
    (hst : st ≠ .text) (h : lex st y = some (vs, .text)) (h' : lex .text y = some (vs', .text))
    (hds : components vs' = some ds) :
    ∃ e x rest, vs = .escaped e :: rest ∧ vs' = x ++ rest ∧ ∀ t ∈ [comma, plus, equals], t ∉ x := by
  have hsep : ∀ {c n}, hexValue c = some n → ∀ t ∈ [comma, plus, equals], t ≠ .plain c := by
    rintro c n hn t ht rfl
    refine not_mem_of_hexValue hn ?_
    simp only [List.mem_cons, Token.plain.injEq, List.not_mem_nil, or_false] at ht
    rcases ht with rfl | rfl | rfl <;> simp
  cases st with
  | text => exact absurd rfl hst
  | octet m =>
    obtain ⟨e, c, rest, n, rfl, rfl, hn⟩ := lex_octet h h'
    exact ⟨e, [.plain c], rest, rfl, rfl, fun t ht => by simpa using hsep hn t ht⟩
  | behind =>
    cases y with
    | nil => simp [lex] at h
    | cons c y =>
      obtain ⟨us, st₁, ws, hstep, hws, rfl⟩ := lex_cons.mp h
      obtain ⟨us', st₂, ws', hstep', hws', rfl⟩ := lex_cons.mp h'
      cases hc : hexValue c with
      | some n =>
        have hbehind : step .behind c = some ([], .octet n) := by rw [step, hc]
        obtain ⟨rfl, rfl⟩ := Prod.mk.inj (Option.some.inj (hbehind.symm.trans hstep))
        obtain ⟨rfl, rfl⟩ :=
          Prod.mk.inj (Option.some.inj ((step_text_of_hexValue hc).symm.trans hstep'))
        obtain ⟨e, d, rest, n', rfl, rfl, hn'⟩ := lex_octet hws hws'
        exact ⟨e, [.plain c, .plain d], rest, rfl, rfl,
          fun t ht => by simpa using ⟨hsep hc t ht, hsep hn' t ht⟩⟩
      | none =>
        rw [step, hc] at hstep
        dsimp only at hstep
        split_ifs at hstep with hspecial
        obtain ⟨rfl, rfl⟩ := Prod.mk.inj (Option.some.inj hstep)
        have hblank : c = ' ' := eq_blank_of_components hspecial h' hds
        subst hblank
        have hplain : step .text ' ' = some ([blank], .text) := by decide
        obtain ⟨rfl, rfl⟩ := Prod.mk.inj (Option.some.inj (hplain.symm.trans hstep'))
        obtain ⟨rfl, -⟩ := Prod.mk.inj (Option.some.inj (hws.symm.trans hws'))
        exact ⟨' ', [blank], ws, rfl, rfl, by decide⟩

/-- The tokens of a text in front of its last component, and those of that
component. -/
theorem exists_cut (us : List Token) : ∃ pre w, us = pre ++ w ∧ Cut pre ∧ comma ∉ w := by
  induction us using List.reverseRecOn with
  | nil => exact ⟨[], [], rfl, .inl rfl, List.not_mem_nil⟩
  | append_singleton us t ih =>
    by_cases ht : t = comma
    · exact ⟨us ++ [t], [], by simp, .inr ⟨us, by rw [ht]⟩, List.not_mem_nil⟩
    · obtain ⟨pre, w, rfl, hpre, hw⟩ := ih
      exact ⟨pre, w ++ [t], List.append_assoc .., hpre, by simpa [hw] using Ne.symm ht⟩

theorem suffix_cons_iff {α : Type} {xs ys : List α} {x y : α} :
    x :: xs <:+ ys ++ y :: xs ↔ x = y := by
  constructor
  · rintro ⟨zs, hzs⟩
    exact (List.cons.inj (List.append_inj' hzs (by simp)).2).1
  · rintro rfl
    exact List.suffix_append ys _

theorem reads_tokens (d : Dn) (h : d.text ≠ "") :
    ∃ ts, lex .text d.text.toList = some (ts, .text) ∧ components ts = some d.rdns := by
  have hd := d.reads
  rw [parse, if_neg h, Option.bind_eq_some_iff] at hd
  obtain ⟨ts, hts, hd⟩ := hd
  exact ⟨ts, tokens_eq_some.mp hts, hd⟩

section Ends

variable {d base : Dn}

/-- The components of one name that stand where the tokens of another end: `w` is
in front of them in the one, `x` in the other. -/
theorem below_iff_rdnKey {pre w x rest : List Token} (hpre : Cut pre) (hw : comma ∉ w)
    (hx : comma ∉ x) (hd : components (pre ++ (w ++ rest)) = some d.rdns)
    (hb : components (x ++ rest) = some base.rdns) :
    ∃ q a b, readRdn (w ++ q) = some a ∧ readRdn (x ++ q) = some b ∧
      (d.Below base ↔ rdnKey b = rdnKey a) := by
  obtain ⟨q, ps, hq⟩ := List.exists_cons_of_ne_nil (List.splitOn_ne_nil comma rest)
  obtain ⟨front, a, as, hda, ha, has⟩ := of_components_cut hpre hw hq hd
  obtain ⟨b, bs, hdb, hb, hbs⟩ := of_components hx hq hb
  obtain rfl : as = bs := Option.some.inj (has.symm.trans hbs)
  refine ⟨q, a, b, ha, hb, ?_⟩
  rw [Below, key, key, hda, hdb, List.map_append, List.map_cons, List.map_cons]
  exact suffix_cons_iff

variable {u : List Char} (hbase : base.text ≠ "") (h : d.text.toList = u ++ base.text.toList)

include hbase h

theorem reads_ends : ∃ us st vs vs', lex .text u = some (us, st) ∧
    lex st base.text.toList = some (vs, .text) ∧ lex .text base.text.toList = some (vs', .text) ∧
      components (us ++ vs) = some d.rdns ∧ components vs' = some base.rdns := by
  have hd : d.text ≠ "" := by
    intro hd
    rw [hd, String.toList_empty, eq_comm, List.append_eq_nil_iff] at h
    exact hbase (String.toList_eq_nil_iff.mp h.2)
  obtain ⟨ts, hts, hdr⟩ := d.reads_tokens hd
  obtain ⟨vs', hvs', hbr⟩ := base.reads_tokens hbase
  rw [h] at hts
  obtain ⟨us, st, vs, hus, hvs, rfl⟩ := lex_append.mp hts
  exact ⟨us, st, vs, vs', hus, hvs, hvs', hdr, hbr⟩

theorem below_of_begins (hu : Begins u) : d.Below base := by
  obtain ⟨us, st, vs, vs', hus, hvs, hvs', hd, hb⟩ := reads_ends hbase h
  obtain ⟨pre, w, hus', hpre, hw⟩ := hu.lex
  obtain ⟨rfl, rfl⟩ := Prod.mk.inj (Option.some.inj (hus.symm.trans hus'))
  obtain ⟨rfl, -⟩ := Prod.mk.inj (Option.some.inj (hvs.symm.trans hvs'))
  have hcomma : comma ∉ w := fun hmem => absurd (hw _ hmem) (by decide)
  rw [List.append_assoc] at hd
  obtain ⟨q, a, b, ha, hb, hiff⟩ := @below_iff_rdnKey _ _ _ _ [] _ hpre hcomma List.not_mem_nil hd hb
  rw [readRdn_append_of_blank hw] at ha
  obtain rfl : a = b := Option.some.inj (ha.symm.trans hb)
  exact hiff.mpr rfl

theorem begins_of_below (hbelow : d.Below base) : Begins u := by
  obtain ⟨us, st, vs, vs', hus, hvs, hvs', hd, hb⟩ := reads_ends hbase h
  obtain ⟨pre, w, rfl, hpre, hw⟩ := exists_cut us
  by_contra hno
  by_cases hst : st = .text
  · subst hst
    obtain ⟨rfl, -⟩ := Prod.mk.inj (Option.some.inj (hvs.symm.trans hvs'))
    have hnonblank : ∃ t ∈ w, t ≠ blank := by
      by_contra hall
      push Not at hall
      exact hno (begins_of_blank hpre hus hall)
    rw [List.append_assoc] at hd
    obtain ⟨q, a, b, ha, hb, hiff⟩ := @below_iff_rdnKey _ _ _ _ [] _ hpre hw List.not_mem_nil hd hb
    exact rdnKey_ne hnonblank List.not_mem_nil List.not_mem_nil (.inl rfl) ha hb
      (hiff.mp hbelow).symm
  · obtain ⟨e, x, rest, rfl, rfl, hx⟩ := lex_of_escape hst hvs hvs' hb
    have hd' : components (pre ++ (w ++ [.escaped e] ++ rest)) = some d.rdns := by simpa using hd
    obtain ⟨q, a, b, ha, hb, hiff⟩ :=
      below_iff_rdnKey hpre (by simpa using hw) (hx comma (by simp)) hd' hb
    exact rdnKey_ne ⟨.escaped e, by simp⟩ (hx equals (by simp)) (hx plus (by simp))
      (.inr ⟨e, by simp⟩) ha hb (hiff.mp hbelow).symm

/-- **Where a name ends in the text of another.** It lies at or below that name
exactly if a component begins there. -/
theorem below_iff_begins : d.Below base ↔ Begins u :=
  ⟨begins_of_below hbase h, below_of_begins hbase h⟩

end Ends

/-! ### The last components of a name -/

theorem components_nil : components [] = none := by decide

/-- What a step leaves behind: nothing, or one token and the reader in the text. -/
theorem step_tokens {st st₁ : Lexer} {c : Char} {ws : List Token} (h : step st c = some (ws, st₁)) :
    ws = [] ∨ (st₁ = .text ∧ ((st = .text ∧ ws = [.plain c]) ∨ ∃ e, ws = [.escaped e])) := by
  by_cases hst : st = .text
  · subst hst
    rw [step] at h
    split_ifs at h
    · exact .inl (Prod.mk.inj (Option.some.inj h)).1.symm
    · obtain ⟨rfl, rfl⟩ := Prod.mk.inj (Option.some.inj h)
      exact .inr ⟨rfl, .inl ⟨rfl, rfl⟩⟩
  · rcases step_escape hst h with ⟨rfl, e, rfl⟩ | ⟨-, rfl⟩
    · exact .inr ⟨rfl, .inr ⟨e, rfl⟩⟩
    · exact .inl rfl

theorem lex_split {c : Char} {s : List Char} {st : Lexer} {ts us : List Token}
    (h : lex st s = some (ts ++ .plain c :: us, .text)) :
    ∃ s₁ s₂, s = s₁ ++ c :: s₂ ∧ lex st s₁ = some (ts, .text) ∧ lex .text s₂ = some (us, .text) := by
  induction s generalizing st ts with
  | nil =>
    have hnil := (Prod.mk.inj (Option.some.inj h)).1
    simp at hnil
  | cons d s ih =>
    obtain ⟨ws, st₁, vs, hstep, hs, hts⟩ := lex_cons.mp h
    have hlater : ∀ ts', ws ++ ts' = ts → vs = ts' ++ .plain c :: us →
        ∃ s₁ s₂, d :: s = s₁ ++ c :: s₂ ∧ lex st s₁ = some (ts, .text) ∧
          lex .text s₂ = some (us, .text) := by
      rintro ts' rfl rfl
      obtain ⟨s₁, s₂, rfl, h₁, h₂⟩ := ih hs
      exact ⟨d :: s₁, s₂, rfl, lex_cons.mpr ⟨ws, st₁, ts', hstep, h₁, rfl⟩, h₂⟩
    rcases step_tokens hstep with rfl | ⟨rfl, hws⟩
    · exact hlater ts rfl hts
    · cases ts with
      | nil =>
        rcases hws with ⟨rfl, rfl⟩ | ⟨e, rfl⟩
        · obtain ⟨hd, rfl⟩ := List.cons.inj hts
          obtain rfl : d = c := by simpa using hd
          exact ⟨[], s, rfl, rfl, hs⟩
        · have := (List.cons.inj hts).1
          simp at this
      | cons t ts =>
        obtain ⟨w, rfl⟩ : ∃ w, ws = [w] := by
          rcases hws with ⟨-, rfl⟩ | ⟨e, rfl⟩
          · exact ⟨_, rfl⟩
          · exact ⟨_, rfl⟩
        obtain ⟨rfl, rfl⟩ := List.cons.inj hts
        exact hlater ts rfl rfl

theorem lex_comma {s₁ s₂ : List Char} {ts us : List Token} (h₁ : lex .text s₁ = some (ts, .text))
    (h₂ : lex .text s₂ = some (us, .text)) :
    lex .text (s₁ ++ ',' :: s₂) = some (ts ++ comma :: us, .text) := by
  have hstep : step .text ',' = some ([comma], .text) := by decide
  exact lex_append.mpr ⟨_, _, _, h₁, lex_cons.mpr ⟨_, _, _, hstep, h₂, rfl⟩, rfl⟩

theorem text_eq_empty_iff {d : Dn} : d.text = "" ↔ d.rdns = [] := by
  constructor
  · intro h
    have hd := d.reads
    rw [parse, if_pos h] at hd
    exact (Option.some.inj hd).symm
  · intro h
    by_contra hne
    obtain ⟨ts, -, hts⟩ := d.reads_tokens hne
    obtain ⟨q, ps, hp⟩ := List.exists_cons_of_ne_nil (List.splitOn_ne_nil comma ts)
    obtain ⟨a, as, hda, -, -⟩ := @of_components [] ts q ps _ List.not_mem_nil hp hts
    rw [h] at hda
    cases hda

theorem trim_eq_self {ts : List Token} (h : blank ∉ ts) : trim ts = ts := by
  have hno : ∀ {ts : List Token}, blank ∉ ts → ts.dropWhile (· = blank) = ts := by
    intro ts h
    cases ts with
    | nil => rfl
    | cons t ts =>
      have ht : t ≠ blank := fun ht => h (ht ▸ List.mem_cons_self)
      rw [List.dropWhile_cons_of_neg (by simpa using ht)]
  have hrev : blank ∉ ts.reverse := by simpa using h
  rw [trim, List.rdropWhile, hno hrev, List.reverse_reverse, hno h]

/-- Characters that always stand for themselves. -/
def Plain (s : List Char) : Prop := ∀ c ∈ s, c ∉ special ∧ c ∉ forbidden

theorem lex_of_plain {s : List Char} (h : ∀ c ∈ s, c ≠ '\\' ∧ c ∉ forbidden) :
    lex .text s = some (s.map .plain, .text) := by
  induction s with
  | nil => rfl
  | cons c s ih =>
    obtain ⟨hc, hc'⟩ := h c List.mem_cons_self
    have hstep : step .text c = some ([.plain c], .text) := by rw [step, if_neg hc, if_neg hc']
    exact lex_cons.mpr ⟨_, _, _, hstep, ih fun d hd => h d (List.mem_cons_of_mem _ hd), rfl⟩

/-- A component written without any character that could be escaped. -/
theorem components_of_plain {type value : List Char} {l : List Char}
    (htype : readType (l.map .plain) = some type) (hl : ∀ c ∈ [',', '+', '='], c ∉ l)
    (hvalue : Plain value) :
    components ((l ++ '=' :: value).map .plain) = some [[⟨type, value⟩]] := by
  have hno : ∀ c ∈ special, c ∉ value := fun c hc hmem => (hvalue c hmem).1 hc
  have hcomma : comma ∉ (l ++ '=' :: value).map .plain := by
    simp [hl ',' (by decide), hno ',' (by decide)]
  have hplus : plus ∉ (l ++ '=' :: value).map .plain := by
    simp [hl '+' (by decide), hno '+' (by decide)]
  have hchar : Token.char ∘ Token.plain = id := rfl
  have hava : readAva ((l ++ '=' :: value).map .plain) = some ⟨type, value⟩ := by
    rw [List.map_append, List.map_cons, readAva_append (by simpa using hl '=' (by decide)), htype,
      trim_eq_self (by simpa using hno ' ' (by decide))]
    simp [hchar]
  rw [components, List.splitOn_eq_singleton hcomma, List.mapM_cons, readRdn,
    List.splitOn_eq_singleton hplus, List.mapM_cons, hava]
  rfl

/-- The name of a text that reads as components. -/
def ofComponents {s : List Char} {ts : List Token} {ds : List Rdn}
    (hs : lex .text s = some (ts, .text)) (hts : components ts = some ds) : Dn where
  text := String.ofList s
  rdns := ds
  reads := by
    have hne : String.ofList s ≠ "" := by
      intro h
      have hnil : s = [] := by simpa using congrArg String.toList h
      subst hnil
      obtain ⟨rfl, -⟩ := Prod.mk.inj (Option.some.inj hs)
      rw [components_nil] at hts
      cases hts
    rw [parse, if_neg hne, String.toList_ofList, tokens_eq_some.mpr hs]
    exact hts

/-- The text of a name from any of its components on. -/
theorem exists_last {d : Dn} {front back : List Rdn} (h : d.rdns = front ++ back)
    (hback : back ≠ []) :
    ∃ (u : List Char) (f : Dn), d.text.toList = u ++ f.text.toList ∧ Starts u ∧ f.rdns = back := by
  induction front generalizing d with
  | nil => exact ⟨[], d, rfl, .inl rfl, h⟩
  | cons a front ih =>
    have hne : d.text ≠ "" := by
      rw [Ne, text_eq_empty_iff, h]
      simp
    obtain ⟨ts, hts, hd⟩ := d.reads_tokens hne
    rw [h, List.cons_append] at hd
    have hcomma : comma ∈ ts := by
      by_contra hno
      rw [components, List.splitOn_eq_singleton hno] at hd
      have hlen := (mapM_eq_some.mp hd).length_eq
      have hpos := List.length_pos_iff.mpr hback
      simp only [List.length_cons, List.length_nil, List.length_append] at hlen
      omega
    obtain ⟨q, ts', rfl, hq⟩ := List.eq_append_cons_of_mem hcomma
    rw [components, List.splitOn_append_cons_self_of_not_mem hq, List.mapM_cons] at hd
    have hrest : components ts' = some (front ++ back) := by
      rw [components]
      cases hq : readRdn q with
      | none => simp [hq] at hd
      | some b => cases hts' : (ts'.splitOn comma).mapM readRdn <;> simp_all
    obtain ⟨s₁, s₂, hs, h₁, h₂⟩ := lex_split hts
    obtain ⟨u, f, hu, hstart, hf⟩ := @ih (ofComponents h₂ hrest) rfl
    have hu' : s₂ = u ++ f.text.toList := by simpa [ofComponents] using hu
    refine ⟨s₁ ++ ',' :: u, f, by rw [hs, hu']; simp, .inr ?_, hf⟩
    rcases hstart with rfl | ⟨v, rfl, hv⟩
    · exact ⟨s₁, rfl, by rw [tokens_eq_some.mpr h₁]; rfl⟩
    · obtain ⟨vs, hvs⟩ := Option.isSome_iff_exists.mp hv
      refine ⟨s₁ ++ ',' :: v, by simp, ?_⟩
      rw [tokens_eq_some.mpr (lex_comma h₁ (tokens_eq_some.mp hvs))]
      rfl

/-- The components of a name with others in front. -/
theorem rdns_append {g f : Dn} {z : List Char} {ts : List Token} (hf : f.text ≠ "")
    (hg : g.text.toList = z ++ ',' :: f.text.toList) (hz : lex .text z = some (ts, .text)) :
    ∃ front, components ts = some front ∧ front ≠ [] ∧ g.rdns = front ++ f.rdns := by
  have hne : g.text ≠ "" := by
    intro h
    rw [h, String.toList_empty] at hg
    simp at hg
  obtain ⟨us, hus, hfr⟩ := f.reads_tokens hf
  obtain ⟨vs, hvs, hgr⟩ := g.reads_tokens hne
  rw [hg, lex_comma hz hus] at hvs
  obtain ⟨rfl, -⟩ := Prod.mk.inj (Option.some.inj hvs)
  rw [components_append, Option.bind_eq_some_iff] at hgr
  obtain ⟨front, hfront, hgr⟩ := hgr
  rw [hfr, Option.map_some, Option.some.injEq] at hgr
  refine ⟨front, hfront, ?_, hgr.symm⟩
  rintro rfl
  have hlen := (mapM_eq_some.mp hfront).length_eq
  exact List.splitOn_ne_nil comma ts (List.length_eq_zero_iff.mp hlen)

/-- A name may be spelled in capitals or small letters. -/
theorem exists_key_eq (d : Dn) {s : List Char}
    (h : s.map Char.toLower = d.folded) : ∃ g : Dn, g.text.toList = s ∧ g.key = d.key := by
  have hparse := @map_key_parse (String.ofList s) d.text (by rw [String.toList_ofList, h])
  rw [d.reads, Option.map_some, Option.map_eq_some_iff] at hparse
  obtain ⟨rdns, hrdns, hkey⟩ := hparse
  exact ⟨⟨_, rdns, hrdns⟩, String.toList_ofList, hkey⟩

theorem folded_suffix {d f : Dn} {u : List Char} (h : d.text.toList = u ++ f.text.toList) :
    f.folded <:+ d.folded := by
  rw [folded, folded, h, List.map_append]
  exact List.suffix_append _ _

/-- A name is its text. -/
theorem eq_of_text {d e : Dn} (h : d.text = e.text) : d = e := by
  obtain ⟨s, ds, hs⟩ := d
  obtain ⟨t, es, ht⟩ := e
  obtain rfl : s = t := h
  obtain rfl : ds = es := Option.some.inj (hs.symm.trans ht)
  rfl

end Dn
end Net
