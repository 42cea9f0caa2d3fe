/-
# Tokens of other issuers

Id tokens and integration assertions are read alike (`oidc_verify.cpp`,
`assertion_verify.cpp`): three parts joined by dots, of which the first two are
JSON objects in base64url. Members of any type may stand in them. A text is read
as `Conversions` has it, a number as a `double` that is cast to `long`
(`numField`), and the audience as one text or as a list of which the first
element that is no text ends the search (`audienceMatches`).

What base64url and JSON decode to and which signatures a key verifies is a
parameter (`TokenLibrary`); `Lawful` says what the verifiers rely on. The checks
are made in order, and the first that fails is what the verifier ends with
(`Failure`).
-/
import HttpBridge.Assertion
import HttpBridge.Num.Binary64
import HttpBridge.Providers

namespace HttpBridge

open Net

/-- How a verifier ends that does not accept: with an error, by an exception, or
with an operation that is undefined. -/
inductive Failure where
  | refused (err : String)
  | threw
  | undefined
  deriving DecidableEq

/-! ### Checks in order -/

section Checks
variable {α β : Type}

def require (err : String) (c : Bool) : Except Failure Unit :=
  if c then .ok () else .error (.refused err)

def orElse (failure : Failure) (x : Option α) : Except Failure α :=
  match x with
  | some a => .ok a
  | none => .error failure

theorem bind_eq_ok {x : Except Failure α} {f : α → Except Failure β} {b : β} :
    x >>= f = .ok b ↔ ∃ a, x = .ok a ∧ f a = .ok b := by
  cases x with
  | ok a =>
    constructor
    · exact fun h => ⟨a, rfl, h⟩
    · rintro ⟨a', ha, h⟩
      cases ha
      exact h
  | error e =>
    constructor
    · intro h
      cases h
    · rintro ⟨a, ha, -⟩
      cases ha

@[simp] theorem require_eq_ok {err : String} {c : Bool} {u : Unit} :
    require err c = .ok u ↔ c = true := by
  cases c <;> simp [require]

@[simp] theorem orElse_eq_ok {failure : Failure} {x : Option α} {a : α} :
    orElse failure x = .ok a ↔ x = some a := by
  cases x <;> simp [orElse]

theorem bind_eq_error {x : Except Failure α} {f : α → Except Failure β} {e : Failure} :
    x >>= f = .error e ↔ x = .error e ∨ ∃ a, x = .ok a ∧ f a = .error e := by
  cases x with
  | ok a =>
    constructor
    · exact fun h => .inr ⟨a, rfl, h⟩
    · rintro (h | ⟨a', ha, h⟩)
      · cases h
      · cases ha
        exact h
  | error e' =>
    constructor
    · intro h
      cases h
      exact .inl rfl
    · rintro (h | ⟨a, ha, -⟩)
      · cases h
        rfl
      · cases ha

theorem pure_ne_error {a : α} {e : Failure} : ¬ (pure a : Except Failure α) = .error e := by
  intro h
  cases h

@[simp] theorem require_eq_error {err : String} {c : Bool} {e : Failure} :
    require err c = .error e ↔ c = false ∧ e = .refused err := by
  cases c <;> simp [require, eq_comm]

@[simp] theorem orElse_eq_error {failure e : Failure} {x : Option α} :
    orElse failure x = .error e ↔ x = none ∧ e = failure := by
  cases x <;> simp [orElse, eq_comm]

/-- What the checks yield is written to `out`, which stays where one fails. -/
def written (checked : Except Failure α) (out : β) (write : α → β) : Except Failure Unit × β :=
  match checked with
  | .error failure => (.error failure, out)
  | .ok a => (.ok (), write a)

section Written
variable {checked : Except Failure α} {out b : β} {write : α → β}

theorem written_eq_ok : (written checked out write).1 = .ok () ↔ ∃ a, checked = .ok a := by
  cases checked <;> simp [written]

theorem written_eq_error {failure : Failure} :
    (written checked out write).1 = .error failure ↔ checked = .error failure := by
  cases checked <;> simp [written]

theorem written_eq : written checked out write = (.ok (), b) ↔ ∃ a, checked = .ok a ∧ write a = b := by
  cases checked <;> simp [written]

theorem written_keeps (h : (written checked out write).1 ≠ .ok ()) :
    (written checked out write).2 = out := by
  cases checked with
  | error failure => rfl
  | ok a => exact absurd rfl h

end Written
end Checks

/-! ### The three parts -/

/-- A part of a token. -/
structure IsPart (s : String) : Prop where
  ne_empty : s ≠ ""
  no_dot : '.' ∉ s.toList

/-- The token is three parts joined by dots. -/
structure TokenParts (token h p sig : String) : Prop where
  joined : token = h ++ "." ++ (p ++ "." ++ sig)
  header : IsPart h
  payload : IsPart p
  signature : IsPart sig

theorem split3_eq_some {token h p sig : String} :
    split3 token = some (h, p, sig) ↔ TokenParts token h p sig := by
  constructor
  · intro hs
    unfold split3 at hs
    dsimp only at hs
    split_ifs at hs with hdots hempty
    simp only [Bool.or_eq_true, decide_eq_true_eq, not_or, not_not] at hdots
    simp only [Bool.or_eq_true, beq_iff_eq, not_or] at hempty
    obtain ⟨⟨htoken, hrest⟩, hsig⟩ := hdots
    obtain ⟨⟨hne, pne⟩, sne⟩ := hempty
    obtain ⟨hjoin, hdot⟩ := append_upTo_after htoken
    obtain ⟨hjoin', hdot'⟩ := append_upTo_after hrest
    rw [Option.some.injEq, Prod.mk.injEq, Prod.mk.injEq] at hs
    obtain ⟨rfl, rfl, rfl⟩ := hs
    refine ⟨?_, ⟨hne, hdot⟩, ⟨pne, hdot'⟩, ⟨sne, hsig⟩⟩
    calc token = upTo '.' token ++ "." ++ after '.' token := hjoin
      _ = upTo '.' token ++ "." ++
          (upTo '.' (after '.' token) ++ "." ++ after '.' (after '.' token)) :=
        congrArg (upTo '.' token ++ "." ++ ·) hjoin'
  · rintro ⟨rfl, hh, hp, hs⟩
    exact split3_of_parts hh.ne_empty hp.ne_empty hs.ne_empty hh.no_dot hp.no_dot hs.no_dot

/-! ### Members -/

/-- Where the member is there it is a text. -/
def TextIfAny (o : Members) (key : String) : Prop := ∀ v, o.find key = some v → ∃ s, v = .str s

theorem textIfAny_of_text {o : Members} {key s : String} (h : o.find key = some (.str s)) :
    TextIfAny o key := fun _ hv => ⟨s, Option.some.inj (hv.symm.trans h)⟩

theorem textIfAny_of_none {o : Members} {key : String} (h : o.find key = none) :
    TextIfAny o key := by
  intro v hv
  rw [h] at hv
  cases hv

/-- The text of a member; empty where there is none. -/
def textOf (o : Members) (key : String) : String :=
  match o.find key with
  | some (.str s) => s
  | _ => ""

/-- The whole number that a JSON number is which has neither a fraction nor an
exponent. -/
def wholeNumber (text : String) : Option ℤ :=
  let negative := text.toList.head? == some '-'
  let digits := if negative then text.toList.tail else text.toList
  if digits.isEmpty || !digits.all Char.isDigit then none
  else some (if negative then -(digitsValue digits) else digitsValue digits)

/-- The member is the whole number `n`. -/
def IsInt (o : Members) (key : String) (n : ℤ) : Prop :=
  ∃ text, o.find key = some (.num text) ∧ wholeNumber text = some n

/-- Where the member is there it is a whole number. -/
def IntIfAny (o : Members) (key : String) : Prop :=
  ∀ v, o.find key = some v → ∃ text n, v = .num text ∧ wholeNumber text = some n

theorem IsInt.unique {o : Members} {key : String} {n m : ℤ} (hn : IsInt o key n)
    (hm : IsInt o key m) : n = m := by
  obtain ⟨text, hfind, hn⟩ := hn
  obtain ⟨text', hfind', hm⟩ := hm
  rw [hfind] at hfind'
  cases hfind'
  exact Option.some.inj (hn.symm.trans hm)

/-- A member that is a whole number where it is there: it is not there, or it is
one. -/
theorem IntIfAny.cases {o : Members} {key : String} (h : IntIfAny o key) :
    o.find key = none ∨ ∃ n, IsInt o key n := by
  cases hfind : o.find key with
  | none => exact .inl rfl
  | some v =>
    obtain ⟨text, n, rfl, hn⟩ := h v hfind
    exact .inr ⟨n, text, hfind, hn⟩

theorem not_isInt_of_none {o : Members} {key : String} {n : ℤ} (h : o.find key = none) :
    ¬ IsInt o key n := by
  rintro ⟨text, hfind, -⟩
  rw [h] at hfind
  cases hfind

/-- The audience is the expected text, or a list with it somewhere. -/
def NamesAudience (claims : Members) (expected : String) : Prop :=
  claims.find "aud" = some (.str expected) ∨
    ∃ auds, claims.find "aud" = some (.arr auds) ∧ .str expected ∈ auds

/-- Where the audience is there it is a text or a list of texts. -/
def AudienceTexts (claims : Members) : Prop :=
  ∀ v, claims.find "aud" = some v →
    (∃ s, v = .str s) ∨ ∃ auds, v = .arr auds ∧ ∀ w ∈ auds, ∃ s, w = .str s

/-- The clock, unless `now_epoch` stands for it. -/
def effectiveNow (nowEpoch clock : ℤ) : ℤ := if nowEpoch ≠ 0 then nowEpoch else clock

/-- The members of the key set, as `getArray("keys")` gives them: none where
there is no such array. -/
def keysOf (root : Members) : List Json :=
  match root.find "keys" with
  | some (.arr keys) => keys
  | _ => []

/-- What the verifiers use of Poco and OpenSSL. A conversion, a decoding or a
parse is `none` where it throws, a key where it is null. -/
structure TokenLibrary (Key : Type) extends Conversions where
  double : Json → Option Binary64.Value
  b64urlDecode : (encoded : String) → Option String
  parse : (text : String) → Option Json
  rsaKey : (modulus exponent : String) → Option Key
  rs256Verify : (pkey : Key) → (signingInput sigRaw : String) → Bool
  publicKey : (pem : String) → Option Key
  es256Verify : (pkey : Key) → (signingInput sigRaw : String) → Bool

namespace TokenLibrary

variable {Key : Type} (L : TokenLibrary Key)

/-- What the verifiers rely on: a null is no text, no other value reads as the
name of an algorithm, a whole number is converted to the nearest double, and
nothing is no object. -/
structure Lawful : Prop where
  text_null : L.text .null = none
  text_ne_alg : ∀ v alg, alg = "RS256" ∨ alg = "ES256" → L.text v ≠ some alg
  double_num : ∀ text n, wholeNumber text = some n → L.double (.num text) = some (Binary64.ofInt n)
  parse_empty : (L.parse "").bind Json.members? = none

/-- `parse(text).extract<Object::Ptr>()`. -/
def object (text : String) : Option Members := (L.parse text).bind Json.members?

/-- A part that is decoded and parsed. -/
def part (encoded : String) : Option Members := (L.b64urlDecode encoded).bind L.object

/-- The header and the claims. -/
def documents (h p : String) : Option (Members × Members) := do
  let hdr ← L.part h
  let claims ← L.part p
  return (hdr, claims)

theorem documents_eq_some {h p : String} {hdr claims : Members} :
    L.documents h p = some (hdr, claims) ↔ L.part h = some hdr ∧ L.part p = some claims := by
  simp [documents, Option.bind_eq_some_iff]

/-- What a token consists of. -/
structure Reads (token h p sig : String) (hdr claims : Members) : Prop where
  parts : TokenParts token h p sig
  header : L.part h = some hdr
  payload : L.part p = some claims

variable {L} in
/-- A token is read in one way. -/
theorem Reads.unique {token h p sig h' p' sig' : String} {hdr claims hdr' claims' : Members}
    (hr : L.Reads token h p sig hdr claims) (hr' : L.Reads token h' p' sig' hdr' claims') :
    (h = h' ∧ p = p' ∧ sig = sig') ∧ hdr = hdr' ∧ claims = claims' := by
  have hparts := split3_eq_some.mpr hr.parts
  rw [split3_eq_some.mpr hr'.parts, Option.some.injEq, Prod.mk.injEq, Prod.mk.injEq] at hparts
  obtain ⟨rfl, rfl, rfl⟩ := hparts
  exact ⟨⟨rfl, rfl, rfl⟩, Option.some.inj (hr.header.symm.trans hr'.header),
    Option.some.inj (hr.payload.symm.trans hr'.payload)⟩

/-- `numField`: `none` where the cast to `long` is undefined. -/
def numField (o : Members) (key : String) : Option ℤ :=
  match o.find key with
  | none | some .null => some 0
  | some v =>
    match L.double v with
    | none => some 0
    | some x => Binary64.toLong x

/-- The loop of `audienceMatches`. -/
def audienceAmong (expected : String) : List Json → Bool
  | [] => false
  | v :: rest =>
    match L.toText v with
    | none => false
    | some aud => aud == expected || audienceAmong expected rest

def audienceMatches (claims : Members) (expected : String) : Bool :=
  match claims.find "aud" with
  | some (.str aud) => aud == expected
  | some (.arr auds) => L.audienceAmong expected auds
  | _ => false

variable {L} {o : Members} {key : String}

theorem strField_of_text (h : TextIfAny o key) : L.strField o key = textOf o key := by
  unfold Conversions.strField textOf
  cases hfind : o.find key with
  | none => rfl
  | some v =>
    obtain ⟨s, rfl⟩ := h v hfind
    rfl

theorem textOf_eq_iff {s : String} (hs : s ≠ "") :
    textOf o key = s ↔ o.find key = some (.str s) := by
  unfold textOf
  constructor
  · intro h
    split at h
    · next t ht =>
      subst h
      exact ht
    · exact absurd h.symm hs
  · intro h
    rw [h]

/-- A text that is not empty is read off a member that has it. -/
theorem strField_eq_iff (h : TextIfAny o key) {s : String} (hs : s ≠ "") :
    L.strField o key = s ↔ o.find key = some (.str s) := by
  rw [strField_of_text h, textOf_eq_iff hs]

/-- The name of an algorithm is read off no value but a text. -/
theorem strField_eq_alg (hL : L.Lawful) {alg : String} (halg : alg = "RS256" ∨ alg = "ES256") :
    L.strField o key = alg ↔ o.find key = some (.str alg) := by
  have hne : alg ≠ "" := by
    rintro rfl
    exact absurd halg (by decide)
  have hbool : ∀ b : Bool, (if b then "true" else "false") ≠ alg := by
    rintro b rfl
    cases b <;> exact absurd halg (by decide)
  have htext : ∀ v, (L.text v).getD "" ≠ alg := by
    intro v hv
    cases ht : L.text v with
    | none =>
      rw [ht] at hv
      exact hne hv.symm
    | some t =>
      rw [ht] at hv
      exact hL.text_ne_alg v alg halg (ht.trans (congrArg some hv))
  unfold Conversions.strField
  cases hfind : o.find key with
  | none => simp [hne.symm]
  | some v =>
    cases v with
    | null => simp [hne.symm]
    | bool b => simpa [Conversions.toText] using hbool b
    | str s => simp [Conversions.toText]
    | num text => simpa [Conversions.toText] using htext _
    | arr items => simpa [Conversions.toText] using htext _
    | obj o => simpa [Conversions.toText] using htext _

theorem numField_of_int (hL : L.Lawful) {n : ℤ} (h : IsInt o key n) :
    L.numField o key = Signed.checked 64 (Binary64.roundInt n) := by
  obtain ⟨text, hfind, htext⟩ := h
  rw [numField, hfind]
  dsimp only
  rw [hL.double_num text n htext]
  exact Binary64.toLong_ofInt n

theorem numField_of_none (h : o.find key = none) : L.numField o key = some 0 := by
  rw [numField, h]

/-- On texts the loop is membership. -/
theorem audienceAmong_texts {auds : List Json} (h : ∀ v ∈ auds, ∃ s, v = .str s)
    (expected : String) : L.audienceAmong expected auds = true ↔ .str expected ∈ auds := by
  induction auds with
  | nil => simp [audienceAmong]
  | cons v rest ih =>
    obtain ⟨s, rfl⟩ := h v List.mem_cons_self
    have htail := ih fun w hw => h w (List.mem_cons_of_mem _ hw)
    rw [audienceAmong, Conversions.toText, Bool.or_eq_true, beq_iff_eq, htail, List.mem_cons,
      Json.str.injEq]
    exact or_congr_left eq_comm

theorem audienceMatches_texts {claims : Members} (h : AudienceTexts claims) (expected : String) :
    L.audienceMatches claims expected = true ↔ NamesAudience claims expected := by
  unfold audienceMatches NamesAudience
  cases hfind : claims.find "aud" with
  | none => simp
  | some v =>
    rcases h v hfind with ⟨s, rfl⟩ | ⟨auds, rfl, hauds⟩
    · simp
    · simp [audienceAmong_texts hauds]

/-! ### A library that is written out -/

/-- A library for which the texts that decode and those that parse are listed,
and a signature names the key. -/
def listedLibrary (decoded : List (String × String)) (parsed : List (String × Json)) :
    TokenLibrary String where
  text
    | .num t => (wholeNumber t).map fun _ => t
    | _ => none
  flag _ := none
  int64 _ := none
  double
    | .num t => (wholeNumber t).map Binary64.ofInt
    | _ => none
  b64urlDecode encoded := decoded.lookup encoded
  parse text := parsed.lookup text
  rsaKey modulus _ := some modulus
  rs256Verify pkey _ sigRaw := sigRaw == "signed by " ++ pkey
  publicKey pem := if pem == "" then none else some pem
  es256Verify pkey _ sigRaw := sigRaw == "signed by " ++ pkey

theorem listedLibrary_lawful {decoded : List (String × String)} {parsed : List (String × Json)}
    (h : parsed.lookup "" = none) : (listedLibrary decoded parsed).Lawful where
  text_null := rfl
  text_ne_alg v alg halg hv := by
    have hno : wholeNumber alg = none := by
      rcases halg with rfl | rfl <;> decide
    cases v with
    | num t =>
      obtain ⟨n, hn, rfl⟩ := Option.map_eq_some_iff.mp hv
      rw [hno] at hn
      cases hn
    | _ => cases hv
  double_num text n hn := congrArg (Option.map Binary64.ofInt) hn
  parse_empty := by
    show (parsed.lookup "").bind Json.members? = none
    rw [h]
    rfl

end TokenLibrary
end HttpBridge
