/-
# The texts of session tokens

`jwt.h`: the text that the proxy signs claims as, and what it accepts as such a
text. A `Jwt` is what is left of a text once it has been verified.

* `verify_eq_ok`: which texts are accepted, part by part. The signature is
  compared as a text, so there is one for each signing input.
* `jwt_verify`: a text is verified as the `Jwt` that it stands for is.
* `accepted_iff_signed`: if only the proxy can sign, the accepted texts are the ones
  that it has signed claims as, until they expire.

HMAC and JSON are parameters (`JwtLibrary`), and what is relied upon of them is
`Lawful`.

Key definitions: `JwtLibrary.sign`, `JwtLibrary.verify`, `writeClaims`,
`readClaims`, `JwtLibrary.jwtOf`.
-/
import HttpBridge.Base64Url
import HttpBridge.ResponseText
import HttpBridge.TokenDocuments

namespace HttpBridge

open Interact Net Net.JsonText

/-! ### Comparing in constant time -/

/-- The bytes of a `std::string`. -/
def octets (s : String) : List UInt8 := s.toByteArray.data.toList

theorem octets_inj {s t : String} : octets s = octets t ↔ s = t := by
  constructor
  · intro h
    have harray : s.toByteArray.data = t.toByteArray.data := Array.toList_inj.mp h
    have hbytes : s.toByteArray = t.toByteArray := by
      cases hs : s.toByteArray
      cases ht : t.toByteArray
      rw [hs, ht] at harray
      exact congrArg ByteArray.mk harray
    exact String.toByteArray_inj.mp hbytes
  · exact congrArg octets

/-- `constTimeEq`: no byte ends the loop. -/
def constTimeEq (a b : String) : Bool :=
  if (octets a).length ≠ (octets b).length then false
  else ((octets a).zip (octets b)).foldl (fun r p => r ||| (p.1 ^^^ p.2)) 0 == 0

/-- The bits of the result are those in which some pair differs. -/
theorem foldl_or_xor_eq_zero (ps : List (UInt8 × UInt8)) : ∀ r : UInt8,
    ps.foldl (fun r p => r ||| (p.1 ^^^ p.2)) r = 0 ↔ r = 0 ∧ ∀ p ∈ ps, p.1 = p.2 := by
  induction ps with
  | nil => simp
  | cons p ps ih =>
    intro r
    rw [List.foldl_cons, ih, UInt8.or_eq_zero_iff, UInt8.xor_eq_zero_iff, List.forall_mem_cons, and_assoc]

theorem forall_zip_iff {α : Type} : ∀ {xs ys : List α}, xs.length = ys.length →
    ((∀ p ∈ xs.zip ys, p.1 = p.2) ↔ xs = ys)
  | [], [], _ => by simp
  | [], _ :: _, h => by simp at h
  | _ :: _, [], h => by simp at h
  | x :: xs, y :: ys, h => by
    have htail : (∀ p ∈ xs.zip ys, p.1 = p.2) ↔ xs = ys := forall_zip_iff (by simpa using h)
    rw [List.zip_cons_cons, List.forall_mem_cons, htail, List.cons.injEq]

/-- The loop says whether the texts are the same. -/
theorem constTimeEq_iff (a b : String) : constTimeEq a b = true ↔ a = b := by
  unfold constTimeEq
  by_cases hlength : (octets a).length = (octets b).length
  · rw [if_neg (not_not_intro hlength), beq_iff_eq, foldl_or_xor_eq_zero, forall_zip_iff hlength,
      octets_inj]
    exact and_iff_right rfl
  · rw [if_pos hlength]
    refine iff_of_false Bool.false_ne_true fun hab => hlength ?_
    rw [hab]

/-! ### Signing and verifying -/

/-- What `jwt.h` uses of OpenSSL and Poco. A parse is `none` where it throws. -/
structure JwtLibrary extends Conversions where
  base64 : Base64Library
  hmac256 : (key msg : String) → List UInt8
  parse : List UInt8 → Option Json
  stringify : Members → List UInt8

namespace JwtLibrary

variable (L : JwtLibrary)

/-- What the tokens rely on: base64url is that of RFC 4648, an object is read back
as it was written, and a whole number of 64 bits as what it is. -/
structure Lawful : Prop where
  base64 : L.base64.Standard
  parse_stringify : ∀ o, WellFormed (.obj o) → L.parse (L.stringify o) = some (.obj o)
  parse_header : L.parse (octets "\x7b\"alg\":\"HS256\",\"typ\":\"JWT\"\x7d") =
    some (.obj [("alg", .str "HS256"), ("typ", .str "JWT")])
  int64_int : ∀ n : ℤ, -2 ^ 63 ≤ n → n < 2 ^ 63 → L.int64 (intDoc n) = some n

/-- `header`, encoded. -/
def headerText : String := b64urlEncode L.base64 (octets "\x7b\"alg\":\"HS256\",\"typ\":\"JWT\"\x7d")

def signingInput (claims : Members) : String :=
  L.headerText ++ "." ++ b64urlEncode L.base64 (L.stringify claims)

/-- The signature of a signing input, as it stands in a token. -/
def signature (secret msg : String) : String := b64urlEncode L.base64 (L.hmac256 secret msg)

def sign (claims : Members) (secret : String) : String :=
  L.signingInput claims ++ "." ++ L.signature secret (L.signingInput claims)

/-- The three parts of a token, which may be empty. -/
def parts (token : String) : Option (String × String × String) :=
  let rest := after '.' token
  if '.' ∉ token.toList || '.' ∉ rest.toList || '.' ∈ (after '.' rest).toList then none
  else some (upTo '.' token, upTo '.' rest, after '.' rest)

/-- `parse(b64urlDecode(s)).extract<Object::Ptr>()`. -/
def object (s : String) : Option Members := (b64urlDecode L.base64 s).bind fun text => (L.parse text).bind Json.members?

/-- The checks of `verify` before the clock is looked at. -/
def authentic (token secret : String) : Except Failure Members := do
  let (h, p, s) ← orElse (.refused "malformed") (parts token)
  require "bad signature" (constTimeEq (L.signature secret (h ++ "." ++ p)) s)
  let header ← orElse (.refused "bad header") (L.object h)
  require "unsupported alg" (L.strField header "alg" == "HS256")
  orElse (.refused "bad payload") (L.object p)

/-- `optValue<Int64>(key, 0)`, where there is the claim. -/
def intClaim (o : Members) (key : String) : Option ℤ :=
  match o.find key with
  | none => none
  | some .null => some 0
  | some v => some ((L.int64 v).getD 0)

/-- The expiry, if there is one. -/
def expiry (claims : Members) : Option ℤ := L.intClaim claims "exp"

def verify (token secret : String) (now : ℤ) : Except Failure Members := do
  let claims ← L.authentic token secret
  require "expired" ((L.expiry claims).all fun exp => now < exp)
  return claims

end JwtLibrary

/-! ### What is accepted -/

namespace JwtLibrary

variable {L : JwtLibrary} {token secret : String} {now : ℤ} {claims : Members}

theorem parts_eq_some {h p s : String} : parts token = some (h, p, s) ↔
    token = h ++ "." ++ (p ++ "." ++ s) ∧ '.' ∉ h.toList ∧ '.' ∉ p.toList ∧ '.' ∉ s.toList := by
  have hdot : ("." : String) = String.singleton '.' := rfl
  constructor
  · intro hparts
    unfold parts at hparts
    dsimp only at hparts
    split_ifs at hparts with hdots
    simp only [Bool.or_eq_true, decide_eq_true_eq, not_or, not_not] at hdots
    obtain ⟨⟨htoken, hrest⟩, hs⟩ := hdots
    obtain ⟨hjoin, hh⟩ := append_upTo_after htoken
    obtain ⟨hjoin', hp⟩ := append_upTo_after hrest
    rw [Option.some.injEq, Prod.mk.injEq, Prod.mk.injEq] at hparts
    obtain ⟨rfl, rfl, rfl⟩ := hparts
    refine ⟨?_, hh, hp, hs⟩
    calc token = upTo '.' token ++ "." ++ after '.' token := hjoin
      _ = upTo '.' token ++ "." ++
          (upTo '.' (after '.' token) ++ "." ++ after '.' (after '.' token)) :=
        congrArg (upTo '.' token ++ "." ++ ·) hjoin'
  · intro ⟨htoken, hh, hp, hs⟩
    rw [htoken, parts, hdot, upTo_append hh, after_append hh, upTo_append hp, after_append hp]
    simp [hs]

theorem authentic_eq_ok : L.authentic token secret = .ok claims ↔
    ∃ h p, token = h ++ "." ++ p ++ "." ++ L.signature secret (h ++ "." ++ p) ∧
      '.' ∉ h.toList ∧ '.' ∉ p.toList ∧ '.' ∉ (L.signature secret (h ++ "." ++ p)).toList ∧
      (∃ header, L.object h = some header ∧ L.strField header "alg" = "HS256") ∧
      L.object p = some claims := by
  unfold authentic
  constructor
  · intro hok
    obtain ⟨⟨h, p, s⟩, hparts, hok⟩ := bind_eq_ok.mp hok
    obtain ⟨_, hsig, hok⟩ := bind_eq_ok.mp hok
    obtain ⟨header, hheader, hok⟩ := bind_eq_ok.mp hok
    obtain ⟨_, halg, hpayload⟩ := bind_eq_ok.mp hok
    rw [orElse_eq_ok, parts_eq_some] at hparts
    rw [require_eq_ok, constTimeEq_iff] at hsig
    rw [orElse_eq_ok] at hheader hpayload
    rw [require_eq_ok, beq_iff_eq] at halg
    obtain ⟨htoken, hh, hp, hs⟩ := hparts
    subst hsig
    refine ⟨h, p, ?_, hh, hp, hs, ⟨header, hheader, halg⟩, hpayload⟩
    rw [htoken]
    simp only [String.append_assoc]
  · intro ⟨h, p, htoken, hh, hp, hs, ⟨header, hheader, halg⟩, hpayload⟩
    have hparts : parts token = some (h, p, L.signature secret (h ++ "." ++ p)) := by
      rw [parts_eq_some, htoken]
      exact ⟨by simp only [String.append_assoc], hh, hp, hs⟩
    have hsig : constTimeEq (L.signature secret (h ++ "." ++ p)) (L.signature secret (h ++ "." ++ p)) =
        true := (constTimeEq_iff _ _).mpr rfl
    refine bind_eq_ok.mpr ⟨_, orElse_eq_ok.mpr hparts, bind_eq_ok.mpr ⟨(), require_eq_ok.mpr hsig, ?_⟩⟩
    refine bind_eq_ok.mpr ⟨header, orElse_eq_ok.mpr hheader, bind_eq_ok.mpr ⟨(), ?_, orElse_eq_ok.mpr hpayload⟩⟩
    exact require_eq_ok.mpr (beq_iff_eq.mpr halg)

theorem verify_eq_ok : L.verify token secret now = .ok claims ↔
    L.authentic token secret = .ok claims ∧ ∀ exp, L.expiry claims = some exp → now < exp := by
  have hexp : ((L.expiry claims).all fun exp => decide (now < exp)) = true ↔
      ∀ exp, L.expiry claims = some exp → now < exp := by
    cases L.expiry claims <;> simp
  rw [← hexp]
  unfold verify
  constructor
  · intro h
    obtain ⟨claims', hauth, h⟩ := bind_eq_ok.mp h
    obtain ⟨_, hunexpired, h⟩ := bind_eq_ok.mp h
    cases h
    exact ⟨hauth, require_eq_ok.mp hunexpired⟩
  · intro ⟨hauth, hexp⟩
    exact bind_eq_ok.mpr ⟨claims, hauth, bind_eq_ok.mpr ⟨(), require_eq_ok.mpr hexp, rfl⟩⟩

end JwtLibrary

/-! ### The document of the claims -/

/-- The fields that are there. -/
def present (fields : List (String × Option Json)) : Members :=
  fields.filterMap fun f => f.2.map fun v => (f.1, v)

theorem mem_present {fields : List (String × Option Json)} {m : String × Json} :
    m ∈ present fields ↔ (m.1, some m.2) ∈ fields := by
  unfold present
  rw [List.mem_filterMap]
  constructor
  · rintro ⟨⟨k, v⟩, hf, hv⟩
    obtain ⟨w, hw, rfl⟩ := Option.map_eq_some_iff.mp hv
    rwa [← show v = some w from hw]
  · exact fun h => ⟨_, h, rfl⟩

/-- A field is found as it stands among fields of different names. -/
theorem find_present {k : String} {v : Option Json} : ∀ {fields : List (String × Option Json)},
    (fields.map Prod.fst).Nodup → (k, v) ∈ fields → (present fields).find k = v
  | [], _, h => by simp at h
  | f :: fields, hnodup, h => by
    obtain ⟨hf, hrest⟩ := List.nodup_cons.mp hnodup
    have hcons : (present (f :: fields)).find k =
        ((present fields).find k).or ((present [f]).find k) := by
      have happend : present (f :: fields) = present [f] ++ present fields := by
        rw [present, present, present, ← List.filterMap_append, List.singleton_append]
      rw [happend, Members.find, List.reverse_append, List.lookup_append]
      rfl
    have hone : (present [f]).find k = if k = f.1 then f.2 else none := by
      obtain ⟨k', v'⟩ := f
      cases v' with
      | none => simp [present, Members.find]
      | some v' =>
        by_cases hk : k = k'
        · simp [present, Members.find, hk]
        · simp [present, Members.find, List.lookup_cons, hk, beq_eq_false_iff_ne.mpr hk]
    rcases List.mem_cons.mp h with rfl | h
    · have hnone : (present fields).find k = none := by
        refine List.lookup_eq_none_iff.mpr fun m hm => ?_
        have hkey : m.1 ∈ fields.map Prod.fst :=
          List.mem_map.mpr ⟨_, mem_present.mp (List.mem_reverse.mp hm), rfl⟩
        have hne : k ≠ m.1 := fun heq => hf (heq ▸ hkey)
        simpa using hne
      rw [hcons, hnone, hone, Option.none_or, if_pos rfl]
    · have hne : k ≠ f.1 := fun heq => hf (heq ▸ List.mem_map.mpr ⟨_, h, rfl⟩)
      rw [hcons, find_present hrest h, hone, if_neg hne, Option.or_none]

def rolesDoc (roles : RoleMap) : Json := .obj (roles.entries.map fun e => (e.1, stringsDoc e.2))

/-- The claims under their names, which Poco keeps in order. -/
def claimFields (c : Claims) : List (String × Option Json) :=
  [("aip", c.aip.map .str), ("amr", c.amr.map stringsDoc), ("dl", c.dl.map .str),
    ("email", c.email.map .str), ("exp", c.exp.map intDoc), ("iat", c.iat.map intDoc),
    ("iss", c.iss.map .str), ("jti", c.jti.map .str), ("mfa_pending", c.mfaPending.map .bool),
    ("mip", c.mip.map .str), ("mt", c.mt.map .str), ("roles", c.roles.map rolesDoc),
    ("scope", c.scope.map .str), ("sid", c.sid.map .str), ("skgen", c.skgen.map .str),
    ("skid", c.skid.map .str), ("skname", c.skname.map .str), ("sso", c.sso.map .str),
    ("sub", c.sub.map .str), ("svc", c.svc.map .bool), ("tenant", c.tenant.map .str),
    ("typ", c.typ.map .str)]

/-- The object that is set up for `sign`. -/
def writeClaims (c : Claims) : Members := present (claimFields c)

namespace JwtLibrary

variable (L : JwtLibrary)

/-- `optValue<std::string>`, where there is the claim. -/
def textClaim (o : Members) (key : String) : Option String := (o.find key).map fun _ => L.strField o key

def flagClaim (o : Members) (key : String) : Option Bool := (o.find key).map fun _ => L.boolField o key

/-- The elements of an array, as texts. -/
def texts (v : Json) : List String := (v.items?.getD []).map fun w => (L.toText w).getD ""

/-- `getArray`. -/
def textsClaim (o : Members) (key : String) : Option (List String) :=
  (o.find key).bind fun v => v.items?.map fun _ => L.texts v

/-- `getObject("roles")`, with the array under each name. -/
def rolesClaim (o : Members) : Option RoleMap :=
  (o.find "roles").bind fun v => v.members?.map fun roles =>
    roles.foldl (fun m kv => m.insert kv.1 (L.texts kv.2)) OrdMap.empty

/-- What is read of the claims. -/
def readClaims (o : Members) : Claims where
  iss := L.textClaim o "iss"
  sub := L.textClaim o "sub"
  email := L.textClaim o "email"
  tenant := L.textClaim o "tenant"
  iat := L.intClaim o "iat"
  exp := L.intClaim o "exp"
  jti := L.textClaim o "jti"
  aip := L.textClaim o "aip"
  skid := L.textClaim o "skid"
  skgen := L.textClaim o "skgen"
  skname := L.textClaim o "skname"
  roles := L.rolesClaim o
  amr := L.textsClaim o "amr"
  mfaPending := L.flagClaim o "mfa_pending"
  mip := L.textClaim o "mip"
  typ := L.textClaim o "typ"
  dl := L.textClaim o "dl"
  sid := L.textClaim o "sid"
  mt := L.textClaim o "mt"
  sso := L.textClaim o "sso"
  svc := L.flagClaim o "svc"
  scope := L.textClaim o "scope"

section Reading

variable {L} {c : Claims} {key : String}

/-- A name stands in the document as it does among the fields. -/
theorem find_writeClaims {v : Option Json} (h : (key, v) ∈ claimFields c) : (writeClaims c).find key = v := by
  refine find_present ?_ h
  have hnames : (claimFields c).map Prod.fst = (claimFields {}).map Prod.fst := rfl
  rw [hnames]
  decide

theorem textClaim_written {x : Option String} (h : (key, x.map .str) ∈ claimFields c) :
    L.textClaim (writeClaims c) key = x := by
  have hfind := find_writeClaims h
  unfold textClaim Conversions.strField
  rw [hfind]
  cases x <;> simp [Conversions.toText]

theorem flagClaim_written {x : Option Bool} (h : (key, x.map .bool) ∈ claimFields c) :
    L.flagClaim (writeClaims c) key = x := by
  have hfind := find_writeClaims h
  unfold flagClaim Conversions.boolField
  rw [hfind]
  cases x <;> simp

/-- The number is one of 64 bits. -/
def Fits (x : Option ℤ) : Prop := ∀ n ∈ x, -2 ^ 63 ≤ n ∧ n < 2 ^ 63

theorem intClaim_written (hL : L.Lawful) {x : Option ℤ} (hx : Fits x)
    (h : (key, x.map intDoc) ∈ claimFields c) : L.intClaim (writeClaims c) key = x := by
  have hfind := find_writeClaims h
  unfold intClaim
  rw [hfind]
  cases x with
  | none => rfl
  | some n =>
    obtain ⟨hlow, hhigh⟩ := hx n rfl
    show some ((L.int64 (intDoc n)).getD 0) = some n
    rw [hL.int64_int n hlow hhigh, Option.getD_some]

theorem texts_stringsDoc (xs : List String) : L.texts (stringsDoc xs) = xs := by
  show (xs.map .str).map (fun w => (L.toText w).getD "") = xs
  rw [List.map_map]
  exact List.map_id xs

theorem textsClaim_written {x : Option (List String)} (h : (key, x.map stringsDoc) ∈ claimFields c) :
    L.textsClaim (writeClaims c) key = x := by
  have hfind := find_writeClaims h
  unfold textsClaim
  rw [hfind]
  cases x with
  | none => rfl
  | some xs => exact congrArg some (texts_stringsDoc xs)

theorem rolesClaim_written : L.rolesClaim (writeClaims c) = c.roles := by
  have hfind : (writeClaims c).find "roles" = c.roles.map rolesDoc :=
    find_writeClaims (by simp [claimFields])
  unfold rolesClaim
  rw [hfind]
  cases c.roles with
  | none => rfl
  | some roles =>
    show some ((roles.entries.map fun e => (e.1, stringsDoc e.2)).foldl
      (fun m kv => m.insert kv.1 (L.texts kv.2)) OrdMap.empty) = some roles
    rw [List.foldl_map]
    simp only [texts_stringsDoc]
    rw [OrdMap.foldl_insert]

/-- **Claims are read as they were written.** -/
theorem readClaims_writeClaims (hL : L.Lawful) (hiat : Fits c.iat) (hexp : Fits c.exp) :
    L.readClaims (writeClaims c) = c := by
  have htext : ∀ {key : String} {x : Option String}, (key, x.map .str) ∈ claimFields c →
      L.textClaim (writeClaims c) key = x := textClaim_written
  unfold readClaims
  rw [htext (x := c.iss) (by simp [claimFields]), htext (x := c.sub) (by simp [claimFields]),
    htext (x := c.email) (by simp [claimFields]), htext (x := c.tenant) (by simp [claimFields]),
    htext (x := c.jti) (by simp [claimFields]), htext (x := c.aip) (by simp [claimFields]),
    htext (x := c.skid) (by simp [claimFields]), htext (x := c.skgen) (by simp [claimFields]),
    htext (x := c.skname) (by simp [claimFields]), htext (x := c.mip) (by simp [claimFields]),
    htext (x := c.typ) (by simp [claimFields]), htext (x := c.dl) (by simp [claimFields]),
    htext (x := c.sid) (by simp [claimFields]), htext (x := c.mt) (by simp [claimFields]),
    htext (x := c.sso) (by simp [claimFields]), htext (x := c.scope) (by simp [claimFields])]
  rw [intClaim_written hL hiat (by simp [claimFields]), intClaim_written hL hexp (by simp [claimFields]),
    rolesClaim_written, textsClaim_written (x := c.amr) (by simp [claimFields]),
    flagClaim_written (x := c.mfaPending) (by simp [claimFields]),
    flagClaim_written (x := c.svc) (by simp [claimFields])]

end Reading

/-! ### Tokens and texts -/

/-- What a text that is presented as a token stands for. -/
def jwtOf (token secret : String) : Jwt :=
  match L.authentic token secret with
  | .ok claims => .signed (L.readClaims claims)
  | .error _ => .other

section Tokens

variable {L} {token secret : String} {now : ℤ} {c : Claims}

theorem wellFormed_writeClaims (c : Claims) : WellFormed (.obj (writeClaims c)) := by
  have htext : ∀ x : Option String, ∀ v ∈ x.map Json.str, WellFormed v := by
    rintro (_ | x) v hv <;> cases hv
    exact .str x
  have hflag : ∀ x : Option Bool, ∀ v ∈ x.map Json.bool, WellFormed v := by
    rintro (_ | x) v hv <;> cases hv
    exact .bool x
  have hint : ∀ x : Option ℤ, ∀ v ∈ x.map intDoc, WellFormed v := by
    rintro (_ | n) v hv <;> cases hv
    rw [intDoc, ← String.ofList_toList (s := toString n), toList_int]
    exact .num _ (whole_toDigits _) (by simp)
  have hstrings : ∀ xs : List String, WellFormed (stringsDoc xs) := by
    refine fun xs => .arr fun v hv => ?_
    obtain ⟨s, -, rfl⟩ := List.mem_map.mp hv
    exact .str s
  have htexts : ∀ x : Option (List String), ∀ v ∈ x.map stringsDoc, WellFormed v := by
    rintro (_ | xs) v hv <;> cases hv
    exact hstrings xs
  have hroles : ∀ x : Option RoleMap, ∀ v ∈ x.map rolesDoc, WellFormed v := by
    rintro (_ | roles) v hv <;> cases hv
    refine .obj fun m hm => ?_
    obtain ⟨e, -, rfl⟩ := List.mem_map.mp hm
    exact hstrings e.2
  have hfields : ∀ f ∈ claimFields c, ∀ v ∈ f.2, WellFormed v := by
    simp only [claimFields, List.forall_mem_cons]
    exact ⟨htext _, htexts _, htext _, htext _, hint _, hint _, htext _, htext _, hflag _, htext _,
      htext _, hroles _, htext _, htext _, htext _, htext _, htext _, htext _, htext _, hflag _, htext _,
      htext _, nofun⟩
  exact .obj fun m hm => hfields _ (mem_present.mp hm) m.2 rfl

theorem dot_not_mem_b64urlEncode (hL : L.Lawful) (s : List UInt8) :
    '.' ∉ (b64urlEncode L.base64 s).toList := by
  rw [b64urlEncode_eq hL.base64, String.toList_ofList]
  intro h
  exact absurd (Base64.mem_unpadded h) (by decide)

/-- Nothing stands between two of `c` that are both the last. -/
theorem nothing_between {α : Type} {c : α} {zs s t : List α} (hs : c ∉ s) (h : c :: s = zs ++ c :: t) :
    zs = [] := by
  cases zs with
  | nil => rfl
  | cons z zs =>
    rw [List.cons_append, List.cons.injEq] at h
    refine absurd ?_ hs
    simp [h.2]

theorem before_last {α : Type} {c : α} {xs ys s t : List α} (hs : c ∉ s) (ht : c ∉ t)
    (h : xs ++ c :: s = ys ++ c :: t) : xs = ys := by
  rcases List.append_eq_append_iff.mp h with ⟨zs, rfl, hrest⟩ | ⟨zs, rfl, hrest⟩
  · rw [nothing_between hs hrest, List.append_nil]
  · rw [nothing_between ht hrest, List.append_nil]

/-- The signing input is what stands before the last dot. -/
theorem signingInput_unique (hL : L.Lawful) {msg msg' key key' : String}
    (h : msg ++ "." ++ L.signature key msg = msg' ++ "." ++ L.signature key' msg') : msg = msg' := by
  have hdot : ∀ key msg, '.' ∉ (L.signature key msg).toList := fun _ _ => dot_not_mem_b64urlEncode hL _
  have hsplit := congrArg String.toList h
  simp only [String.toList_append, List.append_assoc] at hsplit
  exact String.toList_inj.mp (before_last (hdot key msg) (hdot key' msg') hsplit)

theorem object_encoded (hL : L.Lawful) {text : List UInt8} {o : Members} (h : L.parse text = some (.obj o)) :
    L.object (b64urlEncode L.base64 text) = some o := by
  unfold object
  rw [b64urlEncode_eq hL.base64, b64urlDecode_unpadded hL.base64]
  simp [h, Json.members?]

/-- A token that is signed is authentic. -/
theorem authentic_sign (hL : L.Lawful) (c : Claims) :
    L.authentic (L.sign (writeClaims c) secret) secret = .ok (writeClaims c) := by
  have hheader := object_encoded hL hL.parse_header
  have hpayload := object_encoded hL (hL.parse_stringify _ (wellFormed_writeClaims c))
  refine authentic_eq_ok.mpr ⟨L.headerText, b64urlEncode L.base64 (L.stringify (writeClaims c)), rfl,
    dot_not_mem_b64urlEncode hL _, dot_not_mem_b64urlEncode hL _, dot_not_mem_b64urlEncode hL _,
    ⟨_, hheader, ?_⟩, hpayload⟩
  simp [Conversions.strField, Members.find, List.lookup_cons, Conversions.toText]

theorem jwtOf_eq_signed : L.jwtOf token secret = .signed c ↔
    ∃ claims, L.authentic token secret = .ok claims ∧ L.readClaims claims = c := by
  unfold jwtOf
  cases L.authentic token secret <;> simp

/-- **A text is verified as the token that it stands for**, and what the proxy has
signed stands for the claims that it signed. -/
theorem jwt_verify (hL : L.Lawful) (token secret : String) (now : ℤ) :
    (L.jwtOf token secret).verify now = (L.verify token secret now).toOption.map L.readClaims ∧
    ∀ c, Fits c.iat → Fits c.exp → L.jwtOf (L.sign (writeClaims c) secret) secret = .signed c := by
  constructor
  · have hverified : ∀ c, (L.verify token secret now).toOption.map L.readClaims = some c ↔
        ∃ claims, L.verify token secret now = .ok claims ∧ L.readClaims claims = c := by
      intro c
      cases L.verify token secret now <;> simp [Except.toOption]
    refine Option.ext fun c => ?_
    rw [Jwt.verify_eq_some, jwtOf_eq_signed, hverified]
    constructor
    · rintro ⟨⟨claims, hauth, rfl⟩, hexp⟩
      exact ⟨claims, verify_eq_ok.mpr ⟨hauth, hexp⟩, rfl⟩
    · rintro ⟨claims, hverify, rfl⟩
      obtain ⟨hauth, hexp⟩ := verify_eq_ok.mp hverify
      exact ⟨⟨claims, hauth, rfl⟩, hexp⟩
  · intro c hiat hexp
    rw [jwtOf, authentic_sign hL]
    exact congrArg Jwt.signed (readClaims_writeClaims hL hiat hexp)

/-- **What is accepted is what was signed.** If no text that the proxy did not sign
carries the right signature, a text is accepted exactly if it is the one that some
minted claims were signed as, and these have not expired. -/
theorem accepted_iff_signed (hL : L.Lawful) {minted : Claims → Prop}
    (hfits : ∀ c, minted c → Fits c.iat ∧ Fits c.exp) {token secret : String}
    (hunforged : ∀ msg, token = msg ++ "." ++ L.signature secret msg →
      ∃ c, minted c ∧ msg = L.signingInput (writeClaims c)) (now : ℤ) (claims : Members) :
    L.verify token secret now = .ok claims ↔
      ∃ c, minted c ∧ token = L.sign (writeClaims c) secret ∧ claims = writeClaims c ∧
        ∀ exp, c.exp = some exp → now < exp := by
  have hexpiry : ∀ c, minted c → L.expiry (writeClaims c) = c.exp := fun c hc =>
    intClaim_written hL (hfits c hc).2 (by simp [claimFields])
  rw [verify_eq_ok]
  constructor
  · intro ⟨hauth, hexp⟩
    obtain ⟨h, p, htoken, -⟩ := authentic_eq_ok.mp hauth
    obtain ⟨c, hc, hmsg⟩ := hunforged (h ++ "." ++ p) htoken
    have hsigned : token = L.sign (writeClaims c) secret := by
      rw [htoken, hmsg]
      rfl
    have hclaims : claims = writeClaims c := by
      rw [hsigned, authentic_sign hL] at hauth
      cases hauth
      rfl
    refine ⟨c, hc, hsigned, hclaims, ?_⟩
    rwa [hclaims, hexpiry c hc] at hexp
  · intro ⟨c, hc, hsigned, hclaims, hexp⟩
    rw [hsigned, hclaims, hexpiry c hc]
    exact ⟨authentic_sign hL c, hexp⟩

end Tokens

end JwtLibrary

/-! ### Whole numbers as texts -/

theorem digitsValue_toDigits (n : ℕ) : digitsValue (Nat.toDigits 10 n) = n := by
  have h := Nat.ofDigitChars_ten_toDigits (n := n)
  rwa [Nat.ofDigitChars_eq_foldl] at h

theorem isSpace_of_isDigit {c : Char} (h : c.isDigit = true) : isSpace c = false := by
  unfold isSpace
  rw [decide_eq_false_iff_not]
  intro hc
  simp only [List.mem_cons, List.not_mem_nil, or_false] at hc
  rcases hc with rfl | rfl | rfl | rfl | rfl | rfl <;> exact absurd h (by decide)

theorem leadingNumber_toString (n : ℤ) : leadingNumber (toString n) = some (decide (n < 0), n.natAbs) := by
  obtain ⟨hdigits, d, ds, hds, -⟩ := whole_toDigits n.natAbs
  have htake : (Nat.toDigits 10 n.natAbs).takeWhile Char.isDigit = Nat.toDigits 10 n.natAbs :=
    List.takeWhile_eq_self_iff.mpr hdigits
  have hd : d.isDigit = true := hdigits d (by rw [hds]; exact List.mem_cons_self)
  have hne : (Nat.toDigits 10 n.natAbs).isEmpty = false := by rw [hds]; rfl
  unfold leadingNumber
  rw [toList_int, numberText, if_pos rfl, List.append_nil]
  by_cases hn : n < 0
  · rw [decide_eq_true hn, if_pos rfl, List.singleton_append, List.dropWhile_cons_of_neg (by decide)]
    simp [htake, hne, digitsValue_toDigits]
  · rw [decide_eq_false hn]
    have hminus : d ≠ '-' := by rintro rfl; cases hd
    have hplus : d ≠ '+' := by rintro rfl; cases hd
    have hdrop : (Nat.toDigits 10 n.natAbs).dropWhile isSpace = Nat.toDigits 10 n.natAbs := by
      rw [hds, List.dropWhile_cons_of_neg (by simp [isSpace_of_isDigit hd])]
    have hhead : ((Nat.toDigits 10 n.natAbs).head? == some '-') = false := by
      rw [hds]
      simpa using hminus
    simp only [Bool.false_eq_true, if_false, List.nil_append, hdrop, hhead]
    split
    · rename_i heq
      exact absurd (List.cons.inj (hds.symm.trans heq)).1 hminus
    · rename_i heq
      exact absurd (List.cons.inj (hds.symm.trans heq)).1 hplus
    · rw [htake, hne, digitsValue_toDigits]
      rfl

/-- `stol` reads what `std::to_string` writes. -/
theorem stol_toString {n : ℤ} (hlow : -2 ^ 63 ≤ n) (hhigh : n < 2 ^ 63) : stol (toString n) = some n := by
  have hvalue : (if decide (n < 0) = true then -(n.natAbs : ℤ) else n.natAbs) = n := by
    by_cases hn : n < 0
    · rw [if_pos (decide_eq_true hn)]
      omega
    · rw [decide_eq_false hn, if_neg Bool.false_ne_true]
      omega
  unfold stol
  rw [leadingNumber_toString]
  show (if _ then some _ else none) = _
  rw [hvalue, if_pos (by simp only [Bool.and_eq_true, decide_eq_true_eq]; exact ⟨hlow, hhigh⟩)]

/-! ### A token of a session -/

/-- HMAC-SHA256 of the signing input below, under the key `k`. -/
def signedDigest : List UInt8 :=
  [239, 241, 116, 21, 48, 177, 208, 136, 115, 131, 98, 143, 10, 39, 87, 151, 160, 6, 150, 61, 78, 202, 78,
    143, 210, 114, 119, 119, 22, 207, 8, 230]

def sampleHmac (key msg : String) : List UInt8 :=
  if key = "k" ∧ msg = "eyJhbGciOiJIUzI1NiIsInR5cCI6IkpXVCJ9" ++ "." ++ "eyJleHAiOjkwMCwic3ViIjoiYW5uIn0" then
    signedDigest
  else []

theorem sampleHmac_signed :
    sampleHmac "k" ("eyJhbGciOiJIUzI1NiIsInR5cCI6IkpXVCJ9" ++ "." ++ "eyJleHAiOjkwMCwic3ViIjoiYW5uIn0") =
      signedDigest := by
  unfold sampleHmac
  exact if_pos ⟨rfl, rfl⟩

/-- JSON in UTF-8, and that digest. -/
def sampleJwtLibrary : JwtLibrary where
  text _ := none
  flag _ := none
  int64
    | .num s => stol s
    | _ => none
  base64 := rfc4648
  hmac256 := sampleHmac
  parse text := (String.fromUTF8? ⟨text.toArray⟩).bind JsonText.parse
  stringify o := octets (String.ofList (escaping.write (.obj o)))

def signedSession : Claims := { sub := some "ann", exp := some 900 }

def signedText : String :=
  "eyJhbGciOiJIUzI1NiIsInR5cCI6IkpXVCJ9" ++ "." ++ "eyJleHAiOjkwMCwic3ViIjoiYW5uIn0" ++ "." ++
    "7_F0FTCx0Ihzg2KPCidXl6AGlj1Oyk6P0nJ3dxbPCOY"

theorem parse_octets (s : String) : sampleJwtLibrary.parse (octets s) = JsonText.parse s := by
  have hbytes : (⟨(octets s).toArray⟩ : ByteArray) = s.toByteArray := by simp [octets]
  have hutf8 : String.fromUTF8? s.toByteArray = some s := by
    unfold String.fromUTF8?
    rw [dif_pos s.isValidUTF8]
    exact congrArg some (String.toByteArray_inj.mp rfl)
  show (String.fromUTF8? ⟨(octets s).toArray⟩).bind JsonText.parse = _
  rw [hbytes, hutf8, Option.bind_some]

theorem sampleJwtLibrary_lawful : sampleJwtLibrary.Lawful where
  base64 := rfc4648_standard
  parse_stringify o h := by
    show sampleJwtLibrary.parse (octets _) = _
    rw [parse_octets]
    refine ReadsAs.parse ?_
    rw [String.toList_ofList]
    exact escaping.readsAs_write h
  parse_header := by
    have htext : "\x7b\"alg\":\"HS256\",\"typ\":\"JWT\"\x7d".toList =
        escaping.write (.obj [("alg", .str "HS256"), ("typ", .str "JWT")]) := by
      decide +kernel
    rw [parse_octets]
    refine ReadsAs.parse ?_
    rw [htext]
    refine escaping.readsAs_write (.obj fun m hm => ?_)
    simp only [List.mem_cons, List.not_mem_nil, or_false] at hm
    rcases hm with rfl | rfl <;> exact .str _
  int64_int _ := stol_toString

/-- The three parts of the token. -/
theorem signedParts_eq :
    String.ofList (Base64.unpadded (octets "\x7b\"alg\":\"HS256\",\"typ\":\"JWT\"\x7d")) =
        "eyJhbGciOiJIUzI1NiIsInR5cCI6IkpXVCJ9" ∧
      String.ofList (Base64.unpadded (sampleJwtLibrary.stringify (writeClaims signedSession))) =
        "eyJleHAiOjkwMCwic3ViIjoiYW5uIn0" ∧
      String.ofList (Base64.unpadded signedDigest) = "7_F0FTCx0Ihzg2KPCidXl6AGlj1Oyk6P0nJ3dxbPCOY" := by
  refine ⟨congrArg String.ofList ?_, congrArg String.ofList ?_, congrArg String.ofList ?_⟩ <;> decide +kernel

theorem signedInput_eq : sampleJwtLibrary.signingInput (writeClaims signedSession) =
    "eyJhbGciOiJIUzI1NiIsInR5cCI6IkpXVCJ9" ++ "." ++ "eyJleHAiOjkwMCwic3ViIjoiYW5uIn0" := by
  have hbase64 := sampleJwtLibrary_lawful.base64
  rw [JwtLibrary.signingInput, JwtLibrary.headerText, b64urlEncode_eq hbase64, b64urlEncode_eq hbase64,
    signedParts_eq.1, signedParts_eq.2.1]

theorem signedText_eq : sampleJwtLibrary.sign (writeClaims signedSession) "k" = signedText := by
  have hhmac : sampleJwtLibrary.hmac256 = sampleHmac := rfl
  unfold signedText
  rw [JwtLibrary.sign, signedInput_eq, JwtLibrary.signature, b64urlEncode_eq sampleJwtLibrary_lawful.base64,
    hhmac, sampleHmac_signed, signedParts_eq.2.2]

theorem signedText_stands : sampleJwtLibrary.jwtOf signedText "k" = .signed signedSession := by
  have hsigned := (JwtLibrary.jwt_verify sampleJwtLibrary_lawful signedText "k" 899).2 signedSession
    (by simp [JwtLibrary.Fits, signedSession]) (by simp [JwtLibrary.Fits, signedSession])
  rwa [signedText_eq] at hsigned

theorem signedText_unforged {msg : String}
    (h : signedText = msg ++ "." ++ sampleJwtLibrary.signature "k" msg) :
    msg = sampleJwtLibrary.signingInput (writeClaims signedSession) := by
  rw [← signedText_eq] at h
  exact (JwtLibrary.signingInput_unique sampleJwtLibrary_lawful h).symm

/-- The last second in which it is accepted is the one before its expiry. -/
theorem signedText_accepted :
    sampleJwtLibrary.verify signedText "k" 899 = .ok (writeClaims signedSession) ∧
      ∀ claims, sampleJwtLibrary.verify signedText "k" 900 ≠ .ok claims := by
  have hfits : ∀ c, c = signedSession → JwtLibrary.Fits c.iat ∧ JwtLibrary.Fits c.exp := by
    rintro c rfl
    constructor <;> simp [JwtLibrary.Fits, signedSession]
  have hunforged : ∀ msg, signedText = msg ++ "." ++ sampleJwtLibrary.signature "k" msg →
      ∃ c, c = signedSession ∧ msg = sampleJwtLibrary.signingInput (writeClaims c) :=
    fun msg h => ⟨signedSession, rfl, signedText_unforged h⟩
  have haccepted := JwtLibrary.accepted_iff_signed sampleJwtLibrary_lawful hfits hunforged
  constructor
  · refine (haccepted 899 _).mpr ⟨signedSession, rfl, signedText_eq.symm, rfl, ?_⟩
    intro exp hexp
    cases hexp
    decide
  · intro claims hclaims
    obtain ⟨c, rfl, -, -, hexp⟩ := (haccepted 900 claims).mp hclaims
    exact absurd (hexp 900 rfl) (by decide)

end HttpBridge
