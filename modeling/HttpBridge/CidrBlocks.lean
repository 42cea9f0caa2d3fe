/-
# Blocks of addresses

`FILEENGINE_TRUSTED_PROXIES` and the addresses an integration is bound to are
lists of addresses and blocks `addr/n`. What a text of the list should match is
`InCidr`: the address it names, or the addresses that share the first `n` bits
with it, for a decimal `n` up to the width of the family, and nothing if it has
neither form.

`ipInCidr` matches all of that (`ipInCidr_of_inCidr`), and more. The length is
read by `stoul` and cut to 32 bits, so `/8x` is the block `/8`, and
`/4294967296` is the block of every address. It matches what it should unless
a text is misread in this way (`ipInCidr_exact_iff`).
-/
import HttpBridge.ClientAddress

namespace HttpBridge

variable {Address Family : Type}

/-- What `Poco::Net::IPAddress` promises of addresses without a zone: they are
words of a width that their family sets, a mask of that width is a run of ones,
and `&` is taken bit by bit. -/
structure AddressLaws (N : AddressLibrary Address Family) (width : Family → ℕ)
    (bits : Address → List Bool) : Prop where
  width_le : ∀ f, width f ≤ 128
  length_bits : ∀ a, (bits a).length = width (N.family a)
  bits_inj : ∀ a b, N.family a = N.family b → bits a = bits b → a = b
  mask_of_le : ∀ n f, n ≤ width f → ∃ m, N.mask n f = some m ∧ N.family m = f ∧
    bits m = List.replicate n true ++ List.replicate (width f - n) false
  mask_of_lt : ∀ n f, width f < n → N.mask n f = none
  meet : ∀ a m, N.family a = N.family m → N.family (N.meet a m) = N.family a ∧
    bits (N.meet a m) = List.zipWith (· && ·) (bits a) (bits m)

/-! ### Masks -/

/-- A mask keeps the bits in front. -/
theorem zipWith_and_mask {a : List Bool} {n w : ℕ} (hn : n ≤ w) (ha : a.length = w) :
    List.zipWith (· && ·) a (List.replicate n true ++ List.replicate (w - n) false) =
      a.take n ++ List.replicate (w - n) false := by
  induction a generalizing n w with
  | nil =>
    subst ha
    obtain rfl : n = 0 := Nat.le_zero.mp hn
    rfl
  | cons x a ih =>
    subst ha
    cases n with
    | zero =>
      have htail := ih (Nat.zero_le _) rfl
      simp only [List.length_cons, Nat.sub_zero, List.replicate_zero, List.nil_append,
        List.replicate_succ, List.zipWith_cons_cons, Bool.and_false, List.take_zero] at htail ⊢
      rw [htail]
    | succ n =>
      have htail := ih (Nat.succ_le_succ_iff.mp hn) rfl
      simp only [List.length_cons, Nat.add_sub_add_right, List.replicate_succ, List.cons_append,
        List.zipWith_cons_cons, Bool.and_true, List.take_succ_cons] at htail ⊢
      rw [htail]

section Blocks
variable {N : AddressLibrary Address Family} {width : Family → ℕ} {bits : Address → List Bool}

/-- Addresses under one mask are equal if they agree in the bits it keeps. -/
theorem AddressLaws.meet_eq_iff (L : AddressLaws N width bits) {a b m : Address} {n : ℕ}
    (hab : N.family a = N.family b) (hm : N.mask n (N.family b) = some m) :
    N.meet a m = N.meet b m ↔ (bits a).take n = (bits b).take n := by
  have hn : n ≤ width (N.family b) := by
    by_contra hlt
    rw [L.mask_of_lt n _ (not_le.mp hlt)] at hm
    cases hm
  obtain ⟨m', hm', hfamily, hbits⟩ := L.mask_of_le n _ hn
  obtain rfl : m' = m := Option.some.inj (hm'.symm.trans hm)
  have ha : N.family a = N.family m' := hab.trans hfamily.symm
  have hmeet : ∀ c, N.family c = N.family b → N.family (N.meet c m') = N.family b ∧
      bits (N.meet c m') = (bits c).take n ++ List.replicate (width (N.family b) - n) false := by
    intro c hc
    obtain ⟨hkeep, hand⟩ := L.meet c m' (hc.trans hfamily.symm)
    refine ⟨hkeep.trans hc, ?_⟩
    rw [hand, hbits]
    exact zipWith_and_mask hn (by rw [L.length_bits, hc])
  obtain ⟨hfa, hba⟩ := hmeet a hab
  obtain ⟨hfb, hbb⟩ := hmeet b rfl
  constructor
  · intro h
    rw [h, hbb] at hba
    exact (List.append_cancel_right hba).symm
  · intro h
    apply L.bits_inj _ _ (hfa.trans hfb.symm)
    rw [hba, hbb, h]

/-! ### Lengths -/

/-- `s` is the number `n` in decimal digits. -/
def Decimal (s : String) (n : ℕ) : Prop :=
  s ≠ "" ∧ s.toList.all Char.isDigit = true ∧ digitsValue s.toList = n

theorem leadingNumber_of_decimal {s : String} {n : ℕ} (h : Decimal s n) :
    leadingNumber s = some (false, n) := by
  obtain ⟨hne, hall, rfl⟩ := h
  rw [List.all_eq_true] at hall
  have hne : s.toList ≠ [] := fun h => hne (String.toList_inj.mp h)
  obtain ⟨c, cs, hs⟩ := List.exists_cons_of_ne_nil hne
  have hdigit : c.isDigit = true := hall c (by rw [hs]; exact List.mem_cons_self)
  have hno : ∀ d ∈ ['-', '+', ' ', '\t', '\n', '\x0b', '\x0c', '\r'], d.isDigit = false := by decide
  have hc : ∀ d ∈ ['-', '+', ' ', '\t', '\n', '\x0b', '\x0c', '\r'], c ≠ d := by
    rintro d hd rfl
    rw [hno c hd] at hdigit
    cases hdigit
  have hblank : isSpace c = false := by
    rw [isSpace, decide_eq_false_iff_not]
    intro hmem
    exact hc c (List.mem_cons_of_mem _ (List.mem_cons_of_mem _ hmem)) rfl
  have hbody : s.toList.dropWhile isSpace = c :: cs := by
    rw [hs, List.dropWhile_cons_of_neg (by simp [hblank])]
  have htake : (c :: cs).takeWhile Char.isDigit = c :: cs := by
    rw [← hs, List.takeWhile_eq_self_iff]
    exact hall
  unfold leadingNumber
  rw [hbody]
  dsimp only
  split
  · next heq => exact absurd (List.cons.inj heq).1 (hc '-' (by simp))
  · next heq => exact absurd (List.cons.inj heq).1 (hc '+' (by simp))
  · simp [htake, hs, hc '-' (by simp)]

theorem stoul_of_decimal {s : String} {n : ℕ} (h : Decimal s n) (hn : n < 2 ^ 64) :
    stoul s = some n := by
  rw [stoul, leadingNumber_of_decimal h]
  exact if_pos hn

/-! ### What a list matches -/

variable (N) (width) (bits)

/-- The addresses are of one family, which has `n` bits or more, and agree in
the first `n`. -/
def SameBlock (addr net : Address) (n : ℕ) : Prop :=
  N.family addr = N.family net ∧ n ≤ width (N.family net) ∧ (bits addr).take n = (bits net).take n

/-- `cidr` is the address `ip`, or a block `base/n` that it lies in. -/
def InCidr (ip cidr : String) : Prop :=
  ∃ addr, N.parse ip = some addr ∧
    (('/' ∉ cidr.toList ∧ N.parse cidr = some addr) ∨
      ∃ base d net n, cidr = base ++ "/" ++ d ∧ '/' ∉ base.toList ∧ Decimal d n ∧
        N.parse base = some net ∧ SameBlock N width bits addr net n)

/-- What follows the slash is no decimal number up to the width, but `stoul`
reads a number off it that, cut to 32 bits, makes a block with `ip` in it. -/
def Misread (ip cidr : String) : Prop :=
  ∃ addr net b, N.parse ip = some addr ∧ '/' ∈ cidr.toList ∧ N.parse (upTo '/' cidr) = some net ∧
    stoul (after '/' cidr) = some b ∧ SameBlock N width bits addr net (b % 2 ^ 32) ∧
    ¬ ∃ n ≤ width (N.family net), Decimal (after '/' cidr) n

variable {N width bits}

/-- Where a text is a block, `ipInCidr` reads the base and the length of it. -/
theorem inCidr_iff (L : AddressLaws N width bits) (ip cidr : String) :
    InCidr N width bits ip cidr ↔ ∃ addr, N.parse ip = some addr ∧
      (('/' ∉ cidr.toList ∧ N.parse cidr = some addr) ∨
        ∃ net b, '/' ∈ cidr.toList ∧ N.parse (upTo '/' cidr) = some net ∧
          stoul (after '/' cidr) = some b ∧ SameBlock N width bits addr net (b % 2 ^ 32) ∧
          ∃ n ≤ width (N.family net), Decimal (after '/' cidr) n) := by
  refine exists_congr fun addr => and_congr_right fun _ => or_congr_right ?_
  constructor
  · rintro ⟨base, d, net, n, rfl, hbase, hd, hnet, hblock⟩
    have hupTo : upTo '/' (base ++ "/" ++ d) = base := upTo_append hbase
    have hafter : after '/' (base ++ "/" ++ d) = d := after_append hbase
    have hn : n ≤ 128 := hblock.2.1.trans (L.width_le _)
    have hstoul := stoul_of_decimal hd (by omega)
    rw [hupTo, hafter]
    refine ⟨net, n, by simp, hnet, hstoul, ?_, n, hblock.2.1, hd⟩
    rwa [Nat.mod_eq_of_lt (by omega)]
  · rintro ⟨net, b, hslash, hnet, hb, hblock, n, hn, hd⟩
    obtain ⟨hcidr, hbase⟩ := append_upTo_after hslash
    have hn' : n ≤ 128 := hn.trans (L.width_le _)
    obtain rfl : n = b := Option.some.inj ((stoul_of_decimal hd (by omega)).symm.trans hb)
    rw [Nat.mod_eq_of_lt (by omega)] at hblock
    exact ⟨_, _, net, n, hcidr, hbase, hd, hnet, hblock⟩

variable [DecidableEq Address] [DecidableEq Family]

/-- `ipInCidr` by its cases. -/
theorem ipInCidr_iff (L : AddressLaws N width bits) (ip cidr : String) :
    ipInCidr N ip cidr = true ↔ ∃ addr, N.parse ip = some addr ∧
      (('/' ∉ cidr.toList ∧ N.parse cidr = some addr) ∨
        ∃ net b, '/' ∈ cidr.toList ∧ N.parse (upTo '/' cidr) = some net ∧
          stoul (after '/' cidr) = some b ∧ SameBlock N width bits addr net (b % 2 ^ 32)) := by
  rw [ipInCidr]
  cases haddr : N.parse ip with
  | none => simp
  | some addr =>
    by_cases hslash : '/' ∈ cidr.toList
    · simp only [hslash, not_true_eq_false, if_false, false_and, false_or, true_and,
        Option.some.injEq, exists_eq_left']
      cases hnet : N.parse (upTo '/' cidr) with
      | none => simp
      | some net =>
        cases hb : stoul (after '/' cidr) with
        | none => simp
        | some b =>
          simp only [Option.some.injEq, exists_and_left, exists_eq_left']
          generalize b % 2 ^ 32 = n
          rw [SameBlock]
          by_cases hfamily : N.family addr = N.family net
          · by_cases hle : n ≤ width (N.family net)
            · obtain ⟨m, hm, -⟩ := L.mask_of_le n _ hle
              simp [hfamily, hm, hle, L.meet_eq_iff hfamily hm]
            · simp [hfamily, L.mask_of_lt n _ (not_le.mp hle), hle]
          · simp [hfamily]
    · simp [hslash]

theorem ipInCidr_of_inCidr (L : AddressLaws N width bits) {ip cidr : String}
    (h : InCidr N width bits ip cidr) : ipInCidr N ip cidr = true := by
  rw [inCidr_iff L] at h
  rw [ipInCidr_iff L]
  obtain ⟨addr, haddr, h⟩ := h
  refine ⟨addr, haddr, h.imp_right ?_⟩
  rintro ⟨net, b, hslash, hnet, hb, hblock, -⟩
  exact ⟨net, b, hslash, hnet, hb, hblock⟩

/-- What it matches beyond is what it misreads. -/
theorem misread_iff (L : AddressLaws N width bits) (ip cidr : String) :
    Misread N width bits ip cidr ↔
      ipInCidr N ip cidr = true ∧ ¬ InCidr N width bits ip cidr := by
  rw [ipInCidr_iff L, inCidr_iff L]
  constructor
  · rintro ⟨addr, net, b, haddr, hslash, hnet, hb, hblock, hlength⟩
    refine ⟨⟨addr, haddr, .inr ⟨net, b, hslash, hnet, hb, hblock⟩⟩, ?_⟩
    rintro ⟨addr', -, ⟨hno, -⟩ | ⟨net', b', -, hnet', -, -, hlength'⟩⟩
    · exact hno hslash
    · obtain rfl : net = net' := Option.some.inj (hnet.symm.trans hnet')
      exact hlength hlength'
  · rintro ⟨⟨addr, haddr, h⟩, hno⟩
    rcases h with h | ⟨net, b, hslash, hnet, hb, hblock⟩
    · exact absurd ⟨addr, haddr, .inl h⟩ hno
    · refine ⟨addr, net, b, haddr, hslash, hnet, hb, hblock, fun hlength => hno ?_⟩
      exact ⟨addr, haddr, .inr ⟨net, b, hslash, hnet, hb, hblock, hlength⟩⟩

/-- `ipInCidr` matches what it should exactly where it misreads no length. -/
theorem ipInCidr_exact_iff (L : AddressLaws N width bits) (ip cidr : String) :
    (ipInCidr N ip cidr = true ↔ InCidr N width bits ip cidr) ↔
      ¬ Misread N width bits ip cidr := by
  rw [misread_iff L, not_and_not_right]
  constructor
  · intro h
    exact h.mp
  · intro h
    exact ⟨h, ipInCidr_of_inCidr L⟩

end Blocks

/-! ### Dotted quads -/

/-- An address of 32 bits. -/
def Ipv4 : Type := {bits : List Bool // bits.length = 32}

instance : DecidableEq Ipv4 := inferInstanceAs (DecidableEq {bits : List Bool // bits.length = 32})

def octetOf (s : List Char) : Option ℕ :=
  if s ≠ [] ∧ s.length ≤ 3 ∧ s.all Char.isDigit ∧ digitsValue s < 256 then some (digitsValue s)
  else none

def octetBits (n : ℕ) : List Bool := (List.range 8).map fun i => n.testBit (7 - i)

/-- The library with the one family, on addresses written as four numbers. -/
def dottedQuads : AddressLibrary Ipv4 Unit where
  parse s :=
    match (s.toList.splitOn '.').mapM octetOf with
    | some [a, b, c, d] =>
      some ⟨octetBits a ++ octetBits b ++ octetBits c ++ octetBits d, by simp [octetBits]⟩
    | _ => none
  family _ := ()
  mask n _ :=
    if h : n ≤ 32 then
      some ⟨List.replicate n true ++ List.replicate (32 - n) false, by simp [h]⟩
    else none
  meet a m := ⟨List.zipWith (· && ·) a.1 m.1, by simp [a.2, m.2]⟩

theorem dottedQuads_laws : AddressLaws dottedQuads (fun _ => 32) (fun a => a.1) where
  width_le _ := by omega
  length_bits a := a.2
  bits_inj a b _ h := Subtype.ext h
  mask_of_le n f h := ⟨_, dif_pos h, rfl, rfl⟩
  mask_of_lt n f h := dif_neg (not_le.mpr h)
  meet a m _ := ⟨rfl, rfl⟩

theorem ipInCidr_exact_iff_dottedQuads :
    (ipInCidr dottedQuads "10.1.2.3" "10.0.0.0/8" = true ↔
        InCidr dottedQuads (fun _ => 32) (fun a => a.1) "10.1.2.3" "10.0.0.0/8") ↔
      ¬ Misread dottedQuads (fun _ => 32) (fun a => a.1) "10.1.2.3" "10.0.0.0/8" :=
  ipInCidr_exact_iff dottedQuads_laws "10.1.2.3" "10.0.0.0/8"

/-- A length that is `0` in 32 bits makes the block of every address. -/
theorem overflow_matches_everything :
    ¬ ∀ ip cidr, ipInCidr dottedQuads ip cidr = true ↔
      InCidr dottedQuads (fun _ => 32) (fun a => a.1) ip cidr := by
  intro h
  have hcode : ipInCidr dottedQuads "203.0.113.9" "10.0.0.0/4294967296" = true := by
    decide +kernel
  have hin := (h "203.0.113.9" "10.0.0.0/4294967296").mp hcode
  rw [inCidr_iff dottedQuads_laws] at hin
  obtain ⟨addr, -, ⟨hslash, -⟩ | ⟨net, b, -, -, -, -, n, hn, -, -, hvalue⟩⟩ := hin
  · exact hslash (by decide)
  · have hlength : digitsValue (after '/' "10.0.0.0/4294967296").toList = 4294967296 := by
      decide +kernel
    rw [hlength] at hvalue
    omega

end HttpBridge
