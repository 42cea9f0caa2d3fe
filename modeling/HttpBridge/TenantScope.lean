/-
# The scope of a tenant's searches

`roleSearchBase` names the one base that roles are searched under and
`isWithinTenantScope` says whether a base lies in the tenant subtree. Both
compare texts: the one for equality, the other for a common end, letter case
apart. The subtree itself is one of components (`Net.Dn.Below`).

The texts tell the truth about the subtree where they are written alike:
wherever one base ends in the text of the other a component begins there
(`NoneCut`), and where the last components of one are the other they are written
as it is (`NoneRespelled`). The root is refused only as it is configured
(`tenant_scope_iff`).
-/
import HttpBridge.Net.Dn
import HttpBridge.Policy

namespace HttpBridge

open Net

/-- `isWithinTenantScope`. -/
def isWithinTenantScope (base tenantBase : String) : Bool :=
  if base == "" || tenantBase == "" then false
  else
    let b := (lowered base).toList
    let t := (lowered tenantBase).toList
    if b.length < t.length then false
    else b == t || (b.drop (b.length - t.length)).take t.length == t

theorem isWithinTenantScope_iff {base tenantBase : String} :
    isWithinTenantScope base tenantBase = true ↔
      tenantBase ≠ "" ∧
        tenantBase.toList.map Char.toLower <:+ base.toList.map Char.toLower := by
  unfold isWithinTenantScope lowered
  simp only [Bool.or_eq_true, beq_iff_eq, String.toList_ofList]
  by_cases ht : tenantBase = ""
  · simp [ht]
  have hne : tenantBase.toList ≠ [] := fun h => ht (String.toList_eq_nil_iff.mp h)
  by_cases hb : base = ""
  · simp [hb, ht]
  rw [if_neg (not_or.mpr ⟨hb, ht⟩)]
  generalize base.toList.map Char.toLower = b
  generalize tenantBase.toList.map Char.toLower = t
  by_cases hlen : b.length < t.length
  · have hno : ¬ t <:+ b := fun h => absurd h.length_le (by omega)
    simp [hlen, hno]
  · have htake : (b.drop (b.length - t.length)).take t.length = b.drop (b.length - t.length) := by
      rw [List.take_of_length_le]
      rw [List.length_drop]
      omega
    rw [if_neg hlen, htake, List.suffix_iff_eq_drop]
    simp only [Bool.or_eq_true, beq_iff_eq, ne_eq, ht, not_false_eq_true, true_and]
    constructor
    · rintro (rfl | h)
      · simp
      · exact h.symm
    · exact fun h => .inr h.symm

/-- Where the base ends in the text of the tenant base, letter case apart, a
component begins there. -/
def NoneCut (base tenantBase : Dn) : Prop :=
  ∀ u v, base.text.toList = u ++ v →
    v.map Char.toLower = tenantBase.folded → Dn.Begins u

/-- Where the last components of the base equal the tenant base, they are written as
it is, letter case and blanks in front apart. -/
def NoneRespelled (base tenantBase : Dn) : Prop :=
  ∀ (u : List Char) (f : Dn), base.text.toList = u ++ f.text.toList → Dn.Starts u →
    f.key = tenantBase.key → tenantBase.folded <:+ f.folded

section Scope

variable {base tenantBase : Dn}

/-- A common end, letter case apart, is a name that equals the tenant base. -/
theorem exists_end (h : tenantBase.folded <:+ base.folded) :
    ∃ (u : List Char) (g : Dn), base.text.toList = u ++ g.text.toList ∧ g.key = tenantBase.key ∧
      g.folded = tenantBase.folded := by
  obtain ⟨z, hz⟩ := h
  obtain ⟨u, v, hd, rfl, hv⟩ := List.map_eq_append_iff.mp hz.symm
  obtain ⟨g, hg, hkey⟩ := Dn.exists_key_eq tenantBase hv
  exact ⟨u, g, by rw [hd, hg], hkey, by rw [Dn.folded, hg, hv]⟩

theorem below_congr {g : Dn} (h : g.key = tenantBase.key) : base.Below g ↔ base.Below tenantBase := by
  rw [Dn.Below, Dn.Below, h]

theorem text_ne_empty_of_key {f : Dn} (hbase : tenantBase.text ≠ "") (h : f.key = tenantBase.key) :
    f.text ≠ "" := by
  rw [Ne, Dn.text_eq_empty_iff] at hbase ⊢
  rintro hf
  have hlen := congrArg List.length h
  simp only [Dn.key, List.length_map, hf, List.length_nil] at hlen
  exact hbase (List.length_eq_zero_iff.mp hlen.symm)

/-- What lies below the tenant base ends in its text, if that is how it is written. -/
theorem suffix_of_noneRespelled (hbase : tenantBase.text ≠ "")
    (hspelled : NoneRespelled base tenantBase) (h : base.Below tenantBase) :
    tenantBase.folded <:+ base.folded := by
  obtain ⟨keys, hkeys⟩ := h
  obtain ⟨front, back, hd, rfl, hback⟩ := List.map_eq_append_iff.mp hkeys.symm
  have hne : back ≠ [] := by
    rintro rfl
    refine hbase (Dn.text_eq_empty_iff.mpr ?_)
    simpa [Dn.key] using hback.symm
  obtain ⟨u, f, hu, hstart, hf⟩ := Dn.exists_last hd hne
  have hkey : f.key = tenantBase.key := by rw [Dn.key, hf, hback]
  have hend := hspelled u f hu hstart hkey
  exact hend.trans (Dn.folded_suffix hu)

theorem noneCut_of_sound (hbase : tenantBase.text ≠ "")
    (h : isWithinTenantScope base.text tenantBase.text = true → base.Below tenantBase) :
    NoneCut base tenantBase := by
  intro u v hd hv
  obtain ⟨g, hg, hkey⟩ := Dn.exists_key_eq tenantBase hv
  have hsuffix : tenantBase.folded <:+ base.folded := by
    rw [← hv, ← hg]
    exact Dn.folded_suffix (by rw [hd, hg])
  have hbelow := h (isWithinTenantScope_iff.mpr ⟨hbase, hsuffix⟩)
  rw [← below_congr hkey] at hbelow
  exact Dn.begins_of_below (text_ne_empty_of_key hbase hkey) (by rw [hd, hg]) hbelow

/-- Of two ends that equal each other the one cannot have a component more. -/
theorem noneRespelled_of_complete (hbase : tenantBase.text ≠ "") (hcut : NoneCut base tenantBase)
    (h : base.Below tenantBase → isWithinTenantScope base.text tenantBase.text = true) :
    NoneRespelled base tenantBase := by
  intro u f hu hstart hkey
  have hf := text_ne_empty_of_key hbase hkey
  have hbelow : base.Below tenantBase :=
    (below_congr hkey).mp (Dn.below_of_begins hf hu hstart.begins)
  have hbase' := (isWithinTenantScope_iff.mp (h hbelow)).2
  obtain ⟨u', g, hu', hgkey, hg⟩ := exists_end hbase'
  rw [← hg]
  rcases List.append_eq_append_iff.mp (hu.symm.trans hu') with ⟨z, -, hz⟩ | ⟨z, hz, hgz⟩
  · exact Dn.folded_suffix hz
  · rcases List.eq_nil_or_concat' z with rfl | ⟨z, c, rfl⟩
    · rw [List.nil_append] at hgz
      exact Dn.folded_suffix (u := []) hgz.symm
    · -- the longer name would have all components of the other, and more
      rcases hstart with rfl | ⟨w, rfl, hw⟩
      · simp at hz
      rw [← List.append_assoc] at hz
      obtain ⟨rfl, hc⟩ := List.append_inj' hz rfl
      obtain rfl : ',' = c := by simpa using hc
      obtain ⟨pre, bs, hlex, -, -⟩ := (hcut u' _ hu' hg).lex
      obtain ⟨ts, hts⟩ := Option.isSome_iff_exists.mp hw
      obtain ⟨us, st, vs, hus, hvs, -⟩ := Dn.lex_append.mp (Dn.tokens_eq_some.mp hts)
      obtain ⟨rfl, rfl⟩ := Prod.mk.inj (Option.some.inj (hus.symm.trans hlex))
      have hgz' : g.text.toList = z ++ ',' :: f.text.toList := by simpa using hgz
      obtain ⟨front, -, hne, hrdns⟩ := Dn.rdns_append hf hgz' hvs
      have hlen := congrArg List.length (hgkey.trans hkey.symm)
      have hpos := List.length_pos_iff.mpr hne
      rw [Dn.key, Dn.key, List.length_map, List.length_map, hrdns, List.length_append] at hlen
      omega

end Scope

/-- What `roleSearchBase` gives is neither the directory root nor above it. -/
def NeverRoot (tenantBase ldapDomain : Dn) : Prop :=
  ∀ r : Dn, r.text = roleSearchBase tenantBase.text ldapDomain.text → r.text ≠ "" →
    ¬ ldapDomain.Below r

theorem neverRoot_iff (tenantBase ldapDomain : Dn) :
    NeverRoot tenantBase ldapDomain ↔
      tenantBase.text = "" ∨ tenantBase.text = ldapDomain.text ∨
        ¬ ldapDomain.Below tenantBase := by
  unfold NeverRoot roleSearchBase
  simp only [beq_iff_eq, Bool.and_eq_true, bne_iff_ne]
  by_cases hempty : tenantBase.text = ""
  · simp only [hempty, if_true, true_or, iff_true]
    exact fun r hr hne => absurd hr hne
  rw [if_neg hempty]
  by_cases hroot : ldapDomain.text ≠ "" ∧ tenantBase.text = ldapDomain.text
  · rw [if_pos hroot]
    refine iff_of_true (fun r hr hne => absurd hr hne) (.inr (.inl hroot.2))
  · have hne : tenantBase.text ≠ ldapDomain.text := fun h => hroot ⟨h ▸ hempty, h⟩
    rw [if_neg hroot, or_iff_right hempty, or_iff_right hne]
    constructor
    · exact fun h => h tenantBase rfl hempty
    · rintro h r hr -
      rwa [Dn.eq_of_text hr]

/-- **When the scope is one of components.** The check agrees with the tree exactly
for a tenant base that is given, where no component is cut and none respelled. And
the root is not searched exactly if the tenant base is missing, written as the root
is, or neither the root nor above it. -/
theorem tenant_scope_iff (base tenantBase ldapDomain : Dn) :
    ((isWithinTenantScope base.text tenantBase.text = true ↔ base.Below tenantBase) ↔
        tenantBase.text ≠ "" ∧ NoneCut base tenantBase ∧ NoneRespelled base tenantBase) ∧
      (NeverRoot tenantBase ldapDomain ↔
        tenantBase.text = "" ∨ tenantBase.text = ldapDomain.text ∨
          ¬ ldapDomain.Below tenantBase) := by
  refine ⟨⟨fun h => ?_, ?_⟩, neverRoot_iff tenantBase ldapDomain⟩
  · have hbase : tenantBase.text ≠ "" := by
      intro hempty
      have hbelow : base.Below tenantBase := by
        rw [Dn.Below, Dn.key, Dn.text_eq_empty_iff.mp hempty]
        exact List.nil_suffix
      exact (isWithinTenantScope_iff.mp (h.mpr hbelow)).1 hempty
    have hcut := noneCut_of_sound hbase h.mp
    exact ⟨hbase, hcut, noneRespelled_of_complete hbase hcut h.mpr⟩
  · rintro ⟨hbase, hcut, hspelled⟩
    rw [isWithinTenantScope_iff]
    constructor
    · rintro ⟨-, hsuffix⟩
      obtain ⟨u, g, hu, hkey, hg⟩ := exists_end hsuffix
      exact (below_congr hkey).mp
        (Dn.below_of_begins (text_ne_empty_of_key hbase hkey) hu (hcut u _ hu hg))
    · exact fun h => ⟨hbase, suffix_of_noneRespelled hbase hspelled h⟩

/-- An attribute type may end in the text of the tenant base, and the root be written
in capitals. -/
theorem not_tenant_scope :
    (∃ base tenantBase : Dn,
        base.text = "xou=tenants,dc=fe" ∧ tenantBase.text = "ou=tenants,dc=fe" ∧
          isWithinTenantScope base.text tenantBase.text = true ∧ ¬ base.Below tenantBase) ∧
      ∃ tenantBase ldapDomain : Dn, tenantBase.text = "DC=fe" ∧ ldapDomain.text = "dc=fe" ∧
        roleSearchBase tenantBase.text ldapDomain.text = tenantBase.text ∧
          ldapDomain.Below tenantBase := by
  refine ⟨⟨.ofText "xou=tenants,dc=fe" (by decide +kernel),
    .ofText "ou=tenants,dc=fe" (by decide +kernel), rfl, rfl, ?_, ?_⟩,
    .ofText "DC=fe" (by decide +kernel), .ofText "dc=fe" (by decide +kernel), rfl, rfl, ?_, ?_⟩
  all_goals decide +kernel

end HttpBridge
