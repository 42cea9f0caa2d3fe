/-
# The tenant a group belongs to

`tenantFromGroupDN` reads the tenant off the text of a group's name: what stands
behind the last `ou=` in front of the first `,` and tenant base. What it is meant
to read is the `ou` of the component above the base (`ouAbove`).

It does exactly if the name is written out (`WrittenOut`): in front of the first
mention of the base the last `ou=` is followed by that very value, and where there
is none, by nothing. A name without capitals, escapes and blanks that mentions its
base once is (`PlainlyNamed.writtenOut`), but below every base there is one that is not
(`exists_misread`).
-/
import HttpBridge.DeploymentRoles
import HttpBridge.DirectoryFilters
import HttpBridge.Net.Dn

namespace HttpBridge

open Net

/-- The value of the `ou` immediately above the base, where there is one. -/
def ouAbove (dn base : Dn) : String :=
  if dn.Below base then
    match (dn.rdns.take (dn.rdns.length - base.rdns.length)).getLast? with
    | none => ""
    | some rdn =>
      match rdn.find? fun a => a.type = "ou".toList with
      | none => ""
      | some a => String.ofList a.value
  else ""

/-- What stands in front of the first mention of the base. -/
abbrev InFront (dn base : String) (head : List Char) : Prop :=
  BeforeFirst (',' :: base.toList) head dn.toList

/-- What stands behind the last `ou=`. -/
abbrev BehindOu (head w : List Char) : Prop := BehindLast "ou=".toList w head

theorem tenantFromGroupDN_eq {dn base : String} {head w : List Char} (hbase : base ≠ "")
    (hfront : InFront dn base head) (hou : BehindOu head w) :
    tenantFromGroupDN dn base = String.ofList w := by
  unfold tenantFromGroupDN
  rw [if_neg (by simpa using hbase)]
  cases hpos : indexOf (',' :: base.toList) dn.toList with
  | none =>
    have hin : ',' :: base.toList <:+: dn.toList :=
      (List.suffix_append head _).isInfix.trans hfront.1.isInfix
    exact absurd hin (indexOf_eq_none.mp hpos)
  | some pos =>
    dsimp only
    rw [(beforeFirst_indexOf hpos).eq hfront]
    cases hou' : lastIndexOf "ou=".toList head with
    | none =>
      have hin : "ou=".toList <:+: head :=
        (List.prefix_append _ w).isInfix.trans hou.1.isInfix
      exact absurd hin (lastIndexOf_eq_none.mp hou')
    | some i =>
      have hw := (behindLast_lastIndexOf hou').eq hou
      exact congrArg String.ofList hw

theorem tenantFromGroupDN_of_none {dn base : String}
    (h : base = "" ∨ ∀ head w, InFront dn base head → ¬ BehindOu head w) :
    tenantFromGroupDN dn base = "" := by
  unfold tenantFromGroupDN
  by_cases hbase : base = ""
  · rw [if_pos (by simpa using hbase)]
  rw [if_neg (by simpa using hbase)]
  cases hpos : indexOf (',' :: base.toList) dn.toList with
  | none => rfl
  | some pos =>
    dsimp only
    cases hou : lastIndexOf "ou=".toList (dn.toList.take pos) with
    | none => rfl
    | some i =>
      exact absurd (behindLast_lastIndexOf hou)
        (h.resolve_left hbase _ _ (beforeFirst_indexOf hpos))

/-- A name of which the text says what it means: it mentions the base behind the
`ou` of the component above it, or mentions none. -/
def WrittenOut (dn base : Dn) : Prop :=
  if ouAbove dn base = "" then
    base.text = "" ∨ ∀ head w, InFront dn.text base.text head → BehindOu head w → w = []
  else
    base.text ≠ "" ∧ ∃ head, InFront dn.text base.text head ∧ BehindOu head (ouAbove dn base).toList

theorem tenantFromGroupDN_iff (dn base : Dn) :
    tenantFromGroupDN dn.text base.text = ouAbove dn base ↔ WrittenOut dn base := by
  unfold WrittenOut
  by_cases hread : base.text ≠ "" ∧ ∃ head w, InFront dn.text base.text head ∧ BehindOu head w
  · obtain ⟨hbase, head, w, hfront, hou⟩ := hread
    rw [tenantFromGroupDN_eq hbase hfront hou]
    split_ifs with hempty
    · rw [hempty, String.ofList_eq_empty_iff]
      constructor
      · rintro rfl
        refine .inr fun head' w' hfront' hou' => ?_
        rw [hfront'.eq hfront] at hou'
        exact hou'.eq hou
      · exact fun h => h.resolve_left hbase head w hfront hou
    · constructor
      · intro h
        refine ⟨hbase, head, hfront, ?_⟩
        rwa [← h, String.toList_ofList]
      · rintro ⟨-, head', hfront', hou'⟩
        rw [hfront'.eq hfront] at hou'
        rw [hou.eq hou', String.ofList_toList]
  · have hnone : base.text = "" ∨ ∀ head w, InFront dn.text base.text head → ¬ BehindOu head w := by
      by_cases hbase : base.text = ""
      · exact .inl hbase
      · exact .inr fun head w hfront hou => hread ⟨hbase, head, w, hfront, hou⟩
    rw [tenantFromGroupDN_of_none hnone]
    split_ifs with hempty
    · refine iff_of_true hempty.symm (hnone.imp_right fun h head w hfront hou => ?_)
      exact absurd hou (h head w hfront)
    · refine iff_of_false (Ne.symm hempty) ?_
      rintro ⟨hbase, head, hfront, hou⟩
      exact hread ⟨hbase, head, _, hfront, hou⟩

/-! ### Names that are written out, and names that are not -/

theorem ouAbove_of_rdns {dn base : Dn} {front : List Dn.Rdn} {q : List Char}
    (h : dn.rdns = front ++ [⟨"ou".toList, q⟩] :: base.rdns) : ouAbove dn base = String.ofList q := by
  have hbelow : dn.Below base := by
    rw [Dn.Below, Dn.key, Dn.key, h, List.map_append, List.map_cons]
    exact (List.suffix_cons _ _).trans (List.suffix_append _ _)
  have hlen : dn.rdns.length - base.rdns.length = front.length + 1 := by
    rw [h, List.length_append, List.length_cons]
    omega
  have htake : dn.rdns.take (dn.rdns.length - base.rdns.length) =
      front ++ [[⟨"ou".toList, q⟩]] := by
    rw [hlen, h, List.append_cons]
    exact List.take_left' (by simp)
  unfold ouAbove
  rw [if_pos hbelow, htake, List.getLast?_concat]
  simp

theorem components_ou {q : List Char} (hq : Dn.Plain q) :
    Dn.components (("ou=".toList ++ q).map .plain) = some [[⟨"ou".toList, q⟩]] :=
  @Dn.components_of_plain "ou".toList q "ou".toList (by decide) (by decide) hq

theorem lex_ou {q : List Char} (hq : Dn.Plain q) :
    Dn.lex .text ("ou=".toList ++ q) = some (("ou=".toList ++ q).map .plain, .text) := by
  refine Dn.lex_of_plain fun c hc => ?_
  rcases List.mem_append.mp hc with hc | hc
  · have hou : ∀ c ∈ "ou=".toList, c ≠ '\\' ∧ c ∉ Dn.forbidden := by decide
    exact hou c hc
  · refine ⟨?_, (hq c hc).2⟩
    rintro rfl
    exact (hq _ hc).1 (by decide)

theorem ouAbove_of_plain {dn base : Dn} {p q : List Char} (hbase : base.text ≠ "")
    (hq : Dn.Plain q) (hp : Dn.Starts p)
    (hdn : dn.text.toList = p ++ ("ou=".toList ++ q) ++ ',' :: base.text.toList) :
    ouAbove dn base = String.ofList q := by
  rcases hp with rfl | ⟨p, rfl, hp⟩
  · rw [List.nil_append] at hdn
    obtain ⟨front, hfront, -, hrdns⟩ := Dn.rdns_append hbase hdn (lex_ou hq)
    obtain rfl := Option.some.inj ((components_ou hq).symm.trans hfront)
    exact @ouAbove_of_rdns _ _ [] q hrdns
  · obtain ⟨ts, hts⟩ := Option.isSome_iff_exists.mp hp
    have hlex := Dn.lex_comma (Dn.tokens_eq_some.mp hts) (lex_ou hq)
    have hdn' : dn.text.toList = (p ++ ',' :: ("ou=".toList ++ q)) ++ ',' :: base.text.toList := by
      rw [hdn]
      simp
    obtain ⟨front, hfront, -, hrdns⟩ := Dn.rdns_append hbase hdn' hlex
    rw [Dn.components_append, components_ou hq, Option.bind_eq_some_iff] at hfront
    obtain ⟨front', -, hfront⟩ := hfront
    obtain rfl := Option.some.inj hfront
    refine @ouAbove_of_rdns _ _ front' q ?_
    rw [hrdns]
    simp

/-- A name in which the `ou` above the base is spelled in small letters, its value
has nothing to escape, and the base is not mentioned before. -/
def PlainlyNamed (dn base : Dn) : Prop :=
  base.text ≠ "" ∧ ∃ p q, Dn.Starts p ∧ Dn.Plain q ∧ q ≠ [] ∧
    dn.text.toList = p ++ ("ou=".toList ++ q) ++ ',' :: base.text.toList ∧
      ∀ head, head ++ ',' :: base.text.toList <+: dn.text.toList →
        (p ++ ("ou=".toList ++ q)).length ≤ head.length

theorem PlainlyNamed.writtenOut {dn base : Dn} (h : PlainlyNamed dn base) : WrittenOut dn base := by
  obtain ⟨hbase, p, q, hp, hq, hne, hdn, hfirst⟩ := h
  have hval := ouAbove_of_plain hbase hq hp hdn
  have hempty : ouAbove dn base ≠ "" := by
    rw [hval, Ne, String.ofList_eq_empty_iff]
    exact hne
  unfold WrittenOut
  rw [if_neg hempty, hval, String.toList_ofList]
  refine ⟨hbase, p ++ ("ou=".toList ++ q), ⟨hdn ▸ List.prefix_refl _, hfirst⟩,
    List.suffix_append _ _, ?_⟩
  -- a later `ou=` would put an equals sign into the value
  intro v hv
  by_contra hlt
  have hq' : q <:+ p ++ ("ou=".toList ++ q) :=
    (List.suffix_append _ q).trans (List.suffix_append p _)
  have hv' : '=' :: v <:+ p ++ ("ou=".toList ++ q) := (List.suffix_append ['o', 'u'] _).trans hv
  have hlen : ('=' :: v).length ≤ q.length := by
    rw [List.length_cons]
    omega
  have hmem : '=' ∈ q := (List.suffix_of_suffix_length_le hv' hq' hlen).subset List.mem_cons_self
  exact (hq _ hmem).1 (by decide)

/-- The text `cn=x,OU=acme`, in which no `ou=` stands. -/
theorem lex_acme : Dn.lex .text "cn=x,OU=acme".toList =
    some ("cn=x,OU=acme".toList.map .plain, .text) := by decide +kernel

theorem components_acme : Dn.components ("cn=x,OU=acme".toList.map .plain) =
    some [[⟨"cn".toList, "x".toList⟩], [⟨"ou".toList, "acme".toList⟩]] := by decide +kernel

theorem not_ou_acme : ¬ "ou=".toList <:+: "cn=x,OU=acme".toList := by decide +kernel

/-- **No base is safe.** Below every base there is a name that is read wrong. -/
theorem exists_misread (base : Dn) :
    ∃ dn : Dn, tenantFromGroupDN dn.text base.text ≠ ouAbove dn base := by
  by_cases hbase : base.text = ""
  · have hrdns : base.rdns = [] := Dn.text_eq_empty_iff.mp hbase
    refine ⟨.ofComponents lex_acme components_acme, ?_⟩
    have hval : ouAbove (.ofComponents lex_acme components_acme) base = _ :=
      @ouAbove_of_rdns _ _ [[⟨"cn".toList, "x".toList⟩]] "acme".toList (by rw [hrdns]; rfl)
    rw [tenantFromGroupDN_of_none (.inl hbase), hval]
    decide +kernel
  · obtain ⟨us, hus, hbr⟩ := base.reads_tokens hbase
    have hread : Dn.components ("cn=x,OU=acme".toList.map .plain ++ Dn.comma :: us) =
        some ([[⟨"cn".toList, "x".toList⟩]] ++ [⟨"ou".toList, "acme".toList⟩] :: base.rdns) := by
      rw [Dn.components_append, components_acme, hbr]
      rfl
    obtain ⟨dn, hdn, hrdns⟩ : ∃ dn : Dn,
        dn.text.toList = "cn=x,OU=acme".toList ++ ',' :: base.text.toList ∧ dn.rdns =
          [[⟨"cn".toList, "x".toList⟩]] ++ [⟨"ou".toList, "acme".toList⟩] :: base.rdns :=
      ⟨.ofComponents (Dn.lex_comma lex_acme hus) hread, String.toList_ofList, rfl⟩
    refine ⟨dn, ?_⟩
    rw [ouAbove_of_rdns hrdns, tenantFromGroupDN_of_none (.inr fun head w hhead hou => ?_)]
    · decide +kernel
    · -- what stands in front of the base is no longer than this text
      rw [InFront, hdn] at hhead
      have hpre : head <+: "cn=x,OU=acme".toList :=
        List.prefix_of_prefix_length_le ((List.prefix_append head _).trans hhead.1)
          (List.prefix_append _ _) (hhead.2 _ (List.prefix_refl _))
      have hin : "ou=".toList <:+: head := (List.prefix_append _ w).isInfix.trans hou.1.isInfix
      exact not_ou_acme (hin.trans hpre.isInfix)

/-! ### The groups of a user -/

/-- A group whose name says that it is the tenant's. -/
def BelongsTo (base : Dn) (g : LdapEntry) (tenant : String) : Prop :=
  tenant ≠ "" ∧ ∃ dn : Dn, dn.text = g.dn ∧ ouAbove dn base = tenant

/-- A group whose name is written out. -/
def NamedOut (base : Dn) (g : LdapEntry) : Prop := ∃ dn : Dn, dn.text = g.dn ∧ WrittenOut dn base

/-- The groups `getTenantsForUser` reads for a user. -/
def groupsNaming (L : LdapOptions) (S : LdapServer) (username : String) : List LdapEntry :=
  match S.searchOne L.userBase (userFilter username) with
  | none => []
  | some entry =>
    if entry.dn == "" then []
    else (S.search L.tenantBase (memberFilter entry.dn (memberUid username entry.dn))).getD []

theorem mem_getTenantsForUser {L : LdapOptions} {S : LdapServer} {u t : String} :
    t ∈ getTenantsForUser L (some S) u ↔ t ≠ "" ∧ ∃ g ∈ groupsNaming L S u, L.tenantOf g = t := by
  rw [getTenantsForUser_eq, groupsNaming]
  cases S.searchOne L.userBase (userFilter u) with
  | none => simp
  | some entry =>
    dsimp only
    split_ifs
    · simp
    · simp only [List.mem_insertionSort, mem_addRoles, List.not_mem_nil, false_or, List.mem_filter,
        List.mem_map, bne_iff_ne]
      exact and_comm

variable {L : LdapOptions} {base : Dn}

theorem tenantOf_iff (hbase : base.text = L.tenantBase) {g : LdapEntry} (h : NamedOut base g)
    (t : String) : (t ≠ "" ∧ L.tenantOf g = t) ↔ BelongsTo base g t := by
  obtain ⟨dn, hdn, hwritten⟩ := h
  have htenant : L.tenantOf g = ouAbove dn base := by
    rw [LdapOptions.tenantOf, ← hbase, ← hdn]
    exact (tenantFromGroupDN_iff dn base).mpr hwritten
  rw [htenant]
  constructor
  · exact fun h => ⟨h.1, dn, hdn, h.2⟩
  · rintro ⟨hne, dn', hdn', ht⟩
    obtain rfl : dn' = dn := Dn.eq_of_text (hdn'.trans hdn.symm)
    exact ⟨hne, ht⟩

/-- The user is in one group of one tenant. -/
def acmeServer : LdapServer :=
  groupServer "uid=ann,dc=fe" [("cn=staff,ou=acme,ou=tenants,dc=fe", "staff")]

def tenantsBase : Dn := .ofText "ou=tenants,dc=fe" (by decide +kernel)

theorem acme_namedOut (g : LdapEntry)
    (hg : g.dn = "cn=staff,ou=acme,ou=tenants,dc=fe") : NamedOut tenantsBase g :=
  ⟨.ofText "cn=staff,ou=acme,ou=tenants,dc=fe" (by decide +kernel), hg.symm,
    (tenantFromGroupDN_iff _ _).mp (by decide +kernel)⟩

end HttpBridge
