/-
# The filters of the directory searches

The searches are made with filters put together from texts. What a caller sends,
a login name, an email address or the beginning of a name, is escaped, so each
of these filters reads as the intended one about exactly that value
(`caller_filters`).

The DN of a user, as the directory returns it, and the uid in it are put in as
they are. A filter about them reads as the intended one exactly if they hold none
of the octets that RFC 4515 wants escaped, and a DN with an escape of its own
does (`membership_filters_iff`).
-/
import HttpBridge.Net.Filter
import HttpBridge.Directory

namespace HttpBridge

open Net Net.Filter

/-! ### Searches for names -/

/-- The filter of `searchUser`. -/
def uidFilter (username : String) : String := "(uid=" ++ escapeLdapFilterValue username ++ ")"

/-- The filter of `getUserInfoByEmail`. -/
def mailFilter (email : String) : String := "(mail=" ++ escapeLdapFilterValue email ++ ")"

def searchUsersFilter (q : String) : String :=
  "(&(objectClass=person)(|(uid=" ++ escapeLdapFilterValue q ++ "*)(cn=" ++ escapeLdapFilterValue q ++
    "*)(mail=" ++ escapeLdapFilterValue q ++ "*)))"

def searchRolesFilter (q : String) : String :=
  "(&(objectClass=groupOfNames)(cn=" ++ escapeLdapFilterValue q ++ "*))"

/-- As many different names as the search may return. -/
def collectNames (cap : ℤ) (names : List String) : List String :=
  names.foldl (fun found name =>
    if cap ≤ found.length then found else if name == "" then found else addRole found name) []

/-- `searchUsers`: the uids of the users of which a name begins so. -/
def searchUsers (L : LdapOptions) (ld : Option LdapServer) (q : String) (limit : ℤ) : List String :=
  let kMaxResults : ℤ := 50
  let cap := if 0 < limit && limit < kMaxResults then limit else kMaxResults
  match ld with
  | none => []
  | some S =>
    let found := (S.search L.userBase (searchUsersFilter q)).getD []
    (collectNames cap (found.map fun e =>
      if e.firstValue "uid" == "" then uidFromDN e.dn else e.firstValue "uid")).insertionSort (· ≤ ·)

/-- `searchRoles`: the groups of the tenant of which the name begins so. -/
def searchRoles (L : LdapOptions) (ld : Option LdapServer) (tenant q : String) (limit : ℤ) :
    List String :=
  let kMaxResults : ℤ := 100
  let cap := if 0 < limit && limit < kMaxResults then limit else kMaxResults
  if tenant == "" || L.tenantBase == "" then []
  else
    match ld with
    | none => []
    | some S =>
      let found := (S.search ("ou=" ++ tenant ++ "," ++ L.tenantBase) (searchRolesFilter q)).getD []
      (collectNames cap (found.map (·.firstValue "cn"))).insertionSort (· ≤ ·)

/-! ### Escaped values -/

/-- What is put in for a character. -/
def escapeChar (c : Char) : List Char :=
  if c = '*' then "\\2a".toList
  else if c = '(' then "\\28".toList
  else if c = ')' then "\\29".toList
  else if c = '\\' then "\\5c".toList
  else if c = '\x00' then "\\00".toList
  else [c]

theorem toList_escapeLdapFilterValue (v : String) :
    (escapeLdapFilterValue v).toList = v.toList.flatMap escapeChar := by
  rw [escapeLdapFilterValue, String.toList_ofList]
  rfl

theorem escapeChar_cases (c : Char) :
    (∃ a b x y, escapeChar c = ['\\', a, b] ∧ JsonText.hexValue a = some x ∧ JsonText.hexValue b = some y ∧
      Char.ofNat (16 * x + y) = c ∧ a ∉ special ∧ b ∉ special) ∨ (escapeChar c = [c] ∧ c ∉ special) := by
  unfold escapeChar
  by_cases h₁ : c = '*'
  · rw [if_pos h₁, h₁]
    exact .inl ⟨'2', 'a', 2, 10, by decide⟩
  by_cases h₂ : c = '('
  · rw [if_neg h₁, if_pos h₂, h₂]
    exact .inl ⟨'2', '8', 2, 8, by decide⟩
  by_cases h₃ : c = ')'
  · rw [if_neg h₁, if_neg h₂, if_pos h₃, h₃]
    exact .inl ⟨'2', '9', 2, 9, by decide⟩
  by_cases h₄ : c = '\\'
  · rw [if_neg h₁, if_neg h₂, if_neg h₃, if_pos h₄, h₄]
    exact .inl ⟨'5', 'c', 5, 12, by decide⟩
  by_cases h₅ : c = '\x00'
  · rw [if_neg h₁, if_neg h₂, if_neg h₃, if_neg h₄, if_pos h₅, h₅]
    exact .inl ⟨'0', '0', 0, 0, by decide⟩
  rw [if_neg h₁, if_neg h₂, if_neg h₃, if_neg h₄, if_neg h₅]
  exact .inr ⟨rfl, by simp [special, h₁, h₂, h₃, h₄, h₅]⟩

/-- **Unescaping inverts the escaping.** -/
theorem unescape_escaped (v : String) : unescape (escapeLdapFilterValue v).toList = some v.toList := by
  rw [toList_escapeLdapFilterValue]
  generalize v.toList = s
  induction s with
  | nil => rfl
  | cons c s ih =>
    rw [List.flatMap_cons]
    rcases escapeChar_cases c with ⟨a, b, x, y, hc, ha, hb, hxy, -, -⟩ | ⟨hc, hclean⟩
    · rw [hc, List.cons_append, List.cons_append, List.cons_append, List.nil_append, unescape, ha, hb, ih, ← hxy]
      rfl
    · have hne : c ≠ '\\' := by
        rintro rfl
        exact hclean (by decide)
      rw [hc, List.singleton_append, unescape.eq_3 c _ fun _ _ _ hc' => absurd hc' hne, if_neg hclean, ih]
      rfl

/-- What is escaped holds none of the octets in question but the backslash. -/
theorem escaped_clean (v : String) : ∀ c ∈ (escapeLdapFilterValue v).toList, c ∈ special → c = '\\' := by
  rw [toList_escapeLdapFilterValue]
  intro d hd hspecial
  obtain ⟨c, -, hc⟩ := List.mem_flatMap.mp hd
  rcases escapeChar_cases c with ⟨a, b, x, y, he, -, -, -, ha, hb⟩ | ⟨he, hclean⟩
  · rw [he, List.mem_cons, List.mem_cons, List.mem_singleton] at hc
    rcases hc with rfl | rfl | rfl
    · rfl
    · exact absurd hspecial ha
    · exact absurd hspecial hb
  · rw [he, List.mem_singleton] at hc
    rw [hc] at hspecial
    exact absurd hspecial hclean

/-! ### Filters about what a caller sends -/

/-- The text of an item. -/
def itemText (attr : String) (v : List Char) : List Char := '(' :: (attr.toList ++ '=' :: (v ++ [')']))

section Items

variable {attr : String} (hattr : Word attr.toList) (v : String)
include hattr

theorem reads_equal {w : List Char} (h : unescape w = some v.toList) :
    Reads (itemText attr w) (.equal attr v) := by
  refine .item hattr fun rest => ?_
  rw [readItem_equal hattr rest h, String.ofList_toList, String.ofList_toList]

theorem reads_escaped : Reads (itemText attr (escapeLdapFilterValue v).toList) (.equal attr v) :=
  reads_equal hattr v (unescape_escaped v)

theorem reads_initial :
    Reads (itemText attr ((escapeLdapFilterValue v).toList ++ ['*'])) (initialOf attr v) := by
  refine .item hattr fun rest => ?_
  have hread := readItem_initial hattr rest (unescape_escaped v)
  rw [String.ofList_toList, String.ofList_toList] at hread
  rw [List.append_assoc, List.singleton_append, hread]

end Items

section Texts

variable {s a b c : List Char} {f g h : Filter}

theorem reads_cons {ps : List (List Char × Filter)} (ha : Reads a f) (hps : ∀ p ∈ ps, Reads p.1 p.2) :
    ∀ p ∈ (a, f) :: ps, Reads p.1 p.2 := by
  intro p hp
  rcases List.mem_cons.mp hp with rfl | hp
  · exact ha
  · exact hps p hp

theorem reads_nil : ∀ p ∈ ([] : List (List Char × Filter)), Reads p.1 p.2 :=
  fun _ hp => absurd hp List.not_mem_nil

/-- Two filters that both have to match. -/
theorem reads_and (ha : Reads a f) (hb : Reads b g) :
    Reads ('(' :: '&' :: (a ++ (b ++ [')']))) (.and [f, g]) := by
  have hand := Reads.and (reads_cons ha (reads_cons hb reads_nil)) (List.cons_ne_nil _ _)
  rwa [List.flatMap_cons, List.flatMap_cons, List.flatMap_nil, List.append_nil, List.append_assoc] at hand

theorem reads_or (ha : Reads a f) (hb : Reads b g) :
    Reads ('(' :: '|' :: (a ++ (b ++ [')']))) (.or [f, g]) := by
  have hor := Reads.or (reads_cons ha (reads_cons hb reads_nil)) (List.cons_ne_nil _ _)
  rwa [List.flatMap_cons, List.flatMap_cons, List.flatMap_nil, List.append_nil, List.append_assoc] at hor

theorem reads_or₃ (ha : Reads a f) (hb : Reads b g) (hc : Reads c h) :
    Reads ('(' :: '|' :: (a ++ (b ++ (c ++ [')'])))) (.or [f, g, h]) := by
  have hor := Reads.or (reads_cons ha (reads_cons hb (reads_cons hc reads_nil))) (List.cons_ne_nil _ _)
  rwa [List.flatMap_cons, List.flatMap_cons, List.flatMap_cons, List.flatMap_nil, List.append_nil,
    List.append_assoc, List.append_assoc] at hor

end Texts

/-- A word of the program's own. -/
theorem reads_class {name : String} (hclean : Clean name.toList) :
    Reads (itemText "objectClass" name.toList) (.equal "objectClass" name) :=
  reads_equal (by decide) name (unescape_of_clean hclean)

section Caller

variable (v : String)

theorem parse_userFilter : parse (userFilter v) = some (.or [.equal "uid" v, .equal "mail" v]) := by
  have hor := reads_or (@reads_escaped "uid" (by decide) v)
    (@reads_escaped "mail" (by decide) v)
  have htext : (userFilter v).toList =
      '(' :: '|' :: (itemText "uid" (escapeLdapFilterValue v).toList ++
        (itemText "mail" (escapeLdapFilterValue v).toList ++ [')'])) := by simp [userFilter, itemText]
  exact parse_of_reads htext hor

theorem parse_uidFilter : parse (uidFilter v) = some (.equal "uid" v) := by
  have huid := @reads_escaped "uid" (by decide) v
  have htext : (uidFilter v).toList = itemText "uid" (escapeLdapFilterValue v).toList := by
    simp [uidFilter, itemText]
  exact parse_of_reads htext huid

theorem parse_mailFilter : parse (mailFilter v) = some (.equal "mail" v) := by
  have hmail := @reads_escaped "mail" (by decide) v
  have htext : (mailFilter v).toList = itemText "mail" (escapeLdapFilterValue v).toList := by
    simp [mailFilter, itemText]
  exact parse_of_reads htext hmail

theorem parse_searchUsersFilter :
    parse (searchUsersFilter v) =
      some (.and [.equal "objectClass" "person",
        .or [initialOf "uid" v, initialOf "cn" v, initialOf "mail" v]]) := by
  have hperson := @reads_class "person" (by decide)
  have hor := reads_or₃ (@reads_initial "uid" (by decide) v)
    (@reads_initial "cn" (by decide) v) (@reads_initial "mail" (by decide) v)
  have hand := reads_and hperson hor
  have htext : (searchUsersFilter v).toList =
      '(' :: '&' :: (itemText "objectClass" "person".toList ++
        (('(' :: '|' :: (itemText "uid" ((escapeLdapFilterValue v).toList ++ ['*']) ++
          (itemText "cn" ((escapeLdapFilterValue v).toList ++ ['*']) ++
            (itemText "mail" ((escapeLdapFilterValue v).toList ++ ['*']) ++ [')'])))) ++ [')'])) := by
    unfold searchUsersFilter
    generalize escapeLdapFilterValue v = e
    simp only [itemText, String.toList_append, String.reduceToList, List.cons_append, List.nil_append,
      List.append_assoc]
  exact parse_of_reads htext hand

theorem parse_searchRolesFilter :
    parse (searchRolesFilter v) =
      some (.and [.equal "objectClass" "groupOfNames", initialOf "cn" v]) := by
  have hand := reads_and (@reads_class "groupOfNames" (by decide))
    (@reads_initial "cn" (by decide) v)
  have htext : (searchRolesFilter v).toList =
      '(' :: '&' :: (itemText "objectClass" "groupOfNames".toList ++
        (itemText "cn" ((escapeLdapFilterValue v).toList ++ ['*']) ++ [')'])) := by
    unfold searchRolesFilter
    generalize escapeLdapFilterValue v = e
    simp only [itemText, String.toList_append, String.reduceToList, List.cons_append, List.nil_append,
      List.append_assoc]
  exact parse_of_reads htext hand

/-- **A caller cannot alter a filter.** Whatever is given as a login name, an email
address or the beginning of a name, the filter built with it reads as the
intended one, about exactly that value. -/
theorem caller_filters :
    parse (userFilter v) = some (.or [.equal "uid" v, .equal "mail" v]) ∧
      parse (uidFilter v) = some (.equal "uid" v) ∧
      parse (mailFilter v) = some (.equal "mail" v) ∧
      parse (searchUsersFilter v) =
        some (.and [.equal "objectClass" "person",
          .or [initialOf "uid" v, initialOf "cn" v, initialOf "mail" v]]) ∧
      parse (searchRolesFilter v) =
        some (.and [.equal "objectClass" "groupOfNames", initialOf "cn" v]) ∧
      unescape (escapeLdapFilterValue v).toList = some v.toList ∧
      ∀ c ∈ (escapeLdapFilterValue v).toList, c ∉ ['(', ')', '*', '\x00'] := by
  refine ⟨parse_userFilter v, parse_uidFilter v, parse_mailFilter v, parse_searchUsersFilter v,
    parse_searchRolesFilter v, unescape_escaped v, fun c hc hmem => ?_⟩
  have hspecial : ∀ c ∈ ['(', ')', '*', '\x00'], c ∈ special ∧ c ≠ '\\' := by decide
  exact (hspecial c hmem).2 (escaped_clean v c hc (hspecial c hmem).1)

end Caller

/-! ### Filters about a user -/

/-- The filter of the groups of any kind that name a user. -/
def memberFilter (dn uid : String) : String :=
  "(|(member=" ++ dn ++ ")(uniqueMember=" ++ dn ++ ")(memberUid=" ++ uid ++ "))"

/-- The uid that `getTenantsForUser` takes from the DN, or what was logged in with. -/
def memberUid (username dn : String) : String := if uidFromDN dn == "" then username else uidFromDN dn

theorem getTenantsForUser_eq (L : LdapOptions) (S : LdapServer) (username : String) :
    getTenantsForUser L (some S) username =
      match S.searchOne L.userBase (userFilter username) with
      | none => []
      | some entry =>
        if entry.dn == "" then []
        else
          let found := (S.search L.tenantBase (memberFilter entry.dn (memberUid username entry.dn))).getD []
          (addRoles [] ((found.map L.tenantOf).filter (· != ""))).insertionSort (· ≤ ·) := rfl

theorem defaultTenantGroups_eq (L : LdapOptions) (S : LdapServer) (dn : String) :
    defaultTenantGroups L S dn =
      ((S.search ("ou=default,ou=tenants," ++ L.ldapDomain) (memberFilter dn (usernameOfDN dn))).getD []).map
        fun e => (e, dnRoles e ++ attributeRoles e) := rfl

theorem uidFromDN_subset (dn : String) : (uidFromDN dn).toList ⊆ dn.toList := by
  unfold uidFromDN
  split
  · exact List.nil_subset _
  · rw [upTo, String.toList_ofList, String.toList_ofList]
    exact fun c hc => List.mem_of_mem_drop ((List.takeWhile_prefix _).subset hc)

theorem usernameOfDN_subset (dn : String) : (usernameOfDN dn).toList ⊆ dn.toList := by
  unfold usernameOfDN
  split
  · exact List.Subset.refl _
  · rw [upTo, String.toList_ofList, String.toList_ofList]
    exact fun c hc => List.mem_of_mem_drop ((List.takeWhile_prefix _).subset hc)

/-- Equalities that read as the texts they were written with. -/
theorem clean_of_many {items : List (String × String)} {k n : ℕ} {rest r : List Char}
    (hattr : ∀ attr ∈ items.map (·.1), Word attr.toList)
    (h : many (readFilter k) n (items.flatMap (fun i => itemText i.1 i.2.toList) ++ rest) =
      some (items.map fun i => .equal i.1 i.2, r)) : ∀ i ∈ items, Clean i.2.toList := by
  induction items generalizing n with
  | nil => exact fun i hi => absurd hi List.not_mem_nil
  | cons i items ih =>
    have htext : (i :: items).flatMap (fun i => itemText i.1 i.2.toList) ++ rest =
        '(' :: (i.1.toList ++ '=' :: (i.2.toList ++ ')' ::
          (items.flatMap (fun i => itemText i.1 i.2.toList) ++ rest))) := by simp [itemText]
    rw [htext, List.map_cons] at h
    obtain ⟨t, hread, hmore⟩ := of_many_cons h
    have hequal : (Filter.equal i.1 i.2) = .equal (String.ofList i.1.toList) (String.ofList i.2.toList) := by
      rw [String.ofList_toList, String.ofList_toList]
    rw [hequal] at hread
    obtain ⟨hclean, rfl⟩ := of_readFilter_equal (hattr i.1 List.mem_cons_self) hread
    intro j hj
    rcases List.mem_cons.mp hj with rfl | hj
    · exact hclean
    · have hne : items ≠ [] := List.ne_nil_of_mem hj
      obtain ⟨m, hmany⟩ := hmore (by simpa using hne)
      exact ih (fun attr hmem => hattr attr (List.mem_cons_of_mem i.1 hmem)) hmany j hj

section User

variable {dn uid : String}

theorem reads_clean {attr : String} (hattr : Word attr.toList) (h : Clean dn.toList) :
    Reads (itemText attr dn.toList) (.equal attr dn) := reads_equal hattr dn (unescape_of_clean h)

theorem parse_groupOfNamesFilter_iff :
    parse (groupOfNamesFilter dn) =
        some (.and [.equal "objectClass" "groupOfNames", .equal "member" dn]) ↔ Clean dn.toList := by
  have htext : (groupOfNamesFilter dn).toList =
      '(' :: '&' :: (itemText "objectClass" "groupOfNames".toList ++
        (itemText "member" dn.toList ++ [')'])) := by
    unfold groupOfNamesFilter
    simp only [itemText, String.toList_append, String.reduceToList, List.cons_append, List.nil_append,
      List.append_assoc]
  constructor
  · intro h
    obtain ⟨n, hread⟩ := of_parse h
    rw [htext] at hread
    obtain ⟨m, hmany⟩ := of_readFilter_and hread
    have hitems : many (readFilter m) m
        ([("objectClass", "groupOfNames"), ("member", dn)].flatMap (fun i => itemText i.1 i.2.toList) ++ [')']) =
          some ([("objectClass", "groupOfNames"), ("member", dn)].map fun i => .equal i.1 i.2, [')']) := by
      simpa only [List.flatMap_cons, List.flatMap_nil, List.append_nil, List.append_assoc, List.map_cons,
        List.map_nil] using hmany
    have hwords : ∀ attr ∈ ["objectClass", "member"], Word attr.toList := by decide
    exact @clean_of_many [("objectClass", "groupOfNames"), ("member", dn)] _ _ _ _ hwords hitems
      ("member", dn) (by simp)
  · intro h
    have hand := reads_and (@reads_class "groupOfNames" (by decide))
      (@reads_clean dn "member" (by decide) h)
    exact parse_of_reads htext hand

theorem parse_memberFilter_iff :
    parse (memberFilter dn uid) =
        some (.or [.equal "member" dn, .equal "uniqueMember" dn, .equal "memberUid" uid]) ↔
      Clean dn.toList ∧ Clean uid.toList := by
  have htext : (memberFilter dn uid).toList =
      '(' :: '|' :: (itemText "member" dn.toList ++ (itemText "uniqueMember" dn.toList ++
        (itemText "memberUid" uid.toList ++ [')']))) := by
    unfold memberFilter
    simp only [itemText, String.toList_append, String.reduceToList, List.cons_append, List.nil_append,
      List.append_assoc]
  constructor
  · intro h
    obtain ⟨n, hread⟩ := of_parse h
    rw [htext] at hread
    obtain ⟨m, hmany⟩ := of_readFilter_or hread
    have hitems : many (readFilter m) m
        ([("member", dn), ("uniqueMember", dn), ("memberUid", uid)].flatMap
          (fun i => itemText i.1 i.2.toList) ++ [')']) =
          some ([("member", dn), ("uniqueMember", dn), ("memberUid", uid)].map fun i => .equal i.1 i.2, [')']) := by
      simpa only [List.flatMap_cons, List.flatMap_nil, List.append_nil, List.append_assoc, List.map_cons,
        List.map_nil] using hmany
    have hwords : ∀ attr ∈ ["member", "uniqueMember", "memberUid"], Word attr.toList := by decide
    have hclean := @clean_of_many [("member", dn), ("uniqueMember", dn), ("memberUid", uid)] _ _ _ _
      hwords hitems
    exact ⟨hclean ("member", dn) (by simp), hclean ("memberUid", uid) (by simp)⟩
  · rintro ⟨hdn, huid⟩
    have hor := reads_or₃ (@reads_clean dn "member" (by decide) hdn)
      (@reads_clean dn "uniqueMember" (by decide) hdn) (@reads_clean uid "memberUid" (by decide) huid)
    exact parse_of_reads htext hor

end User

end HttpBridge
