/-
# JSON answers are read back

A client that parses a body of the proxy gets the document the body is meant to
be, with the very strings of the core, the directory, the configuration or the
request in their fields: `jsonEscape` and `jsonEscapeStatus` write a string as an
`Escaping`, and every text is put together from such strings.

Here are the two escapes and the answers of the core. What the proxy answers of
itself is in `FaithfulBodies`.
-/
import HttpBridge.JsonBodies

namespace HttpBridge

open Net JsonText

/-! ### The two escapes -/

theorem unicodeEscape_eq : ∀ n < 0x20, unicodeEscape n =
    ['\\', 'u', '0', '0', hexDigits.getD (n / 16 % 16) '0', hexDigits.getD (n % 16) '0'] := by
  decide

theorem escapedChar_eq (c : Char) : escapedChar c = escapedStatusChar c := by
  unfold escapedChar escapedStatusChar
  by_cases hctl : c.toNat < 0x20
  · rw [if_pos hctl, if_pos hctl, unicodeEscape_eq c.toNat hctl]
  · rw [if_neg hctl, if_neg hctl]

/-- The two escape functions agree. -/
theorem jsonEscape_eq (s : String) : jsonEscape s = jsonEscapeStatus s := by
  rw [jsonEscape, jsonEscapeStatus, funext escapedChar_eq]

theorem hexValue_hexDigits : ∀ i < 16, hexValue (hexDigits.getD i '0') = some i := by
  decide

theorem readsChar_escaped (c : Char) : ReadsChar (escapedStatusChar c) c := by
  unfold escapedStatusChar
  by_cases hquote : c = '"'
  · rw [if_pos hquote, hquote]
    exact readsChar_escape fun s => rfl
  by_cases hback : c = '\\'
  · rw [if_neg hquote, if_pos hback, hback]
    exact readsChar_escape fun s => rfl
  by_cases hn : c = '\n'
  · rw [if_neg hquote, if_neg hback, if_pos hn, hn]
    exact readsChar_escape fun s => rfl
  by_cases hr : c = '\r'
  · rw [if_neg hquote, if_neg hback, if_neg hn, if_pos hr, hr]
    exact readsChar_escape fun s => rfl
  by_cases ht : c = '\t'
  · rw [if_neg hquote, if_neg hback, if_neg hn, if_neg hr, if_pos ht, ht]
    exact readsChar_escape fun s => rfl
  rw [if_neg hquote, if_neg hback, if_neg hn, if_neg hr, if_neg ht]
  by_cases hctl : c.toNat < 0x20
  · rw [if_pos hctl]
    have hvalue : c.toNat / 16 % 16 * 16 + c.toNat % 16 = c.toNat := by omega
    refine readsChar_unicode (hexValue_hexDigits _ (by omega)) (hexValue_hexDigits _ (by omega)) ?_
      (by omega)
    rw [hvalue, Char.ofNat_toNat]
  · rw [if_neg hctl]
    exact readsChar_plain ⟨hquote, hback, by omega⟩

/-- How the proxy writes a string. -/
def escaping : Escaping where
  piece := escapedChar
  reads c := by
    rw [escapedChar_eq]
    exact readsChar_escaped c

theorem toList_jsonEscape (s : String) : (jsonEscape s).toList = escaping.text s.toList := by
  rw [jsonEscape, String.toList_ofList]
  rfl

/-- Decoding a string inverts the escape. -/
theorem readString_jsonEscape (s : String) (rest : List Char) :
    readString ((jsonEscape s).toList ++ '"' :: rest) = some (s.toList, rest) := by
  rw [toList_jsonEscape]
  exact escaping.readString_text s.toList rest

theorem readsAs_escaped (s : String) : ReadsAs ('"' :: (jsonEscape s).toList ++ ['"']) (.str s) := by
  rw [toList_jsonEscape]
  exact escaping.readsAs_quoted s

/-! ### Scalars -/

theorem readsAs_plain {s : String} (h : ∀ c ∈ s.toList, Plain c) :
    ReadsAs ('"' :: s.toList ++ ['"']) (.str s) := by
  have hread := ReadsAs.str (plain_readString h)
  rwa [String.ofList_toList] at hread

theorem toList_int (n : ℤ) :
    (toString n).toList = numberText (n < 0) (Nat.toDigits 10 n.natAbs) [] := by
  rw [numberText, if_pos rfl, List.append_nil]
  cases n with
  | ofNat n =>
    have hneg : ¬ Int.ofNat n < 0 := by simp
    simp only [hneg, decide_false]
    exact Nat.toList_repr
  | negSucc n =>
    have hneg : Int.negSucc n < 0 := Int.negSucc_lt_zero n
    simp only [hneg, decide_true]
    show ("-" ++ Nat.repr (n + 1)).toList = _
    rw [String.toList_append, Nat.toList_repr]
    rfl

theorem readsAs_int (n : ℤ) : ReadsAs (toString n).toList (intDoc n) := by
  have h := @ReadsAs.number (n < 0) _ [] (whole_toDigits n.natAbs) (by simp)
  rwa [← toList_int, String.ofList_toList] at h

theorem readsAs_bool (b : Bool) : ReadsAs (jsonBool b).toList (.bool b) := by
  have h := ReadsAs.bool b
  cases b <;> exact h

theorem readsAs_double {x : Double} (h : x.isFinite = true) : ReadsAs x.text.toList (.num x.text) := by
  cases x with
  | finite negative whole millionths =>
    have hdigits : ∀ d ∈ List.replicate (6 - (Nat.toDigits 10 millionths).length) '0' ++
        Nat.toDigits 10 millionths, d.isDigit = true := by
      intro d hd
      rcases List.mem_append.mp hd with hd | hd
      · rw [List.eq_of_mem_replicate hd]
        decide
      · exact (whole_toDigits millionths).digits d hd
    have hne : List.replicate (6 - (Nat.toDigits 10 millionths).length) '0' ++
        Nat.toDigits 10 millionths ≠ [] := by
      obtain ⟨d, s, hs, -⟩ := (whole_toDigits millionths).lead
      simp [hs]
    have htext : (Double.finite negative whole millionths).text.toList =
        numberText negative (Nat.toDigits 10 whole)
          (List.replicate (6 - (Nat.toDigits 10 millionths).length) '0' ++
            Nat.toDigits 10 millionths) := by
      rw [numberText, if_neg hne, Double.text]
      simp only [String.toList_append, String.toList_ofList]
      rw [show (toString whole).toList = Nat.toDigits 10 whole from Nat.toList_repr]
      cases negative <;> simp
    have hread := ReadsAs.number negative (whole_toDigits whole) hdigits
    rwa [← htext, String.ofList_toList] at hread
  | inf negative => cases h
  | nan negative => cases h

/-- What a token consists of needs no escape. -/
theorem SignedToken.plain (t : SignedToken) : ∀ c ∈ t.text.toList, Plain c := by
  intro c hc
  have hquote : Char.isAlphanum '"' = false := by decide
  have hback : Char.isAlphanum '\\' = false := by decide
  rcases t.encoded c hc with h | h
  · refine ⟨?_, ?_, ?_⟩
    · rintro rfl
      exact absurd h (by rw [hquote]; decide)
    · rintro rfl
      exact absurd h (by rw [hback]; decide)
    · have hcontrol : ∀ n < 0x20, (Char.ofNat n).isAlphanum = false := by decide
      by_contra hlt
      have hnot := hcontrol c.toNat (Nat.not_le.mp hlt)
      rw [Char.ofNat_toNat, h] at hnot
      cases hnot
  · simp only [List.mem_cons, List.not_mem_nil, or_false] at h
    rcases h with rfl | rfl | rfl <;> decide

/-! ### Members and lists -/

section Members

variable (k : String) (hk : ∀ c ∈ k.toList, Plain c)

include hk

theorem readsMember {t : List Char} {v : Json} (h : ReadsAs t v) : ReadsMember (k.toList, t) (k, v) :=
  ⟨plain_readString hk, h⟩

theorem strMember (s : String) :
    ReadsMember (k.toList, '"' :: (jsonEscape s).toList ++ ['"']) (k, .str s) :=
  readsMember k hk (readsAs_escaped s)

theorem plainMember {s : String} (h : ∀ c ∈ s.toList, Plain c) :
    ReadsMember (k.toList, '"' :: s.toList ++ ['"']) (k, .str s) :=
  readsMember k hk (readsAs_plain h)

theorem intMember (n : ℤ) : ReadsMember (k.toList, (toString n).toList) (k, intDoc n) :=
  readsMember k hk (readsAs_int n)

theorem boolMember (b : Bool) : ReadsMember (k.toList, (jsonBool b).toList) (k, .bool b) :=
  readsMember k hk (readsAs_bool b)

end Members

theorem toList_commaSeparated : ∀ ts : List String,
    (commaSeparated ts).toList = joined (ts.map String.toList)
  | [] => rfl
  | [t] => rfl
  | t :: u :: ts => by
    rw [commaSeparated, String.toList_append, String.toList_append, toList_commaSeparated (u :: ts),
      List.append_assoc]
    rfl

/-- The texts of a list, with commas between them, are read as the array. -/
theorem readsAs_list {α : Type} {l : List α} {text : α → String} {doc : α → Json}
    (h : ∀ x ∈ l, ReadsAs (text x).toList (doc x)) :
    ReadsAs ('[' :: (commaSeparated (l.map text)).toList ++ [']']) (.arr (l.map doc)) := by
  rw [toList_commaSeparated, List.map_map]
  refine .arr (List.forall₂_map_left_iff.mpr (List.forall₂_map_right_iff.mpr ?_))
  exact List.forall₂_same.mpr h

theorem readsAs_jsonArray (v : List String) : ReadsAs (jsonArray v).toList (stringsDoc v) := by
  have h : ∀ s ∈ v, ReadsAs ("\"" ++ jsonEscape s ++ "\"").toList (.str s) := by
    intro s _
    rw [String.toList_append, String.toList_append]
    exact readsAs_escaped s
  rw [jsonArray, String.toList_append, String.toList_append]
  exact readsAs_list h

/-- The key and the value of `fieldJson`. -/
def fieldText (f : String × String) : List Char × List Char :=
  ((jsonEscape f.1).toList, '"' :: (jsonEscape f.2).toList ++ ['"'])

theorem fieldMember (f : String × String) : ReadsMember (fieldText f) (fieldDoc f) := by
  have hname := readString_jsonEscape f.1
  have hvalue := readsAs_escaped f.2
  constructor <;> dsimp only [fieldText, fieldDoc]
  · exact hname
  · exact hvalue

theorem toList_fieldJson (f : String × String) : (fieldJson f).toList = memberText (fieldText f) := by
  simp only [fieldJson, fieldText, memberText, String.toList_append, String.reduceToList,
    List.append_assoc, List.cons_append, List.nil_append]

/-- Members whose values are strings. -/
theorem readsMembers_fields (fs : List (String × String)) :
    ReadsMembers (commaSeparated (fs.map fieldJson)).toList (fs.map fieldDoc) := by
  refine ⟨fs.map fieldText, ?_, ?_⟩
  · exact List.forall₂_map_left_iff.mpr (List.forall₂_map_right_iff.mpr
      (List.forall₂_same.mpr fun f _ => fieldMember f))
  · rw [toList_commaSeparated, List.map_map, List.map_map]
    exact congrArg joined (List.map_congr_left fun f _ => toList_fieldJson f)

/-! ### Answers of the core -/

theorem readsAs_error (fields : List (String × String)) :
    ReadsAs (errorJson fields).toList (.obj (fields.map fieldDoc)) := by
  unfold errorJson
  rw [String.toList_append, String.toList_append]
  exact (readsMembers_fields fields).obj

theorem readsAs_child (c : DirectoryEntry) : ReadsAs (childJson c).toList (childDoc c) := by
  have h := ReadsMembers.obj <|
    .cons (strMember "uid" (by decide) c.uid) <| .cons (strMember "name" (by decide) c.name) <|
    .cons (intMember "size" (by decide) c.size) <|
    .one (intMember "modified_at" (by decide) c.modifiedAt)
  unfold childJson childDoc
  simp only [String.toList_append, List.append_assoc]
  simp only [memberText, String.reduceToList, List.append_assoc, List.cons_append,
    List.nil_append] at h ⊢
  assumption

theorem FileType.plain (t : FileType) : ∀ c ∈ t.text.toList, Plain c := by
  cases t <;> decide

set_option maxRecDepth 1024 in
theorem readsAs_entry (e : DirectoryEntry) (children : Option (List DirectoryEntry)) :
    ReadsAs (entryJson e children).toList (entryDoc (e, children)) := by
  have hown := ReadsMembers.cons (strMember "uid" (by decide) e.uid) <|
    .cons (strMember "name" (by decide) e.name) <|
    .cons (plainMember "type" (by decide) e.type.plain) <|
    .cons (intMember "size" (by decide) e.size) <|
    .cons (intMember "version_count" (by decide) e.versionCount) <|
    .cons (intMember "rendition_count" (by decide) e.renditionCount) <|
    .cons (boolMember "has_renditions" (by decide) (0 < e.renditionCount)) <|
    .cons (boolMember "deleted" (by decide) e.deleted) <|
    .cons (intMember "created_at" (by decide) e.createdAt) <|
    .cons (intMember "modified_at" (by decide) e.modifiedAt) <|
    .cons (strMember "owner" (by decide) e.owner) <|
    .cons (strMember "created_by" (by decide) e.createdBy) <|
    .one (strMember "modified_by" (by decide) e.modifiedBy)
  unfold entryJson entryDoc
  cases children with
  | none =>
    have h := hown.obj
    simp only [String.toList_append, List.append_assoc]
    simp only [memberText, String.reduceToList, List.append_assoc, List.cons_append,
      List.nil_append] at h ⊢
    assumption
  | some cs =>
    have hchildren := readsAs_list (l := cs) fun c _ => readsAs_child c
    have h := (hown.concat (readsMember "children" (by decide) hchildren)).obj
    simp only [String.toList_append, List.append_assoc]
    simp only [memberText, String.reduceToList, List.append_assoc, List.cons_append,
      List.nil_append] at h ⊢
    assumption

theorem readsAs_listing (entries : List (DirectoryEntry × Option (List DirectoryEntry)))
    (complete : Option Bool) :
    ReadsAs (listingJson entries complete).toList (listingDoc entries complete) := by
  have hlist := readsAs_list (l := entries) fun e _ => readsAs_entry e.1 e.2
  have hentries := ReadsMembers.one (readsMember "entries" (by decide) hlist)
  unfold listingJson listingDoc
  cases complete with
  | none =>
    have h := hentries.obj
    simp only [String.toList_append, List.append_assoc]
    simp only [memberText, String.reduceToList, List.append_assoc, List.cons_append,
      List.nil_append] at h ⊢
    assumption
  | some b =>
    have h := (hentries.concat (boolMember "children_complete" (by decide) b)).obj
    simp only [String.toList_append, List.append_assoc]
    simp only [memberText, String.reduceToList, List.append_assoc, List.cons_append,
      List.nil_append] at h ⊢
    assumption

theorem readsAs_stat (i : FileInfo) : ReadsAs (statJson i).toList (statDoc i) := by
  have h := ReadsMembers.obj <|
    .cons (strMember "uid" (by decide) i.uid) <| .cons (strMember "name" (by decide) i.name) <|
    .cons (strMember "parent_uid" (by decide) i.parentUid) <|
    .cons (plainMember "type" (by decide) i.type.plain) <|
    .cons (intMember "size" (by decide) i.size) <| .cons (strMember "owner" (by decide) i.owner) <|
    .cons (strMember "version" (by decide) i.version) <|
    .cons (intMember "created_at" (by decide) i.createdAt) <|
    .cons (intMember "modified_at" (by decide) i.modifiedAt) <|
    .cons (intMember "rendition_count" (by decide) i.renditionCount) <|
    .one (boolMember "has_renditions" (by decide) (0 < i.renditionCount))
  unfold statJson statDoc
  simp only [String.toList_append, List.append_assoc]
  simp only [memberText, String.reduceToList, List.append_assoc, List.cons_append,
    List.nil_append] at h ⊢
  assumption

theorem readsAs_versionEntry (e : VersionEntry) :
    ReadsAs (versionEntryJson e).toList (versionEntryDoc e) := by
  have h := ReadsMembers.obj <|
    .cons (strMember "version" (by decide) e.versionTimestamp) <|
    .one (strMember "revised_by" (by decide) e.revisedBy)
  unfold versionEntryJson versionEntryDoc
  simp only [String.toList_append, List.append_assoc]
  simp only [memberText, String.reduceToList, List.append_assoc, List.cons_append,
    List.nil_append] at h ⊢
  assumption

theorem readsAs_versions (r : VersionList) :
    ReadsAs (versionsJson r).toList ((.obj [("versions", stringsDoc r.versions),
      ("entries", .arr (r.entries.map versionEntryDoc))])) := by
  have hentries := readsAs_list (l := r.entries) fun e _ => readsAs_versionEntry e
  have h := ReadsMembers.obj <|
    .cons (readsMember "versions" (by decide) (readsAs_jsonArray r.versions)) <|
    .one (readsMember "entries" (by decide) hentries)
  unfold versionsJson
  simp only [String.toList_append, List.append_assoc]
  simp only [memberText, String.reduceToList, List.append_assoc, List.cons_append,
    List.nil_append] at h ⊢
  assumption

theorem readsAs_erasureStarted (r : ErasureStarted) :
    ReadsAs (erasureStartedJson r).toList ((JsonBody.erasureStarted r).json) := by
  have hstate : ∀ c ∈ (if r.state = .complete then "complete" else "initiated").toList, Plain c := by
    split_ifs <;> decide
  have h := ReadsMembers.obj <|
    .cons (strMember "erasure_id" (by decide) r.erasureId) <|
    .cons (plainMember "state" (by decide) hstate) <|
    .cons (readsMember "awaiting" (by decide) (readsAs_jsonArray r.awaiting)) <|
    .one (readsMember "erasure_ids" (by decide) (readsAs_jsonArray r.erasureIds))
  unfold erasureStartedJson
  simp only [String.toList_append, List.append_assoc]
  simp only [memberText, String.reduceToList, List.append_assoc, List.cons_append,
    List.nil_append] at h ⊢
  assumption

theorem ErasureState.plain (s : ErasureState) : ∀ c ∈ s.text.toList, Plain c := by
  cases s <;> decide

theorem readsAs_ack (a : ErasureAck) : ReadsAs (ackJson a).toList (ackDoc a) := by
  have h := ReadsMembers.obj <|
    .cons (strMember "participant" (by decide) a.participant) <|
    .cons (intMember "acked_at" (by decide) a.ackedAt) <|
    .cons (boolMember "complied" (by decide) a.complied) <|
    .one (strMember "detail" (by decide) a.detail)
  unfold ackJson ackDoc
  simp only [String.toList_append, List.append_assoc]
  simp only [memberText, String.reduceToList, List.append_assoc, List.cons_append,
    List.nil_append] at h ⊢
  assumption

theorem readsAs_erasureStatus (erasureId : String) (r : ErasureRecord) :
    ReadsAs (erasureStatusJson erasureId r).toList (erasureStatusDoc erasureId r) := by
  have hacks := readsAs_list (l := r.acks) fun a _ => readsAs_ack a
  have h := ReadsMembers.obj <|
    .cons (strMember "erasure_id" (by decide) erasureId) <|
    .cons (strMember "uid" (by decide) r.uid) <|
    .cons (plainMember "state" (by decide) r.state.plain) <|
    .cons (strMember "actor" (by decide) r.actor) <|
    .cons (strMember "reason" (by decide) r.reason) <|
    .cons (intMember "initiated_at" (by decide) r.initiatedAt) <|
    .cons (intMember "completed_at" (by decide) r.completedAt) <|
    .cons (readsMember "acks" (by decide) hacks) <|
    .one (readsMember "awaiting" (by decide) (readsAs_jsonArray r.awaiting))
  unfold erasureStatusJson erasureStatusDoc
  simp only [String.toList_append, List.append_assoc]
  simp only [memberText, String.reduceToList, List.append_assoc, List.cons_append,
    List.nil_append] at h ⊢
  assumption

theorem readsAs_metadata (metadata : List (String × String)) :
    ReadsAs (metadataJson metadata).toList (.obj [("metadata", .obj (metadata.map fieldDoc))]) := by
  have hfields := (readsMembers_fields metadata).obj
  have h := ReadsMembers.obj <|
    .one (readsMember "metadata" (by decide) hfields)
  unfold metadataJson
  simp only [String.toList_append, List.append_assoc]
  simp only [memberText, String.reduceToList, List.append_assoc, List.cons_append,
    List.nil_append] at h ⊢
  assumption

theorem readsAs_acl (e : AclEntryMessage) : ReadsAs (aclJson e).toList (aclDoc e) := by
  have h := ReadsMembers.obj <|
    .cons (strMember "principal" (by decide) e.principal) <|
    .cons (intMember "type" (by decide) e.type) <|
    .cons (intMember "permissions" (by decide) e.permissions) <|
    .one (intMember "effect" (by decide) e.effect)
  unfold aclJson aclDoc
  simp only [String.toList_append, List.append_assoc]
  simp only [memberText, String.reduceToList, List.append_assoc, List.cons_append,
    List.nil_append] at h ⊢
  assumption

theorem readsAs_acls (acls : List AclEntryMessage) :
    ReadsAs (aclsJson acls).toList (.obj [("acls", .arr (acls.map aclDoc))]) := by
  have hacls := readsAs_list (l := acls) fun e _ => readsAs_acl e
  have h := ReadsMembers.obj <|
    .one (readsMember "acls" (by decide) hacls)
  unfold aclsJson
  simp only [String.toList_append, List.append_assoc]
  simp only [memberText, String.reduceToList, List.append_assoc, List.cons_append,
    List.nil_append] at h ⊢
  assumption

theorem readsAs_uid (uid : String) : ReadsAs (uidJson uid).toList (.obj [("uid", .str uid)]) := by
  have h := ReadsMembers.obj <|
    .one (strMember "uid" (by decide) uid)
  unfold uidJson
  simp only [String.toList_append, List.append_assoc]
  simp only [memberText, String.reduceToList, List.append_assoc, List.cons_append,
    List.nil_append] at h ⊢
  assumption

theorem readsAs_restored (version : String) :
    ReadsAs (restoredJson version).toList (.obj [("restored_version", .str version)]) := by
  have h := ReadsMembers.obj <|
    .one (strMember "restored_version" (by decide) version)
  unfold restoredJson
  simp only [String.toList_append, List.append_assoc]
  simp only [memberText, String.reduceToList, List.append_assoc, List.cons_append,
    List.nil_append] at h ⊢
  assumption

theorem readsAs_value (value : String) :
    ReadsAs (valueJson value).toList (.obj [("value", .str value)]) := by
  have h := ReadsMembers.obj <|
    .one (strMember "value" (by decide) value)
  unfold valueJson
  simp only [String.toList_append, List.append_assoc]
  simp only [memberText, String.reduceToList, List.append_assoc, List.cons_append,
    List.nil_append] at h ⊢
  assumption

theorem readsAs_role (role : String) :
    ReadsAs (roleJson role).toList (.obj [("role", .str role)]) := by
  have h := ReadsMembers.obj <|
    .one (strMember "role" (by decide) role)
  unfold roleJson
  simp only [String.toList_append, List.append_assoc]
  simp only [memberText, String.reduceToList, List.append_assoc, List.cons_append,
    List.nil_append] at h ⊢
  assumption

theorem readsAs_exists (b : Bool) :
    ReadsAs (existsJson b).toList (.obj [("exists", .bool b)]) := by
  have h := ReadsMembers.obj <|
    .one (boolMember "exists" (by decide) b)
  unfold existsJson
  simp only [String.toList_append, List.append_assoc]
  simp only [memberText, String.reduceToList, List.cons_append,
    List.nil_append] at h ⊢
  assumption

theorem readsAs_hasPermission (b : Bool) :
    ReadsAs (hasPermissionJson b).toList (.obj [("has_permission", .bool b)]) := by
  have h := ReadsMembers.obj <|
    .one (boolMember "has_permission" (by decide) b)
  unfold hasPermissionJson
  simp only [String.toList_append, List.append_assoc]
  simp only [memberText, String.reduceToList, List.cons_append,
    List.nil_append] at h ⊢
  assumption

theorem readsAs_roles (v : List String) :
    ReadsAs (rolesJson v).toList (.obj [("roles", stringsDoc v)]) := by
  have h := ReadsMembers.obj <|
    .one (readsMember "roles" (by decide) (readsAs_jsonArray v))
  unfold rolesJson
  simp only [String.toList_append, List.append_assoc]
  simp only [memberText, String.reduceToList, List.cons_append,
    List.nil_append] at h ⊢
  assumption

theorem readsAs_users (v : List String) :
    ReadsAs (usersJson v).toList (.obj [("users", stringsDoc v)]) := by
  have h := ReadsMembers.obj <|
    .one (readsMember "users" (by decide) (readsAs_jsonArray v))
  unfold usersJson
  simp only [String.toList_append, List.append_assoc]
  simp only [memberText, String.reduceToList, List.cons_append,
    List.nil_append] at h ⊢
  assumption

theorem readsAs_principals (users roles claims : List String) :
    ReadsAs (principalsJson users roles claims).toList (.obj [("users", stringsDoc users),
      ("roles", stringsDoc roles), ("claims", stringsDoc claims)]) := by
  have h := ReadsMembers.obj <|
    .cons (readsMember "users" (by decide) (readsAs_jsonArray users)) <|
    .cons (readsMember "roles" (by decide) (readsAs_jsonArray roles)) <|
    .one (readsMember "claims" (by decide) (readsAs_jsonArray claims))
  unfold principalsJson
  simp only [String.toList_append, List.append_assoc]
  simp only [memberText, String.reduceToList, List.append_assoc, List.cons_append,
    List.nil_append] at h ⊢
  assumption

end HttpBridge
