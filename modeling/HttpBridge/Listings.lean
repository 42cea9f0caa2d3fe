/-
# Listings with children

A listing may carry, for every entry that has children, the files among them
(`entriesJson`). Each is one more call to the core, so a budget bounds them, and
`children_complete` says whether it lasted.

A call that fails is not told from a file without children: the entry is listed
with none, and the listing is complete all the same. So what a complete listing
says of the children is what the core holds exactly if every call that failed
was for an entry whose children are directories, if any (`listing_honest_iff`).
-/
import HttpBridge.Handlers

namespace HttpBridge
namespace Handlers

open Interact

section Listings
variable {id : AuthIdentity}

/-- The lookup of an entry's children, and the answer to it. -/
def lookup (id : AuthIdentity) (uid : String) (r : CoreReply (List DirectoryEntry)) :
    Event ServerAns :=
  ⟨.inr (.core (.listDirectory uid) (fillAuth id)), r⟩

/-- The children that are no directories. -/
def files (children : List DirectoryEntry) : List DirectoryEntry :=
  children.filter (·.type ≠ .directory)

/-- How many entries have children. -/
def parents (es : List DirectoryEntry) : ℕ := es.countP fun e => 0 < e.renditionCount

/-- Every entry with children carries the files that the core holds for it. -/
def Honest (core : String → List DirectoryEntry)
    (found : List (DirectoryEntry × Option (List DirectoryEntry))) : Prop :=
  ∀ p ∈ found, 0 < p.1.renditionCount → p.2 = some (files (core p.1.uid))

/-- A lookup that succeeds gives what the core holds. -/
def Faithful (core : String → List DirectoryEntry) (T : List (Event ServerAns)) : Prop :=
  ∀ id uid r, lookup id uid r ∈ T → r.success = true → r.value = core uid

/-- A lookup fails only where there is no file to be found. -/
def FailsOnEmpty (core : String → List DirectoryEntry) (T : List (Event ServerAns)) : Prop :=
  ∀ id uid r, lookup id uid r ∈ T → r.success = false → files (core uid) = []

theorem lookup_inj {id' : AuthIdentity} {uid uid' : String} {r r' : CoreReply (List DirectoryEntry)}
    (h : lookup id uid r = lookup id' uid' r') : uid = uid' ∧ r = r' := by
  obtain ⟨hop, hans⟩ := Event.mk.inj h
  simp only [Sum.inr.injEq, ResourceOp.core.injEq, CoreRequest.listDirectory.injEq] at hop
  exact ⟨hop.1, eq_of_heq hans⟩

theorem childrenOf_yields {uid : String} {T : List (Event ServerAns)} {c : List DirectoryEntry}
    (h : (childrenOf id uid).Yields T c) :
    ∃ r, T = [lookup id uid r] ∧ c = if r.success then files r.value else [] := by
  obtain ⟨r, T', rfl, hret⟩ := (Prog.yields_perform_bind _ _ _ _).mp h
  obtain ⟨rfl, rfl⟩ := (Prog.ret_yields _ _ _).mp hret
  exact ⟨r, rfl, rfl⟩

/-- **What one entry adds.** It is listed alone if it has no children, with the
answer to one lookup while the budget lasts, and alone afterwards. -/
theorem withChildren_yields_cons {budget : ℤ} {e : DirectoryEntry} {es : List DirectoryEntry}
    {T : List (Event ServerAns)} {out : List (DirectoryEntry × Option (List DirectoryEntry)) × Bool}
    (h : (withChildren id budget (e :: es)).Yields T out) :
    (e.renditionCount ≤ 0 ∧ ∃ rest, (withChildren id budget es).Yields T rest ∧
        out = ((e, none) :: rest.1, rest.2)) ∨
      (0 < e.renditionCount ∧ 0 < budget ∧ ∃ r T' rest, T = lookup id e.uid r :: T' ∧
        (withChildren id (budget - 1) es).Yields T' rest ∧
        out = ((e, some (if r.success then files r.value else [])) :: rest.1, rest.2)) ∨
      (0 < e.renditionCount ∧ budget ≤ 0 ∧ ∃ rest, (withChildren id budget es).Yields T rest ∧
        out = ((e, none) :: rest.1, true)) := by
  unfold withChildren at h
  split_ifs at h with hcount hbudget
  · obtain ⟨rest, hrest, hout⟩ := (Prog.yields_bind_ret _ _ _ _).mp h
    exact .inl ⟨hcount, rest, hrest, hout⟩
  · obtain ⟨c, T₁, T₂, rfl, hc, h⟩ := (Prog.yields_bind _ _ _ _).mp h
    obtain ⟨r, rfl, rfl⟩ := childrenOf_yields hc
    obtain ⟨rest, hrest, hout⟩ := (Prog.yields_bind_ret _ _ _ _).mp h
    exact .inr (.inl ⟨not_le.mp hcount, hbudget, r, T₂, rest, rfl, hrest, hout⟩)
  · obtain ⟨rest, hrest, hout⟩ := (Prog.yields_bind_ret _ _ _ _).mp h
    exact .inr (.inr ⟨not_le.mp hcount, not_lt.mp hbudget, rest, hrest, hout⟩)

/-- The loop lists every entry once, in order, and makes no more lookups than
the budget allows, each for an entry with children. -/
theorem withChildren_lists {budget : ℤ} {es : List DirectoryEntry} {T : List (Event ServerAns)}
    {out : List (DirectoryEntry × Option (List DirectoryEntry)) × Bool}
    (h : (withChildren id budget es).Yields T out) :
    out.1.map Prod.fst = es ∧ T.length ≤ budget.toNat ∧
      ∀ e ∈ T, ∃ d ∈ es, 0 < d.renditionCount ∧ ∃ r, e = lookup id d.uid r := by
  induction es generalizing budget T out with
  | nil =>
    obtain ⟨rfl, rfl⟩ := (Prog.ret_yields _ _ _).mp h
    exact ⟨rfl, Nat.zero_le _, fun e he => absurd he List.not_mem_nil⟩
  | cons d es ih =>
    have hlater : ∀ {e : Event ServerAns},
        (∃ d' ∈ es, 0 < d'.renditionCount ∧ ∃ r, e = lookup id d'.uid r) →
        ∃ d' ∈ d :: es, 0 < d'.renditionCount ∧ ∃ r, e = lookup id d'.uid r := by
      rintro e ⟨d', hd', hrest⟩
      exact ⟨d', List.mem_cons_of_mem d hd', hrest⟩
    rcases withChildren_yields_cons h with ⟨-, rest, hrest, rfl⟩ |
      ⟨hcount, hbudget, r, T', rest, rfl, hrest, rfl⟩ | ⟨-, -, rest, hrest, rfl⟩
    · obtain ⟨hes, hlength, hlookups⟩ := ih hrest
      exact ⟨congrArg (d :: ·) hes, hlength, fun e he => hlater (hlookups e he)⟩
    · obtain ⟨hes, hlength, hlookups⟩ := ih hrest
      refine ⟨congrArg (d :: ·) hes, ?_, fun e he => ?_⟩
      · rw [List.length_cons]
        omega
      · rcases List.mem_cons.mp he with rfl | he
        · exact ⟨d, List.mem_cons_self, hcount, r, rfl⟩
        · exact hlater (hlookups e he)
    · obtain ⟨hes, hlength, hlookups⟩ := ih hrest
      exact ⟨congrArg (d :: ·) hes, hlength, fun e he => hlater (hlookups e he)⟩

/-- The flag is raised exactly if the budget does not last. -/
theorem withChildren_truncated {budget : ℤ} {es : List DirectoryEntry} {T : List (Event ServerAns)}
    {out : List (DirectoryEntry × Option (List DirectoryEntry)) × Bool}
    (h : (withChildren id budget es).Yields T out) :
    out.2 = true ↔ budget.toNat < parents es := by
  induction es generalizing budget T out with
  | nil =>
    obtain ⟨rfl, rfl⟩ := (Prog.ret_yields _ _ _).mp h
    simp [parents]
  | cons d es ih =>
    rcases withChildren_yields_cons h with ⟨hcount, rest, hrest, rfl⟩ |
      ⟨hcount, hbudget, r, T', rest, rfl, hrest, rfl⟩ | ⟨hcount, hbudget, rest, hrest, rfl⟩
    · have hparents : parents (d :: es) = parents es := by
        rw [parents, List.countP_cons_of_neg (by simpa using hcount), parents]
      have hsame := ih hrest
      rwa [hparents]
    · have hparents : parents (d :: es) = parents es + 1 := by
        rw [parents, List.countP_cons_of_pos (by simpa using hcount), parents]
      rw [hparents, ih hrest]
      omega
    · have hparents : parents (d :: es) = parents es + 1 := by
        rw [parents, List.countP_cons_of_pos (by simpa using hcount), parents]
      rw [hparents]
      exact iff_of_true rfl (by omega)

section Children
variable {core : String → List DirectoryEntry} {T : List (Event ServerAns)}
  {p : DirectoryEntry × Option (List DirectoryEntry)}
  {found : List (DirectoryEntry × Option (List DirectoryEntry))}

theorem honest_cons : Honest core (p :: found) ↔
    (0 < p.1.renditionCount → p.2 = some (files (core p.1.uid))) ∧ Honest core found :=
  List.forall_mem_cons

theorem faithful_cons {uid : String} {r : CoreReply (List DirectoryEntry)}
    (h : Faithful core (lookup id uid r :: T)) :
    (r.success = true → r.value = core uid) ∧ Faithful core T :=
  ⟨h id uid r List.mem_cons_self, fun id' uid' r' hr' => h id' uid' r' (List.mem_cons_of_mem _ hr')⟩

theorem failsOnEmpty_cons {uid : String} {r : CoreReply (List DirectoryEntry)} :
    FailsOnEmpty core (lookup id uid r :: T) ↔
      (r.success = false → files (core uid) = []) ∧ FailsOnEmpty core T := by
  constructor
  · intro h
    exact ⟨h id uid r List.mem_cons_self,
      fun id' uid' r' hr' => h id' uid' r' (List.mem_cons_of_mem _ hr')⟩
  · rintro ⟨hhead, htail⟩ id' uid' r' hr'
    rcases List.mem_cons.mp hr' with heq | hr'
    · obtain ⟨rfl, rfl⟩ := lookup_inj heq
      exact hhead
    · exact htail id' uid' r' hr'

/-- What one lookup says is what the core holds exactly if it succeeded, or
there was no file. -/
theorem answer_eq_iff {uid : String} {r : CoreReply (List DirectoryEntry)}
    (h : r.success = true → r.value = core uid) :
    some (if r.success then files r.value else []) = some (files (core uid)) ↔
      (r.success = false → files (core uid) = []) := by
  cases hr : r.success with
  | true => simp [h hr]
  | false =>
    constructor
    · intro heq _
      exact (Option.some.inj heq).symm
    · intro hempty
      rw [hempty rfl]
      rfl

/-- Where the budget lasts, the entries are honest exactly if no lookup failed
with a file to be found. -/
theorem honest_iff {budget : ℤ} {es : List DirectoryEntry}
    {out : List (DirectoryEntry × Option (List DirectoryEntry)) × Bool}
    (h : (withChildren id budget es).Yields T out) (hcore : Faithful core T)
    (hlasts : parents es ≤ budget.toNat) : Honest core out.1 ↔ FailsOnEmpty core T := by
  induction es generalizing budget T out with
  | nil =>
    obtain ⟨rfl, rfl⟩ := (Prog.ret_yields _ _ _).mp h
    exact iff_of_true (fun p hp => absurd hp List.not_mem_nil)
      (fun id uid r hr => absurd hr List.not_mem_nil)
  | cons d es ih =>
    rcases withChildren_yields_cons h with ⟨hcount, rest, hrest, rfl⟩ |
      ⟨hcount, hbudget, r, T', rest, rfl, hrest, rfl⟩ | ⟨hcount, hbudget, rest, hrest, rfl⟩
    · rw [parents, List.countP_cons_of_neg (by simpa using hcount)] at hlasts
      rw [honest_cons, ih hrest hcore hlasts, and_iff_right]
      exact fun hpos => absurd hpos (not_lt.mpr hcount)
    · rw [parents, List.countP_cons_of_pos (by simpa using hcount), ← parents] at hlasts
      obtain ⟨hvalue, hcore'⟩ := faithful_cons hcore
      rw [honest_cons, failsOnEmpty_cons, ih hrest hcore' (by omega), ← answer_eq_iff hvalue]
      exact and_congr_left' (forall_prop_of_true hcount)
    · rw [parents, List.countP_cons_of_pos (by simpa using hcount)] at hlasts
      omega

end Children

/-- **How honest a listing is.** It lists every entry once, in the core's order,
with at most `limit` lookups. If it says that the children are complete, they are
what the core holds, unless a lookup failed for an entry that has files, within
the limit. -/
theorem listing_honest_iff {limit : ℤ} {children : Bool} {es : List DirectoryEntry}
    {T : List (Event ServerAns)} {reply : Reply} (core : String → List DirectoryEntry)
    (hcore : Faithful core T) (h : (entries id limit children es).Yields T reply) :
    ∃ found complete, reply = .json 200 (.listing found complete) ∧ found.map Prod.fst = es ∧
      T.length ≤ limit.toNat ∧
      (∀ e ∈ T, ∃ d ∈ es, 0 < d.renditionCount ∧ ∃ r, e = lookup id d.uid r) ∧
      ((complete = some true → Honest core found) ↔
        children = false ∨ limit.toNat < parents es ∨ FailsOnEmpty core T) := by
  unfold entries at h
  cases children with
  | false =>
    obtain ⟨rfl, rfl⟩ := (Prog.ret_yields _ _ _).mp h
    refine ⟨_, _, rfl, by simp [Function.comp_def], Nat.zero_le _,
      fun e he => absurd he List.not_mem_nil, ?_⟩
    exact iff_of_true (fun hcomplete => by cases hcomplete) (.inl rfl)
  | true =>
    obtain ⟨out, hout, rfl⟩ := (Prog.yields_bind_ret _ _ _ _).mp h
    obtain ⟨hes, hlength, hlookups⟩ := withChildren_lists hout
    have htruncated := withChildren_truncated hout
    refine ⟨out.1, some !out.2, rfl, hes, hlength, hlookups, ?_⟩
    by_cases hlasts : parents es ≤ limit.toNat
    · have hcomplete : out.2 = false := by
        rw [← Bool.not_eq_true, htruncated]
        exact not_lt.mpr hlasts
      rw [hcomplete, honest_iff hout hcore hlasts]
      simp [not_lt.mpr hlasts]
    · have hcut : out.2 = true := htruncated.mpr (not_le.mp hlasts)
      rw [hcut]
      exact iff_of_true (fun hcomplete => by cases hcomplete) (.inr (.inl (not_le.mp hlasts)))

end Listings

/-! ### A file with a preview -/

/-- A file with one child. -/
def picture : DirectoryEntry :=
  { uid := "p", name := "picture.png", type := .regularFile, renditionCount := 1 }

/-- What the core holds for it: a preview and a directory. -/
def pictureChildren (uid : String) : List DirectoryEntry :=
  if uid = "p" then
    [{ uid := "v", name := "1-preview.png", type := .regularFile },
      { uid := "d", name := "parts", type := .directory }]
  else []

/-- The listing of it after one lookup. -/
theorem picture_listed (id : AuthIdentity) (r : CoreReply (List DirectoryEntry)) :
    (entries id 250 true [picture]).Yields [lookup id "p" r] (.json 200
      (.listing [(picture, some (if r.success then files r.value else []))] (some true))) :=
  ⟨r, rfl, rfl⟩

theorem picture_faithful {id : AuthIdentity} {r : CoreReply (List DirectoryEntry)}
    (h : r.success = true → r.value = pictureChildren "p") :
    Faithful pictureChildren [lookup id "p" r] := by
  intro id' uid' r' hr'
  obtain ⟨rfl, rfl⟩ := lookup_inj (List.mem_singleton.mp hr')
  exact h

theorem listing_honest_iff_picture :
    ∃ found complete,
      Reply.json 200 (.listing [(picture, some (files (pictureChildren "p")))] (some true)) =
        .json 200 (.listing found complete) ∧ found.map Prod.fst = [picture] ∧
      [lookup {} "p" ⟨true, "", pictureChildren "p"⟩].length ≤ (250 : ℤ).toNat ∧
      (∀ e ∈ [lookup {} "p" ⟨true, "", pictureChildren "p"⟩], ∃ d ∈ [picture],
        0 < d.renditionCount ∧ ∃ r, e = lookup {} d.uid r) ∧
      ((complete = some true → Honest pictureChildren found) ↔
        true = false ∨ (250 : ℤ).toNat < parents [picture] ∨
          FailsOnEmpty pictureChildren [lookup {} "p" ⟨true, "", pictureChildren "p"⟩]) :=
  listing_honest_iff pictureChildren (picture_faithful fun _ => rfl)
    (picture_listed {} ⟨true, "", pictureChildren "p"⟩)

/-- A lookup that fails is listed as complete. -/
theorem failed_lookup_complete :
    ¬ ∀ (id : AuthIdentity) (limit : ℤ) (es : List DirectoryEntry) (T : List (Event ServerAns))
      (core : String → List DirectoryEntry)
      (found : List (DirectoryEntry × Option (List DirectoryEntry))), Faithful core T →
      (entries id limit true es).Yields T (.json 200 (.listing found (some true))) →
      Honest core found := by
  intro h
  have hfailed : Faithful pictureChildren [lookup {} "p" ⟨false, "unavailable", []⟩] :=
    picture_faithful fun hsuccess => absurd hsuccess (by decide)
  have hhonest := h {} 250 [picture] _ pictureChildren _ hfailed (picture_listed {} _)
  have hchildren := hhonest (picture, some []) List.mem_cons_self (by decide)
  exact absurd hchildren (by decide)

end Handlers
end HttpBridge
