/-
# The objects of libldap

What each function of libldap does to the objects that are there, as a rule for
programs that call it, and what follows for the parts that every call is made of:
the reads of an entry, the walk through its attributes, the walk through a result
and the search. Each of them leaves the memory as it found it (`Keeps`).

A failed search may give a result as well, and not every caller frees it. `watched`
keeps a record of those that are forgotten, and `Leaves` says that nothing else is
left behind.
-/
import HttpBridge.LdapCalls

namespace HttpBridge
namespace Ldap

open Interact

/-! ### Memory -/

section Memory

variable {m : Memory} {p q : ℕ} {o : Obj} {ps qs : List ℕ}

theorem free_put (h : m p = none) (o : Obj) : (m.put p o).free p = m := by
  show Function.update (Function.update m p (some o)) p none = m
  rw [Function.update_idem, ← h, Function.update_eq_self]

theorem put_self (m : Memory) (p : ℕ) (o : Obj) : m.put p o p = some o := Function.update_self p (some o) m

theorem put_of_ne (h : q ≠ p) (m : Memory) (o : Obj) : m.put p o q = m q := Function.update_of_ne h (some o) m

theorem free_put_of_ne (h : p ≠ q) (o : Obj) : (m.put q o).free p = (m.free p).put q o :=
  Function.update_comm h.symm (some o) none m

theorem put_put (m : Memory) (p : ℕ) (o o' : Obj) : (m.put p o).put p o' = m.put p o' := by
  show Function.update (Function.update m p (some o)) p (some o') = _
  rw [Function.update_idem]

theorem put_eq_none : m.put p o q = none ↔ q ≠ p ∧ m q = none := by
  by_cases h : q = p
  · rw [h, put_self]
    simp
  · rw [put_of_ne h]
    exact (and_iff_right h).symm

theorem ne_of_put (h : m.put p o q = none) : q ≠ p := (put_eq_none.mp h).1

/-- Results of failed searches that nobody has freed. -/
def litter (m : Memory) (ps : List ℕ) : Memory := fun p => if p ∈ ps then some .failure else m p

@[simp] theorem litter_nil (m : Memory) : litter m [] = m := by
  funext p
  simp [litter]

theorem litter_litter (m : Memory) (ps qs : List ℕ) : litter (litter m ps) qs = litter m (ps ++ qs) := by
  funext p
  by_cases hq : p ∈ qs <;> simp [litter, hq]

theorem litter_of_not_mem (h : p ∉ ps) : litter m ps p = m p := if_neg h

theorem put_failure (m : Memory) (p : ℕ) : m.put p .failure = litter m [p] := by
  funext q
  by_cases h : q = p
  · rw [h, put_self]
    simp [litter]
  · rw [put_of_ne h]
    simp [litter, h]

theorem litter_update (h : p ∉ ps) (v : Option Obj) :
    Function.update (litter m ps) p v = litter (Function.update m p v) ps := by
  funext q
  by_cases hq : q = p
  · rw [hq, Function.update_self, litter_of_not_mem h, Function.update_self]
  · rw [Function.update_of_ne hq]
    unfold litter
    rw [Function.update_of_ne hq]

end Memory

/-! ### The record -/

/-- The result of a search that failed, unless the caller frees it: he does where
`frees` holds of the filter. -/
def leaks (frees : String → Bool) : Event LdapOp.Ans → List ℕ
  | ⟨.search _ _ filter _, .failure (some result)⟩ => if frees filter then [] else [result]
  | _ => []

/-- libldap, with a record of the results that are forgotten. -/
def watched (lib : Library) (frees : String → Bool) : Interface LdapOp LdapOp.Ans (Memory × List ℕ) :=
  (libldap lib).logged (leaks frees)

variable {lib : Library} {frees : String → Bool} {m : Memory} {l : List ℕ} {α β : Type}
  {Q : α → Memory × List ℕ → Prop} {ld : ℕ} {S : LdapServer}

theorem wp_step {op : LdapOp} {f : op.Ans → Libldap α} (hop : ∀ a, leaks frees ⟨op, a⟩ = [])
    (hallowed : Allowed m op)
    (h : ∀ a m', Answers lib m op a m' → (f a).Wp (watched lib frees) Q (m', l)) :
    (Prog.perform op >>= f).Wp (watched lib frees) Q (m, l) := by
  refine ⟨hallowed, fun a ⟨m', l'⟩ ⟨ha, hl⟩ => ?_⟩
  have hsame : l' = l := by rw [show l' = l ++ leaks frees ⟨op, a⟩ from hl, hop, List.append_nil]
  rw [hsame]
  exact h a m' ha

/-! ### The functions -/

section Functions

variable {e : EntryPtr} {entry : LdapEntry} {p : ℕ}

theorem wp_now {f : ℚ → Libldap α} (h : ∀ t, (f t).Wp (watched lib frees) Q (m, l)) :
    (now >>= f).Wp (watched lib frees) Q (m, l) := by
  refine wp_step (fun _ => rfl) trivial fun t m' ha => ?_
  cases ha
  exact h t

theorem wp_ldapInitialize {endpoint : String} {f : Option ℕ → Libldap α}
    (hnone : (f none).Wp (watched lib frees) Q (m, l))
    (hsome : ∀ ld, m ld = none →
      (f (some ld)).Wp (watched lib frees) Q (m.put ld (.ld (lib.net endpoint)), l)) :
    (ldapInitialize endpoint >>= f).Wp (watched lib frees) Q (m, l) := by
  refine wp_step (fun _ => rfl) trivial fun a m' ha => ?_
  cases ha with
  | noConnection => exact hnone
  | connection _ ld hnew => exact hsome ld hnew

theorem wp_setVersion {f : Unit → Libldap α} (hld : m ld = some (.ld S))
    (h : (f ()).Wp (watched lib frees) Q (m, l)) :
    (setVersion ld >>= f).Wp (watched lib frees) Q (m, l) := by
  refine wp_step (fun _ => rfl) ⟨S, hld⟩ fun a m' ha => ?_
  cases ha
  exact h

theorem wp_saslBind {dn cred : String} {f : Bool → Libldap α} (hld : m ld = some (.ld S))
    (h : ∀ bound, (lib.honest = true → bound = S.bind dn cred) →
      (f bound).Wp (watched lib frees) Q (m, l)) :
    (saslBind ld dn cred >>= f).Wp (watched lib frees) Q (m, l) := by
  refine wp_step (fun _ => rfl) ⟨S, hld⟩ fun bound m' ha => ?_
  cases ha with
  | saslBind _ _ _ _ S' h' hbound =>
    obtain rfl : S = S' := by
      rw [hld] at h'
      cases h'
      rfl
    exact h bound hbound

theorem wp_countEntries {result : ℕ} {es : List LdapEntry} {f : ℕ → Libldap α} (hld : m ld = some (.ld S))
    (hr : m result = some (.result es)) (h : (f es.length).Wp (watched lib frees) Q (m, l)) :
    (countEntries ld result >>= f).Wp (watched lib frees) Q (m, l) := by
  refine wp_step (fun _ => rfl) ⟨⟨S, hld⟩, es, hr⟩ fun a m' ha => ?_
  cases ha with
  | countEntries _ _ es' h' =>
    rw [hr] at h'
    cases h'
    exact h

theorem wp_firstEntry {result : ℕ} {es : List LdapEntry} {f : Option EntryPtr → Libldap α}
    (hld : m ld = some (.ld S)) (hr : m result = some (.result es))
    (h : (f (if 0 < es.length then some ⟨result, 0⟩ else none)).Wp (watched lib frees) Q (m, l)) :
    (firstEntry ld result >>= f).Wp (watched lib frees) Q (m, l) := by
  refine wp_step (fun _ => rfl) ⟨⟨S, hld⟩, es, hr⟩ fun a m' ha => ?_
  cases ha with
  | firstEntry _ _ es' h' =>
    rw [hr] at h'
    cases h'
    exact h

theorem wp_nextEntry {es : List LdapEntry} {Q : Option EntryPtr → Memory × List ℕ → Prop}
    (hld : m ld = some (.ld S)) (hr : m e.result = some (.result es)) (hi : e.index < es.length)
    (h : Q (if e.index + 1 < es.length then some ⟨e.result, e.index + 1⟩ else none) (m, l)) :
    (nextEntry ld e).Wp (watched lib frees) Q (m, l) := by
  have hheld : Holds m e es[e.index] := ⟨es, hr, List.getElem?_eq_getElem hi⟩
  refine wp_step (f := .ret) (fun _ => rfl) ⟨⟨S, hld⟩, _, hheld⟩ fun a m' ha => ?_
  cases ha with
  | nextEntry _ _ es' h' =>
    rw [hr] at h'
    cases h'
    exact h

theorem Holds.unique {entry' : LdapEntry} (h : Holds m e entry) (h' : Holds m e entry') : entry' = entry := by
  obtain ⟨es, hr, he⟩ := h
  obtain ⟨es', hr', he'⟩ := h'
  rw [hr] at hr'
  cases hr'
  rw [he] at he'
  cases he'
  rfl

theorem Holds.put {o : Obj} (h : Holds m e entry) (hp : m p = none) : Holds (m.put p o) e entry := by
  obtain ⟨es, hr, he⟩ := h
  refine ⟨es, ?_, he⟩
  rw [put_of_ne, hr]
  rintro rfl
  rw [hr] at hp
  cases hp

theorem put_of_some {o o' : Obj} {q : ℕ} (h : m q = some o') (hp : m p = none) : m.put p o q = some o' := by
  rw [put_of_ne, h]
  rintro rfl
  rw [h] at hp
  cases hp

theorem wp_getDn {f : Option ℕ → Libldap α} (hld : m ld = some (.ld S)) (he : Holds m e entry)
    (hnone : lib.honest = false → (f none).Wp (watched lib frees) Q (m, l))
    (hsome : ∀ p, m p = none → (f (some p)).Wp (watched lib frees) Q (m.put p (.text entry.dn), l)) :
    (getDn ld e >>= f).Wp (watched lib frees) Q (m, l) := by
  refine wp_step (fun _ => rfl) ⟨⟨S, hld⟩, entry, he⟩ fun a m' ha => ?_
  cases ha with
  | noDn _ _ hfails => exact hnone hfails
  | getDn _ _ entry' p h' hnew =>
    rw [he.unique h']
    exact hsome p hnew

theorem wp_getValuesLen {attr : String} {f : Option ℕ → Libldap α} (hld : m ld = some (.ld S))
    (he : Holds m e entry)
    (hnone : (lib.honest = true → entry.values attr = none) → (f none).Wp (watched lib frees) Q (m, l))
    (hsome : ∀ p vs, m p = none → entry.values attr = some vs →
      (f (some p)).Wp (watched lib frees) Q (m.put p (.values vs), l)) :
    (getValuesLen ld e attr >>= f).Wp (watched lib frees) Q (m, l) := by
  refine wp_step (fun _ => rfl) ⟨⟨S, hld⟩, entry, he⟩ fun a m' ha => ?_
  cases ha with
  | noValues _ _ _ entry' h' hno =>
    rw [he.unique h'] at hno
    exact hnone hno
  | getValuesLen _ _ _ entry' vs p h' hvs hnew =>
    rw [he.unique h'] at hvs
    exact hsome p vs hnew hvs

theorem wp_text {s : String} {f : String → Libldap α} (hp : m p = some (.text s))
    (h : (f s).Wp (watched lib frees) Q (m, l)) : (text p >>= f).Wp (watched lib frees) Q (m, l) := by
  refine wp_step (fun _ => rfl) ⟨s, hp⟩ fun a m' ha => ?_
  cases ha with
  | text _ s' h' =>
    rw [hp] at h'
    cases h'
    exact h

theorem wp_values {vs : List String} {f : List String → Libldap α} (hp : m p = some (.values vs))
    (h : (f vs).Wp (watched lib frees) Q (m, l)) : (values p >>= f).Wp (watched lib frees) Q (m, l) := by
  refine wp_step (fun _ => rfl) ⟨vs, hp⟩ fun a m' ha => ?_
  cases ha with
  | values _ vs' h' =>
    rw [hp] at h'
    cases h'
    exact h

theorem wp_memfree {s : String} {f : Unit → Libldap α} (hp : m p = some (.text s))
    (h : (f ()).Wp (watched lib frees) Q (m.free p, l)) :
    (memfree p >>= f).Wp (watched lib frees) Q (m, l) := by
  refine wp_step (fun _ => rfl) ⟨s, hp⟩ fun a m' ha => ?_
  cases ha
  exact h

theorem wp_valueFreeLen {vs : List String} {f : Unit → Libldap α} (hp : m p = some (.values vs))
    (h : (f ()).Wp (watched lib frees) Q (m.free p, l)) :
    (valueFreeLen p >>= f).Wp (watched lib frees) Q (m, l) := by
  refine wp_step (fun _ => rfl) ⟨vs, hp⟩ fun a m' ha => ?_
  cases ha
  exact h

theorem wp_berFree {attrs : List String} {f : Unit → Libldap α} (hp : m p = some (.ber attrs))
    (h : (f ()).Wp (watched lib frees) Q (m.free p, l)) :
    (berFree p >>= f).Wp (watched lib frees) Q (m, l) := by
  refine wp_step (fun _ => rfl) ⟨attrs, hp⟩ fun a m' ha => ?_
  cases ha
  exact h

theorem wp_msgfree {result : ℕ} {f : Unit → Libldap α}
    (hr : (∃ es, m result = some (.result es)) ∨ m result = some .failure)
    (h : (f ()).Wp (watched lib frees) Q (m.free result, l)) :
    (msgfree result >>= f).Wp (watched lib frees) Q (m, l) := by
  refine wp_step (fun _ => rfl) hr fun a m' ha => ?_
  cases ha
  exact h

theorem wp_unbind {f : Unit → Libldap α} (hld : m ld = some (.ld S))
    (h : (f ()).Wp (watched lib frees) Q (m.free ld, l)) :
    (unbind ld >>= f).Wp (watched lib frees) Q (m, l) := by
  refine wp_step (fun _ => rfl) ⟨S, hld⟩ fun a m' ha => ?_
  cases ha
  exact h

theorem wp_search {base filter : String} {attrs : List String} {f : Found → Libldap α}
    (hld : m ld = some (.ld S))
    (hsuccess : ∀ result es, m result = none → lib.Fits es →
      (lib.honest = true → (S.search base filter).map (·.map (asked attrs)) = some es) →
      (f (.success result)).Wp (watched lib frees) Q (m.put result (.result es), l))
    (hfailure : (lib.honest = true → S.search base filter = none) →
      (f (.failure none)).Wp (watched lib frees) Q (m, l))
    (hresult : ∀ result, m result = none → (lib.honest = true → S.search base filter = none) →
      (f (.failure (some result))).Wp (watched lib frees) Q
        (m.put result .failure, l ++ if frees filter then [] else [result])) :
    (search ld base filter attrs >>= f).Wp (watched lib frees) Q (m, l) := by
  refine ⟨⟨S, hld⟩, fun a ⟨m', l'⟩ ⟨ha, hl⟩ => ?_⟩
  have hsame : ∀ {S'}, m ld = some (.ld S') → S' = S := by
    intro S' h
    rw [hld] at h
    cases h
    rfl
  cases ha with
  | success _ _ _ _ result es S' h hnew hfits hes =>
    obtain rfl := hsame h
    rw [show l' = l from hl.trans (List.append_nil l)]
    exact hsuccess result es hnew hfits hes
  | failure _ _ _ _ S' h hno =>
    obtain rfl := hsame h
    rw [show l' = l from hl.trans (List.append_nil l)]
    exact hfailure hno
  | failureResult _ _ _ _ result S' h hnew hno =>
    obtain rfl := hsame h
    rw [show l' = l ++ if frees filter then [] else [result] from hl]
    exact hresult result hnew hno

theorem wp_firstAttribute {f : Option ℕ × Option ℕ → Libldap α} (hld : m ld = some (.ld S))
    (he : Holds m e entry)
    (hnone : (lib.honest = true → entry.attrs = []) → (f (none, none)).Wp (watched lib frees) Q (m, l))
    (hempty : ∀ ber, m ber = none → (lib.honest = true → entry.attrs = []) →
      (f (none, some ber)).Wp (watched lib frees) Q (m.put ber (.ber []), l))
    (hsome : ∀ a attrs ber p, entry.attrs.map Prod.fst = a :: attrs → m ber = none → m p = none → p ≠ ber →
      (f (some p, some ber)).Wp (watched lib frees) Q ((m.put ber (.ber attrs)).put p (.text a), l)) :
    (firstAttribute ld e >>= f).Wp (watched lib frees) Q (m, l) := by
  refine wp_step (fun _ => rfl) ⟨⟨S, hld⟩, entry, he⟩ fun a m' ha => ?_
  cases ha with
  | noAttribute _ _ entry' h' hno =>
    rw [he.unique h'] at hno
    exact hnone hno
  | noAttributeBer _ _ entry' ber h' hnew hno =>
    rw [he.unique h'] at hno
    exact hempty ber hnew hno
  | firstAttribute _ _ entry' a attrs ber p h' hattrs hnew hnew' hne =>
    rw [he.unique h'] at hattrs
    exact hsome a attrs ber p hattrs hnew hnew' hne

theorem wp_nextAttribute {ber : ℕ} {attrs : List String} {f : Option ℕ → Libldap α}
    (hld : m ld = some (.ld S)) (he : Holds m e entry) (hber : m ber = some (.ber attrs))
    (hlast : (lib.honest = true → attrs = []) → (f none).Wp (watched lib frees) Q (m, l))
    (hnext : ∀ a rest p, attrs = a :: rest → m p = none →
      (f (some p)).Wp (watched lib frees) Q ((m.put ber (.ber rest)).put p (.text a), l)) :
    (nextAttribute ld e (some ber) >>= f).Wp (watched lib frees) Q (m, l) := by
  refine wp_step (fun _ => rfl) ⟨⟨S, hld⟩, ⟨entry, he⟩, ber, attrs, rfl, hber⟩ fun a m' ha => ?_
  cases ha with
  | lastAttribute _ _ _ attrs' h' hno =>
    rw [hber] at h'
    cases h'
    exact hlast hno
  | nextAttribute _ _ _ a rest p h' hnew =>
    rw [hber] at h'
    cases h'
    exact hnext a rest p rfl hnew

end Functions

/-! ### Reading entries -/

/-- Nothing is left behind, and `P` holds of what is returned. -/
def Keeps (m : Memory) (l : List ℕ) (P : α → Prop) (a : α) (x : Memory × List ℕ) : Prop :=
  x = (m, l) ∧ P a

theorem keeps_bind {P : α → Prop} {Q : β → Memory × List ℕ → Prop} {p : Libldap α} {f : α → Libldap β}
    (hp : p.Wp (watched lib frees) (Keeps m l P) (m, l))
    (hf : ∀ a, P a → (f a).Wp (watched lib frees) Q (m, l)) :
    (p >>= f).Wp (watched lib frees) Q (m, l) := by
  refine hp.bind fun a x ⟨hx, ha⟩ => ?_
  rw [hx]
  exact hf a ha

section Entries

variable {e : EntryPtr} {entry : LdapEntry}

theorem dnText_wp (hld : m ld = some (.ld S)) (he : Holds m e entry) :
    (dnText ld e).Wp (watched lib frees) (Keeps m l fun dn => lib.honest = true → dn = some entry.dn)
      (m, l) := by
  refine wp_getDn hld he (fun hfails => ⟨rfl, fun h => ?_⟩) fun p hnew => ?_
  · rw [hfails] at h
    cases h
  · refine wp_text (put_self m p _) (wp_memfree (put_self m p _) ?_)
    rw [free_put hnew]
    exact ⟨rfl, fun _ => rfl⟩

theorem firstValue_wp {attr : String} (hld : m ld = some (.ld S)) (he : Holds m e entry) :
    (firstValue ld e attr).Wp (watched lib frees)
      (Keeps m l fun v => lib.honest = true → v = entry.firstValue attr) (m, l) := by
  refine wp_getValuesLen hld he (fun hno => ⟨rfl, fun h => ?_⟩) fun p vs hnew hvs => ?_
  · rw [LdapEntry.firstValue, hno h]
    rfl
  · refine wp_values (put_self m p _) (wp_valueFreeLen (put_self m p _) ?_)
    rw [free_put hnew]
    refine ⟨rfl, fun _ => ?_⟩
    rw [LdapEntry.firstValue, hvs, Option.getD_some]

theorem uidOf_wp {displayId : String} (hld : m ld = some (.ld S)) (he : Holds m e entry) :
    (uidOf ld e entry.dn displayId).Wp (watched lib frees)
      (Keeps m l fun uid => lib.honest = true → uid = resolveUid entry displayId) (m, l) := by
  refine keeps_bind (firstValue_wp hld he) fun uid huid => ⟨rfl, fun h => ?_⟩
  rw [huid h]
  rfl

theorem uidOrDn_wp (hld : m ld = some (.ld S)) (he : Holds m e entry) :
    (uidOrDn ld e).Wp (watched lib frees)
      (Keeps m l fun uid => lib.honest = true →
        uid = if entry.firstValue "uid" == "" then uidFromDN entry.dn else entry.firstValue "uid")
      (m, l) := by
  refine keeps_bind (firstValue_wp hld he) fun uid huid => .ite (fun hempty => ?_) fun hempty => ?_
  · refine keeps_bind (dnText_wp hld he) fun dn hdn => ⟨rfl, fun h => ?_⟩
    rw [hdn h, ← huid h, if_pos hempty]
    rfl
  · refine ⟨rfl, fun h => ?_⟩
    rw [← huid h, if_neg hempty]

/-! ### The attributes -/

/-- The roles with those under the name `attr`. -/
def withRoles (entry : LdapEntry) (roles : List String) (attr : String) : List String :=
  if roleAttributes.contains attr then
    addRoles roles (((entry.values attr).getD []).map fun v => lowered (cString v))
  else roles

theorem addRoles_append (roles xs ys : List String) :
    addRoles roles (xs ++ ys) = addRoles (addRoles roles xs) ys := List.foldl_append

theorem foldl_withRoles (entry : LdapEntry) (roles : List String) :
    (entry.attrs.map Prod.fst).foldl (withRoles entry) roles = addRoles roles (attributeRoles entry) := by
  unfold attributeRoles
  generalize entry.attrs = attrs
  induction attrs generalizing roles with
  | nil => rfl
  | cons a attrs ih =>
    rw [List.map_cons, List.foldl_cons, ih, List.flatMap_cons, addRoles_append]
    congr 1
    unfold withRoles
    split_ifs <;> rfl

theorem rolesUnder_wp {roles : List String} {p : ℕ} {attr : String} (hld : m ld = some (.ld S))
    (he : Holds m e entry) (hp : m p = some (.text attr)) :
    (rolesUnder ld e roles p).Wp (watched lib frees)
      (Keeps m l fun rs => lib.honest = true → rs = withRoles entry roles attr) (m, l) := by
  refine wp_text hp (.ite (fun hattr => ?_) fun hattr => ?_)
  · refine wp_getValuesLen hld he (fun hno => ⟨rfl, fun h => ?_⟩) fun p' vs hnew hvs => ?_
    · rw [withRoles, if_pos hattr, hno h]
      rfl
    · refine wp_values (put_self m p' _) (wp_valueFreeLen (put_self m p' _) ?_)
      rw [free_put hnew]
      refine ⟨rfl, fun _ => ?_⟩
      rw [withRoles, if_pos hattr, hvs, Option.getD_some]
  · exact ⟨rfl, fun _ => (if_neg hattr).symm⟩

/-- Where the walk stands: at the end, or at a name with others behind it. -/
def AtAttribute (lib : Library) (m : Memory) (l : List ℕ) (ber : ℕ) (entry : LdapEntry)
    (final : List String) (k : ℕ) : Option ℕ → List String → Memory × List ℕ → Prop
  | none, roles, x => (∃ rest, x = (m.put ber (.ber rest), l)) ∧ (lib.honest = true → roles = final)
  | some p, roles, x => ∃ a rest, k = rest.length + 1 ∧ m p = none ∧ p ≠ ber ∧
      x = ((m.put ber (.ber rest)).put p (.text a), l) ∧
      (lib.honest = true → (a :: rest).foldl (withRoles entry) roles = final)

/-- One round of the walk. -/
theorem attributeRound_wp {final : List String} {ber k p : ℕ} {roles : List String} {x : Memory × List ℕ}
    (hld : m ld = some (.ld S)) (he : Holds m e entry) (hber : m ber = none)
    (h : AtAttribute lib m l ber entry final k (some p) roles x) :
    ∃ k', k = k' + 1 ∧ (rolesUnder ld e roles p).Wp (watched lib frees) (fun roles x' =>
      (do
        let next ← nextAttribute ld e (some ber)
        memfree p
        return next).Wp (watched lib frees)
          (fun p' x'' => AtAttribute lib m l ber entry final k' p' roles x'') x') x := by
  obtain ⟨a, rest, rfl, hp, hne, rfl, hroles⟩ := h
  refine ⟨rest.length, rfl, ?_⟩
  have hp₁ : m.put ber (.ber rest) p = none := put_eq_none.mpr ⟨hne, hp⟩
  have hld₁ : ((m.put ber (.ber rest)).put p (.text a)) ld = some (.ld S) :=
    put_of_some (put_of_some hld hber) hp₁
  have he₁ : Holds ((m.put ber (.ber rest)).put p (.text a)) e entry := (he.put hber).put hp₁
  have hber₁ : ((m.put ber (.ber rest)).put p (.text a)) ber = some (.ber rest) :=
    put_of_some (put_self m ber _) hp₁
  refine (rolesUnder_wp hld₁ he₁ (put_self _ p _)).mono fun roles' x' ⟨hx', hroles'⟩ => ?_
  rw [hx']
  refine wp_nextAttribute hld₁ he₁ hber₁ (fun hlast => ?_) fun a' rest' p' hrest hp' => ?_
  · refine wp_memfree (put_self _ p _) ?_
    rw [free_put hp₁]
    refine ⟨⟨rest, rfl⟩, fun h => ?_⟩
    have hfinal := hroles h
    rwa [hlast h, List.foldl_cons, ← hroles' h] at hfinal
  · obtain ⟨hne', hp'₁⟩ := put_eq_none.mp hp'
    obtain ⟨hne'', hp'₂⟩ := put_eq_none.mp hp'₁
    refine wp_memfree (s := a) ?_ ?_
    · rw [put_of_ne hne'.symm, put_of_ne hne, put_self]
    · rw [free_put_of_ne hne'.symm, free_put_of_ne hne, free_put hp₁, put_put]
      refine ⟨a', rest', by rw [hrest, List.length_cons], hp'₂, hne'', rfl, fun h => ?_⟩
      have hfinal := hroles h
      rwa [hrest, List.foldl_cons, ← hroles' h] at hfinal

theorem attributeWalk_wp {roles : List String} {n : ℕ} (hld : m ld = some (.ld S)) (he : Holds m e entry)
    (hn : entry.attrs.length ≤ n) :
    (attributeWalk ld e n roles).Wp (watched lib frees)
      (Keeps m l fun rs => lib.honest = true → rs = addRoles roles (attributeRoles entry)) (m, l) := by
  have hnoRoles : (lib.honest = true → entry.attrs = []) →
      lib.honest = true → roles = addRoles roles (attributeRoles entry) := by
    intro hno h
    rw [attributeRoles, hno h]
    rfl
  have hberFree : ∀ {ber rest rs}, m ber = none →
      (lib.honest = true → rs = addRoles roles (attributeRoles entry)) →
      (berFree ber >>= fun _ => (.ret rs : Libldap (List String))).Wp (watched lib frees)
        (Keeps m l fun rs => lib.honest = true → rs = addRoles roles (attributeRoles entry))
        (m.put ber (.ber rest), l) := by
    intro ber rest rs hnew hrs
    refine wp_berFree (put_self m ber _) ?_
    rw [free_put hnew]
    exact ⟨rfl, hrs⟩
  refine wp_firstAttribute hld he (fun hno => ?_) (fun ber hnew hno => ?_)
    fun a attrs ber p hattrs hber hp hne => ?_
  · cases n <;> exact ⟨rfl, hnoRoles hno⟩
  · cases n <;> exact hberFree hnew (hnoRoles hno)
  · have hlength : attrs.length + 1 ≤ n := by
      have hnames := congrArg List.length hattrs
      rw [List.length_map, List.length_cons] at hnames
      omega
    have hstart : AtAttribute lib m l ber entry (addRoles roles (attributeRoles entry)) (attrs.length + 1)
        (some p) roles ((m.put ber (.ber attrs)).put p (.text a), l) := by
      refine ⟨a, attrs, rfl, hp, hne, rfl, fun _ => ?_⟩
      rw [← hattrs, foldl_withRoles]
    refine Prog.Wp.bind (Prog.Wp.loop
      (AtAttribute lib m l ber entry (addRoles roles (attributeRoles entry))) (fun k p rs x h hend => ?_)
      (fun k p rs x h _ => attributeRound_wp hld he hber h) hstart hlength)
      fun rs x (h : AtAttribute lib m l ber entry (addRoles roles (attributeRoles entry)) 0 none rs x) => ?_
    · obtain rfl := hend.resolve_right (fun hgo => absurd hgo.symm Bool.false_ne_true)
      exact h
    · obtain ⟨⟨rest, rfl⟩, hrs⟩ := h
      exact hberFree hber hrs

end Entries

/-! ### Walking through a result -/

/-- What a walk that goes on while `go` holds makes of the entries. -/
def walked {σ : Type} (go : σ → Bool) (step : σ → LdapEntry → σ) : List LdapEntry → σ → σ
  | [], s => s
  | e :: es, s => if go s then walked go step es (step s e) else s

theorem walked_true {σ : Type} (step : σ → LdapEntry → σ) : ∀ (es : List LdapEntry) (s : σ),
    walked (fun _ => true) step es s = es.foldl step s
  | [], _ => rfl
  | e :: es, s => by
    rw [walked, if_pos rfl, walked_true step es]
    rfl

section Walks

variable {n result : ℕ} {es : List LdapEntry} {σ : Type} {go : σ → Bool} {body : σ → EntryPtr → Libldap σ}
  {step : σ → LdapEntry → σ}

/-- Where the walk stands: at the end, or at an entry with others behind it. -/
def AtEntry (lib : Library) (m : Memory) (l : List ℕ) (result : ℕ) (es : List LdapEntry) (go : σ → Bool)
    (step : σ → LdapEntry → σ) (final : σ) (k : ℕ) (e : Option EntryPtr) (s : σ)
    (x : Memory × List ℕ) : Prop :=
  ∃ i, e = (if i < es.length then some ⟨result, i⟩ else none) ∧ k = es.length - i ∧ x = (m, l) ∧
    (lib.honest = true → walked go step (es.drop i) s = final)

theorem forEntries_wp (step : σ → LdapEntry → σ) (hld : m ld = some (.ld S)) (hr : m result = some (.result es)) (hn : es.length ≤ n)
    (hbody : ∀ s e entry, Holds m e entry → entry ∈ es → (body s e).Wp (watched lib frees)
      (Keeps m l fun s' => lib.honest = true → s' = step s entry) (m, l)) (s : σ) :
    (forEntries ld n result go body s).Wp (watched lib frees)
      (Keeps m l fun s' => lib.honest = true → s' = walked go step es s) (m, l) := by
  refine wp_firstEntry hld hr ?_
  refine Prog.Wp.loop (AtEntry lib m l result es go step (walked go step es s)) (fun k e s' x h hend => ?_)
    (fun k e s' x h hgo => ?_) (k := es.length) ⟨0, rfl, rfl, rfl, fun _ => rfl⟩ hn
  · obtain ⟨i, he, -, hx, hfinal⟩ := h
    refine ⟨hx, fun hhonest => ?_⟩
    rw [← hfinal hhonest]
    by_cases hi : i < es.length
    · rw [if_pos hi] at he
      have hstop : go s' = false := hend.resolve_left (by rw [he]; exact nofun)
      rw [List.drop_eq_getElem_cons hi, walked, hstop, if_neg Bool.false_ne_true]
    · rw [List.drop_eq_nil_of_le (by omega)]
      rfl
  · obtain ⟨i, he, rfl, rfl, hfinal⟩ := h
    by_cases hi : i < es.length
    · rw [if_pos hi, Option.some.injEq] at he
      subst he
      refine ⟨es.length - (i + 1), by omega, ?_⟩
      have hheld : Holds m ⟨result, i⟩ es[i] := ⟨es, hr, List.getElem?_eq_getElem hi⟩
      refine (hbody s' _ _ hheld (List.getElem_mem hi)).mono fun s'' x' ⟨hx', hs''⟩ => ?_
      rw [hx']
      refine wp_nextEntry (e := ⟨result, i⟩) hld hr hi ⟨i + 1, rfl, rfl, rfl, fun hhonest => ?_⟩
      have hfinal' := hfinal hhonest
      rwa [List.drop_eq_getElem_cons hi, walked, if_pos hgo, ← hs'' hhonest] at hfinal'
    · rw [if_neg hi] at he
      cases he

/-- A search whose result is freed on every path. -/
theorem searchAll_wp {base filter : String} {attrs : List String} {failed : σ} {walk : ℕ → Libldap σ}
    {P : σ → Prop} (hld : m ld = some (.ld S)) (hfrees : frees filter = true)
    (hfailed : (lib.honest = true → S.search base filter = none) → P failed)
    (hwalk : ∀ result es, m result = none → lib.Fits es →
      (lib.honest = true → (S.search base filter).map (·.map (asked attrs)) = some es) →
      (walk result).Wp (watched lib frees) (Keeps (m.put result (.result es)) l P)
        (m.put result (.result es), l)) :
    (searchAll ld base filter attrs failed walk).Wp (watched lib frees) (Keeps m l P) (m, l) := by
  refine wp_search hld (fun result es hnew hfits hes => ?_) (fun hno => ⟨rfl, hfailed hno⟩)
    fun result hnew hno => ?_
  · refine keeps_bind (hwalk result es hnew hfits hes) fun s hs => ?_
    refine wp_msgfree (.inl ⟨es, put_self m result _⟩) ?_
    rw [free_put hnew]
    exact ⟨rfl, hs⟩
  · refine wp_msgfree (.inr (put_self m result _)) ?_
    rw [free_put hnew, if_pos hfrees, List.append_nil]
    exact ⟨rfl, hfailed hno⟩

end Walks

/-! ### What is left behind -/

/-- Nothing is left behind but results of failed searches, which the record names,
and `P` holds of what is returned. -/
def Leaves (m : Memory) (l : List ℕ) (P : α → Prop) (a : α) (x : Memory × List ℕ) : Prop :=
  ∃ ps, (∀ p ∈ ps, m p = none) ∧ x = (litter m ps, l ++ ps) ∧ P a

theorem Keeps.leaves {P : α → Prop} {a : α} {x : Memory × List ℕ} (h : Keeps m l P a x) : Leaves m l P a x := by
  obtain ⟨hx, ha⟩ := h
  exact ⟨[], nofun, by rw [litter_nil, List.append_nil, hx], ha⟩

theorem Leaves.trans {P : α → Prop} {P' : β → Prop} {a : α} {b : β} {x y : Memory × List ℕ}
    (h : Leaves m l P a x) (h' : Leaves x.1 x.2 P' b y) : Leaves m l P' b y := by
  obtain ⟨ps, hps, rfl, -⟩ := h
  obtain ⟨qs, hqs, hy, hb⟩ := h'
  refine ⟨ps ++ qs, fun p hp => ?_, ?_, hb⟩
  · rcases List.mem_append.mp hp with hp | hp
    · exact hps p hp
    · have hfree : litter m ps p = none := hqs p hp
      by_cases hmem : p ∈ ps
      · exact hps p hmem
      · rwa [litter_of_not_mem hmem] at hfree
  · rw [hy, litter_litter, List.append_assoc]

/-- An object that was there is still there. -/
theorem Leaves.of_some {P : α → Prop} {a : α} {x : Memory × List ℕ} {p : ℕ} {o : Obj}
    (h : Leaves m l P a x) (hp : m p = some o) : x.1 p = some o := by
  obtain ⟨ps, hps, rfl, -⟩ := h
  refine (litter_of_not_mem fun hmem => ?_).trans hp
  rw [hps p hmem] at hp
  cases hp

/-- An object that was given before is freed. -/
theorem Leaves.free {P : α → Prop} {a : α} {x : Memory × List ℕ} {p : ℕ} {o : Obj} (hp : m p = none)
    (h : Leaves (m.put p o) l P a x) : Leaves m l P a (x.1.free p, x.2) := by
  obtain ⟨ps, hps, rfl, ha⟩ := h
  have hmem : p ∉ ps := fun hmem => ne_of_put (hps p hmem) rfl
  refine ⟨ps, fun q hq => (put_eq_none.mp (hps q hq)).2, ?_, ha⟩
  have hfreed : (litter (m.put p o) ps).free p = litter m ps := by
    rw [Memory.free, litter_update hmem]
    exact congrArg (litter · ps) (free_put hp o)
  rw [hfreed]

theorem Leaves.of {P : α → Prop} {P' : β → Prop} {a : α} {b : β} {x : Memory × List ℕ}
    (h : Leaves m l P a x) (hb : P a → P' b) : Leaves m l P' b x := by
  obtain ⟨ps, hps, hx, ha⟩ := h
  exact ⟨ps, hps, hx, hb ha⟩

theorem leaves_bind {P : α → Prop} {P' : β → Prop} {p : Libldap α} {f : α → Libldap β}
    (hp : p.Wp (watched lib frees) (Leaves m l P) (m, l))
    (hf : ∀ a x, P a → Leaves m l P a x → (f a).Wp (watched lib frees) (Leaves x.1 x.2 P') x) :
    (p >>= f).Wp (watched lib frees) (Leaves m l P') (m, l) := by
  refine hp.bind fun a x hx => ?_
  have ha : P a := hx.choose_spec.2.2
  exact (hf a x ha hx).mono fun b y hy => hx.trans hy

end Ldap
end HttpBridge
