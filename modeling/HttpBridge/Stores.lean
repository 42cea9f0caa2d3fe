/-
# What one process remembers

The two tables on which single use and revocation rest, as their critical
sections change them: the verdict cache of `TokenDenylist` and the set of used
identifiers of `ReplayGuard`. Both are `std::unordered_map`s, modelled as
association lists whose keys are distinct.

* `lookup_cachePutLocked`: what a cache write can leave behind: an entry that
  was there, or the verdict written, stamped `cache_ttl` after the clock given.
* `lookup_seedCache`: after a sign-out the cache holds the refusal.
* `accept_spec`: the guard accepts an identifier that it does not hold
  unexpired, and then holds it; it forgets nothing that has not expired.
-/
import Mathlib.Data.List.AList

namespace HttpBridge

/-- The entries of a map that satisfy `p`. -/
def keep {ν : Type} (m : AList fun _ : String => ν) (p : ν → Bool) : AList fun _ : String => ν :=
  ⟨m.entries.filter fun e => p e.2, m.nodupKeys.sublist List.filter_sublist⟩

theorem mem_lookup_keep {ν : Type} {m : AList fun _ : String => ν} {p : ν → Bool} {k : String}
    {v : ν} : (keep m p).lookup k = some v ↔ m.lookup k = some v ∧ p v = true := by
  have h : ∀ m : AList fun _ : String => ν, m.lookup k = some v ↔ (⟨k, v⟩ : Sigma _) ∈ m.entries :=
    fun m => AList.mem_lookup_iff
  rw [h, h]
  exact List.mem_filter

/-! ### The verdict cache -/

/-- Verdict for one `jti`. -/
inductive Revocation where
  | allowed
  | revoked
  | unknown
  deriving DecidableEq

structure CacheEntry where
  verdict : Revocation
  until_ : ℤ
  deriving DecidableEq

abbrev VerdictCache := AList fun _ : String => CacheEntry

/-- `TokenDenylist::Options`, as far as the policy reads them. -/
structure DenylistOptions where
  enabled : Bool := true
  cacheTtl : ℤ := 5
  failOpen : Bool := false
  maxCacheEntries : ℕ := 100000
  deriving DecidableEq

/-- Drop what has expired; still over the bound, drop the lot. -/
def pruneLocked (D : DenylistOptions) (now : ℤ) (cache : VerdictCache) : VerdictCache :=
  let live := keep cache fun e => !decide (e.until_ ≤ now)
  if live.entries.length > D.maxCacheEntries then ∅ else live

/-- Cache a verdict, unless it is no verdict. -/
def cachePutLocked (D : DenylistOptions) (jti : String) (v : Revocation) (now : ℤ)
    (cache : VerdictCache) : VerdictCache :=
  if v = .unknown ∨ D.cacheTtl ≤ 0 then cache
  else
    let cache := if cache.entries.length ≥ D.maxCacheEntries then pruneLocked D now cache else cache
    cache.insert jti ⟨v, now + D.cacheTtl⟩

/-- What a successful `revoke` does to the cache of its own instance. -/
def seedCache (D : DenylistOptions) (jti : String) (now : ℤ) (cache : VerdictCache) :
    VerdictCache :=
  if D.cacheTtl > 0 then cache.insert jti ⟨.revoked, now + D.cacheTtl⟩ else cache

theorem lookup_pruneLocked {D : DenylistOptions} {now : ℤ} {cache : VerdictCache} {jti : String}
    {e : CacheEntry} (h : (pruneLocked D now cache).lookup jti = some e) :
    cache.lookup jti = some e := by
  unfold pruneLocked at h
  dsimp only at h
  split_ifs at h
  · simp at h
  · exact (mem_lookup_keep.mp h).1

theorem lookup_cachePutLocked {D : DenylistOptions} {jti k : String} {v : Revocation} {now : ℤ}
    {cache : VerdictCache} {e : CacheEntry}
    (h : (cachePutLocked D jti v now cache).lookup k = some e) :
    cache.lookup k = some e ∨
      (k = jti ∧ e = ⟨v, now + D.cacheTtl⟩ ∧ v ≠ .unknown ∧ 0 < D.cacheTtl) := by
  unfold cachePutLocked at h
  dsimp only at h
  by_cases hv : v = .unknown ∨ D.cacheTtl ≤ 0
  · rw [if_pos hv] at h
    exact .inl h
  · rw [if_neg hv] at h
    obtain ⟨hu, ht⟩ := not_or.mp hv
    by_cases hk : k = jti
    · subst hk
      rw [AList.lookup_insert, Option.some.injEq] at h
      exact .inr ⟨rfl, h.symm, hu, Int.not_le.mp ht⟩
    · rw [AList.lookup_insert_ne hk] at h
      split_ifs at h
      · exact .inl (lookup_pruneLocked h)
      · exact .inl h

/-- A lookup that failed leaves nothing in the cache. -/
theorem cachePutLocked_unknown (D : DenylistOptions) (jti : String) (now : ℤ)
    (cache : VerdictCache) : cachePutLocked D jti .unknown now cache = cache := by
  simp [cachePutLocked]

theorem lookup_seedCache {D : DenylistOptions} {jti k : String} {now : ℤ} {cache : VerdictCache}
    {e : CacheEntry} (h : (seedCache D jti now cache).lookup k = some e) :
    (cache.lookup k = some e ∧ (k ≠ jti ∨ D.cacheTtl ≤ 0)) ∨
      (k = jti ∧ e = ⟨.revoked, now + D.cacheTtl⟩) := by
  unfold seedCache at h
  split_ifs at h with ht
  · by_cases hk : k = jti
    · subst hk
      rw [AList.lookup_insert, Option.some.injEq] at h
      exact .inr ⟨rfl, h.symm⟩
    · rw [AList.lookup_insert_ne hk] at h
      exact .inl ⟨h, .inl hk⟩
  · exact .inl ⟨h, .inr (Int.not_lt.mp ht)⟩

/-! ### The replay guard -/

/-- The identifiers used, each until its expiry. -/
abbrev ReplayGuard := AList fun _ : String => ℤ

namespace ReplayGuard

def purgeLocked (seen : ReplayGuard) (now : ℤ) : ReplayGuard := keep seen fun exp => !decide (exp ≤ now)

/-- `ReplayGuard::accept`: the verdict, and what the guard holds afterwards. -/
def accept (seen : ReplayGuard) (jti : String) (expiresAt now : ℤ) : Bool × ReplayGuard :=
  if jti == "" then (true, seen)
  else
    let seen := seen.purgeLocked now
    match seen.lookup jti with
    | some exp => if exp > now then (false, seen) else (true, seen.insert jti expiresAt)
    | none => (true, seen.insert jti expiresAt)

theorem lookup_purgeLocked {seen : ReplayGuard} {now : ℤ} {jti : String} {exp : ℤ} :
    (seen.purgeLocked now).lookup jti = some exp ↔ seen.lookup jti = some exp ∧ now < exp := by
  rw [purgeLocked, mem_lookup_keep]
  simp

/-- A nonempty identifier is accepted exactly if it is not held unexpired. -/
theorem accept_fst {seen : ReplayGuard} {jti : String} {expiresAt now : ℤ} (hj : jti ≠ "") :
    (seen.accept jti expiresAt now).1 = true ↔ ∀ exp, seen.lookup jti = some exp → exp ≤ now := by
  simp only [accept, beq_iff_eq, hj, if_false]
  cases h : (seen.purgeLocked now).lookup jti with
  | some exp =>
    obtain ⟨h₁, h₂⟩ := lookup_purgeLocked.mp h
    simp only [gt_iff_lt, h₂, if_true, Bool.false_eq_true, false_iff]
    exact fun hall => absurd (hall exp h₁) (Int.not_le.mpr h₂)
  | none =>
    simp only [true_iff]
    intro exp he
    by_contra hlt
    have := lookup_purgeLocked.mpr ⟨he, Int.not_le.mp hlt⟩
    rw [h] at this
    cases this

/-- An identifier just accepted is held until its expiry. -/
theorem lookup_accept_self {seen : ReplayGuard} {jti : String} {expiresAt now : ℤ} (hj : jti ≠ "")
    (h : (seen.accept jti expiresAt now).1 = true) :
    (seen.accept jti expiresAt now).2.lookup jti = some expiresAt := by
  simp only [accept, beq_iff_eq, hj, if_false] at h ⊢
  cases hl : (seen.purgeLocked now).lookup jti with
  | some exp =>
    simp only [hl] at h ⊢
    split_ifs at h ⊢ with he
    exact AList.lookup_insert ..
  | none => exact AList.lookup_insert ..

/-- What the guard holds and has not expired it still holds after a call about
another identifier, or a refused one. -/
theorem lookup_accept_of_lt {seen : ReplayGuard} {jti k : String} {expiresAt now exp : ℤ}
    (hk : seen.lookup k = some exp) (hlt : now < exp) :
    (seen.accept jti expiresAt now).2.lookup k = some exp := by
  have hp := lookup_purgeLocked.mpr ⟨hk, hlt⟩
  unfold accept
  split_ifs with hj
  · exact hk
  · dsimp only
    by_cases hkj : k = jti
    · subst hkj
      rw [hp]
      simp [hlt, hp]
    · cases hl : (seen.purgeLocked now).lookup jti with
      | none => exact (AList.lookup_insert_ne hkj).trans hp
      | some e =>
        dsimp only
        split_ifs
        · exact hp
        · exact (AList.lookup_insert_ne hkj).trans hp

end ReplayGuard
end HttpBridge
