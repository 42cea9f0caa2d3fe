/-
# How large the verdict cache grows

`max_cache_entries` is meant to bound the verdict cache of `TokenDenylist`, so
that a flood of distinct tokens cannot grow it without limit. Calls run as threads
on one instance, with any interleaving of their steps; the clock and the store
answer whatever they like at every step.

The bound holds all along a run exactly if no step of the run overfills the cache
(`cache_bounded_iff`): none inserts a token that is not there into a full cache,
unless it prunes first and something has expired. A revocation inserts without
pruning, so sign-outs grow the cache by an entry each (`flooded_revocations`), and
pruning drops the lot only above the bound, so checks reach one entry more
(`flooded_checks`). There is no more to it than that: a run leaves at most one
entry above the bound for its checks and one for each seed (`length_le_seeds`).
-/
import HttpBridge.Revocation

namespace HttpBridge

open Interact TokenDenylist

/-! ### One write -/

section Write

variable {D : DenylistOptions} {jti : String} {v : Revocation} {now : ℤ} {cache : VerdictCache}

theorem length_insert_of_mem {e : CacheEntry} (h : jti ∈ cache) :
    (cache.insert jti e).entries.length = cache.entries.length := by
  have hkeys : ∀ c : VerdictCache, c.entries.length = c.keys.length := fun c => by
    simp [AList.keys, List.keys]
  have hpos : 0 < cache.keys.length := List.length_pos_of_mem h
  rw [hkeys, hkeys, AList.keys_insert, List.length_cons, List.length_erase_of_mem h]
  omega

theorem length_insert_of_notMem {e : CacheEntry} (h : jti ∉ cache) :
    (cache.insert jti e).entries.length = cache.entries.length + 1 := by
  rw [AList.entries_insert_of_notMem h, List.length_cons]

theorem length_insert_le (e : CacheEntry) :
    (cache.insert jti e).entries.length ≤ cache.entries.length + 1 := by
  by_cases h : jti ∈ cache
  · rw [length_insert_of_mem h]
    omega
  · rw [length_insert_of_notMem h]

/-- A write of a token into a cache with room for it, or with the token in it. -/
theorem length_insert_le_iff {n : ℕ} (e : CacheEntry) (h : cache.entries.length ≤ n) :
    (cache.insert jti e).entries.length ≤ n ↔ ¬ (cache.entries.length = n ∧ jti ∉ cache) := by
  by_cases hj : jti ∈ cache
  · rw [length_insert_of_mem hj]
    exact iff_of_true h fun hno => hno.2 hj
  · rw [length_insert_of_notMem hj]
    constructor
    · intro hle hno
      omega
    · intro hno
      have hlt : cache.entries.length ≠ n := fun he => hno ⟨he, hj⟩
      omega

/-- Everything in the cache is still trusted. -/
def AllLive (now : ℤ) (cache : VerdictCache) : Prop := ∀ e ∈ cache.entries, now < e.2.until_

/-- Within the bound only what has expired is dropped. -/
theorem pruneLocked_of_le (h : cache.entries.length ≤ D.maxCacheEntries) :
    pruneLocked D now cache = keep cache fun e => !decide (e.until_ ≤ now) := by
  have hle : (keep cache fun e => !decide (e.until_ ≤ now)).entries.length ≤ cache.entries.length :=
    List.length_filter_le _ _
  unfold pruneLocked
  exact if_neg (by omega)

theorem length_pruneLocked_le (D : DenylistOptions) (now : ℤ) (cache : VerdictCache) :
    (pruneLocked D now cache).entries.length ≤ D.maxCacheEntries := by
  unfold pruneLocked
  dsimp only
  split_ifs with h
  · exact Nat.zero_le _
  · exact Nat.le_of_not_lt h

theorem pruneLocked_of_allLive (h : cache.entries.length ≤ D.maxCacheEntries)
    (hlive : AllLive now cache) : pruneLocked D now cache = cache := by
  rw [pruneLocked_of_le h]
  apply AList.ext
  apply List.filter_eq_self.mpr
  intro e he
  simpa using hlive e he

theorem length_pruneLocked_lt (h : cache.entries.length ≤ D.maxCacheEntries)
    (hlive : ¬ AllLive now cache) :
    (pruneLocked D now cache).entries.length < cache.entries.length := by
  rw [pruneLocked_of_le h]
  apply List.length_filter_lt_length_iff_exists.mpr
  simp only [AllLive, not_forall] at hlive
  obtain ⟨e, he, hlt⟩ := hlive
  exact ⟨e, he, by simpa using hlt⟩

/-- The step inserts a token that is not there into a full cache; a check prunes
first, in vain where nothing has expired. -/
def Overfills (D : DenylistOptions) (cache : VerdictCache) : Op → Prop
  | .denylistPut jti v now =>
    v ≠ .unknown ∧ 0 < D.cacheTtl ∧ cache.entries.length = D.maxCacheEntries ∧ jti ∉ cache ∧
      AllLive now cache
  | .denylistSeed jti _ =>
    0 < D.cacheTtl ∧ cache.entries.length = D.maxCacheEntries ∧ jti ∉ cache
  | _ => False

theorem length_seedCache_le_iff (h : cache.entries.length ≤ D.maxCacheEntries) :
    (seedCache D jti now cache).entries.length ≤ D.maxCacheEntries ↔
      ¬ Overfills D cache (.denylistSeed jti now) := by
  unfold seedCache Overfills
  by_cases ht : D.cacheTtl > 0
  · rw [if_pos ht, length_insert_le_iff _ h]
    simp [ht]
  · rw [if_neg ht]
    exact iff_of_true h fun hno => ht hno.1

theorem length_cachePutLocked_le_iff (h : cache.entries.length ≤ D.maxCacheEntries) :
    (cachePutLocked D jti v now cache).entries.length ≤ D.maxCacheEntries ↔
      ¬ Overfills D cache (.denylistPut jti v now) := by
  unfold cachePutLocked Overfills
  by_cases hv : v = .unknown ∨ D.cacheTtl ≤ 0
  · rw [if_pos hv]
    refine iff_of_true h fun hno => ?_
    rcases hv with hv | ht
    · exact hno.1 hv
    · have := hno.2.1
      omega
  rw [if_neg hv]
  obtain ⟨hv, ht⟩ := not_or.mp hv
  rw [Int.not_le] at ht
  by_cases hfull : cache.entries.length ≥ D.maxCacheEntries
  · by_cases hlive : AllLive now cache
    · -- pruned in vain
      simp only [if_pos hfull, pruneLocked_of_allLive h hlive, length_insert_le_iff _ h]
      simp [hv, ht, hlive]
    · have hlt := length_pruneLocked_lt h hlive
      simp only [if_pos hfull]
      refine iff_of_true ?_ fun hno => hlive hno.2.2.2.2
      exact (length_insert_le _).trans (by omega)
  · simp only [if_neg hfull]
    refine iff_of_true ?_ fun hno => hfull hno.2.2.1.ge
    exact (length_insert_le _).trans (by omega)

/-- Up to the bound an entry that does not expire is never dropped for another. -/
theorem cachePutLocked_of_allLive (h : cache.entries.length ≤ D.maxCacheEntries)
    (hlive : AllLive now cache) (hv : v ≠ .unknown) (ht : 0 < D.cacheTtl) :
    cachePutLocked D jti v now cache = cache.insert jti ⟨v, now + D.cacheTtl⟩ := by
  have hput : ¬ (v = .unknown ∨ D.cacheTtl ≤ 0) := not_or.mpr ⟨hv, Int.not_le.mpr ht⟩
  unfold cachePutLocked
  simp only [if_neg hput, pruneLocked_of_allLive h hlive, ite_self]

/-- Where a check prunes there is room for its entry, or for all but one. -/
theorem length_cachePutLocked_le (D : DenylistOptions) (jti : String) (v : Revocation) (now : ℤ)
    (cache : VerdictCache) : (cachePutLocked D jti v now cache).entries.length ≤
      max cache.entries.length (D.maxCacheEntries + 1) := by
  unfold cachePutLocked
  by_cases hv : v = .unknown ∨ D.cacheTtl ≤ 0
  · rw [if_pos hv]
    exact Nat.le_max_left _ _
  · rw [if_neg hv]
    refine ((length_insert_le _).trans ?_).trans (Nat.le_max_right _ _)
    apply Nat.succ_le_succ
    split_ifs with hfull
    · exact length_pruneLocked_le D now cache
    · exact Nat.le_of_not_ge hfull

end Write

/-! ### Runs -/

/-- The cache of one instance; everything else answers as the move chooses. -/
def cacheSystem (D : DenylistOptions) : System VerdictCache Op Op.Ans ((op : Op) → op.Ans) where
  step cache _ op answer :=
    match op with
    | .denylistFind jti => (cache.lookup jti, cache)
    | .denylistPut jti v now => ((), cachePutLocked D jti v now cache)
    | .denylistSeed jti now => ((), seedCache D jti now cache)
    | op => (answer op, cache)
  tick cache _ := cache

/-- The instance after a list of moves, from an empty cache. -/
abbrev instanceRun (D : DenylistOptions) (ms : List (Move DenylistCall ((op : Op) → op.Ans))) :
    Pool VerdictCache Op.Ans DenylistCall DenylistResult :=
  Pool.run (cacheSystem D) (denylistCode D) ∅ ms

section Runs

variable {D : DenylistOptions}

theorem cacheSystem_time (cache : VerdictCache) (t : ℕ) (k : (op : Op) → op.Ans) :
    (cacheSystem D).step cache t .time k = (k .time, cache) := rfl

theorem cacheSystem_find (cache : VerdictCache) (t : ℕ) (jti : String) (k : (op : Op) → op.Ans) :
    (cacheSystem D).step cache t (.denylistFind jti) k = (cache.lookup jti, cache) := rfl

theorem cacheSystem_step_iff {cache : VerdictCache} {t : ℕ} {op : Op} {k : (op : Op) → op.Ans}
    (h : cache.entries.length ≤ D.maxCacheEntries) :
    ((cacheSystem D).step cache t op k).2.entries.length ≤ D.maxCacheEntries ↔
      ¬ Overfills D cache op := by
  cases op with
  | denylistPut jti v now => exact length_cachePutLocked_le_iff h
  | denylistSeed jti now => exact length_seedCache_le_iff h
  | _ => exact iff_of_true h not_false

/-- **When the cache is bounded.** All along a run it is within the bound exactly
if no step of the run overfills it. -/
theorem cache_bounded_iff (D : DenylistOptions)
    (ms : List (Move DenylistCall ((op : Op) → op.Ans))) :
    (∀ ms₁, ms₁ <:+ ms → (instanceRun D ms₁).state.entries.length ≤ D.maxCacheEntries) ↔
      ∀ x ∈ (instanceRun D ms).log, ¬ Overfills D x.before x.event.op :=
  Pool.run_always_iff (cacheSystem D) (denylistCode D) ∅
    (I := fun cache => cache.entries.length ≤ D.maxCacheEntries) (Nat.zero_le _)
    (fun _ _ h => h) (fun _ _ _ _ h => cacheSystem_step_iff h) ms

/-- The step seeds the cache. -/
def isSeed (x : Step VerdictCache Op.Ans) : Bool :=
  match x.event.op with
  | .denylistSeed .. => true
  | _ => false

/-- **How far the bound is missed.** By one entry for the checks, and by one for
each seed. -/
theorem length_le_seeds (D : DenylistOptions)
    (ms : List (Move DenylistCall ((op : Op) → op.Ans))) :
    (instanceRun D ms).state.entries.length ≤
      D.maxCacheEntries + 1 + (instanceRun D ms).log.countP isSeed := by
  refine Pool.run_invariant (cacheSystem D) (denylistCode D) ∅ (Φ := fun _ _ => True)
    (fun _ _ _ _ _ => trivial)
    (J := fun cache log => cache.entries.length ≤ D.maxCacheEntries + 1 + log.countP isSeed)
    (Nat.zero_le _) (fun _ _ _ h => h) ?_ ms
  intro cache log t op k h _
  rw [List.countP_cons]
  cases op with
  | denylistPut jti v now =>
    have hput := length_cachePutLocked_le D jti v now cache
    exact hput.trans (by omega)
  | denylistSeed jti now =>
    have hseed : (seedCache D jti now cache).entries.length ≤ cache.entries.length + 1 := by
      unfold seedCache
      split_ifs
      · exact length_insert_le _
      · exact Nat.le_succ _
    have hone : isSeed ⟨t, cache, ⟨.denylistSeed jti now, ()⟩, seedCache D jti now cache⟩ = true :=
      rfl
    exact hseed.trans (by simp only [cacheSystem, hone, if_true]; omega)
  | _ => exact h.trans (Nat.add_le_add_left (Nat.le_add_right _ _) _)

/-! ### Floods of distinct tokens -/

/-- The name of a token of a flood. -/
def tokenName (n : ℕ) : String := String.ofList (List.replicate (n + 1) 'j')

theorem tokenName_ne_empty (n : ℕ) : tokenName n ≠ "" := fun h => by
  have := congrArg String.length h
  simp [tokenName] at this

theorem tokenName_injective {m n : ℕ} (h : tokenName m = tokenName n) : m = n := by
  have := congrArg String.length h
  simpa [tokenName] using this

/-- One call after the other, each of another token and of so many steps, while
the clock stands and the store can be reached. -/
def flood (call : String → DenylistCall) (steps : ℕ) :
    ℕ → List (Move DenylistCall ((op : Op) → op.Ans))
  | 0 => []
  | n + 1 => List.replicate steps (.exec n Weather.fair.reply) ++
      .spawn n (call (tokenName n)) :: flood call steps n

/-- Where a flood of `n` calls has left the instance: an entry for each. -/
structure Flooded (n : ℕ) (p : Pool VerdictCache Op.Ans DenylistCall DenylistResult) : Prop where
  idle : ∀ t, n ≤ t → p.job t = none
  names : ∀ m, tokenName m ∈ p.state → m < n
  length : p.state.entries.length = n
  live : AllLive 0 p.state

theorem flooded_start : Flooded 0 (instanceRun D []) where
  idle _ _ := rfl
  names _ h := absurd h (AList.notMem_empty _)
  length := rfl
  live _ h := absurd h List.not_mem_nil

/-- A call of another token that ends with an entry for it. -/
theorem Flooded.insert {n : ℕ} {p q : Pool VerdictCache Op.Ans DenylistCall DenylistResult}
    {e : CacheEntry} {c : DenylistCall} {r : Bridge DenylistResult} (h : Flooded n p)
    (he : 0 < e.until_) (hq : q.At n c r (p.state.insert (tokenName n) e) p.job) :
    Flooded (n + 1) q := by
  have hnew : tokenName n ∉ p.state := fun hm => Nat.lt_irrefl n (h.names n hm)
  refine ⟨fun t ht => ?_, fun m hm => ?_, ?_, fun x hx => ?_⟩
  · rw [hq.others t (by omega)]
    exact h.idle t (by omega)
  · rw [hq.state, AList.mem_insert] at hm
    rcases hm with hm | hm
    · rw [tokenName_injective hm]
      exact Nat.lt_succ_self n
    · exact Nat.lt_succ_of_lt (h.names m hm)
  · rw [hq.state, length_insert_of_notMem hnew, h.length]
  · rw [hq.state, AList.entries_insert_of_notMem hnew] at hx
    rcases List.mem_cons.mp hx with rfl | hx
    · exact he
    · exact h.live x hx

/-- A revocation that the store takes seeds the cache. -/
theorem at_revocation {ms : List (Move DenylistCall ((op : Op) → op.Ans))} {t : ℕ} {jti : String}
    (hD : D.enabled = true) (hj : jti ≠ "") (hjob : (instanceRun D ms).job t = none) :
    (instanceRun D (List.replicate 3 (.exec t Weather.fair.reply) ++
      .spawn t (.revoke jti 1) :: ms)).At t (.revoke jti 1) (.ret (.recorded true))
      (seedCache D jti 0 (instanceRun D ms).state) (instanceRun D ms).job := by
  have hcode : denylistCode D (.revoke jti 1) = .call (.denylistStore jti 1) fun ok =>
      if ok then .call .time fun now => .call (.denylistSeed jti now) fun _ => .ret (.recorded ok)
      else .ret (.recorded ok) := by
    rw [denylistCode, revoke_eq hD hj Int.one_pos]
    simp only [Prog.call_bind]
    congr 1
    funext ok
    cases ok <;> rfl
  have h₀ := Pool.At.spawn (cacheSystem D) (denylistCode D) ∅ hjob (.revoke jti 1)
  rw [hcode] at h₀
  have h₁ : Pool.At _ t _ (.call .time fun now => .call (.denylistSeed jti now) fun _ =>
      .ret (.recorded true)) (instanceRun D ms).state (instanceRun D ms).job :=
    h₀.exec _ _ _ Weather.fair.reply
  have h₂ : Pool.At _ t _ (.call (.denylistSeed jti 0) fun _ => .ret (.recorded true))
      (instanceRun D ms).state (instanceRun D ms).job := h₁.exec _ _ _ Weather.fair.reply
  exact h₂.exec _ _ _ Weather.fair.reply

/-- **Sign-outs are not bounded.** Each of them leaves an entry, however many
there are. -/
theorem flooded_revocations (hD : D.enabled = true) (ht : 0 < D.cacheTtl) :
    ∀ n, Flooded n (instanceRun D (flood (.revoke · 1) 3 n))
  | 0 => flooded_start
  | n + 1 => by
    have h := flooded_revocations hD ht n
    have hq := at_revocation hD (tokenName_ne_empty n) (h.idle n (Nat.le_refl n))
    rw [seedCache, if_pos ht] at hq
    exact h.insert (by simpa using ht) hq

/-- A check of a token that is not in the cache, while the store knows nothing of it. -/
theorem at_check {ms : List (Move DenylistCall ((op : Op) → op.Ans))} {t : ℕ} {jti : String}
    (hD : D.enabled = true) (hj : jti ≠ "") (hjob : (instanceRun D ms).job t = none)
    (hmiss : jti ∉ (instanceRun D ms).state) :
    (instanceRun D (List.replicate 4 (.exec t Weather.fair.reply) ++
      .spawn t (.check jti) :: ms)).At t (.check jti) (.ret (.verdict .allowed))
      (cachePutLocked D jti .allowed 0 (instanceRun D ms).state) (instanceRun D ms).job := by
  have h₀ := Pool.At.spawn (cacheSystem D) (denylistCode D) ∅ hjob (.check jti)
  rw [denylistCode, check_eq hD hj, Prog.call_bind] at h₀
  have h₁ := h₀.exec _ _ _ Weather.fair.reply
  rw [Prog.call_bind] at h₁
  have h₂ := h₁.exec _ _ _ Weather.fair.reply
  have hnone : (instanceRun D ms).state.lookup jti = none := AList.lookup_eq_none.mpr hmiss
  simp only [cacheSystem_time, cacheSystem_find, hnone, Prog.call_bind] at h₂
  have h₃ : Pool.At _ t _ (.call (.denylistPut jti .allowed 0) fun _ => .ret (.verdict .allowed))
      (instanceRun D ms).state (instanceRun D ms).job := h₂.exec _ _ _ Weather.fair.reply
  exact h₃.exec _ _ _ Weather.fair.reply

/-- **Checks reach one more.** At the bound nothing has expired, and the lot is
dropped above the bound only. -/
theorem flooded_checks (hD : D.enabled = true) (ht : 0 < D.cacheTtl) :
    ∀ n, n ≤ D.maxCacheEntries + 1 → Flooded n (instanceRun D (flood .check 4 n))
  | 0, _ => flooded_start
  | n + 1, hn => by
    have h := flooded_checks hD ht n (by omega)
    have hle : (instanceRun D (flood .check 4 n)).state.entries.length ≤ D.maxCacheEntries := by
      rw [h.length]
      omega
    have hq := at_check hD (tokenName_ne_empty n) (h.idle n (Nat.le_refl n))
      fun hm => Nat.lt_irrefl n (h.names n hm)
    rw [cachePutLocked_of_allLive hle h.live (by decide) ht] at hq
    exact h.insert (by simpa using ht) hq

/-- By default a flood of sign-outs, and one of checks, is not held to the bound. -/
theorem floods_exceed_bound :
    ({} : DenylistOptions).maxCacheEntries <
      (instanceRun {} (flood (.revoke · 1) 3 100001)).state.entries.length ∧
    ({} : DenylistOptions).maxCacheEntries <
      (instanceRun {} (flood .check 4 100001)).state.entries.length := by
  constructor
  · rw [(flooded_revocations rfl (by decide) 100001).length]
    decide
  · rw [(flooded_checks rfl (by decide) 100001 (by decide)).length]
    decide

end Runs

end HttpBridge
