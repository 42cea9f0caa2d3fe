/-
# Many instances over one store

The shared state in which handlers run as threads: the wall clock, the
revocation store all instances consult, and for each instance (process) its
verdict cache, its other caches and its replay guards. `World.system` gives
every operation its atomic step.

The revocation store is truthful: an entry written with a lifetime answers
`revoked` until the lifetime is over and nothing afterwards, and a later write
replaces it, as Redis `SET` with `EX` does. A lookup may fail, and a write may
fail, with or without having taken effect. What lies outside (the directory,
`ldap_manager`, the tenant registry, the audit sink, the random source) answers
as the move chooses.

Key definitions: `World.held`, `World.system`, `verdictStamps`.
Key theorems: `effect_store`, `effect_verdicts`, `lookup_truthful`,
`guard_refuses`.
-/
import HttpBridge.Interact.Staleness
import HttpBridge.TokenDenylist

namespace HttpBridge

open Interact

structure World where
  clock : ℤ := 0
  /-- Until when a revocation is stored. -/
  store : String → Option ℤ := fun _ => none
  verdicts : ℕ → VerdictCache := fun _ => ∅
  tenants : ℕ → AList (fun _ : String => TenantEntry) := fun _ => ∅
  requires : ℕ → AList (fun _ : String => Bool × ℤ) := fun _ => ∅
  sessTtls : ℕ → AList (fun _ : String => ℤ × ℤ) := fun _ => ∅
  guards : ℕ → GuardName → ReplayGuard := fun _ _ => ∅

/-- What the world leaves open at a step: what is answered from outside, and
whether a write took effect whose answer was lost. -/
structure Weather where
  reply : (op : Op) → op.Ans
  landed : Bool := false

/-- Weather in which the store and the audit sink can be reached, the store
knows of nothing but what was written, and nobody else outside answers. -/
def Weather.fair : Weather where
  reply
    | .time => 0
    | .random => ""
    | .authenticateUser .. => {}
    | .getUserInfoByEmail .. => {}
    | .getTenantsForUser .. => []
    | .getRolesByTenant .. => .empty
    | .denylistFind .. => none
    | .denylistLookup .. => .allowed
    | .denylistPut .. => ()
    | .denylistStore .. => true
    | .denylistSeed .. => ()
    | .tenantFind .. => none
    | .getTenantState .. => none
    | .tenantPut .. => ()
    | .postMfaRequired .. => ⟨false, 0, none⟩
    | .postMfaVerify .. => ⟨false, 0, none⟩
    | .postMfaEmailChallenge .. => ⟨false, 0, none⟩
    | .postMfaEnrollBegin .. => ⟨false, 0, none⟩
    | .postMfaEnrollComplete .. => ⟨false, 0, none⟩
    | .postServiceCred .. => ⟨false, 0, none⟩
    | .postSessionTtl .. => ⟨false, 0, none⟩
    | .requiresFind .. => none
    | .requiresPut .. => ()
    | .sessTtlFind .. => none
    | .sessTtlPut .. => ()
    | .publish .. => true
    | .replayAccept .. => true
    | .sessionAdd .. => true
    | .sessionRemove .. => true
    | .oauthConsume .. => none
    | .oauthExchangeCode .. => none
    | .oauthVerifyIdToken .. => none
    | .oauthFetchIdentity .. => none
    | .grpcStat .. => ⟨false, "", ""⟩
    | .grpcCall .. => ()

namespace World

/-- The store holds a revocation of the token. -/
def held (w : World) (jti : String) : Bool :=
  match w.store jti with
  | some until_ => w.clock < until_
  | none => false

/-- The store's answer to a lookup, unless it cannot be reached. -/
def lookup (w : World) (jti : String) (reply : Revocation) : Revocation :=
  if reply = .unknown then .unknown else if w.held jti then .revoked else .allowed

/-- The answer to an operation of a handler of instance `i`. -/
def answer (w : World) (i : ℕ) (op : Op) (c : Weather) : op.Ans :=
  match op with
  | .time => w.clock
  | .denylistFind jti => (w.verdicts i).lookup jti
  | .denylistLookup jti => w.lookup jti (c.reply (.denylistLookup jti))
  | .tenantFind tenant => (w.tenants i).lookup tenant
  | .requiresFind tenant => (w.requires i).lookup tenant
  | .sessTtlFind tenant => (w.sessTtls i).lookup tenant
  | .replayAccept g jti expiresAt now => ((w.guards i g).accept jti expiresAt now).1
  | op => c.reply op

/-- What an operation of a handler of instance `i` changes. -/
def effect (D : DenylistOptions) (w : World) (i : ℕ) (op : Op) (c : Weather) : World :=
  match op with
  | .denylistStore jti ttl =>
    if c.reply (.denylistStore jti ttl) || c.landed then
      { w with store := Function.update w.store jti (some (w.clock + ttl)) }
    else w
  | .denylistPut jti v now =>
    { w with verdicts := Function.update w.verdicts i (cachePutLocked D jti v now (w.verdicts i)) }
  | .denylistSeed jti now =>
    { w with verdicts := Function.update w.verdicts i (seedCache D jti now (w.verdicts i)) }
  | .tenantPut tenant e =>
    { w with tenants := Function.update w.tenants i ((w.tenants i).insert tenant e) }
  | .requiresPut tenant required until_ =>
    { w with requires := Function.update w.requires i ((w.requires i).insert tenant (required, until_)) }
  | .sessTtlPut tenant ttl until_ =>
    { w with sessTtls := Function.update w.sessTtls i ((w.sessTtls i).insert tenant (ttl, until_)) }
  | .replayAccept g jti expiresAt now =>
    let seen := ((w.guards i g).accept jti expiresAt now).2
    { w with guards := Function.update w.guards i (Function.update (w.guards i) g seen) }
  | _ => w

/-- The system of all instances; `inst` is the instance a thread runs on. -/
def system (D : DenylistOptions) (inst : ℕ → ℕ) : System World Op Op.Ans Weather where
  step w t op c := (w.answer (inst t) op c, w.effect D (inst t) op c)
  tick w d := { w with clock := w.clock + d }

variable {D : DenylistOptions} {w : World} {i : ℕ} {op : Op} {c : Weather}

@[simp] theorem effect_clock : (w.effect D i op c).clock = w.clock := by
  cases op with
  | denylistStore jti ttl =>
    unfold effect
    dsimp only
    split_ifs <;> rfl
  | _ => rfl

/-- Where an entry comes from after one map of several has had one inserted: it
was there, or it is the new one. -/
theorem lookup_update_insert {V : Type} {m : ℕ → AList fun _ : String => V} {i i' : ℕ}
    {key key' : String} {v e : V}
    (h : (Function.update m i ((m i).insert key v) i').lookup key' = some e) :
    (m i').lookup key' = some e ∨ (i' = i ∧ key' = key ∧ e = v) := by
  by_cases hi : i' = i
  · subst hi
    rw [Function.update_self] at h
    by_cases hk : key' = key
    · subst hk
      rw [AList.lookup_insert] at h
      exact .inr ⟨rfl, rfl, (Option.some.inj h).symm⟩
    · rw [AList.lookup_insert_ne hk] at h
      exact .inl h
  · rw [Function.update_of_ne hi] at h
    exact .inl h

/-- Only a write to the store changes it. -/
theorem effect_store {jti : String} (h : ∀ ttl, op ≠ .denylistStore jti ttl) :
    (w.effect D i op c).store jti = w.store jti := by
  cases op with
  | denylistStore jti' ttl =>
    have hj : jti ≠ jti' := fun hj => h ttl (by rw [hj])
    unfold effect
    dsimp only
    split_ifs
    · exact Function.update_of_ne hj ..
    · rfl
  | _ => rfl

/-- A write stores the entry or leaves it. -/
theorem effect_denylistStore (jti : String) (ttl : ℤ) :
    (w.effect D i (.denylistStore jti ttl) c).store jti = some (w.clock + ttl) ∨
      (c.reply (.denylistStore jti ttl) = false ∧
        (w.effect D i (.denylistStore jti ttl) c).store jti = w.store jti) := by
  unfold effect
  dsimp only
  split_ifs with h
  · exact .inl (Function.update_self ..)
  · simp only [Bool.or_eq_true, not_or, Bool.not_eq_true] at h
    exact .inr ⟨h.1, rfl⟩

/-- Where an entry of a verdict cache comes from: it was there, or this
instance cached an answer or seeded a revocation. -/
theorem effect_verdicts {i' : ℕ} {jti : String} {e : CacheEntry}
    (h : ((w.effect D i op c).verdicts i').lookup jti = some e) :
    ((w.verdicts i').lookup jti = some e ∧ ∀ now, op = .denylistSeed jti now → i' = i →
      D.cacheTtl ≤ 0) ∨
      (i' = i ∧ 0 < D.cacheTtl ∧ ∃ v now, op = .denylistPut jti v now ∧ v ≠ .unknown ∧
        e = ⟨v, now + D.cacheTtl⟩) ∨
      (i' = i ∧ ∃ now, op = .denylistSeed jti now ∧ e = ⟨.revoked, now + D.cacheTtl⟩) := by
  cases op with
  | denylistPut jti' v now =>
    by_cases hi : i' = i
    · subst hi
      simp only [effect, Function.update_self] at h
      rcases lookup_cachePutLocked h with h | ⟨rfl, rfl, hv, ht⟩
      · exact .inl ⟨h, fun _ h => nomatch h⟩
      · exact .inr (.inl ⟨rfl, ht, v, now, rfl, hv, rfl⟩)
    · simp only [effect, Function.update_of_ne hi] at h
      exact .inl ⟨h, fun _ h => nomatch h⟩
  | denylistSeed jti' now =>
    by_cases hi : i' = i
    · subst hi
      simp only [effect, Function.update_self] at h
      rcases lookup_seedCache h with ⟨h, hs⟩ | ⟨rfl, rfl⟩
      · refine .inl ⟨h, fun _ he _ => ?_⟩
        cases he
        exact hs.resolve_left fun hj => hj rfl
      · exact .inr (.inr ⟨rfl, now, rfl, rfl⟩)
    · simp only [effect, Function.update_of_ne hi] at h
      exact .inl ⟨h, fun _ _ h => absurd h hi⟩
  | denylistStore jti' ttl =>
    refine .inl ⟨?_, fun _ h => nomatch h⟩
    unfold effect at h
    dsimp only at h
    split_ifs at h <;> exact h
  | _ => exact .inl ⟨h, fun _ h => nomatch h⟩

/-- No other operation changes a verdict cache. -/
theorem effect_verdicts_eq (hput : ∀ jti v now, op ≠ .denylistPut jti v now)
    (hseed : ∀ jti now, op ≠ .denylistSeed jti now) :
    (w.effect D i op c).verdicts = w.verdicts := by
  cases op with
  | denylistPut jti v now => exact absurd rfl (hput jti v now)
  | denylistSeed jti now => exact absurd rfl (hseed jti now)
  | denylistStore jti ttl =>
    unfold effect
    dsimp only
    split_ifs <;> rfl
  | _ => rfl

/-- What a guard holds it keeps until it is called with a reading past it. -/
theorem effect_guards {i' : ℕ} {g : GuardName} {jti : String} {exp : ℤ}
    (h : (w.guards i' g).lookup jti = some exp)
    (hread : ∀ j e n, op = .replayAccept g j e n → i = i' → n < exp) :
    ((w.effect D i op c).guards i' g).lookup jti = some exp := by
  cases op with
  | replayAccept g' j e n =>
    by_cases hi : i = i'
    · subst hi
      by_cases hg : g' = g
      · subst hg
        simp only [effect, Function.update_self]
        exact ReplayGuard.lookup_accept_of_lt h (hread j e n rfl rfl)
      · simpa [effect, Function.update_of_ne (Ne.symm hg)] using h
    · simpa [effect, Function.update_of_ne (Ne.symm hi)] using h
  | denylistStore jti' ttl =>
    unfold effect
    dsimp only
    split_ifs <;> exact h
  | _ => exact h

/-- An identifier a guard has accepted it holds. -/
theorem effect_guards_self {g : GuardName} {jti : String} {exp n : ℤ} (hj : jti ≠ "")
    (h : w.answer i (.replayAccept g jti exp n) c = true) :
    ((w.effect D i (.replayAccept g jti exp n) c).guards i g).lookup jti = some exp := by
  simp only [effect, Function.update_self]
  exact ReplayGuard.lookup_accept_self hj h

/-- A lookup that answers `allowed` finds nothing stored. -/
theorem lookup_truthful {jti : String} {r : Revocation} (h : w.lookup jti r = .allowed) :
    w.held jti = false := by
  unfold lookup at h
  split_ifs at h with h₁ h₂
  simpa using h₂

theorem held_iff {jti : String} : w.held jti = true ↔ ∃ u, w.store jti = some u ∧ w.clock < u := by
  unfold held
  cases w.store jti <;> simp

section Clock

variable (D : DenylistOptions) (inst : ℕ → ℕ)

theorem clock_step (w : World) (t : ℕ) (op : Op) (c : Weather) :
    ((system D inst).step w t op c).2.clock = w.clock := effect_clock

theorem clock_tick (w : World) (d : ℕ) : w.clock ≤ ((system D inst).tick w d).clock := by
  show w.clock ≤ w.clock + d
  omega

/-- A reading of the clock is what it shows. -/
theorem now_step (w : World) (t : ℕ) (op : Op) (c : Weather) (m : ℤ)
    (h : (⟨op, ((system D inst).step w t op c).1⟩ : Event Op.Ans) = ⟨.time, m⟩) : m = w.clock := by
  cases op <;> cases h
  rfl

end Clock

end World

/-- The verdict caches as stamped caches: an `allowed` verdict is cached until
`cache_ttl` after the clock read before it was given. -/
def verdictStamps (D : DenylistOptions) (inst : ℕ → ℕ) :
    StampedCache (World.system D inst) ℕ String Revocation where
  clock := World.clock
  site := inst
  entry w i jti := ((w.verdicts i).lookup jti).map fun e => (e.verdict, e.until_)
  life _ := D.cacheTtl
  trusted v := v = .allowed
  now m := ⟨.time, m⟩
  answer jti v := ⟨.denylistLookup jti, v⟩
  put op jti v u := ∃ now, op = .denylistPut jti v now ∧ u = now + D.cacheTtl
  clock_step := World.clock_step D inst
  clock_tick := World.clock_tick D inst
  now_step := World.now_step D inst
  entry_step w t op c i jti v u h hv := by
    obtain ⟨e, he, heq⟩ := Option.map_eq_some_iff.mp h
    cases heq
    rcases World.effect_verdicts he with ⟨h, -⟩ | ⟨rfl, -, v', now, rfl, -, rfl⟩ | ⟨rfl, now, rfl, rfl⟩
    · exact .inl (by rw [h]; rfl)
    · exact .inr ⟨rfl, now, rfl, rfl⟩
    · cases hv
  entry_tick _ _ _ _ := rfl

/-! ### Runs of the system -/

section Runs

variable {D : DenylistOptions} {inst : ℕ → ℕ} {ι α : Type} (code : ι → Bridge α) (w₀ : World)

/-- What a logged step answered and changed. -/
theorem step_eq {ms : List (Move ι Weather)} {y : Step World Op.Ans}
    (hy : y ∈ (Pool.run (World.system D inst) code w₀ ms).log) :
    ∃ c, y.event.ans = y.before.answer (inst y.thread) y.event.op c ∧
      y.after = y.before.effect D (inst y.thread) y.event.op c := by
  obtain ⟨later, earlier, h⟩ := List.append_of_mem hy
  obtain ⟨_, _, _, _, c, _, _, _, _, hs⟩ := Pool.run_split _ code w₀ h
  obtain ⟨h₁, h₂⟩ := Prod.mk.inj hs
  exact ⟨c, h₁.symm, h₂.symm⟩

/-- The thread of a logged step had come, by what it did before, to the step's
operation. -/
theorem step_reaches {ms : List (Move ι Weather)} {later earlier : List (Step World Op.Ans)}
    {y : Step World Op.Ans} (h : (Pool.run (World.system D inst) code w₀ ms).log = later ++ y :: earlier)
    {op : Op} (hop : y.event.op = op) :
    ∃ c q k, (Pool.run (World.system D inst) code w₀ ms).job y.thread = some (c, q) ∧
      (code c).Reaches (trace y.thread earlier) (.call op k) := by
  subst hop
  obtain ⟨ms₁, ms₂, c, k, _, rfl, hl, -, hj, -⟩ := Pool.run_split _ code w₀ h
  obtain ⟨q, hq⟩ := Pool.run_job_append _ code w₀ hj ms₂
  have hr := Pool.run_reaches_some _ code w₀ hj
  rw [hl] at hr
  exact ⟨c, q, k, hq, hr⟩

theorem step_time {ms : List (Move ι Weather)} {y : Step World Op.Ans} {n : ℤ}
    (hy : y ∈ (Pool.run (World.system D inst) code w₀ ms).log) (he : y.event = ⟨.time, n⟩) :
    n = y.before.clock := by
  obtain ⟨c, h, -⟩ := step_eq code w₀ hy
  rw [he] at h
  exact h

theorem step_find {ms : List (Move ι Weather)} {y : Step World Op.Ans} {jti : String}
    {o : Option CacheEntry} (hy : y ∈ (Pool.run (World.system D inst) code w₀ ms).log)
    (he : y.event = ⟨.denylistFind jti, o⟩) : o = (y.before.verdicts (inst y.thread)).lookup jti := by
  obtain ⟨c, h, -⟩ := step_eq code w₀ hy
  rw [he] at h
  exact h

theorem step_tenantFind {ms : List (Move ι Weather)} {y : Step World Op.Ans} {tenant : String}
    {o : Option TenantEntry} (hy : y ∈ (Pool.run (World.system D inst) code w₀ ms).log)
    (he : y.event = ⟨.tenantFind tenant, o⟩) : o = (y.before.tenants (inst y.thread)).lookup tenant := by
  obtain ⟨c, h, -⟩ := step_eq code w₀ hy
  rw [he] at h
  exact h

theorem step_requiresFind {ms : List (Move ι Weather)} {y : Step World Op.Ans} {tenant : String}
    {o : Option (Bool × ℤ)} (hy : y ∈ (Pool.run (World.system D inst) code w₀ ms).log)
    (he : y.event = ⟨.requiresFind tenant, o⟩) :
    o = (y.before.requires (inst y.thread)).lookup tenant := by
  obtain ⟨c, h, -⟩ := step_eq code w₀ hy
  rw [he] at h
  exact h

/-- A lookup answered `allowed` finds nothing stored. -/
theorem step_lookup {ms : List (Move ι Weather)} {y : Step World Op.Ans} {jti : String}
    (hy : y ∈ (Pool.run (World.system D inst) code w₀ ms).log)
    (he : y.event = ⟨.denylistLookup jti, .allowed⟩) : y.before.held jti = false := by
  obtain ⟨c, h, -⟩ := step_eq code w₀ hy
  rw [he] at h
  exact World.lookup_truthful h.symm

/-- While the store holds the token no lookup is answered `allowed`. -/
theorem not_allowed_of_held {ms : List (Move ι Weather)} {y : Step World Op.Ans} {jti : String}
    (hy : y ∈ (Pool.run (World.system D inst) code w₀ ms).log) (hheld : y.before.held jti = true) :
    y.event ≠ ⟨.denylistLookup jti, .allowed⟩ := by
  intro he
  have hfree : y.before.held jti = false := step_lookup code w₀ hy he
  rw [hheld] at hfree
  cases hfree

/-- **A guard refuses what it holds.** Between the acceptance of an identifier
and a later call with it, let no call of the guard have a reading at or past
the expiry; then the later call is refused. -/
theorem guard_refuses {ms : List (Move ι Weather)} {rest mid earlier : List (Step World Op.Ans)}
    {x y : Step World Op.Ans} {g : GuardName} {jti : String} {exp exp' n n' : ℤ} {b : Bool}
    (h : (Pool.run (World.system D inst) code w₀ ms).log = rest ++ y :: (mid ++ x :: earlier))
    (hj : jti ≠ "") (hinst : inst x.thread = inst y.thread)
    (hx : x.event = ⟨.replayAccept g jti exp n, true⟩)
    (hy : y.event = ⟨.replayAccept g jti exp' n', b⟩)
    (hread : ∀ z ∈ y :: mid, inst z.thread = inst y.thread → ∀ j e m,
      z.event.op = .replayAccept g j e m → m < exp) : b = false := by
  obtain ⟨cx, hax, hsx⟩ := step_eq code w₀ (y := x) (by rw [h]; simp)
  obtain ⟨cy, hay, -⟩ := step_eq code w₀ (y := y) (by rw [h]; simp)
  obtain ⟨ms₁, _, _, _, _, rfl, hlog, hstate, -, -⟩ := Pool.run_split _ code w₀ h
  have hheld : (y.before.guards (inst y.thread) g).lookup jti = some exp := by
    rw [← hstate]
    refine (Pool.run_since (World.system D inst) code w₀
      (Q := fun w => (w.guards (inst y.thread) g).lookup jti = some exp)
      (fun _ _ h => h) hlog ?_ ?_).2
    · rw [hx] at hax hsx
      rw [hsx, ← hinst]
      exact World.effect_guards_self hj hax.symm
    · intro z hz hzb
      have hzlog : z ∈ (Pool.run (World.system D inst) code w₀ ms₁).log := by
        rw [hlog]
        simp [hz]
      obtain ⟨cz, -, hsz⟩ := step_eq code w₀ hzlog
      rw [hsz]
      exact World.effect_guards hzb fun j e m hop hi => hread z (.tail _ hz) hi j e m hop
  have hlt : n' < exp := hread y (.head _) rfl jti exp' n' (by rw [hy])
  rw [hy] at hay
  have hb : b = ((y.before.guards (inst y.thread) g).accept jti exp' n').1 := hay
  rw [hb, Bool.eq_false_iff, ne_eq, ReplayGuard.accept_fst hj]
  exact fun hall => absurd (hall exp hheld) (Int.not_le.mpr hlt)

theorem world_clock_step (w : World) (t : ℕ) (op : Op) (c : Weather) :
    ((World.system D inst).step w t op c).2.clock = w.clock := World.effect_clock

theorem world_clock_tick (w : World) (d : ℕ) : w.clock ≤ ((World.system D inst).tick w d).clock := by
  show w.clock ≤ w.clock + d
  omega

/-- No step of the log is ahead of a later one. -/
theorem clock_le {ms : List (Move ι Weather)} {later earlier : List (Step World Op.Ans)}
    {x y : Step World Op.Ans}
    (h : (Pool.run (World.system D inst) code w₀ ms).log = later ++ x :: earlier)
    (hy : y ∈ later) : x.before.clock ≤ y.before.clock := by
  have hp := (Pool.run_clock (World.system D inst) code w₀ world_clock_step world_clock_tick ms).2
  rw [h] at hp
  exact (List.pairwise_append.mp hp).2.2 y hy x (.head _)

/-- No earlier step of the log is ahead of a step. -/
theorem clock_ge {ms : List (Move ι Weather)} {later earlier : List (Step World Op.Ans)}
    {x y : Step World Op.Ans}
    (h : (Pool.run (World.system D inst) code w₀ ms).log = later ++ y :: earlier)
    (hx : x ∈ earlier) : x.before.clock ≤ y.before.clock := by
  obtain ⟨mid, first, rfl⟩ := List.append_of_mem hx
  have hsplit : (Pool.run (World.system D inst) code w₀ ms).log =
      (later ++ y :: mid) ++ x :: first := by
    rw [h]
    simp
  exact clock_le code w₀ hsplit (by simp)

end Runs

end HttpBridge
