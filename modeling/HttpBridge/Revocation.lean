/-
# How fast a revocation takes effect

Calls of `TokenDenylist` run as threads on any number of instances over one
truthful store, with any interleaving of their steps, a clock that does not go
back, and any outages.

On every instance a revocation takes effect within the cache lifetime: once
the store write has landed, no call that begins after it and reads a clock at
least `cache_ttl` later permits the token while the store holds the entry
(`permits_refused_after_landing`). The reason is the stamp: a cached `allowed`
was answered after the clock its stamp counts from.

On the instance that served it a revocation is meant to take effect at once,
for `revoke` seeds the cache. It does unless a check was in flight: one whose
lookup was answered before the revocation may write its answer over the seed
(`not_takesEffectAtOnce`). Without such a check it does
(`check_refused_after_seed`).
-/
import HttpBridge.World

namespace HttpBridge

open Interact TokenDenylist

/-- A call on the denylist of an instance. -/
inductive DenylistCall where
  | check (jti : String)
  | permits (jti : String)
  | revoke (jti : String) (ttlSeconds : ℤ)

inductive DenylistResult where
  | verdict (v : Revocation)
  | permitted (b : Bool)
  | recorded (ok : Bool)
  deriving DecidableEq

/-- The program of a call. -/
def denylistCode (D : DenylistOptions) : DenylistCall → Bridge DenylistResult
  | .check jti => check D jti >>= fun v => .ret (.verdict v)
  | .permits jti => permits D jti >>= fun b => .ret (.permitted b)
  | .revoke jti ttl => revoke D jti ttl >>= fun ok => .ret (.recorded ok)

/-- The pool of calls after a list of moves. -/
abbrev calls (D : DenylistOptions) (inst : ℕ → ℕ) (w₀ : World)
    (ms : List (Move DenylistCall Weather)) : Pool World Op.Ans DenylistCall DenylistResult :=
  Pool.run (World.system D inst) (denylistCode D) w₀ ms

/-! ### The stamp discipline -/

section Stamps

variable {D : DenylistOptions} {inst : ℕ → ℕ}

/-- An operation that caches nothing needs no stamp. -/
theorem stamps_of_ne_put {tr : Trace} {op : Op} (h : ∀ jti v now, op ≠ .denylistPut jti v now) :
    (verdictStamps D inst).Stamps tr op := by
  rintro key v u ⟨now, rfl, -⟩
  exact absurd rfl (h key v now)

theorem check_stamps (jti : String) : (check D jti).Every (verdictStamps D inst).Stamps := by
  refine check_every (fun _ => ?_) (fun _ => ?_) (fun _ => ?_) fun tr v now h => ?_
  · exact stamps_of_ne_put fun _ _ _ => nofun
  · exact stamps_of_ne_put fun _ _ _ => nofun
  · exact stamps_of_ne_put fun _ _ _ => nofun
  · rintro key v' u ⟨now', he, rfl⟩ -
    cases he
    exact ⟨now, h, le_rfl⟩

theorem revoke_stamps (jti : String) (ttl : ℤ) :
    (revoke D jti ttl).Every (verdictStamps D inst).Stamps := by
  refine revoke_calls.every fun tr op h => stamps_of_ne_put fun _ _ _ => ?_
  rintro rfl
  rcases h with ⟨h, -⟩ | h | ⟨_, h⟩ <;> cases h

theorem code_stamps (c : DenylistCall) : (denylistCode D c).Every (verdictStamps D inst).Stamps := by
  have hret : ∀ {β γ : Type} {p : Bridge β} {f : β → γ},
      p.Every (verdictStamps D inst).Stamps →
      (p >>= fun b => Prog.ret (f b)).Every (verdictStamps D inst).Stamps := by
    intro β γ p f h tr op k hr
    obtain ⟨k', hr'⟩ := Prog.reaches_bind_ret_call hr
    exact h tr op k' hr'
  cases c with
  | check jti => exact hret (check_stamps jti)
  | permits jti => exact hret (hret (check_stamps jti))
  | revoke jti ttl => exact hret (revoke_stamps jti ttl)

end Stamps

/-! ### After the store write has landed -/

/-- The revocation stands from a step on: there the store write landed, and at
the later steps the store holds the entry. -/
structure StandsFrom (jti : String) (x : Step World Op.Ans) (later : List (Step World Op.Ans)) :
    Prop where
  lands : ∃ ttl, x.event.op = .denylistStore jti ttl ∧
    x.after.store jti = some (x.before.clock + ttl)
  held : ∀ y ∈ later, y.before.held jti = true

section Landed

variable {D : DenylistOptions} {inst : ℕ → ℕ} {ι α : Type} {code : ι → Bridge α} {w₀ : World}
  {jti : String}

/-- While a revocation stands, an `allowed` verdict found unexpired in a cache
has a stamp no later than the lifetime of the cache after the landing. -/
theorem found_not_allowed (hcode : ∀ c, (code c).Every (verdictStamps D inst).Stamps)
    (h₀ : ∀ i, w₀.verdicts i = ∅) {ms : List (Move ι Weather)}
    {rest later earlier : List (Step World Op.Ans)} {x y : Step World Op.Ans}
    (hlog : (Pool.run (World.system D inst) code w₀ ms).log = rest ++ (later ++ x :: earlier))
    (hheld : ∀ y ∈ later, y.before.held jti = true) (hy : y ∈ later) {e : CacheEntry}
    (hfind : y.event = ⟨.denylistFind jti, some e⟩) {n : ℤ} (hn : n < e.until_)
    (hread : x.before.clock + D.cacheTtl ≤ n) : e.verdict ≠ .allowed := by
  intro hv
  obtain ⟨l₂, l₁, rfl⟩ := List.append_of_mem hy
  have hl : (Pool.run (World.system D inst) code w₀ ms).log =
      (rest ++ l₂) ++ y :: (l₁ ++ x :: earlier) := by
    rw [hlog]
    simp
  have hentry : ((y.before.verdicts (inst y.thread)).lookup jti) = some e :=
    (step_find code w₀ (by rw [hl]; simp) hfind).symm
  have hcached : (verdictStamps D inst).entry y.before (inst y.thread) jti =
      some (.allowed, e.until_) := by
    simp [verdictStamps, hentry, hv]
  -- the answer the entry records was given after the landing, and the store held the token then
  obtain ⟨z, hz, -, hze, hzn⟩ := (verdictStamps D inst).answered_lt code w₀ hcode
    (fun i key v u he hv => by simp [verdictStamps, h₀ i] at he) hl hcached rfl hn
  obtain ⟨ms₁, ms₂, _, _, _, rfl, hlog₁, -⟩ := Pool.run_split _ code w₀ hl
  have hlt : x.before.clock < z.before.clock := by
    change n - D.cacheTtl < z.before.clock at hzn
    omega
  have hz₁ : z ∈ l₁ := Pool.run_clock_lt (World.system D inst) code w₀ world_clock_step
    world_clock_tick hlog₁ (by rw [hlog₁]; exact hz) hlt
  have hzlog : z ∈ (Pool.run (World.system D inst) code w₀ ms₁).log := by
    rw [hlog₁]
    exact hz
  exact not_allowed_of_held code w₀ hzlog (hheld z (by simp [hz₁])) hze

/-- A check all of whose steps come while a revocation stands, with a reading
no less than the cache lifetime after the landing, does not answer `allowed`. -/
theorem check_not_allowed (hcode : ∀ c, (code c).Every (verdictStamps D inst).Stamps)
    (h₀ : ∀ i, w₀.verdicts i = ∅) (hD : D.enabled = true) (hj : jti ≠ "")
    {ms : List (Move ι Weather)} {rest later earlier : List (Step World Op.Ans)}
    {x : Step World Op.Ans}
    (hlog : (Pool.run (World.system D inst) code w₀ ms).log = rest ++ (later ++ x :: earlier))
    (hheld : ∀ y ∈ later, y.before.held jti = true) {tr : Trace} {v : Revocation}
    (hcheck : (check D jti).Yields tr v) (hin : ∀ e ∈ tr, ∃ y ∈ later, y.event = e)
    (hread : ∀ n, ⟨.time, n⟩ ∈ tr → x.before.clock + max D.cacheTtl 0 ≤ n) : v ≠ .allowed := by
  obtain ⟨n, ⟨e, rfl, hn, rfl⟩ | ⟨o, rfl, -⟩⟩ := (check_yields hD hj).mp hcheck
  · have hr := hread n (.head _)
    obtain ⟨y, hy, hye⟩ := hin ⟨.denylistFind jti, some e⟩ (.tail _ (.head _))
    exact found_not_allowed hcode h₀ hlog hheld hy hye hn (by omega)
  · rintro rfl
    obtain ⟨y, hy, hye⟩ := hin ⟨.denylistLookup jti, .allowed⟩ (by simp [missTrace])
    have hmem : y ∈ (Pool.run (World.system D inst) code w₀ ms).log := by
      rw [hlog]
      simp [hy]
    exact not_allowed_of_held code w₀ hmem (hheld y hy) hye

/-- What a thread did in a stretch of the log, when it did nothing else. -/
theorem trace_within {τ : ℕ} {rest later earlier : List (Step World Op.Ans)}
    {x : Step World Op.Ans} (hrest : ∀ y ∈ rest, y.thread ≠ τ)
    (hbegin : ∀ y ∈ x :: earlier, y.thread ≠ τ) :
    trace τ (rest ++ (later ++ x :: earlier)) = trace τ later := by
  rw [trace_append, trace_append, trace_eq_nil hrest, trace_eq_nil hbegin]
  simp

theorem exists_of_mem_trace {τ : ℕ} {l : List (Step World Op.Ans)} {e : Event Op.Ans}
    (h : e ∈ trace τ l) : ∃ y ∈ l, y.event = e := by
  obtain ⟨y, hy, -, he⟩ := (mem_trace τ e l).mp h
  exact ⟨y, hy, he⟩

end Landed

/-! ### On every instance -/

section Calls

variable {D : DenylistOptions} {inst : ℕ → ℕ} {w₀ : World} {jti : String}

/-- A call about to cache a verdict has done no more than miss and look up. -/
theorem denylistCode_put {c : DenylistCall} {tr : Trace} {v : Revocation} {m : ℤ}
    {k : Unit → Bridge DenylistResult}
    (h : (denylistCode D c).Reaches tr (.call (.denylistPut jti v m) k)) :
    ∃ o, tr = missTrace jti m o v := by
  have hcheck : ∀ {j : String} {k : Unit → Bridge Revocation},
      (check D j).Reaches tr (.call (.denylistPut jti v m) k) → ∃ o, tr = missTrace jti m o v := by
    intro j k h
    by_cases hd : D.enabled = false ∨ j = ""
    · rw [check_of_disabled hd] at h
      simp at h
    · obtain ⟨hD, hj⟩ := not_or.mp hd
      rcases check_reaches (by simpa using hD) hj h with ⟨-, h⟩ | ⟨_, -, h⟩ | ⟨_, _, -, h, -⟩ |
        ⟨now, o, v', rfl, h, -⟩
      · cases h
      · cases h
      · cases h
      · cases h
        exact ⟨o, rfl⟩
  cases c with
  | check j =>
    obtain ⟨_, h⟩ := Prog.reaches_bind_ret_call h
    exact hcheck h
  | permits j =>
    obtain ⟨_, h⟩ := Prog.reaches_bind_ret_call h
    obtain ⟨_, h⟩ := Prog.reaches_bind_ret_call h
    exact hcheck h
  | revoke j ttl =>
    obtain ⟨_, h⟩ := Prog.reaches_bind_ret_call h
    rcases (revoke_calls.of_reaches h).2.1 with ⟨h, -⟩ | h | ⟨_, h⟩ <;> cases h

/-- A call about to seed the cache has looked up nothing. -/
theorem denylistCode_seed {c : DenylistCall} {tr : Trace} {j : String} {m : ℤ}
    {k : Unit → Bridge DenylistResult}
    (h : (denylistCode D c).Reaches tr (.call (.denylistSeed j m) k)) (v : Revocation) :
    ⟨.denylistLookup jti, v⟩ ∉ tr := by
  have hcheck : ∀ {j' : String} {k : Unit → Bridge Revocation},
      ¬ (check D j').Reaches tr (.call (.denylistSeed j m) k) := by
    intro j' k h
    rcases (check_calls.of_reaches h).2.1 with h | h | h | ⟨_, _, h⟩ <;> cases h
  cases c with
  | check j =>
    obtain ⟨_, h⟩ := Prog.reaches_bind_ret_call h
    exact absurd h hcheck
  | permits j =>
    obtain ⟨_, h⟩ := Prog.reaches_bind_ret_call h
    obtain ⟨_, h⟩ := Prog.reaches_bind_ret_call h
    exact absurd h hcheck
  | revoke j ttl =>
    obtain ⟨_, h⟩ := Prog.reaches_bind_ret_call h
    intro he
    rcases (revoke_calls.of_reaches h).1 _ he with ⟨h, -⟩ | h | ⟨_, h⟩ <;> cases h

/-- A call about to write the store names the token. -/
theorem denylistCode_store {c : DenylistCall} {tr : Trace} {ttl : ℤ}
    {k : Bool → Bridge DenylistResult}
    (h : (denylistCode D c).Reaches tr (.call (.denylistStore jti ttl) k)) : jti ≠ "" := by
  cases c with
  | check j =>
    obtain ⟨_, h⟩ := Prog.reaches_bind_ret_call h
    rcases (check_calls.of_reaches h).2.1 with h | h | h | ⟨_, _, h⟩ <;> cases h
  | permits j =>
    obtain ⟨_, h⟩ := Prog.reaches_bind_ret_call h
    obtain ⟨_, h⟩ := Prog.reaches_bind_ret_call h
    rcases (check_calls.of_reaches h).2.1 with h | h | h | ⟨_, _, h⟩ <;> cases h
  | revoke j ttl =>
    obtain ⟨_, h⟩ := Prog.reaches_bind_ret_call h
    rcases (revoke_calls.of_reaches h).2.1 with ⟨h, hj, -⟩ | h | ⟨_, h⟩ <;> cases h
    exact hj

/-- After a lookup that failed, no step of the call changes a cache. -/
theorem unknown_leaves_caches {ms : List (Move DenylistCall Weather)}
    {later earlier : List (Step World Op.Ans)} {y : Step World Op.Ans}
    (hlog : (calls D inst w₀ ms).log = later ++ y :: earlier)
    (hu : ⟨.denylistLookup jti, .unknown⟩ ∈ trace y.thread earlier) :
    y.after.verdicts = y.before.verdicts := by
  obtain ⟨c, -, hafter⟩ := step_eq _ w₀ (y := y) (by rw [hlog]; simp)
  obtain ⟨call, q, k, -, hr⟩ := step_reaches _ w₀ hlog rfl
  obtain ⟨τ, before, ⟨op, a⟩, after⟩ := y
  dsimp only at hafter hr hu ⊢
  rw [hafter]
  by_cases hput : ∃ j v m, op = .denylistPut j v m
  · obtain ⟨j, v, m, rfl⟩ := hput
    obtain ⟨o, ho⟩ := denylistCode_put hr
    rw [ho] at hu
    have hv : v = .unknown := by
      simp only [missTrace, List.mem_cons, List.not_mem_nil, or_false] at hu
      rcases hu with h | h | h <;> cases h
      rfl
    subst hv
    simp [World.effect, cachePutLocked_unknown]
  · by_cases hseed : ∃ j m, op = .denylistSeed j m
    · obtain ⟨j, m, rfl⟩ := hseed
      exact absurd hu (denylistCode_seed hr .unknown)
    · exact World.effect_verdicts_eq (fun j v m h => hput ⟨j, v, m, h⟩)
        fun j m h => hseed ⟨j, m, h⟩

/-- **A revocation takes effect within the cache lifetime, everywhere.** While
the store holds it, a call that begins after its write has landed at clock `t`
and reads a clock no less than `t + max(cache_ttl, 0)` does not permit the
token, on any instance; and a lookup that failed neither permits the token nor
changes a cache. -/
theorem permits_refused_after_landing (hD : D.enabled = true) (hopen : D.failOpen = false)
    (hj : jti ≠ "") (h₀ : ∀ i, w₀.verdicts i = ∅) (ms : List (Move DenylistCall Weather)) :
    (∀ (rest later earlier : List (Step World Op.Ans)) (x : Step World Op.Ans) (τ : ℕ) (b : Bool)
      (n : ℤ), (calls D inst w₀ ms).log = rest ++ (later ++ x :: earlier) →
      StandsFrom jti x later → (∀ y ∈ rest, y.thread ≠ τ) → (∀ y ∈ x :: earlier, y.thread ≠ τ) →
      (calls D inst w₀ ms).job τ = some (.permits jti, .ret (.permitted b)) →
      ⟨.time, n⟩ ∈ trace τ (calls D inst w₀ ms).log → x.before.clock + max D.cacheTtl 0 ≤ n →
      b = false) ∧
    (∀ (τ : ℕ) (b : Bool), (calls D inst w₀ ms).job τ = some (.permits jti, .ret (.permitted b)) →
      ⟨.denylistLookup jti, .unknown⟩ ∈ trace τ (calls D inst w₀ ms).log → b = false) ∧
    ∀ (later earlier : List (Step World Op.Ans)) (y : Step World Op.Ans),
      (calls D inst w₀ ms).log = later ++ y :: earlier →
      ⟨.denylistLookup jti, .unknown⟩ ∈ trace y.thread earlier →
      y.after.verdicts = y.before.verdicts := by
  have hdone : ∀ {τ : ℕ} {b : Bool},
      (calls D inst w₀ ms).job τ = some (.permits jti, .ret (.permitted b)) →
      ∃ v, (check D jti).Yields (trace τ (calls D inst w₀ ms).log) v ∧ b = honours D v := by
    intro τ b hjob
    have hr := Pool.run_reaches_some (World.system D inst) (denylistCode D) w₀ hjob
    obtain ⟨b', hy, he⟩ := (Prog.yields_bind_ret _ _ _ _).mp hr
    cases he
    exact permits_yields.mp hy
  have hrefuse : ∀ v, v ≠ .allowed → honours D v = false := by
    intro v hv
    cases v with
    | allowed => exact absurd rfl hv
    | revoked => rfl
    | unknown => exact hopen
  refine ⟨?_, ?_, fun later earlier y => unknown_leaves_caches⟩
  · intro rest later earlier x τ b n hlog hstands hrest hbegin hjob htime hn
    obtain ⟨v, hcheck, rfl⟩ := hdone hjob
    have htr : trace τ (rest ++ (later ++ x :: earlier)) = trace τ later := trace_within hrest hbegin
    rw [← hlog] at htr
    rw [htr] at hcheck htime
    refine hrefuse v (check_not_allowed code_stamps h₀ hD hj hlog hstands.held hcheck
      (fun e he => exists_of_mem_trace he) fun n' hn' => ?_)
    rwa [check_time_unique hD hj hcheck hn' htime]
  · intro τ b hjob hu
    obtain ⟨v, hcheck, rfl⟩ := hdone hjob
    refine hrefuse v ?_
    rw [← check_lookup hD hj hcheck hu]
    decide

/-- A sign-out on one instance, and five seconds later a request on another. -/
def signOutThenUse : List (Move DenylistCall Weather) :=
  [.exec 1 .fair, .exec 1 .fair, .exec 1 .fair, .exec 1 .fair, .spawn 1 (.permits "j"), .tick 5,
    .exec 0 .fair, .exec 0 .fair, .exec 0 .fair, .spawn 0 (.revoke "j" 100)]

theorem signOutThenUse_refused :
    (calls {} id {} signOutThenUse).job 1 ≠ some (.permits "j", .ret (.permitted true)) := fun h =>
  absurd ((permits_refused_after_landing rfl rfl (by decide) (fun _ => rfl) signOutThenUse).1
    [] [_, _, _, _, _, _] [] _ 1 true 5 rfl ⟨⟨100, rfl, rfl⟩, by decide⟩ (by decide) (by decide) h
    (by exact List.mem_cons_self) (by decide)) (by decide)

/-! ### On the instance that served it -/

/-- On the instance of a successful revocation, no check that begins after it
has returned (its last step seeds the cache) answers `allowed` while the store
holds the entry. -/
def TakesEffectAtOnce (D : DenylistOptions) (inst : ℕ → ℕ) (w₀ : World)
    (ms : List (Move DenylistCall Weather)) : Prop :=
  ∀ (rest later mid earlier : List (Step World Op.Ans)) (x s : Step World Op.Ans) (jti : String)
    (ttl m : ℤ) (τ : ℕ) (v : Revocation),
    (calls D inst w₀ ms).log = rest ++ (later ++ s :: (mid ++ x :: earlier)) →
    x.thread = s.thread → x.event = ⟨.denylistStore jti ttl, true⟩ →
    s.event = ⟨.denylistSeed jti m, ()⟩ → StandsFrom jti x (later ++ s :: mid) →
    inst τ = inst s.thread → (∀ y ∈ rest, y.thread ≠ τ) →
    (∀ y ∈ s :: (mid ++ x :: earlier), y.thread ≠ τ) →
    (calls D inst w₀ ms).job τ = some (.check jti, .ret (.verdict v)) → v ≠ .allowed

/-- When a step seeds the cache of an instance, no check of the token there
holds an `allowed` answer that it has yet to cache and that would be trusted
past the clock of that step. -/
def NoneInFlight (D : DenylistOptions) (inst : ℕ → ℕ) (s : Step World Op.Ans)
    (earlier : List (Step World Op.Ans)) : Prop :=
  ∀ (jti : String) (n : ℤ), s.event.op = .denylistSeed jti n → ∀ τ, inst τ = inst s.thread →
    ∀ m o, trace τ earlier = missTrace jti m o .allowed → m + D.cacheTtl ≤ s.before.clock

/-- An `allowed` verdict in a cache was written by a step of the instance, and
no later step there seeded a revocation over it. -/
theorem exists_last_write (h₀ : ∀ i, w₀.verdicts i = ∅) (ms : List (Move DenylistCall Weather))
    {i : ℕ} {u : ℤ} (he : ((calls D inst w₀ ms).state.verdicts i).lookup jti = some ⟨.allowed, u⟩) :
    ∃ l₂ p l₁ m, (calls D inst w₀ ms).log = l₂ ++ p :: l₁ ∧ inst p.thread = i ∧
      p.event.op = .denylistPut jti .allowed m ∧ u = m + D.cacheTtl ∧ 0 < D.cacheTtl ∧
      ∀ q ∈ l₂, inst q.thread = i → ∀ n, q.event.op ≠ .denylistSeed jti n := by
  refine Pool.run_invariant (World.system D inst) (denylistCode D) w₀ (Φ := fun _ _ => True)
    (J := fun w l => ∀ i u, (w.verdicts i).lookup jti = some ⟨.allowed, u⟩ →
      ∃ l₂ p l₁ m, l = l₂ ++ p :: l₁ ∧ inst p.thread = i ∧
        p.event.op = .denylistPut jti .allowed m ∧ u = m + D.cacheTtl ∧ 0 < D.cacheTtl ∧
        ∀ q ∈ l₂, inst q.thread = i → ∀ n, q.event.op ≠ .denylistSeed jti n)
    (fun _ _ _ _ _ => trivial) ?_ ?_ ?_ ms i u he
  · intro i u he
    simp [h₀ i] at he
  · exact fun w l d h => h
  · intro w l t op c hJ _ i u he
    rcases World.effect_verdicts he with ⟨he, hseed⟩ | ⟨rfl, ht, v, m, rfl, -, hv⟩ |
      ⟨-, m, -, hv⟩
    · obtain ⟨l₂, p, l₁, m, rfl, hi, hp, hu, ht, hq⟩ := hJ i u he
      refine ⟨_ :: l₂, p, l₁, m, rfl, hi, hp, hu, ht, fun q hq' hqi n => ?_⟩
      rcases List.mem_cons.mp hq' with rfl | hq'
      · intro hn
        have := hseed n hn hqi.symm
        omega
      · exact hq q hq' hqi n
    · cases hv
      exact ⟨[], _, l, m, rfl, rfl, rfl, rfl, ht, by simp⟩
    · cases hv

/-- A miss whose lookup was not answered in the later part of a stretch was
all done in the earlier part. -/
theorem trace_of_miss_append {τ : ℕ} {l₁ l₂ : List (Step World Op.Ans)} {m : ℤ}
    {o : Option CacheEntry} {v : Revocation} (h : trace τ (l₂ ++ l₁) = missTrace jti m o v)
    (hl : ∀ z ∈ l₂, z.event ≠ ⟨.denylistLookup jti, v⟩) : trace τ l₂ = [] := by
  rw [trace_append] at h
  rcases List.eq_nil_or_concat (trace τ l₂) with h₂ | ⟨tr, e, h₂⟩
  · exact h₂
  · rw [h₂, List.concat_eq_append, ← List.append_assoc] at h
    have h' : trace τ l₁ ++ tr ++ [e] =
        [⟨.time, m⟩, ⟨.denylistFind jti, o⟩] ++ [⟨.denylistLookup jti, v⟩] := h
    obtain ⟨-, he⟩ := List.append_inj' h' rfl
    obtain ⟨z, hz, hze⟩ := exists_of_mem_trace (τ := τ) (l := l₂) (e := e) (by rw [h₂]; simp)
    exact absurd (hze.trans (List.cons.inj he).1) (hl z hz)

/-- Where `p` stands in a list, when it is not `s` and `s` does not come
before it. -/
theorem split_after {β : Type} {b l₂ S l₁ : List β} {s p : β} (h : b ++ s :: S = l₂ ++ p :: l₁)
    (hne : p ≠ s) (hs : s ∉ l₂) : ∃ c, b = l₂ ++ p :: c ∧ l₁ = c ++ s :: S := by
  rcases List.append_eq_append_iff.mp h with ⟨c, rfl, hc⟩ | ⟨c, rfl, hc⟩
  · cases c with
    | nil => exact absurd (List.cons.inj hc).1.symm hne
    | cons a c =>
      obtain ⟨rfl, -⟩ := List.cons.inj hc
      simp at hs
  · cases c with
    | nil => exact absurd (List.cons.inj hc).1 hne
    | cons a c =>
      obtain ⟨rfl, rfl⟩ := List.cons.inj hc
      exact ⟨c, rfl, rfl⟩

/-- A check that caches `allowed` after a seed, while the revocation stands from
before the seed on, had its answer before the landing: it was in flight at the
seed. -/
theorem in_flight_at_seed {ms : List (Move DenylistCall Weather)}
    {later mid c earlier : List (Step World Op.Ans)} {p s x : Step World Op.Ans} {m : ℤ}
    (hlog : (calls D inst w₀ ms).log = later ++ p :: (c ++ s :: (mid ++ x :: earlier)))
    (hput : p.event.op = .denylistPut jti .allowed m)
    (hheld : ∀ z ∈ c ++ s :: mid, z.before.held jti = true) :
    ∃ o, trace p.thread (mid ++ x :: earlier) = missTrace jti m o .allowed := by
  obtain ⟨_, _, _, -, hr⟩ := step_reaches (denylistCode D) w₀ hlog hput
  obtain ⟨o, ho⟩ := denylistCode_put hr
  refine ⟨o, ?_⟩
  have hsplit : c ++ s :: (mid ++ x :: earlier) = (c ++ s :: mid) ++ x :: earlier := by simp
  -- nothing of it was done after the landing, for there the store held the token
  have hnone : trace p.thread (c ++ s :: mid) = [] := by
    rw [hsplit] at ho hlog
    refine trace_of_miss_append ho fun z hz => ?_
    have hzlog : z ∈ (calls D inst w₀ ms).log := by
      rw [hlog]
      exact List.mem_append_right _ (.tail _ (List.mem_append_left _ hz))
    exact not_allowed_of_held _ w₀ hzlog (hheld z hz)
  have hmid : trace p.thread mid = [] := by
    rw [show c ++ s :: mid = (c ++ [s]) ++ mid by simp, trace_append] at hnone
    exact (List.append_eq_nil_iff.mp hnone).1
  rw [hsplit, trace_append, hnone, List.append_nil] at ho
  rw [trace_append, hmid, List.append_nil, ho]

/-- **At once, when nothing was in flight.** In a run in which no check is in
flight whenever an instance's cache is seeded, a revocation takes effect at
once on the instance that served it. -/
theorem check_refused_after_seed (hD : D.enabled = true) (h₀ : ∀ i, w₀.verdicts i = ∅)
    (ms : List (Move DenylistCall Weather))
    (hflight : ∀ later s earlier, (calls D inst w₀ ms).log = later ++ s :: earlier →
      NoneInFlight D inst s earlier) : TakesEffectAtOnce D inst w₀ ms := by
  intro rest later mid earlier x s jti ttl m τ v hlog hxs hx hs hstands hinst hrest hbegin hjob
  rintro rfl
  have hj : jti ≠ "" := by
    have hsplit : (calls D inst w₀ ms).log = (rest ++ (later ++ s :: mid)) ++ x :: earlier := by
      rw [hlog]
      simp
    have hop : x.event.op = .denylistStore jti ttl := by rw [hx]
    obtain ⟨_, _, _, -, hr⟩ := step_reaches (denylistCode D) w₀ hsplit hop
    exact denylistCode_store hr
  obtain ⟨v, hcheck, hv⟩ := (Prog.yields_bind_ret _ _ _ _).mp
    (Pool.run_reaches_some (World.system D inst) (denylistCode D) w₀ hjob)
  cases hv
  rw [show trace τ (Pool.run (World.system D inst) (denylistCode D) w₀ ms).log = trace τ later by
    rw [hlog]; exact trace_within hrest hbegin] at hcheck
  have hin : ∀ e ∈ trace τ later, ∃ y ∈ later, y.thread = τ ∧ y.event = e := fun e he =>
    (mem_trace τ e later).mp he
  have hmemlog : ∀ y ∈ later, y ∈ (calls D inst w₀ ms).log := fun y hy => by
    rw [hlog]
    simp [hy]
  obtain ⟨n, ⟨e, htr, hn, hv⟩ | ⟨o, htr, -⟩⟩ := (check_yields hD hj).mp hcheck
  · -- a hit: the entry was written after the seed, by a check whose lookup was answered before it
    obtain ⟨t, ht, htτ, hte⟩ := hin ⟨.time, n⟩ (by rw [htr]; exact .head _)
    obtain ⟨y, hy, hyτ, hye⟩ := hin ⟨.denylistFind jti, some e⟩ (by rw [htr]; exact .tail _ (.head _))
    have hsn : s.before.clock ≤ n := by
      rw [step_time _ w₀ (hmemlog t ht) hte]
      have hsplit : (calls D inst w₀ ms).log = (rest ++ later) ++ s :: (mid ++ x :: earlier) := by
        rw [hlog]
        simp
      exact clock_le _ w₀ hsplit (List.mem_append_right _ ht)
    have hfind := step_find _ w₀ (hmemlog y hy) hye
    obtain ⟨a, b, rfl⟩ := List.append_of_mem hy
    have hthere : (calls D inst w₀ ms).log =
        (rest ++ a) ++ y :: (b ++ s :: (mid ++ x :: earlier)) := by
      rw [hlog]
      simp
    obtain ⟨ms₁, _, _, _, _, rfl, hlog₁, hstate, -⟩ := Pool.run_split (World.system D inst)
      (denylistCode D) w₀ hthere
    have hcached : ((calls D inst w₀ ms₁).state.verdicts (inst τ)).lookup jti =
        some ⟨.allowed, e.until_⟩ := by
      rw [hstate, ← hyτ, ← hfind, hv]
    obtain ⟨l₂, p, l₁, m', hsplit, hp, hpop, hu, -, hseed⟩ := exists_last_write h₀ ms₁ hcached
    rw [hlog₁] at hsplit
    obtain ⟨c, rfl, rfl⟩ := split_after hsplit
      (by rintro rfl; rw [hs] at hpop; cases hpop)
      (fun h => hseed s h hinst.symm m (by rw [hs]))
    have hheld : ∀ z ∈ c ++ s :: mid, z.before.held jti = true := fun z hz =>
      hstands.held z (by simp only [List.mem_append, List.mem_cons] at hz ⊢; tauto)
    obtain ⟨o, hflown⟩ := in_flight_at_seed (hlog₁.trans hsplit) hpop hheld
    have := hflight (rest ++ (a ++ y :: (l₂ ++ p :: c))) s (mid ++ x :: earlier)
      (by rw [hlog]; simp) jti m (by rw [hs]) p.thread (hp.trans hinst) m' o hflown
    omega
  · obtain ⟨y, hy, -, hye⟩ := hin ⟨.denylistLookup jti, .allowed⟩ (by rw [htr]; simp [missTrace])
    exact not_allowed_of_held _ w₀ (hmemlog y hy) (hstands.held y (by simp [hy])) hye

/-- A sign-out and then a check on the same instance. -/
def signOutThenCheck : List (Move DenylistCall Weather) :=
  [.exec 1 .fair, .exec 1 .fair, .spawn 1 (.check "j"),
    .exec 0 .fair, .exec 0 .fair, .exec 0 .fair, .spawn 0 (.revoke "j" 100)]

theorem signOutThenCheck_takesEffectAtOnce :
    TakesEffectAtOnce {} (fun _ => 0) {} signOutThenCheck := by
  refine check_refused_after_seed rfl (fun _ => rfl) signOutThenCheck fun later s earlier h => ?_
  intro jti n hs τ _ m o htr
  -- the seed is the third step, too early for a miss before it
  have hlen : earlier.length = 2 := by
    rcases later with _ | ⟨_, _ | ⟨_, _ | ⟨_, _ | ⟨_, _ | ⟨_, later⟩⟩⟩⟩⟩
    case cons.cons.cons.cons.cons =>
      have : 5 = (later ++ s :: earlier).length + 5 := congrArg List.length h
      simp at this
    all_goals
      cases h
      first | rfl | cases hs
  have hle := trace_length_le τ earlier
  rw [htr, hlen] at hle
  exact absurd hle (by simp [missTrace])

/-- A check is answered before a sign-out on its instance and caches the answer
after it; a second check begins then. -/
def checkInFlight : List (Move DenylistCall Weather) :=
  [.exec 2 .fair, .exec 2 .fair, .spawn 2 (.check "j"), .exec 1 .fair,
    .exec 0 .fair, .exec 0 .fair, .exec 0 .fair, .spawn 0 (.revoke "j" 100),
    .exec 1 .fair, .exec 1 .fair, .exec 1 .fair, .spawn 1 (.check "j")]

/-- **Not always at once.** The second check finds the answer of the first. -/
theorem not_takesEffectAtOnce : ¬ ∀ ms, TakesEffectAtOnce {} (fun _ => 0) {} ms := fun h =>
  h checkInFlight [] [_, _, _] [_] [_, _, _] _ _ "j" 100 0 2 .allowed rfl rfl rfl rfl
    ⟨⟨100, rfl, rfl⟩, by decide⟩ rfl (by decide) (by decide) rfl rfl

end Calls

end HttpBridge
