/-
# How stale a stamped cache can be

Each site of a system keeps a cache of the answers its threads obtain. A
thread reads the clock, asks, and stores the answer with the time until which
it is to be trusted: the reading plus a lifetime that depends on the answer.
The three are separate steps with anything in between, and an answer may be
stored long after it was given.

`StampedCache` says which steps read the clock, answer and store, and what
the system guarantees; `Stamps` is the discipline asked of the programs: what
is stored was answered after the clock reading its stamp is computed from.
Then an entry trusted until `u` was answered to a thread of its site that had
read the clock at most a lifetime before `u` (`StampedCache.stamped`,
`StampedCache.answered`). So whoever finds the entry still trusted relies on an
answer less than a lifetime old (`StampedCache.stamped_lt`,
`StampedCache.answered_lt`), however the steps interleave. The same holds where
any of several events justifies an answer (`JustifiedCache`). Where the threads
look the entries up themselves, whoever relies on one or asks on his own relies
on a recent answer (`ReadCache.relies_recent`).
-/
import HttpBridge.Interact.Pool
import Mathlib.Algebra.Order.Group.Int
import Mathlib.Tactic.Linarith

namespace Interact

variable {σ Op : Type} {Ans : Op → Type} {κ ι α : Type}

/-- A cache kept by every site of a system, of answers `V` under keys `K`, each
justified by any of several events. Only the entries of `trusted` answers are
claimed to be stamped. -/
structure JustifiedCache (S : System σ Op Ans κ) (I K V : Type) where
  /-- The site a thread runs at. -/
  site : ℕ → I
  entry : σ → I → K → Option (V × ℤ)
  /-- How long an answer is trusted after the clock reading before it. -/
  life : V → ℤ
  trusted : V → Prop
  now : ℤ → Event Ans
  justifies : K → V → Event Ans → Prop
  put : Op → K → V → ℤ → Prop
  entry_step : ∀ s t op k i key v u, entry (S.step s t op k).2 i key = some (v, u) → trusted v →
    entry s i key = some (v, u) ∨ (site t = i ∧ put op key v u)
  entry_tick : ∀ s d i key, entry (S.tick s d) i key = entry s i key

namespace JustifiedCache

variable {S : System σ Op Ans κ} {I K V : Type} (C : JustifiedCache S I K V)

/-- What a program about to perform `op` after `tr` must have done: a trusted
answer is stored after the clock was read and then what justifies it seen, with
a stamp no later than a lifetime after the reading. -/
def Stamps (tr : List (Event Ans)) (op : Op) : Prop :=
  ∀ key v u, C.put op key v u → C.trusted v →
    ∃ m e, C.justifies key v e ∧ [C.now m, e].Sublist tr ∧ u ≤ m + C.life v

theorem Stamps.append {C : JustifiedCache S I K V} {tr : List (Event Ans)} {op : Op}
    (h : C.Stamps tr op) (tr₀ : List (Event Ans)) : C.Stamps (tr₀ ++ tr) op := by
  intro key v u hp hv
  obtain ⟨m, e, he, hs, hu⟩ := h key v u hp hv
  exact ⟨m, e, he, hs.trans (List.sublist_append_right _ _), hu⟩

/-- Some thread of the site has read the clock and then seen what justifies the
answer, which was trusted until `u`. -/
def StampedBy (i : I) (key : K) (v : V) (u : ℤ) (l : List (Step σ Ans)) : Prop :=
  ∃ t m e, C.site t = i ∧ C.justifies key v e ∧ [C.now m, e].Sublist (trace t l) ∧ u ≤ m + C.life v

variable (code : ι → Prog Op Ans α) (s₀ : σ)

/-- **Every trusted entry was stamped.** A trusted entry is justified by what a
thread of its site saw after the reading its stamp is computed from. -/
theorem stamped (hcode : ∀ c, (code c).Every C.Stamps)
    (h₀ : ∀ i key v u, C.entry s₀ i key = some (v, u) → ¬ C.trusted v) (ms : List (Move ι κ))
    {i : I} {key : K} {v : V} {u : ℤ}
    (he : C.entry (Pool.run S code s₀ ms).state i key = some (v, u)) (hv : C.trusted v) :
    C.StampedBy i key v u (Pool.run S code s₀ ms).log := by
  refine Pool.run_invariant S code s₀ hcode
    (J := fun s l => ∀ i key v u, C.entry s i key = some (v, u) → C.trusted v →
      C.StampedBy i key v u l)
    (fun i key v u he hv => absurd hv (h₀ i key v u he)) ?_ ?_ ms i key v u he hv
  · intro s l d h i key v u he
    rw [C.entry_tick] at he
    exact h i key v u he
  · intro s l t op k h hΦ i key v u he hv
    have hgrow : ∀ t', (trace t' l).Sublist
        (trace t' (⟨t, s, ⟨op, (S.step s t op k).1⟩, (S.step s t op k).2⟩ :: l)) := fun t' =>
      trace_sublist t' (List.suffix_cons _ l)
    rcases C.entry_step s t op k i key v u he hv with he | ⟨rfl, hp⟩
    · obtain ⟨t', m, e, ht, hj, hs, hu⟩ := h i key v u he hv
      exact ⟨t', m, e, ht, hj, hs.trans (hgrow t'), hu⟩
    · obtain ⟨m, e, hj, hs, hu⟩ := hΦ key v u hp hv
      exact ⟨t, m, e, rfl, hj, hs.trans (hgrow t), hu⟩

/-- A trusted entry found at a logged step, at a clock before its stamp, was
stamped less than a lifetime before, by a thread of its site. -/
theorem stamped_lt (hcode : ∀ c, (code c).Every C.Stamps)
    (h₀ : ∀ i key v u, C.entry s₀ i key = some (v, u) → ¬ C.trusted v) {ms : List (Move ι κ)}
    {later earlier : List (Step σ Ans)} {x : Step σ Ans}
    (hl : (Pool.run S code s₀ ms).log = later ++ x :: earlier) {i : I} {key : K} {v : V} {u n : ℤ}
    (he : C.entry x.before i key = some (v, u)) (hv : C.trusted v) (hn : n < u) :
    ∃ t m e, C.site t = i ∧ C.justifies key v e ∧ [C.now m, e].Sublist (trace t earlier) ∧
      n - C.life v < m := by
  obtain ⟨ms₁, ms₂, c, f, k, rfl, hlog, hstate, -⟩ := Pool.run_split S code s₀ hl
  rw [← hstate] at he
  obtain ⟨t, m, e, ht, hj, hs, hu⟩ := C.stamped code s₀ hcode h₀ ms₁ he hv
  rw [hlog] at hs
  exact ⟨t, m, e, ht, hj, hs, by linarith⟩

end JustifiedCache

/-- A justified cache in which threads look their answers up: `found` is the event
of a thread that finds an entry of its site. -/
structure ReadCache (S : System σ Op Ans κ) (I K V : Type) extends JustifiedCache S I K V where
  found : K → V → ℤ → Event Ans → Prop
  found_step : ∀ s t op k key v u, found key v u ⟨op, (S.step s t op k).1⟩ →
    entry s (site t) key = some (v, u)

namespace ReadCache

variable {S : System σ Op Ans κ} {I K V : Type} (C : ReadCache S I K V)

/-- In the course of `T` an answer is relied on at the reading `n`: it was found with
time left, or what justifies it was seen after the reading. -/
def Relies (key : K) (v : V) (n : ℤ) (T : List (Event Ans)) : Prop :=
  (∃ u e, C.found key v u e ∧ e ∈ T ∧ n < u) ∨ ∃ e, C.justifies key v e ∧ [C.now n, e].Sublist T

/-- A thread of the site saw what justifies the answer, after a reading of the clock
later than `n` less the lifetime. -/
def Recent (i : I) (key : K) (v : V) (n : ℤ) (l : List (Step σ Ans)) : Prop :=
  ∃ later y earlier m, l = later ++ y :: earlier ∧ C.site y.thread = i ∧
    C.justifies key v y.event ∧ C.now m ∈ trace y.thread earlier ∧ n - C.life v < m

theorem Recent.of_suffix {C : ReadCache S I K V} {i : I} {key : K} {v : V} {n : ℤ}
    {l l' : List (Step σ Ans)} (h : C.Recent i key v n l) (hl : l <:+ l') :
    C.Recent i key v n l' := by
  obtain ⟨later, y, earlier, m, rfl, hy⟩ := h
  obtain ⟨more, rfl⟩ := hl
  exact ⟨more ++ later, y, earlier, m, by simp, hy⟩

/-- What justifies an answer, seen after a reading that is late enough. -/
theorem recent_of_pair {t : ℕ} {key : K} {v : V} {e : Event Ans} {m n : ℤ} {l : List (Step σ Ans)}
    (he : C.justifies key v e) (h : [C.now m, e].Sublist (trace t l)) (hm : n - C.life v < m) :
    C.Recent (C.site t) key v n l := by
  obtain ⟨later, y, earlier, hlog, rfl, hy, hmem⟩ := trace_pair h
  rw [← hy] at he
  exact ⟨later, y, earlier, m, hlog, rfl, he, hmem, hm⟩

variable (code : ι → Prog Op Ans α) (s₀ : σ)

/-- **Whoever relies on an answer relies on a recent one.** His own site saw what
justifies it after a reading less than a lifetime before his. -/
theorem relies_recent (hcode : ∀ c, (code c).Every C.Stamps)
    (h₀ : ∀ i key, C.entry s₀ i key = none) {ms : List (Move ι κ)} {t : ℕ} {key : K} {v : V} {n : ℤ}
    (hv : C.trusted v) (hlife : 0 < C.life v)
    (h : C.Relies key v n (trace t (Pool.run S code s₀ ms).log)) :
    C.Recent (C.site t) key v n (Pool.run S code s₀ ms).log := by
  rcases h with ⟨u, e, hfound, hmem, hn⟩ | ⟨e, hjust, hpair⟩
  · obtain ⟨y, hy, rfl, rfl⟩ := (mem_trace t _ _).mp hmem
    obtain ⟨later, earlier, hlog⟩ := List.append_of_mem hy
    have hentry : C.entry y.before (C.site y.thread) key = some (v, u) := by
      obtain ⟨_, _, _, _, k, _, _, _, _, hstep⟩ := Pool.run_split S code s₀ hlog
      refine C.found_step y.before y.thread y.event.op k key v u ?_
      rw [hstep]
      exact hfound
    obtain ⟨t', m, e, hsite, hjust, hpair, hm⟩ := C.stamped_lt code s₀ hcode
      (fun i key v u he _ => by simp [h₀ i] at he) hlog hentry hv hn
    rw [← hsite]
    refine (C.recent_of_pair hjust hpair hm).of_suffix ?_
    rw [hlog]
    exact ⟨later ++ [y], by simp⟩
  · exact C.recent_of_pair hjust hpair (by linarith)

end ReadCache

/-- A cache kept by every site of a system, of answers `V` under keys `K`.
Only the entries of `trusted` answers are claimed to be stamped. -/
structure StampedCache (S : System σ Op Ans κ) (I K V : Type) where
  clock : σ → ℤ
  /-- The site a thread runs at. -/
  site : ℕ → I
  entry : σ → I → K → Option (V × ℤ)
  /-- How long an answer is trusted after the clock reading before it. -/
  life : V → ℤ
  trusted : V → Prop
  now : ℤ → Event Ans
  answer : K → V → Event Ans
  put : Op → K → V → ℤ → Prop
  clock_step : ∀ s t op k, clock (S.step s t op k).2 = clock s
  clock_tick : ∀ s d, clock s ≤ clock (S.tick s d)
  now_step : ∀ s t op k m, ⟨op, (S.step s t op k).1⟩ = now m → m = clock s
  entry_step : ∀ s t op k i key v u, entry (S.step s t op k).2 i key = some (v, u) → trusted v →
    entry s i key = some (v, u) ∨ (site t = i ∧ put op key v u)
  entry_tick : ∀ s d i key, entry (S.tick s d) i key = entry s i key

namespace StampedCache

variable {S : System σ Op Ans κ} {I K V : Type} (C : StampedCache S I K V)

/-- What a program about to perform `op` after `tr` must have done: a trusted
answer is stored after the clock was read and then the answer given, with a
stamp no later than a lifetime after the reading. -/
def Stamps (tr : List (Event Ans)) (op : Op) : Prop :=
  ∀ key v u, C.put op key v u → C.trusted v →
    ∃ m, [C.now m, C.answer key v].Sublist tr ∧ u ≤ m + C.life v

theorem Stamps.append {C : StampedCache S I K V} {tr : List (Event Ans)} {op : Op}
    (h : C.Stamps tr op) (tr₀ : List (Event Ans)) : C.Stamps (tr₀ ++ tr) op := by
  intro key v u hp hv
  obtain ⟨m, hs, hu⟩ := h key v u hp hv
  exact ⟨m, hs.trans (List.sublist_append_right _ _), hu⟩

/-- The answers in the log vouch for the trusted entries of a state. -/
def Vouched (s : σ) (l : List (Step σ Ans)) : Prop :=
  ∀ i key v u, C.entry s i key = some (v, u) → C.trusted v →
    ∃ x ∈ l, C.site x.thread = i ∧ x.event = C.answer key v ∧ u - C.life v ≤ C.clock x.before

/-- Some thread of the site has read the clock and then been given the answer,
which was trusted until `u`. -/
def StampedBy (i : I) (key : K) (v : V) (u : ℤ) (l : List (Step σ Ans)) : Prop :=
  ∃ t m, C.site t = i ∧ [C.now m, C.answer key v].Sublist (trace t l) ∧ u ≤ m + C.life v

/-- A reading and a later answer in a thread's trace: the answer was given at
a clock no less than the reading. -/
theorem exists_answer {t : ℕ} {l : List (Step σ Ans)} {m : ℤ} {key : K} {v : V}
    (hclock : l.Pairwise fun x y => C.clock y.before ≤ C.clock x.before)
    (hnow : ∀ x ∈ l, ∀ m, x.event = C.now m → m = C.clock x.before)
    (hs : [C.now m, C.answer key v].Sublist (trace t l)) :
    ∃ x ∈ l, x.thread = t ∧ x.event = C.answer key v ∧ m ≤ C.clock x.before := by
  obtain ⟨later, y, earlier, rfl, hyt, hye, hm⟩ := trace_pair hs
  obtain ⟨x, hx, -, hxe⟩ := (mem_trace t _ earlier).mp hm
  refine ⟨y, by simp, hyt, hye, ?_⟩
  rw [hnow x (by simp [hx]) m hxe]
  exact (List.pairwise_cons.mp (List.pairwise_append.mp hclock).2.1).1 x hx

variable (code : ι → Prog Op Ans α) (s₀ : σ)

/-- A logged reading of the clock is the clock at its step. -/
theorem now_eq {ms : List (Move ι κ)} {x : Step σ Ans} {m : ℤ}
    (hx : x ∈ (Pool.run S code s₀ ms).log) (hm : x.event = C.now m) : m = C.clock x.before := by
  obtain ⟨later, earlier, hl⟩ := List.append_of_mem hx
  obtain ⟨_, _, _, _, k, _, _, _, _, hs⟩ := Pool.run_split S code s₀ hl
  refine C.now_step x.before x.thread x.event.op k m ?_
  rw [hs]
  exact hm

/-- A stamped cache is justified by its answers. -/
def toJustifiedCache : JustifiedCache S I K V where
  site := C.site
  entry := C.entry
  life := C.life
  trusted := C.trusted
  now := C.now
  justifies key v e := e = C.answer key v
  put := C.put
  entry_step := C.entry_step
  entry_tick := C.entry_tick

theorem Stamps.toJustifiedCache {C : StampedCache S I K V} {tr : List (Event Ans)} {op : Op}
    (h : C.Stamps tr op) : C.toJustifiedCache.Stamps tr op := by
  intro key v u hp hv
  obtain ⟨m, hs, hu⟩ := h key v u hp hv
  exact ⟨m, _, rfl, hs, hu⟩

/-- **Every trusted entry was stamped.** A trusted entry is an answer that a
thread of its site was given after the reading its stamp is computed from. -/
theorem stamped (hcode : ∀ c, (code c).Every C.Stamps)
    (h₀ : ∀ i key v u, C.entry s₀ i key = some (v, u) → ¬ C.trusted v) (ms : List (Move ι κ))
    {i : I} {key : K} {v : V} {u : ℤ}
    (he : C.entry (Pool.run S code s₀ ms).state i key = some (v, u)) (hv : C.trusted v) :
    C.StampedBy i key v u (Pool.run S code s₀ ms).log := by
  have hjust : ∀ c, (code c).Every C.toJustifiedCache.Stamps := fun c tr op k h =>
    (hcode c tr op k h).toJustifiedCache
  obtain ⟨t, m, e, ht, rfl, hs, hu⟩ := C.toJustifiedCache.stamped code s₀ hjust h₀ ms he hv
  exact ⟨t, m, ht, hs, hu⟩

/-- **Every trusted entry was answered in time.** An entry trusted until `u` is
an answer given to a thread of its site at a clock no less than `u` minus the
answer's lifetime. -/
theorem answered (hcode : ∀ c, (code c).Every C.Stamps)
    (h₀ : ∀ i key v u, C.entry s₀ i key = some (v, u) → ¬ C.trusted v) (ms : List (Move ι κ)) :
    C.Vouched (Pool.run S code s₀ ms).state (Pool.run S code s₀ ms).log := by
  intro i key v u he hv
  obtain ⟨t, m, ht, hs, hu⟩ := C.stamped code s₀ hcode h₀ ms he hv
  obtain ⟨x, hx, hxt, hxe, hm⟩ := C.exists_answer
    (Pool.run_clock S code s₀ C.clock_step C.clock_tick ms).2
    (fun x hx m => C.now_eq code s₀ hx) hs
  exact ⟨x, hx, by rw [hxt, ht], hxe, by linarith⟩

/-- A trusted entry found at a logged step, at a clock before its stamp, was
stamped less than a lifetime before, by a thread of its site. -/
theorem stamped_lt (hcode : ∀ c, (code c).Every C.Stamps)
    (h₀ : ∀ i key v u, C.entry s₀ i key = some (v, u) → ¬ C.trusted v) {ms : List (Move ι κ)}
    {later earlier : List (Step σ Ans)} {x : Step σ Ans}
    (hl : (Pool.run S code s₀ ms).log = later ++ x :: earlier) {i : I} {key : K} {v : V} {u n : ℤ}
    (he : C.entry x.before i key = some (v, u)) (hv : C.trusted v) (hn : n < u) :
    ∃ t m, C.site t = i ∧ [C.now m, C.answer key v].Sublist (trace t earlier) ∧
      n - C.life v < m := by
  obtain ⟨ms₁, ms₂, c, f, k, rfl, hlog, hstate, -⟩ := Pool.run_split S code s₀ hl
  rw [← hstate] at he
  obtain ⟨t, m, ht, hs, hu⟩ := C.stamped code s₀ hcode h₀ ms₁ he hv
  rw [hlog] at hs
  exact ⟨t, m, ht, hs, by linarith⟩

/-- **An answer relied on is less than a lifetime old.** A trusted entry found
at a logged step, at a clock before its stamp, was answered earlier, to a
thread of its site, less than a lifetime before. -/
theorem answered_lt (hcode : ∀ c, (code c).Every C.Stamps)
    (h₀ : ∀ i key v u, C.entry s₀ i key = some (v, u) → ¬ C.trusted v) {ms : List (Move ι κ)}
    {later earlier : List (Step σ Ans)} {x : Step σ Ans}
    (hl : (Pool.run S code s₀ ms).log = later ++ x :: earlier) {i : I} {key : K} {v : V} {u n : ℤ}
    (he : C.entry x.before i key = some (v, u)) (hv : C.trusted v) (hn : n < u) :
    ∃ y ∈ earlier, C.site y.thread = i ∧ y.event = C.answer key v ∧
      n - C.life v < C.clock y.before := by
  obtain ⟨ms₁, ms₂, c, f, k, rfl, hlog, hstate, -⟩ := Pool.run_split S code s₀ hl
  have h := C.answered code s₀ hcode h₀ ms₁
  rw [hlog, hstate] at h
  obtain ⟨y, hy, hs, hya, hu⟩ := h i key v u he hv
  exact ⟨y, hy, hs, hya, by linarith⟩

end StampedCache
end Interact
