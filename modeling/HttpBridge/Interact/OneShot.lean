/-
# Entries that are taken once

A shared store of pending entries: an operation puts an entry under a key, with
the time until which it may be taken, and another takes the entry of a key away
and answers it if it is still in time. Entries out of time may be dropped by the
way.

`OneShot` says which steps put and take and what the system guarantees. If no
key is put twice (`PutOnce`), whatever else the threads do in between:

* `taken_put`: what a take answers was put before it, and not taken since.
* `taken_once`: no two takes of a key are answered.
* `taken_of_put`: the first take of an entry is answered while it is in time.
-/
import HttpBridge.Interact.Pool
import Mathlib.Algebra.Order.Group.Int
import Mathlib.Tactic.Linarith

namespace Interact

variable {σ Op : Type} {Ans : Op → Type} {κ ι α : Type}

/-- A store of pending entries `V` under keys `K`, each with the time until which
it may be taken. -/
structure OneShot (S : System σ Op Ans κ) (K V : Type) where
  clock : σ → ℤ
  pending : σ → K → Option (V × ℤ)
  put : Op → Option (K × V × ℤ)
  take : Op → Option K
  /-- The entry a take answers. -/
  taken : Event Ans → Option (K × V)
  clock_step : ∀ s t op c, clock (S.step s t op c).2 = clock s
  clock_tick : ∀ s d, clock s ≤ clock (S.tick s d)
  pending_tick : ∀ s d k, pending (S.tick s d) k = pending s k
  put_step : ∀ s t op c k v u, put op = some (k, v, u) → pending (S.step s t op c).2 k = some (v, u)
  keep_step : ∀ s t op c k v u, pending s k = some (v, u) → clock s < u → take op ≠ some k →
    (∀ v' u', put op ≠ some (k, v', u')) → pending (S.step s t op c).2 k = some (v, u)
  origin_step : ∀ s t op c k v u, pending (S.step s t op c).2 k = some (v, u) →
    put op = some (k, v, u) ∨ (pending s k = some (v, u) ∧ take op ≠ some k)
  taken_step : ∀ s t op c k v, taken ⟨op, (S.step s t op c).1⟩ = some (k, v) ↔
    take op = some k ∧ ∃ u, pending s k = some (v, u) ∧ clock s < u

namespace OneShot

variable {S : System σ Op Ans κ} {K V : Type} (O : OneShot S K V)

/-- No two steps put an entry under the same key. -/
def PutOnce (l : List (Step σ Ans)) : Prop :=
  l.Pairwise fun x y => ∀ k v u v' u', O.put x.event.op = some (k, v, u) →
    O.put y.event.op ≠ some (k, v', u')

variable {O} in
theorem PutOnce.false {l rest mid earlier : List (Step σ Ans)} {x y : Step σ Ans} {k : K} {v v' : V}
    {u u' : ℤ} (h : O.PutOnce l) (hl : l = rest ++ y :: (mid ++ x :: earlier))
    (hy : O.put y.event.op = some (k, v, u)) (hx : O.put x.event.op = some (k, v', u')) : False := by
  subst hl
  have htail := (List.pairwise_append.mp h).2.1
  have hhead := (List.pairwise_cons.mp htail).1
  exact hhead x (by simp) k v u v' u' hy hx

variable (code : ι → Prog Op Ans α) (s₀ : σ)

/-- A pending entry was put, and its key not taken since. -/
theorem pending_put (h₀ : ∀ k, O.pending s₀ k = none) (ms : List (Move ι κ)) {k : K} {v : V} {u : ℤ}
    (hp : O.pending (Pool.run S code s₀ ms).state k = some (v, u)) :
    ∃ later x earlier, (Pool.run S code s₀ ms).log = later ++ x :: earlier ∧
      O.put x.event.op = some (k, v, u) ∧ ∀ z ∈ later, O.take z.event.op ≠ some k := by
  refine Pool.run_invariant S code s₀ (Φ := fun _ _ => True) (fun _ _ _ _ _ => trivial)
    (J := fun s l => ∀ k v u, O.pending s k = some (v, u) →
      ∃ later x earlier, l = later ++ x :: earlier ∧ O.put x.event.op = some (k, v, u) ∧
        ∀ z ∈ later, O.take z.event.op ≠ some k) ?_ ?_ ?_ ms k v u hp
  · intro k v u hp
    rw [h₀] at hp
    cases hp
  · intro s l d h k v u hp
    rw [O.pending_tick] at hp
    exact h k v u hp
  · intro s l t op c h _ k v u hp
    rcases O.origin_step s t op c k v u hp with hput | ⟨hp, htake⟩
    · exact ⟨[], _, l, rfl, hput, by simp⟩
    · obtain ⟨later, x, earlier, rfl, hput, hlater⟩ := h k v u hp
      refine ⟨_ :: later, x, earlier, rfl, hput, fun z hz => ?_⟩
      rcases List.mem_cons.mp hz with rfl | hz
      · exact htake
      · exact hlater z hz

/-- **What a take answers was put,** under its key, is still in time, and was not
taken since. -/
theorem taken_put (h₀ : ∀ k, O.pending s₀ k = none) {ms : List (Move ι κ)}
    {rest before : List (Step σ Ans)} {y : Step σ Ans} {k : K} {v : V}
    (hl : (Pool.run S code s₀ ms).log = rest ++ y :: before) (hy : O.taken y.event = some (k, v)) :
    O.take y.event.op = some k ∧ ∃ mid x earlier u, before = mid ++ x :: earlier ∧
      O.put x.event.op = some (k, v, u) ∧ O.clock y.before < u ∧
      ∀ z ∈ mid, O.take z.event.op ≠ some k := by
  obtain ⟨ms₁, ms₂, _, f, c, rfl, hlog, hstate, -, hstep⟩ := Pool.run_split S code s₀ hl
  have hev : y.event = ⟨y.event.op, (S.step y.before y.thread y.event.op c).1⟩ := by rw [hstep]
  rw [hev] at hy
  obtain ⟨htake, u, hp, hu⟩ := (O.taken_step _ _ _ _ k v).mp hy
  rw [← hstate] at hp
  obtain ⟨mid, x, earlier, hx, hput, hmid⟩ := O.pending_put code s₀ h₀ ms₁ hp
  exact ⟨htake, mid, x, earlier, u, hlog.symm.trans hx, hput, hu, hmid⟩

/-- **No two takes of a key are answered.** -/
theorem taken_once (h₀ : ∀ k, O.pending s₀ k = none) {ms : List (Move ι κ)}
    (hput : O.PutOnce (Pool.run S code s₀ ms).log) {rest mid earlier : List (Step σ Ans)}
    {x y : Step σ Ans} {k : K} {v v' : V}
    (hl : (Pool.run S code s₀ ms).log = rest ++ y :: (mid ++ x :: earlier))
    (hy : O.taken y.event = some (k, v)) : O.taken x.event ≠ some (k, v') := by
  intro hx
  -- the entry that `y` takes is put after `x`, the one `x` takes before it
  obtain ⟨-, mid₁, p, earlier₁, u, hp, hpput, -, hbetween⟩ := O.taken_put code s₀ h₀ hl hy
  have hl' : (Pool.run S code s₀ ms).log = (rest ++ y :: mid) ++ x :: earlier := by
    rw [hl]
    simp
  obtain ⟨htake, mid₂, q, earlier₂, u', hq, hqput, -, -⟩ := O.taken_put code s₀ h₀ hl' hx
  have hsame : p = x → False := by
    rintro rfl
    rw [hq] at hl'
    exact hput.false hl' hpput hqput
  rcases List.append_eq_append_iff.mp hp with ⟨as, hmid₁, has⟩ | ⟨bs, hmid, hbs⟩
  · cases as with
    | nil => exact hsame (List.cons.inj has).1.symm
    | cons a as =>
      obtain ⟨rfl, -⟩ := List.cons.inj has
      exact hbetween x (by rw [hmid₁]; simp) htake
  · cases bs with
    | nil => exact hsame (List.cons.inj hbs).1
    | cons b bs =>
      obtain ⟨rfl, -⟩ := List.cons.inj hbs
      have hl'' : (Pool.run S code s₀ ms).log =
          (rest ++ y :: mid₁) ++ p :: ((bs ++ x :: mid₂) ++ q :: earlier₂) := by
        rw [hl, hmid, hq]
        simp
      exact hput.false hl'' hpput hqput

/-- **The first take is answered.** An entry that was put is answered to the first
take of its key, if that comes in time. -/
theorem taken_of_put {ms : List (Move ι κ)} (hput : O.PutOnce (Pool.run S code s₀ ms).log)
    {rest mid earlier : List (Step σ Ans)} {x y : Step σ Ans} {k : K} {v : V} {u : ℤ}
    (hl : (Pool.run S code s₀ ms).log = rest ++ y :: (mid ++ x :: earlier))
    (hx : O.put x.event.op = some (k, v, u)) (hy : O.take y.event.op = some k)
    (htime : O.clock y.before < u) (hmid : ∀ z ∈ mid, O.take z.event.op ≠ some k) :
    O.taken y.event = some (k, v) := by
  obtain ⟨ms₁, ms₂, _, _, c, rfl, hlog, hstate, -, hstep⟩ := Pool.run_split S code s₀ hl
  have hpending : O.clock y.before < u → O.pending y.before k = some (v, u) := by
    rw [← hstate]
    refine (Pool.run_since S code s₀ (Q := fun s => O.clock s < u → O.pending s k = some (v, u))
      ?_ hlog ?_ ?_).2
    · intro s d h hlt
      rw [O.pending_tick]
      exact h (lt_of_le_of_lt (O.clock_tick s d) hlt)
    · obtain ⟨_, _, _, _, cx, -, -, -, -, hsx⟩ := Pool.run_split S code s₀ hlog
      intro _
      have hafter := O.put_step x.before x.thread x.event.op cx k v u hx
      rwa [hsx] at hafter
    · intro z hz h hlt
      obtain ⟨a, b, rfl⟩ := List.append_of_mem hz
      have hz' : (Pool.run S code s₀ ms₁).log = a ++ z :: (b ++ x :: earlier) := by
        rw [hlog]
        simp
      obtain ⟨_, _, _, _, cz, -, -, -, -, hsz⟩ := Pool.run_split S code s₀ hz'
      have hclock := O.clock_step z.before z.thread z.event.op cz
      rw [hsz] at hclock
      dsimp only at hclock
      rw [hclock] at hlt
      have hall : (Pool.run S code s₀ (ms₂ ++ ms₁)).log =
          (rest ++ y :: a) ++ z :: (b ++ x :: earlier) := by
        rw [hl]
        simp
      have hafter := O.keep_step z.before z.thread z.event.op cz k v u (h hlt) hlt (hmid z hz)
        fun v' u' hzput => hput.false hall hzput hx
      rwa [hsz] at hafter
  have htaken := (O.taken_step y.before y.thread y.event.op c k v).mpr
    ⟨hy, u, hpending htime, htime⟩
  rwa [hstep] at htaken

end OneShot

end Interact
