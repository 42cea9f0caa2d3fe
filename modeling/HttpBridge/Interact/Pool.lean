/-
# Threads over a shared system

Programs (`Prog`) run as threads whose operations are answered, one at a time
and in any order, by a shared system: a state with one atomic step for each
operation. A run is a list of moves (start a thread, let time pass, take one
step of one thread), newest first, and every list is a run: a move that is
not possible changes nothing. What the system leaves open (an outage, an
answer from outside) is chosen by the move.

The run keeps a log of the steps taken, newest first, with the states before
and after each. A step is referred to by a split of the log into what came
later and what came earlier.

* `run_reaches`: what a thread has done is a trace of its program.
* `run_split`: a logged step was taken from the state of an earlier run.
* `run_invariant`: an invariant of state and log, proved step by step from
  what the program is known to have done (`Prog.Every`).
* `run_always_iff`: a property that fails at bad steps only holds all along a run
  exactly if no step of it is bad.
* `run_since`: what holds after a step and survives the later ones holds now.
* `run_clock`: a clock that steps keep and ticks advance never goes back.
-/
import HttpBridge.Interact.Prog
import Mathlib.Logic.Function.Basic
import Mathlib.Order.Basic

namespace Interact

/-- A shared state and its answers to the operations of threads; a choice of
type `κ` settles what the state leaves open. -/
structure System (σ Op : Type) (Ans : Op → Type) (κ : Type) where
  step : σ → ℕ → (op : Op) → κ → Ans op × σ
  tick : σ → ℕ → σ

/-- A step taken by a thread. -/
structure Step (σ : Type) {Op : Type} (Ans : Op → Type) where
  thread : ℕ
  before : σ
  event : Event Ans
  after : σ

inductive Move (ι κ : Type) where
  | spawn (t : ℕ) (c : ι)
  | tick (d : ℕ)
  | exec (t : ℕ) (k : κ)

/-- The shared state, each thread's job with what is left of its program, and
the steps taken so far. -/
structure Pool (σ : Type) {Op : Type} (Ans : Op → Type) (ι α : Type) where
  state : σ
  job : ℕ → Option (ι × Prog Op Ans α)
  log : List (Step σ Ans)

/-- What a thread has done, oldest first. -/
def trace {σ Op : Type} {Ans : Op → Type} (t : ℕ) : List (Step σ Ans) → List (Event Ans)
  | [] => []
  | x :: l => if x.thread = t then trace t l ++ [x.event] else trace t l

section Trace

variable {σ Op : Type} {Ans : Op → Type}

theorem trace_append (t : ℕ) (l : List (Step σ Ans)) : ∀ l' : List (Step σ Ans),
    trace t (l' ++ l) = trace t l ++ trace t l'
  | [] => by simp [trace]
  | x :: l' => by
    simp only [List.cons_append, trace, trace_append t l l']
    split <;> simp

/-- A longer log holds what the thread did in the shorter one. -/
theorem trace_sublist (t : ℕ) {l l' : List (Step σ Ans)} (h : l <:+ l') :
    (trace t l).Sublist (trace t l') := by
  obtain ⟨later, rfl⟩ := h
  rw [trace_append]
  exact List.sublist_append_left _ _

theorem mem_trace (t : ℕ) (e : Event Ans) : ∀ l : List (Step σ Ans),
    e ∈ trace t l ↔ ∃ x ∈ l, x.thread = t ∧ x.event = e
  | [] => by simp [trace]
  | x :: l => by
    unfold trace
    by_cases ht : x.thread = t
    · rw [if_pos ht, List.mem_append, mem_trace t e l, List.mem_singleton]
      simp only [List.mem_cons]
      constructor
      · rintro (⟨y, hy, h⟩ | rfl)
        · exact ⟨y, .inr hy, h⟩
        · exact ⟨x, .inl rfl, ht, rfl⟩
      · rintro ⟨y, rfl | hy, h⟩
        · exact .inr h.2.symm
        · exact .inl ⟨y, hy, h⟩
    · simp only [if_neg ht, mem_trace t e l, List.mem_cons]
      constructor
      · rintro ⟨y, hy, h⟩
        exact ⟨y, .inr hy, h⟩
      · rintro ⟨y, rfl | hy, h⟩
        · exact absurd h.1 ht
        · exact ⟨y, hy, h⟩

theorem trace_eq_nil {t : ℕ} {l : List (Step σ Ans)} (h : ∀ x ∈ l, x.thread ≠ t) :
    trace t l = [] := by
  rw [List.eq_nil_iff_forall_not_mem]
  intro e he
  obtain ⟨x, hx, ht, -⟩ := (mem_trace t e l).mp he
  exact h x hx ht

theorem trace_length_le (t : ℕ) : ∀ l : List (Step σ Ans), (trace t l).length ≤ l.length
  | [] => Nat.le_refl _
  | x :: l => by
    have := trace_length_le t l
    unfold trace
    split
    · simpa using this
    · exact Nat.le_succ_of_le this

/-- An event of a thread's trace is a step of the log, and what the thread did
before and after it lies before and after that step. -/
theorem trace_split {t : ℕ} {tr₁ tr₂ : List (Event Ans)} {e : Event Ans} :
    ∀ {l : List (Step σ Ans)}, trace t l = tr₁ ++ e :: tr₂ →
      ∃ later x earlier, l = later ++ x :: earlier ∧ x.thread = t ∧ x.event = e ∧
        trace t earlier = tr₁ ∧ trace t later = tr₂
  | [], h => by simp [trace] at h
  | x :: l, h => by
    by_cases ht : x.thread = t
    · simp only [trace, if_pos ht] at h
      rcases List.eq_nil_or_concat tr₂ with rfl | ⟨tr, e', rfl⟩
      · obtain ⟨h₁, h₂⟩ := List.append_inj' h rfl
        exact ⟨[], x, l, rfl, ht, by simpa using h₂, h₁, rfl⟩
      · rw [List.concat_eq_append, ← List.cons_append, ← List.append_assoc] at h
        obtain ⟨h₁, h₂⟩ := List.append_inj' h rfl
        obtain ⟨later, y, earlier, rfl, hy⟩ := trace_split h₁
        refine ⟨x :: later, y, earlier, rfl, hy.1, hy.2.1, hy.2.2.1, ?_⟩
        simp only [trace, if_pos ht, hy.2.2.2]
        simpa using h₂
    · simp only [trace, if_neg ht] at h
      obtain ⟨later, y, earlier, rfl, hy⟩ := trace_split h
      refine ⟨x :: later, y, earlier, rfl, hy.1, hy.2.1, hy.2.2.1, ?_⟩
      simp only [trace, if_neg ht, hy.2.2.2]

/-- Of two events in a thread's trace, the later one is a step of the log, and
the earlier lies before that step. -/
theorem trace_pair {t : ℕ} {l : List (Step σ Ans)} {e e' : Event Ans}
    (h : [e, e'].Sublist (trace t l)) :
    ∃ later y earlier, l = later ++ y :: earlier ∧ y.thread = t ∧ y.event = e' ∧
      e ∈ trace t earlier := by
  obtain ⟨tr₁, tr₂, htr, he, he'⟩ := List.cons_sublist_iff.mp h
  obtain ⟨a, b, rfl⟩ := List.append_of_mem (List.singleton_sublist.mp he')
  rw [← List.append_assoc] at htr
  obtain ⟨later, y, earlier, hl, hy, hye, hearlier, -⟩ := trace_split htr
  refine ⟨later, y, earlier, hl, hy, hye, ?_⟩
  rw [hearlier]
  exact List.mem_append_left _ he

end Trace

namespace Pool

variable {σ Op : Type} {Ans : Op → Type} {κ ι α : Type}

/-- The next state of a pool under a move. -/
def move (S : System σ Op Ans κ) (code : ι → Prog Op Ans α) (p : Pool σ Ans ι α) :
    Move ι κ → Pool σ Ans ι α
  | .spawn t c =>
    match p.job t with
    | none => { p with job := Function.update p.job t (some (c, code c)) }
    | some _ => p
  | .tick d => { p with state := S.tick p.state d }
  | .exec t k =>
    match p.job t with
    | some (c, .call op f) =>
      { state := (S.step p.state t op k).2
        job := Function.update p.job t (some (c, f (S.step p.state t op k).1))
        log := ⟨t, p.state, ⟨op, (S.step p.state t op k).1⟩, (S.step p.state t op k).2⟩ :: p.log }
    | _ => p

/-- The pool after a list of moves, newest first, from `s`. -/
def run (S : System σ Op Ans κ) (code : ι → Prog Op Ans α) (s : σ) :
    List (Move ι κ) → Pool σ Ans ι α
  | [] => ⟨s, fun _ => none, []⟩
  | m :: ms => (run S code s ms).move S code m

variable (S : System σ Op Ans κ) (code : ι → Prog Op Ans α) (s₀ : σ)

/-- A run depends on the programs of the threads started in it. -/
theorem run_congr {code' : ι → Prog Op Ans α} : ∀ {ms : List (Move ι κ)},
    (∀ t c, .spawn t c ∈ ms → code c = code' c) → run S code s₀ ms = run S code' s₀ ms
  | [], _ => rfl
  | m :: ms, h => by
    rw [run, run, run_congr fun t c hc => h t c (.tail _ hc)]
    cases m with
    | spawn t c => simp only [move, h t c (.head _)]
    | _ => rfl

/-- Everything a move can do. -/
theorem move_cases (p : Pool σ Ans ι α) (m : Move ι κ) :
    p.move S code m = p ∨
    (∃ t c, p.job t = none ∧
      p.move S code m = { p with job := Function.update p.job t (some (c, code c)) }) ∨
    (∃ d, p.move S code m = { p with state := S.tick p.state d }) ∨
    ∃ t c op f k, p.job t = some (c, .call op f) ∧ p.move S code m =
      { state := (S.step p.state t op k).2
        job := Function.update p.job t (some (c, f (S.step p.state t op k).1))
        log := ⟨t, p.state, ⟨op, (S.step p.state t op k).1⟩, (S.step p.state t op k).2⟩ :: p.log } := by
  cases m with
  | spawn t c =>
    cases h : p.job t with
    | none => exact .inr (.inl ⟨t, c, h, by simp [move, h]⟩)
    | some j => exact .inl (by simp [move, h])
  | tick d => exact .inr (.inr (.inl ⟨d, rfl⟩))
  | exec t k =>
    rcases h : p.job t with _ | ⟨c, _ | ⟨op, f⟩⟩
    · exact .inl (by simp [move, h])
    · exact .inl (by simp [move, h])
    · exact .inr (.inr (.inr ⟨t, c, op, f, k, h, by simp [move, h]⟩))

/-- A thread with the program `q` left, in the state `s`, beside the other jobs. -/
structure At (p : Pool σ Ans ι α) (t : ℕ) (c : ι) (q : Prog Op Ans α) (s : σ)
    (jobs : ℕ → Option (ι × Prog Op Ans α)) : Prop where
  job : p.job t = some (c, q)
  state : p.state = s
  others : ∀ t', t' ≠ t → p.job t' = jobs t'

/-- A thread that is not running can be started. -/
theorem At.spawn {ms : List (Move ι κ)} {t : ℕ} (h : (run S code s₀ ms).job t = none) (c : ι) :
    At (run S code s₀ (.spawn t c :: ms)) t c (code c) (run S code s₀ ms).state
      (run S code s₀ ms).job := by
  simp only [run, move, h]
  exact ⟨Function.update_self .., rfl, fun _ ht => Function.update_of_ne ht ..⟩

/-- A thread about to perform an operation performs it. -/
theorem At.exec {ms : List (Move ι κ)} {t : ℕ} {c : ι} {op : Op} {f : Ans op → Prog Op Ans α} {s : σ}
    {jobs : ℕ → Option (ι × Prog Op Ans α)} (h : At (run S code s₀ ms) t c (.call op f) s jobs)
    (k : κ) : At (run S code s₀ (.exec t k :: ms)) t c (f (S.step s t op k).1) (S.step s t op k).2
      jobs := by
  simp only [run, move, h.job, h.state]
  refine ⟨Function.update_self .., rfl, fun t' ht => ?_⟩
  rw [← h.others t' ht]
  exact Function.update_of_ne ht ..

/-- What a thread has done is a trace of its program, and a thread not started
has done nothing. -/
theorem run_reaches (ms : List (Move ι κ)) (t : ℕ) :
    match (run S code s₀ ms).job t with
    | none => trace t (run S code s₀ ms).log = []
    | some (c, q) => (code c).Reaches (trace t (run S code s₀ ms).log) q := by
  induction ms with
  | nil => simp [run, trace]
  | cons m ms ih =>
    rw [run]
    rcases move_cases S code (run S code s₀ ms) m with
      h | ⟨t', c, hj, h⟩ | ⟨d, h⟩ | ⟨t', c, op, f, k, hj, h⟩
    · rw [h]
      exact ih
    · rw [h]
      by_cases ht : t = t'
      · subst ht
        simp only [hj] at ih
        simp [ih]
      · simpa [Function.update_of_ne ht] using ih
    · rw [h]
      exact ih
    · rw [h]
      by_cases ht : t = t'
      · subst ht
        simp only [hj] at ih
        simpa [trace] using ih.snoc _
      · simpa [Function.update_of_ne ht, trace, Ne.symm ht] using ih

theorem run_reaches_some {ms : List (Move ι κ)} {t : ℕ} {c : ι} {q : Prog Op Ans α}
    (h : (run S code s₀ ms).job t = some (c, q)) :
    (code c).Reaches (trace t (run S code s₀ ms).log) q := by
  simpa only [h] using run_reaches S code s₀ ms t

/-- A thread's job is the one it was started with. -/
theorem run_spawned {t : ℕ} {c : ι} {q : Prog Op Ans α} : ∀ {ms : List (Move ι κ)},
    (run S code s₀ ms).job t = some (c, q) → .spawn t c ∈ ms
  | [], h => by cases h
  | m :: ms, h => by
    rw [run] at h
    cases m with
    | tick d => exact .tail _ (run_spawned h)
    | spawn t' c' =>
      cases hj : (run S code s₀ ms).job t' with
      | some j =>
        simp only [move, hj] at h
        exact .tail _ (run_spawned h)
      | none =>
        simp only [move, hj] at h
        by_cases ht : t = t'
        · subst ht
          rw [Function.update_self] at h
          cases h
          exact .head _
        · rw [Function.update_of_ne ht] at h
          exact .tail _ (run_spawned h)
    | exec t' k =>
      rcases hj : (run S code s₀ ms).job t' with _ | ⟨c', _ | ⟨op, f⟩⟩
      · simp only [move, hj] at h
        exact .tail _ (run_spawned h)
      · simp only [move, hj] at h
        exact .tail _ (run_spawned h)
      · simp only [move, hj] at h
        by_cases ht : t = t'
        · subst ht
          rw [Function.update_self] at h
          cases h
          exact .tail _ (run_spawned hj)
        · rw [Function.update_of_ne ht] at h
          exact .tail _ (run_spawned h)

/-- A thread keeps its job. -/
theorem run_job_append {ms : List (Move ι κ)} {t : ℕ} {c : ι} {q : Prog Op Ans α}
    (h : (run S code s₀ ms).job t = some (c, q)) : ∀ ms' : List (Move ι κ),
      ∃ q', (run S code s₀ (ms' ++ ms)).job t = some (c, q')
  | [] => ⟨q, h⟩
  | m :: ms' => by
    obtain ⟨q', h'⟩ := run_job_append h ms'
    rw [List.cons_append, run]
    rcases move_cases S code (run S code s₀ (ms' ++ ms)) m with
      e | ⟨t', c', hj, e⟩ | ⟨d, e⟩ | ⟨t', c', op, f, k, hj, e⟩
    · exact ⟨q', by rw [e, h']⟩
    · have ht : t ≠ t' := by
        rintro rfl
        rw [h'] at hj
        cases hj
      exact ⟨q', by rw [e]; simpa [Function.update_of_ne ht] using h'⟩
    · exact ⟨q', by rw [e]; exact h'⟩
    · by_cases ht : t = t'
      · subst ht
        rw [h'] at hj
        cases hj
        rw [e]
        exact ⟨_, Function.update_self ..⟩
      · exact ⟨q', by rw [e]; simpa [Function.update_of_ne ht] using h'⟩

/-- A logged step was taken by a thread of an earlier run, from its state. -/
theorem run_split {ms : List (Move ι κ)} {later earlier : List (Step σ Ans)} {x : Step σ Ans}
    (h : (run S code s₀ ms).log = later ++ x :: earlier) :
    ∃ ms₁ ms₂ c f k, ms = ms₂ ++ ms₁ ∧ (run S code s₀ ms₁).log = earlier ∧
      (run S code s₀ ms₁).state = x.before ∧
      (run S code s₀ ms₁).job x.thread = some (c, .call x.event.op f) ∧
      S.step x.before x.thread x.event.op k = (x.event.ans, x.after) := by
  induction ms generalizing later with
  | nil => simp [run] at h
  | cons m ms ih =>
    rw [run] at h
    rcases move_cases S code (run S code s₀ ms) m with
      e | ⟨t, c, hj, e⟩ | ⟨d, e⟩ | ⟨t, c, op, f, k, hj, e⟩
    all_goals rw [e] at h
    case inr.inr.inr =>
      cases later with
      | nil =>
        obtain ⟨rfl, hl⟩ := List.cons.inj h
        exact ⟨ms, [m], c, f, k, rfl, hl, rfl, hj, rfl⟩
      | cons y later =>
        obtain ⟨ms₁, ms₂, c, f, k, rfl, h'⟩ := ih (List.cons.inj h).2
        exact ⟨ms₁, m :: ms₂, c, f, k, rfl, h'⟩
    all_goals
      obtain ⟨ms₁, ms₂, c, f, k, rfl, h'⟩ := ih h
      exact ⟨ms₁, m :: ms₂, c, f, k, rfl, h'⟩

/-- An invariant of state and log: it holds at the start, survives time, and
survives a step of a thread whose program is known (`Φ`) to take it. -/
theorem run_invariant {Φ : List (Event Ans) → Op → Prop} (hΦ : ∀ c, (code c).Every Φ)
    {J : σ → List (Step σ Ans) → Prop} (init : J s₀ []) (tick : ∀ s l d, J s l → J (S.tick s d) l)
    (step : ∀ s l t op k, J s l → Φ (trace t l) op →
      J (S.step s t op k).2 (⟨t, s, ⟨op, (S.step s t op k).1⟩, (S.step s t op k).2⟩ :: l))
    (ms : List (Move ι κ)) : J (run S code s₀ ms).state (run S code s₀ ms).log := by
  induction ms with
  | nil => exact init
  | cons m ms ih =>
    rw [run]
    rcases move_cases S code (run S code s₀ ms) m with
      e | ⟨t, c, hj, e⟩ | ⟨d, e⟩ | ⟨t, c, op, f, k, hj, e⟩
    · rw [e]
      exact ih
    · rw [e]
      exact ih
    · rw [e]
      exact tick _ _ d ih
    · rw [e]
      exact step _ _ t op k ih (hΦ c _ op f (run_reaches_some S code s₀ hj))

/-- What holds at the start, survives time and survives exactly the steps that
are not bad holds all along a run exactly if no step of it is bad. -/
theorem run_always_iff {I : σ → Prop} {Bad : σ → Op → Prop} (init : I s₀)
    (tick : ∀ s d, I s → I (S.tick s d))
    (step : ∀ s t op k, I s → (I (S.step s t op k).2 ↔ ¬ Bad s op)) (ms : List (Move ι κ)) :
    (∀ ms₁, ms₁ <:+ ms → I (run S code s₀ ms₁).state) ↔
      ∀ x ∈ (run S code s₀ ms).log, ¬ Bad x.before x.event.op := by
  induction ms with
  | nil => simpa [run] using init
  | cons m ms ih =>
    have hsuffix : (∀ ms₁, ms₁ <:+ m :: ms → I (run S code s₀ ms₁).state) ↔
        I (run S code s₀ (m :: ms)).state ∧ ∀ ms₁, ms₁ <:+ ms → I (run S code s₀ ms₁).state := by
      simp only [List.suffix_cons_iff, forall_eq_or_imp]
    have hnow : (∀ ms₁, ms₁ <:+ ms → I (run S code s₀ ms₁).state) → I (run S code s₀ ms).state :=
      fun h => h ms (List.suffix_refl ms)
    rw [hsuffix, run]
    rcases move_cases S code (run S code s₀ ms) m with
      e | ⟨t, c, hj, e⟩ | ⟨d, e⟩ | ⟨t, c, op, f, k, hj, e⟩
    all_goals rw [e]
    · exact (and_iff_right_of_imp hnow).trans ih
    · exact (and_iff_right_of_imp hnow).trans ih
    · exact (and_iff_right_of_imp fun h => tick _ d (hnow h)).trans ih
    · rw [List.forall_mem_cons, ← ih]
      exact and_congr_left fun h => step _ t op k (hnow h)

/-- What holds after a step, survives time and survives the later steps has
held before each of them and holds now. -/
theorem run_since {Q : σ → Prop} (tick : ∀ s d, Q s → Q (S.tick s d)) {ms : List (Move ι κ)}
    {later earlier : List (Step σ Ans)} {x : Step σ Ans}
    (h : (run S code s₀ ms).log = later ++ x :: earlier) (hx : Q x.after)
    (step : ∀ y ∈ later, Q y.before → Q y.after) :
    (∀ y ∈ later, Q y.before) ∧ Q (run S code s₀ ms).state := by
  induction ms generalizing later with
  | nil => simp [run] at h
  | cons m ms ih =>
    rw [run] at h ⊢
    rcases move_cases S code (run S code s₀ ms) m with
      e | ⟨t, c, hj, e⟩ | ⟨d, e⟩ | ⟨t, c, op, f, k, hj, e⟩
    all_goals rw [e] at h ⊢
    · exact ih h step
    · exact ih h step
    · exact ⟨(ih h step).1, tick _ d (ih h step).2⟩
    · cases later with
      | nil =>
        obtain ⟨rfl, -⟩ := List.cons.inj h
        exact ⟨by simp, hx⟩
      | cons y later =>
        obtain ⟨rfl, hl⟩ := List.cons.inj h
        obtain ⟨h₁, h₂⟩ := ih hl fun y hy => step y (.tail _ hy)
        refine ⟨fun y hy => ?_, step _ (.head _) h₂⟩
        rcases List.mem_cons.mp hy with rfl | hy
        · exact h₂
        · exact h₁ y hy

/-- A clock that steps keep and ticks do not turn back: nothing in the log is
ahead of the state, and no step is ahead of a later one. -/
theorem run_clock {τ : Type} [Preorder τ] {clock : σ → τ}
    (keep : ∀ s t op k, clock (S.step s t op k).2 = clock s)
    (tick : ∀ s d, clock s ≤ clock (S.tick s d)) (ms : List (Move ι κ)) :
    (∀ x ∈ (run S code s₀ ms).log, clock x.before ≤ clock (run S code s₀ ms).state) ∧
      (run S code s₀ ms).log.Pairwise fun x y => clock y.before ≤ clock x.before := by
  refine run_invariant S code s₀ (Φ := fun _ _ => True) (fun _ _ _ _ _ => trivial)
    (J := fun s l => (∀ x ∈ l, clock x.before ≤ clock s) ∧
      l.Pairwise fun x y => clock y.before ≤ clock x.before)
    ⟨by simp, .nil⟩ ?_ ?_ ms
  · exact fun s l d h => ⟨fun x hx => (h.1 x hx).trans (tick s d), h.2⟩
  intro s l t op k h _
  refine ⟨fun x hx => ?_, .cons h.1 h.2⟩
  rw [keep]
  rcases List.mem_cons.mp hx with rfl | hx
  · exact le_rfl
  · exact h.1 x hx

/-- A step read on a later clock was taken later. -/
theorem run_clock_lt {τ : Type} [Preorder τ] {clock : σ → τ}
    (keep : ∀ s t op k, clock (S.step s t op k).2 = clock s)
    (tick : ∀ s d, clock s ≤ clock (S.tick s d)) {ms : List (Move ι κ)}
    {later earlier : List (Step σ Ans)} {x y : Step σ Ans}
    (h : (run S code s₀ ms).log = later ++ x :: earlier) (hy : y ∈ (run S code s₀ ms).log)
    (hlt : clock x.before < clock y.before) : y ∈ later := by
  have hp := (run_clock S code s₀ keep tick ms).2
  rw [h] at hy hp
  rcases List.mem_append.mp hy with hy | hy
  · exact hy
  · rcases List.mem_cons.mp hy with rfl | hy
    · exact absurd hlt (lt_irrefl _)
    · have := (List.pairwise_cons.mp (List.pairwise_append.mp hp).2.1).1 y hy
      exact absurd hlt (not_lt_of_ge this)

end Pool
end Interact
