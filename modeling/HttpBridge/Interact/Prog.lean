/-
# Programs that call their environment

A program either returns or performs one operation on its environment and
continues with the answer. What the environment answers is left open here:
`Reaches p tr q` says that `p` becomes `q` when its operations are answered
as the trace `tr` records, and `Yields p tr a` that it then returns `a`. So
a fact about every trace of a program holds whatever the environment does,
and a claim about an environment is a hypothesis on the trace.

* `reaches_bind`, `yields_bind`: a trace of a sequence is a trace of its
  first part followed by one of the rest.
* `During`: what a program returns in the course of a trace satisfies a predicate.
* `Calls`: every operation a program can ever perform satisfies a predicate.
* `Every`: whenever a program is about to perform an operation, a predicate
  of its trace so far and the operation holds; both are closed under `bind`.
* `Performs`: every operation a program performs in the course of a trace
  satisfies a predicate.
* `Assembled`: a program put together from parts; what holds of the operations
  of every part holds of its own (`Assembled.calls`, `Assembled.every`).
* `run`: a program against an environment that answers with a function.
-/
import Mathlib.Data.List.Basic
import Mathlib.Tactic.Common

namespace Interact

/-- A program over operations `Op`, the operation `op` answered in `Ans op`. -/
inductive Prog (Op : Type) (Ans : Op → Type) (α : Type) where
  | ret (a : α)
  | call (op : Op) (k : Ans op → Prog Op Ans α)

/-- An operation and what the environment answered. -/
structure Event {Op : Type} (Ans : Op → Type) where
  op : Op
  ans : Ans op

namespace Prog

variable {Op : Type} {Ans : Op → Type} {α β : Type}

protected def bind : Prog Op Ans α → (α → Prog Op Ans β) → Prog Op Ans β
  | .ret a, f => f a
  | .call op k, f => .call op fun a => (k a).bind f

instance : Monad (Prog Op Ans) where
  pure := .ret
  bind := Prog.bind

/-- Perform one operation and return its answer. -/
def perform (op : Op) : Prog Op Ans (Ans op) := .call op .ret

@[simp] theorem pure_eq_ret (a : α) : (pure a : Prog Op Ans α) = .ret a := rfl

@[simp] theorem ret_bind (a : α) (f : α → Prog Op Ans β) : (Prog.ret a >>= f) = f a := rfl

@[simp] theorem call_bind (op : Op) (k : Ans op → Prog Op Ans α) (f : α → Prog Op Ans β) :
    (Prog.call op k >>= f) = .call op fun a => k a >>= f := rfl

/-! ### Traces -/

/-- `p` becomes `q` when its operations are answered as in the trace. -/
def Reaches : Prog Op Ans α → List (Event Ans) → Prog Op Ans α → Prop
  | p, [], q => q = p
  | .ret _, _ :: _, _ => False
  | .call op k, e :: tr, q => ∃ a, e = ⟨op, a⟩ ∧ (k a).Reaches tr q

/-- `p` returns `a` after the trace. -/
def Yields (p : Prog Op Ans α) (tr : List (Event Ans)) (a : α) : Prop := p.Reaches tr (.ret a)

@[simp] theorem reaches_nil (p q : Prog Op Ans α) : p.Reaches [] q ↔ q = p := by
  cases p <;> exact Iff.rfl

@[simp] theorem ret_reaches (a : α) (tr : List (Event Ans)) (q : Prog Op Ans α) :
    (Prog.ret a).Reaches tr q ↔ tr = [] ∧ q = .ret a := by
  cases tr <;> simp [Reaches]

theorem call_reaches_cons (op : Op) (k : Ans op → Prog Op Ans α) (e : Event Ans)
    (tr : List (Event Ans)) (q : Prog Op Ans α) :
    (Prog.call op k).Reaches (e :: tr) q ↔ ∃ a, e = ⟨op, a⟩ ∧ (k a).Reaches tr q := Iff.rfl

@[simp] theorem ret_yields (a b : α) (tr : List (Event Ans)) :
    (Prog.ret a).Yields tr b ↔ tr = [] ∧ b = a := by
  simp [Yields]

@[simp] theorem perform_yields (op : Op) (tr : List (Event Ans)) (a : Ans op) :
    (perform op).Yields tr a ↔ tr = [⟨op, a⟩] := by
  cases tr with
  | nil => simp [Yields, perform]
  | cons e tr =>
    simp only [Yields, perform, call_reaches_cons, ret_reaches, ret.injEq, List.cons.injEq]
    constructor
    · rintro ⟨b, rfl, rfl, rfl⟩
      exact ⟨rfl, rfl⟩
    · rintro ⟨rfl, rfl⟩
      exact ⟨a, rfl, rfl, rfl⟩

/-- A step at the end of a trace. -/
theorem Reaches.snoc : ∀ {p : Prog Op Ans α} {tr : List (Event Ans)} {op : Op}
    {k : Ans op → Prog Op Ans α}, p.Reaches tr (.call op k) → ∀ a, p.Reaches (tr ++ [⟨op, a⟩]) (k a)
  | p, [], op, k, h, a => by
    rw [reaches_nil] at h
    subst h
    exact ⟨a, rfl, by simp⟩
  | .ret _, _ :: _, _, _, h, _ => h.elim
  | .call _ _, _ :: _, _, _, ⟨b, he, h⟩, a => ⟨b, he, h.snoc a⟩

/-- What a trace contains the program was about to perform. -/
theorem Reaches.about_to : ∀ {p q : Prog Op Ans α} {tr : List (Event Ans)} {e : Event Ans},
    p.Reaches tr q → e ∈ tr → ∃ tr₁ tr₂ k, tr = tr₁ ++ e :: tr₂ ∧ p.Reaches tr₁ (.call e.op k)
  | .ret _, _, _ :: _, _, h, _ => h.elim
  | .call op k, _, _ :: tr, e, ⟨a, hd, h⟩, he => by
    subst hd
    rcases List.mem_cons.mp he with rfl | he
    · exact ⟨[], tr, k, rfl, by simp⟩
    · obtain ⟨tr₁, tr₂, k', rfl, hr⟩ := h.about_to he
      exact ⟨⟨op, a⟩ :: tr₁, tr₂, k', rfl, a, rfl, hr⟩

/-- A trace of a sequence stops inside its first part, or runs through it. -/
theorem reaches_bind (f : α → Prog Op Ans β) : ∀ (p : Prog Op Ans α) (tr : List (Event Ans))
    (q : Prog Op Ans β), (p >>= f).Reaches tr q ↔
      (∃ p', p.Reaches tr p' ∧ q = p' >>= f) ∨
      ∃ a tr₁ tr₂, tr = tr₁ ++ tr₂ ∧ p.Yields tr₁ a ∧ (f a).Reaches tr₂ q
  | .ret a, tr, q => by
    simp only [ret_bind, ret_yields, ret_reaches]
    constructor
    · exact fun h => .inr ⟨a, [], tr, rfl, ⟨rfl, rfl⟩, h⟩
    · rintro (⟨_, ⟨rfl, rfl⟩, rfl⟩ | ⟨_, _, _, rfl, ⟨rfl, rfl⟩, h⟩)
      · simp
      · exact h
  | .call op k, [], q => by
    rw [call_bind, reaches_nil]
    constructor
    · rintro rfl
      exact .inl ⟨.call op k, by simp, by rw [call_bind]⟩
    · rintro (⟨p', h, rfl⟩ | ⟨a, tr₁, tr₂, h, hy, -⟩)
      · rw [reaches_nil] at h
        rw [h, call_bind]
      · obtain ⟨rfl, rfl⟩ := List.append_eq_nil_iff.mp h.symm
        simp [Yields] at hy
  | .call op k, e :: tr, q => by
    rw [call_bind, call_reaches_cons]
    constructor
    · rintro ⟨a, rfl, h⟩
      rcases (reaches_bind f (k a) tr q).mp h with ⟨p', hp, rfl⟩ | ⟨b, tr₁, tr₂, rfl, hy, hr⟩
      · exact .inl ⟨p', ⟨a, rfl, hp⟩, rfl⟩
      · exact .inr ⟨b, ⟨op, a⟩ :: tr₁, tr₂, rfl, ⟨a, rfl, hy⟩, hr⟩
    · rintro (⟨p', ⟨a, rfl, hp⟩, rfl⟩ | ⟨b, tr₁, tr₂, h, hy, hr⟩)
      · exact ⟨a, rfl, (reaches_bind f (k a) tr _).mpr (.inl ⟨p', hp, rfl⟩)⟩
      · cases tr₁ with
        | nil => simp [Yields] at hy
        | cons e' tr₁ =>
          obtain ⟨a, rfl, hy⟩ := hy
          obtain ⟨rfl, rfl⟩ := List.cons.inj h
          exact ⟨a, rfl, (reaches_bind f (k a) _ _).mpr (.inr ⟨b, tr₁, tr₂, rfl, hy, hr⟩)⟩

/-- A sequence returns after a trace of its first part followed by one of the
rest. -/
theorem yields_bind (p : Prog Op Ans α) (f : α → Prog Op Ans β) (tr : List (Event Ans)) (b : β) :
    (p >>= f).Yields tr b ↔
      ∃ a tr₁ tr₂, tr = tr₁ ++ tr₂ ∧ p.Yields tr₁ a ∧ (f a).Yields tr₂ b := by
  refine (reaches_bind f p tr _).trans ⟨?_, .inr⟩
  rintro (⟨p', hp, h⟩ | h)
  · cases p' with
    | ret a =>
      rw [ret_bind] at h
      refine ⟨a, tr, [], (List.append_nil _).symm, hp, ?_⟩
      rw [← h]
      simp
    | call op k => simp at h
  · exact h

/-- A program whose result is only renamed. -/
theorem yields_bind_ret (p : Prog Op Ans α) (f : α → β) (tr : List (Event Ans)) (b : β) :
    (p >>= fun a => .ret (f a)).Yields tr b ↔ ∃ a, p.Yields tr a ∧ b = f a := by
  rw [yields_bind]
  constructor
  · rintro ⟨a, tr₁, tr₂, rfl, h, h'⟩
    obtain ⟨rfl, rfl⟩ := (ret_yields _ _ _).mp h'
    exact ⟨a, by simpa using h, rfl⟩
  · rintro ⟨a, h, rfl⟩
    exact ⟨a, tr, [], (List.append_nil _).symm, h, by simp⟩

theorem reaches_bind_ret_call {p : Prog Op Ans α} {f : α → β} {tr : List (Event Ans)} {op : Op}
    {k : Ans op → Prog Op Ans β} (h : (p >>= fun a => .ret (f a)).Reaches tr (.call op k)) :
    ∃ k', p.Reaches tr (.call op k') := by
  rcases (reaches_bind _ p tr _).mp h with ⟨p', hp, he⟩ | ⟨a, tr₁, tr₂, rfl, -, h'⟩
  · cases p' with
    | ret a => simp at he
    | call op' k' =>
      rw [call_bind, call.injEq] at he
      obtain ⟨rfl, -⟩ := he
      exact ⟨k', hp⟩
  · simp at h'

/-- One operation and what follows it. -/
theorem yields_perform_bind (op : Op) (f : Ans op → Prog Op Ans β) (tr : List (Event Ans)) (b : β) :
    (perform op >>= f).Yields tr b ↔ ∃ a tr', tr = ⟨op, a⟩ :: tr' ∧ (f a).Yields tr' b := by
  simp [yields_bind]

/-! ### What a program returns in the course of a trace -/

/-- Whatever `p` returns in the course of `T` satisfies `Q`. -/
def During (T : List (Event Ans)) (Q : α → Prop) (p : Prog Op Ans α) : Prop :=
  ∀ tr a, tr <:+: T → p.Yields tr a → Q a

namespace During

variable {T : List (Event Ans)} {Q : β → Prop}

theorem of_yields {p : Prog Op Ans β} {tr : List (Event Ans)} {b : β} (h : p.During tr Q)
    (hy : p.Yields tr b) : Q b := h tr b (List.infix_refl tr) hy

theorem ret {b : β} (h : Q b) : (pure b : Prog Op Ans β).During T Q := by
  intro tr b' _ hy
  obtain ⟨-, rfl⟩ := (ret_yields b b' tr).mp hy
  exact h

/-- The rest of a sequence may use that its first part has returned. -/
theorem bind {p : Prog Op Ans α} {f : α → Prog Op Ans β}
    (h : ∀ tr a, tr <:+: T → p.Yields tr a → (f a).During T Q) : (p >>= f).During T Q := by
  intro tr b hT hy
  obtain ⟨a, tr₁, tr₂, rfl, hp, hf⟩ := (yields_bind p f tr b).mp hy
  exact h tr₁ a ((List.prefix_append tr₁ tr₂).isInfix.trans hT) hp tr₂ b
    ((List.suffix_append tr₁ tr₂).isInfix.trans hT) hf

/-- What the first part did does not matter. -/
theorem skip {p : Prog Op Ans α} {f : α → Prog Op Ans β} (h : ∀ a, (f a).During T Q) :
    (p >>= f).During T Q :=
  bind fun _ a _ _ => h a

theorem perform {op : Op} {f : Ans op → Prog Op Ans β} (h : ∀ a, ⟨op, a⟩ ∈ T → (f a).During T Q) :
    (Prog.perform op >>= f).During T Q := by
  refine bind fun tr a hT hy => h a ?_
  rw [perform_yields] at hy
  exact hT.subset (by rw [hy]; exact .head _)

theorem ite {c : Prop} [Decidable c] {p q : Prog Op Ans β} (hp : c → p.During T Q)
    (hq : ¬ c → q.During T Q) : (if c then p else q).During T Q := by
  split
  case isTrue h => exact hp h
  case isFalse h => exact hq h

end During

/-! ### What a program can perform -/

/-- Every operation `p` can perform, whatever it is answered, satisfies `P`. -/
def Calls (P : Op → Prop) : Prog Op Ans α → Prop
  | .ret _ => True
  | .call op k => P op ∧ ∀ a, (k a).Calls P

@[simp] theorem calls_ret (P : Op → Prop) (a : α) : (Prog.ret a : Prog Op Ans α).Calls P := trivial

@[simp] theorem calls_perform (P : Op → Prop) (op : Op) :
    (perform op : Prog Op Ans (Ans op)).Calls P ↔ P op := by
  simp [perform, Calls]

theorem calls_perform_bind (P : Op → Prop) (op : Op) (f : Ans op → Prog Op Ans β) :
    (perform op >>= f).Calls P ↔ P op ∧ ∀ a, (f a).Calls P := Iff.rfl

theorem calls_bind (P : Op → Prop) (f : α → Prog Op Ans β) : ∀ p : Prog Op Ans α,
    (p >>= f).Calls P ↔ p.Calls P ∧ ∀ tr a, p.Yields tr a → (f a).Calls P
  | .ret a => by
    simp only [ret_bind, calls_ret, ret_yields, true_and]
    exact ⟨fun h _ _ ⟨_, hb⟩ => hb ▸ h, fun h => h [] a ⟨rfl, rfl⟩⟩
  | .call op k => by
    simp only [call_bind, Calls]
    constructor
    · rintro ⟨hop, h⟩
      refine ⟨⟨hop, fun a => ((calls_bind P f (k a)).mp (h a)).1⟩, fun tr b hy => ?_⟩
      cases tr with
      | nil => simp [Yields] at hy
      | cons e tr =>
        obtain ⟨a, -, hy⟩ := hy
        exact ((calls_bind P f (k a)).mp (h a)).2 tr b hy
    · rintro ⟨⟨hop, h⟩, hf⟩
      exact ⟨hop, fun a => (calls_bind P f (k a)).mpr
        ⟨h a, fun tr b hy => hf (⟨op, a⟩ :: tr) b ⟨a, rfl, hy⟩⟩⟩

theorem Calls.mono {P Q : Op → Prop} (hPQ : ∀ op, P op → Q op) : ∀ {p : Prog Op Ans α},
    p.Calls P → p.Calls Q
  | .ret _, _ => trivial
  | .call op _, h => ⟨hPQ op h.1, fun a => (h.2 a).mono hPQ⟩

/-- What a program calls it has called in every trace, and will. -/
theorem Calls.of_reaches {P : Op → Prop} : ∀ {p q : Prog Op Ans α} {tr : List (Event Ans)},
    p.Calls P → p.Reaches tr q → (∀ e ∈ tr, P e.op) ∧ q.Calls P
  | p, q, [], hc, h => by
    rw [reaches_nil] at h
    exact ⟨by simp, h ▸ hc⟩
  | .ret _, _, _ :: _, _, h => h.elim
  | .call _ _, _, _ :: _, hc, ⟨a, he, h⟩ => by
    obtain ⟨h₁, h₂⟩ := (hc.2 a).of_reaches h
    subst he
    exact ⟨by simpa using ⟨hc.1, h₁⟩, h₂⟩

/-- Whenever `p` is about to perform an operation, `Φ` holds of its trace so
far and the operation. -/
def Every (Φ : List (Event Ans) → Op → Prop) (p : Prog Op Ans α) : Prop :=
  ∀ tr op k, p.Reaches tr (.call op k) → Φ tr op

@[simp] theorem every_ret (Φ : List (Event Ans) → Op → Prop) (a : α) :
    (Prog.ret a : Prog Op Ans α).Every Φ := by
  intro tr op k h
  rw [ret_reaches] at h
  cases h.2

theorem every_call (Φ : List (Event Ans) → Op → Prop) (op : Op) (k : Ans op → Prog Op Ans α) :
    (Prog.call op k).Every Φ ↔ Φ [] op ∧ ∀ a, (k a).Every fun tr => Φ (⟨op, a⟩ :: tr) := by
  constructor
  · intro h
    exact ⟨h [] op k (by simp), fun a tr op' k' hr => h (⟨op, a⟩ :: tr) op' k' ⟨a, rfl, hr⟩⟩
  · rintro ⟨h₀, h⟩ tr op' k' hr
    cases tr with
    | nil =>
      rw [reaches_nil, call.injEq] at hr
      obtain ⟨rfl, -⟩ := hr
      exact h₀
    | cons e tr =>
      obtain ⟨a, rfl, hr⟩ := hr
      exact h a tr op' k' hr

theorem every_perform_bind (Φ : List (Event Ans) → Op → Prop) (op : Op)
    (f : Ans op → Prog Op Ans β) : (perform op >>= f).Every Φ ↔
      Φ [] op ∧ ∀ a, (f a).Every fun tr => Φ (⟨op, a⟩ :: tr) :=
  every_call Φ op f

/-- A sequence about to perform an operation is inside its first part, or has
returned from it. -/
theorem reaches_bind_call {p : Prog Op Ans α} {f : α → Prog Op Ans β} {tr : List (Event Ans)}
    {op : Op} {k : Ans op → Prog Op Ans β} (h : (p >>= f).Reaches tr (.call op k)) :
    (∃ k', p.Reaches tr (.call op k')) ∨
      ∃ a tr₁ tr₂, tr = tr₁ ++ tr₂ ∧ p.Yields tr₁ a ∧ (f a).Reaches tr₂ (.call op k) := by
  rcases (reaches_bind f p tr _).mp h with ⟨p', hr, he⟩ | h
  · cases p' with
    | ret a =>
      have hk : (f a).Reaches [] (.call op k) := by
        rw [reaches_nil]
        exact he
      exact .inr ⟨a, tr, [], (List.append_nil _).symm, hr, hk⟩
    | call op' k' =>
      rw [call_bind, call.injEq] at he
      obtain ⟨rfl, -⟩ := he
      exact .inl ⟨k', hr⟩
  · exact .inr h

/-- `Every` is closed under sequencing when `Φ` survives a longer past. -/
theorem Every.bind {Φ : List (Event Ans) → Op → Prop}
    (hΦ : ∀ tr₀ tr op, Φ tr op → Φ (tr₀ ++ tr) op) {p : Prog Op Ans α} {f : α → Prog Op Ans β}
    (hp : p.Every Φ) (hf : ∀ tr a, p.Yields tr a → (f a).Every Φ) : (p >>= f).Every Φ := by
  intro tr op k h
  rcases reaches_bind_call h with ⟨k', hr⟩ | ⟨a, tr₁, tr₂, rfl, hy, hr⟩
  · exact hp tr op k' hr
  · exact hΦ tr₁ tr₂ op (hf tr₁ a hy tr₂ op k hr)

/-- Operations of which `Φ` always holds need no past. -/
theorem Calls.every {Φ : List (Event Ans) → Op → Prop} {P : Op → Prop}
    (hP : ∀ tr op, P op → Φ tr op) {p : Prog Op Ans α} (h : p.Calls P) : p.Every Φ :=
  fun tr op _ hr => hP tr op (h.of_reaches hr).2.1

/-! ### What a program performs in the course of a trace -/

/-- Every operation that `p` performs in the course of `T` satisfies `P`. -/
def Performs (T : List (Event Ans)) (P : Op → Prop) (p : Prog Op Ans α) : Prop :=
  ∀ tr q, tr <:+: T → p.Reaches tr q → ∀ e ∈ tr, P e.op

namespace Performs

variable {T : List (Event Ans)} {P : Op → Prop}

theorem of_reaches {p q : Prog Op Ans β} {tr : List (Event Ans)} (h : p.Performs tr P)
    (hr : p.Reaches tr q) : ∀ e ∈ tr, P e.op := h tr q (List.infix_refl tr) hr

theorem of_calls {p : Prog Op Ans β} (h : p.Calls P) : p.Performs T P :=
  fun _ _ _ hr => (h.of_reaches hr).1

theorem ret {b : β} : (pure b : Prog Op Ans β).Performs T P := of_calls trivial

theorem mono {P' : Op → Prop} (hP : ∀ op, P op → P' op) {p : Prog Op Ans β} (h : p.Performs T P) :
    p.Performs T P' :=
  fun tr q hT hr e he => hP e.op (h tr q hT hr e he)

/-- The rest of a sequence may use that its first part has returned. -/
theorem bind {p : Prog Op Ans α} {f : α → Prog Op Ans β} (hp : p.Performs T P)
    (hf : ∀ tr a, tr <:+: T → p.Yields tr a → (f a).Performs T P) : (p >>= f).Performs T P := by
  intro tr q hT hr e he
  rcases (reaches_bind f p tr q).mp hr with ⟨p', hp', -⟩ | ⟨a, tr₁, tr₂, rfl, hy, hr₂⟩
  · exact hp tr p' hT hp' e he
  · have hT₁ : tr₁ <:+: T := (List.prefix_append tr₁ tr₂).isInfix.trans hT
    have hT₂ : tr₂ <:+: T := (List.suffix_append tr₁ tr₂).isInfix.trans hT
    rcases List.mem_append.mp he with he | he
    · exact hp tr₁ _ hT₁ hy e he
    · exact hf tr₁ a hT₁ hy tr₂ q hT₂ hr₂ e he

theorem perform {op : Op} {f : Ans op → Prog Op Ans β} (hop : P op)
    (hf : ∀ a, ⟨op, a⟩ ∈ T → (f a).Performs T P) : (Prog.perform op >>= f).Performs T P := by
  refine bind (of_calls ((calls_perform P op).mpr hop)) fun tr a hT hy => hf a ?_
  rw [perform_yields] at hy
  exact hT.subset (by rw [hy]; exact .head _)

theorem ite {c : Prop} [Decidable c] {p q : Prog Op Ans β} (hp : c → p.Performs T P)
    (hq : ¬ c → q.Performs T P) : (if c then p else q).Performs T P := by
  split
  case isTrue h => exact hp h
  case isFalse h => exact hq h

end Performs

/-! ### What a program is put together from -/

/-- `p` is put together from parts in `S`. -/
inductive Assembled (S : (α : Type) → Prog Op Ans α → Prop) : (α : Type) → Prog Op Ans α → Prop
  | ret {α : Type} (a : α) : Assembled S α (.ret a)
  | part {α : Type} {p : Prog Op Ans α} : S α p → Assembled S α p
  | bind {α β : Type} {p : Prog Op Ans α} {f : α → Prog Op Ans β} : Assembled S α p →
      (∀ a, Assembled S β (f a)) → Assembled S β (p >>= f)

section Assembled

variable {S S' : (α : Type) → Prog Op Ans α → Prop} {p : Prog Op Ans α}

theorem Assembled.mono (hS : ∀ (α : Type) (p : Prog Op Ans α), S α p → S' α p)
    (h : Assembled S α p) : Assembled S' α p := by
  induction h with
  | ret a => exact .ret a
  | part hp => exact .part (hS _ _ hp)
  | bind _ _ ihp ihf => exact .bind ihp ihf

/-- What all parts only call, the whole only calls. -/
theorem Assembled.calls {P : Op → Prop}
    (hS : ∀ (α : Type) (p : Prog Op Ans α), S α p → p.Calls P) (h : Assembled S α p) :
    p.Calls P := by
  induction h with
  | ret a => trivial
  | part hp => exact hS _ _ hp
  | bind _ _ ihp ihf => exact (calls_bind P _ _).mpr ⟨ihp, fun _ a _ => ihf a⟩

/-- What holds before every operation of a part holds before every operation of
the whole, if it survives a longer past. -/
theorem Assembled.every {Φ : List (Event Ans) → Op → Prop}
    (hΦ : ∀ tr₀ tr op, Φ tr op → Φ (tr₀ ++ tr) op)
    (hS : ∀ (α : Type) (p : Prog Op Ans α), S α p → p.Every Φ) (h : Assembled S α p) :
    p.Every Φ := by
  induction h with
  | ret a => exact every_ret Φ a
  | part hp => exact hS _ _ hp
  | bind _ _ ihp ihf => exact ihp.bind hΦ fun _ a _ => ihf a

end Assembled

/-! ### Running a program -/

/-- The program against an environment that answers every operation with a
function of it: the trace and the result. -/
def run (env : (op : Op) → Ans op) : Prog Op Ans α → List (Event Ans) × α
  | .ret a => ([], a)
  | .call op k => (⟨op, env op⟩ :: (run env (k (env op))).1, (run env (k (env op))).2)

theorem yields_run (env : (op : Op) → Ans op) : ∀ p : Prog Op Ans α,
    p.Yields (p.run env).1 (p.run env).2
  | .ret _ => by simp [run]
  | .call op k => ⟨env op, rfl, yields_run env (k (env op))⟩

/-- A sequence runs its first part, then the rest on what that returns. -/
theorem run_bind (env : (op : Op) → Ans op) (f : α → Prog Op Ans β) : ∀ p : Prog Op Ans α,
    ((p >>= f).run env).2 = ((f (p.run env).2).run env).2
  | .ret _ => rfl
  | .call op k => run_bind env f (k (env op))

/-- Every event of a run is answered by the function. -/
theorem mem_run {env : (op : Op) → Ans op} : ∀ {p : Prog Op Ans α} {e : Event Ans},
    e ∈ (p.run env).1 → e.ans = env e.op
  | .ret _, _, h => by simp [run] at h
  | .call _ _, _, h => by
    rcases List.mem_cons.mp h with rfl | h
    · rfl
    · exact mem_run h

end Prog
end Interact
