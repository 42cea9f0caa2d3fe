/-
# Programs that commit once

Some operations of a program change what lies outside for good. A program
commits at most once when such an operation is the last it performs: it gives up
before it, or performs it and returns what settles the answer
(`Prog.Commits`). Nothing is then left half done, and who is told of a success
is told so by the operation itself.

* `Commits.bind`: what goes before may do anything that commits nothing.
* `Commits.yields`: a finished run has committed nothing and given up, or its
  last operation is the one that commits and the result is settled by its answer.
* `Commits.reaches`: before its last operation a program has committed nothing.
-/
import HttpBridge.Interact.Prog

namespace Interact
namespace Prog

variable {Op : Type} {Ans : Op → Type} {α β : Type}

/-- An operation that `commit`s is the last of `p`, and `p` returns what is
`settled` by the answer; without one `p` returns what it gives `up` with. -/
def Commits (commit : Op → Prop) (settled : (op : Op) → Ans op → α → Prop) (up : α → Prop) :
    Prog Op Ans α → Prop
  | .ret a => up a
  | .call op k =>
    (¬ commit op ∧ ∀ a, (k a).Commits commit settled up) ∨
      (commit op ∧ ∀ a, ∃ b, k a = .ret b ∧ settled op a b)

variable {commit : Op → Prop} {settled : (op : Op) → Ans op → β → Prop} {up : β → Prop}

@[simp] theorem commits_ret (b : β) :
    (Prog.ret b : Prog Op Ans β).Commits commit settled up ↔ up b := Iff.rfl

namespace Commits

/-- One operation that commits, and the answer to it. -/
theorem perform {op : Op} {f : Ans op → β} (hop : commit op) (h : ∀ a, settled op a (f a)) :
    (Prog.perform op >>= fun a => .ret (f a)).Commits commit settled up :=
  .inr ⟨hop, fun a => ⟨f a, rfl, h a⟩⟩

/-- One operation that does not, and what follows it. -/
theorem after {op : Op} {f : Ans op → Prog Op Ans β} (hop : ¬ commit op)
    (h : ∀ a, (f a).Commits commit settled up) :
    (Prog.perform op >>= f).Commits commit settled up :=
  .inl ⟨hop, h⟩

theorem bind {f : α → Prog Op Ans β} : ∀ {p : Prog Op Ans α}, p.Calls (fun op => ¬ commit op) →
    (∀ tr a, p.Yields tr a → (f a).Commits commit settled up) →
      (p >>= f).Commits commit settled up
  | .ret a, _, h => h [] a (by simp)
  | .call op _, hp, h =>
    .inl ⟨hp.1, fun a => bind (hp.2 a) fun tr b hy => h (⟨op, a⟩ :: tr) b ⟨a, rfl, hy⟩⟩

/-- A program that never commits. -/
theorem of_calls {p : Prog Op Ans β} (hp : p.Calls fun op => ¬ commit op)
    (h : ∀ tr b, p.Yields tr b → up b) : p.Commits commit settled up := by
  have hbind : (p >>= Prog.ret).Commits commit settled up := bind hp h
  rwa [bind_ret] at hbind
where
  bind_ret : ∀ p : Prog Op Ans β, (p >>= Prog.ret) = p
    | .ret _ => rfl
    | .call op k => by
      rw [call_bind]
      exact congrArg _ (funext fun a => bind_ret (k a))

theorem ite {c : Prop} [Decidable c] {p q : Prog Op Ans β} (hp : c → p.Commits commit settled up)
    (hq : ¬ c → q.Commits commit settled up) :
    (if c then p else q).Commits commit settled up := by
  split
  case isTrue h => exact hp h
  case isFalse h => exact hq h

theorem mono {up' : β → Prop} (hup : ∀ b, up b → up' b) : ∀ {p : Prog Op Ans β},
    p.Commits commit settled up → p.Commits commit settled up'
  | .ret b, h => hup b h
  | .call _ _, .inl ⟨hop, h⟩ => .inl ⟨hop, fun a => mono hup (h a)⟩
  | .call _ _, .inr h => .inr h

/-- **What a finished run has done.** -/
theorem yields : ∀ {p : Prog Op Ans β} {tr : List (Event Ans)} {b : β},
    p.Commits commit settled up → p.Yields tr b →
      (up b ∧ ∀ e ∈ tr, ¬ commit e.op) ∨
      ∃ before e, tr = before ++ [e] ∧ commit e.op ∧ settled e.op e.ans b ∧
        ∀ e' ∈ before, ¬ commit e'.op
  | .ret a, tr, b, h, hy => by
    obtain ⟨rfl, rfl⟩ := (ret_yields a b tr).mp hy
    exact .inl ⟨h, by simp⟩
  | .call _ _, [], _, _, hy => by simp [Yields] at hy
  | .call op k, e :: tr, b, h, ⟨a, he, hy⟩ => by
    subst he
    rcases h with ⟨hop, h⟩ | ⟨hop, h⟩
    · rcases yields (h a) hy with ⟨hb, htr⟩ | ⟨before, e, rfl, he, hs, hbefore⟩
      · exact .inl ⟨hb, List.forall_mem_cons.mpr ⟨hop, htr⟩⟩
      · exact .inr ⟨⟨op, a⟩ :: before, e, rfl, he, hs, List.forall_mem_cons.mpr ⟨hop, hbefore⟩⟩
    · obtain ⟨b', hk, hs⟩ := h a
      rw [hk] at hy
      obtain ⟨rfl, rfl⟩ := (ret_yields b' b tr).mp hy
      exact .inr ⟨[], ⟨op, a⟩, rfl, hop, hs, by simp⟩

/-- Whoever is about to perform an operation has committed nothing. -/
theorem reaches : ∀ {p : Prog Op Ans β} {tr : List (Event Ans)} {op : Op}
    {k : Ans op → Prog Op Ans β}, p.Commits commit settled up → p.Reaches tr (.call op k) →
      ∀ e ∈ tr, ¬ commit e.op
  | _, [], _, _, _, _ => by simp
  | .ret _, _ :: _, _, _, _, hr => hr.elim
  | .call op k, e :: tr, _, _, h, ⟨a, he, hr⟩ => by
    subst he
    rcases h with ⟨hop, h⟩ | ⟨hop, h⟩
    · exact List.forall_mem_cons.mpr ⟨hop, reaches (h a) hr⟩
    · obtain ⟨b, hk, -⟩ := h a
      rw [hk, ret_reaches] at hr
      cases hr.2

end Commits
end Prog
end Interact
