/-
# Programs over two kinds of operations

A program over one kind of operations runs where there are others too
(`Prog.inl`). Its traces there are its own: they consist of operations of its
kind, and read as such (`lefts`) they are traces of the program alone
(`reaches_inl`).
-/
import HttpBridge.Interact.Prog

namespace Interact

variable {Op Op' : Type} {Ans : Op → Type} {Ans' : Op' → Type} {α β : Type}

/-- The event of a first operation, if it is one. -/
def Event.left? : Event (Sum.elim Ans Ans') → Option (Event Ans)
  | ⟨.inl op, a⟩ => some ⟨op, a⟩
  | ⟨.inr _, _⟩ => none

def Event.inl (e : Event Ans) : Event (Sum.elim Ans Ans') := ⟨.inl e.op, e.ans⟩

/-- What a trace contains of the first operations. -/
def lefts (tr : List (Event (Sum.elim Ans Ans'))) : List (Event Ans) := tr.filterMap Event.left?

theorem left?_eq_some {e : Event (Sum.elim Ans Ans')} {e' : Event Ans} :
    e.left? = some e' ↔ e = e'.inl := by
  obtain ⟨op | op, a⟩ := e
  · constructor
    · rintro ⟨⟩
      rfl
    · rintro ⟨⟩
      rfl
  · constructor
    · intro h
      cases h
    · intro h
      cases h

theorem mem_lefts {tr : List (Event (Sum.elim Ans Ans'))} {e : Event Ans} :
    e ∈ lefts tr ↔ e.inl ∈ tr := by
  rw [lefts, List.mem_filterMap]
  constructor
  · rintro ⟨e', he', h⟩
    rw [left?_eq_some] at h
    rwa [← h]
  · exact fun h => ⟨_, h, left?_eq_some.mpr rfl⟩

namespace Prog

/-- The program, where there are other operations too. -/
def inl : Prog Op Ans α → Prog (Op ⊕ Op') (Sum.elim Ans Ans') α
  | .ret a => .ret a
  | .call op k => .call (.inl op) fun a => (k a).inl

/-- A trace of the program among others is one of its own. -/
theorem reaches_inl : ∀ {p : Prog Op Ans α} {tr : List (Event (Sum.elim Ans Ans'))}
    {q : Prog (Op ⊕ Op') (Sum.elim Ans Ans') α}, p.inl.Reaches tr q →
      tr = (lefts tr).map Event.inl ∧ ∃ q', q = q'.inl ∧ p.Reaches (lefts tr) q'
  | p, [], q, h => by
    rw [reaches_nil] at h
    exact ⟨rfl, p, h, by simp [lefts]⟩
  | .ret _, _ :: _, _, h => h.elim
  | .call op k, e :: tr, q, h => by
    obtain ⟨a, rfl, h⟩ := h
    obtain ⟨htr, q', hq, hr⟩ := reaches_inl h
    refine ⟨?_, q', hq, a, rfl, hr⟩
    show _ :: tr = _ :: (lefts tr).map Event.inl
    rw [← htr]
    rfl

theorem yields_inl {p : Prog Op Ans α} {tr : List (Event (Sum.elim Ans Ans'))} {a : α}
    (h : (p.inl : Prog (Op ⊕ Op') (Sum.elim Ans Ans') α).Yields tr a) : p.Yields (lefts tr) a := by
  obtain ⟨-, q, hq, hr⟩ := reaches_inl h
  cases q with
  | ret b =>
    cases hq
    exact hr
  | call op k => cases hq

/-- A trace of the program alone is one among others. -/
theorem inl_yields : ∀ {p : Prog Op Ans α} {tr : List (Event Ans)} {a : α}, p.Yields tr a →
    (p.inl : Prog (Op ⊕ Op') (Sum.elim Ans Ans') α).Yields (tr.map Event.inl) a
  | .ret _, [], _, h => by
    obtain ⟨-, rfl⟩ := (ret_yields _ _ _).mp h
    exact (ret_yields _ _ _).mpr ⟨rfl, rfl⟩
  | .ret _, _ :: _, _, h => h.elim
  | .call _ _, [], _, h => by simp [Yields] at h
  | .call _ _, _ :: _, _, ⟨b, he, h⟩ => by
    subst he
    exact ⟨b, rfl, inl_yields h⟩

/-- What the program calls among others are its own operations. -/
theorem calls_inl {P : Op ⊕ Op' → Prop} (hP : ∀ op, P (.inl op)) : ∀ p : Prog Op Ans α,
    (p.inl : Prog (Op ⊕ Op') (Sum.elim Ans Ans') α).Calls P
  | .ret _ => trivial
  | .call op k => ⟨hP op, fun a => calls_inl hP (k a)⟩

end Prog

end Interact
