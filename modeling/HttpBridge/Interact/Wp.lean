/-
# Programs against an interface with a state

An interface says when an operation may be performed, and what it may answer and
leave behind (`Interface`). A program meets a postcondition from a state if every
operation that it performs is allowed where it performs it, and what it returns
satisfies the postcondition (`Prog.Wp`), whatever the interface answers. That is
a weakest precondition, with its rules:

* `wp_bind`: for a sequence, that of its first part with that of the rest after it.
* `Wp.mono`: a weaker postcondition.
* `Wp.foldlM`: a loop over a list keeps an invariant.
* `Wp.loop`: a loop that stops by itself, with a bound on the rounds left.
* `Wp.reaches`: in every run all operations are allowed.
* `Wp.yields`: every finished run satisfies the postcondition.

`Interface.logged` keeps a record of what was performed beside the state, for a
postcondition that speaks of it.
-/
import HttpBridge.Interact.Prog

namespace Interact

/-- When an operation may be performed in a state, and what it may answer and
leave behind. -/
structure Interface (Op : Type) (Ans : Op → Type) (M : Type) where
  allows : M → Op → Prop
  answers : M → (op : Op) → Ans op → M → Prop

variable {Op : Type} {Ans : Op → Type} {M α β : Type}

namespace Interface

/-- The interface answers as the trace records. -/
def Runs (I : Interface Op Ans M) : M → List (Event Ans) → M → Prop
  | m, [], m' => m' = m
  | m, e :: tr, m' => ∃ m₁, I.answers m e.op e.ans m₁ ∧ I.Runs m₁ tr m'

/-- The interface with a record of what `f` says of each event. -/
def logged {ι : Type} (I : Interface Op Ans M) (f : Event Ans → List ι) :
    Interface Op Ans (M × List ι) where
  allows x op := I.allows x.1 op
  answers x op a x' := I.answers x.1 op a x'.1 ∧ x'.2 = x.2 ++ f ⟨op, a⟩

theorem Runs.logged {ι : Type} {I : Interface Op Ans M} (f : Event Ans → List ι) :
    ∀ {tr : List (Event Ans)} {m m' : M} {l : List ι}, I.Runs m tr m' →
      (I.logged f).Runs (m, l) tr (m', l ++ tr.flatMap f)
  | [], m, m', l, h => by
    rw [show m' = m from h, List.flatMap_nil, List.append_nil]
    rfl
  | e :: tr, m, m', l, ⟨m₁, he, h⟩ => by
    have hrest : (I.logged f).Runs (m₁, l ++ f e) tr (m', l ++ f e ++ tr.flatMap f) := Runs.logged f h
    rw [List.append_assoc] at hrest
    exact ⟨(m₁, l ++ f e), ⟨he, rfl⟩, hrest⟩

end Interface

namespace Prog

/-- `for (e = start; e && go s; e = next e) s = body s e`. After `n` rounds it is
`stuck`. -/
def loop {ε σ : Type} (stuck : Prog Op Ans σ) (go : σ → Bool) (body : σ → ε → Prog Op Ans σ)
    (next : ε → Prog Op Ans (Option ε)) : ℕ → Option ε → σ → Prog Op Ans σ
  | _, none, s => return s
  | 0, some _, s => if go s then stuck else return s
  | n + 1, some e, s =>
    if go s then do
      let s ← body s e
      let e ← next e
      loop stuck go body next n e s
    else return s

variable (I : Interface Op Ans M)

/-- From the state `m` the program performs only what is allowed, and `Q` holds of
what it returns and of the state that it leaves. -/
def Wp (Q : α → M → Prop) : Prog Op Ans α → M → Prop
  | .ret a, m => Q a m
  | .call op k, m => I.allows m op ∧ ∀ a m', I.answers m op a m' → (k a).Wp Q m'

variable {I} {Q : β → M → Prop} {m : M}

@[simp] theorem wp_ret (b : β) : (Prog.ret b : Prog Op Ans β).Wp I Q m ↔ Q b m := Iff.rfl

theorem wp_perform_bind (op : Op) (f : Ans op → Prog Op Ans β) :
    (perform op >>= f).Wp I Q m ↔ I.allows m op ∧ ∀ a m', I.answers m op a m' → (f a).Wp I Q m' :=
  Iff.rfl

theorem wp_bind (f : α → Prog Op Ans β) : ∀ (p : Prog Op Ans α) (m : M),
    (p >>= f).Wp I Q m ↔ p.Wp I (fun a m' => (f a).Wp I Q m') m
  | .ret _, _ => Iff.rfl
  | .call op k, m => by
    show (I.allows m op ∧ ∀ a m', I.answers m op a m' → (k a >>= f).Wp I Q m') ↔ _
    exact and_congr_right fun _ => forall_congr' fun a => forall_congr' fun m' =>
      imp_congr_right fun _ => wp_bind f (k a) m'

namespace Wp

theorem mono {Q' : β → M → Prop} (hQ : ∀ b m, Q b m → Q' b m) : ∀ {p : Prog Op Ans β} {m : M},
    p.Wp I Q m → p.Wp I Q' m
  | .ret b, m, h => hQ b m h
  | .call _ _, _, h => ⟨h.1, fun a m' ha => mono hQ (h.2 a m' ha)⟩

/-- The rest of a sequence goes on from where its first part has got to. -/
theorem bind {R : α → M → Prop} {p : Prog Op Ans α} {f : α → Prog Op Ans β} (hp : p.Wp I R m)
    (hf : ∀ a m', R a m' → (f a).Wp I Q m') : (p >>= f).Wp I Q m :=
  (wp_bind f p m).mpr (hp.mono hf)

theorem ite {c : Prop} [Decidable c] {p q : Prog Op Ans β} (hp : c → p.Wp I Q m)
    (hq : ¬ c → q.Wp I Q m) : (if c then p else q).Wp I Q m := by
  split
  case isTrue h => exact hp h
  case isFalse h => exact hq h

/-- A loop over a list, each round of which keeps the invariant. -/
theorem foldlM {ι : Type} {R : β → M → Prop} {f : β → ι → Prog Op Ans β}
    (hf : ∀ b i m, R b m → (f b i).Wp I R m) : ∀ (is : List ι) {b : β} {m : M}, R b m →
      (is.foldlM f b).Wp I R m
  | [], _, _, h => h
  | i :: is, b, m, h => by
    rw [List.foldlM_cons]
    exact (hf b i m h).bind fun _ _ h' => foldlM hf is h'

/-- A loop that has at most `k` rounds left where `R k` holds. -/
theorem loop {ε σ : Type} {Q : σ → M → Prop} {stuck : Prog Op Ans σ} {go : σ → Bool}
    {body : σ → ε → Prog Op Ans σ} {next : ε → Prog Op Ans (Option ε)} (R : ℕ → Option ε → σ → M → Prop)
    (hend : ∀ k e s m, R k e s m → e = none ∨ go s = false → Q s m)
    (hround : ∀ k e s m, R k (some e) s m → go s = true → ∃ k', k = k' + 1 ∧
      (body s e).Wp I (fun s' m' => (next e).Wp I (fun e' m'' => R k' e' s' m'') m') m) :
    ∀ {n k : ℕ} {e : Option ε} {s : σ} {m : M}, R k e s m → k ≤ n →
      (Prog.loop stuck go body next n e s).Wp I Q m
  | n, k, none, s, m, h, _ => by
    cases n <;> exact hend k none s m h (.inl rfl)
  | n, k, some e, s, m, h, hk => by
    by_cases hgo : go s = true
    · obtain ⟨k', rfl, hbody⟩ := hround k e s m h hgo
      obtain ⟨n', rfl⟩ : ∃ n', n = n' + 1 := ⟨n - 1, by omega⟩
      rw [Prog.loop, if_pos hgo]
      refine hbody.bind fun s' m' hnext => hnext.bind fun e' m'' hR => ?_
      exact loop R hend hround hR (by omega)
    · have hstop : Prog.loop stuck go body next n (some e) s = .ret s := by
        cases n <;> exact if_neg hgo
      rw [hstop]
      exact hend k (some e) s m h (.inr (Bool.eq_false_iff.mpr hgo))

/-- In a run of the program it stays within what is allowed. -/
theorem reaches : ∀ {p q : Prog Op Ans β} {tr : List (Event Ans)} {m m' : M}, p.Wp I Q m →
    p.Reaches tr q → I.Runs m tr m' → q.Wp I Q m'
  | p, q, [], _, _, h, hr, hm => by
    rw [reaches_nil] at hr
    rw [hr, show _ = _ from hm]
    exact h
  | .ret _, _, _ :: _, _, _, _, hr, _ => hr.elim
  | .call _ _, _, _ :: _, _, _, h, ⟨a, he, hr⟩, ⟨m₁, hm, hms⟩ => by
    subst he
    exact reaches (h.2 a m₁ hm) hr hms

/-- **What is performed is allowed.** -/
theorem allowed {p : Prog Op Ans β} {tr : List (Event Ans)} {op : Op} {k : Ans op → Prog Op Ans β}
    {m' : M} (h : p.Wp I Q m) (hr : p.Reaches tr (.call op k)) (hm : I.Runs m tr m') :
    I.allows m' op :=
  (h.reaches hr hm).1

/-- **What is returned satisfies the postcondition.** -/
theorem yields {p : Prog Op Ans β} {tr : List (Event Ans)} {b : β} {m' : M} (h : p.Wp I Q m)
    (hy : p.Yields tr b) (hm : I.Runs m tr m') : Q b m' :=
  h.reaches hy hm

end Wp
end Prog
end Interact
