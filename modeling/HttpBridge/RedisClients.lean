/-
# What a Redis client does

The calls of `Redis.lean`, against everything that hiredis, the network and the
server can do in between.

* `lifetime_safe`: from its construction to its destructor an object touches
  nothing that it has freed, frees everything once, and sends its commands only
  over a connection that has logged in. At its end nothing is left.
* `call_effect`: a call has one moment at which its command is executed, if it
  is; it reports a success only if the server executed it without an error.

Key definitions: `Held`, `AtMostOnce`.
-/
import HttpBridge.Redis

namespace HttpBridge
namespace Redis

open Interact

variable {o : Options} {others : Server → Server → Prop} {α : Type}

/-! ### The heap of an object -/

/-- At most one object. -/
def only (x : Option (ℕ × α)) : ℕ → Option α := fun k => x.bind fun p => if k = p.1 then some p.2 else none

@[simp] theorem only_none : (only none : ℕ → Option α) = fun _ => none := rfl

@[simp] theorem only_self (k : ℕ) (a : α) : only (some (k, a)) k = some a := by simp [only]

theorem update_only (k : ℕ) (a b : α) : Function.update (only (some (k, a))) k (some b) = only (some (k, b)) := by
  funext k'
  by_cases h : k' = k
  · rw [h, Function.update_self, only_self]
  · rw [Function.update_of_ne h]
    simp [only, h]

theorem update_only_none (k : ℕ) (a : α) : Function.update (only none) k (some a) = only (some (k, a)) := by
  funext k'
  by_cases h : k' = k
  · rw [h, Function.update_self, only_self]
  · rw [Function.update_of_ne h]
    simp [only, h]

theorem free_only (k : ℕ) (a : α) : Function.update (only (some (k, a))) k none = only none := by
  funext k'
  by_cases h : k' = k
  · rw [h, Function.update_self]
    rfl
  · rw [Function.update_of_ne h]
    simp [only, h]

/-- A heap of one context and one reply at most. -/
def heap (ctx : Option (ℕ × Session)) (reply : Option (ℕ × RedisReply)) (s : Server) : Heap :=
  ⟨only ctx, only reply, s⟩

/-- What others do in the meantime. -/
abbrev Meanwhile (others : Server → Server → Prop) : Server → Server → Prop := Relation.ReflTransGen others

section Operations

variable {Q : α → Heap → Prop} {ctx r : ℕ} {session : Session} {reply : RedisReply}
  {rest : Option (ℕ × RedisReply)} {x : Option (ℕ × Session)} {s : Server}

theorem wp_err {f : Bool → Hiredis α}
    (h : ∀ s', Meanwhile others s s' → (f session.err).Wp (hiredis o others) Q (heap (some (ctx, session)) rest s')) :
    (err ctx >>= f).Wp (hiredis o others) Q (heap (some (ctx, session)) rest s) := by
  have hctx : (heap (some (ctx, session)) rest s).ctxs ctx = some session := only_self ctx session
  refine ⟨by simp [hiredis, Allowed, hctx], fun a m' ⟨s', hs, ha⟩ => ?_⟩
  cases ha with
  | err _ session' h' =>
    rw [hctx] at h'
    cases h'
    exact h s' hs

theorem wp_redisFree {f : Unit → Hiredis α}
    (h : ∀ s', Meanwhile others s s' → (f ()).Wp (hiredis o others) Q (heap none rest s')) :
    (redisFree ctx >>= f).Wp (hiredis o others) Q (heap (some (ctx, session)) rest s) := by
  have hctx : (heap (some (ctx, session)) rest s).ctxs ctx = some session := only_self ctx session
  refine ⟨by simp [hiredis, Allowed, hctx], fun a m' ⟨s', hs, ha⟩ => ?_⟩
  cases ha with
  | redisFree =>
    have hfreed := h s' hs
    unfold heap at hfreed ⊢
    rwa [free_only]

theorem wp_read {f : RedisReply → Hiredis α}
    (h : ∀ s', Meanwhile others s s' → (f reply).Wp (hiredis o others) Q (heap x (some (r, reply)) s')) :
    (read r >>= f).Wp (hiredis o others) Q (heap x (some (r, reply)) s) := by
  have hr : (heap x (some (r, reply)) s).replies r = some reply := only_self r reply
  refine ⟨by simp [hiredis, Allowed, hr], fun a m' ⟨s', hs, ha⟩ => ?_⟩
  cases ha with
  | read _ reply' h' =>
    rw [hr] at h'
    cases h'
    exact h s' hs

theorem wp_freeReplyObject {f : Unit → Hiredis α}
    (h : ∀ s', Meanwhile others s s' → (f ()).Wp (hiredis o others) Q (heap x none s')) :
    (freeReplyObject r >>= f).Wp (hiredis o others) Q (heap x (some (r, reply)) s) := by
  have hr : (heap x (some (r, reply)) s).replies r = some reply := only_self r reply
  refine ⟨by simp [hiredis, Allowed, hr], fun a m' ⟨s', hs, ha⟩ => ?_⟩
  cases ha with
  | freeReplyObject =>
    have hfreed := h s' hs
    unfold heap at hfreed ⊢
    rwa [free_only]

theorem wp_redisConnect {host : String} {port : ℤ} {f : Option ℕ → Hiredis α}
    (hnone : ∀ s', Meanwhile others s s' → (f none).Wp (hiredis o others) Q (heap none rest s'))
    (hsome : ∀ s' ctx bad, Meanwhile others s s' →
      (f (some ctx)).Wp (hiredis o others) Q (heap (some (ctx, { err := bad })) rest s')) :
    (redisConnect host port >>= f).Wp (hiredis o others) Q (heap none rest s) := by
  refine ⟨trivial, fun a m' ⟨s', hs, ha⟩ => ?_⟩
  cases ha with
  | noConnect => exact hnone s' hs
  | connect _ _ ctx bad =>
    have hmade := hsome s' ctx bad hs
    unfold heap at hmade ⊢
    rwa [update_only_none]

/-- A command: nothing comes back and the connection has failed, or a reply. -/
theorem wp_redisCommand {c : Command} {f : Option ℕ → Hiredis α} (hready : c.isData = true → session.Ready o)
    (hnone : ∀ s₁ s' session', Meanwhile others s s₁ → Transmits session c s₁ none s' →
      (f none).Wp (hiredis o others) Q (heap (some (ctx, session')) none s'))
    (hsome : ∀ s₁ s' r reply bad, Meanwhile others s s₁ → Transmits session c s₁ (some reply) s' →
      (f (some r)).Wp (hiredis o others) Q
        (heap (some (ctx, { (if reply = .error then session else session.after c) with err := bad }))
          (some (r, reply)) s')) :
    (redisCommand ctx c >>= f).Wp (hiredis o others) Q (heap (some (ctx, session)) none s) := by
  have hctx : (heap (some (ctx, session)) none s).ctxs ctx = some session := only_self ctx session
  refine ⟨⟨session, hctx, hready⟩, fun a m' ⟨s₁, hs, ha⟩ => ?_⟩
  cases ha with
  | noReply _ _ session₀ session' s' h' hsent =>
    rw [hctx] at h'
    cases h'
    have hlost := hnone s₁ s' session' hs hsent
    unfold heap at hlost ⊢
    rwa [update_only]
  | reply _ _ session₀ reply s' r bad h' hsent =>
    rw [hctx] at h'
    cases h'
    have hcome := hsome s₁ s' r reply bad hs hsent
    unfold heap at hcome ⊢
    rwa [update_only, update_only_none]

end Operations

/-! ### The connection -/

/-- What an object holds between two calls: at most one connection, which has
logged in, and no reply. -/
def Held (o : Options) (ctx : Option ℕ) (m : Heap) : Prop :=
  match ctx with
  | none => m = heap none none m.server
  | some ctx => ∃ session, m = heap (some (ctx, session)) none m.server ∧ session.Ready o

theorem held_none (s : Server) : Held o none (heap none none s) := rfl

theorem held_some {ctx : ℕ} {session : Session} (h : session.Ready o) (s : Server) :
    Held o (some ctx) (heap (some (ctx, session)) none s) := ⟨session, rfl, h⟩

/-- A login changes nothing in the server. -/
theorem Transmits.of_login {session : Session} {c : Command} {s s' : Server} {reply : Option RedisReply}
    (h : Transmits session c s reply s') (hc : c.isData = false) : s' = s := by
  have hexec : ∀ db, (s.exec db c).1 = s := by
    intro db
    cases c <;> first | rfl | cases hc
  cases h with
  | lost | refused => rfl
  | unanswered | answered => exact hexec _

/-- A command of the login: it is accepted, and has its effect on the session, or
not. -/
theorem accepted_wp {Q : Bool → Heap → Prop} {ctx : ℕ} {session : Session} {c : Command} {s : Server}
    (hc : c.isData = false)
    (hno : ∀ s' session', Meanwhile others s s' → Q false (heap (some (ctx, session')) none s'))
    (hyes : ∀ s' bad, Meanwhile others s s' →
      Q true (heap (some (ctx, { session.after c with err := bad })) none s')) :
    (accepted ctx c).Wp (hiredis o others) Q (heap (some (ctx, session)) none s) := by
  refine wp_redisCommand (fun h => absurd (hc.symm.trans h) Bool.false_ne_true) ?_ ?_
  · intro s₁ s' session' hs hsent
    rw [hsent.of_login hc]
    exact hno s₁ session' hs
  · intro s₁ s' r reply bad hs hsent
    rw [hsent.of_login hc]
    refine wp_read fun s₂ hs₂ => wp_freeReplyObject fun s₃ hs₃ => ?_
    have hmeanwhile : Meanwhile others s s₃ := (hs.trans hs₂).trans hs₃
    by_cases herror : reply = .error
    · simpa [herror] using hno s₃ _ hmeanwhile
    · simpa [herror] using hyes s₃ bad hmeanwhile

theorem drop_wp {Q : Option ℕ → Heap → Prop} {ctx : ℕ} {session : Session} {s : Server}
    (h : ∀ s', Meanwhile others s s' → Q none (heap none none s')) :
    (drop ctx).Wp (hiredis o others) Q (heap (some (ctx, session)) none s) :=
  wp_redisFree fun s' hs => h s' hs

/-- What `ensureConnectedLocked` and its parts leave. -/
def Connects (o : Options) (others : Server → Server → Prop) (s : Server) (ctx : Option ℕ) (m : Heap) : Prop :=
  Held o ctx m ∧ Meanwhile others s m.server

/-- After a stage of the login the session is what it was, if the stage is not
needed, or what the command makes of it. -/
theorem stage_wp {needed : Bool} {ctx : ℕ} {session : Session} {c : Command} {s : Server}
    (hc : c.isData = false) :
    (stage needed ctx c).Wp (hiredis o others)
      (fun ok m => ∃ session', m = heap (some (ctx, session')) none m.server ∧ Meanwhile others s m.server ∧
        (ok = true → if needed = true then ∃ bad, session' = { session.after c with err := bad }
          else session' = session))
      (heap (some (ctx, session)) none s) := by
  unfold stage
  refine .ite (fun hneeded => ?_) fun hneeded => ?_
  · refine accepted_wp hc (fun s' session' hs' => ⟨session', rfl, hs', nofun⟩) fun s' bad hs' => ?_
    exact ⟨_, rfl, hs', fun _ => by rw [if_pos hneeded]; exact ⟨bad, rfl⟩⟩
  · exact ⟨session, rfl, .refl, fun _ => by rw [if_neg hneeded]⟩

/-- After the login the connection is ready. -/
theorem logIn_wp {ctx : ℕ} {bad : Bool} {s₀ s : Server} (hs₀ : Meanwhile others s₀ s) :
    (logIn o ctx).Wp (hiredis o others) (Connects o others s₀)
      (heap (some (ctx, { err := bad })) none s) := by
  refine (stage_wp rfl).bind fun authenticated m ⟨session, hm, hs, hauth⟩ => ?_
  rw [hm]
  refine .ite (fun _ => ?_) fun hok => (stage_wp rfl).bind fun selected m' ⟨session', hm', hs', hsel⟩ => ?_
  · exact drop_wp fun s' hs' => ⟨held_none s', (hs₀.trans hs).trans hs'⟩
  rw [hm']
  refine .ite (fun _ => ?_) fun hok' => ?_
  · exact drop_wp fun s'' hs'' => ⟨held_none s'', ((hs₀.trans hs).trans hs').trans hs''⟩
  have hauthed : (o.password = "" ∨ session.authenticated = true) ∧ session.db = 0 := by
    have hstage := hauth (by simpa using hok)
    split_ifs at hstage with hpass
    · obtain ⟨bad', rfl⟩ := hstage
      exact ⟨.inr rfl, rfl⟩
    · rw [hstage]
      exact ⟨.inl (by simpa using hpass), rfl⟩
  have hready : session'.Ready o := by
    have hstage := hsel (by simpa using hok')
    split_ifs at hstage with hdb
    · obtain ⟨bad', rfl⟩ := hstage
      exact ⟨hauthed.1, rfl⟩
    · have hzero : o.db = 0 := by simpa using hdb
      rw [hstage]
      exact ⟨hauthed.1, hauthed.2.trans hzero.symm⟩
  exact ⟨held_some hready m'.server, (hs₀.trans hs).trans hs'⟩

theorem dial_wp {s₀ s : Server} (hs₀ : Meanwhile others s₀ s) :
    (dial o).Wp (hiredis o others) (Connects o others s₀) (heap none none s) := by
  refine wp_redisConnect (fun s' hs' => ⟨held_none s', hs₀.trans hs'⟩) fun s' ctx bad hs' => ?_
  refine wp_err fun s'' hs'' => .ite (fun _ => ?_) fun _ => ?_
  · exact drop_wp fun s₃ hs₃ => ⟨held_none s₃, ((hs₀.trans hs').trans hs'').trans hs₃⟩
  · exact logIn_wp ((hs₀.trans hs').trans hs'')

/-- **The connection that a call uses has logged in**, or there is none. -/
theorem ensureConnectedLocked_wp {ctx : Option ℕ} {m : Heap} (h : Held o ctx m) :
    (ensureConnectedLocked o ctx).Wp (hiredis o others) (Connects o others m.server) m := by
  cases ctx with
  | none =>
    rw [show m = heap none none m.server from h]
    exact dial_wp .refl
  | some ctx =>
    obtain ⟨session, hm, hready⟩ := h
    rw [hm]
    refine wp_err fun s hs => .ite (fun _ => ?_) fun _ => ?_
    · exact wp_redisFree fun s' hs' => dial_wp (hs.trans hs')
    · exact ⟨held_some hready s, hs⟩

/-! ### The calls -/

/-- A command with one moment: it has failed there, executed or not, or it was
executed and its reply, which is no error, is the answer. -/
def AtMostOnce (others : Server → Server → Prop) (db : ℤ) (c : Command) (failed : α) (answer : RedisReply → α)
    (s : Server) (a : α) (s' : Server) : Prop :=
  ∃ s₁ s₂, Meanwhile others s s₁ ∧ Meanwhile others s₂ s' ∧
    ((a = failed ∧ (s₂ = s₁ ∨ s₂ = (s₁.exec db c).1)) ∨
      (a = answer (s₁.exec db c).2 ∧ (s₁.exec db c).2 ≠ .error ∧ s₂ = (s₁.exec db c).1))

/-- What a call leaves and answers. -/
def Serves (o : Options) (others : Server → Server → Prop) (c : Command) (failed : α)
    (answer : RedisReply → α) (s : Server) (x : Option ℕ × α) (m : Heap) : Prop :=
  Held o x.1 m ∧ AtMostOnce others o.db c failed answer s x.2 m.server

section Serves

variable {c : Command} {failed : α} {answer : RedisReply → α} {s s₁ s₂ s₃ : Server}

/-- Without a connection nothing is done. -/
theorem serves_disconnected (hs : Meanwhile others s s₁) :
    Serves o others c failed answer s (none, failed) (heap none none s₁) :=
  ⟨held_none s₁, s₁, s₁, hs, .refl, .inl ⟨rfl, .inl rfl⟩⟩

/-- The server has sent the reply in answer to the command, which was sent over a
connection to the right database. -/
inductive Replied (o : Options) (others : Server → Server → Prop) (c : Command) (s : Server)
    (reply : Option RedisReply) (s' : Server) : Prop where
  | intro (session : Session) (s₁ : Server) (hdb : session.db = o.db) (hs : Meanwhile others s s₁)
      (hsent : Transmits session c s₁ reply s')

/-- A command whose reply is lost has failed, and so has one whose reply is not
taken for an answer. -/
theorem Replied.fails {reply : Option RedisReply} (h : Replied o others c s reply s₁)
    (hs : Meanwhile others s₁ s₂) : AtMostOnce others o.db c failed answer s failed s₂ := by
  obtain ⟨session, s₀, hdb, hs₀, hsent⟩ := h
  refine ⟨s₀, s₁, hs₀, hs, .inl ⟨rfl, ?_⟩⟩
  rw [← hdb]
  cases hsent with
  | lost | refused => exact .inl rfl
  | unanswered | answered => exact .inr rfl

/-- Any reply but an error is the server's. -/
theorem Replied.answers {reply : RedisReply} (h : Replied o others c s (some reply) s₁)
    (hreply : reply ≠ .error) (hs : Meanwhile others s₁ s₂) :
    AtMostOnce others o.db c failed answer s (answer reply) s₂ := by
  obtain ⟨session, s₀, hdb, hs₀, hsent⟩ := h
  refine ⟨s₀, s₁, hs₀, hs, .inr ?_⟩
  rw [← hdb]
  cases hsent with
  | refused => exact absurd rfl hreply
  | answered => exact ⟨rfl, hreply, rfl⟩

end Serves

section Calls

variable {ctx : Option ℕ} {m : Heap} {c : Command} {failed : α} {answer : RedisReply → α}

/-- A command does nothing to the login of the connection that it is sent over. -/
theorem ready_after {session : Session} (hready : session.Ready o) (hc : c.isData = true) (reply : RedisReply)
    (bad : Bool) :
    Session.Ready o { (if reply = .error then session else session.after c) with err := bad } := by
  have hafter : (if reply = .error then session else session.after c) = session := by
    split_ifs
    · rfl
    · cases c <;> first | rfl | cases hc
  rw [hafter]
  exact hready

/-- What all calls begin with: a connection, the command, and the end of both
without a reply. `got` is what is done with a reply. -/
theorem sent_wp {got : ℕ → ℕ → Hiredis (Option ℕ × α)} (hc : c.isData = true) (h : Held o ctx m)
    (hgot : ∀ ctx session r reply s, session.Ready o → Replied o others c m.server (some reply) s →
      (got ctx r).Wp (hiredis o others) (Serves o others c failed answer m.server)
        (heap (some (ctx, session)) (some (r, reply)) s)) :
    (do
      match ← ensureConnectedLocked o ctx with
      | none => return (none, failed)
      | some ctx =>
        match ← redisCommand ctx c with
        | none =>
          redisFree ctx
          return (none, failed)
        | some r => got ctx r : Hiredis (Option ℕ × α)).Wp (hiredis o others)
          (Serves o others c failed answer m.server) m := by
  refine (ensureConnectedLocked_wp h).bind fun ctx' m' ⟨hheld, hs⟩ => ?_
  cases ctx' with
  | none =>
    rw [show m' = heap none none m'.server from hheld]
    exact serves_disconnected hs
  | some ctx =>
    obtain ⟨session, hm', hready⟩ := hheld
    rw [hm']
    refine wp_redisCommand (fun _ => hready) ?_ ?_
    · intro s₁ s₂ session' hs₁ hsent
      have hlost : Replied o others c m.server none s₂ := ⟨session, s₁, hready.2, hs.trans hs₁, hsent⟩
      exact wp_redisFree fun s₃ hs₃ => ⟨held_none s₃, hlost.fails hs₃⟩
    · intro s₁ s₂ r reply bad hs₁ hsent
      exact hgot ctx _ r reply s₂ (ready_after hready hc reply bad) ⟨session, s₁, hready.2, hs.trans hs₁, hsent⟩

theorem write_wp (hc : c.isData = true) (h : Held o ctx m) :
    (write o ctx c).Wp (hiredis o others) (Serves o others c false (fun _ => true) m.server) m := by
  refine sent_wp hc h fun ctx session r reply s hready hreplied => ?_
  refine wp_err fun s₁ hs₁ => .ite (fun _ => ?_) fun _ => ?_
  · refine wp_freeReplyObject fun s₂ hs₂ => wp_redisFree fun s₃ hs₃ => ⟨held_none s₃, ?_⟩
    exact hreplied.fails ((hs₁.trans hs₂).trans hs₃)
  · refine wp_read fun s₂ hs₂ => wp_freeReplyObject fun s₃ hs₃ => ⟨held_some hready s₃, ?_⟩
    have hlater : Meanwhile others s s₃ := (hs₁.trans hs₂).trans hs₃
    show AtMostOnce others o.db c false (fun _ => true) m.server (decide (reply ≠ .error)) s₃
    by_cases herror : reply = .error
    · rw [decide_eq_false (not_not_intro herror)]
      exact hreplied.fails hlater
    · rw [decide_eq_true herror]
      exact hreplied.answers herror hlater

theorem ask_wp (hc : c.isData = true) (h : Held o ctx m) :
    (ask o ctx c failed answer).Wp (hiredis o others) (Serves o others c failed answer m.server) m := by
  refine sent_wp hc h fun ctx session r reply s hready hreplied => ?_
  refine wp_err fun s₁ hs₁ => .ite (fun _ => ?_) fun _ => ?_
  · refine wp_freeReplyObject fun s₂ hs₂ => wp_redisFree fun s₃ hs₃ => ⟨held_none s₃, ?_⟩
    exact hreplied.fails ((hs₁.trans hs₂).trans hs₃)
  · refine wp_read fun s₂ hs₂ => wp_freeReplyObject fun s₃ hs₃ => ?_
    have hlater : Meanwhile others s s₃ := (hs₁.trans hs₂).trans hs₃
    refine .ite (fun _ => ?_) fun herror => ⟨held_some hready s₃, hreplied.answers herror hlater⟩
    exact wp_redisFree fun s₄ hs₄ => ⟨held_none s₄, hreplied.fails (hlater.trans hs₄)⟩

theorem redisPing_wp {d : TokenDenylist.Options} (h : Held d.toOptions ctx m) :
    (TokenDenylist.redisPing d ctx).Wp (hiredis d.toOptions others)
      (Serves d.toOptions others .ping false (fun _ => true) m.server) m := by
  refine sent_wp rfl h fun ctx session r reply s hready hreplied => ?_
  refine wp_read fun s₁ hs₁ => wp_freeReplyObject fun s₂ hs₂ => ?_
  have hlater : Meanwhile others s s₂ := hs₁.trans hs₂
  refine .ite (fun _ => ?_) fun herror => ⟨held_some hready s₂, hreplied.answers herror hlater⟩
  exact wp_redisFree fun s₃ hs₃ => ⟨held_none s₃, hreplied.fails (hlater.trans hs₃)⟩

end Calls

/-! ### The objects -/

namespace Call

variable {n : Client} {D : Deployment} {ctx : Option ℕ} {m : Heap}

/-- The object is turned off: a call does nothing and says that it has. -/
def Inert (D : Deployment) : Call n → Prop
  | .add .. | .remove .. => D.sessions.enabled = false
  | _ => False

/-- What a call answers when it fails. -/
def failed : (call : Call n) → call.Ans
  | .redisLookup _ => .unknown
  | .add .. | .remove .. | .publish _ | .healthy | .redisStore .. | .redisPing => false

/-- What a call answers to a reply. -/
def answer : (call : Call n) → RedisReply → call.Ans
  | .redisLookup _ => TokenDenylist.verdict
  | .add .. | .remove .. | .publish _ | .healthy | .redisStore .. | .redisPing => fun _ => true

/-- What a call leaves and answers. -/
def Result (D : Deployment) (others : Server → Server → Prop) (call : Call n) (s : Server)
    (x : Option ℕ × call.Ans) (m : Heap) : Prop :=
  Held (D.options n) x.1 m ∧
    (call.Inert D ∧ x.2 = call.answer .status ∧ m.server = s ∨
      AtMostOnce others (D.options n).db (call.command D) call.failed call.answer s x.2 m.server)

theorem perform_wp (call : Call n) (h : Held (D.options n) ctx m) :
    (call.perform D ctx).Wp (hiredis (D.options n) others) (call.Result D others m.server) m := by
  have hserves : ∀ {p : Hiredis (Option ℕ × call.Ans)},
      p.Wp (hiredis (D.options n) others)
        (Serves (D.options n) others (call.command D) call.failed call.answer m.server) m →
      p.Wp (hiredis (D.options n) others) (call.Result D others m.server) m :=
    fun hp => hp.mono fun _ _ hx => ⟨hx.1, .inr hx.2⟩
  cases call with
  | add tenant uid member score =>
    refine .ite (fun hoff => ⟨h, .inl ⟨by simpa [Inert] using hoff, rfl, rfl⟩⟩) fun _ => ?_
    exact hserves (write_wp rfl h)
  | remove tenant uid member =>
    refine .ite (fun hoff => ⟨h, .inl ⟨by simpa [Inert] using hoff, rfl, rfl⟩⟩) fun _ => ?_
    exact hserves (write_wp rfl h)
  | publish payload => exact hserves (write_wp rfl h)
  | healthy => exact hserves (ask_wp rfl h)
  | redisLookup jti => exact hserves (ask_wp rfl h)
  | redisStore jti ttl => exact hserves (ask_wp rfl h)
  | redisPing => exact hserves (redisPing_wp h)

end Call

theorem lifetime_wp {n : Client} (D : Deployment) (calls : List (Call n)) (s : Server) :
    (lifetime D calls).Wp (hiredis (D.options n) others) (fun _ m => m = heap none none m.server)
      (heap none none s) := by
  unfold lifetime
  refine Prog.Wp.bind (Prog.Wp.foldlM (R := Held (D.options n)) ?round calls (held_none s)) fun ctx m h => ?_
  case round =>
    intro ctx call m h
    exact (call.perform_wp h).bind fun x m' hx => hx.1
  cases ctx with
  | none => exact h
  | some ctx =>
    obtain ⟨session, hm, -⟩ := h
    rw [hm]
    exact wp_redisFree fun _ _ => rfl

/-- **Nothing is touched that is not there, and nothing is left behind.** Whatever
an object is called for and whatever it is answered, all that it does is allowed:
it reads and frees what it has and has not freed, and it sends its commands over
a connection that has logged in. At its end it has no connection and no reply. -/
theorem lifetime_safe {n : Client} (D : Deployment) (calls : List (Call n)) (s : Server)
    (others : Server → Server → Prop) {tr : List (Event HiredisOp.Ans)} {q : Hiredis Unit} {m : Heap}
    (hr : (lifetime D calls).Reaches tr q)
    (hm : (hiredis (D.options n) others).Runs (heap none none s) tr m) :
    (∀ op k, q = .call op k → Allowed (D.options n) m op) ∧
    (∀ u, q = .ret u → m.ctxs = (fun _ => none) ∧ m.replies = fun _ => none) := by
  have hrest := (lifetime_wp D calls s).reaches hr hm
  constructor
  · intro op k hq
    rw [hq] at hrest
    exact hrest.1
  · intro u hq
    rw [hq] at hrest
    have hempty : m = heap none none m.server := hrest
    rw [hempty]
    exact ⟨rfl, rfl⟩

/-- Without passwords, in the first database. -/
def plainDeployment : Deployment := ⟨{}, {}, {}⟩

/-- A token is revoked, and everything goes well. -/
def storeTrace : List (Event HiredisOp.Ans) :=
  [⟨.redisConnect "localhost" 6379, some 0⟩, ⟨.err 0, false⟩,
    ⟨.redisCommand 0 (.set "auth:revoked:t1" 60), some 0⟩, ⟨.err 0, false⟩, ⟨.read 0, RedisReply.status⟩,
    ⟨.freeReplyObject 0, ()⟩]

theorem storeTrace_safe : ∃ m : Heap, m.ctxs = (fun _ => none) ∧ m.replies = fun _ => none := by
  have hr : (lifetime plainDeployment [Call.redisStore "t1" 60]).Reaches
      (storeTrace ++ [⟨.redisFree 0, ()⟩]) (.ret ()) :=
    ⟨_, rfl, _, rfl, _, rfl, _, rfl, _, rfl, _, rfl, _, rfl, rfl⟩
  have hm : ∃ m, (hiredis (plainDeployment.options .denylist) fun _ _ => False).Runs (heap none none {})
      (storeTrace ++ [⟨.redisFree 0, ()⟩]) m :=
    ⟨_, _, ⟨_, .refl, .connect _ _ 0 false rfl⟩, _, ⟨_, .refl, .err 0 {} rfl⟩, _,
      ⟨_, .refl, .reply 0 _ {} .status _ 0 false rfl .answered rfl⟩, _, ⟨_, .refl, .err 0 {} rfl⟩, _,
      ⟨_, .refl, .read 0 .status rfl⟩, _, ⟨_, .refl, .freeReplyObject 0⟩, _, ⟨_, .refl, .redisFree 0⟩, rfl⟩
  obtain ⟨m, hm⟩ := hm
  exact ⟨m, (lifetime_safe plainDeployment [Call.redisStore "t1" 60] {} _ hr hm).2 () rfl⟩

/-- **A call takes effect once at most.** It has one moment at which the server
executes its command, if it does; and it answers what the server replied to it,
or that it has failed, in which case the command may have been executed. Only a
registry that is turned off says that it has done what it has not. -/
theorem call_effect {n : Client} {D : Deployment} {others : Server → Server → Prop} (call : Call n)
    {ctx ctx' : Option ℕ} {a : call.Ans} {tr : List (Event HiredisOp.Ans)} {m m' : Heap}
    (h : Held (D.options n) ctx m) (hy : (call.perform D ctx).Yields tr (ctx', a))
    (hm : (hiredis (D.options n) others).Runs m tr m') :
    Held (D.options n) ctx' m' ∧
      (call.Inert D ∧ a = call.answer .status ∧ m'.server = m.server ∨
        AtMostOnce others (D.options n).db (call.command D) call.failed call.answer m.server a m'.server) :=
  (call.perform_wp h).yields hy hm

theorem storeTrace_effect : ∃ m : Heap, Held {} (some 0) m ∧
    AtMostOnce (fun _ _ => False) 0 (.set "auth:revoked:t1" 60) false (fun _ => true) {} true m.server := by
  have hy : ((Call.redisStore "t1" 60).perform plainDeployment none).Yields storeTrace (some 0, true) :=
    ⟨_, rfl, _, rfl, _, rfl, _, rfl, _, rfl, _, rfl, rfl⟩
  have hm : ∃ m, (hiredis (plainDeployment.options .denylist) fun _ _ => False).Runs (heap none none {})
      storeTrace m :=
    ⟨_, _, ⟨_, .refl, .connect _ _ 0 false rfl⟩, _, ⟨_, .refl, .err 0 {} rfl⟩, _,
      ⟨_, .refl, .reply 0 _ {} .status _ 0 false rfl .answered rfl⟩, _, ⟨_, .refl, .err 0 {} rfl⟩, _,
      ⟨_, .refl, .read 0 .status rfl⟩, _, ⟨_, .refl, .freeReplyObject 0⟩, rfl⟩
  obtain ⟨m, hm⟩ := hm
  obtain ⟨hheld, heffect⟩ := call_effect (D := plainDeployment) (.redisStore "t1" 60) (held_none {}) hy hm
  exact ⟨m, hheld, heffect.resolve_left fun h => h.1⟩

end Redis
end HttpBridge
