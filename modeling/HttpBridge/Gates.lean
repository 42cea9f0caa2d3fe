/-
# The gates of a request

What the handlers ask before they serve: the audit trail (`emitAuth`), the
state of the tenant (`tenantAdmits`, cached for a short time) and whether a
second factor is required (`mfaRequired`, `tenantRequires2fa`).

A handler is put together from plain operations, which only ask the outside,
and from gates, which read or change what the process shares: the verdict
cache and the revocation store, the tenant states, the replay guards; or come
out at the register of live sessions, at the enrollment of a second factor and
at the core. `Within` says which gates
a handler can pass through at all.

Key definitions: `tenantAdmits`, `Admitted`, `Gate`, `Within`.
Key theorems: `tenantAdmits_yields`, `Within.calls`, `Within.every`, `Within.asks`.
-/
import HttpBridge.TokenDenylist

namespace HttpBridge

open Interact

/-- `AuditPublisher::emitAuth`: an audit that is turned off records all. -/
def emitAuth (cfg : Config) (action outcome actor tenant sourceAddr : String) : Bridge Bool :=
  if cfg.auditEnabled then perform (.publish ⟨action, outcome, actor, tenant, sourceAddr⟩)
  else return true

/-- Unless no audit is kept, the sink accepted in the course of `T` that
something of the actor went well. -/
def Recorded (cfg : Config) (T : Trace) (actor : String) : Prop :=
  cfg.auditEnabled = true → ∃ e : AuthEvent, ⟨.publish e, true⟩ ∈ T ∧ e.outcome = "ok" ∧ e.actor = actor

/-- Where an audit is required, what comes after it was recorded. -/
theorem recorded_during {cfg : Config} {T : Trace} {action actor tenant sourceAddr : String}
    {α : Type} {p q : Bridge α} {Q : α → Prop} (hq : q.During T Q)
    (hp : Recorded cfg T actor → p.During T Q) :
    (do let recorded ← emitAuth cfg action "ok" actor tenant sourceAddr
        if !recorded then q else p).During T Q := by
  refine .bind fun tr recorded htr hr => .ite (fun _ => hq) fun hok => hp fun ha => ?_
  obtain rfl : recorded = true := by simpa using hok
  rw [emitAuth, if_pos ha, perform, Prog.perform_yields] at hr
  exact ⟨_, htr.subset (by rw [hr]; exact .head _), rfl, rfl⟩

/-! ### The state of a tenant -/

structure Admission where
  admits : Bool
  code : String
  reason : String
  deriving DecidableEq

/-- The state in a reply of the registry; `false` where it could not be
determined. -/
def stateOf : Option TenantStateReply → String × Bool
  | some rs => if rs.success && rs.found then (rs.state, true) else ("", false)
  | none => ("", false)

def admissionOf (reply : Option TenantStateReply) : Admission where
  admits := admitsOrRefusesUnknown (stateOf reply).1 (stateOf reply).2
  code := refusalCode (stateOf reply).1 (stateOf reply).2
  reason := refusalReason (stateOf reply).1 (stateOf reply).2

/-- How the cache keeps an answer: a refusal shorter than an admission. -/
def tenantEntry (now : ℤ) (v : Admission) : TenantEntry where
  until_ := now + if v.admits then 60 else 10
  admits := v.admits
  code := v.code
  reason := v.reason

/-- `tenantAdmits`. -/
def tenantAdmits (tenant : String) : Bridge Admission := do
  if tenant == "" then return ⟨false, "tenant_state_unknown", refusalReason "" false⟩
  let now ← perform .time
  let cached ← perform (.tenantFind tenant)
  match cached.filter fun e => now < e.until_ with
  | some e => return ⟨e.admits, e.code, e.reason⟩
  | none =>
    let reply ← perform (.getTenantState tenant)
    let _ ← perform (.tenantPut tenant (tenantEntry now (admissionOf reply)))
    return admissionOf reply

section Kept
variable {α : Type} {until_ : α → ℤ} {cached : Option α} {now : ℤ}

/-- A kept answer is used before its time is up. -/
theorem kept_eq_some {e : α} : (cached.filter fun e => decide (now < until_ e)) = some e ↔
    cached = some e ∧ now < until_ e := by
  rw [Option.filter_eq_some_iff, decide_eq_true_eq]

/-- Otherwise it is as if none were kept. -/
theorem kept_eq_none : (cached.filter fun e => decide (now < until_ e)) = none ↔
    ∀ e, cached = some e → until_ e ≤ now := by
  simp only [Option.filter_eq_none_iff, decide_eq_true_eq, not_lt]

end Kept

/-- **The traces of the tenant gate.** -/
theorem tenantAdmits_yields {tenant : String} {tr : Trace} {v : Admission} :
    (tenantAdmits tenant).Yields tr v ↔
      (tenant = "" ∧ tr = [] ∧ v = ⟨false, "tenant_state_unknown", refusalReason "" false⟩) ∨
      tenant ≠ "" ∧ ∃ now cached,
        (∃ e, cached = some e ∧ now < e.until_ ∧
          tr = [⟨.time, now⟩, ⟨.tenantFind tenant, cached⟩] ∧ v = ⟨e.admits, e.code, e.reason⟩) ∨
        (∃ reply, (∀ e, cached = some e → e.until_ ≤ now) ∧
          tr = [⟨.time, now⟩, ⟨.tenantFind tenant, cached⟩, ⟨.getTenantState tenant, reply⟩,
            ⟨.tenantPut tenant (tenantEntry now (admissionOf reply)), ()⟩] ∧
          v = admissionOf reply) := by
  unfold tenantAdmits
  by_cases ht : tenant = ""
  · simp [ht]
  · simp only [beq_iff_eq, ht, if_false, perform, Prog.yields_perform_bind, false_and, false_or,
      ne_eq, not_false_eq_true, true_and]
    constructor
    · rintro ⟨now, _, rfl, cached, _, rfl, h⟩
      refine ⟨now, cached, ?_⟩
      cases hc : cached.filter fun e => decide (now < e.until_) with
      | some e =>
        obtain ⟨rfl, hn⟩ := kept_eq_some.mp hc
        simp only [hc, Prog.pure_eq_ret, Prog.ret_yields] at h
        obtain ⟨rfl, rfl⟩ := h
        exact .inl ⟨e, rfl, hn, rfl, rfl⟩
      | none =>
        simp only [hc, Prog.yields_perform_bind, Prog.pure_eq_ret, Prog.ret_yields] at h
        obtain ⟨reply, _, rfl, _, _, rfl, rfl, rfl⟩ := h
        exact .inr ⟨reply, kept_eq_none.mp hc, rfl, rfl⟩
    · rintro ⟨now, cached, ⟨e, rfl, hn, rfl, rfl⟩ | ⟨reply, hstale, rfl, rfl⟩⟩
      · refine ⟨now, _, rfl, some e, _, rfl, ?_⟩
        rw [kept_eq_some.mpr ⟨rfl, hn⟩]
        simp
      · refine ⟨now, _, rfl, cached, _, rfl, ?_⟩
        rw [kept_eq_none.mpr hstale]
        simp [Prog.yields_perform_bind]

/-- The gate of the tenant was passed in the course of `T`. -/
def Admitted (tenant : String) (T : Trace) : Prop :=
  ∃ tr v, tr <:+: T ∧ (tenantAdmits tenant).Yields tr v ∧ v.admits = true

theorem Admitted.mono {tenant : String} {T T' : Trace} (h : Admitted tenant T) (hT : T <:+: T') :
    Admitted tenant T' := by
  obtain ⟨tr, v, htr, hv⟩ := h
  exact ⟨tr, v, htr.trans hT, hv⟩

/-- A tenant that was admitted was looked for under its name. -/
theorem Admitted.asked {tenant : String} {T : Trace} (h : Admitted tenant T) :
    ∃ cached, ⟨.tenantFind tenant, cached⟩ ∈ T := by
  obtain ⟨tr, v, htr, hv, ha⟩ := h
  rcases tenantAdmits_yields.mp hv with ⟨-, -, rfl⟩ | ⟨-, now, cached, ⟨e, -, -, rfl, -⟩ |
    ⟨reply, -, rfl, -⟩⟩
  · cases ha
  · exact ⟨cached, htr.subset (by simp)⟩
  · exact ⟨cached, htr.subset (by simp)⟩

/-- No tenant without a name is admitted. -/
theorem Admitted.ne_empty {tenant : String} {T : Trace} (h : Admitted tenant T) : tenant ≠ "" := by
  obtain ⟨tr, v, -, hv, ha⟩ := h
  rcases tenantAdmits_yields.mp hv with ⟨-, -, rfl⟩ | ⟨hne, -⟩
  · cases ha
  · exact hne

/-! ### The second factor -/

/-- What `ldap_manager` said about a user's second factor. -/
structure MfaAnswer where
  required : Bool
  mustEnroll : Bool
  methods : List String
  tenantRequires : Bool
  deriving DecidableEq

/-- A clean 200, with the defaults of what it leaves out. -/
def readMfaRequired (r : HttpResult RequiredBody) : Option MfaAnswer :=
  if !r.ok || r.status ≠ 200 then none
  else r.body.map fun o =>
    { required := o.required.getD true
      mustEnroll := o.mustEnroll.getD false
      methods := o.methods.getD []
      tenantRequires := o.tenantRequires.getD (o.required.getD true) }

/-- `mfaRequired`. -/
def mfaRequired (user tenant : String) : Bridge (Option MfaAnswer) := do
  let r ← perform (.postMfaRequired user tenant)
  return readMfaRequired r

theorem mfaRequired_yields {user tenant : String} {tr : Trace} {answer : Option MfaAnswer} :
    (mfaRequired user tenant).Yields tr answer ↔
      ∃ r, tr = [⟨.postMfaRequired user tenant, r⟩] ∧ answer = readMfaRequired r := by
  simp [mfaRequired, perform, Prog.yields_perform_bind]

/-- `tenantRequires2fa`: closed where no answer is to be had. -/
def tenantRequires2fa (user tenant : String) : Bridge Bool := do
  let now ← perform .time
  let cached ← perform (.requiresFind tenant)
  match cached.filter fun e => now < e.2 with
  | some e => return e.1
  | none =>
    let answer ← mfaRequired user tenant
    let required := (answer.map (·.tenantRequires)).getD true
    let _ ← perform (.requiresPut tenant required (now + 30))
    return required

/-- **The traces of the question whether a tenant requires a second factor.** -/
theorem tenantRequires2fa_yields {user tenant : String} {tr : Trace} {v : Bool} :
    (tenantRequires2fa user tenant).Yields tr v ↔
      ∃ now cached,
        (∃ e, cached = some e ∧ now < e.2 ∧
          tr = [⟨.time, now⟩, ⟨.requiresFind tenant, cached⟩] ∧ v = e.1) ∨
        (∃ r, (∀ e, cached = some e → e.2 ≤ now) ∧
          v = ((readMfaRequired r).map (·.tenantRequires)).getD true ∧
          tr = [⟨.time, now⟩, ⟨.requiresFind tenant, cached⟩, ⟨.postMfaRequired user tenant, r⟩,
            ⟨.requiresPut tenant v (now + 30), ()⟩]) := by
  have hask : ∀ now, (do
        let answer ← mfaRequired user tenant
        let required := (answer.map (·.tenantRequires)).getD true
        let _ ← perform (.requiresPut tenant required (now + 30))
        return required) =
      (perform (.postMfaRequired user tenant) >>= fun r =>
        perform (.requiresPut tenant (((readMfaRequired r).map (·.tenantRequires)).getD true)
          (now + 30)) >>= fun _ => pure (((readMfaRequired r).map (·.tenantRequires)).getD true)) :=
    fun now => rfl
  unfold tenantRequires2fa
  simp only [hask]
  simp only [perform, Prog.yields_perform_bind]
  constructor
  · rintro ⟨now, _, rfl, cached, _, rfl, h⟩
    refine ⟨now, cached, ?_⟩
    cases hc : cached.filter fun e => decide (now < e.2) with
    | some e =>
      obtain ⟨rfl, hn⟩ := kept_eq_some.mp hc
      simp only [hc, Prog.pure_eq_ret, Prog.ret_yields] at h
      obtain ⟨rfl, rfl⟩ := h
      exact .inl ⟨e, rfl, hn, rfl, rfl⟩
    | none =>
      simp only [hc, Prog.yields_perform_bind, Prog.pure_eq_ret, Prog.ret_yields] at h
      obtain ⟨r, _, rfl, _, _, rfl, rfl, rfl⟩ := h
      exact .inr ⟨r, kept_eq_none.mp hc, rfl, rfl⟩
  · rintro ⟨now, cached, ⟨e, rfl, hn, rfl, rfl⟩ | ⟨r, hstale, rfl, rfl⟩⟩
    · refine ⟨now, _, rfl, some e, _, rfl, ?_⟩
      rw [kept_eq_some.mpr ⟨rfl, hn⟩]
      simp
    · refine ⟨now, _, rfl, cached, _, rfl, ?_⟩
      rw [kept_eq_none.mpr hstale]
      simp [Prog.yields_perform_bind]

/-! ### What a handler can pass through -/

/-- Who a call to the core is made as. -/
def Op.core? : Op → Option AuthContext
  | .grpcStat _ auth => some auth
  | .grpcCall auth => some auth
  | _ => none

/-- A step of an enrollment that is forwarded to `ldap_manager`. -/
def Op.enrolls : Op → Bool
  | .postMfaEnrollBegin .. | .postMfaEnrollComplete .. => true
  | _ => false

/-- An operation that comes out at the register of live sessions, at the
enrollment of a second factor or at the core. -/
def Op.outward : Op → Bool
  | .sessionAdd .. => true
  | .postMfaEnrollBegin .. | .postMfaEnrollComplete .. => true
  | .grpcStat .. | .grpcCall .. => true
  | _ => false

/-- An operation that neither reads nor changes what the gates rest on, nor
comes out at one. -/
def Op.plain : Op → Bool
  | .denylistFind _ | .denylistLookup _ | .denylistPut .. | .denylistStore .. | .denylistSeed .. =>
    false
  | .tenantFind _ | .getTenantState _ | .tenantPut .. => false
  | .replayAccept .. => false
  | .sessionAdd .. => false
  | .postMfaEnrollBegin .. | .postMfaEnrollComplete .. => false
  | .grpcStat .. | .grpcCall .. => false
  | _ => true

/-- An operation on the cache of the tenants' second-factor mandates. -/
def Op.switches : Op → Bool
  | .requiresFind _ | .requiresPut .. => true
  | _ => false

inductive Gate where
  | check (jti : String)
  | revoke (jti : String) (ttlSeconds : ℤ)
  | admits (tenant : String)
  | replay (guard : GuardName) (jti : String) (expiresAt now : ℤ)
  | call (op : Op)

/-- The gates before an identity. -/
def Gate.authenticates : Gate → Prop
  | .check _ | .admits _ => True
  | _ => False

/-- The gate to the register of live sessions. -/
def Gate.registers : Gate → Prop
  | .call (.sessionAdd ..) => True
  | _ => False

/-- The gate to the enrollment of a second factor. -/
def Gate.enrolls : Gate → Prop
  | .call op => op.enrolls = true
  | _ => False

/-- The gate to the core. -/
def Gate.dispatches : Gate → Prop
  | .call op => op.core?.isSome = true
  | _ => False

/-- A plain operation, the question whether a tenant requires a second factor, or
a gate in `G`. -/
inductive Part (cfg : Config) (G : Gate → Prop) : (α : Type) → Bridge α → Prop
  | plain {op : Op} (h : op.plain = true) (hswitch : op.switches = false) :
      Part cfg G op.Ans (perform op)
  | switch {user tenant : String} : Part cfg G Bool (tenantRequires2fa user tenant)
  | check {jti : String} (h : G (.check jti)) :
      Part cfg G Revocation (TokenDenylist.check cfg.denylist jti)
  | revoke {jti : String} {ttl : ℤ} (h : G (.revoke jti ttl)) :
      Part cfg G Bool (TokenDenylist.revoke cfg.denylist jti ttl)
  | admits {tenant : String} (h : G (.admits tenant)) : Part cfg G Admission (tenantAdmits tenant)
  | replay {g : GuardName} {jti : String} {expiresAt now : ℤ}
      (h : G (.replay g jti expiresAt now)) :
      Part cfg G Bool (perform (.replayAccept g jti expiresAt now))
  | call {op : Op} (hop : op.outward = true) (h : G (.call op)) : Part cfg G op.Ans (perform op)

theorem tenantRequires2fa_calls {user tenant : String} :
    (tenantRequires2fa user tenant).Calls fun op => op.plain = true := by
  unfold tenantRequires2fa mfaRequired
  simp only [perform, Prog.calls_perform_bind]
  refine ⟨rfl, fun now => ⟨rfl, fun cached => ?_⟩⟩
  split
  · trivial
  · exact ⟨rfl, fun _ => ⟨rfl, fun _ => trivial⟩⟩

/-- `p` is put together from plain operations and the gates in `G`. -/
def Within (cfg : Config) (G : Gate → Prop) {α : Type} (p : Bridge α) : Prop :=
  Prog.Assembled (Part cfg G) α p

namespace Within

variable {cfg : Config} {G G' : Gate → Prop} {α β : Type} {p : Bridge α}

theorem ret {a : α} : Within cfg G (pure a : Bridge α) := Prog.Assembled.ret a

theorem bind {f : α → Bridge β} (hp : Within cfg G p) (hf : ∀ a, Within cfg G (f a)) :
    Within cfg G (p >>= f) := Prog.Assembled.bind hp hf

theorem ite {c : Prop} [Decidable c] {q : Bridge α} (hp : Within cfg G p) (hq : Within cfg G q) :
    Within cfg G (if c then p else q) := by
  split <;> assumption

theorem mono (hG : ∀ g, G g → G' g) (h : Within cfg G p) : Within cfg G' p := by
  refine Prog.Assembled.mono (fun α p hp => ?_) h
  cases hp with
  | plain h hswitch => exact .plain h hswitch
  | switch => exact .switch
  | check h => exact .check (hG _ h)
  | revoke h => exact .revoke (hG _ h)
  | admits h => exact .admits (hG _ h)
  | replay h => exact .replay (hG _ h)
  | call hop h => exact .call hop (hG _ h)

theorem plain {op : Op} (h : (op.plain && !op.switches) = true) : Within cfg G (perform op) := by
  rw [Bool.and_eq_true, Bool.not_eq_true'] at h
  exact Prog.Assembled.part (.plain h.1 h.2)

theorem permits {jti : String} (h : G (.check jti)) :
    Within cfg G (TokenDenylist.permits cfg.denylist jti) :=
  bind (Prog.Assembled.part (.check h)) fun _ => ret

theorem admits {tenant : String} (h : G (.admits tenant)) : Within cfg G (tenantAdmits tenant) :=
  Prog.Assembled.part (.admits h)

theorem revoke {jti : String} {ttl : ℤ} (h : G (.revoke jti ttl)) :
    Within cfg G (TokenDenylist.revoke cfg.denylist jti ttl) :=
  Prog.Assembled.part (.revoke h)

theorem replay {g : GuardName} {jti : String} {expiresAt now : ℤ}
    (h : G (.replay g jti expiresAt now)) :
    Within cfg G (perform (.replayAccept g jti expiresAt now)) :=
  Prog.Assembled.part (.replay h)

theorem call {op : Op} (hop : op.outward = true) (h : G (.call op)) : Within cfg G (perform op) :=
  Prog.Assembled.part (.call hop h)

/-- What can be called: plain operations, and those of the gates passed. -/
theorem calls {P : Op → Prop} (h : Within cfg G p) (hplain : ∀ op : Op, op.plain = true → P op)
    (hcheck : ∀ jti, G (.check jti) → (TokenDenylist.check cfg.denylist jti).Calls P)
    (hrevoke : ∀ jti ttl, G (.revoke jti ttl) → (TokenDenylist.revoke cfg.denylist jti ttl).Calls P)
    (hadmits : ∀ tenant, G (.admits tenant) → (tenantAdmits tenant).Calls P)
    (hreplay : ∀ g jti expiresAt now, G (.replay g jti expiresAt now) →
      P (.replayAccept g jti expiresAt now))
    (hcall : ∀ op : Op, op.outward = true → G (.call op) → P op) : p.Calls P := by
  refine Prog.Assembled.calls (fun α p hp => ?_) h
  cases hp with
  | plain h => exact (Prog.calls_perform P _).mpr (hplain _ h)
  | switch => exact tenantRequires2fa_calls.mono hplain
  | check h => exact hcheck _ h
  | revoke h => exact hrevoke _ _ h
  | admits h => exact hadmits _ h
  | replay h => exact (Prog.calls_perform P _).mpr (hreplay _ _ _ _ h)
  | call hop h => exact (Prog.calls_perform P _).mpr (hcall _ hop h)

theorem every {Φ : Trace → Op → Prop} (h : Within cfg G p)
    (hΦ : ∀ tr₀ tr op, Φ tr op → Φ (tr₀ ++ tr) op)
    (hplain : ∀ (op : Op) tr, op.plain = true → Φ tr op)
    (hcheck : ∀ jti, G (.check jti) → (TokenDenylist.check cfg.denylist jti).Every Φ)
    (hrevoke : ∀ jti ttl, G (.revoke jti ttl) → (TokenDenylist.revoke cfg.denylist jti ttl).Every Φ)
    (hadmits : ∀ tenant, G (.admits tenant) → (tenantAdmits tenant).Every Φ)
    (hreplay : ∀ g jti expiresAt now tr, G (.replay g jti expiresAt now) →
      Φ tr (.replayAccept g jti expiresAt now))
    (hcall : ∀ (op : Op) tr, op.outward = true → G (.call op) → Φ tr op) : p.Every Φ := by
  have hone : ∀ op : Op, (∀ tr, Φ tr op) → (perform op).Every Φ := fun op h =>
    ((Prog.calls_perform (· = op) op).mpr rfl).every fun tr op' he => he ▸ h tr
  refine Prog.Assembled.every hΦ (fun α p hp => ?_) h
  cases hp with
  | plain h => exact hone _ fun tr => hplain _ tr h
  | switch => exact tenantRequires2fa_calls.every fun tr op => hplain op tr
  | check h => exact hcheck _ h
  | revoke h => exact hrevoke _ _ h
  | admits h => exact hadmits _ h
  | replay h => exact hone _ fun tr => hreplay _ _ _ _ tr h
  | call hop h => exact hone _ fun tr => hcall _ tr hop h

theorem emitAuth {action outcome actor tenant sourceAddr : String} :
    Within cfg G (HttpBridge.emitAuth cfg action outcome actor tenant sourceAddr) := by
  unfold HttpBridge.emitAuth
  split
  · exact plain rfl
  · exact ret

theorem mfaRequired {user tenant : String} : Within cfg G (HttpBridge.mfaRequired user tenant) :=
  bind (plain rfl) fun _ => ret

theorem tenantRequires2fa {user tenant : String} :
    Within cfg G (HttpBridge.tenantRequires2fa user tenant) :=
  Prog.Assembled.part .switch

end Within

/-- The gate asks about its own tenant only. -/
theorem tenantAdmits_calls {tenant : String} {P : Op → Prop} (htime : P .time)
    (hfind : P (.tenantFind tenant)) (hget : P (.getTenantState tenant))
    (hput : ∀ e, P (.tenantPut tenant e)) : (tenantAdmits tenant).Calls P := by
  unfold tenantAdmits
  split_ifs
  · trivial
  · simp only [perform, Prog.calls_perform_bind]
    refine ⟨htime, fun now => ⟨hfind, fun cached => ?_⟩⟩
    split
    · trivial
    · exact ⟨hget, fun reply => ⟨hput _, fun _ => trivial⟩⟩

/-- What holds of every operation but those on the cache of the mandates, and of
these whenever the question is put, holds throughout. -/
theorem Within.every_of_switch {cfg : Config} {G : Gate → Prop} {α : Type} {p : Bridge α}
    {Φ : Trace → Op → Prop} (h : Within cfg G p) (hΦ : ∀ tr₀ tr op, Φ tr op → Φ (tr₀ ++ tr) op)
    (hrest : ∀ (op : Op) tr, op.switches = false → Φ tr op)
    (hswitch : ∀ user tenant, (HttpBridge.tenantRequires2fa user tenant).Every Φ) : p.Every Φ := by
  have hone : ∀ op : Op, op.switches = false → (perform op).Every Φ := fun op h =>
    ((Prog.calls_perform (· = op) op).mpr rfl).every fun tr op' he => he ▸ hrest op tr h
  refine Prog.Assembled.every hΦ (fun α p hp => ?_) h
  cases hp with
  | plain _ h => exact hone _ h
  | switch => exact hswitch _ _
  | check =>
    refine TokenDenylist.check_calls.every fun tr op hop => hrest op tr ?_
    rcases hop with rfl | rfl | rfl | ⟨_, _, rfl⟩ <;> rfl
  | revoke =>
    refine TokenDenylist.revoke_calls.every fun tr op hop => hrest op tr ?_
    rcases hop with ⟨rfl, -⟩ | rfl | ⟨_, rfl⟩ <;> rfl
  | admits =>
    exact (tenantAdmits_calls (P := fun op => op.switches = false) rfl rfl rfl fun _ => rfl).every
      fun tr op hop => hrest op tr hop
  | replay => exact hone _ rfl
  | @call op hop _ =>
    refine hone op ?_
    cases op with
    | requiresFind | requiresPut => cases hop
    | _ => rfl

/-- What comes out at a gate that cannot be passed is never called. -/
theorem Within.calls_not {cfg : Config} {G : Gate → Prop} {α : Type} {p : Bridge α} {P : Op → Prop}
    (h : Within cfg G p) (houtward : ∀ op, P op → op.outward = true)
    (hG : ∀ op, G (.call op) → ¬ P op) : p.Calls fun op => ¬ P op := by
  have hinward : ∀ op : Op, op.outward = false → ¬ P op := fun op hop hP => by
    rw [houtward op hP] at hop
    cases hop
  refine h.calls (fun op hop => hinward op ?_) (fun jti _ => ?_) (fun jti ttl _ => ?_) (fun t _ => ?_)
    (fun _ _ _ _ _ => hinward _ rfl) fun op _ hg => hG op hg
  · cases op with
    | sessionAdd | postMfaEnrollBegin | postMfaEnrollComplete | grpcStat | grpcCall => cases hop
    | _ => rfl
  · refine TokenDenylist.check_calls.mono fun op hop => hinward op ?_
    rcases hop with rfl | rfl | rfl | ⟨_, _, rfl⟩ <;> rfl
  · refine TokenDenylist.revoke_calls.mono fun op hop => hinward op ?_
    rcases hop with ⟨rfl, -⟩ | rfl | ⟨_, rfl⟩ <;> rfl
  · exact tenantAdmits_calls (hinward _ rfl) (hinward _ rfl) (hinward _ rfl) fun _ => hinward _ rfl

/-- Only the gate of a tenant asks about it. -/
theorem Within.asks {cfg : Config} {G : Gate → Prop} {α : Type} {p : Bridge α} {tr : Trace} {a : α}
    {tenant : String} {o : Option TenantEntry} (h : Within cfg G p) (hy : p.Yields tr a)
    (he : ⟨.tenantFind tenant, o⟩ ∈ tr) : G (.admits tenant) := by
  have hcalls : p.Calls fun op => ∀ t, op = .tenantFind t → G (.admits t) := by
    refine h.calls ?_ (fun jti _ => ?_) (fun jti ttl _ => ?_) (fun t ht => ?_)
      (fun _ _ _ _ _ => nofun) ?_
    · rintro op hop t rfl
      cases hop
    · refine TokenDenylist.check_calls.mono fun op hop t => ?_
      rintro rfl
      simp at hop
    · refine TokenDenylist.revoke_calls.mono fun op hop t => ?_
      rintro rfl
      simp at hop
    · refine tenantAdmits_calls nofun (fun t' he => ?_) nofun fun _ => nofun
      cases he
      exact ht
    · rintro op hop - t rfl
      cases hop
  exact (hcalls.of_reaches hy).1 _ he tenant rfl

end HttpBridge
