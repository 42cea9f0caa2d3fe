/-
# How stale a missing mandate can be

Whether a tenant requires a second factor is `ldap_manager`'s to say. A bearer
request of a session that has none asks when it becomes active in a tenant
(`tenantRequires2fa`), and the answer is remembered for thirty seconds from the
clock read before the question, by all the requests of an instance. A reply
that failed or cannot be parsed counts as a requirement.

So a session without a second factor is let into a tenant at the reading `n`
only on an answer to a question asked by its own instance after `n - 30` that
the tenant requires none, however the steps interleave
(`switch_relies_on_exemption`).

Key definitions: `requiresStamps`, `Switched`, `AskedExempt`.
Key theorems: `serve_requiresStamps`, `switch_relies_on_exemption`.
-/
import HttpBridge.GateStaleness

namespace HttpBridge

open Interact TokenDenylist

/-! ### The cache of the mandates -/

/-- `ldap_manager` answered, and the tenant requires no second factor. -/
def Exempting (r : HttpResult RequiredBody) : Prop :=
  ∃ a, readMfaRequired r = some a ∧ a.tenantRequires = false

/-- A question about the tenant was answered by an exemption. -/
def ExemptAnswer (tenant : String) (e : Event Op.Ans) : Prop :=
  ∃ user r, e = ⟨.postMfaRequired user tenant, r⟩ ∧ Exempting r

/-- No requirement is read off a reply only where the reply says so. -/
theorem exempting_of_not_required {r : HttpResult RequiredBody}
    (h : ((readMfaRequired r).map (·.tenantRequires)).getD true = false) : Exempting r := by
  cases hr : readMfaRequired r with
  | none =>
    rw [hr] at h
    cases h
  | some a =>
    rw [hr] at h
    exact ⟨a, hr, h⟩

/-- Where an entry of a cache of mandates comes from: it was there, or this
instance cached an answer. -/
theorem World.effect_requires {D : DenylistOptions} {w : World} {i i' : ℕ} {op : Op} {c : Weather}
    {tenant : String} {e : Bool × ℤ}
    (h : ((w.effect D i op c).requires i').lookup tenant = some e) :
    (w.requires i').lookup tenant = some e ∨ (i' = i ∧ op = .requiresPut tenant e.1 e.2) := by
  cases op with
  | requiresPut tenant' required until_ =>
    rcases lookup_update_insert h with h | ⟨hi, ht, he⟩
    · exact .inl h
    · exact .inr ⟨hi, by rw [ht, he]⟩
  | denylistStore jti ttl =>
    unfold effect at h
    dsimp only at h
    split_ifs at h <;> exact .inl h
  | _ => exact .inl h

/-- The caches of mandates as justified caches: an exemption is cached until
thirty seconds after the clock read before the question. -/
def requiresStamps (D : DenylistOptions) (inst : ℕ → ℕ) :
    JustifiedCache (World.system D inst) ℕ String Bool where
  site := inst
  entry w i tenant := (w.requires i).lookup tenant
  life _ := 30
  trusted v := v = false
  now m := ⟨.time, m⟩
  justifies tenant _ := ExemptAnswer tenant
  put op tenant v u := op = .requiresPut tenant v u
  entry_step w t op c i tenant v u h _ := by
    rcases World.effect_requires h with h | ⟨hi, hop⟩
    · exact .inl h
    · exact .inr ⟨hi.symm, hop⟩
  entry_tick _ _ _ _ := rfl

section Stamps

variable {P : Libraries} {cfg : Config} {D : DenylistOptions} {inst : ℕ → ℕ}

/-- An operation that caches no mandate needs no stamp. -/
theorem requiresStamps_of_ne_put {tr : Trace} {op : Op} (h : ∀ tenant v u, op ≠ .requiresPut tenant v u) :
    (requiresStamps D inst).Stamps tr op := fun tenant v u hop => absurd hop (h tenant v u)

/-- **The question stamps what it caches.** An exemption was answered after the
clock was read. -/
theorem tenantRequires2fa_stamps (user tenant : String) :
    (tenantRequires2fa user tenant).Every (requiresStamps D inst).Stamps := by
  refine (Prog.every_call ..).mpr ⟨requiresStamps_of_ne_put fun _ _ _ => nofun, fun now => ?_⟩
  refine (Prog.every_call ..).mpr ⟨requiresStamps_of_ne_put fun _ _ _ => nofun, fun cached => ?_⟩
  dsimp only [bind, Prog.bind]
  split
  · exact Prog.every_ret _ _
  refine (Prog.every_call ..).mpr ⟨requiresStamps_of_ne_put fun _ _ _ => nofun, fun r => ?_⟩
  refine (Prog.every_call ..).mpr ⟨?_, fun _ => Prog.every_ret _ _⟩
  intro tenant' v u hop hv
  cases hop
  have hexempt : Exempting r := exempting_of_not_required hv
  refine ⟨now, _, ⟨user, r, rfl, hexempt⟩, ?_, le_rfl⟩
  exact .cons_cons _ (.cons _ (.cons_cons _ .slnil))

theorem serve_requiresStamps (rq : ApiRequest) :
    (serve P cfg rq).Every (requiresStamps D inst).Stamps := by
  refine (serve_within rq).every_of_switch (fun tr₀ tr op h => h.append tr₀) (fun op tr h => ?_)
    tenantRequires2fa_stamps
  refine requiresStamps_of_ne_put fun tenant v u hop => ?_
  rw [hop] at h
  cases h

end Stamps

/-! ### What a session without a second factor relies on -/

/-- In the course of `T` the question was put at the reading `n`, and no second
factor is required. -/
def Switched (user tenant : String) (n : ℤ) (T : Trace) : Prop :=
  ∃ tr, (⟨.time, n⟩ :: tr) <:+: T ∧ (tenantRequires2fa user tenant).Yields (⟨.time, n⟩ :: tr) false

theorem Switched.mono {user tenant : String} {n : ℤ} {T T' : Trace} (h : Switched user tenant n T)
    (hT : T <:+: T') : Switched user tenant n T' := by
  obtain ⟨tr, htr, hy⟩ := h
  exact ⟨tr, htr.trans hT, hy⟩

/-- A bearer request of a session without a second factor is accepted only
after the question. -/
theorem authenticateBearer_switched {cfg : Config} {req : Request} {token : Jwt} {T : Trace}
    (hmfa : cfg.mfaEnabled = true) : (authenticateBearer cfg req token).During T fun r => ∀ id,
      r = .ok id → satisfiesSecondFactor id.amr = false → ∃ n, Switched id.user id.tenant n T := by
  refine .skip fun now => ?_
  split
  · exact .ret nofun
  case h_2 claims hv =>
    refine .skip fun permitted => .ite (fun _ => .skip fun _ => .ret nofun) fun _ =>
      .ite (fun _ => .ret nofun) fun _ => .ite (fun _ => .ret nofun) fun _ =>
      .ite (fun _ => .ret nofun) fun _ => .ite (fun hfactor => .ret ?_) fun _ => ?_
    · rintro _ ⟨⟩ hnone
      rw [hmfa, hnone] at hfactor
      cases hfactor
    · refine .bind fun tr v htr hv => .ite (fun _ => .ret nofun) fun hfalse => .ret ?_
      rintro _ ⟨⟩ -
      obtain rfl : v = false := by simpa using hfalse
      obtain ⟨n, tr', rfl⟩ : ∃ n tr', tr = ⟨.time, n⟩ :: tr' := by
        rcases tenantRequires2fa_yields.mp hv with ⟨n, _, ⟨_, _, _, htr', _⟩ | ⟨_, _, _, htr'⟩⟩
        · exact ⟨n, _, htr'⟩
        · exact ⟨n, _, htr'⟩
      exact ⟨n, tr', htr, hv⟩

/-- Who is not required to show a second factor relies on an exemption in the
cache that has not expired, or asked on his own. -/
theorem Switched.relies {user tenant : String} {n : ℤ} {T : Trace} (h : Switched user tenant n T) :
    (∃ u, ⟨.requiresFind tenant, some (false, u)⟩ ∈ T ∧ n < u) ∨
      ∃ e, ExemptAnswer tenant e ∧ [⟨.time, n⟩, e].Sublist T := by
  obtain ⟨tr, htr, hy⟩ := h
  rcases tenantRequires2fa_yields.mp hy with ⟨now, cached, ⟨e, rfl, hn, h, hv⟩ | ⟨r, -, hv, h⟩⟩
  · cases h
    have hmem : ⟨.requiresFind tenant, some e⟩ ∈ T := htr.subset (by simp)
    rw [show e = (false, e.2) by rw [hv]] at hmem
    exact .inl ⟨e.2, hmem, hn⟩
  · cases h
    have hexempt : Exempting r := exempting_of_not_required hv.symm
    refine .inr ⟨_, ⟨user, r, rfl, hexempt⟩, List.Sublist.trans ?_ htr.sublist⟩
    exact .cons_cons _ (.cons _ (.cons_cons _ (List.nil_sublist _)))

/-- A thread of instance `i` that had read the clock at `m` asked about the
tenant and was answered by an exemption. -/
def AskedExempt (inst : ℕ → ℕ) (i : ℕ) (tenant : String) (m : ℤ)
    (l : List (Step World Op.Ans)) : Prop :=
  ∃ later y earlier, l = later ++ y :: earlier ∧ inst y.thread = i ∧ ExemptAnswer tenant y.event ∧
    ⟨.time, m⟩ ∈ trace y.thread earlier

theorem askedExempt_of_pair {inst : ℕ → ℕ} {tenant : String} {t : ℕ} {m : ℤ} {e : Event Op.Ans}
    {l : List (Step World Op.Ans)} (he : ExemptAnswer tenant e)
    (h : [⟨.time, m⟩, e].Sublist (trace t l)) : AskedExempt inst (inst t) tenant m l := by
  obtain ⟨later, y, earlier, hlog, rfl, hy, hm⟩ := trace_pair h
  rw [← hy] at he
  exact ⟨later, y, earlier, hlog, rfl, he, hm⟩

theorem AskedExempt.of_suffix {inst : ℕ → ℕ} {i : ℕ} {tenant : String} {m : ℤ}
    {l l' : List (Step World Op.Ans)} (h : AskedExempt inst i tenant m l) (hl : l <:+ l') :
    AskedExempt inst i tenant m l' := by
  obtain ⟨later, y, earlier, rfl, hy⟩ := h
  obtain ⟨more, rfl⟩ := hl
  exact ⟨more ++ later, y, earlier, by simp, hy⟩

section Age

variable {P : Libraries} {cfg : Config} {inst : ℕ → ℕ} {w₀ : World} {ms : List (Move ApiRequest Weather)}
  {user tenant : String} {τ : ℕ} {n : ℤ}

/-- **Who is not asked for a second factor relies on a recent answer.** -/
theorem switched_relies_on_exemption (h₀ : ∀ i, w₀.requires i = ∅)
    (h : Switched user tenant n (trace τ (requests P cfg inst w₀ ms).log)) :
    ∃ m, n - 30 < m ∧ AskedExempt inst (inst τ) tenant m (requests P cfg inst w₀ ms).log := by
  rcases h.relies with ⟨u, hfind, hn⟩ | ⟨e, hexempt, hpair⟩
  · obtain ⟨y, hy, rfl, hye⟩ := (mem_trace τ _ _).mp hfind
    obtain ⟨later, earlier, hlog⟩ := List.append_of_mem hy
    have hentry : (requiresStamps cfg.denylist inst).entry y.before (inst y.thread) tenant =
        some (false, u) := (step_requiresFind _ w₀ hy hye).symm
    obtain ⟨t, m, e, ht, hexempt, hpair, hm⟩ := (requiresStamps cfg.denylist inst).stamped_lt
      (serve P cfg) w₀ serve_requiresStamps
      (fun i key v u he _ => by simp [requiresStamps, h₀ i] at he) hlog hentry rfl hn
    have hsuffix : earlier <:+ (requests P cfg inst w₀ ms).log := by
      rw [hlog]
      exact ⟨later ++ [y], by simp⟩
    have hasked : AskedExempt inst (inst t) tenant m earlier := askedExempt_of_pair hexempt hpair
    change inst t = inst y.thread at ht
    rw [ht] at hasked
    exact ⟨m, hm, hasked.of_suffix hsuffix⟩
  · exact ⟨n, by omega, askedExempt_of_pair hexempt hpair⟩

/-- A reply without an exemption leaves the requirement in force. -/
theorem asked_requires {tr : Trace} {v : Bool} {r : HttpResult RequiredBody}
    (h : (tenantRequires2fa user tenant).Yields tr v) (hasked : ⟨.postMfaRequired user tenant, r⟩ ∈ tr)
    (hreply : ¬Exempting r) : v = true := by
  rcases tenantRequires2fa_yields.mp h with ⟨now, cached, ⟨e, -, -, rfl, -⟩ | ⟨r', -, hv, rfl⟩⟩
  · simp at hasked
  · obtain rfl : r = r' := by simpa using hasked
    by_contra hfalse
    rw [Bool.not_eq_true] at hfalse
    rw [hfalse] at hv
    exact hreply (exempting_of_not_required hv.symm)

/-- **A session without a second factor is let in on a recent exemption.** In
every run, a bearer request accepted without a second factor has put the
question for its tenant; and when the clock read `n` then, its own instance
asked about the tenant at a reading greater than `n - 30` and was answered that
it requires none. A reply that failed, cannot be parsed or says otherwise lets
no one in. -/
theorem switch_relies_on_exemption (h₀ : ∀ i, w₀.requires i = ∅) (hmfa : cfg.mfaEnabled = true)
    (ms : List (Move ApiRequest Weather)) :
    (∀ (τ : ℕ) (req : Request) (token : Jwt) (tr : Trace) (id : AuthIdentity),
      req.authorization = .bearer token → tr <:+: trace τ (requests P cfg inst w₀ ms).log →
      (authenticate cfg req).Yields tr (.ok id) → satisfiesSecondFactor id.amr = false →
      (∃ n, Switched id.user id.tenant n tr) ∧
      ∀ n, Switched id.user id.tenant n tr →
        ∃ m, n - 30 < m ∧ AskedExempt inst (inst τ) id.tenant m (requests P cfg inst w₀ ms).log) ∧
    ∀ (user tenant : String) (tr : Trace) (v : Bool) (r : HttpResult RequiredBody),
      (tenantRequires2fa user tenant).Yields tr v → ⟨.postMfaRequired user tenant, r⟩ ∈ tr →
      ¬Exempting r → v = true := by
  refine ⟨fun τ req token tr id hreq htr hauth hnone => ⟨?_, fun n hn => ?_⟩,
    fun _ _ _ _ _ => asked_requires⟩
  · rw [authenticate_of_bearer hreq] at hauth
    exact (authenticateBearer_switched hmfa).of_yields hauth id rfl hnone
  · exact switched_relies_on_exemption h₀ (hn.mono htr)

end Age

/-! ### A run -/

/-- Whoever gets through to the core was accepted before. -/
theorem gated_authenticated {cfg : Config} {req : Request} {route : AuthIdentity → Bridge Response}
    {T : Trace} {op : Op} {auth : AuthContext} {k : op.Ans → Bridge Response}
    (h : (gated cfg req route).Reaches T (.call op k)) (hcore : op.core? = some auth) :
    ∃ tr id, tr <:+: T ∧ (authenticate cfg req).Yields tr (.ok id) := by
  have hauthenticate : Within cfg (fun g => ¬ g.dispatches) (authenticate cfg req) :=
    .authenticate (fun _ => id) id
  rcases Prog.reaches_bind_call h with ⟨_, hr⟩ | ⟨r, tr₁, tr₂, rfl, h₁, h₂⟩
  · exact absurd hr (hauthenticate.not_about_to_call hcore)
  · cases r with
    | error resp => simp at h₂
    | ok id => exact ⟨tr₁, id, (List.prefix_append ..).isInfix, h₁⟩

/-- A session with a password only is used twice in its tenant, which requires a
second factor from the second time on. -/
def usedUnderMandate : List (Move ApiRequest Weather) :=
  List.replicate 12 (.exec 1 ⟨sampleReply "live", false⟩) ++
    .spawn 1 (.resource boundaryBearer) :: .tick 29 ::
      (List.replicate 12 (.exec 0 ⟨sampleReply "live", false⟩) ++
        [.spawn 0 (.resource boundaryBearer)])

def mandateConfig : Config := { mfaEnabled := true, ldapManagerUrl := "http://ldap" }

theorem usedUnderMandate_relies_on_exemption : ∃ n m,
    Switched "ann" "acme" n (trace 1 (requests .refusing mandateConfig (fun _ => 0) {}
      usedUnderMandate).log) ∧ n - 30 < m ∧
    AskedExempt (fun _ => 0) 0 "acme" m (requests .refusing mandateConfig (fun _ => 0) {}
      usedUnderMandate).log := by
  have hlast : ((requests .refusing mandateConfig (fun _ => 0) {} usedUnderMandate).log.head?.map
      fun x => (x.thread, x.event.op.core?)) = some (1, some ⟨"ann", "acme", "", ["users"]⟩) := by
    decide +kernel
  obtain ⟨x, hx, hstep⟩ := Option.map_eq_some_iff.mp hlast
  obtain ⟨earlier, hlog⟩ := List.head?_eq_some_iff.mp hx
  obtain ⟨hthread, hcore⟩ := Prod.mk.inj hstep
  have hsplit : (requests .refusing mandateConfig (fun _ => 0) {} usedUnderMandate).log =
      [] ++ x :: earlier := hlog
  obtain ⟨rq, q, k, hjob, hreach⟩ := step_reaches (serve .refusing mandateConfig) {} hsplit rfl
  rw [hthread] at hjob hreach
  have hspawn := Pool.run_spawned _ _ _ hjob
  obtain rfl : rq = .resource boundaryBearer := by
    simpa [usedUnderMandate] using hspawn
  obtain ⟨tr, id, htr, hauth⟩ := gated_authenticated hreach hcore
  have hpast : trace 1 earlier <:+: trace 1 (requests .refusing mandateConfig (fun _ => 0) {}
      usedUnderMandate).log := by
    rw [hlog, trace, if_pos hthread]
    exact (List.prefix_append ..).isInfix
  have hbearer : boundaryBearer.authorization = .bearer (.signed boundarySession) := rfl
  have hid : id = bearerIdentity boundaryBearer boundarySession := by
    have hbearing := hauth
    rw [authenticate_of_bearer hbearer] at hbearing
    obtain ⟨claims, hp⟩ := authenticateBearer_during.of_yields hbearing id rfl
    cases hp.signed
    exact hp.identity
  obtain ⟨⟨n, hn⟩, hrecent⟩ := (switch_relies_on_exemption (fun _ => rfl) rfl usedUnderMandate).1 1
    boundaryBearer _ tr id hbearer (htr.trans hpast) hauth (by rw [hid]; decide)
  obtain ⟨m, hm, hasked⟩ := hrecent n hn
  rw [hid] at hn hasked
  exact ⟨n, m, hn.mono (htr.trans hpast), hm, hasked⟩

end HttpBridge
