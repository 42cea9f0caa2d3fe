/-
# How stale an admission can be

The tenant gate asks the registry and remembers the answer: an admission for
sixty seconds, a refusal for ten, both from the clock read before the lookup.
Requests run as threads on any number of instances, and those of an instance
share its cache, into which each writes with its own, possibly old, reading.

Every call to the core comes after the gate of its tenant (`serve_admitted`).
And whoever passes the gate relies on a lookup of his own instance, at a reading
less than sixty seconds before his, that was answered `live`, however the steps
interleave (`dispatch_relies_on_live`).

Key definitions: `tenantStamps`, `PassedGate`, `AskedLive`.
Key theorems: `serve_admitted`, `dispatch_relies_on_live`.
-/
import HttpBridge.SingleUse
import HttpBridge.TenantBoundary

namespace HttpBridge

open Interact TokenDenylist

/-! ### In front of every call -/

section Gate

variable {P : Libraries} {cfg : Config} {req : Request} {T : Trace} {op : Op} {auth : AuthContext}

/-- A call as the caller is a call in the caller's tenant. -/
theorem callsAs_tenant {p : Bridge Response} {id : AuthIdentity} (h : CallsAs (· = fillAuth id) p) :
    CallsAs (fun auth => auth.tenant = id.tenant) p := by
  refine h.mono fun op h auth hcore => ?_
  rw [h auth hcore]
  rfl

/-- What can make no call to the core is not about to make one. -/
theorem Within.not_about_to_call {α : Type} {p : Bridge α} {k : op.Ans → Bridge α}
    (h : Within cfg (fun g => ¬ g.dispatches) p) (hcore : op.core? = some auth) :
    ¬ p.Reaches T (.call op k) := fun hr =>
  ((h.callsAs (Q := fun _ => False) fun _ h => h).of_reaches hr).2.1 auth hcore

/-- A route behind the gate calls the core only after it, and in its tenant. -/
theorem gated_admitted {route : AuthIdentity → Bridge Response} {k : op.Ans → Bridge Response}
    (hroute : ∀ id, CallsAs (fun auth => auth.tenant = id.tenant) (route id))
    (h : (gated cfg req route).Reaches T (.call op k)) (hcore : op.core? = some auth) :
    Admitted auth.tenant T := by
  have hauthenticate : Within cfg (fun g => ¬ g.dispatches) (authenticate cfg req) :=
    .authenticate (fun _ => id) id
  have hadmits : ∀ tenant, Within cfg (fun g => ¬ g.dispatches) (tenantAdmits tenant) :=
    fun tenant => .admits id
  rcases Prog.reaches_bind_call h with ⟨_, hr⟩ | ⟨r, tr₁, tr₂, rfl, -, h₂⟩
  · exact absurd hr (hauthenticate.not_about_to_call hcore)
  cases r with
  | error resp => simp at h₂
  | ok id =>
    rcases Prog.reaches_bind_call h₂ with ⟨_, hr⟩ | ⟨v, tr₃, tr₄, rfl, hv, h₄⟩
    · exact absurd hr ((hadmits _).not_about_to_call hcore)
    by_cases ha : v.admits = true
    · rw [if_neg (by simp [ha])] at h₄
      rw [((hroute id).of_reaches h₄).2.1 auth hcore]
      exact ⟨tr₃, v, ⟨tr₁, tr₄, by simp⟩, hv, ha⟩
    · rw [if_pos (by simpa using ha)] at h₄
      simp at h₄

theorem getContent_admitted {uid : String} {ticket : Option Jwt} {k : op.Ans → Bridge Response}
    (h : (getContent cfg req uid ticket).Reaches T (.call op k)) (hcore : op.core? = some auth) :
    Admitted auth.tenant T := by
  have hforward : ∀ id, CallsAs (fun auth => auth.tenant = id.tenant) (forward id) := fun id =>
    callsAs_tenant (forward_callsAs id)
  unfold getContent at h
  split at h
  case h_1 t _ =>
    have hticket : Within cfg (fun g => ¬ g.dispatches) (identityFromDownloadTicket cfg req uid t) :=
      .identityFromDownloadTicket (fun _ => id) fun _ => id
    rcases Prog.reaches_bind_call h with ⟨_, hr⟩ | ⟨o, tr₁, tr₂, rfl, ho, h₂⟩
    · exact absurd hr (hticket.not_about_to_call hcore)
    cases o with
    | none => exact (gated_admitted hforward h₂ hcore).mono (List.suffix_append ..).isInfix
    | some id =>
      obtain ⟨c, hp⟩ := identityFromDownloadTicket_during.of_yields ho id rfl
      have htenant : auth.tenant = optValue c.tenant := by
        rw [((hforward id).of_reaches h₂).2.1 auth hcore, hp.identity]
        rfl
      rw [htenant]
      exact hp.admitted.mono (List.prefix_append ..).isInfix
  case h_2 => exact gated_admitted hforward h hcore

/-- **The gate stands in front of every call.** A request about to call the core
has passed the gate of the call's tenant. -/
theorem serve_admitted (rq : ApiRequest) : (serve P cfg rq).Every fun T op =>
    ∀ auth, op.core? = some auth → Admitted auth.tenant T := by
  intro T op k h auth hcore
  cases rq with
  | playbackTicket req uid =>
    exact gated_admitted (fun id => callsAs_tenant (playbackTicket_callsAs id uid)) h hcore
  | resource req => exact gated_admitted (fun id => callsAs_tenant (forward_callsAs id)) h hcore
  | checkPerm req query =>
    refine gated_admitted (fun id => ?_) h hcore
    refine (checkPerm_callsAs id query).mono fun op h auth hcore => ?_
    rw [h auth hcore]
    exact (checkedAs_cases id query).1
  | getContent req uid ticket => exact getContent_admitted h hcore
  | _ =>
    refine absurd h (Within.not_about_to_call ((serve_within _).mono fun g hg hd => ?_) hcore)
    exact ApiRequest.callsCore_of_gates hg hd

end Gate

/-! ### The cache of the gate -/

/-- The registry says that the tenant is live. -/
def liveAnswer (tenant : String) : Event Op.Ans :=
  ⟨.getTenantState tenant, some ⟨true, true, "live"⟩⟩

/-- Only the answer `live` admits. -/
theorem admissionOf_admits {reply : Option TenantStateReply} :
    (admissionOf reply).admits = true ↔ reply = some ⟨true, true, "live"⟩ := by
  rw [admissionOf, admitsOrRefusesUnknown_iff]
  rcases reply with _ | ⟨success, found, state⟩
  · simp [stateOf]
  · cases success <;> cases found <;> simp [stateOf]

/-- Where an entry of a tenant cache comes from: it was there, or this instance
cached an answer. -/
theorem World.effect_tenants {D : DenylistOptions} {w : World} {i i' : ℕ} {op : Op} {c : Weather}
    {tenant : String} {e : TenantEntry}
    (h : ((w.effect D i op c).tenants i').lookup tenant = some e) :
    (w.tenants i').lookup tenant = some e ∨ (i' = i ∧ op = .tenantPut tenant e) := by
  cases op with
  | tenantPut tenant' e' =>
    rcases lookup_update_insert h with h | ⟨hi, ht, he⟩
    · exact .inl h
    · exact .inr ⟨hi, by rw [ht, he]⟩
  | denylistStore jti ttl =>
    unfold effect at h
    dsimp only at h
    split_ifs at h <;> exact .inl h
  | _ => exact .inl h

/-- The tenant caches as stamped caches: an admission is cached until sixty
seconds after the clock read before the lookup. -/
def tenantStamps (D : DenylistOptions) (inst : ℕ → ℕ) :
    StampedCache (World.system D inst) ℕ String Bool where
  clock := World.clock
  site := inst
  entry w i tenant := ((w.tenants i).lookup tenant).map fun e => (e.admits, e.until_)
  life _ := 60
  trusted v := v = true
  now m := ⟨.time, m⟩
  answer tenant _ := liveAnswer tenant
  put op tenant v u := ∃ e, op = .tenantPut tenant e ∧ e.admits = v ∧ e.until_ = u
  clock_step := World.clock_step D inst
  clock_tick := World.clock_tick D inst
  now_step := World.now_step D inst
  entry_step w t op c i tenant v u h _ := by
    obtain ⟨e, he, heq⟩ := Option.map_eq_some_iff.mp h
    cases heq
    rcases World.effect_tenants he with h | ⟨rfl, rfl⟩
    · exact .inl (by rw [h]; rfl)
    · exact .inr ⟨rfl, e, rfl, rfl, rfl⟩
  entry_tick _ _ _ _ := rfl

section Stamps

variable {P : Libraries} {cfg : Config} {D : DenylistOptions} {inst : ℕ → ℕ}

/-- An operation that caches no tenant needs no stamp. -/
theorem tenantStamps_of_ne_put {tr : Trace} {op : Op} (h : ∀ tenant e, op ≠ .tenantPut tenant e) :
    (tenantStamps D inst).Stamps tr op := by
  rintro tenant v u ⟨e, rfl, -⟩
  exact absurd rfl (h tenant e)

/-- **The gate stamps what it caches.** An admission was answered `live` after the
clock was read. -/
theorem tenantAdmits_stamps (tenant : String) :
    (tenantAdmits tenant).Every (tenantStamps D inst).Stamps := by
  unfold tenantAdmits
  split_ifs
  · exact Prog.every_ret _ _
  refine (Prog.every_call ..).mpr ⟨tenantStamps_of_ne_put fun _ _ => nofun, fun now => ?_⟩
  refine (Prog.every_call ..).mpr ⟨tenantStamps_of_ne_put fun _ _ => nofun, fun cached => ?_⟩
  dsimp only [bind, Prog.bind]
  split
  · exact Prog.every_ret _ _
  refine (Prog.every_call ..).mpr ⟨tenantStamps_of_ne_put fun _ _ => nofun, fun reply => ?_⟩
  refine (Prog.every_call ..).mpr ⟨?_, fun _ => Prog.every_ret _ _⟩
  rintro tenant' v u ⟨e, he, rfl, rfl⟩ hv
  cases he
  have hlive : reply = some ⟨true, true, "live"⟩ := admissionOf_admits.mp hv
  refine ⟨now, ?_, ?_⟩
  · rw [hlive]
    exact .cons_cons _ (.cons _ (.cons_cons _ .slnil))
  · show now + _ ≤ now + 60
    rw [show (admissionOf reply).admits = true from hv]
    exact le_rfl

/-- An operation that only the gate of a tenant performs. -/
def Op.asksState : Op → Prop
  | .getTenantState _ | .tenantPut .. => True
  | _ => False

/-- What the gate has done whenever it is about to ask or to cache, a request
has done. -/
theorem serve_every_of_gate {Φ : Trace → Op → Prop} (rq : ApiRequest)
    (happend : ∀ tr₀ tr op, Φ tr op → Φ (tr₀ ++ tr) op)
    (hgate : ∀ tenant, (tenantAdmits tenant).Every Φ)
    (hrest : ∀ tr (op : Op), ¬ op.asksState → Φ tr op) : (serve P cfg rq).Every Φ := by
  refine (serve_within rq).every happend (fun op tr hop => hrest tr op ?_) (fun jti _ => ?_)
    (fun jti ttl _ => ?_) (fun tenant _ => hgate tenant) (fun _ _ _ _ tr _ => hrest tr _ nofun)
    fun op tr hop _ => hrest tr op ?_
  · cases op <;> first | exact fun h => h | cases hop
  · refine check_calls.every fun tr op h => hrest tr op ?_
    rcases h with rfl | rfl | rfl | ⟨_, _, rfl⟩ <;> exact nofun
  · refine revoke_calls.every fun tr op h => hrest tr op ?_
    rcases h with ⟨rfl, -⟩ | rfl | ⟨_, rfl⟩ <;> exact nofun
  · cases op <;> first | exact fun h => h | cases hop

theorem serve_tenantStamps (rq : ApiRequest) : (serve P cfg rq).Every (tenantStamps D inst).Stamps := by
  refine serve_every_of_gate rq (fun tr₀ tr op h => h.append tr₀) tenantAdmits_stamps fun tr op h =>
    tenantStamps_of_ne_put fun tenant e => ?_
  rintro rfl
  exact h trivial

/-- The registry is asked right after the clock was read and the cache missed. -/
theorem serve_asks (rq : ApiRequest) : (serve P cfg rq).Every fun T op => ∀ tenant,
    op = .getTenantState tenant → ∃ m o, [⟨.time, m⟩, ⟨.tenantFind tenant, o⟩] <:+ T := by
  refine serve_every_of_gate rq (fun tr₀ tr op h tenant hop => ?_) (fun tenant => ?_)
    fun tr op h tenant hop => ?_
  · obtain ⟨m, o, hsuffix⟩ := h tenant hop
    exact ⟨m, o, hsuffix.trans (List.suffix_append ..)⟩
  · unfold tenantAdmits
    split_ifs
    · exact Prog.every_ret _ _
    refine (Prog.every_call ..).mpr ⟨nofun, fun now => ?_⟩
    refine (Prog.every_call ..).mpr ⟨nofun, fun cached => ?_⟩
    dsimp only [bind, Prog.bind]
    split
    · exact Prog.every_ret _ _
    refine (Prog.every_call ..).mpr ⟨fun tenant' hop => ?_, fun reply => ?_⟩
    · cases hop
      exact ⟨now, cached, List.suffix_rfl⟩
    · exact (Prog.every_call ..).mpr ⟨nofun, fun _ => Prog.every_ret _ _⟩
  · rw [hop] at h
    exact absurd trivial h

end Stamps

/-! ### How old the answer behind an admission is -/

/-- In the course of `T` the gate of the tenant read the clock at `n` and let
pass. -/
def PassedGate (tenant : String) (n : ℤ) (T : Trace) : Prop :=
  ∃ tr v, (⟨.time, n⟩ :: tr) <:+: T ∧ (tenantAdmits tenant).Yields (⟨.time, n⟩ :: tr) v ∧
    v.admits = true

theorem Admitted.passedGate {tenant : String} {T : Trace} (h : Admitted tenant T) :
    ∃ n, PassedGate tenant n T := by
  obtain ⟨tr, v, htr, hv, ha⟩ := h
  rcases tenantAdmits_yields.mp hv with ⟨-, -, rfl⟩ | ⟨-, now, cached, ⟨e, -, -, rfl, -⟩ |
    ⟨reply, -, rfl, -⟩⟩
  · cases ha
  · exact ⟨now, _, v, htr, hv, ha⟩
  · exact ⟨now, _, v, htr, hv, ha⟩

/-- Who passed the gate relies on an admission in the cache that has not
expired, or asked on his own. -/
theorem PassedGate.relies {tenant : String} {n : ℤ} {T : Trace} (h : PassedGate tenant n T) :
    (∃ e, ⟨.tenantFind tenant, some e⟩ ∈ T ∧ n < e.until_ ∧ e.admits = true) ∨
      [⟨.time, n⟩, liveAnswer tenant].Sublist T := by
  obtain ⟨tr, v, htr, hv, ha⟩ := h
  rcases tenantAdmits_yields.mp hv with ⟨-, h, -⟩ | ⟨-, now, cached, ⟨e, rfl, hn, h, rfl⟩ |
    ⟨reply, -, h, rfl⟩⟩
  · cases h
  · cases h
    exact .inl ⟨e, htr.subset (by simp), hn, ha⟩
  · cases h
    rw [admissionOf_admits] at ha
    subst ha
    refine .inr (List.Sublist.trans ?_ htr.sublist)
    exact .cons_cons _ (.cons _ (.cons_cons _ (List.nil_sublist _)))

/-- A thread of instance `i` read the clock at `m`, missed the cache and asked
the registry, which answered `live`. -/
def AskedLive (inst : ℕ → ℕ) (i : ℕ) (tenant : String) (m : ℤ)
    (l : List (Step World Op.Ans)) : Prop :=
  ∃ later y earlier o, l = later ++ y :: earlier ∧ inst y.thread = i ∧
    y.event = liveAnswer tenant ∧
    [⟨.time, m⟩, ⟨.tenantFind tenant, o⟩] <:+ trace y.thread earlier

section Age

variable {P : Libraries} {cfg : Config} {inst : ℕ → ℕ} {w₀ : World} {ms : List (Move ApiRequest Weather)}
  {tenant : String} {τ : ℕ} {n : ℤ}

/-- A thread's later reading of the clock is not less. -/
theorem reading_le {m m' : ℤ}
    (h : [⟨.time, m⟩, ⟨.time, m'⟩].Sublist (trace τ (requests P cfg inst w₀ ms).log)) : m ≤ m' := by
  obtain ⟨later, y, earlier, hlog, -, hy, hm⟩ := trace_pair h
  obtain ⟨x, hx, -, hxe⟩ := (mem_trace τ _ earlier).mp hm
  have hle : x.before.clock ≤ y.before.clock := clock_ge _ w₀ hlog hx
  rwa [← step_time _ w₀ (by rw [hlog]; simp [hx]) hxe,
    ← step_time _ w₀ (by rw [hlog]; simp) hy] at hle

/-- An answer given to a thread that had read the clock is the answer to a
lookup at that reading or a later one. -/
theorem askedLive_of_pair {m : ℤ}
    (h : [⟨.time, m⟩, liveAnswer tenant].Sublist (trace τ (requests P cfg inst w₀ ms).log)) :
    ∃ m', m ≤ m' ∧ AskedLive inst (inst τ) tenant m' (requests P cfg inst w₀ ms).log := by
  obtain ⟨later, y, earlier, hlog, rfl, hy, hm⟩ := trace_pair h
  obtain ⟨rq, q, k, -, hr⟩ := step_reaches (serve P cfg) w₀ hlog (by rw [hy])
  obtain ⟨m', o, hsuffix⟩ := serve_asks rq _ _ _ hr tenant rfl
  refine ⟨m', ?_, later, y, earlier, o, hlog, rfl, hy, hsuffix⟩
  obtain ⟨tr, htr⟩ := hsuffix
  rw [← htr] at hm
  rcases List.mem_append.mp hm with hm | hm
  · have hpair : [⟨.time, m⟩, ⟨.time, m'⟩].Sublist (trace y.thread earlier) := by
      rw [← htr]
      exact (List.singleton_sublist.mpr hm).append (.cons_cons _ (List.nil_sublist _))
    have hsuffix : earlier <:+ (requests P cfg inst w₀ ms).log := by
      rw [hlog]
      exact ⟨later ++ [y], by simp⟩
    exact reading_le (hpair.trans (trace_sublist _ hsuffix))
  · simp only [List.mem_cons, Event.mk.injEq, List.not_mem_nil, or_false] at hm
    rcases hm with ⟨-, h⟩ | ⟨h, -⟩
    · exact (eq_of_heq h).le
    · cases h

/-- **Who passes the gate relies on a recent answer.** Its own instance asked
the registry at a reading less than sixty seconds before his, and the registry
said `live`. -/
theorem passed_relies_on_live (h₀ : ∀ i, w₀.tenants i = ∅)
    (h : PassedGate tenant n (trace τ (requests P cfg inst w₀ ms).log)) :
    ∃ m, n - 60 < m ∧ AskedLive inst (inst τ) tenant m (requests P cfg inst w₀ ms).log := by
  rcases h.relies with ⟨e, hfind, hn, ha⟩ | hpair
  · obtain ⟨y, hy, rfl, hye⟩ := (mem_trace τ _ _).mp hfind
    obtain ⟨later, earlier, hlog⟩ := List.append_of_mem hy
    have hentry : (tenantStamps cfg.denylist inst).entry y.before (inst y.thread) tenant =
        some (true, e.until_) := by
      simp [tenantStamps, ← step_tenantFind _ w₀ hy hye, ha]
    obtain ⟨t, m, ht, hs, hm⟩ := (tenantStamps cfg.denylist inst).stamped_lt (serve P cfg) w₀
      serve_tenantStamps (fun i key v u he hv => by simp [tenantStamps, h₀ i] at he) hlog hentry rfl hn
    have hsuffix : earlier <:+ (requests P cfg inst w₀ ms).log := by
      rw [hlog]
      exact ⟨later ++ [y], by simp⟩
    obtain ⟨m', hle, hasked⟩ := askedLive_of_pair (hs.trans (trace_sublist t hsuffix))
    change inst t = inst y.thread at ht
    rw [ht] at hasked
    exact ⟨m', lt_of_lt_of_le hm hle, hasked⟩
  · obtain ⟨m, hle, hasked⟩ := askedLive_of_pair hpair
    exact ⟨m, by omega, hasked⟩

/-- A reply that is not `live` admits no one. -/
theorem asked_not_admits {tr : Trace} {v : Admission} {reply : Option TenantStateReply}
    (h : (tenantAdmits tenant).Yields tr v) (hasked : ⟨.getTenantState tenant, reply⟩ ∈ tr)
    (hreply : reply ≠ some ⟨true, true, "live"⟩) : v.admits = false := by
  rcases tenantAdmits_yields.mp h with ⟨-, rfl, -⟩ | ⟨-, now, cached, ⟨e, -, -, rfl, -⟩ |
    ⟨reply', -, rfl, rfl⟩⟩
  · cases hasked
  · simp at hasked
  · obtain rfl : reply = reply' := by simpa using hasked
    exact Bool.eq_false_iff.mpr fun ha => hreply (admissionOf_admits.mp ha)

/-- **A request is dispatched on a recent answer.** In every run, a request that
calls the core has passed the gate of the call's tenant; and when the gate read
the clock at `n`, its own instance asked the registry for the tenant at a
reading greater than `n - 60` and was answered `live`. A reply that failed, is
missing or says anything else admits no one. -/
theorem dispatch_relies_on_live (h₀ : ∀ i, w₀.tenants i = ∅) (ms : List (Move ApiRequest Weather)) :
    (∀ (later earlier : List (Step World Op.Ans)) (x : Step World Op.Ans) (auth : AuthContext),
      (requests P cfg inst w₀ ms).log = later ++ x :: earlier → x.event.op.core? = some auth →
      (∃ n, PassedGate auth.tenant n (trace x.thread earlier)) ∧
      ∀ n, PassedGate auth.tenant n (trace x.thread earlier) →
        ∃ m, n - 60 < m ∧ AskedLive inst (inst x.thread) auth.tenant m earlier) ∧
    ∀ (tenant : String) (tr : Trace) (v : Admission) (reply : Option TenantStateReply),
      (tenantAdmits tenant).Yields tr v → ⟨.getTenantState tenant, reply⟩ ∈ tr →
      reply ≠ some ⟨true, true, "live"⟩ → v.admits = false := by
  refine ⟨fun later earlier x auth hlog hcore => ?_, fun _ _ _ _ => asked_not_admits⟩
  obtain ⟨rq, q, k, -, hr⟩ := step_reaches (serve P cfg) w₀ hlog rfl
  obtain ⟨ms₁, _, _, _, _, -, hearlier, -⟩ := Pool.run_split _ (serve P cfg) w₀ hlog
  refine ⟨(serve_admitted rq _ _ _ hr auth hcore).passedGate, fun n hn => ?_⟩
  rw [← hearlier] at hn ⊢
  exact passed_relies_on_live h₀ hn

end Age

/-- A session is used while its tenant is live, and again 59 seconds later, when
the tenant has been suspended. -/
def usedTwice : List (Move ApiRequest Weather) :=
  List.replicate 10 (.exec 1 ⟨sampleReply "suspended", false⟩) ++
    .spawn 1 (.resource boundaryBearer) :: .tick 59 ::
      (List.replicate 10 (.exec 0 ⟨sampleReply "live", false⟩) ++
        [.spawn 0 (.resource boundaryBearer)])

theorem usedTwice_relies_on_live : ∃ x earlier n m,
    (requests .refusing {} (fun _ => 0) {} usedTwice).log = x :: earlier ∧ x.thread = 1 ∧
    x.event.op.core? = some ⟨"ann", "acme", "", ["users"]⟩ ∧
    PassedGate "acme" n (trace 1 earlier) ∧ n - 60 < m ∧
    AskedLive (fun _ => 0) 0 "acme" m earlier := by
  have hlast : ((requests .refusing {} (fun _ => 0) {} usedTwice).log.head?.map fun x =>
      (x.thread, x.event.op.core?)) = some (1, some ⟨"ann", "acme", "", ["users"]⟩) := by
    decide +kernel
  obtain ⟨x, hx, hstep⟩ := Option.map_eq_some_iff.mp hlast
  obtain ⟨earlier, hlog⟩ := List.head?_eq_some_iff.mp hx
  obtain ⟨hthread, hcore⟩ := Prod.mk.inj hstep
  obtain ⟨⟨n, hn⟩, hrecent⟩ :=
    (dispatch_relies_on_live (fun _ => rfl) usedTwice).1 [] earlier x _ hlog hcore
  obtain ⟨m, hm, hasked⟩ := hrecent n hn
  rw [hthread] at hn
  exact ⟨x, earlier, n, m, hlog, hthread, hcore, hn, hm, hasked⟩

end HttpBridge
