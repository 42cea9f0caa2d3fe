/-
# Failing over to the directory's replica

The directory has a master and possibly a read-only replica. A connection goes
to the master unless it was found down less than a cooldown ago
(`circuit_breaker.h`, `ldap_authenticator.cpp`): the breaker holds one deadline,
set by a failed probe of the master and cleared by a probe that succeeds.
`ldap_mutex_` is held around every call, so a run is a list of calls.

The clock is read when the deadline is compared and again when a failed probe
sets it, in rational seconds. What a run of calls has left in the breaker is
`Kept`: the deadline has a cause, every failed probe is either covered by it or
over, and a master that answered has cleared it. From it follow the laws of a
run (`failover_discipline`).
-/
import Mathlib.Algebra.Order.Ring.Rat
import Mathlib.Tactic.Linarith

namespace HttpBridge

/-! ### The breaker -/

/-- `circuit_breaker.h`, `CircuitBreaker`. -/
structure CircuitBreaker where
  cooldown : ℚ
  downUntil : ℚ := 0

namespace CircuitBreaker

def shouldTryPrimary (b : CircuitBreaker) (now : ℚ) : Bool := b.downUntil ≤ now

def trip (b : CircuitBreaker) (now : ℚ) : CircuitBreaker :=
  { b with downUntil := now + b.cooldown }

def reset (b : CircuitBreaker) : CircuitBreaker := { b with downUntil := 0 }

@[simp] theorem trip_cooldown (b : CircuitBreaker) (now : ℚ) : (b.trip now).cooldown = b.cooldown := rfl

@[simp] theorem trip_downUntil (b : CircuitBreaker) (now : ℚ) :
    (b.trip now).downUntil = now + b.cooldown := rfl

@[simp] theorem reset_cooldown (b : CircuitBreaker) : b.reset.cooldown = b.cooldown := rfl

@[simp] theorem reset_downUntil (b : CircuitBreaker) : b.reset.downUntil = 0 := rfl

end CircuitBreaker

/-! ### A call -/

inductive Endpoint where
  | master
  | replica
  deriving DecidableEq

/-- What a call of `connectToLDAP` finds: the clock when the deadline is
compared and when the master has failed, and whether each endpoint gives a
connection. A reading that the call does not take is any time during it. -/
structure ConnectCall where
  now : ℚ
  tripNow : ℚ
  masterUp : Bool
  replicaUp : Bool
  deriving DecidableEq

/-- What a call did: the endpoints it contacted, with whether they gave a
connection, and the connection it returned. -/
structure ConnectReport where
  call : ConnectCall
  master : Option Bool
  replica : Option Bool
  connection : Option Endpoint
  deriving DecidableEq

namespace ConnectReport

/-- The call probed the master and got nothing. -/
def Failed (e : ConnectReport) : Prop := e.master = some false

/-- The call probed the master and got a connection. -/
def Succeeded (e : ConnectReport) : Prop := e.master = some true

end ConnectReport

/-- The connection a contacted endpoint gives. -/
def connectToEndpoint (endpoint : Endpoint) (up : Bool) : Option Endpoint :=
  if up then some endpoint else none

/-- `ldap_authenticator.cpp`, `connectToLDAP`. -/
def connectToLDAP (replicaEndpoint : String) (b : CircuitBreaker) (c : ConnectCall) :
    CircuitBreaker × ConnectReport :=
  if replicaEndpoint == "" then
    (b, ⟨c, some c.masterUp, none, connectToEndpoint .master c.masterUp⟩)
  else if b.shouldTryPrimary c.now then
    match connectToEndpoint .master c.masterUp with
    | some ld => (b.reset, ⟨c, some true, none, some ld⟩)
    | none =>
      (b.trip c.tripNow, ⟨c, some false, some c.replicaUp, connectToEndpoint .replica c.replicaUp⟩)
  else (b, ⟨c, none, some c.replicaUp, connectToEndpoint .replica c.replicaUp⟩)

/-- Calls one after the other. -/
def connects (replicaEndpoint : String) : CircuitBreaker → List ConnectCall → List ConnectReport
  | _, [] => []
  | b, c :: cs =>
    (connectToLDAP replicaEndpoint b c).2 ::
      connects replicaEndpoint (connectToLDAP replicaEndpoint b c).1 cs

/-- The breaker after the calls. -/
def breakerAfter (replicaEndpoint : String) (b : CircuitBreaker) (cs : List ConnectCall) :
    CircuitBreaker :=
  cs.foldl (fun b c => (connectToLDAP replicaEndpoint b c).1) b

section Run

variable {replicaEndpoint : String}

/-- The three ways a call goes when there is a replica. -/
theorem connectToLDAP_cases (hr : replicaEndpoint ≠ "") (b : CircuitBreaker) (c : ConnectCall) :
    (b.downUntil ≤ c.now ∧
        connectToLDAP replicaEndpoint b c = (b.reset, ⟨c, some true, none, some .master⟩)) ∨
      (b.downUntil ≤ c.now ∧
        connectToLDAP replicaEndpoint b c = (b.trip c.tripNow,
          ⟨c, some false, some c.replicaUp, connectToEndpoint .replica c.replicaUp⟩)) ∨
      (c.now < b.downUntil ∧
        connectToLDAP replicaEndpoint b c =
          (b, ⟨c, none, some c.replicaUp, connectToEndpoint .replica c.replicaUp⟩)) := by
  unfold connectToLDAP
  rw [if_neg (by simpa using hr)]
  by_cases hdown : b.downUntil ≤ c.now
  · have htry : b.shouldTryPrimary c.now = true := decide_eq_true hdown
    rw [if_pos htry]
    by_cases hup : c.masterUp = true
    · exact .inl ⟨hdown, by simp [connectToEndpoint, hup]⟩
    · exact .inr (.inl ⟨hdown, by simp [connectToEndpoint, hup]⟩)
  · have htry : ¬b.shouldTryPrimary c.now = true := by simpa [CircuitBreaker.shouldTryPrimary] using hdown
    rw [if_neg htry]
    exact .inr (.inr ⟨not_le.mp hdown, rfl⟩)

/-- Each report of a run is that of a call made on what the earlier ones left. -/
theorem connects_split {b : CircuitBreaker} {cs : List ConnectCall}
    {before later : List ConnectReport} {e : ConnectReport}
    (h : connects replicaEndpoint b cs = before ++ e :: later) :
    ∃ cs₁ c cs₂, cs = cs₁ ++ c :: cs₂ ∧ before = connects replicaEndpoint b cs₁ ∧
      e = (connectToLDAP replicaEndpoint (breakerAfter replicaEndpoint b cs₁) c).2 := by
  induction cs generalizing b before with
  | nil =>
    have hlength := congrArg List.length h
    simp [connects] at hlength
  | cons c cs ih =>
    rw [connects] at h
    cases before with
    | nil =>
      have heq := List.cons.inj h
      exact ⟨[], c, cs, rfl, rfl, heq.1.symm⟩
    | cons e₀ before =>
      have heq := List.cons.inj h
      obtain ⟨cs₁, c', cs₂, hcs, hbefore, he⟩ := ih heq.2
      refine ⟨c :: cs₁, c', cs₂, by rw [hcs]; rfl, ?_, he⟩
      rw [connects, ← hbefore, heq.1]

/-! ### What the deadline stands for -/

/-- What the reports so far say of the breaker. -/
structure Kept (b : CircuitBreaker) (past : List ConnectReport) : Prop where
  /-- Only a failed probe sets a deadline. -/
  cause : b.downUntil = 0 ∨ ∃ e ∈ past, e.Failed ∧ b.downUntil = e.call.tripNow + b.cooldown
  /-- The cooldown of a failed probe is within the deadline, or it was over at
  a later call. -/
  spaced : ∀ e ∈ past, e.Failed → e.call.tripNow + b.cooldown ≤ b.downUntil ∨
    ∃ e' ∈ past, e.call.tripNow + b.cooldown ≤ e'.call.now
  /-- A probe that succeeded clears the deadline until the next that fails. -/
  recovered : ∀ (before : List ConnectReport) (e : ConnectReport) (later : List ConnectReport),
    past = before ++ e :: later → e.Succeeded → (∀ x ∈ later, ¬x.Failed) → b.downUntil = 0

/-- The last of the reports after a given one. -/
theorem append_singleton_split {past before later : List ConnectReport} {e e' : ConnectReport}
    (h : past ++ [e'] = before ++ e :: later) :
    (e = e' ∧ later = []) ∨ ∃ later', later = later' ++ [e'] ∧ past = before ++ e :: later' := by
  by_cases hlater : later = []
  · rw [hlater] at h
    have heq := List.append_inj_right' h rfl
    exact .inl ⟨(List.cons.inj heq).1.symm, hlater⟩
  · have hsplit := List.dropLast_concat_getLast hlater
    rw [← hsplit, ← List.cons_append, ← List.append_assoc] at h
    have hpast := List.append_inj_left' h rfl
    have hlast := (List.cons.inj (List.append_inj_right' h rfl)).1
    exact .inr ⟨later.dropLast, by rw [hlast, hsplit], hpast⟩

/-- One call keeps the account. -/
theorem Kept.connectToLDAP (hr : replicaEndpoint ≠ "") {b : CircuitBreaker}
    {past : List ConnectReport} (h : Kept b past) (c : ConnectCall) :
    Kept (connectToLDAP replicaEndpoint b c).1 (past ++ [(connectToLDAP replicaEndpoint b c).2]) := by
  have hold : ∀ {P : ConnectReport → Prop} {e : ConnectReport}, (∃ e ∈ past, P e) →
      ∃ e' ∈ past ++ [e], P e' := by
    intro P e hex
    obtain ⟨e', he', hp⟩ := hex
    exact ⟨e', List.mem_append_left _ he', hp⟩
  -- a probe was made, so no cooldown of an earlier failure is still running
  have hover : b.downUntil ≤ c.now → ∀ e' : ConnectReport, e'.call = c → ∀ e ∈ past, e.Failed →
      ∃ e'' ∈ past ++ [e'], e.call.tripNow + b.cooldown ≤ e''.call.now := by
    intro hdown e' hcall e he hfailed
    rcases h.spaced e he hfailed with hle | hex
    · have hnow : e.call.tripNow + b.cooldown ≤ e'.call.now := by
        rw [hcall]
        exact le_trans hle hdown
      exact ⟨e', List.mem_append_right _ List.mem_cons_self, hnow⟩
    · exact hold hex
  rcases connectToLDAP_cases hr b c with ⟨hdown, heq⟩ | ⟨hdown, heq⟩ | ⟨hdown, heq⟩
  · rw [heq]
    refine ⟨.inl rfl, fun e he hfailed => ?_, fun _ _ _ _ _ _ => rfl⟩
    rcases List.mem_append.mp he with he | he
    · exact .inr (hover hdown _ rfl e he hfailed)
    · rw [List.mem_singleton.mp he] at hfailed
      exact absurd hfailed (by simp [ConnectReport.Failed])
  · rw [heq]
    refine ⟨.inr ⟨_, List.mem_append_right _ List.mem_cons_self, rfl, rfl⟩, fun e he hfailed => ?_, ?_⟩
    · rcases List.mem_append.mp he with he | he
      · exact .inr (hover hdown _ rfl e he hfailed)
      · rw [List.mem_singleton.mp he]
        exact .inl (le_refl _)
    · intro before e later hpast hok hlater
      rcases append_singleton_split hpast with ⟨he, _⟩ | ⟨later', hlater', _⟩
      · rw [he] at hok
        exact absurd hok (by simp [ConnectReport.Succeeded])
      · have hlast := hlater _ (by rw [hlater']; exact List.mem_append_right _ List.mem_cons_self)
        exact absurd rfl hlast
  · rw [heq]
    refine ⟨h.cause.imp id hold, fun e he hfailed => ?_, ?_⟩
    · rcases List.mem_append.mp he with he | he
      · exact (h.spaced e he hfailed).imp id hold
      · rw [List.mem_singleton.mp he] at hfailed
        exact absurd hfailed (by simp [ConnectReport.Failed])
    · intro before e later hpast hok hlater
      rcases append_singleton_split hpast with ⟨he, _⟩ | ⟨later', hlater', hpast'⟩
      · rw [he] at hok
        exact absurd hok (by simp [ConnectReport.Succeeded])
      · refine h.recovered before e later' hpast' hok fun x hx => hlater x ?_
        rw [hlater']
        exact List.mem_append_left _ hx

/-- And so does a run of calls. -/
theorem Kept.connects (hr : replicaEndpoint ≠ "") {b : CircuitBreaker} {past : List ConnectReport}
    (h : Kept b past) (cs : List ConnectCall) :
    Kept (breakerAfter replicaEndpoint b cs) (past ++ connects replicaEndpoint b cs) := by
  induction cs generalizing b past with
  | nil =>
    rw [HttpBridge.connects, List.append_nil]
    exact h
  | cons c cs ih =>
    have hstep := ih (h.connectToLDAP hr c)
    rw [List.append_assoc] at hstep
    exact hstep

theorem kept_initially (cooldown : ℚ) : Kept { cooldown := cooldown } [] :=
  ⟨.inl rfl, fun _ he => absurd he List.not_mem_nil, fun _ _ _ h => absurd h (by simp)⟩

@[simp] theorem breakerAfter_cooldown (hr : replicaEndpoint ≠ "") (b : CircuitBreaker)
    (cs : List ConnectCall) : (breakerAfter replicaEndpoint b cs).cooldown = b.cooldown := by
  induction cs generalizing b with
  | nil => rfl
  | cons c cs ih =>
    have hstep : (HttpBridge.connectToLDAP replicaEndpoint b c).1.cooldown = b.cooldown := by
      rcases connectToLDAP_cases hr b c with ⟨_, heq⟩ | ⟨_, heq⟩ | ⟨_, heq⟩
      · rw [heq]
        rfl
      · rw [heq]
        rfl
      · rw [heq]
    exact (ih _).trans hstep

end Run

/-! ### The laws of a run -/

def ConnectCall.readings (c : ConnectCall) : List ℚ := [c.now, c.tripNow]

/-- The clock starts from 0 and does not go back. -/
def Clocked (cs : List ConnectCall) : Prop :=
  (0 :: cs.flatMap ConnectCall.readings).Pairwise (· ≤ ·)

theorem Clocked.nonneg {cs : List ConnectCall} (h : Clocked cs) {c : ConnectCall} (hc : c ∈ cs) :
    0 ≤ c.now :=
  List.rel_of_pairwise_cons h (List.mem_flatMap.mpr ⟨c, hc, List.mem_cons_self⟩)

/-- Readings of an earlier call are no later. -/
theorem Clocked.le {cs₁ cs₂ : List ConnectCall} {c c' : ConnectCall}
    (h : Clocked (cs₁ ++ c' :: cs₂)) (hc : c ∈ cs₁) : c.now ≤ c'.now ∧ c.tripNow ≤ c'.now := by
  have hpairs := (List.pairwise_cons.mp h).2
  rw [List.flatMap_append, List.pairwise_append] at hpairs
  have hle : ∀ t ∈ c.readings, t ≤ c'.now := fun t ht =>
    hpairs.2.2 t (List.mem_flatMap.mpr ⟨c, hc, ht⟩) c'.now
      (List.mem_flatMap.mpr ⟨c', List.mem_cons_self, List.mem_cons_self⟩)
  exact ⟨hle _ List.mem_cons_self, hle _ (List.mem_cons_of_mem _ List.mem_cons_self)⟩

theorem mem_of_mem_connects {replicaEndpoint : String} (hr : replicaEndpoint ≠ "")
    {b : CircuitBreaker} {cs : List ConnectCall} {e : ConnectReport}
    (h : e ∈ connects replicaEndpoint b cs) : e.call ∈ cs := by
  induction cs generalizing b with
  | nil => exact absurd h List.not_mem_nil
  | cons c cs ih =>
    rw [connects, List.mem_cons] at h
    rcases h with he | he
    · have hcall : e.call = c := by
        rcases connectToLDAP_cases hr b c with ⟨_, heq⟩ | ⟨_, heq⟩ | ⟨_, heq⟩
        · rw [he, heq]
        · rw [he, heq]
        · rw [he, heq]
      rw [hcall]
      exact List.mem_cons_self
    · exact List.mem_cons_of_mem _ (ih he)

section Laws

variable {replicaEndpoint : String} (hr : replicaEndpoint ≠ "") {cooldown : ℚ}
  {cs : List ConnectCall} (hclock : Clocked cs)
include hr hclock

/-- Two failed probes are at least a cooldown apart: from the end of the first
to the beginning of the second. -/
theorem failed_probes_spaced {before between later : List ConnectReport} {e e' : ConnectReport}
    (h : connects replicaEndpoint { cooldown := cooldown } cs =
      (before ++ e :: between) ++ e' :: later)
    (he : e.Failed) (he' : e'.Failed) : cooldown ≤ e'.call.now - e.call.tripNow := by
  obtain ⟨cs₁, c, cs₂, hcs, hbefore, hreport⟩ := connects_split h
  have hkept := (kept_initially cooldown).connects hr cs₁
  rw [List.nil_append, ← hbefore] at hkept
  set b := breakerAfter replicaEndpoint { cooldown := cooldown } cs₁ with hb
  have hcool : b.cooldown = cooldown := breakerAfter_cooldown hr _ cs₁
  have hpast : e ∈ before ++ e :: between := List.mem_append_right _ List.mem_cons_self
  -- the second probe was made, so the deadline was over
  have hprobe : b.downUntil ≤ c.now ∧ e'.call = c := by
    rcases connectToLDAP_cases hr b c with ⟨hdown, heq⟩ | ⟨hdown, heq⟩ | ⟨_, heq⟩
    · exact ⟨hdown, by rw [hreport, heq]⟩
    · exact ⟨hdown, by rw [hreport, heq]⟩
    · rw [hreport, heq] at he'
      exact absurd he' (by simp [ConnectReport.Failed])
  have hle : e.call.tripNow + b.cooldown ≤ c.now := by
    rcases hkept.spaced e hpast he with hle | ⟨e'', hmem, hle⟩
    · exact le_trans hle hprobe.1
    · rw [hbefore] at hmem
      have hcall := mem_of_mem_connects hr hmem
      rw [hcs] at hclock
      exact le_trans hle (hclock.le hcall).1
  rw [hprobe.2]
  linarith

/-- The replica is contacted after a probe that failed in the same call or less
than a cooldown ago. -/
theorem replica_after_failure {before later : List ConnectReport} {e : ConnectReport}
    (h : connects replicaEndpoint { cooldown := cooldown } cs = before ++ e :: later)
    (he : e.replica.isSome) :
    e.Failed ∨ ∃ e' ∈ before, e'.Failed ∧ e.call.now - e'.call.tripNow < cooldown := by
  obtain ⟨cs₁, c, cs₂, hcs, hbefore, hreport⟩ := connects_split h
  have hkept := (kept_initially cooldown).connects hr cs₁
  rw [List.nil_append, ← hbefore] at hkept
  set b := breakerAfter replicaEndpoint { cooldown := cooldown } cs₁ with hb
  have hcool : b.cooldown = cooldown := breakerAfter_cooldown hr _ cs₁
  rcases connectToLDAP_cases hr b c with ⟨_, heq⟩ | ⟨_, heq⟩ | ⟨hdown, heq⟩
  · rw [hreport, heq] at he
    exact absurd he (by simp)
  · exact .inl (by rw [hreport, heq]; rfl)
  · right
    have hcall : e.call = c := by rw [hreport, heq]
    rcases hkept.cause with hzero | ⟨e', hmem, hfailed, hset⟩
    · have hpos : 0 ≤ c.now := hclock.nonneg (by rw [hcs]; simp)
      linarith
    · refine ⟨e', hmem, hfailed, ?_⟩
      rw [hcall]
      linarith

/-- Once the master has answered, it is probed until a probe fails. -/
theorem probes_after_success {before between later : List ConnectReport} {e e' : ConnectReport}
    (h : connects replicaEndpoint { cooldown := cooldown } cs =
      (before ++ e :: between) ++ e' :: later)
    (he : e.Succeeded) (hbetween : ∀ x ∈ between, ¬x.Failed) : e'.master.isSome := by
  obtain ⟨cs₁, c, cs₂, hcs, hbefore, hreport⟩ := connects_split h
  have hkept := (kept_initially cooldown).connects hr cs₁
  rw [List.nil_append, ← hbefore] at hkept
  have hzero := hkept.recovered before e between rfl he hbetween
  have hpos : 0 ≤ c.now := hclock.nonneg (by rw [hcs]; simp)
  rcases connectToLDAP_cases hr (breakerAfter replicaEndpoint { cooldown := cooldown } cs₁) c with
    ⟨_, heq⟩ | ⟨_, heq⟩ | ⟨hdown, heq⟩
  · rw [hreport, heq]
    rfl
  · rw [hreport, heq]
    rfl
  · linarith

end Laws

/-- No connection means the replica gave none. -/
theorem no_connection {replicaEndpoint : String} (hr : replicaEndpoint ≠ "") {b : CircuitBreaker}
    {cs : List ConnectCall} {e : ConnectReport} (h : e ∈ connects replicaEndpoint b cs)
    (he : e.connection = none) : e.replica = some false := by
  obtain ⟨before, later, hsplit⟩ := List.append_of_mem h
  obtain ⟨cs₁, c, cs₂, _, _, hreport⟩ := connects_split hsplit
  rcases connectToLDAP_cases hr (breakerAfter replicaEndpoint b cs₁) c with
    ⟨_, heq⟩ | ⟨_, heq⟩ | ⟨_, heq⟩
  · rw [hreport, heq] at he
    exact absurd he (by simp)
  · rw [hreport, heq] at he ⊢
    by_cases hup : c.replicaUp = true
    · exact absurd he (by simp [connectToEndpoint, hup])
    · simpa using hup
  · rw [hreport, heq] at he ⊢
    by_cases hup : c.replicaUp = true
    · exact absurd he (by simp [connectToEndpoint, hup])
    · simpa using hup

/-- Failed probes are a cooldown apart, the replica is contacted only on account
of one, a call comes back without a connection only when the replica gave none,
and a master that has answered is the one that is asked. -/
theorem failover_discipline {replicaEndpoint : String} (hr : replicaEndpoint ≠ "") (cooldown : ℚ)
    (cs : List ConnectCall) (hclock : Clocked cs) (reports : List ConnectReport)
    (hrun : reports = connects replicaEndpoint { cooldown := cooldown } cs) :
    (∀ (before between later : List ConnectReport) (e e' : ConnectReport),
        reports = (before ++ e :: between) ++ e' :: later →
        e.Failed → e'.Failed → cooldown ≤ e'.call.now - e.call.tripNow) ∧
      (∀ (before later : List ConnectReport) (e : ConnectReport),
        reports = before ++ e :: later → e.replica.isSome →
        e.Failed ∨ ∃ e' ∈ before, e'.Failed ∧ e.call.now - e'.call.tripNow < cooldown) ∧
      (∀ e ∈ reports, e.connection = none → e.replica = some false) ∧
      (∀ (before between later : List ConnectReport) (e e' : ConnectReport),
        reports = (before ++ e :: between) ++ e' :: later →
        e.Succeeded → (∀ x ∈ between, ¬x.Failed) → e'.master.isSome) := by
  subst hrun
  refine ⟨?_, ?_, ?_, ?_⟩
  · intro before between later e e' h he he'
    exact failed_probes_spaced hr hclock h he he'
  · intro before later e h he
    exact replica_after_failure hr hclock h he
  · intro e he hnone
    exact no_connection hr he hnone
  · intro before between later e e' h he hbetween
    exact probes_after_success hr hclock h he hbetween

/-- The master fails at 0, is left alone at 9 and answers at 10. -/
def anOutage : List ConnectCall :=
  [⟨0, 0, false, true⟩, ⟨9, 9, true, true⟩, ⟨10, 10, true, false⟩, ⟨11, 11, false, false⟩]

theorem failover_discipline_anOutage :
    (connects "ldap://replica" { cooldown := 10 } anOutage).map (·.master) =
        [some false, none, some true, some false] ∧
      (10 : ℚ) ≤ 11 - 0 := by
  have hclock : Clocked anOutage := by
    simp [Clocked, anOutage, ConnectCall.readings]
    norm_num
  have hr : "ldap://replica" ≠ "" := by decide
  refine ⟨by decide +kernel, ?_⟩
  exact (failover_discipline hr 10 anOutage hclock _ rfl).1 []
    [⟨⟨9, 9, true, true⟩, none, some true, some .replica⟩,
      ⟨⟨10, 10, true, false⟩, some true, none, some .master⟩] []
    ⟨⟨0, 0, false, true⟩, some false, some true, some .replica⟩
    ⟨⟨11, 11, false, false⟩, some false, some false, none⟩ (by decide +kernel) rfl rfl

end HttpBridge
