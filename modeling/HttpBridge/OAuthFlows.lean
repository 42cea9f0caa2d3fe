/-
# Sign-ins with a provider

A sign-in is two requests: `oauthStart` draws a state, keeps under it what the
callback must not take from the browser (`OAuthState`), and sends the browser to
the provider; `oauthCallback` takes what is kept under the state it is called
with and completes the sign-in. What is pending lies in a store of the process
(`oauth_state_store.h`), which any number of requests share.

The store is a `OneShot`. So with states that are distinct a token is minted for
one start at most, by one callback at most, with what that start kept, while the
start was in time; and a pending sign-in can be completed whatever other requests
do (`flows_bound`).
-/
import HttpBridge.Interact.OneShot
import HttpBridge.Interact.Sum
import HttpBridge.ReturnUrls

namespace HttpBridge

open Interact

/-! ### The store -/

structure FlowConfig extends Config where
  oauthReturnAllowlist : String := ""
  oauthStateTtl : ℤ := 300

/-- What a start does besides what a callback does. -/
inductive StateOp where
  | randomCodeVerifier
  | randomToken
  | steadyNow
  | statesInsert (state : String) (st : OAuthState) (expiry : ℤ)

abbrev StateOp.Ans : StateOp → Type
  | .randomCodeVerifier => String
  | .randomToken => String
  | .steadyNow => ℤ
  | .statesInsert .. => Unit

abbrev FlowOp := Op ⊕ StateOp

abbrev FlowAns : FlowOp → Type := Sum.elim Op.Ans StateOp.Ans

abbrev Flow (α : Type) := Prog FlowOp FlowAns α

abbrev performState (op : StateOp) : Flow op.Ans :=
  (Prog.perform (Sum.inr op) : Flow (FlowAns (Sum.inr op)))

/-- The process: its steady clock and its pending sign-ins, each with its expiry. -/
structure FlowWorld where
  clock : ℤ := 0
  states : String → Option (OAuthState × ℤ) := fun _ => none

/-- What a step leaves open: a random text, and what is answered from outside. -/
structure FlowWeather where
  random : String := ""
  reply : (op : Op) → op.Ans := Weather.fair.reply

namespace FlowWorld

/-- `sweepLocked`. -/
def sweepLocked (w : FlowWorld) : String → Option (OAuthState × ℤ) := fun state =>
  (w.states state).filter fun e => w.clock < e.2

/-- The end of `create`, under the lock. -/
def insert (w : FlowWorld) (state : String) (st : OAuthState) (expiry : ℤ) : FlowWorld :=
  { w with states := Function.update w.sweepLocked state (some (st, expiry)) }

/-- `consume`. -/
def consume (w : FlowWorld) (state : String) : Option OAuthState × FlowWorld :=
  (((w.states state).filter fun e => w.clock < e.2).map Prod.fst,
    { w with states := Function.update w.states state none })

def step (w : FlowWorld) (op : FlowOp) (c : FlowWeather) : FlowAns op × FlowWorld :=
  match op with
  | .inl (.oauthConsume state) => w.consume state
  | .inl op => (c.reply op, w)
  | .inr .randomCodeVerifier => (c.random, w)
  | .inr .randomToken => (c.random, w)
  | .inr .steadyNow => (w.clock, w)
  | .inr (.statesInsert state st expiry) => ((), w.insert state st expiry)

def system : System FlowWorld FlowOp FlowAns FlowWeather where
  step w _ op c := w.step op c
  tick w d := { w with clock := w.clock + d }

end FlowWorld

/-! ### The endpoints -/

/-- `OAuthStateStore::create`. -/
def createState (ttl : ℤ) (st : OAuthState) : Flow String := do
  let state ← performState .randomToken
  let now ← performState .steadyNow
  performState (.statesInsert state st (now + ttl))
  return state

inductive FlowAnswer where
  | response (resp : Response)
  /-- The redirect to the provider, with the parameters of its address. -/
  | authorize (provider state challenge nonce : String)

/-- The address a sign-in ends at: the one asked for, else the first of the list. -/
def returnTarget (allowlist returnTo : String) : String :=
  if returnTo == "" then ((splitString allowlist ',').head?.map trim).getD "" else returnTo

/-- `oauthStart`; `pkceChallengeS256` is the hash of a verifier. -/
def oauthStart (cfg : FlowConfig) (pkceChallengeS256 : String → String) (req : Request)
    (provider returnTo : String) : Flow FlowAnswer :=
  if (cfg.oauthProviders.lookup provider).isNone then
    return .response (sendError 404 "unknown provider")
  else
    let target := returnTarget cfg.oauthReturnAllowlist returnTo
    if target == "" || !returnUrlAllowed cfg.oauthReturnAllowlist target then
      return .response (sendError 400 "return_to not allowed")
    else do
      let verifier ← performState .randomCodeVerifier
      let nonce ← performState .randomCodeVerifier
      let tenant := requestTenant cfg.toConfig req
      let state ← createState cfg.oauthStateTtl ⟨provider, verifier, nonce, tenant, target⟩
      return .authorize provider state (pkceChallengeS256 verifier) nonce

inductive FlowRequest where
  | start (req : Request) (provider returnTo : String)
  | callback (req : Request) (provider code state idpError : String)

def serveFlow (cfg : FlowConfig) (pkceChallengeS256 : String → String) : FlowRequest → Flow FlowAnswer
  | .start req provider returnTo => oauthStart cfg pkceChallengeS256 req provider returnTo
  | .callback req provider code state idpError =>
    (FlowAnswer.response <$> oauthCallback cfg.toConfig req provider code state idpError).inl

/-! ### The store, as a one-shot store -/

/-- The entry an operation stores. -/
def FlowOp.put : FlowOp → Option (String × OAuthState × ℤ)
  | .inr (.statesInsert state st expiry) => some (state, st, expiry)
  | _ => none

/-- The state an operation consumes. -/
def FlowOp.take : FlowOp → Option String
  | .inl (.oauthConsume state) => some state
  | _ => none

/-- The entry an event consumes. -/
def taken : Event FlowAns → Option (String × OAuthState)
  | ⟨.inl (.oauthConsume state), o⟩ => o.map fun st => (state, st)
  | _ => none

theorem put_eq_some {op : FlowOp} {state : String} {st : OAuthState} {u : ℤ} :
    op.put = some (state, st, u) ↔ op = .inr (.statesInsert state st u) := by
  constructor
  · intro h
    unfold FlowOp.put at h
    split at h
    · cases h
      rfl
    · cases h
  · rintro rfl
    rfl

theorem take_eq_some {op : FlowOp} {state : String} :
    op.take = some state ↔ op = .inl (.oauthConsume state) := by
  constructor
  · intro h
    unfold FlowOp.take at h
    split at h
    · cases h
      rfl
    · cases h
  · rintro rfl
    rfl

theorem taken_eq_some {e : Event FlowAns} {state : String} {st : OAuthState} :
    taken e = some (state, st) ↔ e = (⟨.oauthConsume state, some st⟩ : Event Op.Ans).inl := by
  constructor
  · intro h
    unfold taken at h
    split at h
    · obtain ⟨st', rfl, heq⟩ := Option.map_eq_some_iff.mp h
      cases heq
      rfl
    · cases h
  · rintro rfl
    rfl

/-- The pending sign-ins. -/
def stateStore : OneShot FlowWorld.system String OAuthState where
  clock := FlowWorld.clock
  pending := FlowWorld.states
  put := FlowOp.put
  take := FlowOp.take
  taken := taken
  clock_step w t op c := by
    rcases op with op | op
    · cases op <;> rfl
    · cases op <;> rfl
  clock_tick w d := by
    show w.clock ≤ w.clock + d
    omega
  pending_tick _ _ _ := rfl
  put_step w t op c k v u h := by
    rw [put_eq_some.mp h]
    exact Function.update_self ..
  keep_step w t op c k v u hp hu htake hput := by
    rcases op with op | op
    · cases op with
      | oauthConsume state =>
        have hne : k ≠ state := fun he => htake (by rw [he]; rfl)
        show Function.update w.states state none k = _
        rw [Function.update_of_ne hne]
        exact hp
      | _ => exact hp
    · cases op with
      | statesInsert state st expiry =>
        have hne : k ≠ state := fun he => hput st expiry (by rw [he]; rfl)
        show Function.update w.sweepLocked state (some (st, expiry)) k = _
        rw [Function.update_of_ne hne, FlowWorld.sweepLocked, hp]
        simpa using hu
      | _ => exact hp
  origin_step w t op c k v u hp := by
    rcases op with op | op
    · cases op with
      | oauthConsume state =>
        change Function.update w.states state none k = _ at hp
        by_cases hk : k = state
        · rw [hk, Function.update_self] at hp
          cases hp
        · rw [Function.update_of_ne hk] at hp
          exact .inr ⟨hp, fun h => hk (Option.some.inj h).symm⟩
      | _ => exact .inr ⟨hp, nofun⟩
    · cases op with
      | statesInsert state st expiry =>
        change Function.update w.sweepLocked state (some (st, expiry)) k = _ at hp
        by_cases hk : k = state
        · subst hk
          rw [Function.update_self] at hp
          cases hp
          exact .inl rfl
        · rw [Function.update_of_ne hk, FlowWorld.sweepLocked] at hp
          exact .inr ⟨(Option.filter_eq_some_iff.mp hp).1, nofun⟩
      | _ => exact .inr ⟨hp, nofun⟩
  taken_step w t op c k v := by
    rw [taken_eq_some]
    have hconsume : (w.consume k).1 = some v ↔ ∃ u, w.states k = some (v, u) ∧ w.clock < u := by
      simp [FlowWorld.consume, Option.filter_eq_some_iff]
    constructor
    · intro h
      obtain rfl : op = .inl (.oauthConsume k) := congrArg Event.op h
      exact ⟨rfl, hconsume.mp (eq_of_heq (Event.mk.inj h).2)⟩
    · rintro ⟨htake, hpending⟩
      rw [take_eq_some.mp htake]
      exact congrArg (fun o : Option OAuthState => (⟨.inl (.oauthConsume k), o⟩ : Event FlowAns))
        (hconsume.mpr hpending)

/-! ### Starts -/

/-- The events of a start that stores `st` under `state`. -/
def startTrace (st : OAuthState) (state : String) (now ttl : ℤ) : List (Event FlowAns) :=
  [⟨.inr .randomCodeVerifier, st.codeVerifier⟩, ⟨.inr .randomCodeVerifier, st.nonce⟩,
    ⟨.inr .randomToken, state⟩, ⟨.inr .steadyNow, now⟩,
    ⟨.inr (.statesInsert state st (now + ttl)), ()⟩]

/-- What a start has stored, and when. -/
structure Stores (cfg : FlowConfig) (req : Request) (provider returnTo : String)
    (T : List (Event FlowAns)) (state : String) (st : OAuthState) (expiry : ℤ) : Prop where
  events : ∃ now, expiry = now + cfg.oauthStateTtl ∧ T = startTrace st state now cfg.oauthStateTtl
  provider : st.provider = provider
  tenant : st.tenant = requestTenant cfg.toConfig req
  target : st.returnTo = returnTarget cfg.oauthReturnAllowlist returnTo
  allowed : returnUrlAllowed cfg.oauthReturnAllowlist st.returnTo = true

variable {cfg : FlowConfig} {S256 : String → String}

theorem oauthStart_reaches {req : Request} {provider returnTo : String} {T : List (Event FlowAns)}
    {q : Flow FlowAnswer} (h : (oauthStart cfg S256 req provider returnTo).Reaches T q) :
    (∀ e ∈ T, FlowOp.put e.op = none) ∨
      ∃ state st expiry, Stores cfg req provider returnTo T state st expiry := by
  have hret : ∀ {a : FlowAnswer} {T : List (Event FlowAns)},
      (pure a : Flow FlowAnswer).Reaches T q → ∀ e ∈ T, FlowOp.put e.op = none := by
    intro a T hr
    obtain ⟨rfl, -⟩ := (Prog.ret_reaches _ _ _).mp hr
    simp
  unfold oauthStart at h
  split at h
  · exact .inl (hret h)
  dsimp only at h
  split at h
  · exact .inl (hret h)
  next hallowed =>
  rcases T with _ | ⟨e, T⟩
  · exact .inl (by simp)
  obtain ⟨v, rfl, h⟩ := h
  rcases T with _ | ⟨e, T⟩
  · exact .inl (by simp [FlowOp.put])
  obtain ⟨n, rfl, h⟩ := h
  rcases T with _ | ⟨e, T⟩
  · exact .inl (by simp [FlowOp.put])
  obtain ⟨state, rfl, h⟩ := h
  rcases T with _ | ⟨e, T⟩
  · exact .inl (by simp [FlowOp.put])
  obtain ⟨now, rfl, h⟩ := h
  rcases T with _ | ⟨e, T⟩
  · exact .inl (by simp [FlowOp.put])
  obtain ⟨⟨⟩, rfl, h⟩ := h
  obtain ⟨rfl, -⟩ := (Prog.ret_reaches _ _ _).mp h
  have htarget : returnUrlAllowed cfg.oauthReturnAllowlist
      (returnTarget cfg.oauthReturnAllowlist returnTo) = true := by
    rw [Bool.or_eq_true, not_or] at hallowed
    simpa using hallowed.2
  exact .inr ⟨state, ⟨provider, v, n, requestTenant cfg.toConfig req, _⟩, _, ⟨now, rfl, rfl⟩,
    rfl, rfl, rfl, htarget⟩

/-! ### Distinct states -/

/-- The state an event has drawn. -/
def generated : Event FlowAns → Option String
  | ⟨.inr .randomToken, state⟩ => some state
  | _ => none

/-- The states that were drawn are distinct. -/
def DistinctStates (l : List (Step FlowWorld FlowAns)) : Prop :=
  (l.filterMap fun x => generated x.event).Nodup

/-- Two steps that have drawn the same state are one. -/
theorem DistinctStates.eq {l : List (Step FlowWorld FlowAns)} (h : DistinctStates l)
    {x y : Step FlowWorld FlowAns} (hx : x ∈ l) (hy : y ∈ l) {state : String}
    (hgx : generated x.event = some state) (hgy : generated y.event = some state) : x = y := by
  by_contra hne
  have hpair := List.pairwise_filterMap.mp h
  have hsymm : Std.Symm fun x y : Step FlowWorld FlowAns => ∀ s, generated x.event = some s →
      ∀ s', generated y.event = some s' → s ≠ s' :=
    ⟨fun _ _ h s hs s' hs' => (h s' hs' s hs).symm⟩
  exact hpair.forall hx hy hne state hgx state hgy rfl

/-- What a request about to store an entry has done: it has drawn the state, and
stored nothing. -/
def StoresFresh (tr : List (Event FlowAns)) (op : FlowOp) : Prop :=
  ∀ state st u, FlowOp.put op = some (state, st, u) →
    (⟨.inr .randomToken, state⟩ : Event FlowAns) ∈ tr ∧ ∀ e ∈ tr, FlowOp.put e.op = none

theorem serveFlow_stores (rq : FlowRequest) : (serveFlow cfg S256 rq).Every StoresFresh := by
  intro tr op k hr state st u hput
  cases rq with
  | callback req provider code state idpError =>
    obtain ⟨-, q', hq, -⟩ := Prog.reaches_inl hr
    cases q' with
    | ret a => cases hq
    | call op' k' =>
      cases hq
      cases hput
  | start req provider returnTo =>
    unfold FlowOp.put at hput
    split at hput
    · cases hput
      rcases oauthStart_reaches (hr.snoc ()) with hnone | ⟨state', st', u', hstores⟩
      · have := hnone _ (List.mem_append_right tr (List.mem_singleton.mpr rfl))
        cases this
      · obtain ⟨now, -, htr⟩ := hstores.events
        have hlast : startTrace st' state' now cfg.oauthStateTtl =
          (startTrace st' state' now cfg.oauthStateTtl).dropLast ++
            [⟨.inr (.statesInsert state' st' (now + cfg.oauthStateTtl)), ()⟩] := rfl
        obtain ⟨hbefore, hop⟩ := List.append_inj' (htr.trans hlast) rfl
        cases hop
        rw [hbefore]
        exact ⟨by simp [startTrace], by simp [startTrace, FlowOp.put]⟩
    · cases hput

/-- **No state is used twice.** -/
theorem putOnce (w₀ : FlowWorld) (ms : List (Move FlowRequest FlowWeather))
    (h : DistinctStates (Pool.run FlowWorld.system (serveFlow cfg S256) w₀ ms).log) :
    stateStore.PutOnce (Pool.run FlowWorld.system (serveFlow cfg S256) w₀ ms).log := by
  refine (Pool.run_invariant FlowWorld.system (serveFlow cfg S256) w₀ serveFlow_stores
    (J := fun _ l => (∀ x ∈ l, ∀ state st u, FlowOp.put x.event.op = some (state, st, u) →
        (⟨.inr .randomToken, state⟩ : Event FlowAns) ∈ trace x.thread l) ∧
      (DistinctStates l → stateStore.PutOnce l)) ?_ ?_ ?_ ms).2 h
  · exact ⟨by simp, fun _ => .nil⟩
  · exact fun _ _ _ h => h
  · rintro w l t op c ⟨hdrawn, honce⟩ hfresh
    have hgrow : ∀ t' e, e ∈ trace t' l → e ∈ trace t'
        (⟨t, w, ⟨op, (w.step op c).1⟩, (w.step op c).2⟩ :: l) := fun t' e he =>
      (trace_sublist t' (List.suffix_cons _ l)).subset he
    constructor
    · intro x hx state st u hput
      rcases List.mem_cons.mp hx with rfl | hx
      · exact hgrow _ _ (hfresh state st u hput).1
      · exact hgrow _ _ (hdrawn x hx state st u hput)
    · intro hdistinct
      have hdistinct' : DistinctStates l :=
        hdistinct.sublist (List.Sublist.filterMap _ (List.sublist_cons_self _ l))
      refine List.pairwise_cons.mpr ⟨fun x hx state st u st' u' hput hput' => ?_, honce hdistinct'⟩
      obtain ⟨htoken, hnone⟩ := hfresh state st u hput
      obtain ⟨y, hy, hyt, hye⟩ := (mem_trace t _ l).mp htoken
      obtain ⟨z, hz, hzt, hze⟩ := (mem_trace x.thread _ l).mp (hdrawn x hx state st' u' hput')
      -- both threads have drawn the state, so they are one, which has stored something
      have hyz : y = z := hdistinct'.eq hy hz (by rw [hye]; rfl) (by rw [hze]; rfl)
      have hthread : x.thread = t := by rw [← hzt, ← hyz, hyt]
      have hx' : x.event ∈ trace t l := (mem_trace t _ l).mpr ⟨x, hx, hthread, rfl⟩
      have hnone' : FlowOp.put x.event.op = none := hnone _ hx'
      change FlowOp.put x.event.op = _ at hput'
      rw [hnone'] at hput'
      cases hput'

/-! ### Callbacks -/

/-- A callback among other requests is a callback on its own. -/
theorem callback_reaches {req : Request} {provider code state idpError : String}
    {T : List (Event FlowAns)} {q : Flow FlowAnswer}
    (h : (serveFlow cfg S256 (.callback req provider code state idpError)).Reaches T q) :
    T = (lefts T).map Event.inl ∧
      ∃ p, (oauthCallback cfg.toConfig req provider code state idpError).Reaches (lefts T) p ∧
        ∀ resp, q = .ret (.response resp) → p = .ret resp := by
  obtain ⟨hT, q', rfl, hr⟩ := Prog.reaches_inl h
  refine ⟨hT, ?_⟩
  rcases (Prog.reaches_bind _ _ _ _).mp hr with ⟨p, hp, rfl⟩ | ⟨resp', tr₁, tr₂, htr, hy, hret⟩
  · refine ⟨p, hp, fun resp hq => ?_⟩
    cases p with
    | ret resp' =>
      cases hq
      rfl
    | call op k => cases hq
  · obtain ⟨rfl, rfl⟩ := (Prog.ret_reaches _ _ _).mp hret
    rw [List.append_nil] at htr
    refine ⟨.ret resp', by rw [htr]; exact hy, fun resp hq => ?_⟩
    cases hq
    rfl

section Runs

variable (cfg S256) (w₀ : FlowWorld) (ms : List (Move FlowRequest FlowWeather))

/-- The process after a run. -/
abbrev flows : Pool FlowWorld FlowAns FlowRequest FlowAnswer :=
  Pool.run FlowWorld.system (serveFlow cfg S256) w₀ ms

/-- The thread has drawn the identifier of a token. -/
def Draws (t : ℕ) : Prop := ∃ jti, (⟨.random, jti⟩ : Event Op.Ans) ∈ lefts (trace t (flows cfg S256 w₀ ms).log)

/-- The callback `t` has consumed, in time, what the request `s` stored at the
start of a sign-in with the provider. -/
structure Completes (provider state : String) (s t : ℕ) (st : OAuthState) (expiry : ℤ) : Prop where
  started : ∃ (req : Request) (returnTo : String) (q : Flow FlowAnswer),
    (flows cfg S256 w₀ ms).job s = some (.start req provider returnTo, q) ∧
      Stores cfg req provider returnTo (trace s (flows cfg S256 w₀ ms).log) state st expiry
  consumed : ∃ (rest mid earlier : List (Step FlowWorld FlowAns)) (x y : Step FlowWorld FlowAns),
    (flows cfg S256 w₀ ms).log = rest ++ y :: (mid ++ x :: earlier) ∧ y.thread = t ∧ y.event = (⟨.oauthConsume state, some st⟩ : Event Op.Ans).inl ∧
    x.thread = s ∧ x.event.op = .inr (.statesInsert state st expiry) ∧ y.before.clock < expiry

/-- What the callback does and answers is bound to what was stored. -/
structure BoundTo (provider : String) (t : ℕ) (q : Flow FlowAnswer) (st : OAuthState) : Prop where
  operations : ∀ e ∈ lefts (trace t (flows cfg S256 w₀ ms).log),
    (∀ state, e.op ≠ .oauthConsume state) → e.op.ofSignIn provider st
  answer : ∀ (resp : Response) (returnTo : String) (token : Claims) (expiresIn : ℤ),
    q = .ret (.response resp) → resp.body = .redirect returnTo token expiresIn → returnTo = st.returnTo ∧
      ∃ user m, Granted cfg.toConfig (lefts (trace t (flows cfg S256 w₀ ms).log)) user st.tenant
        ["oauth"] "" token m

variable {cfg S256 w₀ ms}

/-- Whoever has stored an entry is the start of a sign-in. -/
theorem start_of_put {x : Step FlowWorld FlowAns} (hx : x ∈ (flows cfg S256 w₀ ms).log)
    {state : String} {st : OAuthState} {u : ℤ} (hput : FlowOp.put x.event.op = some (state, st, u)) :
    ∃ req returnTo q,
      (flows cfg S256 w₀ ms).job x.thread = some (.start req st.provider returnTo, q) ∧
      Stores cfg req st.provider returnTo (trace x.thread (flows cfg S256 w₀ ms).log) state st u := by
  obtain ⟨later, earlier, hlog⟩ := List.append_of_mem hx
  obtain ⟨ms₁, ms₂, rq, k, c, rfl, -, -, hjob, -⟩ := Pool.run_split _ _ w₀ hlog
  obtain ⟨q, hq⟩ := Pool.run_job_append _ _ w₀ hjob ms₂
  have hr := Pool.run_reaches_some _ _ w₀ hq
  have hmem : x.event ∈ trace x.thread (flows cfg S256 w₀ (ms₂ ++ ms₁)).log :=
    (mem_trace _ _ _).mpr ⟨x, hx, rfl, rfl⟩
  cases rq with
  | callback req provider code state' idpError =>
    have hT := (callback_reaches hr).1
    rw [hT] at hmem
    obtain ⟨e, -, he⟩ := List.mem_map.mp hmem
    rw [← he] at hput
    cases hput
  | start req provider returnTo =>
    rcases oauthStart_reaches hr with hnone | ⟨state', st', u', hstores⟩
    · rw [hnone _ hmem] at hput
      cases hput
    · obtain ⟨now, rfl, hT⟩ := hstores.events
      rw [hT] at hmem
      have hlast : x.event = ⟨.inr (.statesInsert state' st' (now + cfg.oauthStateTtl)), ()⟩ := by
        simp only [startTrace, List.mem_cons, List.not_mem_nil, or_false] at hmem
        rcases hmem with h | h | h | h | h
        case inr.inr.inr.inr => exact h
        all_goals
          rw [h] at hput
          cases hput
      rw [hlast] at hput
      cases hput
      have hprovider := hstores.provider
      subst hprovider
      exact ⟨req, returnTo, q, hq, hstores⟩

/-- A callback that has drawn the identifier of a token completes a sign-in. -/
theorem Draws.completes (h₀ : ∀ state, w₀.states state = none) {t : ℕ} {req : Request}
    {provider code state idpError : String} {q : Flow FlowAnswer}
    (hjob : (flows cfg S256 w₀ ms).job t = some (.callback req provider code state idpError, q))
    (hdraws : Draws cfg S256 w₀ ms t) :
    ∃ s st expiry, Completes cfg S256 w₀ ms provider state s t st expiry ∧
      BoundTo cfg S256 w₀ ms provider t q st := by
  obtain ⟨hT, p, hr, hanswer⟩ := callback_reaches (Pool.run_reaches_some _ _ w₀ hjob)
  obtain ⟨jti, hjti⟩ := hdraws
  rcases oauthCallback_reaches hr with hnil | ⟨o, T', hcons, hrest⟩
  · rw [hnil] at hjti
    cases hjti
  have hjti' : (⟨.random, jti⟩ : Event Op.Ans) ∈ T' := by
    rw [hcons] at hjti
    rcases List.mem_cons.mp hjti with h | h
    · cases h
    · exact h
  obtain ⟨st, rfl, hprovider, hops⟩ := hrest (List.ne_nil_of_mem hjti')
  have hmem : (⟨.oauthConsume state, some st⟩ : Event Op.Ans).inl ∈
      trace t (flows cfg S256 w₀ ms).log := mem_lefts.mp (by rw [hcons]; exact .head _)
  obtain ⟨y, hy, hyt, hye⟩ := (mem_trace _ _ _).mp hmem
  obtain ⟨rest, before, hlog⟩ := List.append_of_mem hy
  have htaken : stateStore.taken y.event = some (state, st) := taken_eq_some.mpr hye
  obtain ⟨-, mid, x, earlier, u, rfl, hput, hu, -⟩ := stateStore.taken_put _ w₀ h₀ hlog htaken
  have hx : x ∈ (flows cfg S256 w₀ ms).log := by
    rw [hlog]
    simp
  obtain ⟨req', returnTo, q', hstart, hstores⟩ := start_of_put hx hput
  rw [hprovider] at hstart hstores
  have hop : x.event.op = .inr (.statesInsert state st u) := put_eq_some.mp hput
  refine ⟨x.thread, st, u, ⟨⟨req', returnTo, q', hstart, hstores⟩, rest, mid, earlier, x, y, hlog,
    hyt, hye, rfl, hop, hu⟩, ⟨fun e he hne => ?_, fun resp target token ttl hq hbody => ?_⟩⟩
  · rw [hcons] at he
    rcases List.mem_cons.mp he with rfl | he
    · exact absurd rfl (hne state)
    · exact hops e he
  · rw [hanswer resp hq] at hr
    obtain ⟨st', user, m, hconsumed, htarget, hgranted⟩ :=
      oauthCallback_redirects.of_yields hr _ _ _ hbody
    have hst : st' = st := by
      rw [hcons] at hconsumed
      rcases List.mem_cons.mp hconsumed with h | h
      · cases h
        rfl
      · exact ((hops _ h).elim id fun h => h.elim fun _ h => h).elim
    rw [hst] at htarget hgranted
    exact ⟨htarget, user, m, hgranted⟩

/-- A state was stored by one start. -/
theorem Completes.start_unique
    (hdistinct : DistinctStates (flows cfg S256 w₀ ms).log) {provider provider' state : String}
    {s s' t t' : ℕ} {st st' : OAuthState} {e e' : ℤ}
    (h : Completes cfg S256 w₀ ms provider state s t st e)
    (h' : Completes cfg S256 w₀ ms provider' state s' t' st' e') : s = s' := by
  have hdrawn : ∀ {provider s t st e}, Completes cfg S256 w₀ ms provider state s t st e →
      (⟨.inr .randomToken, state⟩ : Event FlowAns) ∈ trace s (flows cfg S256 w₀ ms).log := by
    intro provider s t st e h
    obtain ⟨req, returnTo, q, -, hstores⟩ := h.started
    obtain ⟨now, -, hT⟩ := hstores.events
    rw [hT]
    simp [startTrace]
  obtain ⟨y, hy, hyt, hye⟩ := (mem_trace _ _ _).mp (hdrawn h)
  obtain ⟨z, hz, hzt, hze⟩ := (mem_trace _ _ _).mp (hdrawn h')
  have hyz : y = z := hdistinct.eq hy hz (by rw [hye]; rfl) (by rw [hze]; rfl)
  rw [← hyt, ← hzt, hyz]

/-- What one start has stored, one callback has consumed. -/
theorem Completes.callback_unique (h₀ : ∀ state, w₀.states state = none)
    (hdistinct : DistinctStates (flows cfg S256 w₀ ms).log) {provider provider' state state' : String}
    {s t t' : ℕ} {st st' : OAuthState} {e e' : ℤ}
    (h : Completes cfg S256 w₀ ms provider state s t st e)
    (h' : Completes cfg S256 w₀ ms provider' state' s t' st' e') : t = t' := by
  obtain ⟨_, _, _, -, hstores⟩ := h.started
  obtain ⟨_, _, _, -, hstores'⟩ := h'.started
  obtain ⟨now, -, hT⟩ := hstores.events
  obtain ⟨now', -, hT'⟩ := hstores'.events
  have hstate : [state] = [state'] := congrArg (List.filterMap generated) (hT.symm.trans hT')
  obtain rfl : state = state' := by simpa using hstate
  obtain ⟨rest, _, _, _, y, hlog, hyt, hye, -⟩ := h.consumed
  obtain ⟨rest', _, _, _, y', hlog', hyt', hye', -⟩ := h'.consumed
  have hput := putOnce w₀ ms hdistinct
  have hy : stateStore.taken y.event = some (state, st) := taken_eq_some.mpr hye
  have hy' : stateStore.taken y'.event = some (state, st') := taken_eq_some.mpr hye'
  rcases List.append_eq_append_iff.mp (hlog.symm.trans hlog') with ⟨as, -, has⟩ | ⟨bs, -, hbs⟩
  · cases as with
    | nil =>
      obtain ⟨rfl, -⟩ := List.cons.inj has
      rw [← hyt, ← hyt']
    | cons a as =>
      obtain ⟨rfl, htail⟩ := List.cons.inj has
      rw [htail] at hlog
      exact absurd hy' (stateStore.taken_once _ w₀ h₀ hput hlog hy)
  · cases bs with
    | nil =>
      obtain ⟨rfl, -⟩ := List.cons.inj hbs
      rw [← hyt, ← hyt']
    | cons b bs =>
      obtain ⟨rfl, htail⟩ := List.cons.inj hbs
      rw [htail] at hlog'
      exact absurd hy (stateStore.taken_once _ w₀ h₀ hput hlog' hy')

/-- A callback consumes its own state only. -/
theorem callback_consumes {t : ℕ} {req : Request} {provider code state idpError : String}
    {q : Flow FlowAnswer}
    (hjob : (flows cfg S256 w₀ ms).job t = some (.callback req provider code state idpError, q))
    {z : Step FlowWorld FlowAns} (hz : z ∈ (flows cfg S256 w₀ ms).log) (hzt : z.thread = t)
    {state' : String} (hop : z.event.op = .inl (.oauthConsume state')) : state' = state := by
  obtain ⟨hT, p, hr, -⟩ := callback_reaches (Pool.run_reaches_some _ _ w₀ hjob)
  have hmem : z.event ∈ trace t (flows cfg S256 w₀ ms).log := (mem_trace _ _ _).mpr ⟨z, hz, hzt, rfl⟩
  rw [hT] at hmem
  obtain ⟨e, he, hze⟩ := List.mem_map.mp hmem
  have heop : e.op = .oauthConsume state' := by
    rw [← hze] at hop
    exact Sum.inl.inj hop
  rcases oauthCallback_reaches hr with hnil | ⟨o, T', hcons, hrest⟩
  · rw [hnil] at he
    cases he
  · rw [hcons] at he
    rcases List.mem_cons.mp he with rfl | he
    · cases heop
      rfl
    · obtain ⟨st, -, -, hops⟩ := hrest (List.ne_nil_of_mem he)
      have hsign := hops e he
      rw [heop] at hsign
      exact (hsign.elim id fun h => h.elim fun _ h => h).elim

/-- **A sign-in is completed once, and as it was started.** In every run in which
the states are distinct, a callback that mints a token completes exactly one
sign-in, which was started for the same provider and is in time, and works with
what was stored then. No start is completed by two callbacks. A callback mints if
and only if it answers with a token. And until a callback with its state consumes
it, a sign-in stays pending for its time, whatever the others do. -/
theorem flows_bound (h₀ : ∀ state, w₀.states state = none)
    (hdistinct : DistinctStates (flows cfg S256 w₀ ms).log) :
    (∀ t req provider code state idpError q,
      (flows cfg S256 w₀ ms).job t = some (.callback req provider code state idpError, q) →
      Draws cfg S256 w₀ ms t → ∃! s, ∃ st expiry,
        Completes cfg S256 w₀ ms provider state s t st expiry ∧
          BoundTo cfg S256 w₀ ms provider t q st) ∧
    (∀ s t t' provider provider' state state' st st' e e',
      Completes cfg S256 w₀ ms provider state s t st e →
      Completes cfg S256 w₀ ms provider' state' s t' st' e' → t = t') ∧
    (∀ (t : ℕ) (req : Request) (provider code state idpError : String) (resp : Response),
      (flows cfg S256 w₀ ms).job t =
        some (.callback req provider code state idpError, .ret (.response resp)) →
      (Draws cfg S256 w₀ ms t ↔ resp.body.session?.isSome = true)) ∧
    (∀ t req provider code state idpError q,
      (flows cfg S256 w₀ ms).job t = some (.callback req provider code state idpError, q) →
      ∀ z ∈ (flows cfg S256 w₀ ms).log, z.thread = t → ∀ state',
        z.event.op = .inl (.oauthConsume state') → state' = state) ∧
    ∀ (rest mid earlier : List (Step FlowWorld FlowAns)) (x y : Step FlowWorld FlowAns)
      (state : String) (st : OAuthState) (expiry : ℤ),
      (flows cfg S256 w₀ ms).log = rest ++ y :: (mid ++ x :: earlier) →
      x.event.op = .inr (.statesInsert state st expiry) → y.event.op = .inl (.oauthConsume state) →
      y.before.clock < expiry → (∀ z ∈ mid, z.event.op ≠ .inl (.oauthConsume state)) →
        y.event = (⟨.oauthConsume state, some st⟩ : Event Op.Ans).inl := by
  refine ⟨?_, ?_, ?_, ?_, ?_⟩
  · intro t req provider code state idpError q hjob hdraws
    obtain ⟨s, st, expiry, hcompletes, hbound⟩ := hdraws.completes h₀ hjob
    refine ⟨s, ⟨st, expiry, hcompletes, hbound⟩, ?_⟩
    rintro s' ⟨st', expiry', hcompletes', -⟩
    exact hcompletes'.start_unique hdistinct hcompletes
  · exact fun _ _ _ _ _ _ _ _ _ _ _ h h' => h.callback_unique h₀ hdistinct h'
  · intro t req provider code state idpError resp hjob
    obtain ⟨-, p, hr, hanswer⟩ := callback_reaches (Pool.run_reaches_some _ _ w₀ hjob)
    rw [hanswer resp rfl] at hr
    exact oauthCallback_mintsIff _ _ hr
  · exact fun _ _ _ _ _ _ _ hjob _ hz hzt _ hop => callback_consumes hjob hz hzt hop
  · intro rest mid earlier x y state st expiry hlog hx hy htime hmid
    have hput : stateStore.put x.event.op = some (state, st, expiry) := by
      rw [hx]
      rfl
    have htake : stateStore.take y.event.op = some state := by
      rw [hy]
      rfl
    have htaken := stateStore.taken_of_put _ w₀ (putOnce w₀ ms hdistinct) hlog hput htake htime
      fun z hz h => hmid z hz (take_eq_some.mp h)
    exact taken_eq_some.mp htaken

end Runs

/-! ### A sign-in from start to end -/

def sampleFlowConfig : FlowConfig where
  oauthProviders := [("idp", false)]
  oauthReturnAllowlist := "https://app.acme.com"

def sampleCallback : FlowRequest := .callback {} "idp" "c" "s1" ""

/-- The thread `t` moves; the provider knows the user. -/
def sampleExec (t : ℕ) (random : String) : Move FlowRequest FlowWeather :=
  .exec t ⟨random, tryingReply⟩

/-- A start, and ten seconds later its callback, newest move first. -/
def sampleFlow : List (Move FlowRequest FlowWeather) :=
  List.replicate 7 (sampleExec 1 "") ++
    [.spawn 1 sampleCallback, .tick 10, .exec 0 {}, .exec 0 {}, sampleExec 0 "s1",
      sampleExec 0 "n", sampleExec 0 "v", .spawn 0 (.start { xTenant := "acme" } "idp" "")]

theorem sampleFlow_bound : ∃ resp,
    (flows sampleFlowConfig id {} sampleFlow).job 1 = some (sampleCallback, .ret (.response resp)) ∧
    resp.body.session?.isSome = true ∧
    ∃! s, ∃ st expiry, Completes sampleFlowConfig id {} sampleFlow "idp" "s1" s 1 st expiry ∧
      BoundTo sampleFlowConfig id {} sampleFlow "idp" 1 (.ret (.response resp)) st := by
  have hdistinct : DistinctStates (flows sampleFlowConfig id {} sampleFlow).log := by
    unfold DistinctStates
    decide +kernel
  obtain ⟨hbound, -, hmints, -⟩ := flows_bound (fun _ => rfl) hdistinct
  obtain ⟨resp, hjob, hresp⟩ : ∃ resp, (flows sampleFlowConfig id {} sampleFlow).job 1 =
      some (sampleCallback, .ret (.response resp)) ∧ resp.body.session?.isSome = true :=
    ⟨_, rfl, rfl⟩
  have hdraws := (hmints 1 _ _ _ _ _ resp hjob).mpr hresp
  exact ⟨resp, hjob, hresp, hbound 1 _ _ _ _ _ _ hjob hdraws⟩

end HttpBridge
