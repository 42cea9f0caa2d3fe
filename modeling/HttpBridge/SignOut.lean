/-
# What a sign-out ends

A sign-out that succeeds puts the session's identifier into the revocation
store, for as long as the session token had left to live. Requests of any kind
run as threads on any number of instances over that store; until the token's
own expiry the store then holds the entry (`held_after_signOut`).

Two things are meant to end with the session. Its tickets do as long as they
are presented before the session token expires; a ticket may live longer than
that, and the entry does not (`ticket_refused_after_signOut`,
`not_ticket_refused_after_signOut`). And nothing is derived from the session
any more, unless an instance still has a cached verdict in its favour: what is
minted on it has an identifier of its own and outlives the cache
(`nothing_derived_after_signOut`, `not_nothing_derived_after_signOut`).
-/
import HttpBridge.Outcomes
import HttpBridge.Revocation
import HttpBridge.SingleUse
import HttpBridge.TenantGate

namespace HttpBridge

open Interact TokenDenylist

variable {P : Libraries} {cfg : Config} {inst : ℕ → ℕ} {w₀ : World}

/-! ### What requests do to the store and the verdict caches -/

/-- A request caches a verdict with the clock it read before it asked. -/
theorem serve_stamps (rq : ApiRequest) :
    (serve P cfg rq).Every (verdictStamps cfg.denylist inst).Stamps := by
  refine (serve_within rq).every (fun tr₀ tr op h => h.append tr₀) (fun op tr h => ?_)
    (fun jti _ => check_stamps jti) (fun jti ttl _ => revoke_stamps jti ttl) (fun tenant _ => ?_)
    (fun _ _ _ _ tr _ => stamps_of_ne_put fun _ _ _ => nofun) fun op tr h _ => ?_
  · refine stamps_of_ne_put fun _ _ _ he => ?_
    rw [he] at h
    cases h
  · have hcalls : (tenantAdmits tenant).Calls fun op => ∀ jti v now, op ≠ .denylistPut jti v now :=
      tenantAdmits_calls (fun _ _ _ => nofun) (fun _ _ _ => nofun) (fun _ _ _ => nofun)
        fun _ _ _ _ => nofun
    refine Prog.Calls.every (fun tr op h => ?_) hcalls
    exact stamps_of_ne_put h
  · refine stamps_of_ne_put fun _ _ _ he => ?_
    rw [he] at h
    cases h

/-- Only a sign-out writes the store. -/
theorem Within.stores_nothing {G : Gate → Prop} {α : Type} {p : Bridge α} (h : Within cfg G p)
    (hG : ∀ jti ttl, ¬ G (.revoke jti ttl)) :
    p.Calls fun op => ∀ jti ttl, op ≠ .denylistStore jti ttl := by
  refine h.calls (fun op hop jti ttl he => ?_) (fun j _ => ?_) (fun j t hg => absurd hg (hG j t))
    (fun t _ => ?_) (fun _ _ _ _ _ _ _ => nofun) fun op hop _ jti ttl he => ?_
  · rw [he] at hop
    cases hop
  · refine check_calls.mono fun op hop jti ttl he => ?_
    rw [he] at hop
    simp at hop
  · exact tenantAdmits_calls (fun _ _ => nofun) (fun _ _ => nofun) (fun _ _ => nofun)
      fun _ _ _ => nofun
  · rw [he] at hop
    cases hop

/-- What a write to the store goes back to: a sign-out that verified its token
at a clock it read, and gives the entry the time the token had left. -/
structure Revokes (rq : ApiRequest) (tr : Trace) (jti : String) (ttl : ℤ) (c : Claims) (now : ℤ) :
    Prop where
  signOut : ∃ req, rq = .revokeToken req ∧ req.authorization = .bearer (.signed c)
  jti_eq : optValue c.jti = jti
  read : ⟨.time, now⟩ ∈ tr
  unexpired : ∀ exp, c.exp = some exp → now < exp
  ttl_eq : ttl = toInt32 (c.exp.getD 0 - now)

theorem revokeToken_stores {req : Request} : (revokeToken cfg req).Every fun tr op =>
    ∀ jti ttl, op = .denylistStore jti ttl → ∃ c now, Revokes (.revokeToken req) tr jti ttl c now := by
  unfold revokeToken
  split
  case h_2 => exact Prog.every_ret _ _
  case h_1 token hbearer =>
    refine (Prog.every_call ..).mpr ⟨fun _ _ => nofun, fun now => ?_⟩
    dsimp only [Prog.bind]
    split
    · exact Prog.every_ret _ _
    case h_2 c hv =>
      obtain ⟨rfl, hexp⟩ := Jwt.verify_eq_some.mp hv
      refine Prog.Every.bind (fun tr₀ tr op h jti ttl he => ?_) ?_ fun _ b _ => ?_
      · obtain ⟨c, n, hr⟩ := h jti ttl he
        refine ⟨c, n, { hr with read := ?_ }⟩
        have := hr.read
        simp only [List.mem_cons, List.mem_append] at this ⊢
        tauto
      · refine revoke_calls.every fun tr op hop jti ttl he => ⟨c, now, ?_⟩
        rw [he] at hop
        rcases hop with ⟨h, -, -⟩ | h | ⟨_, h⟩ <;> cases h
        exact ⟨⟨req, rfl, hbearer⟩, rfl, .head _, hexp, rfl⟩
      · have hrest : Within cfg (fun _ => False) (do
            let _ ← emitAuth cfg "logout" (if b then "ok" else "error") (optValue c.sub)
              (optValue c.tenant) req.clientIp
            let _ ← dropSession cfg (optValue c.tenant) (optValue c.sub) (optValue c.jti) req.clientIp
            if !b then return revocationUnavailable
            return { status := 204, body := .empty }) :=
          .bind .emitAuth fun _ => .bind .dropSession fun _ => .ite .ret .ret
        exact (hrest.stores_nothing fun _ _ h => h).every fun tr op h jti ttl he =>
          absurd he (h jti ttl)

/-- Whoever is about to write the store is signing out. -/
theorem serve_stores {rq : ApiRequest} {tr : Trace} {jti : String} {ttl : ℤ}
    {k : Bool → Bridge Response}
    (h : (serve P cfg rq).Reaches tr (.call (.denylistStore jti ttl) k)) :
    ∃ c now, Revokes rq tr jti ttl c now := by
  by_cases hrq : ∃ req, rq = .revokeToken req
  · obtain ⟨req, rfl⟩ := hrq
    have hr : (revokeToken cfg req).Reaches tr (.call (.denylistStore jti ttl) k) := h
    exact revokeToken_stores tr _ k hr jti ttl rfl
  · have hwithin : Within cfg rq.gates (serve P cfg rq) := serve_within rq
    have hcalls := hwithin.stores_nothing fun _ _ hg => hrq (ApiRequest.eq_of_gates_revoke hg)
    exact absurd rfl ((hcalls.of_reaches h).2.1 jti ttl)

theorem toInt32_of_lt {n : ℤ} (h₀ : 0 ≤ n) (h : n < 2 ^ 31) : toInt32 n = n :=
  Int.bmod_eq_of_le (by omega) (by omega)

/-! ### A session that is signed out -/

section Run

variable {ms : List (Move ApiRequest Weather)} {X : Claims} {iat : ℤ} {σ τ : ℕ}

/-- A session token in a run: its identifier is its own, and nobody signs out
with it before it is minted. -/
structure SessionIn (cfg : Config) (p : Pool World Op.Ans ApiRequest Response) (X : Claims)
    (iat : ℤ) : Prop where
  named : optValue X.jti ≠ ""
  expires : X.exp = some (iat + cfg.tokenTtl)
  unique : ∀ τ req q c, p.job τ = some (.revokeToken req, q) →
    req.authorization = .bearer (.signed c) → optValue c.jti = optValue X.jti → c = X
  minted : ∀ y ∈ p.log, ∀ req q, p.job y.thread = some (.revokeToken req, q) →
    req.authorization = .bearer (.signed X) → iat ≤ y.before.clock

/-- The thread signed the session out, and was told that this succeeded. -/
structure SignedOut (p : Pool World Op.Ans ApiRequest Response) (X : Claims) (σ : ℕ) : Prop where
  done : ∃ req resp, p.job σ = some (.revokeToken req, .ret resp) ∧
    req.authorization = .bearer (.signed X) ∧ resp.status = 204

/-- Nothing of `σ` comes after something of `τ`. -/
def Follows (log : List (Step World Op.Ans)) (σ τ : ℕ) : Prop :=
  ∀ later y earlier, log = later ++ y :: earlier → y.thread = τ → ∀ z ∈ later, z.thread ≠ σ

theorem Follows.mem_earlier {log later earlier : List (Step World Op.Ans)} {y z : Step World Op.Ans}
    (h : Follows log σ τ) (hlog : log = later ++ y :: earlier) (hy : y.thread = τ) (hz : z ∈ log)
    (hzσ : z.thread = σ) (hne : σ ≠ τ) : z ∈ earlier := by
  rw [hlog] at hz
  rcases List.mem_append.mp hz with hz | hz
  · exact absurd hzσ (h later y earlier hlog hy z hz)
  · rcases List.mem_cons.mp hz with rfl | hz
    · exact absurd (hzσ.symm.trans hy) hne
    · exact hz

/-- A write of the session's entry stores it at least until the token expires. -/
theorem stored_until (httl : cfg.tokenTtl < 2 ^ 31)
    (hX : SessionIn cfg (requests P cfg inst w₀ ms) X iat) {y : Step World Op.Ans} {ttl : ℤ}
    (hy : y ∈ (requests P cfg inst w₀ ms).log)
    (hop : y.event.op = .denylistStore (optValue X.jti) ttl) :
    iat + cfg.tokenTtl ≤ y.before.clock + ttl := by
  obtain ⟨later, earlier, hlog⟩ := List.append_of_mem hy
  obtain ⟨rq, q, k, hjob, hr⟩ := step_reaches (serve P cfg) w₀ hlog hop
  obtain ⟨c, now, hrev⟩ := serve_stores hr
  obtain ⟨req, rfl, hbearer⟩ := hrev.signOut
  obtain rfl := hX.unique y.thread req q c hjob hbearer hrev.jti_eq
  -- the reading lies between the mint and the write
  obtain ⟨z, hz, hzt, hze⟩ := (mem_trace _ _ _).mp hrev.read
  have hzlog : z ∈ (requests P cfg inst w₀ ms).log := by
    rw [hlog]
    simp [hz]
  have hnow : now = z.before.clock := step_time (serve P cfg) w₀ hzlog hze
  have hiat : iat ≤ z.before.clock := hX.minted z hzlog req q (by rw [hzt]; exact hjob) hbearer
  have hle : z.before.clock ≤ y.before.clock := clock_ge (serve P cfg) w₀ hlog hz
  have hlt := hrev.unexpired _ hX.expires
  have httl' := hrev.ttl_eq
  rw [hX.expires, Option.getD_some, toInt32_of_lt (by omega) (by omega)] at httl'
  omega

/-- **The store holds a signed-out session until its token expires.** -/
theorem held_after_signOut (httl : cfg.tokenTtl < 2 ^ 31)
    (hX : SessionIn cfg (requests P cfg inst w₀ ms) X iat)
    {later earlier : List (Step World Op.Ans)} {x : Step World Op.Ans} {ttl : ℤ}
    (hlog : (requests P cfg inst w₀ ms).log = later ++ x :: earlier)
    (hx : x.event = ⟨.denylistStore (optValue X.jti) ttl, true⟩) :
    ∀ y ∈ later, y.before.clock < iat + cfg.tokenTtl → y.before.held (optValue X.jti) = true := by
  have hmem : ∀ y ∈ x :: later, y ∈ (requests P cfg inst w₀ ms).log := by
    intro y hy
    rw [hlog]
    simp only [List.mem_append, List.mem_cons] at hy ⊢
    tauto
  have hsince := (Pool.run_since (World.system cfg.denylist inst) (serve P cfg) w₀
    (Q := fun w => ∃ u, w.store (optValue X.jti) = some u ∧ iat + cfg.tokenTtl ≤ u)
    (fun _ _ h => h) hlog ?_ ?_).1
  · intro y hy hclock
    obtain ⟨u, hu, hle⟩ := hsince y hy
    exact World.held_iff.mpr ⟨u, hu, by omega⟩
  · obtain ⟨c, hans, hafter⟩ := step_eq (serve P cfg) w₀ (hmem x (.head _))
    have hle := stored_until httl hX (hmem x (.head _)) (by rw [hx])
    rw [hx] at hans hafter
    rw [hafter]
    rcases World.effect_denylistStore (D := cfg.denylist) (w := x.before) (i := inst x.thread) (c := c)
      (optValue X.jti) ttl with h | ⟨h, -⟩
    · exact ⟨_, h, hle⟩
    · have hyes : true = c.reply (.denylistStore (optValue X.jti) ttl) := hans
      rw [h] at hyes
      cases hyes
  · rintro y hy ⟨u, hu, hle⟩
    obtain ⟨c, -, hafter⟩ := step_eq (serve P cfg) w₀ (hmem y (.tail _ hy))
    rw [hafter]
    by_cases hop : ∃ ttl, y.event.op = .denylistStore (optValue X.jti) ttl
    · obtain ⟨ttl, hop⟩ := hop
      rw [hop]
      rcases World.effect_denylistStore (D := cfg.denylist) (w := y.before) (i := inst y.thread)
        (c := c) (optValue X.jti) ttl with h | ⟨-, h⟩
      · exact ⟨_, h, stored_until httl hX (hmem y (.tail _ hy)) hop⟩
      · exact ⟨u, h.trans hu, hle⟩
    · exact ⟨u, (World.effect_store fun ttl h => hop ⟨ttl, h⟩).trans hu, hle⟩

/-- What a sign-out has done when it answers that it succeeded. -/
theorem revokeToken_succeeds {req : Request} {T : Trace} {exp : ℤ} (hD : cfg.denylist.enabled = true)
    (hbearer : req.authorization = .bearer (.signed X)) (hj : optValue X.jti ≠ "")
    (hexp : X.exp = some exp) :
    (revokeToken cfg req).During T fun resp => resp.status = 204 → ∃ now, ⟨.time, now⟩ ∈ T ∧
      (exp ≤ now ∨ toInt32 (exp - now) ≤ 0 ∨ ∃ ttl, ⟨.denylistStore (optValue X.jti) ttl, true⟩ ∈ T) := by
  unfold revokeToken
  rw [hbearer]
  refine .perform fun now hnow => ?_
  split
  case h_1 hv =>
    refine .ret fun _ => ⟨now, hnow, .inl (Int.not_lt.mp fun hlt => ?_)⟩
    have hsome : (Jwt.signed X).verify now = some X := Jwt.verify_eq_some.mpr ⟨rfl, fun e he => by
      rw [hexp] at he
      cases he
      exact hlt⟩
    rw [hv] at hsome
    cases hsome
  case h_2 c hv =>
    obtain ⟨hc, -⟩ := Jwt.verify_eq_some.mp hv
    cases hc
    rw [hexp, Option.getD_some]
    refine .bind fun tr revoked htr hrev => .skip fun _ => .skip fun _ =>
      .ite (fun _ => .ret fun h => ?_) fun hyes => .ret fun _ => ⟨now, hnow, .inr ?_⟩
    · cases h
    · obtain rfl : revoked = true := by simpa using hyes
      rcases revoke_yields.mp hrev with ⟨-, ⟨h, -⟩ | ⟨-, h, -⟩ | ⟨-, -, h, -⟩⟩ | ⟨-, -, -, ⟨-, h⟩ | ⟨n, rfl, -⟩⟩
      · rw [hD] at h
        cases h
      · exact absurd h hj
      · exact .inl h
      · cases h
      · exact .inr ⟨_, htr.subset (.head _)⟩

/-- A successful sign-out found the token expired, or its entry landed. -/
theorem SignedOut.lands (hD : cfg.denylist.enabled = true) (httl : cfg.tokenTtl < 2 ^ 31)
    (hX : SessionIn cfg (requests P cfg inst w₀ ms) X iat)
    (h : SignedOut (requests P cfg inst w₀ ms) X σ) :
    (∃ y ∈ (requests P cfg inst w₀ ms).log, y.thread = σ ∧ iat + cfg.tokenTtl ≤ y.before.clock) ∨
      ∃ y ∈ (requests P cfg inst w₀ ms).log, y.thread = σ ∧
        ∃ ttl, y.event = ⟨.denylistStore (optValue X.jti) ttl, true⟩ := by
  obtain ⟨req, resp, hjob, hbearer, hstatus⟩ := h.done
  have hyields : (revokeToken cfg req).Yields (trace σ (requests P cfg inst w₀ ms).log) resp :=
    Pool.run_reaches_some _ (serve P cfg) w₀ hjob
  obtain ⟨now, hnow, hcases⟩ :=
    (revokeToken_succeeds hD hbearer hX.named hX.expires).of_yields hyields hstatus
  obtain ⟨z, hz, hzt, hze⟩ := (mem_trace _ _ _).mp hnow
  have hclock : now = z.before.clock := step_time (serve P cfg) w₀ hz hze
  have hiat : iat ≤ z.before.clock := hX.minted z hz req _ (by rw [hzt]; exact hjob) hbearer
  rcases hcases with h | h | ⟨ttl, h⟩
  · exact .inl ⟨z, hz, hzt, by omega⟩
  · by_cases hlt : now < iat + cfg.tokenTtl
    · rw [toInt32_of_lt (by omega) (by omega)] at h
      omega
    · exact .inl ⟨z, hz, hzt, by omega⟩
  · obtain ⟨y, hy, hyt, hye⟩ := (mem_trace _ _ _).mp h
    exact .inr ⟨y, hy, hyt, ttl, hye⟩

/-- A lookup that failed is not cached. -/
theorem found_ne_unknown (h₀ : ∀ i, w₀.verdicts i = ∅) {y : Step World Op.Ans}
    (hy : y ∈ (requests P cfg inst w₀ ms).log) {i : ℕ} {jti : String} {e : CacheEntry}
    (he : (y.before.verdicts i).lookup jti = some e) : e.verdict ≠ .unknown := by
  obtain ⟨later, earlier, hlog⟩ := List.append_of_mem hy
  obtain ⟨ms₁, _, _, _, _, -, -, hstate, -, -⟩ := Pool.run_split _ (serve P cfg) w₀ hlog
  rw [← hstate] at he
  refine Pool.run_invariant (World.system cfg.denylist inst) (serve P cfg) w₀
    (Φ := fun _ _ => True) (J := fun w _ => ∀ i jti e, (w.verdicts i).lookup jti = some e →
      e.verdict ≠ .unknown) (fun _ _ _ _ _ => trivial) ?_ ?_ ?_ ms₁ i jti e he
  · intro i jti e he
    simp [h₀ i] at he
  · exact fun w l d h => h
  · intro w l t op c hJ _ i jti e he
    rcases World.effect_verdicts he with ⟨he, -⟩ | ⟨-, -, v, now, -, hv, rfl⟩ | ⟨-, now, -, rfl⟩
    · exact hJ i jti e he
    · exact hv
    · exact nofun

/-- The thread asks about the token before it expires. -/
def AsksBefore (log : List (Step World Op.Ans)) (jti : String) (exp : ℤ) (τ : ℕ) : Prop :=
  ∀ y ∈ log, y.thread = τ → y.event.op = .denylistFind jti ∨ y.event.op = .denylistLookup jti →
    y.before.clock < exp

/-- No cache the thread asks vouches for the token. -/
def NotVouched (inst : ℕ → ℕ) (log : List (Step World Op.Ans)) (jti : String) (τ : ℕ) : Prop :=
  ∀ later y earlier, log = later ++ y :: earlier → y.thread = τ → y.event.op = .denylistFind jti →
    ∀ tr n e, trace τ earlier = tr ++ [⟨.time, n⟩] →
      (y.before.verdicts (inst τ)).lookup jti = some e → n < e.until_ → e.verdict ≠ .allowed

/-- The denylist answers, or is asked in vain by nobody whom it would let pass. -/
def Reachable (D : DenylistOptions) (log : List (Step World Op.Ans)) (jti : String) : Prop :=
  D.failOpen = false ∨ ∀ y ∈ log, y.event ≠ ⟨.denylistLookup jti, .unknown⟩

/-- Before a step that follows a successful sign-out, at a clock at which the
token has not expired, the entry has landed. -/
theorem SignedOut.landed_before (hD : cfg.denylist.enabled = true) (httl : cfg.tokenTtl < 2 ^ 31)
    (hX : SessionIn cfg (requests P cfg inst w₀ ms) X iat)
    (hσ : SignedOut (requests P cfg inst w₀ ms) X σ) (hne : σ ≠ τ)
    (hafter : Follows (requests P cfg inst w₀ ms).log σ τ) {later earlier : List (Step World Op.Ans)}
    {y : Step World Op.Ans} (hlog : (requests P cfg inst w₀ ms).log = later ++ y :: earlier)
    (hyt : y.thread = τ) (hclock : y.before.clock < iat + cfg.tokenTtl) :
    ∃ mid x first ttl, earlier = mid ++ x :: first ∧ x.thread = σ ∧
      x.event = ⟨.denylistStore (optValue X.jti) ttl, true⟩ := by
  rcases hσ.lands hD httl hX with ⟨z, hz, hzσ, hexp⟩ | ⟨x, hx, hxσ, ttl, hxe⟩
  · have hle : z.before.clock ≤ y.before.clock :=
      clock_ge (serve P cfg) w₀ hlog (hafter.mem_earlier hlog hyt hz hzσ hne)
    omega
  · obtain ⟨mid, first, rfl⟩ := List.append_of_mem (hafter.mem_earlier hlog hyt hx hxσ hne)
    exact ⟨mid, x, first, ttl, rfl, hxσ, hxe⟩

/-- **A signed-out session is not permitted** to a thread that follows the
sign-out, while the token has not expired and no cache vouches for it. -/
theorem not_permitted_after_signOut (hD : cfg.denylist.enabled = true) (httl : cfg.tokenTtl < 2 ^ 31)
    (h₀ : ∀ i, w₀.verdicts i = ∅) (hX : SessionIn cfg (requests P cfg inst w₀ ms) X iat)
    (hσ : SignedOut (requests P cfg inst w₀ ms) X σ) (hne : σ ≠ τ)
    (hafter : Follows (requests P cfg inst w₀ ms).log σ τ)
    (hreach : Reachable cfg.denylist (requests P cfg inst w₀ ms).log (optValue X.jti))
    (hbefore : AsksBefore (requests P cfg inst w₀ ms).log (optValue X.jti) (iat + cfg.tokenTtl) τ)
    (hcache : NotVouched inst (requests P cfg inst w₀ ms).log (optValue X.jti) τ) {tr : Trace}
    (htr : tr <:+: trace τ (requests P cfg inst w₀ ms).log) :
    ¬ (permits cfg.denylist (optValue X.jti)).Yields tr true := by
  intro hp
  obtain ⟨v, hcheck, hv⟩ := permits_yields.mp hp
  obtain ⟨pre, post, hsplit⟩ := htr
  obtain ⟨n, ⟨e, rfl, hn, rfl⟩ | ⟨o, rfl, -⟩⟩ := (check_yields hD hX.named).mp hcheck
  · -- a hit: what is found does not vouch, and is no failed lookup either
    have hpast : trace τ (requests P cfg inst w₀ ms).log =
        (pre ++ [⟨.time, n⟩]) ++ ⟨.denylistFind (optValue X.jti), some e⟩ :: post := by
      rw [← hsplit]
      simp [hitTrace]
    obtain ⟨later, y, earlier, hlog, hyt, hye, hpast, -⟩ := trace_split hpast
    have hy : y ∈ (requests P cfg inst w₀ ms).log := by
      rw [hlog]
      simp
    have hfound := (step_find (serve P cfg) w₀ hy hye).symm
    have hunknown := found_ne_unknown h₀ hy hfound
    have hallowed := hcache later y earlier hlog hyt (by rw [hye]) pre n e hpast (hyt ▸ hfound) hn
    cases he : e.verdict with
    | allowed => exact hallowed he
    | revoked => simp [he, honours] at hv
    | unknown => exact hunknown he
  · -- a miss: the store still holds the token when it is asked
    have hpast : trace τ (requests P cfg inst w₀ ms).log =
        (pre ++ [⟨.time, n⟩, ⟨.denylistFind (optValue X.jti), o⟩]) ++
          ⟨.denylistLookup (optValue X.jti), v⟩ :: ⟨.denylistPut (optValue X.jti) v n, ()⟩ :: post := by
      rw [← hsplit]
      simp [missTrace]
    obtain ⟨later, y, earlier, hlog, hyt, hye, -, -⟩ := trace_split hpast
    have hy : y ∈ (requests P cfg inst w₀ ms).log := by
      rw [hlog]
      simp
    have hclock := hbefore y hy hyt (.inr (by rw [hye]))
    obtain ⟨mid, x, first, ttl, rfl, -, hxe⟩ := hσ.landed_before hD httl hX hne hafter hlog hyt hclock
    have hafter' : (requests P cfg inst w₀ ms).log = (later ++ y :: mid) ++ x :: first := by
      rw [hlog]
      simp
    have hheld := held_after_signOut httl hX hafter' hxe y (by simp) hclock
    cases v with
    | allowed => exact absurd hye (not_allowed_of_held (serve P cfg) w₀ hy hheld)
    | revoked => cases hv
    | unknown =>
      rcases hreach with h | h
      · rw [honours, h] at hv
        cases hv
      · exact h y hy hye

/-! ### Its tickets -/

/-- A ticket minted for the bearer of the session. -/
def TicketOf (P : Libraries) (cfg : Config) (X t : Claims) : Prop :=
  ∃ req uid rq tr resp, (rq = .downloadTicket req uid ∨ rq = .playbackTicket req uid) ∧
    req.authorization = .bearer (.signed X) ∧ (serve P cfg rq).Yields tr resp ∧
    resp.body.ticket? = some t

/-- A ticket names the session it was minted for. -/
theorem TicketOf.sid_eq {t : Claims} (h : TicketOf P cfg X t) (hj : optValue X.jti ≠ "") :
    optValue t.sid = optValue X.jti := by
  obtain ⟨req, uid, rq, tr, resp, hrq, hbearer, hserve, ht⟩ := h
  have hout := serve_outcome hserve
  have hsid : ∀ {req' : Request} {id : AuthIdentity}, req' = req → Passed cfg req' tr id →
      (if id.sessionJti == "" then none else some id.sessionJti).getD "" = optValue X.jti := by
    rintro _ id rfl hpassed
    obtain ⟨_, -, hp⟩ := hpassed.bearerPassed hbearer
    rw [hp.identity]
    show (if optValue X.jti == "" then none else some (optValue X.jti)).getD "" = _
    simp [hj]
  generalize resp.body = b at hout ht
  cases hout with
  | downloadTicket passed =>
    obtain rfl := Option.some.inj ht
    rcases hrq with h | h <;> cases h
    exact hsid rfl passed
  | playbackTicket passed =>
    obtain rfl := Option.some.inj ht
    rcases hrq with h | h <;> cases h
    exact hsid rfl passed
  | _ => cases ht

/-- A ticket of the session is presented by `τ`, when a successful sign-out by
`σ` that was over by `s` has had the time it needs to reach every cache. -/
structure PresentedAfter (P : Libraries) (cfg : Config) (p : Pool World Op.Ans ApiRequest Response)
    (X : Claims) (iat : ℤ) (t : Claims) (σ τ : ℕ) (s : ℤ) : Prop where
  session : SessionIn cfg p X iat
  ticket : TicketOf P cfg X t
  signedOut : SignedOut p X σ
  presented : ∃ req uid q, p.job τ = some (.getContent req uid (some (.signed t)), q)
  follows : Follows p.log σ τ
  signOutBy : ∀ y ∈ p.log, y.thread = σ → y.before.clock ≤ s
  presentedFrom : ∀ y ∈ p.log, y.thread = τ → s + max cfg.denylist.cacheTtl 0 ≤ y.before.clock

/-- The thread gets no identity for the ticket. -/
def RefusesTicket (cfg : Config) (log : List (Step World Op.Ans)) (t : Claims) (τ : ℕ) : Prop :=
  ∀ req uid tr id, tr <:+: trace τ log →
    ¬ (identityFromDownloadTicket cfg req uid (.signed t)).Yields tr (some id)

theorem SignedOut.ne {p : Pool World Op.Ans ApiRequest Response} {rq : ApiRequest}
    {q : Bridge Response} (h : SignedOut p X σ) (hjob : p.job τ = some (rq, q))
    (hrq : ∀ req, rq ≠ .revokeToken req) : σ ≠ τ := by
  rintro rfl
  obtain ⟨req, resp, hσ, -⟩ := h.done
  rw [hσ] at hjob
  cases hjob
  exact hrq req rfl

/-- No cache vouches for the session once the time of the caches is over. -/
theorem notVouched_of_late (hD : cfg.denylist.enabled = true) (httl : cfg.tokenTtl < 2 ^ 31)
    (h₀ : ∀ i, w₀.verdicts i = ∅) (hX : SessionIn cfg (requests P cfg inst w₀ ms) X iat)
    (hσ : SignedOut (requests P cfg inst w₀ ms) X σ) (hne : σ ≠ τ)
    (hafter : Follows (requests P cfg inst w₀ ms).log σ τ)
    (hbefore : AsksBefore (requests P cfg inst w₀ ms).log (optValue X.jti) (iat + cfg.tokenTtl) τ)
    {s : ℤ} (hs : ∀ y ∈ (requests P cfg inst w₀ ms).log, y.thread = σ → y.before.clock ≤ s)
    (hlate : ∀ y ∈ (requests P cfg inst w₀ ms).log, y.thread = τ →
      s + max cfg.denylist.cacheTtl 0 ≤ y.before.clock) :
    NotVouched inst (requests P cfg inst w₀ ms).log (optValue X.jti) τ := by
  intro later y earlier hlog hyt hop tr n e hpast hfound hn
  have hy : y ∈ (requests P cfg inst w₀ ms).log := by
    rw [hlog]
    simp
  have hclock := hbefore y hy hyt (.inl hop)
  obtain ⟨mid, x, first, ttl, rfl, hxσ, hxe⟩ := hσ.landed_before hD httl hX hne hafter hlog hyt hclock
  obtain ⟨z, hz, hzt, hze⟩ := (mem_trace τ ⟨.time, n⟩ (mid ++ x :: first)).mp (by rw [hpast]; simp)
  have hzlog : z ∈ (requests P cfg inst w₀ ms).log := by
    rw [hlog]
    exact List.mem_append_right _ (.tail _ hz)
  have hread : x.before.clock + cfg.denylist.cacheTtl ≤ n := by
    have h₁ := hlate z hzlog hzt
    have h₂ := hs x (by rw [hlog]; simp) hxσ
    have h₃ : n = z.before.clock := step_time (serve P cfg) w₀ hzlog hze
    omega
  have hevent : y.event = ⟨.denylistFind (optValue X.jti), some e⟩ := by
    obtain ⟨_, hans, -⟩ := step_eq (serve P cfg) w₀ hy
    obtain ⟨thread, before, ⟨op, ans⟩, after⟩ := y
    dsimp only at hop hans hyt hfound ⊢
    subst hop hyt
    rw [hans]
    exact congrArg _ hfound
  -- the store holds the session at every step from the landing to this one
  have hafter' : (requests P cfg inst w₀ ms).log = later ++ (y :: mid ++ x :: first) := by
    rw [hlog]
    simp
  refine found_not_allowed serve_stamps h₀ hafter' (fun z hz => ?_) (.head _) hevent hn hread
  have hle : z.before.clock ≤ y.before.clock := by
    rcases List.mem_cons.mp hz with rfl | hz
    · exact le_rfl
    · exact clock_ge (serve P cfg) w₀ hlog (List.mem_append_left _ hz)
  rw [← List.append_assoc] at hafter'
  exact held_after_signOut httl hX hafter' hxe z (List.mem_append_right _ hz) (by omega)

/-- **A ticket ends with its session**, as long as it is presented while the
session token has not expired, or has itself expired by then. -/
theorem ticket_refused_after_signOut (hD : cfg.denylist.enabled = true)
    (httl : cfg.tokenTtl < 2 ^ 31) (h₀ : ∀ i, w₀.verdicts i = ∅) {t : Claims} {s : ℤ}
    (h : PresentedAfter P cfg (requests P cfg inst w₀ ms) X iat t σ τ s)
    (hreach : Reachable cfg.denylist (requests P cfg inst w₀ ms).log (optValue X.jti))
    (hcover : AsksBefore (requests P cfg inst w₀ ms).log (optValue X.jti) (iat + cfg.tokenTtl) τ ∨
      ∃ exp, t.exp = some exp ∧ exp ≤ s + max cfg.denylist.cacheTtl 0) :
    RefusesTicket cfg (requests P cfg inst w₀ ms).log t τ := by
  intro req uid tr id htr hyields
  obtain ⟨t', hp⟩ := identityFromDownloadTicket_during.of_yields hyields id rfl
  cases hp.signed
  obtain ⟨_, _, _, hjob⟩ := h.presented
  have hne := h.signedOut.ne hjob fun _ => nofun
  rcases hcover with hbefore | ⟨exp, hexp, hle⟩
  · rcases hp.permitted with hsid | ⟨tr', htr', hpermit⟩
    · rw [h.ticket.sid_eq h.session.named] at hsid
      exact h.session.named hsid
    · rw [h.ticket.sid_eq h.session.named] at hpermit
      exact not_permitted_after_signOut hD httl h₀ h.session h.signedOut hne h.follows hreach hbefore
        (notVouched_of_late hD httl h₀ h.session h.signedOut hne h.follows hbefore h.signOutBy
          h.presentedFrom) (htr'.trans htr) hpermit
  · obtain ⟨now, hnow, hun⟩ := hp.unexpired
    obtain ⟨z, hz, hzt, hze⟩ := (mem_trace τ _ _).mp (htr.subset hnow)
    have h₁ := h.presentedFrom z hz hzt
    have h₂ : now = z.before.clock := step_time (serve P cfg) w₀ hz hze
    have h₃ := hun exp hexp
    omega

/-! ### What is derived from it -/

/-- A refresh or a hand-off with the session as bearer. -/
def Derives (X : Claims) (rq : ApiRequest) : Prop :=
  ∃ req, (rq = .refreshToken req ∨ rq = .ssoHandoff req) ∧ req.authorization = .bearer (.signed X)

/-- A session token derived from `X` by a refresh, or by a hand-off whose code
was redeemed, where the request presenting `X` came after the sign-out. -/
inductive DerivedAfter (p : Pool World Op.Ans ApiRequest Response) (X : Claims) (σ : ℕ) : Claims → Prop
  | refresh {τ : ℕ} {req : Request} {resp : Response} {Y : Claims}
      (job : p.job τ = some (.refreshToken req, .ret resp))
      (bearer : req.authorization = .bearer (.signed X)) (follows : Follows p.log σ τ)
      (issued : resp.body.session? = some Y) : DerivedAfter p X σ Y
  | redeem {τ ρ : ℕ} {req req' : Request} {resp resp' : Response} {code Y : Claims}
      (job : p.job τ = some (.ssoHandoff req, .ret resp))
      (bearer : req.authorization = .bearer (.signed X)) (follows : Follows p.log σ τ)
      (handed : resp.body.handoffCode? = some code)
      (redeemed : p.job ρ = some (.ssoRedeem req' (some (some (.signed code))), .ret resp'))
      (issued : resp'.body.session? = some Y) : DerivedAfter p X σ Y

/-- Some thread is authenticated with the token, its clock being `n` or later. -/
def AcceptedFrom (cfg : Config) (log : List (Step World Op.Ans)) (Y : Claims) (n : ℤ) : Prop :=
  ∃ θ req tr id, req.authorization = .bearer (.signed Y) ∧ tr <:+: trace θ log ∧
    (authenticate cfg req).Yields tr (.ok id) ∧ ∀ m, ⟨.time, m⟩ ∈ tr → n ≤ m

/-- Nothing derived from the session after its sign-out, over by `t`, is
accepted once the caches have had their time. -/
def EndsSession (cfg : Config) (p : Pool World Op.Ans ApiRequest Response) (X : Claims) (σ : ℕ) :
    Prop :=
  ∀ t Y, (∀ y ∈ p.log, y.thread = σ → y.before.clock ≤ t) → DerivedAfter p X σ Y →
    ¬ AcceptedFrom cfg p.log Y (t + max cfg.denylist.cacheTtl 0)

/-- Whoever derives something from a bearer was authenticated as the bearer. -/
theorem Outcome.passed_of_derives {rq : ApiRequest} {T : Trace} {b : Body} {c : Claims}
    (hout : Outcome cfg T rq b) (hrq : Derives X rq)
    (hissued : b.session? = some c ∨ b.handoffCode? = some c) :
    ∃ req id, req.authorization = .bearer (.signed X) ∧ Passed cfg req T id := by
  obtain ⟨req, hrq, hbearer⟩ := hrq
  cases hout with
  | keyRefresh passed | refresh passed | handoff passed =>
    rcases hrq with h | h <;> cases h
    exact ⟨_, _, hbearer, passed⟩
  | keyLogin | login | secondFactor | redeem | delegated | service | oauth =>
    rcases hrq with h | h <;> cases h
  | _ => rcases hissued with h | h <;> cases h

/-- **Nothing is derived from a signed-out session**, when every refresh and
hand-off with it that comes after the sign-out asks the denylist before the
token expires, and no cache it asks vouches for the token. -/
theorem nothing_derived_after_signOut (hD : cfg.denylist.enabled = true)
    (httl : cfg.tokenTtl < 2 ^ 31) (h₀ : ∀ i, w₀.verdicts i = ∅)
    (hX : SessionIn cfg (requests P cfg inst w₀ ms) X iat)
    (hσ : SignedOut (requests P cfg inst w₀ ms) X σ)
    (hreach : Reachable cfg.denylist (requests P cfg inst w₀ ms).log (optValue X.jti))
    (hasks : ∀ τ rq q, (requests P cfg inst w₀ ms).job τ = some (rq, q) → Derives X rq →
      Follows (requests P cfg inst w₀ ms).log σ τ →
      AsksBefore (requests P cfg inst w₀ ms).log (optValue X.jti) (iat + cfg.tokenTtl) τ ∧
        NotVouched inst (requests P cfg inst w₀ ms).log (optValue X.jti) τ) :
    EndsSession cfg (requests P cfg inst w₀ ms) X σ := by
  -- nothing is issued in the first place
  have hnone : ∀ {τ rq resp c}, (requests P cfg inst w₀ ms).job τ = some (rq, .ret resp) →
      Derives X rq → Follows (requests P cfg inst w₀ ms).log σ τ →
      ¬ (resp.body.session? = some c ∨ resp.body.handoffCode? = some c) := by
    intro τ rq resp c hjob hrq hafter hissued
    have hyields : (serve P cfg rq).Yields (trace τ (requests P cfg inst w₀ ms).log) resp :=
      Pool.run_reaches_some _ (serve P cfg) w₀ hjob
    obtain ⟨req, id, hbearer, hpassed⟩ := (serve_outcome hyields).passed_of_derives hrq hissued
    obtain ⟨tr, htr, hp⟩ := hpassed.bearerPassed hbearer
    obtain ⟨tr', htr', hpermit⟩ := hp.permitted
    obtain ⟨hbefore, hcache⟩ := hasks τ rq _ hjob hrq hafter
    have hne := hσ.ne hjob fun req' h => by
      obtain ⟨_, h' | h', -⟩ := hrq <;> rw [h] at h' <;> cases h'
    exact not_permitted_after_signOut hD httl h₀ hX hσ hne hafter hreach hbefore hcache
      (htr'.trans htr) hpermit
  intro t Y _ hderived
  cases hderived with
  | refresh job bearer follows issued =>
    exact absurd (.inl issued) (hnone job ⟨_, .inl rfl, bearer⟩ follows)
  | redeem job bearer follows handed =>
    exact absurd (.inr handed) (hnone job ⟨_, .inr rfl, bearer⟩ follows)

end Run

/-! ### A ticket that outlives its session -/

/-- In a log where nothing of `σ` is newer than anything of `τ`. -/
theorem Follows.of_pairwise {log : List (Step World Op.Ans)} {σ τ : ℕ}
    (h : log.Pairwise fun z y => y.thread = τ → z.thread ≠ σ) : Follows log σ τ := by
  rintro later y earlier rfl hy z hz
  exact (List.pairwise_append.mp h).2.2 z hz y (.head _) hy

/-- A thread none of whose steps comes at or past the expiry. -/
theorem AsksBefore.of_forall {log : List (Step World Op.Ans)} {jti : String} {exp : ℤ} {τ : ℕ}
    (h : ∀ y ∈ log, y.thread = τ → y.before.clock < exp) : AsksBefore log jti exp τ :=
  fun y hy ht _ => h y hy ht

/-- The session of a user, minted at clock 0. -/
def sampleSession : Claims :=
  sessionClaims "fileengine-bridge" "ann" "acme" "x1" 0 900 (OrdMap.empty.insert "acme" ["users"])
    ["pwd"] "" "" "" ""

def sampleBearer : Request := { authorization := .bearer (.signed sampleSession) }

/-- The sample environment, with a video file. -/
def playableReply : (op : Op) → op.Ans
  | .grpcStat .. => ⟨true, "", "talk.mp4"⟩
  | op => sampleReply "live" op

def playable : Weather where
  reply := playableReply

/-- The playback ticket of the session for a file. -/
def samplePlayback : Claims :=
  buildTicketClaims "fileengine-bridge" "ann" "acme" ["users"] "f1" "playback" "x1" "video/mp4" 0 1800

theorem samplePlayback_ticketOf : TicketOf .refusing {} sampleSession samplePlayback :=
  ⟨sampleBearer, "f1", .playbackTicket sampleBearer "f1", _, _, .inr rfl, rfl,
    Prog.yields_run playableReply _, by decide +kernel⟩

/-- A sign-out at clock 0, and a presentation of the ticket `d` seconds later. -/
def signOutThenTicket (d : ℕ) : List (Move ApiRequest Weather) :=
  List.replicate 10 (.exec 1 playable) ++
    (.spawn 1 (.getContent {} "f1" (some (.signed samplePlayback))) :: .tick d ::
      (List.replicate 4 (.exec 0 playable) ++ [.spawn 0 (.revokeToken sampleBearer)]))

abbrev ticketRun (d : ℕ) : Pool World Op.Ans ApiRequest Response :=
  requests .refusing {} (fun _ => 0) {} (signOutThenTicket d)

/-- Who is started in the run. -/
theorem ticketRun_spawned {d : ℕ} {τ : ℕ} {rq : ApiRequest} {q : Bridge Response}
    (h : (ticketRun d).job τ = some (rq, q)) :
    rq = .getContent {} "f1" (some (.signed samplePlayback)) ∨ rq = .revokeToken sampleBearer := by
  have hm := Pool.run_spawned _ _ _ h
  simp only [signOutThenTicket, List.mem_append, List.mem_replicate, List.mem_cons, reduceCtorEq,
    and_false, false_or, or_false, List.not_mem_nil, Move.spawn.injEq] at hm
  rcases hm with ⟨-, rfl⟩ | ⟨-, rfl⟩
  · exact .inl rfl
  · exact .inr rfl

theorem ticketRun_session {d : ℕ} (hclock : ∀ y ∈ (ticketRun d).log, 0 ≤ y.before.clock) :
    SessionIn {} (ticketRun d) sampleSession 0 where
  named := by decide
  expires := rfl
  unique τ req q c hjob hbearer _ := by
    rcases ticketRun_spawned hjob with h | h <;> cases h
    cases hbearer
    rfl
  minted y hy req q _ _ := hclock y hy

theorem ticket_presentedAfter {d : ℕ} (hclock : ∀ y ∈ (ticketRun d).log, 0 ≤ y.before.clock)
    (hout : ∃ resp, (ticketRun d).job 0 = some (.revokeToken sampleBearer, .ret resp) ∧
      resp.status = 204)
    (hin : ∃ q, (ticketRun d).job 1 = some (.getContent {} "f1" (some (.signed samplePlayback)), q))
    (hfollows : (ticketRun d).log.Pairwise fun z y => y.thread = 1 → z.thread ≠ 0)
    (hby : ∀ y ∈ (ticketRun d).log, y.thread = 0 → y.before.clock ≤ 0)
    (hfrom : ∀ y ∈ (ticketRun d).log, y.thread = 1 → 0 + max 5 0 ≤ y.before.clock) :
    PresentedAfter .refusing {} (ticketRun d) sampleSession 0 samplePlayback 0 1 0 where
  session := ticketRun_session hclock
  ticket := samplePlayback_ticketOf
  signedOut := by
    obtain ⟨resp, hjob, hstatus⟩ := hout
    exact ⟨sampleBearer, resp, hjob, rfl, hstatus⟩
  presented := by
    obtain ⟨q, hjob⟩ := hin
    exact ⟨{}, "f1", q, hjob⟩
  follows := .of_pairwise hfollows
  signOutBy := hby
  presentedFrom := hfrom

/-- Ten seconds after the sign-out the ticket is refused. -/
theorem signOutThenTicket_refused : RefusesTicket {} (ticketRun 10).log samplePlayback 1 := by
  refine ticket_refused_after_signOut (σ := 0) (s := 0) rfl (by decide) (fun _ => rfl)
    (ticket_presentedAfter (by decide +kernel) ⟨_, rfl, rfl⟩ ⟨_, rfl⟩ (by decide +kernel)
      (by decide +kernel) (by decide +kernel)) (.inl rfl) (.inl (.of_forall ?_))
  show ∀ y ∈ (ticketRun 10).log, y.thread = 1 → y.before.clock < 0 + 900
  decide +kernel

/-- **A ticket can outlive its session.** Once the session token has expired,
the store no longer knows that it was signed out. -/
theorem not_ticket_refused_after_signOut :
    ¬ ∀ ms σ τ X iat t s, PresentedAfter .refusing {} (requests .refusing {} (fun _ => 0) {} ms)
      X iat t σ τ s → RefusesTicket {} (requests .refusing {} (fun _ => 0) {} ms).log t τ := by
  intro h
  have hrefuses := h (signOutThenTicket 900) 0 1 sampleSession 0 samplePlayback 0
    (ticket_presentedAfter (by decide +kernel) ⟨_, rfl, rfl⟩ ⟨_, rfl⟩ (by decide +kernel)
      (by decide +kernel) (by decide +kernel))
  have hjob : (requests .refusing {} (fun _ => 0) {} (signOutThenTicket 900)).job 1 =
      some (.getContent {} "f1" (some (.signed samplePlayback)),
        .ret ⟨200, false, .core ⟨"ann", "acme", "", ["users"]⟩⟩) := by rfl
  have hyields := Pool.run_reaches_some (World.system {} fun _ => 0) (serve .refusing {}) {} hjob
  have hout := serve_outcome hyields
  generalize hbody : (Response.body _) = b at hout
  cases hout with
  | content passed =>
    obtain ⟨tr, -, hauth⟩ := passed.authenticated
    rcases authenticate_during.of_yields hauth _ rfl with ⟨_, _, _, hp⟩ | ⟨_, hb, -⟩
    · cases hp.credentials
    · cases hb
  | ticketContent passed =>
    obtain ⟨tr, htr, hy⟩ := passed
    exact hrefuses _ _ tr _ htr hy
  | _ => cases hbody

/-! ### A refresh on a cached verdict -/

theorem NotVouched.of_forall {inst : ℕ → ℕ} {log : List (Step World Op.Ans)} {jti : String} {τ : ℕ}
    (h : ∀ y ∈ log, y.thread = τ → ∀ e ∈ (y.before.verdicts (inst τ)).lookup jti,
      e.verdict ≠ .allowed) : NotVouched inst log jti τ := by
  rintro later y earlier rfl hyt - _ _ e - hfound -
  exact h y (by simp) hyt e hfound

/-- What the refresh mints. -/
def sampleRefreshed : Claims :=
  sessionClaims "fileengine-bridge" "ann" "acme" "s1" 1 900 (OrdMap.empty.insert "acme" ["users"])
    ["pwd"] "" "" "" ""

/-- Thread 0 runs on an instance of its own. -/
def twoInstances (t : ℕ) : ℕ := if t = 0 then 0 else 1

/-- A sign-out on one instance, a refresh a second later on another, and ten
seconds later a request with what the refresh mints. -/
def signOutThenRefresh (before : List (Move ApiRequest Weather)) : List (Move ApiRequest Weather) :=
  List.replicate 8 (.exec 3 playable) ++
    (.spawn 3 (.resource { authorization := .bearer (.signed sampleRefreshed) }) :: .tick 10 ::
      (List.replicate 9 (.exec 2 playable) ++
        (.spawn 2 (.refreshToken sampleBearer) :: .tick 1 ::
          (List.replicate 4 (.exec 0 playable) ++ (.spawn 0 (.revokeToken sampleBearer) :: before)))))

/-- A request on the other instance, which caches that the session is allowed. -/
def usedBefore : List (Move ApiRequest Weather) :=
  List.replicate 10 (.exec 1 playable) ++ [.spawn 1 (.resource sampleBearer)]

abbrev refreshRun (before : List (Move ApiRequest Weather)) :
    Pool World Op.Ans ApiRequest Response :=
  requests .refusing {} twoInstances {} (signOutThenRefresh before)

theorem refreshRun_spawned {before : List (Move ApiRequest Weather)} {τ : ℕ} {rq : ApiRequest}
    {q : Bridge Response} (h : (refreshRun before).job τ = some (rq, q)) :
    rq = .resource { authorization := .bearer (.signed sampleRefreshed) } ∨
      (τ = 2 ∧ rq = .refreshToken sampleBearer) ∨ rq = .revokeToken sampleBearer ∨
      .spawn τ rq ∈ before := by
  have hm := Pool.run_spawned _ _ _ h
  simp only [signOutThenRefresh, List.mem_append, List.mem_replicate, List.mem_cons, reduceCtorEq,
    and_false, false_or, Move.spawn.injEq] at hm
  rcases hm with ⟨-, h⟩ | ⟨h, h'⟩ | ⟨-, h⟩ | h
  · exact .inl h
  · exact .inr (.inl ⟨h, h'⟩)
  · exact .inr (.inr (.inl h))
  · exact .inr (.inr (.inr h))

theorem refreshRun_session {before : List (Move ApiRequest Weather)}
    (hbefore : ∀ τ req, .spawn τ (.revokeToken req) ∉ before)
    (hclock : ∀ y ∈ (refreshRun before).log, 0 ≤ y.before.clock) :
    SessionIn {} (refreshRun before) sampleSession 0 where
  named := by decide
  expires := rfl
  unique τ req q c hjob hbearer _ := by
    rcases refreshRun_spawned hjob with h | ⟨-, h⟩ | h | h
    · cases h
    · cases h
    · cases h
      cases hbearer
      rfl
    · exact absurd h (hbefore τ req)
  minted y hy req q _ _ := hclock y hy

/-- Without a cached verdict the refresh is refused. -/
theorem signOutThenRefresh_endsSession : EndsSession {} (refreshRun []) sampleSession 0 := by
  refine nothing_derived_after_signOut rfl (by decide) (fun _ => rfl)
    (refreshRun_session (fun _ _ => by simp) (by decide +kernel)) ⟨sampleBearer, _, rfl, rfl, rfl⟩
    (.inl rfl) fun τ rq q hjob hrq _ => ?_
  obtain rfl : τ = 2 := by
    rcases refreshRun_spawned hjob with rfl | ⟨h, -⟩ | rfl | h
    · obtain ⟨_, h | h, -⟩ := hrq <;> cases h
    · exact h
    · obtain ⟨_, h | h, -⟩ := hrq <;> cases h
    · cases h
  refine ⟨.of_forall ?_, .of_forall ?_⟩
  · show ∀ y ∈ (refreshRun []).log, y.thread = 2 → y.before.clock < 0 + 900
    decide +kernel
  · show ∀ y ∈ (refreshRun []).log, y.thread = 2 → ∀ e ∈ (y.before.verdicts 1).lookup "x1",
      e.verdict ≠ .allowed
    decide +kernel

/-- **A signed-out session can be extended.** The instance of the refresh has
cached that the session is allowed; what it mints is accepted from then on. -/
theorem not_nothing_derived_after_signOut :
    ¬ ∀ ms X iat σ, SessionIn {} (requests .refusing {} twoInstances {} ms) X iat →
      SignedOut (requests .refusing {} twoInstances {} ms) X σ →
      EndsSession {} (requests .refusing {} twoInstances {} ms) X σ := by
  intro h
  have hends := h (signOutThenRefresh usedBefore) sampleSession 0 0
    (refreshRun_session (fun _ _ => by simp [usedBefore]) (by decide +kernel))
    ⟨sampleBearer, _, rfl, rfl, rfl⟩
  have hjob : (requests .refusing {} twoInstances {} (signOutThenRefresh usedBefore)).job 3 =
      some (.resource { authorization := .bearer (.signed sampleRefreshed) },
        .ret ⟨200, false, .core ⟨"ann", "acme", "", ["users"]⟩⟩) := by rfl
  have hyields := Pool.run_reaches_some (World.system {} twoInstances) (serve .refusing {}) {} hjob
  have hout := serve_outcome hyields
  generalize hbody : (Response.body _) = b at hout
  cases hout with
  | resource passed =>
    obtain ⟨tr, htr, hauth⟩ := passed.authenticated
    have hrefresh : (requests .refusing {} twoInstances {} (signOutThenRefresh usedBefore)).job 2 =
        some (.refreshToken sampleBearer,
          .ret ⟨200, false, .session "token" sampleRefreshed 900 none⟩) := by rfl
    refine hends 0 sampleRefreshed (by decide +kernel) (.refresh hrefresh rfl
      (.of_pairwise (by decide +kernel)) rfl) ⟨3, _, tr, _, rfl, htr, hauth, fun m hm => ?_⟩
    obtain ⟨y, hy, hyt, hye⟩ := (mem_trace _ _ _).mp (htr.subset hm)
    have hclock : ∀ y ∈ (refreshRun usedBefore).log, y.thread = 3 → 0 + max 5 0 ≤ y.before.clock := by
      decide +kernel
    rw [step_time (serve .refusing {}) {} hy hye]
    exact hclock y hy hyt
  | _ => cases hbody

end HttpBridge
