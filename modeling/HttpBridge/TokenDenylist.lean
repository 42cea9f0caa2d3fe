/-
# The revocation denylist

`TokenDenylist` over its operations. A check reads the clock, consults the
verdict cache, and on a miss asks the store and caches the answer, stamped
with the clock it read first; a sign-out writes the store, reads the clock and
seeds the cache of its own instance. The cache is locked for each access only,
so everything else may happen in between.

* `check_yields`: the two traces of a check, a hit and a miss.
* `check_reaches`: where a check can stand in between.
* `revoke_yields`: the traces of a revocation.
* `permits_yields`: what is permitted, from the verdict.
-/
import HttpBridge.Effects

namespace HttpBridge
namespace TokenDenylist

open Interact

/-- `TokenDenylist::check`. -/
def check (D : DenylistOptions) (jti : String) : Bridge Revocation := do
  if !D.enabled || jti == "" then return .allowed
  let now ← perform .time
  if let some e ← perform (.denylistFind jti) then
    if e.until_ > now then return e.verdict
  let v ← perform (.denylistLookup jti)
  perform (.denylistPut jti v now)
  return v

/-- What `permits` makes of a verdict. -/
def honours (D : DenylistOptions) : Revocation → Bool
  | .allowed => true
  | .revoked => false
  | .unknown => D.failOpen

/-- `TokenDenylist::permits`. -/
def permits (D : DenylistOptions) (jti : String) : Bridge Bool := do
  let v ← check D jti
  return honours D v

/-- `TokenDenylist::revoke`. -/
def revoke (D : DenylistOptions) (jti : String) (ttlSeconds : ℤ) : Bridge Bool := do
  if !D.enabled then return true
  if jti == "" then return false
  if ttlSeconds ≤ 0 then return true
  let ok ← perform (.denylistStore jti ttlSeconds)
  if ok then
    let now ← perform .time
    perform (.denylistSeed jti now)
  return ok

variable {D : DenylistOptions} {jti : String}

/-- A check without a denylist, or of a token without a name, asks no one. -/
theorem check_of_disabled (h : D.enabled = false ∨ jti = "") : check D jti = .ret .allowed := by
  rcases h with h | h <;> simp [check, h]

/-- A check that has something to ask, operation by operation. -/
theorem check_eq (hD : D.enabled = true) (hj : jti ≠ "") :
    check D jti = .call .time fun now => .call (.denylistFind jti) fun o =>
      match o with
      | some e =>
        if e.until_ > now then .ret e.verdict
        else .call (.denylistLookup jti) fun v => .call (.denylistPut jti v now) fun _ => .ret v
      | none =>
        .call (.denylistLookup jti) fun v => .call (.denylistPut jti v now) fun _ => .ret v := by
  simp only [check, hD, hj, Bool.not_true, beq_iff_eq, Bool.false_or, if_false, perform,
    Prog.perform, Prog.call_bind, Prog.ret_bind, Prog.pure_eq_ret]
  congr 1
  funext now
  congr 1
  funext o
  cases o <;> rfl

/-- A revocation of something, operation by operation. -/
theorem revoke_eq {ttl : ℤ} (hD : D.enabled = true) (hj : jti ≠ "") (ht : 0 < ttl) :
    revoke D jti ttl = .call (.denylistStore jti ttl) fun ok =>
      if ok then .call .time fun now => .call (.denylistSeed jti now) fun _ => .ret ok
      else .ret ok := by
  simp only [revoke, hD, hj, Int.not_le.mpr ht, Bool.not_true, Bool.false_eq_true, beq_iff_eq,
    if_false, perform, Prog.perform, Prog.call_bind, Prog.ret_bind, Prog.pure_eq_ret]

/-- The events of a cache hit and of a miss. -/
def hitTrace (jti : String) (now : ℤ) (e : CacheEntry) : Trace :=
  [⟨.time, now⟩, ⟨.denylistFind jti, some e⟩]

def missTrace (jti : String) (now : ℤ) (o : Option CacheEntry) (v : Revocation) : Trace :=
  [⟨.time, now⟩, ⟨.denylistFind jti, o⟩, ⟨.denylistLookup jti, v⟩]

/-- Nothing unexpired was found. -/
def Missed (now : ℤ) (o : Option CacheEntry) : Prop := ∀ e, o = some e → e.until_ ≤ now

/-- **The traces of a check.** An unexpired entry decides it; otherwise the
store does, and its answer is cached under the clock read before it. -/
theorem check_yields (hD : D.enabled = true) (hj : jti ≠ "") {tr : Trace} {v : Revocation} :
    (check D jti).Yields tr v ↔ ∃ now,
      (∃ e, tr = hitTrace jti now e ∧ now < e.until_ ∧ v = e.verdict) ∨
      ∃ o, tr = missTrace jti now o v ++ [⟨.denylistPut jti v now, ()⟩] ∧ Missed now o := by
  have miss : ∀ now tr', (Prog.call (Op.denylistLookup jti) fun v =>
      Prog.call (Op.denylistPut jti v now) fun _ => Prog.ret v : Bridge Revocation).Yields tr' v ↔
        tr' = [⟨.denylistLookup jti, v⟩, ⟨.denylistPut jti v now, ()⟩] := by
    intro now tr'
    constructor
    · intro h
      rcases tr' with _ | ⟨_, _ | ⟨_, tr'⟩⟩
      · simp [Prog.Yields] at h
      · obtain ⟨_, rfl, h⟩ := h
        simp at h
      · obtain ⟨_, rfl, _, rfl, h⟩ := h
        obtain ⟨rfl, rfl⟩ := (Prog.ret_yields _ _ _).mp h
        rfl
    · rintro rfl
      exact ⟨_, rfl, _, rfl, by simp⟩
  rw [check_eq hD hj]
  constructor
  · intro h
    rcases tr with _ | ⟨_, _ | ⟨_, tr⟩⟩
    · simp [Prog.Yields] at h
    · obtain ⟨_, rfl, h⟩ := h
      simp at h
    obtain ⟨now, rfl, o, rfl, h⟩ := h
    refine ⟨now, ?_⟩
    cases o with
    | none =>
      rw [(miss now tr).mp h]
      exact .inr ⟨none, rfl, fun e he => by cases he⟩
    | some e =>
      dsimp only at h
      split_ifs at h with hu
      · obtain ⟨rfl, rfl⟩ := (Prog.ret_yields _ _ _).mp h
        exact .inl ⟨e, rfl, hu, rfl⟩
      · rw [(miss now tr).mp h]
        refine .inr ⟨some e, rfl, fun e' he => ?_⟩
        cases he
        exact Int.not_lt.mp hu
  · rintro ⟨now, ⟨e, rfl, hu, rfl⟩ | ⟨o, rfl, hm⟩⟩
    · refine ⟨now, rfl, some e, rfl, ?_⟩
      dsimp only
      rw [if_pos hu]
      simp
    · refine ⟨now, rfl, o, rfl, ?_⟩
      cases o with
      | none => exact (miss now _).mpr rfl
      | some e =>
        dsimp only
        rw [if_neg (Int.not_lt.mpr (hm e rfl))]
        exact (miss now _).mpr rfl

/-- A check reads the clock once. -/
theorem check_time_unique (hD : D.enabled = true) (hj : jti ≠ "") {tr : Trace} {v : Revocation}
    (h : (check D jti).Yields tr v) {n n' : ℤ} (hn : ⟨.time, n⟩ ∈ tr) (hn' : ⟨.time, n'⟩ ∈ tr) :
    n = n' := by
  have hone : ∀ m, ⟨.time, m⟩ ∈ tr → ∃ m₀ tr', tr = ⟨.time, m₀⟩ :: tr' ∧ m = m₀ := by
    intro m hm
    obtain ⟨m₀, ⟨e, rfl, -⟩ | ⟨o, rfl, -⟩⟩ := (check_yields hD hj).mp h
    all_goals
      refine ⟨m₀, _, rfl, ?_⟩
      simp only [hitTrace, missTrace, List.cons_append, List.nil_append, List.mem_cons,
        List.not_mem_nil, or_false] at hm
      rcases hm with hm | hm
      · cases hm
        rfl
    · cases hm
    · rcases hm with hm | hm | hm <;> cases hm
  obtain ⟨m, tr', rfl, rfl⟩ := hone n hn
  obtain ⟨m', tr'', he, rfl⟩ := hone n' hn'
  cases he
  rfl

/-- What a check looked up it answers. -/
theorem check_lookup (hD : D.enabled = true) (hj : jti ≠ "") {tr : Trace} {v v' : Revocation}
    (h : (check D jti).Yields tr v) {j : String} (hl : ⟨.denylistLookup j, v'⟩ ∈ tr) : v' = v := by
  obtain ⟨m, ⟨e, rfl, -⟩ | ⟨o, rfl, -⟩⟩ := (check_yields hD hj).mp h
  · simp only [hitTrace, List.mem_cons, List.not_mem_nil, or_false] at hl
    rcases hl with hl | hl <;> cases hl
  · simp only [missTrace, List.cons_append, List.nil_append, List.mem_cons, List.not_mem_nil,
      or_false] at hl
    rcases hl with hl | hl | hl | hl <;> cases hl
    rfl

/-- **Where a check can stand.** About to perform an operation, it has done
what comes before it. -/
theorem check_reaches (hD : D.enabled = true) (hj : jti ≠ "") {tr : Trace} {op : Op}
    {k : op.Ans → Bridge Revocation} (h : (check D jti).Reaches tr (.call op k)) :
    (tr = [] ∧ op = .time) ∨
      (∃ now, tr = [⟨.time, now⟩] ∧ op = .denylistFind jti) ∨
      (∃ now o, tr = [⟨.time, now⟩, ⟨.denylistFind jti, o⟩] ∧ op = .denylistLookup jti ∧
        Missed now o) ∨
      ∃ now o v, tr = missTrace jti now o v ∧ op = .denylistPut jti v now ∧ Missed now o := by
  rw [check_eq hD hj] at h
  rcases tr with _ | ⟨_, _ | ⟨_, tr⟩⟩
  · rw [Prog.reaches_nil, Prog.call.injEq] at h
    exact .inl ⟨rfl, h.1⟩
  · obtain ⟨now, rfl, h⟩ := h
    rw [Prog.reaches_nil, Prog.call.injEq] at h
    exact .inr (.inl ⟨now, rfl, h.1⟩)
  obtain ⟨now, rfl, o, rfl, h⟩ := h
  have miss : ∀ {tr : Trace}, Prog.Reaches (Prog.call (Op.denylistLookup jti) fun v =>
      Prog.call (Op.denylistPut jti v now) fun _ => Prog.ret v) tr (.call op k) →
      (tr = [] ∧ op = .denylistLookup jti) ∨
        ∃ v, tr = [⟨.denylistLookup jti, v⟩] ∧ op = .denylistPut jti v now := by
    intro tr h
    rcases tr with _ | ⟨_, _ | ⟨_, tr⟩⟩
    · rw [Prog.reaches_nil, Prog.call.injEq] at h
      exact .inl ⟨rfl, h.1⟩
    · obtain ⟨v, rfl, h⟩ := h
      rw [Prog.reaches_nil, Prog.call.injEq] at h
      exact .inr ⟨v, rfl, h.1⟩
    · obtain ⟨v, rfl, _, rfl, h⟩ := h
      simp at h
  have hm : Missed now o ∧ Prog.Reaches (Prog.call (Op.denylistLookup jti) fun v =>
      Prog.call (Op.denylistPut jti v now) fun _ => Prog.ret v) tr (.call op k) := by
    cases o with
    | none => exact ⟨fun e he => (nomatch he), h⟩
    | some e =>
      dsimp only at h
      split_ifs at h with hu
      · simp at h
      · refine ⟨fun e' he => ?_, h⟩
        cases he
        exact Int.not_lt.mp hu
  rcases miss hm.2 with ⟨rfl, rfl⟩ | ⟨v, rfl, rfl⟩
  · exact .inr (.inr (.inl ⟨now, o, rfl, rfl, hm.1⟩))
  · exact .inr (.inr (.inr ⟨now, o, v, rfl, rfl, hm.1⟩))

theorem permits_yields {tr : Trace} {b : Bool} :
    (permits D jti).Yields tr b ↔ ∃ v, (check D jti).Yields tr v ∧ b = honours D v := by
  simp only [permits, Prog.yields_bind, Prog.pure_eq_ret, Prog.ret_yields]
  constructor
  · rintro ⟨v, tr₁, _, rfl, h, rfl, rfl⟩
    exact ⟨v, by simpa using h, rfl⟩
  · rintro ⟨v, h, rfl⟩
    exact ⟨v, tr, [], (List.append_nil _).symm, h, rfl, rfl⟩

/-- **The traces of a revocation.** It reports success without the store when
there is nothing to revoke; otherwise the store decides, and on success the
instance's own cache is seeded with the refusal. -/
theorem revoke_yields {ttl : ℤ} {tr : Trace} {b : Bool} :
    (revoke D jti ttl).Yields tr b ↔
      (tr = [] ∧ ((D.enabled = false ∧ b = true) ∨ (D.enabled = true ∧ jti = "" ∧ b = false) ∨
        (D.enabled = true ∧ jti ≠ "" ∧ ttl ≤ 0 ∧ b = true))) ∨
      (D.enabled = true ∧ jti ≠ "" ∧ 0 < ttl ∧
        ((tr = [⟨.denylistStore jti ttl, false⟩] ∧ b = false) ∨
          ∃ now, tr = [⟨.denylistStore jti ttl, true⟩, ⟨.time, now⟩, ⟨.denylistSeed jti now, ()⟩] ∧
            b = true)) := by
  unfold revoke
  cases hD : D.enabled with
  | false => simp
  | true =>
    by_cases hj : jti = ""
    · simp [hj]
    · by_cases ht : ttl ≤ 0
      · simp [hj, ht, Int.not_lt.mpr ht]
      · simp only [Bool.not_true, beq_iff_eq, hj, ht, if_false, perform, Bool.false_eq_true,
          Prog.yields_perform_bind]
        constructor
        · rintro ⟨ok, tr', rfl, h⟩
          refine .inr ⟨trivial, hj, Int.not_le.mp ht, ?_⟩
          cases ok with
          | false =>
            simp only [Bool.false_eq_true, if_false, Prog.pure_eq_ret, Prog.ret_yields] at h
            exact .inl ⟨by rw [h.1], h.2⟩
          | true =>
            simp only [if_true, Prog.yields_perform_bind, Prog.pure_eq_ret, Prog.ret_yields] at h
            obtain ⟨now, _, rfl, _, _, rfl, rfl, rfl⟩ := h
            exact .inr ⟨now, rfl, rfl⟩
        · rintro (⟨-, ⟨h, -⟩ | ⟨-, h, -⟩ | ⟨-, -, h, -⟩⟩ | ⟨-, -, -, ⟨rfl, rfl⟩ | ⟨now, rfl, rfl⟩⟩)
          · cases h
          · exact h.elim
          · exact h.elim
          · exact ⟨false, [], rfl, by simp⟩
          · refine ⟨true, _, rfl, ?_⟩
            simp [Prog.yields_perform_bind]

/-- What a check can perform. -/
theorem check_calls : (check D jti).Calls fun op => op = .time ∨ op = .denylistFind jti ∨
    op = .denylistLookup jti ∨ ∃ v now, op = .denylistPut jti v now := by
  by_cases h : D.enabled = false ∨ jti = ""
  · rw [check_of_disabled h]
    trivial
  · obtain ⟨hD, hj⟩ := not_or.mp h
    rw [check_eq (by simpa using hD) hj]
    refine ⟨.inl rfl, fun now => ⟨.inr (.inl rfl), fun o => ?_⟩⟩
    have miss : (Prog.call (Op.denylistLookup jti) fun v =>
        Prog.call (Op.denylistPut jti v now) fun _ => Prog.ret v : Bridge Revocation).Calls
        fun op => op = .time ∨ op = .denylistFind jti ∨ op = .denylistLookup jti ∨
          ∃ v now, op = .denylistPut jti v now :=
      ⟨.inr (.inr (.inl rfl)), fun v => ⟨.inr (.inr (.inr ⟨v, now, rfl⟩)), fun _ => trivial⟩⟩
    cases o with
    | none => exact miss
    | some e =>
      dsimp only
      split_ifs
      · trivial
      · exact miss

/-- What a revocation can perform; it writes the store only for a token with a
name and a lifetime. -/
theorem revoke_calls {ttl : ℤ} : (revoke D jti ttl).Calls fun op =>
    (op = .denylistStore jti ttl ∧ jti ≠ "" ∧ 0 < ttl) ∨ op = .time ∨
      ∃ now, op = .denylistSeed jti now := by
  unfold revoke
  split_ifs with _ hj ht
  · trivial
  · trivial
  · trivial
  · refine ⟨.inl ⟨rfl, by simpa using hj, Int.not_le.mp ht⟩, fun ok => ?_⟩
    cases ok with
    | false => trivial
    | true => exact ⟨.inr (.inl rfl), fun now => ⟨.inr (.inr ⟨now, rfl⟩), fun _ => trivial⟩⟩

/-- A check stamps what it caches with a clock it read before it asked. -/
theorem check_every {Φ : Trace → Op → Prop} (htime : ∀ tr, Φ tr .time)
    (hfind : ∀ tr, Φ tr (.denylistFind jti)) (hlookup : ∀ tr, Φ tr (.denylistLookup jti))
    (hput : ∀ tr v now, [⟨.time, now⟩, ⟨.denylistLookup jti, v⟩].Sublist tr →
      Φ tr (.denylistPut jti v now)) : (check D jti).Every Φ := by
  by_cases h : D.enabled = false ∨ jti = ""
  · rw [check_of_disabled h]
    simp
  · obtain ⟨hD, hj⟩ := not_or.mp h
    rw [Bool.not_eq_false] at hD
    intro tr op k hr
    rcases check_reaches hD hj hr with ⟨rfl, rfl⟩ | ⟨now, rfl, rfl⟩ | ⟨now, o, rfl, rfl, -⟩ |
      ⟨now, o, v, rfl, rfl, -⟩
    · exact htime _
    · exact hfind _
    · exact hlookup _
    · exact hput _ _ _ (.cons_cons _ (.cons _ (List.Sublist.refl _)))

end TokenDenylist
end HttpBridge
