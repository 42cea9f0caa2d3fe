/-
# What the proxy signs

The functions that mint: sessions (`mintJwt`), service sessions, tokens of a
pending second factor and tickets; and the register of live sessions kept for
the WebDAV door (`recordSession`, `dropSession`).

A session carries the roles the directory gave at the mint, for a key session
those of its own tenant only. Its tenant is the one asked for, unless that is
not among the roles: then it is the first of them (`mintedTenant_eq`).

Key theorems: `mintJwt_yields`, `grantSession_during`, `mintedTenant_eq`.
-/
import HttpBridge.Gates

namespace HttpBridge

open Interact

/-! ### Sessions -/

/-- The roles a session is minted with. -/
def mintedRoles (serviceKeyId activeTenant : String) (byTenant : RoleMap) : RoleMap :=
  if serviceKeyId == "" then byTenant else rolesForKeySession byTenant activeTenant

/-- The tenant a session is minted for. -/
def mintedTenant (activeTenant : String) (byTenant : RoleMap) : String :=
  if !byTenant.isEmpty && !byTenant.has activeTenant then byTenant.firstKey.getD activeTenant
  else activeTenant

/-- `mintJwt`. -/
def mintJwt (cfg : Config) (user activeTenant : String) (amr : List String)
    (aip serviceKeyId serviceKeyGen serviceKeyName : String) : Bridge Claims := do
  let byTenant ← perform (.getRolesByTenant user)
  let now ← perform .time
  let jti ← perform .random
  let roles := mintedRoles serviceKeyId activeTenant byTenant
  return sessionClaims cfg.jwtIssuer user (mintedTenant activeTenant roles) jti now cfg.tokenTtl
    roles amr aip serviceKeyId serviceKeyGen serviceKeyName

/-- `mintMfaPending`. -/
def mintMfaPending (cfg : Config) (user tenant ip : String) : Bridge Claims := do
  let now ← perform .time
  let jti ← perform .random
  return mfaPendingClaims cfg.jwtIssuer user tenant ip jti now cfg.mfaChallengeTtl

/-- `mintTicket`. -/
def mintTicket (cfg : Config) (id : AuthIdentity) (uid typ : String) (ttl : ℤ)
    (mediaType : String) : Bridge Claims := do
  let now ← perform .time
  return buildTicketClaims cfg.jwtIssuer id.user id.tenant id.roles uid typ id.sessionJti mediaType
    now ttl

/-- `mintServiceJwt`: the roles are the deployment's. -/
def mintServiceJwt (cfg : Config) (subject tenant aip scope : String) : Bridge Claims := do
  let now ← perform .time
  let jti ← perform .random
  return buildServiceClaims cfg.jwtIssuer subject tenant cfg.integrationServiceRoles aip scope jti
    now cfg.tokenTtl

/-! ### The register of live sessions -/

/-- The lifetime in an answer of `ldap_manager`, else the default. -/
def readSessionTtl (cfg : Config) (r : HttpResult (Option ℤ)) : ℤ :=
  if r.ok && r.status = 200 then (r.body.bind fun ttl => ttl).getD cfg.webdavSessionTtlDefault
  else cfg.webdavSessionTtlDefault

/-- The lifetime `ldap_manager` gives, where the deployment has one. -/
def fetchSessionTtl (cfg : Config) (tenant ip : String) : Bridge ℤ :=
  if cfg.ldapManagerUrl != "" && cfg.mfaInternalSecret != "" then do
    let r ← perform (.postSessionTtl tenant ip)
    return readSessionTtl cfg r
  else return cfg.webdavSessionTtlDefault

/-- `sessionTtl`. -/
def sessionTtl (cfg : Config) (tenant ip : String) : Bridge ℤ := do
  let now ← perform .time
  let cached ← perform (.sessTtlFind tenant)
  match cached.filter fun e => now < e.2 with
  | some e => return e.1
  | none =>
    let ttl ← fetchSessionTtl cfg tenant ip
    let _ ← perform (.sessTtlPut tenant ttl (now + 60))
    return ttl

/-- `recordSession`. -/
def recordSession (cfg : Config) (tenant uid jti ip : String) : Bridge Unit := do
  if !cfg.webdavIpBindingEnabled || jti == "" then return
  let now ← perform .time
  let ttl ← sessionTtl cfg tenant ip
  let _ ← perform (.sessionAdd tenant uid (jti ++ "|" ++ ip) (now + ttl))
  return

/-- `dropSession`. -/
def dropSession (cfg : Config) (tenant uid jti ip : String) : Bridge Unit := do
  if !cfg.webdavIpBindingEnabled || jti == "" then return
  let _ ← perform (.sessionRemove tenant uid (jti ++ "|" ++ ip))
  return

/-- How an endpoint hands out a session it has decided to grant: mint, record,
answer under its field. -/
def grantSession (cfg : Config) (user tenant : String) (amr : List String) (aip ip field : String)
    (recoveryCodes : Option String) : Bridge Response := do
  let token ← mintJwt cfg user tenant amr aip "" "" ""
  let _ ← recordSession cfg tenant user (optValue token.jti) ip
  return { status := 200, body := .session field token cfg.tokenTtl recoveryCodes }

variable {cfg : Config} {tr : Trace} {user tenant aip : String} {amr : List String}

/-- **What is minted.** The roles are the directory's answer. -/
theorem mintJwt_yields {serviceKeyId serviceKeyGen serviceKeyName : String} {c : Claims} :
    (mintJwt cfg user tenant amr aip serviceKeyId serviceKeyGen serviceKeyName).Yields tr c ↔
      ∃ m now jti, tr = [⟨.getRolesByTenant user, m⟩, ⟨.time, now⟩, ⟨.random, jti⟩] ∧
        c = sessionClaims cfg.jwtIssuer user (mintedTenant tenant (mintedRoles serviceKeyId tenant m))
          jti now cfg.tokenTtl (mintedRoles serviceKeyId tenant m) amr aip serviceKeyId serviceKeyGen
          serviceKeyName := by
  simp only [mintJwt, perform, Prog.yields_perform_bind, Prog.pure_eq_ret, Prog.ret_yields]
  constructor
  · rintro ⟨m, _, rfl, now, _, rfl, jti, _, rfl, rfl, rfl⟩
    exact ⟨m, now, jti, rfl, rfl⟩
  · rintro ⟨m, now, jti, rfl, rfl⟩
    exact ⟨m, _, rfl, now, _, rfl, jti, _, rfl, rfl, rfl⟩

/-- A session was minted for the user in the course of `T`, with the roles the
directory gave there. -/
structure Granted (cfg : Config) (T : Trace) (user tenant : String) (amr : List String)
    (keyId : String) (c : Claims) (m : RoleMap) : Prop where
  roles : ⟨.getRolesByTenant user, m⟩ ∈ T
  claims : ∃ now jti aip keyGen keyName, ⟨.random, jti⟩ ∈ T ∧
    c = sessionClaims cfg.jwtIssuer user (mintedTenant tenant (mintedRoles keyId tenant m)) jti now
      cfg.tokenTtl (mintedRoles keyId tenant m) amr aip keyId keyGen keyName

section Granted

variable {T : Trace} {keyId : String} {c : Claims} {m : RoleMap}

theorem Granted.sub (h : Granted cfg T user tenant amr keyId c m) : c.sub = some user := by
  obtain ⟨-, -, -, -, -, -, -, rfl⟩ := h
  rfl

theorem Granted.tenant_eq (h : Granted cfg T user tenant amr keyId c m) :
    c.tenant = some (mintedTenant tenant (mintedRoles keyId tenant m)) := by
  obtain ⟨-, -, -, -, -, -, -, rfl⟩ := h
  rfl

theorem Granted.roles_eq (h : Granted cfg T user tenant amr keyId c m) :
    c.roles = some (mintedRoles keyId tenant m) := by
  obtain ⟨-, -, -, -, -, -, -, rfl⟩ := h
  rfl

theorem Granted.svc (h : Granted cfg T user tenant amr keyId c m) : c.svc = none := by
  obtain ⟨-, -, -, -, -, -, -, rfl⟩ := h
  rfl

theorem Granted.mfaPending (h : Granted cfg T user tenant amr keyId c m) : c.mfaPending = none := by
  obtain ⟨-, -, -, -, -, -, -, rfl⟩ := h
  rfl

theorem Granted.amr_eq (h : Granted cfg T user tenant amr keyId c m) : c.amr = some amr := by
  obtain ⟨-, -, -, -, -, -, -, rfl⟩ := h
  rfl

theorem Granted.skid_eq (h : Granted cfg T user tenant amr keyId c m) : optValue c.skid = keyId := by
  obtain ⟨-, -, -, -, -, -, -, rfl⟩ := h
  by_cases hk : keyId = "" <;> simp [sessionClaims, hk]

/-- What `mintJwt` returns was minted, and the rest may use that. -/
theorem mintJwt_during {keyGen keyName : String} {α : Type} {f : Claims → Bridge α} {Q : α → Prop}
    (h : ∀ c m, Granted cfg T user tenant amr keyId c m → (f c).During T Q) :
    (mintJwt cfg user tenant amr aip keyId keyGen keyName >>= f).During T Q := by
  refine .bind fun tr c htr hc => ?_
  obtain ⟨m, now, jti, rfl, rfl⟩ := mintJwt_yields.mp hc
  exact h _ m ⟨htr.subset (by simp), now, jti, aip, keyGen, keyName, htr.subset (by simp), rfl⟩

theorem grantSession_during {ip field : String} {recoveryCodes : Option String}
    {Q : Response → Prop} (h : ∀ c m, Granted cfg T user tenant amr "" c m →
      Q { status := 200, body := .session field c cfg.tokenTtl recoveryCodes }) :
    (grantSession cfg user tenant amr aip ip field recoveryCodes).During T Q :=
  mintJwt_during fun c m hg => .skip fun _ => .ret (h c m hg)

end Granted

/-! ### Where a session may act -/

/-- **The tenant of a session**, in terms of the directory's answer. -/
theorem mintedTenant_eq {t active : String} {m : RoleMap} :
    mintedTenant active m = t ↔
      ((m.isEmpty = true ∨ m.has active = true) ∧ active = t) ∨
        (m.isEmpty = false ∧ m.has active = false ∧ m.firstKey = some t) := by
  unfold mintedTenant
  cases he : m.isEmpty with
  | true => simp
  | false =>
    cases hm : m.has active with
    | true => simp
    | false =>
      obtain ⟨k, v, hk, -⟩ := OrdMap.find_firstKey he
      simp [hk]

/-- The tenant asked of a mint is kept exactly if it is among the roles, or
there are none. -/
theorem mintedTenant_eq_self {active : String} {m : RoleMap} :
    mintedTenant active m = active ↔ m.isEmpty = true ∨ m.has active = true := by
  rw [mintedTenant_eq]
  constructor
  · rintro (⟨h, -⟩ | ⟨he, hno, hfirst⟩)
    · exact h
    · obtain ⟨k, v, hk, hv⟩ := OrdMap.find_firstKey he
      rw [hfirst] at hk
      cases hk
      exact .inr (OrdMap.has_eq_true.mpr ⟨v, hv⟩)
  · exact fun h => .inl ⟨h, rfl⟩

/-- A session for which the directory gave roles is minted for one of them. -/
theorem has_mintedTenant {active : String} {m : RoleMap} (he : m.isEmpty = false) :
    m.has (mintedTenant active m) = true := by
  rcases mintedTenant_eq.mp (rfl : mintedTenant active m = _) with ⟨h, ha⟩ | ⟨-, -, hk⟩
  · rw [← ha]
    exact h.resolve_left (by simp [he])
  · obtain ⟨k, v, hk', hv⟩ := OrdMap.find_firstKey he
    rw [hk] at hk'
    cases hk'
    exact OrdMap.has_eq_true.mpr ⟨v, hv⟩

/-- A key session is minted for its own tenant. -/
theorem mintedTenant_keySession (active : String) (m : RoleMap) :
    mintedTenant active (rolesForKeySession m active) = active := by
  rw [mintedTenant_eq]
  refine .inl ⟨?_, rfl⟩
  unfold rolesForKeySession OrdMap.restrict
  cases m.find active with
  | none => exact .inl rfl
  | some v => exact .inr (OrdMap.has_eq_true.mpr ⟨v, by simp⟩)

theorem Granted.tenant_of_key {T : Trace} {keyId : String} {c : Claims} {m : RoleMap}
    (h : Granted cfg T user tenant amr keyId c m) (hkey : keyId ≠ "") :
    optValue c.tenant = tenant := by
  have hroles : mintedRoles keyId tenant m = rolesForKeySession m tenant := by
    simp [mintedRoles, hkey]
  rw [h.tenant_eq, hroles, mintedTenant_keySession]
  rfl

/-! ### What minting can pass through -/

namespace Within

variable {G : Gate → Prop}

theorem mintJwt {serviceKeyId serviceKeyGen serviceKeyName : String} :
    Within cfg G
      (HttpBridge.mintJwt cfg user tenant amr aip serviceKeyId serviceKeyGen serviceKeyName) :=
  .bind (.plain rfl) fun _ => .bind (.plain rfl) fun _ => .bind (.plain rfl) fun _ => .ret

theorem mintMfaPending {ip : String} : Within cfg G (HttpBridge.mintMfaPending cfg user tenant ip) :=
  .bind (.plain rfl) fun _ => .bind (.plain rfl) fun _ => .ret

theorem mintTicket {id : AuthIdentity} {uid typ mediaType : String} {ttl : ℤ} :
    Within cfg G (HttpBridge.mintTicket cfg id uid typ ttl mediaType) :=
  .bind (.plain rfl) fun _ => .ret

theorem mintServiceJwt {subject scope : String} :
    Within cfg G (HttpBridge.mintServiceJwt cfg subject tenant aip scope) :=
  .bind (.plain rfl) fun _ => .bind (.plain rfl) fun _ => .ret

theorem sessionTtl {ip : String} : Within cfg G (HttpBridge.sessionTtl cfg tenant ip) := by
  refine .bind (.plain rfl) fun now => .bind (.plain rfl) fun cached => ?_
  split
  · exact .ret
  · refine .bind ?_ fun ttl => .bind (.plain rfl) fun _ => .ret
    unfold fetchSessionTtl
    split_ifs
    · exact .bind (.plain rfl) fun _ => .ret
    · exact .ret

theorem recordSession {uid jti ip : String} (h : ∀ g : Gate, g.registers → G g) :
    Within cfg G (HttpBridge.recordSession cfg tenant uid jti ip) := by
  unfold HttpBridge.recordSession
  split_ifs
  · exact .ret
  · exact .bind (.plain rfl) fun _ => .bind .sessionTtl fun _ => .bind (.call rfl (h _ trivial))
      fun _ => .ret

theorem dropSession {uid jti ip : String} :
    Within cfg G (HttpBridge.dropSession cfg tenant uid jti ip) := by
  unfold HttpBridge.dropSession
  split_ifs
  · exact .ret
  · exact .bind (.plain rfl) fun _ => .ret

theorem grantSession {ip field : String} {recoveryCodes : Option String}
    (h : ∀ g : Gate, g.registers → G g) :
    Within cfg G (HttpBridge.grantSession cfg user tenant amr aip ip field recoveryCodes) :=
  .bind .mintJwt fun _ => .bind (.recordSession h) fun _ => .ret

end Within
end HttpBridge
