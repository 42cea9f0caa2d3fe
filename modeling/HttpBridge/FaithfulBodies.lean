/-
# Which bodies are read back

The bodies that the proxy answers of itself, after those of the core
(`ResponseText`). Two strings go in as they are, the tenant of a `2fa_required`
refusal and the error of the core in `readyz`. A body that carries one is read
back exactly where no character of it needed an escape, and one with a number
exactly where the number is finite (`bodies_faithful`).
-/
import HttpBridge.ResponseText

namespace HttpBridge

open Net JsonText

/-! ### Bodies of the proxy -/

theorem readsAs_whoami (user tenant : String) (roles : List String) :
    ReadsAs (whoamiJson user tenant roles).toList (.obj [("user", .str user),
      ("tenant", .str tenant), ("roles", stringsDoc roles)]) := by
  have h := ReadsMembers.obj <|
    .cons (strMember "user" (by decide) user) <| .cons (strMember "tenant" (by decide) tenant) <|
    .one (readsMember "roles" (by decide) (readsAs_jsonArray roles))
  unfold whoamiJson
  simp only [String.toList_append, List.append_assoc]
  simp only [memberText, String.reduceToList, List.append_assoc, List.cons_append,
    List.nil_append] at h ⊢
  assumption

theorem readsAs_introspect (user tenant : String) (roles : List String) :
    ReadsAs (introspectJson user tenant roles).toList (.obj [("active", .bool true),
      ("user", .str user), ("tenant", .str tenant), ("roles", stringsDoc roles)]) := by
  have h := ReadsMembers.obj <|
    .cons (boolMember "active" (by decide) true) <| .cons (strMember "user" (by decide) user) <|
    .cons (strMember "tenant" (by decide) tenant) <|
    .one (readsMember "roles" (by decide) (readsAs_jsonArray roles))
  unfold introspectJson
  simp only [String.toList_append, List.append_assoc]
  simp only [memberText, String.reduceToList, List.append_assoc, List.cons_append,
    List.nil_append] at h ⊢
  assumption

theorem readsAs_tenants (tenants : List String) (current : String) :
    ReadsAs (tenantsJson tenants current).toList (.obj [("tenants", stringsDoc tenants),
      ("current", .str current)]) := by
  have h := ReadsMembers.obj <|
    .cons (readsMember "tenants" (by decide) (readsAs_jsonArray tenants)) <|
    .one (strMember "current" (by decide) current)
  unfold tenantsJson
  simp only [String.toList_append, List.append_assoc]
  simp only [memberText, String.reduceToList, List.append_assoc, List.cons_append,
    List.nil_append] at h ⊢
  assumption

theorem readsAs_storage {r : StorageUsage} (h : r.usagePercentage.isFinite = true) :
    ReadsAs (storageJson r).toList (JsonBody.storage r).json := by
  have h := ReadsMembers.obj <|
    .cons (intMember "total_space" (by decide) r.totalSpace) <|
    .cons (intMember "used_space" (by decide) r.usedSpace) <|
    .cons (intMember "available_space" (by decide) r.availableSpace) <|
    .one (readsMember "usage_percentage" (by decide) (readsAs_double h))
  unfold storageJson
  simp only [String.toList_append, List.append_assoc]
  simp only [memberText, String.reduceToList, List.append_assoc, List.cons_append,
    List.nil_append] at h ⊢
  assumption

theorem readsAs_integrationStatus (issuer audience : String) (keyPresent : Bool)
    (allowedIps : List String) (allowService : Bool) :
    ReadsAs (integrationStatusJson issuer audience keyPresent allowedIps allowService).toList
      (integrationStatusDoc issuer audience keyPresent allowedIps allowService) := by
  have h := ReadsMembers.obj <|
    .cons (boolMember "enabled" (by decide) (issuer != "" && keyPresent)) <|
    .cons (strMember "issuer" (by decide) issuer) <|
    .cons (strMember "audience" (by decide) audience) <|
    .cons (boolMember "key_present" (by decide) keyPresent) <|
    .cons (readsMember "allowed_ips" (by decide) (readsAs_jsonArray allowedIps)) <|
    .cons (boolMember "ip_allowlist_enforced" (by decide) (!allowedIps.isEmpty)) <|
    .one (boolMember "allow_service" (by decide) allowService)
  unfold integrationStatusJson integrationStatusDoc
  simp only [← jsonEscape_eq, String.toList_append, List.append_assoc]
  simp only [jsonArray, memberText, String.toList_append, String.reduceToList, List.append_assoc,
    List.cons_append, List.nil_append] at h ⊢
  assumption

theorem readsAs_integrations (cfg : Config) :
    ReadsAs (integrationsJson cfg).toList (integrationsDoc cfg) := by
  have hread : ∀ {t : String} {vs : List Json}, ReadsAs ("[" ++ t ++ "]").toList (.arr vs) →
      ReadsAs ("\x7b\"integrations\":[" ++ t ++ "]\x7d").toList (.obj [("integrations", .arr vs)]) := by
    intro t vs ht
    have h := ReadsMembers.obj (.one (readsMember "integrations" (by decide) ht))
    simp only [memberText, String.toList_append, String.reduceToList, List.append_assoc,
      List.cons_append, List.nil_append] at h ⊢
    assumption
  have hstatus := readsAs_integrationStatus cfg.integrationIssuer cfg.integrationAudience
    (cfg.integrationPublicKey != "") cfg.integrationAllowedIps cfg.integrationAllowService
  unfold integrationsJson integrationsDoc
  dsimp only
  by_cases hconfigured : (cfg.integrationIssuer != "" || cfg.integrationPublicKey != "") = true
  · rw [if_pos hconfigured, if_pos hconfigured]
    have harr := ReadsAs.arr (.cons hstatus .nil)
    refine hread ?_
    simp only [joined, String.toList_append, String.reduceToList, List.cons_append,
      List.nil_append] at harr ⊢
    assumption
  · rw [if_neg hconfigured, if_neg hconfigured]
    exact hread (.arr .nil)

theorem readsAs_healthy : ReadsAs healthyJson.toList JsonBody.healthy.json :=
  ReadsMembers.obj (.one (plainMember "status" (by decide) (s := "ok") (by decide)))

theorem readsAs_ready : ReadsAs readyJson.toList JsonBody.ready.json :=
  ReadsMembers.obj <|
    .cons (plainMember "status" (by decide) (s := "ready") (by decide)) <|
    .cons (boolMember "core" (by decide) true) <|
    .one (boolMember "audit" (by decide) true)

theorem readsAs_monitorHealth : ReadsAs monitorHealthJson.toList JsonBody.monitorHealth.json :=
  ReadsMembers.obj <|
    .cons (plainMember "status" (by decide) (s := "ok") (by decide)) <|
    .one (plainMember "service" (by decide) (s := "http_bridge") (by decide))

theorem readsAs_overloaded : ReadsAs overloadedJson.toList JsonBody.overloaded.json :=
  ReadsMembers.obj <|
    .cons (plainMember "error" (by decide) (s := "overloaded") (by decide)) <|
    .one (plainMember "detail" (by decide) (s := "server is at capacity, retry shortly")
      (by decide +kernel))

theorem readsAs_pool (p : PoolCounts) :
    ReadsMembers (poolFields p).toList [poolDoc p] := by
  have hinner := ReadsMembers.obj <|
    .cons (intMember "capacity" (by decide) p.capacity) <|
    .cons (intMember "used" (by decide) p.used) <|
    .cons (intMember "available" (by decide) p.available) <|
    .one (intMember "max_queued" (by decide) p.maxQueued)
  have h := ReadsMembers.one (readsMember "pool" (by decide) hinner)
  unfold poolFields poolDoc
  simp only [String.toList_append, List.append_assoc]
  simp only [memberText, String.reduceToList, List.append_assoc, List.cons_append,
    List.nil_append] at h ⊢
  assumption

theorem readsAs_monitorReady (p : PoolCounts) :
    ReadsAs (monitorReadyJson p).toList (JsonBody.monitorReady p).json := by
  have h := ReadsMembers.obj <|
    .cons (boolMember "ready" (by decide) (0 < p.available)) (readsAs_pool p)
  unfold monitorReadyJson
  simp only [String.toList_append, List.append_assoc]
  simp only [memberText, String.reduceToList, List.append_assoc, List.cons_append,
    List.nil_append] at h ⊢
  assumption

theorem readsAs_poolz (p : PoolCounts) : ReadsAs (poolzJson p).toList (JsonBody.poolz p).json := by
  have h := ((readsAs_pool p).concat (boolMember "saturated" (by decide) (!(0 < p.available)))).obj
  unfold poolzJson
  simp only [String.toList_append, List.append_assoc]
  simp only [memberText, String.reduceToList, List.append_assoc, List.cons_append,
    List.nil_append] at h ⊢
  assumption

theorem readsAs_signed (field : SignedField) (token : SignedToken) (expiresIn : ℤ) :
    ReadsAs (signedJson field token expiresIn).toList (JsonBody.signed field token expiresIn).json := by
  have hfield : ∀ c ∈ field.text.toList, Plain c := by cases field <;> decide
  have h := ReadsMembers.obj <|
    .cons (plainMember field.text hfield token.plain) <|
    .one (intMember "expires_in" (by decide) expiresIn)
  unfold signedJson
  simp only [String.toList_append, List.append_assoc]
  simp only [memberText, String.reduceToList, List.append_assoc, List.cons_append,
    List.nil_append] at h ⊢
  assumption

theorem readsAs_token (Z : Serializer) (field : TokenField) (token : SignedToken) (expiresIn : ℤ)
    (codes : Option JsonValue) :
    ReadsAs ((JsonBody.token field token expiresIn codes).text Z).toList
      (JsonBody.token field token expiresIn codes).json := by
  have hfield : ∀ c ∈ field.text.toList, Plain c := by cases field <;> decide
  have hown := ReadsMembers.cons (plainMember field.text hfield token.plain) <|
    .cons (plainMember "token_type" (by decide) (s := "Bearer") (by decide)) <|
    .one (intMember "expires_in" (by decide) expiresIn)
  show ReadsAs (tokenJson field token expiresIn _).toList _
  unfold tokenJson
  cases codes with
  | none =>
    have h := hown.obj
    simp only [Option.map_none, String.toList_append, List.append_assoc]
    simp only [memberText, String.reduceToList, List.append_assoc, List.cons_append,
      List.nil_append] at h ⊢
    assumption
  | some v =>
    have hcodes := readsMember "recovery_codes" (by decide) (Z.reads v.json v.wellFormed)
    have h := (hown.concat hcodes).obj
    simp only [Option.map_some, String.toList_append, String.toList_ofList, List.append_assoc]
    simp only [memberText, String.reduceToList, List.append_assoc, List.cons_append,
      List.nil_append] at h ⊢
    assumption

/-! ### Strings that go in as they are -/

theorem readsAs_secondFactor {t : String} (h : ∀ c ∈ t.toList, Plain c) :
    ReadsAs (secondFactorJson t).toList (JsonBody.secondFactor t).json := by
  have h := ReadsMembers.obj <|
    .cons (plainMember "error" (by decide) (s := "2fa_required") (by decide)) <|
    .one (plainMember "tenant" (by decide) h)
  unfold secondFactorJson
  simp only [String.toList_append, List.append_assoc]
  simp only [memberText, String.reduceToList, List.append_assoc, List.cons_append,
    List.nil_append] at h ⊢
  assumption

theorem readsAs_unavailable {coreOk auditOk : Bool} {err : String}
    (h : coreOk = true ∨ ∀ c ∈ err.toList, Plain c) :
    ReadsAs (unavailableJson coreOk auditOk err).toList
      (JsonBody.unavailable coreOk auditOk err).json := by
  have hstate := ReadsMembers.cons (plainMember "status" (by decide) (s := "unavailable") (by decide)) <|
    .cons (boolMember "core" (by decide) coreOk) <| .one (boolMember "audit" (by decide) auditOk)
  unfold unavailableJson
  cases coreOk with
  | true =>
    have h := hstate.obj
    simp only [String.toList_append, List.append_assoc]
    simp only [memberText, String.reduceToList, List.append_assoc, List.cons_append,
      List.nil_append, if_true] at h ⊢
    assumption
  | false =>
    have herr := plainMember "error" (by decide) (h.resolve_left (by decide))
    have h := (hstate.concat herr).obj
    simp only [Bool.false_eq_true, if_false, String.toList_append, List.append_assoc]
    simp only [memberText, String.reduceToList, List.append_assoc, List.cons_append,
      List.nil_append] at h ⊢
    assumption

theorem plain_of_secondFactor {t : String}
    (h : parse (secondFactorJson t) = some (JsonBody.secondFactor t).json) :
    ∀ c ∈ t.toList, Plain c := by
  have hmember := plainMember "error" (by decide) (s := "2fa_required") (by decide)
  refine @plain_of_last "tenant" (by decide) _ _ (.cons hmember .nil) _ _ ?_ h
  unfold secondFactorJson
  simp only [memberText, joined, String.toList_append, String.reduceToList, List.map_cons,
    List.map_nil, List.cons_append, List.nil_append]

theorem plain_of_unavailable {auditOk : Bool} {err : String}
    (h : parse (unavailableJson false auditOk err) =
      some (JsonBody.unavailable false auditOk err).json) :
    ∀ c ∈ err.toList, Plain c := by
  have hstatus := plainMember "status" (by decide) (s := "unavailable") (by decide)
  have hcore := boolMember "core" (by decide) false
  have haudit := boolMember "audit" (by decide) auditOk
  refine @plain_of_last "error" (by decide) _ _ (.cons hstatus (.cons hcore (.cons haudit .nil)))
    _ _ ?_ h
  unfold unavailableJson
  simp only [memberText, joined, String.toList_append, String.reduceToList, List.map_cons,
    List.map_nil, List.append_assoc, List.cons_append, List.nil_append, Bool.false_eq_true, if_false]

/-- A number that is infinite or none is not read at all. -/
theorem parseValue_double {x : Double} (hx : x.isFinite = false) (n : ℕ) (s : List Char) :
    parseValue n (x.text.toList ++ s) = none := by
  cases x with
  | finite => cases hx
  | inf negative =>
    cases negative with
    | true => exact parseValue_eq_none (by decide) (by decide) rfl n
    | false => exact parseValue_eq_none (by decide) (by decide) rfl n
  | nan negative =>
    cases negative with
    | true => exact parseValue_eq_none (by decide) (by decide) rfl n
    | false => exact parseValue_eq_none (by decide) (by decide) rfl n

theorem isFinite_of_storage {r : StorageUsage} {v : Json} (h : parse (storageJson r) = some v) :
    r.usagePercentage.isFinite = true := by
  have htext : (storageJson r).toList = '\x7b' :: joined
      ([("total_space".toList, (toString r.totalSpace).toList),
        ("used_space".toList, (toString r.usedSpace).toList),
        ("available_space".toList, (toString r.availableSpace).toList)].map memberText ++
        [memberText ("usage_percentage".toList, r.usagePercentage.text.toList ++ ['\x7d'])]) := by
    unfold storageJson
    simp only [memberText, joined, String.toList_append, String.reduceToList, List.map_cons,
      List.map_nil, List.append_assoc, List.cons_append, List.nil_append]
  obtain ⟨n, w, s', -, hvalue, -⟩ := parse_last (plain_readString (by decide))
    (.cons (intMember "total_space" (by decide) r.totalSpace)
      (.cons (intMember "used_space" (by decide) r.usedSpace)
        (.cons (intMember "available_space" (by decide) r.availableSpace) .nil))) htext h
  by_contra hx
  rw [parseValue_double (by simpa using hx)] at hvalue
  cases hvalue

/-! ### All bodies -/

theorem readsAs_of_clean (Z : Serializer) {b : JsonBody} (h : b.Clean) :
    ReadsAs (b.text Z).toList b.json := by
  cases b with
  | error fields => exact readsAs_error fields
  | secondFactor t => exact readsAs_secondFactor h
  | uid u => exact readsAs_uid u
  | listing entries complete => exact readsAs_listing entries complete
  | stat info => exact readsAs_stat info
  | «exists» b => exact readsAs_exists b
  | versions r => exact readsAs_versions r
  | restored v => exact readsAs_restored v
  | erasureStarted r => exact readsAs_erasureStarted r
  | erasureStatus i r => exact readsAs_erasureStatus i r
  | metadata kvs => exact readsAs_metadata kvs
  | value v => exact readsAs_value v
  | hasPermission b => exact readsAs_hasPermission b
  | acls es => exact readsAs_acls es
  | role name => exact readsAs_role name
  | roles names => exact readsAs_roles names
  | users names => exact readsAs_users names
  | principals us rs cs => exact readsAs_principals us rs cs
  | storage r => exact readsAs_storage h
  | integrations cfg => exact readsAs_integrations cfg
  | whoami user tenant rs => exact readsAs_whoami user tenant rs
  | introspect user tenant rs => exact readsAs_introspect user tenant rs
  | tenants names current => exact readsAs_tenants names current
  | healthy => exact readsAs_healthy
  | ready => exact readsAs_ready
  | unavailable coreOk auditOk err => exact readsAs_unavailable h
  | token field t expiresIn codes => exact readsAs_token Z field t expiresIn codes
  | signed field t expiresIn => exact readsAs_signed field t expiresIn
  | written v =>
    show ReadsAs (String.ofList (Z.text v.json)).toList v.json
    rw [String.toList_ofList]
    exact Z.reads v.json v.wellFormed
  | monitorHealth => exact readsAs_monitorHealth
  | monitorReady pool => exact readsAs_monitorReady pool
  | poolz pool => exact readsAs_poolz pool
  | overloaded => exact readsAs_overloaded

theorem clean_of_parse (Z : Serializer) {b : JsonBody} (h : parse (b.text Z) = some b.json) :
    b.Clean := by
  cases b with
  | secondFactor t => exact plain_of_secondFactor h
  | unavailable coreOk auditOk err =>
    cases coreOk with
    | true => exact .inl rfl
    | false => exact .inr (plain_of_unavailable h)
  | storage r => exact isFinite_of_storage h
  | _ => trivial

/-- **Bodies are read back.** The two escapes agree, decoding a string inverts them,
and a body is parsed as the document it is meant to be exactly if it is clean. -/
theorem bodies_faithful (Z : Serializer) :
    (∀ s, jsonEscape s = jsonEscapeStatus s) ∧
      (∀ s rest, readString ((jsonEscape s).toList ++ '"' :: rest) = some (s.toList, rest)) ∧
        ∀ b : JsonBody, parse (b.text Z) = some b.json ↔ b.Clean :=
  ⟨jsonEscape_eq, readString_jsonEscape,
    fun _ => ⟨clean_of_parse Z, fun h => (readsAs_of_clean Z h).parse⟩⟩

theorem bodies_faithful_escaping :
    parse ((JsonBody.secondFactor "acme").text escaping.serializer) =
      some (JsonBody.secondFactor "acme").json :=
  ((bodies_faithful escaping.serializer).2.2 (.secondFactor "acme")).mpr
    (show ∀ c ∈ "acme".toList, Plain c by decide)

/-- What the core says of a table makes no JSON, and a tenant may bring a field of its
own. -/
theorem not_bodies_faithful :
    parse ((JsonBody.unavailable false true "no relation \"files\"").text escaping.serializer) = none ∧
      parse ((JsonBody.secondFactor "a\",\"ok\":\"b").text escaping.serializer) ≠
        some (JsonBody.secondFactor "a\",\"ok\":\"b").json := by
  constructor
  · rw [← Option.isNone_iff_eq_none]
    decide +kernel
  · intro h
    have hplain : ∀ c ∈ "a\",\"ok\":\"b".toList, Plain c := clean_of_parse _ h
    exact absurd (hplain '"' (by decide +kernel)).1 (by decide)

end HttpBridge
