/-
# The policies that stand on their own

The pure rules the handlers consult: which role names belong to the
deployment and not to a tenant (`tenant_role_policy.h`), which tenant states
admit (`tenant_state_policy.h`), what a service key may do
(`service_key_policy.h`), which authentication methods are a second factor,
which roles a request carries to the core (`effectiveRoles`,
`http_server.cpp`), how an error of the core is answered (`utils.cpp`) and
what may be played (`range_response.h`).

Key theorems: `mem_effectiveRoles`, `isDeploymentRole_effectiveRoles`.
-/
import HttpBridge.Strings
import HttpBridge.Interact.OrdMap
import Mathlib.Data.List.Sort
import Mathlib.Data.List.Dedup

namespace HttpBridge

open Interact

/-- `{tenant: [roles]}`, as `std::map` keeps it. -/
abbrev RoleMap := OrdMap String (List String)

/-! ### Deployment roles -/

def kDeploymentRolePrefix : String := "system_"

def isDeploymentRole (role : String) : Bool := startsWith kDeploymentRolePrefix role

def stripDeploymentRoles (roles : List String) : List String :=
  roles.filter fun r => !isDeploymentRole r

/-- `roleSearchBase`: no base at all where the tenant base is the directory
root. -/
def roleSearchBase (tenantBase ldapDomain : String) : String :=
  if tenantBase == "" then ""
  else if ldapDomain != "" && tenantBase == ldapDomain then ""
  else tenantBase

def defaultTenantBase (ldapDomain : String) : String :=
  if ldapDomain == "" then "" else "ou=tenants," ++ ldapDomain

/-! ### Effective roles -/

/-- Group name to core role name. -/
def roleAliases : List (String × String) :=
  [("administrators", "tenant_admin"), ("erasure_admins", "erasure_admin")]

/-- The roles a request carries to the core: the session's and those its
aliased groups derive, sorted and without duplicates. -/
def effectiveRoles (roles : List String) : List String :=
  ((roles.flatMap fun r =>
    if r == "" then []
    else r :: (roleAliases.filter fun a => r == a.1).map (·.2)).insertionSort (· ≤ ·)).dedup

/-- What a group name stands for: itself and the role it derives. -/
def StandsFor (name r : String) : Prop := r = name ∨ (name, r) ∈ roleAliases

theorem StandsFor.trans {a b c : String} (h : StandsFor a b) (h' : StandsFor b c) :
    StandsFor a c := by
  have hno : ∀ x ∈ roleAliases, ∀ y ∈ roleAliases, x.2 ≠ y.1 := by decide
  rcases h with rfl | h
  · exact h'
  · rcases h' with rfl | h'
    · exact .inr h
    · exact absurd rfl (hno _ h _ h')

theorem StandsFor.eq_users {r : String} (h : StandsFor "users" r) : r = "users" := by
  have hno : ∀ x ∈ roleAliases, x.1 ≠ "users" := by decide
  exact h.resolve_right fun h => hno _ h rfl

theorem mem_effectiveRoles {roles : List String} {r : String} :
    r ∈ effectiveRoles roles ↔
      ∃ r₀ ∈ roles, r₀ ≠ "" ∧ StandsFor r₀ r := by
  simp only [effectiveRoles, StandsFor, List.mem_dedup, List.mem_insertionSort, List.mem_flatMap]
  refine exists_congr fun r₀ => and_congr_right fun _ => ?_
  by_cases h : r₀ = ""
  · simp [h]
  · simp only [beq_iff_eq, h, if_false, List.mem_cons, List.mem_map, List.mem_filter, ne_eq,
      not_false_eq_true, true_and]
    refine or_congr_right ⟨?_, fun ha => ⟨(r₀, r), ⟨ha, rfl⟩, rfl⟩⟩
    rintro ⟨⟨g, r'⟩, ⟨ha, rfl⟩, rfl⟩
    exact ha

/-- No alias leads into the deployment namespace, so expansion neither adds a
deployment role nor loses one. -/
theorem isDeploymentRole_effectiveRoles (roles : List String) :
    (∃ r ∈ effectiveRoles roles, isDeploymentRole r) ↔ ∃ r ∈ roles, isDeploymentRole r := by
  constructor
  · rintro ⟨r, hr, hd⟩
    obtain ⟨r₀, h₀, -, rfl | ha⟩ := mem_effectiveRoles.mp hr
    · exact ⟨r, h₀, hd⟩
    · have : ∀ a ∈ roleAliases, isDeploymentRole a.2 = false := by decide
      simp [this _ ha] at hd
  · rintro ⟨r, hr, hd⟩
    refine ⟨r, mem_effectiveRoles.mpr ⟨r, hr, ?_, .inl rfl⟩, hd⟩
    rintro rfl
    exact absurd hd (by decide)

/-! ### Tenant states -/

def tenantStates : List String :=
  ["requested", "awaiting_dns", "provisioning", "live", "suspended", "decommissioning",
    "decommissioned"]

/-- Only a live tenant admits. -/
def admits (state : String) : Bool := state == "live"

def known (state : String) : Bool := tenantStates.contains state

def admitsOrRefusesUnknown (state : String) (lookupSucceeded : Bool) : Bool :=
  if !lookupSucceeded then false
  else if !known state then false
  else admits state

def refusalReason (state : String) (lookupSucceeded : Bool) : String :=
  if !lookupSucceeded then "tenant status could not be determined; access is refused until it can"
  else if state == "suspended" then "this tenant is suspended"
  else if state == "provisioning" then "this tenant is still being provisioned"
  else if state == "requested" || state == "awaiting_dns" then "this tenant is not yet provisioned"
  else if state == "decommissioning" then "this tenant is being decommissioned"
  else if state == "decommissioned" then "this tenant has been decommissioned"
  else if !known state then "tenant status is not recognised by this build; access is refused"
  else ""

def refusalCode (state : String) (lookupSucceeded : Bool) : String :=
  if !lookupSucceeded then "tenant_state_unknown"
  else if !known state then "tenant_state_unknown"
  else if state == "live" then ""
  else "tenant_" ++ state

theorem admitsOrRefusesUnknown_iff (state : String) (ok : Bool) :
    admitsOrRefusesUnknown state ok = true ↔ ok = true ∧ state = "live" := by
  unfold admitsOrRefusesUnknown admits
  cases ok with
  | false => simp
  | true =>
    by_cases h : state = "live"
    · subst h
      decide
    · simp [h]

/-- A tenant that admits has no refusal code, and one that does not has one. -/
theorem refusalCode_eq_empty (state : String) (ok : Bool) :
    refusalCode state ok = "" ↔ admitsOrRefusesUnknown state ok = true := by
  rw [admitsOrRefusesUnknown_iff]
  unfold refusalCode
  cases ok with
  | false => simp
  | true =>
    by_cases hk : known state
    · by_cases h : state = "live"
      · subst h
        decide
      · simp [h, hk, String.append_eq_empty_iff]
    · have h : state ≠ "live" := by
        rintro rfl
        exact hk (by decide)
      simp [h, hk]

/-! ### Errors of the core -/

def mentions (err text : String) : Bool := (indexOf text.toList err.toList).isSome

/-- `httpStatusForCoreError`. -/
def httpStatusForCoreError (err : String) : ℕ :=
  if mentions err "permission" then 403
  else if mentions err "Only an admin" then 403
  else if mentions err "not exist" || mentions err "not found" then 404
  else if mentions err "No versions available" then 404
  else if mentions err "subtree" || mentions err "already" then 409
  else 500

/-- `playbackMimeFor`: the media types a file may be played as, by extension. -/
def playbackMimeFor (name : String) : String :=
  match lastIndexOf ['.'] name.toList with
  | none => ""
  | some dot =>
    let ext := lowered (String.ofList (name.toList.drop (dot + 1)))
    if ext == "webm" then "video/webm"
    else if ext == "mp4" || ext == "m4v" then "video/mp4"
    else if ext == "m4a" then "audio/mp4"
    else if ext == "mp3" then "audio/mpeg"
    else if ext == "ogg" || ext == "oga" || ext == "opus" then "audio/ogg"
    else ""

/-! ### Service keys and second factors -/

def kKeyIdPrefix : String := "fesk_"

def isServiceKeyId (s : String) : Bool := startsWith kKeyIdPrefix s

/-- A key session carries the roles of its tenant only. -/
def rolesForKeySession (byTenant : RoleMap) (tenant : String) : RoleMap := byTenant.restrict tenant

inductive KeyVerdict where
  | valid
  | invalid
  | unavailable
  deriving DecidableEq

def classifyVerifyAnswer (httpStatus : ℕ) (uid generation : String) : KeyVerdict :=
  if httpStatus = 401 then .invalid
  else if httpStatus ≠ 200 then .unavailable
  else if uid == "" || generation == "" then .unavailable
  else .valid

def mayRefresh (verdict : KeyVerdict) (statusUid statusGeneration sessionUser
    sessionGeneration : String) (userTenants : List String) (sessionTenant : String) : Bool :=
  if verdict ≠ .valid then false
  else if statusUid ≠ sessionUser then false
  else if sessionGeneration == "" || statusGeneration ≠ sessionGeneration then false
  else userTenants.contains sessionTenant

theorem mayRefresh_iff {verdict : KeyVerdict} {statusUid statusGeneration sessionUser
    sessionGeneration : String} {userTenants : List String} {sessionTenant : String} :
    mayRefresh verdict statusUid statusGeneration sessionUser sessionGeneration userTenants
        sessionTenant = true ↔
      verdict = .valid ∧ statusUid = sessionUser ∧ statusGeneration = sessionGeneration ∧
        sessionGeneration ≠ "" ∧ sessionTenant ∈ userTenants := by
  unfold mayRefresh
  split_ifs with h₁ h₂ h₃
  · simp [h₁]
  · simp [h₂]
  · simp only [Bool.or_eq_true, beq_iff_eq, decide_eq_true_eq] at h₃
    simp only [false_iff]
    tauto
  · simp only [Bool.or_eq_true, beq_iff_eq, decide_eq_true_eq, not_or, ne_eq, not_not] at h₁ h₂ h₃
    simp only [h₁, h₂, h₃, List.contains_iff_mem, true_and, ne_eq, not_false_eq_true]

/-- The methods that count as a second factor. -/
def secondFactors : List String := ["otp", "totp", "email", "recovery", "oauth", "svc"]

def satisfiesSecondFactor (amr : List String) : Bool := amr.any secondFactors.contains

end HttpBridge
