/-
# The guard of the role endpoints

The core takes the word of the proxy for who may write a role, so the four
endpoints that write one are for admins (`requireTenantAdmin`), and a name on the
list of reserved roles is for holders of `system_admin` (`refuseReservedRole`).
The list is compared with the name decoded, lower-cased and trimmed.

What a tenant must never write is wider than the list: every role in the
deployment namespace (`isDeploymentRole`), of which the list has `system_admin`
alone. So any other deployment role passes the guard (`role_guard_iff`).

Key definitions: `RoleEndpoint`, `Privileged`.
Key theorems: `RoleEndpoint.avoids_handler`, `role_guard_iff`.
-/
import HttpBridge.Handlers

namespace HttpBridge

open Interact Handlers

/-- The role that a call writes. -/
def CoreRequest.roleWritten : CoreRequest → Option String
  | .createRole role | .deleteRole role | .assignUserToRole _ role
  | .removeUserFromRole _ role => some role
  | _ => none

def ServerOp.roleWritten : ServerOp → Option String
  | .inr (.core call _) => call.roleWritten
  | _ => none

/-- A role that the directory alone decides about. -/
def Privileged (P : Poco) (role : String) : Prop :=
  isReservedRole P role = true ∨ isDeploymentRole (normalRole P role) = true

/-- The endpoints that write a role. -/
inductive RoleEndpoint where
  | createRole
  | deleteRole (role : String)
  | assignUserToRole (role user : String)
  | removeUserFromRole (role user : String)

namespace RoleEndpoint

variable {P : Poco} {id : AuthIdentity} {body : String} {bad : ServerOp → Prop}

def handler (P : Poco) (id : AuthIdentity) : RoleEndpoint → Handler Reply
  | .createRole => Handlers.createRole P id
  | .deleteRole role => Handlers.deleteRole P id role
  | .assignUserToRole role user => Handlers.assignUserToRole P id role user
  | .removeUserFromRole role user => Handlers.removeUserFromRole P id role user

/-- The role that a request names, in its path or in its body. -/
def named (P : Poco) (body : String) : RoleEndpoint → Option String
  | .createRole =>
    let role := jsonField P body "role"
    if role == "" then none else some role
  | .deleteRole role | .assignUserToRole role _ | .removeUserFromRole role _ => some role

/-- The call to the core for that role. -/
def call (role : String) : RoleEndpoint → CoreRequest
  | .createRole => .createRole role
  | .deleteRole _ => .deleteRole role
  | .assignUserToRole _ user => .assignUserToRole user role
  | .removeUserFromRole _ user => .removeUserFromRole user role

theorem roleWritten_call (role : String) (e : RoleEndpoint) :
    (e.call role).roleWritten = some role := by
  cases e <;> rfl

theorem avoids_changeRole {role : String} {next : Handler Reply} :
    Avoids body bad (changeRole P id role next) ↔
      (refusesReservedRole P id role = false → Avoids body bad next) := by
  unfold changeRole
  by_cases h : refusesReservedRole P id role = true
  · simp [h]
  · simp [h]

theorem avoids_ite_admin {next : Handler Reply} :
    Avoids body bad (if !isTenantAdmin id then pure adminRequired else next) ↔
      (isTenantAdmin id = true → Avoids body bad next) := by
  by_cases h : isTenantAdmin id = true
  · simp [h]
  · simp [h]

/-- **What an endpoint does.** For an admin who is not refused the role that the
request names it makes the one call; else it makes none. -/
theorem avoids_handler (e : RoleEndpoint) (hread : ¬ bad (.inr .readBody)) :
    Avoids body bad (e.handler P id) ↔
      ∀ role, e.named P body = some role → isTenantAdmin id = true →
        refusesReservedRole P id role = false → ¬ bad (.inr (.core (e.call role) (fillAuth id))) := by
  cases e with
  | createRole =>
    refine (avoids_ite_admin.trans (imp_congr_right fun _ => Avoids.readBody_bind hread)).trans ?_
    by_cases hrole : jsonField P body "role" = ""
    · simp [hrole, named]
    · simp [hrole, named, call, avoids_changeRole, Avoids.forward]
  | deleteRole role =>
    refine avoids_ite_admin.trans ?_
    simp [named, call, avoids_changeRole, Avoids.forwardPlain]
  | assignUserToRole role user =>
    refine avoids_ite_admin.trans ?_
    simp [named, call, avoids_changeRole, Avoids.forwardPlain]
  | removeUserFromRole role user =>
    refine avoids_ite_admin.trans ?_
    simp [named, call, avoids_changeRole, Avoids.forwardPlain]

end RoleEndpoint

/-- The list has one role of the deployment namespace. -/
theorem isReservedRole_of_isDeploymentRole {P : Poco} {role : String}
    (h : isDeploymentRole (normalRole P role) = true) :
    isReservedRole P role = true ↔ normalRole P role = "system_admin" := by
  have hlist : ∀ r ∈ kReserved, isDeploymentRole r = true → r = "system_admin" := by decide
  unfold isReservedRole
  rw [List.contains_iff_mem]
  constructor
  · exact fun hmem => hlist _ hmem h
  · intro heq
    rw [heq]
    decide

/-- A call of the role endpoints with a privileged name. -/
def WritesPrivileged (P : Poco) (op : ServerOp) : Prop :=
  ∃ role, op.roleWritten = some role ∧ Privileged P role

/-- **What the guard lets through.** A caller without `system_admin` writes no
privileged role exactly where the role that the request names, if the caller is
an admin and the role a deployment role, is `system_admin` itself. -/
theorem role_guard_iff (P : Poco) (id : AuthIdentity) (e : RoleEndpoint) (body : String)
    (hcaller : "system_admin" ∉ id.roles) :
    Avoids body (WritesPrivileged P) (e.handler P id) ↔
      ∀ role, e.named P body = some role → isTenantAdmin id = true →
        isDeploymentRole (normalRole P role) = true → normalRole P role = "system_admin" := by
  have hread : ¬ WritesPrivileged P (.inr .readBody) := nofun
  have hcall : ∀ role, WritesPrivileged P (.inr (.core (e.call role) (fillAuth id))) ↔
      Privileged P role := by
    intro role
    have hwritten : ServerOp.roleWritten (.inr (.core (e.call role) (fillAuth id))) = some role :=
      e.roleWritten_call role
    simp [WritesPrivileged, hwritten]
  have hrefuses : ∀ role, refusesReservedRole P id role = isReservedRole P role := by
    intro role
    simp [refusesReservedRole, hcaller]
  rw [e.avoids_handler hread]
  refine forall_congr' fun role => imp_congr_right fun _ => imp_congr_right fun _ => ?_
  rw [hrefuses, hcall, Privileged]
  constructor
  · intro h hdeployment
    rw [← isReservedRole_of_isDeploymentRole hdeployment]
    by_contra hno
    exact h (by simpa using hno) (.inr hdeployment)
  · rintro h hno (hreserved | hdeployment)
    · rw [hno] at hreserved
      cases hreserved
    · have hreserved := (isReservedRole_of_isDeploymentRole hdeployment).mpr (h hdeployment)
      rw [hno] at hreserved
      cases hreserved

/-- An admin of the tenant `acme`. -/
def acmeAdmin : AuthIdentity := { user := "alice", tenant := "acme", roles := ["administrators"] }

theorem role_guard_editors :
    "system_admin" ∉ acmeAdmin.roles ∧
      Avoids "" (WritesPrivileged .plain) (RoleEndpoint.handler .plain acmeAdmin (.deleteRole "editors")) := by
  refine ⟨by decide, (role_guard_iff .plain acmeAdmin (.deleteRole "editors") "" (by decide)).mpr ?_⟩
  intro role hrole _ hdeployment
  cases hrole
  exact absurd hdeployment (by decide)

/-- An admin of a tenant assigns a deployment role that is not on the list. -/
theorem not_role_guard :
    ¬ ∀ (P : Poco) (id : AuthIdentity) (e : RoleEndpoint) (body : String),
      "system_admin" ∉ id.roles → Avoids body (WritesPrivileged P) (e.handler P id) := by
  intro h
  have hall := h .plain acmeAdmin (.assignUserToRole "system_billing" "alice") "" (by decide)
  rw [RoleEndpoint.avoids_handler _ nofun] at hall
  exact hall "system_billing" rfl (by decide) (by decide)
    ⟨"system_billing", rfl, .inr (by decide)⟩

end HttpBridge
