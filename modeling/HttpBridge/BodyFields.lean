/-
# The bodies of the mutating endpoints

Twelve endpoints that change what the core holds read a JSON body, field by
field, and each reader gives a default for what it cannot read (`jsonField`,
`jsonFieldInt`, `jsonFieldBool`, `coercePermission`, `coerceEffect`). Six of them
refuse an empty text: the name of a new entry, the new name of an entry, the
principal of a permission, the name of a role. The others have no check, and go
on with the default.

So a malformed body is refused exactly where a text is required and none, or an
empty one, is read (`malformed_body_iff`).

Key definitions: `BodyEndpoint`, `BodyEndpoint.Malformed`, `BodyEndpoint.Refuses`.
Key theorems: `BodyEndpoint.avoids_handler`, `malformed_body_iff`.
-/
import HttpBridge.RoleGuard
import Mathlib.Algebra.Order.Ring.Rat

namespace HttpBridge

open Interact Net Handlers

/-! ### What a field should be -/

/-- The number that the text of a JSON number stands for. -/
def numberValue (text : String) : ℚ :=
  let (sign, digits) := JsonText.readSign ['-'] text.toList
  let whole := digits.takeWhile Char.isDigit
  let rest := digits.dropWhile Char.isDigit
  let fraction := if rest.head? == some '.' then (rest.drop 1).takeWhile Char.isDigit else []
  let (expSign, expDigits) :=
    JsonText.readSign ['+', '-'] ((rest.dropWhile fun c => c ≠ 'e' && c ≠ 'E').drop 1)
  let exponent : ℤ := if expSign == ['-'] then -digitsValue expDigits else digitsValue expDigits
  let value := (digitsValue (whole ++ fraction) : ℚ) * 10 ^ (exponent - fraction.length)
  if sign.isEmpty then value else -value

inductive FieldKind where
  | text
  | integer
  | flag
  | permission
  | effect

/-- The values that a field of the kind may have. -/
def FieldKind.Fits : FieldKind → Json → Prop
  | .text, .str _ => True
  | .integer, .num t => -2 ^ 31 ≤ numberValue t ∧ numberValue t < 2 ^ 31
  | .flag, .bool _ => True
  | .permission, .str s => (permission? s).isSome = true
  | .effect, .str s => s ∈ ["allow", "ALLOW", "deny", "DENY"]
  | _, _ => False

/-! ### The endpoints -/

/-- The mutating endpoints that read a JSON body. -/
inductive BodyEndpoint where
  | makeDir (parent : String)
  | touchFile (parent : String)
  | renameNode (uid : String)
  | moveNode (uid : String)
  | copyNode (uid : String)
  | setMeta (uid key : String)
  | restoreVersion (uid : String)
  | purgeVersions (uid : String)
  | eraseNode (uid : String)
  | grantPerm (uid : String)
  | revokePerm (uid : String)
  | createRole

namespace BodyEndpoint

def handler (P : Poco) (id : AuthIdentity) : BodyEndpoint → Handler Reply
  | .makeDir parent => Handlers.makeDir P id parent
  | .touchFile parent => Handlers.touchFile P id parent
  | .renameNode uid => Handlers.renameNode P id uid
  | .moveNode uid => Handlers.moveNode P id uid
  | .copyNode uid => Handlers.copyNode P id uid
  | .setMeta uid key => Handlers.setMeta P id uid key
  | .restoreVersion uid => Handlers.restoreVersion P id uid
  | .purgeVersions uid => Handlers.purgeVersions P id uid
  | .eraseNode uid => Handlers.eraseNode P id uid
  | .grantPerm uid => Handlers.grantPerm P id uid
  | .revokePerm uid => Handlers.revokePerm P id uid
  | .createRole => Handlers.createRole P id

/-- The fields that the handler reads. -/
def fields : BodyEndpoint → List (String × FieldKind)
  | .makeDir _ | .touchFile _ => [("name", .text)]
  | .renameNode _ => [("new_name", .text)]
  | .moveNode _ | .copyNode _ => [("destination_parent_uid", .text)]
  | .setMeta .. => [("value", .text)]
  | .restoreVersion _ => [("version_timestamp", .text)]
  | .purgeVersions _ => [("keep_count", .integer)]
  | .eraseNode _ => [("retain_name", .flag), ("reason", .text)]
  | .grantPerm _ | .revokePerm _ =>
    [("principal", .text), ("permission", .permission), ("effect", .effect), ("recursive", .flag)]
  | .createRole => [("role", .text)]

/-- The text without which the handler refuses. -/
def required : BodyEndpoint → Option String
  | .makeDir _ | .touchFile _ => some "name"
  | .renameNode _ => some "new_name"
  | .grantPerm _ | .revokePerm _ => some "principal"
  | .createRole => some "role"
  | _ => none

/-- A body that is not empty and is no JSON object, or has a field that the
handler reads with a value that the field may not have. -/
def Malformed (e : BodyEndpoint) (body : String) : Prop :=
  body ≠ "" ∧ ∀ o : Members, JsonText.parse body = some (.obj o) →
    ∃ f ∈ e.fields, ∃ v, o.find f.1 = some v ∧ ¬ f.2.Fits v

/-- With that text the handler goes on: a role is for admins, and not one of the
reserved ones. -/
def Accepts (P : Poco) (id : AuthIdentity) (text : String) : BodyEndpoint → Prop
  | .createRole => isTenantAdmin id = true ∧ refusesReservedRole P id text = false
  | _ => True

/-- The handler requires a text, and Poco finds none in the body but an empty or
refused one. -/
def Refuses (P : Poco) (id : AuthIdentity) (body : String) (e : BodyEndpoint) : Prop :=
  ∃ key, e.required = some key ∧ ∀ (v : Json) (o : Members) (w : Json) (text : String),
    P.parse body = some v → v.members? = some o → o.find key = some w → P.toText w = some text →
      text ≠ "" → ¬ e.Accepts P id text

section

variable {P : Poco} {id : AuthIdentity} {body key : String}

theorem jsonField_eq_iff {text : String} (htext : text ≠ "") :
    jsonField P body key = text ↔ ∃ (v : Json) (o : Members) (w : Json),
      P.parse body = some v ∧ v.members? = some o ∧ o.find key = some w ∧ P.toText w = some text := by
  unfold jsonField field
  rw [Option.getD_eq_iff]
  simp [htext.symm, Option.bind_eq_some_iff]

/-- What a handler refuses an empty text for, it does for every other text. -/
theorem refuses_iff {e : BodyEndpoint} (hkey : e.required = some key) :
    e.Refuses P id body ↔ (jsonField P body key ≠ "" → ¬ e.Accepts P id (jsonField P body key)) := by
  unfold Refuses
  constructor
  · rintro ⟨key', hkey', h⟩ hne
    cases hkey.symm.trans hkey'
    obtain ⟨v, o, w, hv, ho, hw, ht⟩ := (jsonField_eq_iff hne).mp rfl
    exact h v o w _ hv ho hw ht hne
  · intro h
    refine ⟨key, hkey, fun v o w text hv ho hw ht hne => ?_⟩
    have heq := (jsonField_eq_iff hne).mpr ⟨v, o, w, hv, ho, hw, ht⟩
    rw [heq] at h
    exact h hne

theorem not_refuses {e : BodyEndpoint} (hnone : e.required = none) : ¬ e.Refuses P id body := by
  rintro ⟨key, hkey, -⟩
  rw [hnone] at hkey
  cases hkey

/-- The operations that change what the core holds. -/
abbrev Mutates (op : ServerOp) : Prop := op.mutates = true

theorem avoids_unless_empty {bad : ServerOp → Prop} {text : String} {refusal : Reply}
    {next : Handler Reply} : Avoids body bad (if text == "" then pure refusal else next) ↔
      (text ≠ "" → Avoids body bad next) := by
  by_cases h : text = ""
  · simp [h]
  · simp [h]

/-- A handler that makes a mutating call on every body. -/
theorem not_avoids {f : String → Handler Reply} (h : ¬ Avoids body Mutates (f body)) :
    ¬ Avoids body Mutates (readBody >>= f) := by
  rw [Avoids.readBody_bind nofun]
  exact h

/-- A handler that makes its call where it reads a text. -/
theorem avoids_text {e : BodyEndpoint} {refusal : Reply} {next : String → Handler Reply}
    (hkey : e.required = some key)
    (hnext : Avoids body Mutates (next body) ↔ ¬ e.Accepts P id (jsonField P body key)) :
    Avoids body Mutates (readBody >>= fun s =>
      if jsonField P s key == "" then pure refusal else next s) ↔ e.Refuses P id body := by
  rw [Avoids.readBody_bind nofun, avoids_unless_empty, refuses_iff hkey, hnext]

/-- **What an endpoint does on a body.** Whatever Poco makes of it, the endpoint
makes a mutating call unless it refuses. -/
theorem avoids_handler (e : BodyEndpoint) :
    Avoids body Mutates (e.handler P id) ↔ e.Refuses P id body := by
  have hcall : ∀ (call : CoreRequest) (ok : call.Value → Reply), call.mutates = true →
      ¬ Avoids body Mutates (Handlers.forward id call ok) := by
    intro call ok hmut
    rw [Avoids.forward, not_not]
    exact hmut
  have htext : ∀ call : CoreRequest, call.mutates = true → ∀ ok : call.Value → Reply,
      (Avoids body Mutates (Handlers.forward id call ok) ↔ ¬ True) :=
    fun call hmut ok => iff_of_false (hcall call ok hmut) (not_not_intro trivial)
  cases e with
  | makeDir parent => exact avoids_text rfl (htext _ (by rfl) _)
  | touchFile parent => exact avoids_text rfl (htext _ (by rfl) _)
  | renameNode uid => exact avoids_text rfl (htext _ (by rfl) _)
  | moveNode uid => exact iff_of_false (not_avoids (hcall _ _ (by rfl))) (not_refuses rfl)
  | copyNode uid => exact iff_of_false (not_avoids (hcall _ _ (by rfl))) (not_refuses rfl)
  | setMeta uid key => exact iff_of_false (not_avoids (hcall _ _ (by rfl))) (not_refuses rfl)
  | restoreVersion uid => exact iff_of_false (not_avoids (hcall _ _ (by rfl))) (not_refuses rfl)
  | purgeVersions uid => exact iff_of_false (not_avoids (hcall _ _ (by rfl))) (not_refuses rfl)
  | eraseNode uid => exact iff_of_false (not_avoids (hcall _ _ (by rfl))) (not_refuses rfl)
  | grantPerm uid => exact avoids_text rfl (htext _ (by rfl) _)
  | revokePerm uid => exact avoids_text rfl (htext _ (by rfl) _)
  | createRole =>
    refine (RoleEndpoint.createRole.avoids_handler nofun).trans ?_
    rw [refuses_iff rfl]
    by_cases hrole : jsonField P body "role" = ""
    · simp [RoleEndpoint.named, hrole]
    · simp [RoleEndpoint.named, hrole, Accepts, RoleEndpoint.call, Mutates, ServerOp.mutates,
        CoreRequest.mutates]

end

end BodyEndpoint

/-- **What a malformed body changes.** On a malformed body an endpoint makes no
mutating call exactly where it refuses for want of a text that it requires. -/
theorem malformed_body_iff (P : Poco) (id : AuthIdentity) (e : BodyEndpoint) (body : String) :
    (e.Malformed body → Avoids body BodyEndpoint.Mutates (e.handler P id)) ↔
      (e.Malformed body → e.Refuses P id body) :=
  imp_congr_right fun _ => e.avoids_handler

/-- A move whose body is no JSON at all goes to the root directory. -/
theorem not_malformed_body :
    ¬ ∀ (P : Poco) (id : AuthIdentity) (e : BodyEndpoint) (body : String),
      e.Malformed body → Avoids body BodyEndpoint.Mutates (e.handler P id) := by
  intro h
  have hnone : JsonText.parse "garbage" = none := by rfl
  have hmal : (BodyEndpoint.moveNode "f1").Malformed "garbage" := by
    refine ⟨by decide, fun o ho => ?_⟩
    rw [hnone] at ho
    cases ho
  have hmove := h .plain acmeAdmin (.moveNode "f1") "garbage" hmal
  rw [BodyEndpoint.avoids_handler] at hmove
  exact BodyEndpoint.not_refuses rfl hmove

end HttpBridge
