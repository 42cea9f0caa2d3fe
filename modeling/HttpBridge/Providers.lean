/-
# What a provider says of a user

The documents of an identity provider and what the proxy reads out of them
(`oidc_verify.cpp`, `oauth_provider.cpp`): the claims of a verified id token, the
answer of the userinfo endpoint, and the list of addresses that GitHub keeps
instead. A field may be absent, null or of any type; what Poco makes of a number,
an array or an object that stands where a text or a flag is read is a parameter
(`Conversions`).
-/
import HttpBridge.Effects
import HttpBridge.Net.Json

namespace HttpBridge

open Net

/-- `Var::convert` where it is not plain: `none` where it throws. -/
structure Conversions where
  text : Json → Option String
  flag : Json → Option Bool
  int64 : Json → Option ℤ

namespace Conversions

variable (V : Conversions)

def toText : Json → Option String
  | .str s => some s
  | .bool b => some (if b then "true" else "false")
  | v => V.text v

def strField (o : Members) (key : String) : String :=
  match o.find key with
  | none | some .null => ""
  | some v => (V.toText v).getD ""

def boolField (o : Members) (key : String) : Bool :=
  match o.find key with
  | none | some .null => false
  | some (.bool b) => b
  | some (.str s) => s == "true" || s == "1"
  | some v => (V.flag v).getD false

end Conversions

/-- `OAuthProviderConfig::Kind`. -/
inductive ProviderKind where
  | oidc
  | github
  deriving DecidableEq

/-- The source's `IdTokenClaims`, and its `VerifiedIdentity` with the subject. -/
structure Vouched where
  subject : String
  email : String
  emailVerified : Bool
  deriving DecidableEq

/-- What the callback reads of it. -/
def Vouched.identity (v : Vouched) : VerifiedIdentity := ⟨v.email, v.emailVerified⟩

/-- What a provider answers in the course of a sign-in: the claims of the id
token, if it verifies, and the answers of its endpoints, with their bodies
parsed. -/
structure Documents where
  idToken : Option Members
  userinfo : HttpResult Json
  emails : HttpResult Json

namespace Documents

variable (V : Conversions)

def succeeded {β : Type} (r : HttpResult β) : Bool := r.ok && 200 ≤ r.status && r.status < 300

/-- `verifyIdToken`: the claims it reads out of a token that verifies. -/
def idTokenClaims (claims : Members) : Vouched where
  subject := V.strField claims "sub"
  email := V.strField claims "email"
  emailVerified := V.boolField claims "email_verified"

/-- `OAuthProvider::verifyIdToken`. -/
def verifyIdToken (D : Documents) : Option Vouched := D.idToken.map (idTokenClaims V)

/-- The loop of `fetchIdentityGithub`: the first entry that is primary and
verified. -/
def primaryEntry : List Json → Option Members
  | [] => none
  | .obj o :: rest =>
    if V.boolField o "primary" && V.boolField o "verified" then some o else primaryEntry rest
  | _ :: rest => primaryEntry rest

/-- The subject `fetchIdentityGithub` reads, `none` where the number does not
convert. -/
def githubSubject (o : Members) : Option String :=
  match o.find "id" with
  | none | some .null => some ""
  | some v => (V.int64 v).map toString

def fetchIdentityGithub (D : Documents) : Option Vouched :=
  if !succeeded D.userinfo then none
  else
    match (D.userinfo.body.bind Json.members?).bind (githubSubject V) with
    | none => none
    | some subject =>
      if !succeeded D.emails then none
      else
        match D.emails.body.bind Json.items? with
        | none => none
        | some items =>
          match primaryEntry V items with
          | none => none
          | some o =>
            if V.strField o "email" == "" then none
            else some ⟨subject, V.strField o "email", true⟩

/-- `OAuthProvider::fetchIdentity`. -/
def fetchIdentity (kind : ProviderKind) (D : Documents) : Option Vouched :=
  if kind = .github then fetchIdentityGithub V D
  else if !succeeded D.userinfo then none
  else
    match D.userinfo.body.bind Json.members? with
    | none => none
    | some o =>
      if V.strField o "email" == "" then none
      else some ⟨V.strField o "sub", V.strField o "email", V.boolField o "email_verified"⟩

end Documents

end HttpBridge
