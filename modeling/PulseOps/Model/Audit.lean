import PulseOps.Json.Paths

/-!
# What audit records keep

`audit/audit.sanitize.js` on JSON values; dates and decimals do not come up in them. How the
runtime lower-cases is a parameter.
-/

set_option autoImplicit false

namespace PulseOps.Audit

variable {ν : Type}

/-- `SENSITIVE_KEYS`. -/
def sensitiveKeys : List String :=
  ["password", "passwordhash", "password_hash", "currentpassword", "newpassword",
    "confirmpassword", "hash", "token", "refreshtoken", "accesstoken", "secret", "apisecret",
    "webhooksecret", "providersecret", "providercredentials", "authorization", "cookie",
    "credentials", "clientsecret", "privatekey", "seed", "salt", "tokenhash", "token_hash",
    "refreshtokenhash", "emailverificationtoken", "passwordresettoken"]

/-- `key.toLowerCase().replace(/[_-]/g, '')` -/
def normalized (toLowerCase : String → String) (key : String) : String :=
  String.ofList ((toLowerCase key).toList.filter fun c => c ≠ '_' ∧ c ≠ '-')

/-- `isSensitiveKey`. -/
def isSensitiveKey (toLowerCase : String → String) (key : String) : Bool :=
  if key = "" then false else normalized toLowerCase key ∈ sensitiveKeys

def redacted : Json ν := .str "[REDACTED]"

/-- Whether an object passes for a decimal: its own `constructor` is an object of that name, and
it has no `toString` of its own. -/
def passesForDecimal (members : List (String × Json ν)) : Bool :=
  match members.lookup "constructor" with
  | some (.obj members') =>
    (match members'.lookup "name" with
      | some (.str name) => name = "Decimal"
      | _ => false) && (members.lookup "toString").isNone
  | _ => false

section

variable (toLowerCase : String → String) (maxDepth : ℕ)

mutual

/-- `sanitizeValue`. -/
def sanitizeValue (depth : ℕ) : Json ν → Json ν
  | .arr items => if depth > maxDepth then redacted else .arr (sanitizeItems (depth + 1) items)
  | .obj members =>
    if depth > maxDepth then redacted
    else if passesForDecimal members then .str "[object Object]"
    else .obj (sanitizeMembers (depth + 1) members)
  | v => if depth > maxDepth then redacted else v

def sanitizeItems (depth : ℕ) : List (Json ν) → List (Json ν)
  | [] => []
  | v :: items => sanitizeValue depth v :: sanitizeItems depth items

/-- The loop over `Object.entries`. -/
def sanitizeMembers (depth : ℕ) : List (String × Json ν) → List (String × Json ν)
  | [] => []
  | (key, v) :: members =>
    if isSensitiveKey toLowerCase key then (key, redacted) :: sanitizeMembers depth members
    -- assigning to `__proto__` makes no member
    else if key = "__proto__" then sanitizeMembers depth members
    else (key, sanitizeValue depth v) :: sanitizeMembers depth members

end

end

end PulseOps.Audit
