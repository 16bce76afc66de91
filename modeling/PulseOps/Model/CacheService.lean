import Mathlib.Data.List.Infix
import PulseOps.Json.Without
import PulseOps.Model.Auth
import PulseOps.Model.Rows
import PulseOps.ReadCommitted.Interleaved

/-!
# The cache

`common/cache/cache.service.js`, and `getById` and `getSettings` of `tenants/tenants.service.js`,
which fill the cache by hand. Values are JSON values: what `Object.entries` gives of an object is
the list of its members, whose names are distinct. The cache keeps their texts, as Redis does.

One turn of a request is one command of Redis, or the loader. What a request meets outside is
given with it: whether its commands are answered, what the loader returns, and which keys a scan
finds. An entry may expire at any time, so the times to live are left out.

Three things of the runtime are parameters: how numbers are written and read, which numbers are
zero, and `toLowerCase`.
-/

set_option autoImplicit false

open ReadCommitted

namespace PulseOps.CacheService

/-- What the model leaves to the runtime. -/
structure Runtime (ν : Type) where
  numbers : Json.Numbers ν
  isZero : ν → Bool
  toLowerCase : String → String

variable {ν : Type} (R : Runtime ν)

/-- Whether a value counts as true. -/
def Runtime.truthy : Json ν → Bool
  | .null => false
  | .bool b => b
  | .num n => !R.isZero n
  | .str s => s ≠ ""
  | .arr _ => true
  | .obj _ => true

/-! ### What is kept of a value -/

/-- `SENSITIVE_KEYS`. -/
def sensitiveKeys : List String :=
  ["password", "passwordHash", "password_hash", "token", "refreshToken", "accessToken", "secret",
    "providerSecret", "credential", "apiKey"]

/-- `isSensitiveKey`. -/
def isSensitiveKey (toLowerCase : String → String) (key : String) : Bool :=
  sensitiveKeys.any fun s => (toLowerCase s).toList <:+: (toLowerCase key).toList

mutual

/-- `stripSensitive`. -/
def stripSensitive : Json ν → Json ν
  | .arr items => .arr (stripItems items)
  | .obj members => .obj (stripMembers members)
  | v => v

/-- `value.map(stripSensitive)`. -/
def stripItems : List (Json ν) → List (Json ν)
  | [] => []
  | v :: items => stripSensitive v :: stripItems items

/-- The loop over `Object.entries`. -/
def stripMembers : List (String × Json ν) → List (String × Json ν)
  | [] => []
  | (key, v) :: members =>
    if isSensitiveKey R.toLowerCase key then stripMembers members
    -- assigning to `__proto__` changes the prototype of `out` and makes no member
    else if key = "__proto__" then stripMembers members
    else (key, stripSensitive v) :: stripMembers members

end

/-! ### Commands -/

/-- The texts by their keys. -/
abbrev Redis := Table String (List Char)

/-- How a command ends for the request. -/
inductive Outcome where
  | answered
  /-- without an effect -/
  | refused
  /-- the command has its effect, and no answer comes -/
  | lost
  deriving DecidableEq, Repr

def null : Json.Value ν := ⟨.null, trivial⟩

/-- `CacheService.get`. -/
def get (s : Redis) (key : String) : Outcome → Json.Value ν
  | .answered =>
    match s.lookup key with
    | some raw => (Json.parseValue R.numbers raw).getD null
    | none => null
  | _ => null

/-- `CacheService.set`. -/
def set (s : Redis) (key : String) (value : Json ν) (outcome : Outcome) : Redis :=
  if outcome = .refused then s
  else s.insert key (Json.write R.numbers (stripSensitive R value))

/-- `client.del(...keys)`. -/
def del (s : Redis) (keys : List String) (outcome : Outcome) : Redis :=
  if outcome = .refused then s else keys.foldl (fun t key => t.erase key) s

/-! ### Keys -/

/-- `sanitizeId`: 36 hexadecimal digits and hyphens, or up to 64 letters, digits, underscores
and hyphens. -/
def sanitizeId (id : String) : Option String :=
  let hexadecimal (c : Char) := c.isDigit || c.toLower ∈ ['a', 'b', 'c', 'd', 'e', 'f'] || c = '-'
  let word (c : Char) := c.isAlphanum || c = '_' || c = '-'
  if (id.length = 36 ∧ id.toList.all hexadecimal) ∨
      (1 ≤ id.length ∧ id.length ≤ 64 ∧ id.toList.all word) then some id
  else none

def tenantKey (tenantId : String) : Option String :=
  (sanitizeId tenantId).map fun id => "pulseops:v1:tenant:" ++ id

def tenantSettingsKey (tenantId : String) : Option String :=
  (sanitizeId tenantId).map fun id => "pulseops:v1:tenant:" ++ id ++ ":settings"

/-! ### Requests -/

/-- What is done with the cache. -/
inductive Call (ν : Type) where
  | get (key : String)
  | set (key : String) (value : Json.Value ν)
  | del (key : String)
  | delByPattern
  | getOrSet (key : String)
  | getById (id : String)
  | getSettings (tenantId : String)
  /-- an entry expires -/
  | expire (key : String)

/-- A call with what it meets outside. -/
structure Request (ν : Type) where
  call : Call ν
  get : Outcome := .answered
  set : String → Outcome := fun _ => .answered
  del : Outcome := .answered
  /-- what the loader returns: an error, a value or `undefined` -/
  loads : Except Unit (Option (Json.Value ν)) := .ok none
  /-- the keys that match the pattern, in the batches in which the scan finds them, and how the
  command that deletes a batch ends -/
  found : List (List String × Outcome) := []

inductive Answer (ν : Type) where
  /-- `{ value, hit }` -/
  | found (value : Option (Json.Value ν)) (hit : Bool)
  | value (value : Json.Value ν)
  | acknowledged (ok : Bool)
  | deleted (n : ℕ)
  | failed

inductive Phase (ν : Type) where
  /-- before `client.get` -/
  | looking (key : String)
  | loading
  /-- values that are still to be stored -/
  | filling (entries : List (String × Json.Value ν)) (answer : Answer ν)
  /-- keys that are still to be deleted -/
  | deleting (batches : List (List String × Outcome)) (answer : Answer ν)
  | done (answer : Answer ν)

/-- `tenant[name]`. -/
def member (value : Json.Value ν) (name : String) : Json.Value ν :=
  match value with
  | ⟨.obj members, h⟩ =>
    match hm : members.find? fun m => m.1 = name with
    | some m => ⟨m.2, Json.distinctMembers_iff.mp h.2 m (List.mem_of_find?_eq_some hm)⟩
    | none => null
  | _ => null

/-- Where a request starts. The keys are made before anything else. -/
def Request.begin (req : Request ν) : Phase ν :=
  match req.call with
  | .get key => .looking key
  | .set key value => .filling [(key, value)] (.acknowledged (req.set key = .answered))
  | .del key => .deleting [([key], req.del)] (.acknowledged (req.del = .answered))
  | .delByPattern => .deleting req.found
      (.deleted (if req.found.all (·.2 = .answered) then
        (req.found.map fun batch => batch.1.length).sum else 0))
  | .getOrSet key => .looking key
  | .getById id => (tenantKey id).elim (.done .failed) .looking
  | .getSettings id => (tenantSettingsKey id).elim (.done .failed) .looking
  | .expire key => .deleting [([key], .answered)] (.acknowledged true)

/-- What a request does with what it has found in the cache. -/
def Request.looked (req : Request ν) (cached : Json.Value ν) : Phase ν :=
  match req.call with
  | .getOrSet _ =>
    match cached.1 with
    | .null => .loading
    | _ => .done (.found (some cached) true)
  | .getById _ | .getSettings _ => if R.truthy cached.1 then .done (.value cached) else .loading
  | _ => .done (.value cached)

/-- Whether `getById` answers with the tenant. -/
def addressable (tenant : Json.Value ν) : Bool :=
  match (member tenant "slug").1 with
  | .str slug => slug ≠ Accounts.platformTenantSlug
  | _ => true

/-- What a request does with what the loader, or `findById`, has returned. -/
def Request.loaded (req : Request ν) : Phase ν :=
  match req.call, req.loads with
  | .getOrSet key, .ok (some value) =>
    match value.1 with
    | .null => .done (.found (some value) false)
    | _ => .filling [(key, value)] (.found (some value) false)
  | .getOrSet _, .ok none => .done (.found none false)
  | .getById id, .ok (some tenant) =>
    match tenantKey id, tenantSettingsKey id with
    | some key, some settingsKey =>
      if R.truthy tenant.1 ∧ addressable tenant then
        let settings := member tenant "settings"
        .filling ((key, tenant) :: if R.truthy settings.1 then [(settingsKey, settings)] else [])
          (.value tenant)
      else .done .failed
    | _, _ => .done .failed
  | .getSettings id, .ok (some tenant) =>
    match tenantSettingsKey id with
    | some key =>
      if R.truthy tenant.1 then
        let settings := member tenant "settings"
        .filling (if R.truthy settings.1 then [(key, settings)] else []) (.value settings)
      else .done .failed
    | none => .done .failed
  | _, _ => .done .failed

/-- One turn. -/
def advance (req : Request ν) (s : Redis) : Phase ν → Redis × Phase ν
  | .looking key => (s, req.looked R (get R s key req.get))
  | .loading => (s, req.loaded R)
  | .filling [] answer => (s, .done answer)
  | .filling [(key, value)] answer => (set R s key value.1 (req.set key), .done answer)
  | .filling ((key, value) :: entry :: entries) answer =>
    (set R s key value.1 (req.set key), .filling (entry :: entries) answer)
  | .deleting [] answer => (s, .done answer)
  | .deleting ((keys, outcome) :: batches) answer =>
    -- the first command that fails ends the scan
    (del s keys outcome, if outcome = .answered then .deleting batches answer else .done answer)
  | .done answer => (s, .done answer)

end PulseOps.CacheService
