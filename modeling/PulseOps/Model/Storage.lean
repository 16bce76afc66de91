import PulseOps.Json.Text
import PulseOps.Model.Rows
import PulseOps.Texts.Paths
import PulseOps.Texts.Characters

/-!
# File storage

The keys of `common/storage/storage.service.js`, the paths and signed links of
`common/storage/local-storage.provider.js`, and `getSignedFile` of
`storage/storage.controller.js`. Texts are lists of characters. Files are local, and paths are
those of POSIX; the working directory is absolute.

What the platform does is a parameter: `toLowerCase`, the comparison of `Number(text)` with an
integer, and the HMAC under the secret of the storage. Times are whole seconds. A link is taken as
the parameters of its URL. Of a file it is only said whether it is there.
-/

set_option autoImplicit false

namespace PulseOps.Storage

abbrev Text := List Char

def invalidKey : AppError := ⟨"Invalid storage key", 400, "INVALID_STORAGE_KEY"⟩

def pathTraversal : AppError :=
  ⟨"Invalid storage path: path traversal detected", 400, "INVALID_STORAGE_PATH"⟩

def notTenantScoped : AppError := ⟨"Storage key must be tenant-scoped", 400, "INVALID_STORAGE_KEY"⟩

def invalidTenantSegment : AppError :=
  ⟨"Invalid tenant segment in storage key", 400, "INVALID_STORAGE_KEY"⟩

/-! ### File names -/

/-- `ALLOWED_EXTENSIONS`. -/
def allowedExtensions : List Text :=
  [['.', 'j', 'p', 'g'], ['.', 'j', 'p', 'e', 'g'], ['.', 'p', 'n', 'g'], ['.', 'w', 'e', 'b', 'p'],
    ['.', 'g', 'i', 'f']]

/-- `[a-zA-Z0-9_-]` -/
def nameChar (c : Char) : Bool := c.isAlphanum || c = '_' || c = '-'

/-- What becomes of a run of `c`. -/
def collapsed (c : Char) : ℕ → Text
  | 0 => []
  | 1 => [c]
  | _ => ['_']

/-- `.replace(/c{2,}/g, '_')`, after a run of `c` of the given length. -/
def collapseFrom (c : Char) (run : ℕ) : Text → Text
  | [] => collapsed c run
  | d :: text =>
    if d = c then collapseFrom c (run + 1) text
    else collapsed c run ++ d :: collapseFrom c 0 text

/-- `.replace(/c{2,}/g, '_')` -/
def collapse (c : Char) (text : Text) : Text := collapseFrom c 0 text

/-- The last dot of a name is no part of the base. With nothing before it there is no extension. -/
def splitExtension (toLowerCase : Text → Text) (basename : Text) : Text × Text :=
  let ext := (basename.reverse.takeWhile (· ≠ '.')).reverse
  match basename.reverse.dropWhile (· ≠ '.') with
  | [] => (basename, [])
  | [_] => (ext, [])
  | _ :: base => (base.reverse, toLowerCase ('.' :: ext))

/-- What `sanitizeFilename` makes of the base of a name. -/
def sanitizeBase (base : Text) : Text :=
  let replaced := base.map fun c => if nameChar c then c else '_'
  let trimmed := ((collapse '_' replaced).dropWhile (· = '.')).dropWhile (· = '_')
  let sanitizedBase := trimmed.take 100
  if sanitizedBase = [] then ['f', 'i', 'l', 'e'] else sanitizedBase

def defaultName : Text := ['f', 'i', 'l', 'e', '.', 'j', 'p', 'g']

/-- `sanitizeFilename`. -/
def sanitizeFilename (toLowerCase : Text → Text) (filename : Text) : Text :=
  if filename = [] then defaultName
  else
    let basename := (((filename.splitOn '/').getLastD []).splitOn '\\').getLastD []
    let (base, ext) := splitExtension toLowerCase basename
    let safeExt := if ext ∈ allowedExtensions then ext else ['.', 'j', 'p', 'g']
    let final := (collapse '.' (sanitizeBase base ++ safeExt)).take 255
    if ['.', '.'] <:+: final then defaultName else final

/-! ### Keys -/

/-- `generateProductImageKey`; `unique` is a random UUID. -/
def generateProductImageKey (toLowerCase : Text → Text)
    (unique tenantId productId filename : Text) : Text :=
  "tenants/".toList ++ tenantId ++ "/products/".toList ++ productId ++ '/' ::
    (unique.take 8 ++ '_' :: sanitizeFilename toLowerCase filename)

/-- `generateVariantImageKey`; `unique` is a random UUID. -/
def generateVariantImageKey (toLowerCase : Text → Text)
    (unique tenantId productId variantId filename : Text) : Text :=
  "tenants/".toList ++ tenantId ++ "/products/".toList ++ productId ++ "/variants/".toList ++
    variantId ++ '/' :: (unique.take 8 ++ '_' :: sanitizeFilename toLowerCase filename)

/-- `/^[a-f0-9-]{36}$/i` -/
def uuidLike (segment : Text) : Bool :=
  segment.length = 36 && segment.all fun c =>
    c.isDigit || c.toLower ∈ ['a', 'b', 'c', 'd', 'e', 'f'] || c = '-'

/-- `assertTenantScopedKey`. -/
def assertTenantScopedKey (storageKey : Text) : Except AppError Unit :=
  if storageKey = [] then .error invalidKey
  else if ['.', '.'] <:+: storageKey ∨ ['/'] <+: storageKey ∨ '\\' ∈ storageKey ∨
      '\x00' ∈ storageKey ∨ ':' ∈ storageKey ∨ ['/', '/'] <:+: storageKey then
    .error pathTraversal
  else if ¬ "tenants/".toList <+: storageKey then .error notTenantScoped
  else
    let segments := storageKey.splitOn '/'
    let tenant := segments.getD 1 []
    -- other tenants than UUIDs are only asked for their length
    if (segments.length < 3 ∨ ¬ uuidLike tenant) ∧ ScriptText.utf16Length tenant < 3 then
      .error invalidTenantSegment
    else .ok ()

/-! ### Paths -/

/-- The text that `path.resolve` normalises, from the last path on to an absolute one. -/
def resolvedPath (cwd : Text) : List Text → Text → Text
  | [], resolved => cwd ++ '/' :: resolved
  | path :: paths, resolved =>
    if path = [] then resolvedPath cwd paths resolved
    else if ['/'] <+: path then path ++ '/' :: resolved
    else resolvedPath cwd paths (path ++ '/' :: resolved)

/-- `path.resolve`. -/
def resolve (cwd : Text) (paths : List Text) : Text :=
  Paths.text (Paths.walk [] (Paths.segments (resolvedPath cwd paths.reverse [])))

/-- `getFullPath`. -/
def getFullPath (cwd basePath storageKey : Text) : Except AppError Text :=
  let normalizedKey := storageKey.dropWhile (· = '/')
  let fullPath := resolve cwd [basePath, normalizedKey]
  let resolvedBase := resolve cwd [basePath]
  if resolvedBase <+: fullPath then .ok fullPath else .error pathTraversal

/-! ### Signed links -/

/-- What the platform computes. -/
structure Runtime where
  /-- The HMAC under `storageSigningSecret()`. -/
  mac : Text → List UInt8
  /-- `Number(text) < n` -/
  isBelow : Text → ℕ → Bool

/-- The local storage of a process. -/
structure Place where
  cwd : Text
  basePath : Text

/-- The parameters of a signed URL. -/
structure Link where
  key : Text
  expires : Text
  signature : Text

/-- `.digest('hex')` -/
def hexText (bytes : List UInt8) : Text :=
  bytes.flatMap fun byte => [Json.hexDigit (byte.toNat / 16), Json.hexDigit (byte.toNat % 16)]

/-- `Buffer.from(text, 'hex')` stops at the first pair that is no byte. -/
def hexBytes : Text → List UInt8
  | high :: low :: text =>
    match Json.hexValue high, Json.hexValue low with
    | some h, some l => UInt8.ofNat (16 * h + l) :: hexBytes text
    | _, _ => []
  | _ => []

/-- The text that is signed. -/
def signedData (storageKey expires : Text) : Text := storageKey ++ ':' :: expires

/-- `LocalStorageProvider.getSignedUrl`. -/
def localSignedUrl (rt : Runtime) (place : Place) (now : ℕ) (storageKey : Text)
    (expiresInSec : ℕ) : Except AppError Link := do
  let _ ← getFullPath place.cwd place.basePath storageKey
  let expires := (toString (now + expiresInSec)).toList
  return ⟨storageKey, expires, hexText (rt.mac (signedData storageKey expires))⟩

/-- `StorageService.getSignedUrl`. -/
def getSignedUrl (rt : Runtime) (place : Place) (now : ℕ) (storageKey : Text)
    (expiresInSec : ℕ) : Except AppError Link := do
  assertTenantScopedKey storageKey
  localSignedUrl rt place now storageKey expiresInSec

/-- `verifySignedUrl`. -/
def verifySignedUrl (rt : Runtime) (now : ℕ) (storageKey expires signature : Text) : Bool :=
  if expires = [] ∨ signature = [] then false
  else if rt.isBelow expires now then false
  else
    let expected := hexText (rt.mac (signedData storageKey expires))
    hexBytes expected = hexBytes signature

/-- `getFileStream`: the path that is read. -/
def getFileStream (place : Place) (files : Text → Bool) (storageKey : Text) :
    Except AppError (Option Text) := do
  assertTenantScopedKey storageKey
  let fullPath ← getFullPath place.cwd place.basePath storageKey
  return if files fullPath then some fullPath else none

/-- `getSignedFile`. -/
def getSignedFile (rt : Runtime) (place : Place) (now : ℕ) (files : Text → Bool)
    (storageKey expires signature : Text) : Except AppError Text := do
  if storageKey = [] ∨ expires = [] ∨ signature = [] then
    throw ⟨"Missing signed URL parameters", 400, "INVALID_SIGNED_URL"⟩
  if verifySignedUrl rt now storageKey expires signature = false then
    throw ⟨"Invalid or expired signed URL", 403, "INVALID_SIGNED_URL"⟩
  assertTenantScopedKey storageKey
  match ← getFileStream place files storageKey with
  | none => throw ⟨"File not found", 404, "FILE_NOT_FOUND"⟩
  | some path => return path

end PulseOps.Storage
