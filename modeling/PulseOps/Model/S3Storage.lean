import PulseOps.Model.Rows
import PulseOps.Texts.Characters
import PulseOps.Texts.Urls

/-!
# S3 storage

`integrations/storage/s3-storage.provider.js`: the keys that the provider accepts, the URLs of its
requests, and what it signs. Texts are lists of characters; a digest is a text of bytes.

What the platform does is a parameter: the hosts of URLs, hashes and MACs, and
`encodeURIComponent`. The endpoint of a provider is an HTTP URL, as `fetch` takes no others.
The responses to requests are left out.
-/

set_option autoImplicit false

namespace PulseOps.S3

abbrev Text := List Char

/-! ### The platform -/

structure Runtime where
  /-- The host of an HTTP URL with the given scheme, and its port. -/
  hostOf : Text → Text → Option Text
  /-- Forbidden characters are not in hosts. -/
  hostOf_chars : ∀ scheme authority host, hostOf scheme authority = some host →
    ∀ c ∈ host, Urls.slash c = false ∧ Urls.ends c = false ∧ Urls.control c = false
  sha256Hex : Text → Text
  hmacSha256 : Text → Text → Text
  hmacSha256Hex : Text → Text → Text
  encodeURIComponent : Text → Text

/-- `new URL(text)` -/
def Runtime.newUrl (rt : Runtime) (text : Text) : Option Urls.Url := Urls.parse rt.hostOf text

/-! ### The provider -/

structure S3StorageProvider where
  bucket : Text
  region : Text
  endpoint : Option Text
  accessKeyId : Option Text
  secretAccessKey : Option Text
  baseUrl : Text
  forcePathStyle : Bool
  endpoint_http : ∀ text ∈ endpoint, (Urls.schemeOf (Urls.clean text)).isSome

variable (rt : Runtime) (provider : S3StorageProvider)

/-- `_enforceTenantKey`. -/
def enforceTenantKey (storageKey : Text) : Except AppError Unit :=
  if storageKey = [] then .error ⟨"Invalid storage key", 400, "INVALID_STORAGE_KEY"⟩
  else if ['.', '.'] <:+: storageKey ∨ ['/', '/'] <:+: storageKey ∨ ['/'] <+: storageKey ∨
      '\\' ∈ storageKey then
    .error ⟨"Invalid storage path: path traversal detected", 400, "INVALID_STORAGE_PATH"⟩
  else if ¬ "tenants/".toList <+: storageKey then
    .error ⟨"Storage key must be tenant-scoped", 400, "INVALID_STORAGE_KEY"⟩
  else if ':' ∈ storageKey ∨ '\x00' ∈ storageKey then
    .error ⟨"Invalid storage key characters", 400, "INVALID_STORAGE_KEY"⟩
  else .ok ()

/-- `.replace(/\/$/, '')` -/
def withoutSlash (text : Text) : Text :=
  if text.getLast? = some '/' then text.dropLast else text

/-- What `_buildUrl` puts before the key. -/
def urlFront : Text :=
  match provider.endpoint with
  | some endpoint =>
    let base := withoutSlash endpoint
    if provider.forcePathStyle then base ++ '/' :: provider.bucket
    else
      match rt.newUrl base with
      | some u => u.scheme ++ ':' :: '/' :: '/' :: (provider.bucket ++ '.' :: u.host)
      | none => base ++ '/' :: provider.bucket
  | none =>
    "https".toList ++ ':' :: '/' :: '/' ::
      (provider.bucket ++ ".s3.".toList ++ provider.region ++ ".amazonaws.com".toList)

/-- `_buildUrl`. -/
def buildUrl (storageKey : Text) : Text := urlFront rt provider ++ '/' :: storageKey

/-- What is signed before the key. -/
def uriFront : Text :=
  if provider.forcePathStyle || provider.endpoint.isSome then '/' :: provider.bucket else []

def canonicalUri (storageKey : Text) : Text := uriFront provider ++ '/' :: storageKey

/-! ### Signatures -/

/-- What a signature is made of. Headers are in order of their names, which are in lower case. -/
structure CanonicalRequest where
  method : Text
  uri : Text
  queryString : Text
  headers : List (Text × Text)
  payloadHash : Text

def hostHeader : Text := "host".toList

/-- The request of `_buildHeaders` that is signed. Without a URL there is no host. -/
def headersRequest (method storageKey payloadHash : Text) (contentType : Option Text)
    (amzDate : Text) : Option CanonicalRequest :=
  if provider.accessKeyId.isSome && provider.secretAccessKey.isSome then
    let host := (rt.newUrl (buildUrl rt provider storageKey)).map (·.host)
    some {
      method
      uri := canonicalUri provider storageKey
      queryString := []
      headers :=
        ((contentType.filter (· ≠ [])).map fun text => ("content-type".toList, text)).toList ++
        [(hostHeader, host.getD "undefined".toList), ("x-amz-content-sha256".toList, payloadHash),
          ("x-amz-date".toList, amzDate)]
      payloadHash }
  else none

/-- The request of `getSignedUrl` that is signed. -/
def linkRequest (storageKey : Text) (url : Urls.Url) (queryString : Text) : CanonicalRequest where
  method := "GET".toList
  uri := canonicalUri provider storageKey
  queryString
  headers := [(hostHeader, url.host)]
  payloadHash := "UNSIGNED-PAYLOAD".toList

def CanonicalRequest.signedHeaders (request : CanonicalRequest) : Text :=
  [';'].intercalate (request.headers.map (·.1))

/-- `canonicalRequest` -/
def CanonicalRequest.text (request : CanonicalRequest) : Text :=
  ['\n'].intercalate [request.method, request.uri, request.queryString,
    request.headers.flatMap fun (name, value) => name ++ ':' :: (ScriptText.trim value ++ ['\n']),
    request.signedHeaders, request.payloadHash]

def credentialScope (amzDate : Text) : Text :=
  amzDate.take 8 ++ '/' :: provider.region ++ "/s3/aws4_request".toList

/-- The signature of a request under the secret of the provider. -/
def signature (secretAccessKey amzDate : Text) (request : CanonicalRequest) : Text :=
  let stringToSign := ['\n'].intercalate
    ["AWS4-HMAC-SHA256".toList, amzDate, credentialScope provider amzDate,
      rt.sha256Hex request.text]
  let kDate := rt.hmacSha256 ("AWS4".toList ++ secretAccessKey) (amzDate.take 8)
  let kRegion := rt.hmacSha256 kDate provider.region
  let kService := rt.hmacSha256 kRegion "s3".toList
  let kSigning := rt.hmacSha256 kService "aws4_request".toList
  rt.hmacSha256Hex kSigning stringToSign

/-- `buildS3Authorization`. -/
def buildS3Authorization (accessKeyId secretAccessKey amzDate : Text)
    (request : CanonicalRequest) : Text :=
  "AWS4-HMAC-SHA256 Credential=".toList ++ accessKeyId ++ '/' :: credentialScope provider amzDate ++
    ", SignedHeaders=".toList ++ request.signedHeaders ++ ", Signature=".toList ++
    signature rt provider secretAccessKey amzDate request

structure Headers where
  amzDate : Text
  payloadHash : Text
  contentType : Option Text
  host : Option Text
  authorization : Option Text

/-- `_buildHeaders`. -/
def buildHeaders (method storageKey payloadHash : Text) (contentType : Option Text)
    (amzDate : Text) : Headers where
  amzDate
  payloadHash
  contentType := contentType.filter (· ≠ [])
  host := (rt.newUrl (buildUrl rt provider storageKey)).map (·.host)
  authorization := do
    let accessKeyId ← provider.accessKeyId
    let secretAccessKey ← provider.secretAccessKey
    let request ← headersRequest rt provider method storageKey payloadHash contentType amzDate
    return buildS3Authorization rt provider accessKeyId secretAccessKey amzDate request

/-- Why there is no link. -/
inductive Failure where
  | app (error : AppError)
  /-- The `TypeError` of `new URL`. -/
  | invalidUrl

/-- The parameters of a link, in order of their names. -/
def queryString (accessKeyId amzDate expiresInSec : Text) : Text :=
  let credential := accessKeyId ++ '/' :: credentialScope provider amzDate
  ['&'].intercalate (
    [("X-Amz-Algorithm".toList, "AWS4-HMAC-SHA256".toList),
      ("X-Amz-Credential".toList, credential), ("X-Amz-Date".toList, amzDate),
      ("X-Amz-Expires".toList, expiresInSec), ("X-Amz-SignedHeaders".toList, "host".toList)].map
    fun (name, value) => rt.encodeURIComponent name ++ '=' :: rt.encodeURIComponent value)

/-- The link without credentials; the secret is that of the webhook of payments. -/
def mockSignedUrl (webhookSecret storageKey : Text) (now expiresInSec : ℕ) : Text :=
  let expires := (toString (now + expiresInSec)).toList
  let sig := rt.hmacSha256Hex webhookSecret (storageKey ++ ':' :: expires)
  withoutSlash provider.baseUrl ++ '/' :: storageKey ++ "?X-Mock-Expires=".toList ++ expires ++
    "&X-Mock-Signature=".toList ++ sig

/-- `getSignedUrl`. -/
def getSignedUrl (webhookSecret storageKey : Text) (now expiresInSec : ℕ) (amzDate : Text) :
    Except Failure Text :=
  match enforceTenantKey storageKey with
  | .error e => .error (.app e)
  | .ok () =>
    match provider.accessKeyId, provider.secretAccessKey with
    | some accessKeyId, some secretAccessKey =>
      match rt.newUrl (buildUrl rt provider storageKey) with
      | none => .error .invalidUrl
      | some urlObj =>
        let queryString :=
          queryString rt provider accessKeyId amzDate (toString expiresInSec).toList
        let request := linkRequest provider storageKey urlObj queryString
        .ok (buildUrl rt provider storageKey ++ '?' :: queryString ++ "&X-Amz-Signature=".toList ++
          signature rt provider secretAccessKey amzDate request)
    | _, _ => .ok (mockSignedUrl rt provider webhookSecret storageKey now expiresInSec)

end PulseOps.S3
