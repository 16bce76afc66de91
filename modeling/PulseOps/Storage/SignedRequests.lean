import PulseOps.Model.S3Storage
import PulseOps.Texts.Characters

/-!
# Signed requests

The URL of a request to S3 and the path that is signed for it are built apart. The URL has the
bucket in its path or in its host, which depends on the endpoint and on the style; what is signed
has it in its path when there is an endpoint or a path style. They agree when both or none are
there, if the endpoint has no path of its own and the key has no characters that a URL encodes.

## Main definitions

* `SignedForItsUrl` — the path and the host that are signed are those of the URL.
* `Ordinary` — providers whose names are ones.

## Main results

* `signedForItsUrl_iff` — when this is so.
-/

set_option autoImplicit false

namespace PulseOps.S3

open scoped Characters

variable {rt : Runtime} {provider : S3StorageProvider} {storageKey : Text}

/-- What is signed in the headers of a request and in a link is the path and the host of its
URL. -/
def SignedForItsUrl (rt : Runtime) (provider : S3StorageProvider) (storageKey : Text) : Prop :=
  ∃ url, rt.newUrl (buildUrl rt provider storageKey) = some url ∧
    (∀ method payloadHash contentType amzDate, ∃ request,
      headersRequest rt provider method storageKey payloadHash contentType amzDate = some request ∧
        request.uri = url.pathname ∧ request.headers.lookup hostHeader = some url.host) ∧
    ∀ queryString,
      (linkRequest provider storageKey url queryString).uri = url.pathname ∧
        (linkRequest provider storageKey url queryString).headers.lookup hostHeader = some url.host

/-! ### Keys -/

theorem key_of_enforce (h : enforceTenantKey storageKey = .ok ()) :
    ':' ∉ storageKey ∧ ∃ below, storageKey = "tenants".toList ++ '/' :: below := by
  unfold enforceTenantKey at h
  split_ifs at h with hempty htraversal hscoped hcolon
  refine ⟨fun hmem => hcolon (.inl hmem), ?_⟩
  obtain ⟨below, rfl⟩ := hscoped
  exact ⟨below, rfl⟩

/-- The host is signed as it is in the URL. -/
theorem signedForItsUrl_iff_path (hcredentials : provider.accessKeyId.isSome = true ∧
    provider.secretAccessKey.isSome = true) :
    SignedForItsUrl rt provider storageKey ↔
      ∃ url, Urls.parse rt.hostOf (urlFront rt provider ++ '/' :: storageKey) = some url ∧
        url.pathname = uriFront provider ++ '/' :: storageKey := by
  constructor
  · rintro ⟨url, hurl, -, hlink⟩
    exact ⟨url, hurl, (hlink []).1.symm⟩
  · rintro ⟨url, hurl, hpath⟩
    have hurl' : rt.newUrl (buildUrl rt provider storageKey) = some url := hurl
    refine ⟨url, hurl', ?_, fun queryString => ⟨hpath.symm, by simp [linkRequest]⟩⟩
    intro method payloadHash contentType amzDate
    unfold headersRequest
    rw [hcredentials.1, hcredentials.2, hurl']
    refine ⟨_, rfl, hpath.symm, ?_⟩
    have hother : (hostHeader == "content-type".toList) = false := by decide +kernel
    cases contentType.filter (· ≠ []) with
    | none => simp
    | some text =>
      simp only [Option.map_some, Option.toList_some, List.cons_append, List.nil_append,
        Option.getD_some]
      rw [List.lookup_cons, hother]
      simp

/-! ### Ordinary providers -/

/-- The characters of the names of buckets and regions. -/
def nameChar (c : Char) : Bool := c.isAlphanum || c = '-' || c = '.' || c = '_'

/-- A provider with a bucket and a region that are names, and an endpoint that is a host. -/
structure Ordinary (provider : S3StorageProvider) : Prop where
  bucket_ne : provider.bucket ≠ []
  bucket_chars : ∀ c ∈ provider.bucket, nameChar c = true
  bucket_notDot : ¬ Urls.Dot provider.bucket
  region_chars : ∀ c ∈ provider.region, nameChar c = true
  endpoint_host : ∀ endpoint ∈ provider.endpoint, ∃ scheme host, Urls.Written scheme host [] ∧
    withoutSlash endpoint = Urls.written scheme host []

theorem nameChar_plain {c : Char} (h : nameChar c = true) :
    Urls.slash c = false ∧ Urls.ends c = false ∧ Urls.control c = false ∧
      Urls.encoded c = false := by
  have hascii : c.toNat < 128 := by
    have hcases := h
    simp only [nameChar, Bool.or_eq_true, decide_eq_true_eq] at hcases
    rcases hcases with ((hc | rfl) | rfl) | rfl
    · exact Characters.toNat_lt_of_isAlphanum hc
    · decide
    · decide
    · decide
  have hplain : nameChar c = true → Urls.slash c = false ∧ Urls.ends c = false ∧
      Urls.control c = false ∧ Urls.encoded c = false := by
    apply Characters.of_lt _ hascii
    decide +kernel
  exact hplain h

/-- The directory of a bucket in a path. -/
theorem text_bucket (h : Ordinary provider) :
    Urls.text ((Urls.segments ('/' :: provider.bucket)).foldl Urls.step []) =
      '/' :: provider.bucket := by
  have hslash : ∀ c ∈ provider.bucket, Urls.slash c = false :=
    fun c hc => (nameChar_plain (h.bucket_chars c hc)).1
  have hsegments : Urls.segments ('/' :: provider.bucket) = [provider.bucket] := by
    rw [← List.nil_append ('/' :: provider.bucket), Urls.segments_append,
      List.splitOnP_eq_singleton hslash]
    rfl
  have hnormal : ∀ s ∈ [provider.bucket], Urls.Normal s := by
    intro s hs
    rw [List.mem_singleton.mp hs]
    refine ⟨fun c hc => ?_, h.bucket_notDot⟩
    obtain ⟨hslash, -, -, hencoded⟩ := nameChar_plain (h.bucket_chars c hc)
    exact ⟨hencoded, hslash⟩
  rw [hsegments, Urls.walk_normal hnormal]
  simp [Urls.text]

theorem written_bucket (h : Ordinary provider) {scheme host : Text}
    (hwritten : Urls.Written scheme host []) :
    Urls.Written scheme host ('/' :: provider.bucket) where
  scheme_http := hwritten.scheme_http
  host_ne := hwritten.host_ne
  host_chars := hwritten.host_chars
  tail_head c hc := by
    cases hc
    decide
  tail_chars c hc := by
    rw [List.mem_cons] at hc
    rcases hc with rfl | hc
    · decide
    · obtain ⟨-, hends, hcontrol, -⟩ := nameChar_plain (h.bucket_chars c hc)
      exact ⟨hends, hcontrol⟩

theorem newUrl_isSome {scheme host tail : Text} (h : Urls.Written scheme host tail) :
    (rt.newUrl (Urls.written scheme host tail)).isSome = (rt.hostOf scheme host).isSome := by
  rw [Runtime.newUrl, h.parse_eq, Option.isSome_map]

/-- The front of a URL without an endpoint. -/
theorem urlFront_none (rt : Runtime) (h : Ordinary provider)
    (hendpoint : provider.endpoint = none) :
    ∃ host, Urls.Written "https".toList host [] ∧
      urlFront rt provider = Urls.written "https".toList host [] := by
  refine ⟨provider.bucket ++ ".s3.".toList ++ provider.region ++ ".amazonaws.com".toList,
    ⟨.inr rfl, by simp, fun c hc => ?_, by simp, by simp⟩, ?_⟩
  · have hname : nameChar c = true := by
      simp only [List.mem_append] at hc
      rcases hc with ((hc | hc) | hc) | hc
      · exact h.bucket_chars c hc
      · revert c
        decide +kernel
      · exact h.region_chars c hc
      · revert c
        decide +kernel
    obtain ⟨hslash, hends, hcontrol, -⟩ := nameChar_plain hname
    exact ⟨hslash, hends, hcontrol⟩
  · rw [urlFront, hendpoint, Urls.written, List.append_nil]

/-- The front of a URL with an endpoint: the bucket goes to the path, or to the host. -/
theorem urlFront_some (rt : Runtime) (h : Ordinary provider) {endpoint scheme host : Text}
    (hendpoint : provider.endpoint = some endpoint) (hwritten : Urls.Written scheme host [])
    (hbase : withoutSlash endpoint = Urls.written scheme host []) :
    urlFront rt provider = Urls.written scheme host ('/' :: provider.bucket) ∧
        (provider.forcePathStyle = true ∨ rt.hostOf scheme host = none) ∨
      ∃ host', Urls.Written scheme host' [] ∧ provider.forcePathStyle = false ∧
        urlFront rt provider = Urls.written scheme host' [] := by
  have hpath : withoutSlash endpoint ++ '/' :: provider.bucket =
      Urls.written scheme host ('/' :: provider.bucket) := by
    rw [hbase]
    simp [Urls.written]
  unfold urlFront
  rw [hendpoint]
  dsimp only
  cases hforce : provider.forcePathStyle with
  | true =>
    rw [if_pos rfl]
    exact .inl ⟨hpath, .inl rfl⟩
  | false =>
    rw [if_neg Bool.false_ne_true, Runtime.newUrl, hbase, hwritten.parse_eq]
    cases hhost : rt.hostOf scheme host with
    -- the endpoint is no URL, and the bucket goes to the path after all
    | none =>
      rw [hbase] at hpath
      exact .inl ⟨hpath, .inr rfl⟩
    -- the bucket becomes a part of the host name
    | some host' =>
      refine .inr ⟨provider.bucket ++ '.' :: host', ⟨hwritten.scheme_http, by simp, ?_, by simp,
        by simp⟩, rfl, by simp [Urls.written]⟩
      intro c hc
      rw [List.mem_append, List.mem_cons] at hc
      rcases hc with hc | rfl | hc
      · obtain ⟨hslash, hends, hcontrol, -⟩ := nameChar_plain (h.bucket_chars c hc)
        exact ⟨hslash, hends, hcontrol⟩
      · decide
      · exact rt.hostOf_chars scheme host host' hhost c hc

/-- The endpoint and the style agree: the bucket is in the path, or it is not, both times. -/
theorem ordinary_iff (h : Ordinary provider) :
    Urls.Leads rt.hostOf (urlFront rt provider) (uriFront provider) storageKey ↔
      (rt.newUrl (urlFront rt provider)).isSome ∧
        provider.endpoint.isSome = provider.forcePathStyle ∧ Urls.Plain storageKey := by
  have hempty : Urls.text ((Urls.segments []).foldl Urls.step []) = [] := rfl
  cases hendpoint : provider.endpoint with
  | none =>
    obtain ⟨host, hwritten, hfront⟩ := urlFront_none rt h hendpoint
    rw [hfront, hwritten.leads_iff, newUrl_isSome hwritten, hempty]
    cases hforce : provider.forcePathStyle <;> simp [uriFront, hforce, hendpoint]
  | some endpoint =>
    obtain ⟨scheme, host, hwritten, hbase⟩ := h.endpoint_host endpoint hendpoint
    have huri : uriFront provider = '/' :: provider.bucket := by simp [uriFront, hendpoint]
    rcases urlFront_some rt h hendpoint hwritten hbase with
      ⟨hfront, hstyle⟩ | ⟨host', hwritten', hforce, hfront⟩
    · have hbucket := written_bucket h hwritten
      rw [hfront, hbucket.leads_iff, newUrl_isSome hbucket, text_bucket h, huri]
      rcases hstyle with hforce | hnone
      · simp [hforce]
      · simp [hnone]
    · -- the bucket is in the host, and is signed in the path
      rw [hfront, hwritten'.leads_iff, hempty, huri, hforce]
      simp

/-- What is signed is the path and the host of the URL if and only if the front of the URL leads to
what is signed before the key, and the key is plain. For ordinary providers: if there is an endpoint
and the path style is forced, or neither. -/
theorem signedForItsUrl_iff (hkey : enforceTenantKey storageKey = .ok ())
    (hcredentials : provider.accessKeyId.isSome = true ∧ provider.secretAccessKey.isSome = true) :
    (SignedForItsUrl rt provider storageKey ↔
      Urls.Leads rt.hostOf (urlFront rt provider) (uriFront provider) storageKey) ∧
    (Ordinary provider →
      (SignedForItsUrl rt provider storageKey ↔
        (rt.newUrl (urlFront rt provider)).isSome ∧
          provider.endpoint.isSome = provider.forcePathStyle ∧ Urls.Plain storageKey)) := by
  obtain ⟨hcolon, below, hbelow⟩ := key_of_enforce hkey
  have hiff : SignedForItsUrl rt provider storageKey ↔
      Urls.Leads rt.hostOf (urlFront rt provider) (uriFront provider) storageKey := by
    rw [signedForItsUrl_iff_path hcredentials]
    apply Urls.parse_below_iff hcolon _ _ hbelow
    · decide
    · decide +kernel
  exact ⟨hiff, fun h => hiff.trans (ordinary_iff h)⟩

/-- Hosts are taken as they are. -/
private def plainHosts : Runtime where
  hostOf _ authority :=
    if authority.all fun c => !(Urls.slash c || Urls.ends c || Urls.control c) then some authority
    else none
  hostOf_chars := by
    intro scheme authority host hhost c hc
    split_ifs at hhost with hall
    cases hhost
    have hchar := List.all_eq_true.mp hall c hc
    simp only [Bool.not_eq_true', Bool.or_eq_false_iff] at hchar
    exact ⟨hchar.1.1, hchar.1.2, hchar.2⟩
  sha256Hex := id
  hmacSha256 _ text := text
  hmacSha256Hex _ text := text
  encodeURIComponent := id

private def images (forcePathStyle : Bool) : S3StorageProvider where
  bucket := "images".toList
  region := "us-east-1".toList
  endpoint := some "https://s3.example.com".toList
  accessKeyId := some "id".toList
  secretAccessKey := some "secret".toList
  baseUrl := "https://s3.example.com/images".toList
  forcePathStyle
  endpoint_http := by decide +kernel

private theorem images_ordinary : Ordinary (images true) where
  bucket_ne := by decide
  bucket_chars := by decide +kernel
  bucket_notDot := by decide +kernel
  region_chars := by decide +kernel
  endpoint_host endpoint hendpoint := by
    obtain rfl : "https://s3.example.com".toList = endpoint := Option.some.inj hendpoint
    exact ⟨"https".toList, "s3.example.com".toList,
      ⟨.inr rfl, by decide, by decide +kernel, fun c hc => (nomatch hc), fun c hc => (nomatch hc)⟩,
      by decide +kernel⟩

/-- With the path style forced, requests to an endpoint are signed for their URLs. -/
theorem signedForItsUrl_path_style :
    SignedForItsUrl plainHosts (images true) "tenants/a/x.png".toList := by
  have hkey : enforceTenantKey "tenants/a/x.png".toList = .ok () := rfl
  have hparsed : (plainHosts.newUrl (urlFront plainHosts (images true))).isSome := by
    decide +kernel
  exact ((signedForItsUrl_iff hkey ⟨rfl, rfl⟩).2 images_ordinary).mpr
    ⟨hparsed, rfl, by decide +kernel, by decide +kernel⟩

/-- Without it, the bucket is in the host of the URL, and is signed in the path. -/
theorem virtual_host_signed_in_path :
    ¬ ∀ (rt : Runtime) (provider : S3StorageProvider) (storageKey : Text),
      enforceTenantKey storageKey = .ok () → provider.accessKeyId.isSome = true →
        provider.secretAccessKey.isSome = true → SignedForItsUrl rt provider storageKey := by
  intro h
  obtain ⟨url, hurl, -, hlink⟩ :=
    h plainHosts (images false) "tenants/a/x.png".toList rfl rfl rfl
  have hparsed : plainHosts.newUrl (buildUrl plainHosts (images false) "tenants/a/x.png".toList) =
      some ⟨"https".toList, "images.s3.example.com".toList, "/tenants/a/x.png".toList⟩ := by
    decide +kernel
  rw [hparsed] at hurl
  cases hurl
  have hpath : canonicalUri (images false) "tenants/a/x.png".toList = "/tenants/a/x.png".toList :=
    (hlink []).1
  revert hpath
  decide +kernel

end PulseOps.S3
