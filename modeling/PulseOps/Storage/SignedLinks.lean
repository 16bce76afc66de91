import Mathlib.Data.Nat.Digits.Lemmas
import PulseOps.Model.Storage

/-!
# Signed links

What is signed is a key, a colon, and a time. Links are only given out for keys that pass
`assertTenantScopedKey`, which have no colon, and the times are numbers: so there is one way to
read a text that was signed, whatever a request takes for its key and its time. As the MAC is
ideal, what verifies was signed.

## Main definitions

* `Event` — a request for a link or for a file.
* `IdealMac` — no collisions and no forgeries in a run.

## Main results

* `signedData_inj` — the reading of a signed text.
* `verify_link` — what verifies, verifies for the key and the time of its link.
* `getSignedFile_link` — files are given out for links that have not expired.
-/

set_option autoImplicit false

namespace PulseOps.Storage

variable {rt : Runtime} {place : Place} {storageKey expires signature : Text}

/-! ### Bytes -/

theorem hexBytes_hexText (bytes : List UInt8) : hexBytes (hexText bytes) = bytes := by
  induction bytes with
  | nil => rfl
  | cons byte bytes ih =>
    have hbyte : byte.toNat < 256 := byte.toNat_lt
    have hhigh := Json.hexValue_hexDigit (byte.toNat / 16) (by omega)
    have hlow := Json.hexValue_hexDigit (byte.toNat % 16) (by omega)
    have hsum : 16 * (byte.toNat / 16) + byte.toNat % 16 = byte.toNat := Nat.div_add_mod _ _
    have htext : hexText (byte :: bytes) = Json.hexDigit (byte.toNat / 16) ::
        Json.hexDigit (byte.toNat % 16) :: hexText bytes := rfl
    rw [htext, hexBytes, hhigh, hlow]
    simp only [hsum, ih, UInt8.ofNat_toNat]

/-! ### What is signed -/

theorem colon_notMem_toString (n : ℕ) : ':' ∉ (toString n).toList := by
  intro hmem
  have hdigits : (toString n).toList = Nat.toDigits 10 n := by simp
  rw [hdigits] at hmem
  exact absurd (Nat.isDigit_of_mem_toDigits (by decide) (by decide) hmem) (by decide)

/-- Without a colon in the key or in the time of a link, its text is read in one way. -/
theorem signedData_inj {storageKey' expires' : Text} (hkey : ':' ∉ storageKey)
    (hexpires : ':' ∉ expires)
    (h : signedData storageKey expires = signedData storageKey' expires') :
    storageKey = storageKey' ∧ expires = expires' := by
  obtain ⟨heq, -, heq'⟩ := (List.append_cons_inj_of_notMem hkey hexpires).mp h
  exact ⟨heq, heq'⟩

theorem colon_notMem_of_assert (h : assertTenantScopedKey storageKey = .ok ()) :
    ':' ∉ storageKey := by
  intro hmem
  unfold assertTenantScopedKey at h
  split_ifs at h with hempty hcolon
  all_goals exact hcolon (.inr (.inr (.inr (.inr (.inl hmem)))))

/-- The links that are given out. -/
theorem getSignedUrl_eq_ok {now expiresInSec : ℕ} {link : Link}
    (h : getSignedUrl rt place now storageKey expiresInSec = .ok link) :
    assertTenantScopedKey storageKey = .ok () ∧ link.key = storageKey ∧
      link.expires = (toString (now + expiresInSec)).toList ∧
      hexBytes link.signature = rt.mac (signedData link.key link.expires) := by
  unfold getSignedUrl localSignedUrl at h
  cases hkey : assertTenantScopedKey storageKey with
  | error e =>
    rw [hkey] at h
    cases h
  | ok _ =>
    rw [hkey] at h
    cases hpath : getFullPath place.cwd place.basePath storageKey with
    | error e =>
      simp only [hpath] at h
      cases h
    | ok path =>
      simp only [hpath] at h
      cases h
      exact ⟨rfl, rfl, rfl, hexBytes_hexText _⟩

theorem verifySignedUrl_eq_true {now : ℕ}
    (h : verifySignedUrl rt now storageKey expires signature = true) :
    rt.isBelow expires now = false ∧
      hexBytes signature = rt.mac (signedData storageKey expires) := by
  unfold verifySignedUrl at h
  split_ifs at h with hmissing hexpired
  simp only [hexBytes_hexText, decide_eq_true_eq] at h
  exact ⟨by simpa using hexpired, h.symm⟩

theorem getSignedFile_eq_ok {now : ℕ} {files : Text → Bool} {path : Text}
    (h : getSignedFile rt place now files storageKey expires signature = .ok path) :
    verifySignedUrl rt now storageKey expires signature = true ∧
      assertTenantScopedKey storageKey = .ok () := by
  unfold getSignedFile at h
  by_cases hmissing : storageKey = [] ∨ expires = [] ∨ signature = []
  · rw [if_pos hmissing] at h
    cases h
  · rw [if_neg hmissing] at h
    by_cases hverify : verifySignedUrl rt now storageKey expires signature = false
    · rw [if_pos hverify] at h
      cases h
    · rw [if_neg hverify] at h
      refine ⟨by simpa using hverify, ?_⟩
      cases hkey : assertTenantScopedKey storageKey with
      | error e =>
        rw [hkey] at h
        cases h
      | ok _ => rfl

/-! ### Runs -/

/-- What is asked of the server. -/
inductive Request where
  | link (storageKey : Text) (expiresInSec : ℕ)
  | file (storageKey expires signature : Text)

/-- A request, the second in which it is served, and the files that are there. -/
structure Event where
  now : ℕ
  /-- A `Date` has no later ones. -/
  now_le : now ≤ 8640000000000
  files : Text → Bool
  request : Request

/-- The text whose MAC is taken. -/
def Event.signedData (e : Event) : Text :=
  match e.request with
  | .link storageKey expiresInSec =>
    Storage.signedData storageKey (toString (e.now + expiresInSec)).toList
  | .file storageKey expires _ => Storage.signedData storageKey expires

/-- The link that is given out. -/
def Event.link? (rt : Runtime) (place : Place) (e : Event) : Option Link :=
  match e.request with
  | .link storageKey expiresInSec => (getSignedUrl rt place e.now storageKey expiresInSec).toOption
  | .file _ _ _ => none

/-- The MAC is ideal in a run: it has no collisions, and nobody presents one that they have not
been given. -/
structure IdealMac (rt : Runtime) (place : Place) (events : List Event) : Prop where
  collisionFree : ∀ e ∈ events, ∀ e' ∈ events,
    rt.mac e.signedData = rt.mac e'.signedData → e.signedData = e'.signedData
  unforged : ∀ before e after storageKey expires signature, events = before ++ e :: after →
    e.request = .file storageKey expires signature →
    hexBytes signature = rt.mac (signedData storageKey expires) →
    ∃ link ∈ before.filterMap (Event.link? rt place), hexBytes link.signature = hexBytes signature

variable {events before after : List Event} {e e' : Event} {link : Link}

theorem link?_eq_some (h : e.link? rt place = some link) :
    ∃ expiresInSec, e.request = .link link.key expiresInSec ∧
      getSignedUrl rt place e.now link.key expiresInSec = .ok link ∧
      assertTenantScopedKey link.key = .ok () ∧
      link.expires = (toString (e.now + expiresInSec)).toList ∧
      e.signedData = signedData link.key link.expires ∧
      hexBytes link.signature = rt.mac (signedData link.key link.expires) := by
  unfold Event.link? at h
  split at h
  case h_1 storageKey expiresInSec hrequest =>
    have hlink : getSignedUrl rt place e.now storageKey expiresInSec = .ok link := by
      cases hurl : getSignedUrl rt place e.now storageKey expiresInSec with
      | error _ =>
        rw [hurl] at h
        cases h
      | ok link' =>
        rw [hurl] at h
        cases h
        rfl
    obtain ⟨hassert, hkey, hexpires, hsignature⟩ := getSignedUrl_eq_ok hlink
    subst hkey
    refine ⟨expiresInSec, hrequest, hlink, hassert, hexpires, ?_, hsignature⟩
    rw [Event.signedData, hrequest, hexpires]
  case h_2 => cases h

/-- What verifies with the signature of a link has the key and the time of that link. -/
theorem verify_link (hmac : IdealMac rt place events) (hevents : events = before ++ e :: after)
    (hrequest : e.request = .file storageKey expires signature)
    (hverify : verifySignedUrl rt e.now storageKey expires signature = true)
    (he : e' ∈ before) (hlink : e'.link? rt place = some link)
    (hsignature : hexBytes link.signature = hexBytes signature) :
    link.key = storageKey ∧ link.expires = expires := by
  obtain ⟨expiresInSec, -, -, hassert, hexpires, hdata, hbytes⟩ := link?_eq_some hlink
  obtain ⟨-, hpresented⟩ := verifySignedUrl_eq_true hverify
  have hdata' : e.signedData = signedData storageKey expires := by
    rw [Event.signedData, hrequest]
  have hmem : e' ∈ events := by
    rw [hevents]
    exact List.mem_append_left _ he
  have hmem' : e ∈ events := by
    rw [hevents]
    exact List.mem_append_right _ List.mem_cons_self
  have hequal : signedData link.key link.expires = signedData storageKey expires := by
    rw [← hdata, ← hdata']
    apply hmac.collisionFree e' hmem e hmem'
    rw [hdata, hdata', ← hbytes, ← hpresented, hsignature]
  apply signedData_inj (colon_notMem_of_assert hassert) _ hequal
  rw [hexpires]
  exact colon_notMem_toString _

/-- A file is only given out for a link that `getSignedUrl` has given out for its key and that has
not expired; and a signature only verifies for the key and the time of its link. -/
theorem getSignedFile_link (hmac : IdealMac rt place events)
    (hnumber : ∀ n now : ℕ, now < 2 ^ 53 → rt.isBelow (toString n).toList now = decide (n < now))
    (hevents : events = before ++ e :: after)
    (hrequest : e.request = .file storageKey expires signature) :
    (∀ path, getSignedFile rt place e.now e.files storageKey expires signature = .ok path →
      assertTenantScopedKey storageKey = .ok () ∧
      ∃ e' ∈ before, ∃ expiresInSec link, e'.request = .link storageKey expiresInSec ∧
        getSignedUrl rt place e'.now storageKey expiresInSec = .ok link ∧
        link.expires = expires ∧ expires = (toString (e'.now + expiresInSec)).toList ∧
        e.now ≤ e'.now + expiresInSec) ∧
    (verifySignedUrl rt e.now storageKey expires signature = true →
      ∀ e' ∈ before, ∀ link, e'.link? rt place = some link →
        hexBytes link.signature = hexBytes signature →
        link.key = storageKey ∧ link.expires = expires) := by
  constructor
  · intro path hpath
    obtain ⟨hverify, hassert⟩ := getSignedFile_eq_ok hpath
    obtain ⟨hbelow, hpresented⟩ := verifySignedUrl_eq_true hverify
    obtain ⟨link, hlink, hsignature⟩ :=
      hmac.unforged before e after storageKey expires signature hevents hrequest hpresented
    obtain ⟨e', he', hlink⟩ := List.mem_filterMap.mp hlink
    obtain ⟨hkey, hexpires⟩ := verify_link hmac hevents hrequest hverify he' hlink hsignature
    obtain ⟨expiresInSec, hrequest', hurl, -, htime, -, -⟩ := link?_eq_some hlink
    rw [hkey] at hrequest' hurl
    rw [hexpires] at htime
    refine ⟨hassert, e', he', expiresInSec, link, hrequest', hurl, hexpires, htime, ?_⟩
    -- the time was compared as a number
    have hnow : e.now < 2 ^ 53 := lt_of_le_of_lt e.now_le (by norm_num)
    rw [htime, hnumber _ _ hnow, decide_eq_false_iff_not] at hbelow
    exact Nat.le_of_not_lt hbelow
  · intro hverify e' he' link hlink hsignature
    exact verify_link hmac hevents hrequest hverify he' hlink hsignature

/-- The HMAC-SHA256 of the one text that is signed. -/
private def digest : List UInt8 :=
  [101, 83, 43, 109, 222, 0, 162, 210, 165, 104, 219, 241, 240, 148, 130, 87, 247, 105, 169, 195,
    6, 175, 49, 92, 250, 45, 124, 149, 218, 249, 205, 169]

private def oneText : Runtime where
  mac _ := digest
  isBelow text n := decide (Nat.ofDigitChars 10 text 0 < n)

private def srv : Place := ⟨"/srv".toList, "storage".toList⟩

private def asked : Event :=
  ⟨1000, by norm_num, fun _ => true, .link "tenants/abc/x.png".toList 900⟩

private def fetched : Event :=
  ⟨1900, by norm_num, fun _ => true,
    .file "tenants/abc/x.png".toList "1900".toList (hexText digest)⟩

private theorem signedData_asked : asked.signedData = "tenants/abc/x.png:1900".toList := by
  decide +kernel

private theorem idealMac_run : IdealMac oneText srv [asked, fetched] where
  collisionFree := by
    intro e he e' he' _
    simp only [List.mem_cons, List.not_mem_nil, or_false] at he he'
    have hsame : fetched.signedData = asked.signedData := by decide +kernel
    rcases he with rfl | rfl <;> rcases he' with rfl | rfl <;> simp [hsame]
  unforged := by
    intro before e after storageKey expires signature hevents hrequest hbytes
    cases before with
    | nil =>
      cases hevents
      cases hrequest
    | cons first before =>
      obtain ⟨rfl, hrest⟩ := List.cons_eq_cons.mp hevents
      have hlink : ∃ link, asked.link? oneText srv = some link := ⟨_, rfl⟩
      obtain ⟨link, hlink⟩ := hlink
      obtain ⟨-, -, -, -, -, -, hsignature⟩ := link?_eq_some hlink
      refine ⟨link, List.mem_filterMap.mpr ⟨asked, List.mem_cons_self, hlink⟩, ?_⟩
      rw [hsignature, hbytes]
      rfl

/-- A link is fetched in its last second. -/
theorem getSignedFile_link_last :
    getSignedFile oneText srv fetched.now fetched.files "tenants/abc/x.png".toList "1900".toList
        (hexText digest) = .ok "/srv/storage/tenants/abc/x.png".toList ∧
      ∃ e' ∈ [asked], ∃ expiresInSec link,
        e'.request = .link "tenants/abc/x.png".toList expiresInSec ∧
          getSignedUrl oneText srv e'.now "tenants/abc/x.png".toList expiresInSec = .ok link ∧
          link.expires = "1900".toList ∧
          "1900".toList = (toString (e'.now + expiresInSec)).toList ∧
          fetched.now ≤ e'.now + expiresInSec := by
  have hserved : getSignedFile oneText srv fetched.now fetched.files "tenants/abc/x.png".toList
      "1900".toList (hexText digest) = .ok "/srv/storage/tenants/abc/x.png".toList := by
    decide +kernel
  have hnumber : ∀ n now : ℕ, now < 2 ^ 53 →
      oneText.isBelow (toString n).toList now = decide (n < now) := by
    intro n now _
    have hdigits : (toString n).toList = Nat.toDigits 10 n := by simp
    rw [hdigits]
    simp only [oneText, Nat.ofDigitChars_ten_toDigits]
  have hrun : [asked, fetched] = [asked] ++ fetched :: [] := rfl
  exact ⟨hserved, ((getSignedFile_link idealMac_run hnumber hrun rfl).1 _ hserved).2⟩

end PulseOps.Storage
