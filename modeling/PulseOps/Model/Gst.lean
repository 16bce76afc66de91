import PulseOps.Model.Database

/-!
# GST on orders

`orders/gst.js` and the state table and checks of `gst/india.js`: the workspace's order defaults,
the tax of a line, its split into CGST, SGST and IGST, the place of supply, and the
invoice number. Amounts are cents and rates are hundredths of a percent, so
`Math.round(ratePercent * 100)` is the rate itself.
-/

set_option autoImplicit false

open ReadCommitted

namespace PulseOps

/-- What a request takes from its surroundings: the configuration, the hash functions of
`node:crypto` (as hex digests), and the clock with the calendar facts derived from it. -/
structure Environment where
  defaultGstRatePercent : ℤ := 1800
  paymentProvider : String := "mock"
  paymentWebhookSecret : String := ""
  hmacSha256 : String → String → String := fun _ _ => ""
  sha256 : String → String := fun _ => ""
  now : ℕ := 0
  startOfMonthUtc : ℕ := 0
  financialYear : String := "2026-27"

namespace Gst

def defaultCurrency : String := "INR"

structure OrderDefaults where
  gstRatePercent : ℤ
  currency : String
  taxProfile : TaxProfile

/-- The workspace's order defaults: GST rate, currency and tax profile. -/
def resolveOrderDefaults (env : Environment) (tenantId : Uuid) (s : Db) : OrderDefaults :=
  let settings := (s.tenantSettings.lookup tenantId).getD {}
  { gstRatePercent := settings.gstRatePercent.getD env.defaultGstRatePercent
    currency := (truthy settings.currency).getD defaultCurrency
    taxProfile := settings.taxProfile }

/-- `Math.round (n / d)` for `0 < d`: halves go up. -/
def roundDiv (n d : ℤ) : ℤ := (2 * n + d) / (2 * d)

/-- GST for a taxable amount, rounded half-up to the paisa. -/
def gstCents (taxableCents : Cents) (ratePercent : ℤ) : Cents :=
  if taxableCents ≤ 0 ∨ ratePercent ≤ 0 then 0
  else roundDiv (taxableCents * ratePercent) 10000

/-- GST already inside a tax-inclusive amount: gross × r / (100 + r), to the paisa. -/
def includedGstCents (grossCents : Cents) (ratePercent : ℤ) : Cents :=
  if grossCents ≤ 0 ∨ ratePercent ≤ 0 then 0
  else roundDiv (grossCents * ratePercent) (10000 + ratePercent)

/-- The rate a line is taxed at: none for goods outside GST, else the product's own rate
or the default. -/
def lineRate (product : Product) (defaultRate : ℤ) : ℤ :=
  if product.gstTaxability ≠ .taxable then 0
  else product.gstRatePercent.getD defaultRate

structure LineTax where
  taxableCents : Cents
  taxCents : Cents
  deriving DecidableEq, Repr

/-- Taxable value and GST for one line. `grossCents` already includes GST when prices are
tax-inclusive. -/
def lineTax (grossCents : Cents) (ratePercent : ℤ) (inclusive : Bool)
    (explicitTaxCents : Option Cents) : LineTax :=
  match explicitTaxCents with
  | some tax => ⟨grossCents, tax⟩
  | none =>
    if inclusive then
      let taxCents := includedGstCents grossCents ratePercent
      ⟨grossCents - taxCents, taxCents⟩
    else ⟨grossCents, gstCents grossCents ratePercent⟩

structure TaxSplit where
  cgst : Cents
  sgst : Cents
  igst : Cents
  deriving DecidableEq, Repr

/-- Intra-state supply → CGST + SGST, any odd paisa to SGST. Inter-state → IGST. -/
def splitTax (taxCents : Cents) (intraState : Bool) : TaxSplit :=
  if intraState then
    let cgst := taxCents / 2
    ⟨cgst, taxCents - cgst, 0⟩
  else ⟨0, 0, taxCents⟩

/-! ### States -/

structure GstState where
  code : String
  name : String
  short : List String

/-- GST state codes (the first two digits of a GSTIN), with names and short forms. -/
def gstStates : List GstState :=
  [⟨"01", "Jammu and Kashmir", ["JK"]⟩, ⟨"02", "Himachal Pradesh", ["HP"]⟩,
    ⟨"03", "Punjab", ["PB"]⟩, ⟨"04", "Chandigarh", ["CH"]⟩,
    ⟨"05", "Uttarakhand", ["UK", "UT"]⟩, ⟨"06", "Haryana", ["HR"]⟩,
    ⟨"07", "Delhi", ["DL"]⟩, ⟨"08", "Rajasthan", ["RJ"]⟩,
    ⟨"09", "Uttar Pradesh", ["UP"]⟩, ⟨"10", "Bihar", ["BR"]⟩,
    ⟨"11", "Sikkim", ["SK"]⟩, ⟨"12", "Arunachal Pradesh", ["AR"]⟩,
    ⟨"13", "Nagaland", ["NL"]⟩, ⟨"14", "Manipur", ["MN"]⟩,
    ⟨"15", "Mizoram", ["MZ"]⟩, ⟨"16", "Tripura", ["TR"]⟩,
    ⟨"17", "Meghalaya", ["ML"]⟩, ⟨"18", "Assam", ["AS"]⟩,
    ⟨"19", "West Bengal", ["WB"]⟩, ⟨"20", "Jharkhand", ["JH"]⟩,
    ⟨"21", "Odisha", ["OD", "OR"]⟩, ⟨"22", "Chhattisgarh", ["CT", "CG"]⟩,
    ⟨"23", "Madhya Pradesh", ["MP"]⟩, ⟨"24", "Gujarat", ["GJ"]⟩,
    ⟨"26", "Dadra and Nagar Haveli and Daman and Diu", ["DN", "DH", "DD"]⟩,
    ⟨"27", "Maharashtra", ["MH"]⟩, ⟨"29", "Karnataka", ["KA"]⟩,
    ⟨"30", "Goa", ["GA"]⟩, ⟨"31", "Lakshadweep", ["LD"]⟩,
    ⟨"32", "Kerala", ["KL"]⟩, ⟨"33", "Tamil Nadu", ["TN"]⟩,
    ⟨"34", "Puducherry", ["PY"]⟩, ⟨"35", "Andaman and Nicobar Islands", ["AN"]⟩,
    ⟨"36", "Telangana", ["TG", "TS"]⟩, ⟨"37", "Andhra Pradesh", ["AP"]⟩,
    ⟨"38", "Ladakh", ["LA"]⟩, ⟨"97", "Other Territory", ["OT"]⟩]

def lowerCase (s : String) : List Char := s.toList.map Char.toLower

/-- The white space `\s` matches, as far as one byte goes. -/
def isSpace (c : Char) : Bool := c = ' ' ∨ ('\t' ≤ c ∧ c ≤ '\r') ∨ c = '\u00a0'

/-- `.replace(/\s+/g, ' ')`. -/
def collapseSpaces : List Char → List Char
  | [] => []
  | c :: cs =>
    let rest := collapseSpaces cs
    if isSpace c then (if rest.head? = some ' ' then rest else ' ' :: rest) else c :: rest

/-- `.trim().toLowerCase()`, one space between words, and `&` written out. -/
def stateKey (value : String) : List Char :=
  let trimmed := ((lowerCase value).dropWhile isSpace).reverse.dropWhile isSpace
  (collapseSpaces trimmed.reverse).flatMap fun c => if c = '&' then "and".toList else [c]

/-- "29", "KA", "ka", "Karnataka" → "29"; anything else → `none`. -/
def toStateCode (value : Option String) : Option String :=
  match value with
  | none => none
  | some v =>
    let key := stateKey v
    let key := if key.length = 1 ∧ key.all Char.isDigit then '0' :: key else key
    (gstStates.find? fun st =>
      st.code.toList = key ∨ lowerCase st.name = key ∨
        st.short.any fun short => lowerCase short = key).map GstState.code

def stateName (code : String) : Option String :=
  (gstStates.find? fun st => st.code = code).map GstState.name

/-- Where the goods go: the shipping address state, else the billing address, else the
customer's own state or GSTIN. -/
def placeOfSupply (shippingAddress billingAddress : Option AddressSnapshot)
    (customer : Customer) : Option String :=
  toStateCode (shippingAddress.bind (·.address.state)) <|>
    toStateCode (billingAddress.bind (·.address.state)) <|>
    customer.stateCode <|>
    (truthy customer.gstin).map fun g => String.ofList (g.toList.take 2)

/-- Same state as the shop, or either side unknown → intra-state. -/
def isIntraState (sellerState supplyState : Option String) : Bool :=
  match truthy sellerState, truthy supplyState with
  | some seller, some supply => seller = supply
  | _, _ => true

/-! ### GSTIN and PAN -/

def isStateCode (code : String) : Bool := gstStates.any fun st => st.code = code

def isUpper (c : Char) : Bool := 'A' ≤ c ∧ c ≤ 'Z'

/-- `.trim().toUpperCase()`. -/
def upperTrimmed (value : String) : List Char :=
  let trimmed := (value.toList.dropWhile isSpace).reverse.dropWhile isSpace
  trimmed.reverse.map Char.toUpper

/-- One character of a fixed format a place. -/
def hasFormat (format : List (Char → Bool)) (cs : List Char) : Bool :=
  cs.length = format.length ∧ (List.zipWith (fun p c => p c) format cs).all id

/-- `^[0-9]{2}[A-Z]{5}[0-9]{4}[A-Z][1-9A-Z]Z[0-9A-Z]$`. -/
def gstinFormat : List (Char → Bool) :=
  List.replicate 2 Char.isDigit ++ List.replicate 5 isUpper ++ List.replicate 4 Char.isDigit ++
    [isUpper, fun c => (c.isDigit && c ≠ '0') || isUpper c, fun c => c = 'Z',
      fun c => c.isDigit || isUpper c]

def gstinChars : List Char := "0123456789ABCDEFGHIJKLMNOPQRSTUVWXYZ".toList

/-- The 15th character of a GSTIN, from the first 14. -/
def gstinCheckChar (first14 : List Char) : Option Char :=
  let terms := first14.zipIdx.map fun (c, i) =>
    let product := gstinChars.idxOf c * (if i % 2 = 0 then 1 else 2)
    product / 36 + product % 36
  gstinChars[(36 - terms.sum % 36) % 36]?

/-- Format, state code and checksum. -/
def isValidGstin (value : String) : Bool :=
  let gstin := upperTrimmed value
  hasFormat gstinFormat gstin ∧ isStateCode (String.ofList (gstin.take 2)) ∧
    gstinCheckChar (gstin.take 14) = gstin[14]?

/-- `^[A-Z]{5}[0-9]{4}[A-Z]$`. -/
def panFormat : List (Char → Bool) :=
  List.replicate 5 isUpper ++ List.replicate 4 Char.isDigit ++ [isUpper]

def isValidPan (value : String) : Bool := hasFormat panFormat (upperTrimmed value)

/-! ### Invoice numbers -/

/-- Invoice prefix: the profile's own, else the first letters of the slug. -/
def invoicePrefix (taxProfile : TaxProfile) (slug : Option String) : String :=
  match truthy taxProfile.invoicePrefix with
  | some own => own
  | none =>
    let letters := (((truthy slug).getD "INV").toList.filter Char.isAlphanum).take 6
    if letters.isEmpty then "INV" else String.ofList (letters.map Char.toUpper)

/-- Indian financial year (April–March): October 2026 is in "2026-27". -/
def financialYear (year month : ℕ) : String :=
  let start := if 4 ≤ month then year else year - 1
  let digits := toString ((start + 1) % 100)
  toString start ++ "-" ++ String.ofList (List.replicate (2 - digits.length) '0') ++ digits

def formatInvoiceNumber (invoicePrefix financialYear : String) (n : ℕ) : String :=
  let digits := toString n
  invoicePrefix ++ "/" ++ financialYear ++ "/" ++
    String.ofList (List.replicate (4 - digits.length) '0') ++ digits

end Gst

end PulseOps
