import Mathlib.Data.String.Basic
import PulseOps.Caching.CatalogueWrites
import PulseOps.Caching.TenantWrites

/-!
# Cached reads

`ProductService` and `TenantService` delete the entries that their writes make stale. Writes of
variants and images are listed with the products and delete no list; neither does the deletion
of a tenant, nor an update that fails on its price after it has set the categories. The services
of the workspace and of the platform write tenants, settings and domains and delete no entry.
Where none of these writes meets an entry of what it changes, cached reads answer what is
stored, but for the secrets that the cache leaves out.

## Main definitions

* `Request` — the writes of the catalogue and of tenants, and the cached reads.
* `Request.forgets` — the entries that a request makes stale and does not delete.
* `quiet` — none of them is there.

## Main results

* `good_perform` — a request that meets no such entry leaves all entries right.
* `cached_reads_stored` — cached reads after any sequence of such requests.
-/

set_option autoImplicit false

open ReadCommitted Autocommit

namespace PulseOps.Tenants

open Accounts (TenantStatus)
open Products (ListOptions ListPayload ProductData ProductChanges VariantData VariantChanges
  AttributeInput ImageData ProductRepository.list)

/-! ### Requests -/

/-- A write of the catalogue that deletes no list. -/
inductive DetailWrite where
  | createVariant (productId : Uuid) (data : VariantData) (id : Uuid) (now : ℤ)
  | updateVariant (id : Uuid) (changes : VariantChanges)
      (attributes : Option (List AttributeInput)) (productId : Option Uuid)
  | deleteVariant (id : Uuid) (productId : Option Uuid) (ordered : Bool)
  | setAttributes (id : Uuid) (attributes : List AttributeInput) (productId : Option Uuid)
  | createProductImage (productId : Uuid) (upload : Except Failure (String × String))
      (data : ImageData) (id : Uuid)
  | createVariantImage (productId variantId : Uuid) (upload : Except Failure (String × String))
      (data : ImageData) (id : Uuid)
  | updateImage (id : Uuid) (data : ImageData) (productId : Option Uuid)
  | deleteImage (id : Uuid) (productId : Option Uuid) (fileDeleted : Except Failure Unit)

/-- A write of `ProductService`. -/
inductive ProductWrite where
  | create (data : ProductData) (id : Uuid) (now : ℤ)
  | update (id : Uuid) (categories : List Uuid) (primaryCategoryId : Option Uuid)
      (changes : ProductChanges) (now : ℤ)
  | delete (id : Uuid)
  | setCategories (productId : Uuid) (categoryIds : List Uuid) (primaryCategoryId : Option Uuid)

/-- A write of tenants, their settings or their domains. -/
inductive TenantWrite where
  | create (id : Uuid) (name slug : String) (status : Option TenantStatus) (plan : Option String)
  | update (id : Uuid) (data : TenantData)
  | delete (id : Uuid) (restricted : Bool)
  | updateName (id : Uuid) (name : String)
  | changeSettings (id : Uuid) (r : Settings.SettingsRequest)
  | changeDomains (r : Domains.DomainRequest)
  | platformCreate (id : Uuid) (name slug : String) (status : Option TenantStatus)
      (plan : Option String) (emailTaken : Bool)
  | platformUpdate (id : Uuid) (data : TenantData)
  | updateTenantStatus (id : Uuid) (status : TenantStatus)
  | assignPlan (id : Uuid) (plan : String)

inductive Request where
  | product (tenantId : Uuid) (write : ProductWrite)
  | detail (tenantId : Uuid) (write : DetailWrite)
  | tenant (write : TenantWrite)
  | list (tenantId : Uuid) (options : ListOptions)
  | getById (id : Uuid)
  | getSettings (id : Uuid)

/-- The end of a read. -/
def discard {α : Type} (p : Service α) : Service Unit := p >>= fun _ => pure ()

def ProductWrite.service (tenantId : Uuid) : ProductWrite → Service Unit
  | .create data id now => Products.ProductService.create tenantId data id now
  | .update id categories primaryCategoryId changes now =>
    Products.ProductService.update id tenantId categories primaryCategoryId changes now
  | .delete id => Products.ProductService.delete id tenantId
  | .setCategories productId categoryIds primaryCategoryId =>
    Products.ProductService.setCategories productId tenantId categoryIds primaryCategoryId

def DetailWrite.service (isNumber : String → Bool) (tenantId : Uuid) :
    DetailWrite → Service Unit
  | .createVariant productId data id now =>
    Products.VariantService.create isNumber productId tenantId data id now
  | .updateVariant id changes attributes productId =>
    Products.VariantService.update isNumber id tenantId changes attributes productId
  | .deleteVariant id productId ordered =>
    Products.VariantService.delete id tenantId productId ordered
  | .setAttributes id attributes productId =>
    Products.VariantService.setAttributes isNumber id tenantId attributes productId
  | .createProductImage productId upload data id =>
    Products.ProductImageService.createProductImage productId tenantId upload data id
  | .createVariantImage productId variantId upload data id =>
    Products.ProductImageService.createVariantImage productId variantId tenantId upload data id
  | .updateImage id data productId =>
    Products.ProductImageService.updateImage id tenantId data productId
  | .deleteImage id productId fileDeleted =>
    Products.ProductImageService.deleteImage id tenantId productId fileDeleted

def TenantWrite.service : TenantWrite → Service Unit
  | .create id name slug status plan => TenantService.create id name slug status plan
  | .update id data => TenantService.update id data
  | .delete id restricted => TenantService.delete id restricted
  | .updateName id name => WorkspaceService.updateName id name
  | .changeSettings id r => WorkspaceService.changeSettings id r
  | .changeDomains r => WorkspaceService.changeDomains r
  | .platformCreate id name slug status plan emailTaken =>
    PlatformService.createTenant id name slug status plan emailTaken
  | .platformUpdate id data => PlatformService.updateTenant id data
  | .updateTenantStatus id status => PlatformService.updateTenantStatus id status
  | .assignPlan id plan => PlatformService.assignPlan id plan

section Requests

variable (texts : Products.Texts) (hash : ListPayload → String) (isNumber : String → Bool)

def Request.service : Request → Service Unit
  | .product tenantId write => write.service tenantId
  | .detail tenantId write => write.service isNumber tenantId
  | .tenant write => write.service
  | .list tenantId options =>
    discard (Products.ProductService.list texts hash tenantId options)
  | .getById id => discard (TenantService.getById id)
  | .getSettings id => discard (TenantService.getSettings id)

/-- The state after a request. -/
def perform (r : Request) (s : Store) : Store := (r.service texts hash isNumber s).2

end Requests

/-! ### What requests forget -/

/-- The lists of a tenant. -/
def listsOf (tenantId : Uuid) : Set CacheKey := {k | ∃ hash, k = .productList tenantId hash}

/-- An update can fail on its price when it has set the categories. -/
def ProductWrite.forgets (tenantId : Uuid) : ProductWrite → Set CacheKey
  | .update _ categories _ changes _ =>
    {k | k ∈ listsOf tenantId ∧ categories ≠ [] ∧ Products.fits changes.basePrice = false}
  | _ => ∅

def TenantWrite.forgets (s : Store) : TenantWrite → Set CacheKey
  | .create _ _ _ _ _ => ∅
  | .update _ _ => ∅
  | .delete id _ => listsOf id
  | .updateName id _ => {.tenant id}
  | .changeSettings id _ => {.tenant id, .settings id}
  | .changeDomains r => {k | ∃ t ∈ r.claimants s.db.domains, k = .tenant t}
  | .platformCreate _ _ _ _ _ _ => ∅
  | .platformUpdate id _ => {.tenant id}
  | .updateTenantStatus id _ => {.tenant id}
  | .assignPlan id _ => {.tenant id}

/-- The entries that a request makes stale and does not delete. -/
def Request.forgets (s : Store) : Request → Set CacheKey
  | .product tenantId write => write.forgets tenantId
  | .detail tenantId _ => listsOf tenantId
  | .tenant write => write.forgets s
  | _ => ∅

/-- None of these entries is there. -/
def quiet (r : Request) (s : Store) : Prop := ∀ k ∈ r.forgets s, s.cache.entry k = none

/-! ### One request -/

variable {E : Environment} {s s' : Store} {tenantId id : Uuid} {isNumber : String → Bool}

theorem findById_of_writes (h : Products.Writes tenantId s s') (id : Uuid) :
    TenantRepository.findById s'.db id = TenantRepository.findById s.db id := by
  rw [h.db]
  rfl

theorem steps_of_writes (h : Products.Writes tenantId s s') :
    Steps E (listsOf tenantId) s s' where
  kept k v hk := by
    cases k with
    | tenant id =>
      unfold Cache.entry at hk ⊢
      rw [← h.tenants]
      exact hk
    | settings id =>
      unfold Cache.entry at hk ⊢
      rw [← h.settings]
      exact hk
    | productList t hash =>
      obtain ⟨page, hpage, rfl⟩ := Option.map_eq_some_iff.mp hk
      exact Option.map_eq_some_iff.mpr ⟨page, h.lists _ _ hpage, rfl⟩
  same hc :=
    { tenant := fun id v _ hv => (findById_of_writes h id).trans hv
      settings := fun id v _ hv => ⟨v, (findById_of_writes h id).trans hv, rfl⟩
      list := fun t options ht => by
        apply h.rows.list_eq hc
        rintro rfl
        exact ht ⟨_, rfl⟩
      sameTenant := (h.rows hc).1 }

/-- A request that changes nothing or deletes the lists. -/
theorem good_of_settled (h : Good E s) (hwrites : Products.Writes tenantId s s')
    (hsettled : Products.Settled tenantId s s') : Good E s' := by
  have hstep : Steps E (listsOf tenantId) s s' := steps_of_writes hwrites
  rcases hsettled with hdb | hlists
  · apply h.step (K := ∅)
    · refine ⟨hstep.kept, fun hc => ?_⟩
      rw [hdb]
      exact (Steps.refl E ∅ s).same hc
    · intro k hk
      cases hk
  · apply h.step hstep
    rintro k ⟨hash, rfl⟩
    exact congrArg (Option.map _) (hlists hash)

theorem good_product {write : ProductWrite} (h : Good E s)
    (hquiet : ∀ k ∈ write.forgets tenantId, s.cache.entry k = none) :
    (write.service tenantId).After (fun _ s' => Good E s') s := by
  cases write with
  | create data id now =>
    refine After.mono (Products.ProductService.writes_create.and
      Products.ProductService.settled_create) fun _ s' h' => ?_
    exact good_of_settled h h'.1 h'.2
  | update id categories primaryCategoryId changes now =>
    have hwrites : (ProductWrite.service tenantId (.update id categories primaryCategoryId changes
        now)).After (fun _ s' => Products.Writes tenantId s s') s :=
      Products.ProductService.writes_update h.sameTenant
    by_cases hfits : categories = [] ∨ Products.fits changes.basePrice = true
    · refine After.mono (hwrites.and (Products.ProductService.settled_update hfits))
        fun _ s' h' => ?_
      exact good_of_settled h h'.1 h'.2
    · simp only [not_or, Bool.not_eq_true] at hfits
      refine hwrites.mono fun _ s' h' => ?_
      apply h.step_uncached (steps_of_writes h')
      intro k hk
      exact hquiet k ⟨hk, hfits⟩
  | delete id =>
    refine After.mono ((Products.ProductService.writes_delete h.sameTenant).and
      Products.ProductService.settled_delete) fun _ s' h' => ?_
    exact good_of_settled h h'.1 h'.2
  | setCategories productId categoryIds primaryCategoryId =>
    refine After.mono (Products.ProductService.writes_setCategories.and
      Products.ProductService.settled_setCategories) fun _ s' h' => ?_
    exact good_of_settled h h'.1 h'.2

theorem writes_detail {write : DetailWrite} (hc : s.db.catalogue.SameTenant) :
    (write.service isNumber tenantId).After (fun _ s' => Products.Writes tenantId s s') s := by
  cases write with
  | createVariant => exact Products.VariantService.writes_create
  | updateVariant => exact Products.VariantService.writes_update hc
  | deleteVariant => exact Products.VariantService.writes_delete hc
  | setAttributes => exact Products.VariantService.writes_setAttributes
  | createProductImage => exact Products.ProductImageService.writes_createProductImage
  | createVariantImage => exact Products.ProductImageService.writes_createVariantImage
  | updateImage => exact Products.ProductImageService.writes_updateImage hc
  | deleteImage => exact Products.ProductImageService.writes_deleteImage hc

theorem good_tenant {write : TenantWrite} (h : Good E s)
    (hquiet : ∀ k ∈ write.forgets s, s.cache.entry k = none) :
    write.service.After (fun _ s' => Good E s') s := by
  cases write with
  | create =>
    exact TenantService.steps_create.mono fun _ _ hstep => h.step_uncached hstep hquiet
  | update => exact TenantService.good_update h
  | delete id =>
    exact TenantService.good_delete h fun hash => hquiet (.productList id hash) ⟨hash, rfl⟩
  | updateName =>
    exact WorkspaceService.steps_updateName.mono fun _ _ hstep => h.step_uncached hstep hquiet
  | changeSettings =>
    exact WorkspaceService.steps_changeSettings.mono fun _ _ hstep => h.step_uncached hstep hquiet
  | changeDomains =>
    exact WorkspaceService.steps_changeDomains.mono fun _ _ hstep => h.step_uncached hstep hquiet
  | platformCreate =>
    exact PlatformService.steps_createTenant.mono fun _ _ hstep => h.step_uncached hstep hquiet
  | platformUpdate =>
    exact PlatformService.steps_updateTenant.mono fun _ _ hstep => h.step_uncached hstep hquiet
  | updateTenantStatus =>
    exact PlatformService.steps_updateTenantStatus.mono
      fun _ _ hstep => h.step_uncached hstep hquiet
  | assignPlan =>
    exact PlatformService.steps_assignPlan.mono fun _ _ hstep => h.step_uncached hstep hquiet

theorem after_discard {α : Type} {p : Service α} {P : Store → Prop}
    (h : p.After (fun _ s' => P s') s) : (discard p).After (fun _ s' => P s') s := by
  apply After.bind h
  intro _ s' h'
  exact h'

/-- A request that meets no entry of those it forgets leaves all entries right. -/
theorem good_perform {r : Request} (h : Good E s) (hquiet : quiet r s)
    (hasked : ∀ tenantId options, r = .list tenantId options → E.asked tenantId options) :
    Good E (perform E.texts E.hash isNumber r s) := by
  have hafter : (r.service E.texts E.hash isNumber).After (fun _ s' => Good E s') s := by
    cases r with
    | product tenantId write => exact good_product h hquiet
    | detail tenantId write =>
      refine (writes_detail h.sameTenant).mono fun _ s' h' => ?_
      exact h.step_uncached (steps_of_writes h') hquiet
    | tenant write => exact good_tenant h hquiet
    | list tenantId options => exact after_discard (good_list h (hasked tenantId options rfl))
    | getById id => exact after_discard (good_getById h)
    | getSettings id => exact after_discard (good_getSettings h)
  exact hafter

/-! ### Every sequence -/

section Sequences

open CachedViews

variable (texts : Products.Texts) (hash : ListPayload → String) (isNumber : String → Bool)

/-- **Cached reads.** After any sequence of requests that meet no entry of those they forget, a
list is the one that the repository makes, a tenant and its settings are as they are stored.
Only the secrets of a tenant and of its settings are not in the cache, and lists that were asked
for must not meet another one under its hash. -/
theorem cached_reads_stored {requests : List Request} {db : Db} {s : Store}
    (hdb : db.catalogue.SameTenant)
    (hquiet : QuietRun (perform texts hash isNumber) quiet requests { db })
    (hs : afterAll (perform texts hash isNumber) requests { db } = s) :
    (∀ tenantId options, (∀ options', .list tenantId options' ∈ requests →
        hash options'.payload = hash options.payload → options'.payload = options.payload) →
      (Products.ProductService.list texts hash tenantId options s).1 =
        .ok (ProductRepository.list texts s.db.catalogue tenantId options)) ∧
    (∀ id, (∀ v, TenantService.findAddressable s.db id = some v → stripTenant v = v) →
      (TenantService.getById id s).1 = storedTenant s.db id) ∧
    ∀ id, (∀ v d, TenantRepository.findById s.db id = some v → v.settings = some d →
        stripDocument d = d) →
      (TenantService.getSettings id s).1 = storedSettings s.db id := by
  obtain ⟨E, hE⟩ : ∃ E : Environment,
      E = ⟨texts, hash, fun tenantId options => .list tenantId options ∈ requests⟩ := ⟨_, rfl⟩
  have hstart : Good E { db } := by
    refine ⟨fun k v hk => ?_, hdb⟩
    cases k <;> cases hk
  have hgood : Good E s := by
    rw [← hs]
    refine hquiet.induction (fun r hr s' hquiet' h' => ?_) hstart
    subst hE
    apply good_perform h' hquiet'
    rintro tenantId options rfl
    exact hr
  subst hE
  exact ⟨fun tenantId options hhash => list_answer hgood hhash,
    fun id hplain => getById_answer hgood hplain,
    fun id hplain => getSettings_answer hgood hplain⟩

/-- All cached reads answer what is stored. -/
structure ReadsStored (s : Store) : Prop where
  list : ∀ tenantId options, (Products.ProductService.list texts hash tenantId options s).1 =
    .ok (ProductRepository.list texts s.db.catalogue tenantId options)
  getById : ∀ id, (TenantService.getById id s).1 = storedTenant s.db id
  getSettings : ∀ id, (TenantService.getSettings id s).1 = storedSettings s.db id

end Sequences

namespace Sample

open CachedViews

/-- A shop with one product. -/
def shop : Db where
  tenants := (∅ : Table Uuid TenantRow).insert "t" { name := "Shop", slug := "shop" }
  catalogue :=
    { products := (∅ : Table Uuid Products.ProductRow).insert "p"
        { tenantId := "t", name := "Mug", createdAt := 0, updatedAt := 0 } }

theorem sameTenant_shop : shop.catalogue.SameTenant := by
  intro parent t h
  cases h with
  | linkProduct h => cases h
  | linkCategory h => cases h
  | variant h => cases h
  | attributeVariant h => cases h
  | attributeDefinition h => cases h
  | image h => cases h
  | imageVariant h hv => cases h

/-- Every text has what is asked for in it. -/
def texts : Products.Texts := ⟨fun _ _ => true, inferInstance⟩

def hash (payload : ListPayload) : String := payload.sku

def bySku : ListOptions := { sku := some "MUG" }

/-- A variant of the product. -/
def newVariant : Request :=
  .detail "t" (.createVariant "p" { sku := "MUG-RED", price := 1000 } "v" 0)

/-- A list after a new variant; a tenant that is renamed, read and renamed again. -/
def renamings : List Request :=
  [newVariant, .list "t" bySku, .tenant (.updateName "t" "Market"), .getById "t",
    .tenant (.update "t" { name := some "Bazaar" })]

/-- The state after a sequence of requests. -/
def after (requests : List Request) : Store :=
  afterAll (perform texts hash fun _ => true) requests { db := shop }

end Sample

open Tenants.Sample CachedViews

/-- A variant that comes before its list is asked for, and a tenant that is renamed twice. -/
theorem cached_reads_stored_renamings :
    (Products.ProductService.list texts hash "t" bySku (after renamings)).1 =
        .ok (ProductRepository.list texts (after renamings).db.catalogue "t" bySku) ∧
      (TenantService.getById "t" (after renamings)).1 = storedTenant (after renamings).db "t" ∧
      (TenantService.getSettings "t" (after renamings)).1 =
        storedSettings (after renamings).db "t" := by
  have hquiet : QuietRun (perform texts hash fun _ => true) quiet renamings { db := shop } := by
    refine ⟨?_, ?_, ?_, ?_, ?_, trivial⟩
    · rintro k ⟨h, rfl⟩
      rfl
    · intro k hk
      cases hk
    · rintro k rfl
      rfl
    · intro k hk
      cases hk
    · intro k hk
      cases hk
  obtain ⟨hlist, hgetById, hgetSettings⟩ := cached_reads_stored texts hash (fun _ => true)
    sameTenant_shop hquiet rfl
  have htenant : TenantRepository.findById (after renamings).db "t" =
      some ⟨"t", { name := "Bazaar", slug := "shop" }, none, []⟩ := by
    decide +kernel
  refine ⟨hlist "t" bySku fun options' hmem _ => ?_, hgetById "t" fun v hv => ?_,
    hgetSettings "t" fun v d hv hd => ?_⟩
  · have hoptions : options' = bySku := by simpa [renamings, newVariant] using hmem
    rw [hoptions]
  · obtain rfl := Option.some.inj (htenant.symm.trans (findAddressable_eq_some.mp hv).1)
    rfl
  · obtain rfl := Option.some.inj (htenant.symm.trans hv)
    cases hd

/-- A variant that comes after its list has been cached. -/
theorem cached_reads_stale : ¬ ∀ (texts : Products.Texts) (hash : ListPayload → String)
    (isNumber : String → Bool) (requests : List Request) (db : Db), db.catalogue.SameTenant →
      ReadsStored texts hash (afterAll (perform texts hash isNumber) requests { db }) := by
  intro h
  have hlist := (h texts hash (fun _ => true) [.list "t" bySku, newVariant] shop
    sameTenant_shop).list "t" bySku
  have hcached : ((Products.ProductService.list texts hash "t" bySku
      (after [.list "t" bySku, newVariant])).1.toOption.map (·.pageMeta.total)) = some 0 := by
    decide +kernel
  have hstored : (ProductRepository.list texts (after [.list "t" bySku, newVariant]).db.catalogue
      "t" bySku).pageMeta.total = 1 := by
    decide +kernel
  change (Products.ProductService.list texts hash "t" bySku
    (after [.list "t" bySku, newVariant])).1 = _ at hlist
  rw [hlist] at hcached
  have htotal : some 1 = some 0 := hstored ▸ hcached
  cases htotal

end PulseOps.Tenants
