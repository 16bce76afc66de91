import PulseOps.Caching.TenantRows
import PulseOps.ReadCommitted.CacheAside

/-!
# What the cache should hold

An entry of a tenant should be the tenant as it is stored, without its secrets, and likewise
the entry of its settings. An entry of a list should be the list of the products for options
that have been asked for. A read answers an entry, or stores one that is right.

## Main definitions

* `CacheKey`, `Entry` — the keys of the cache and what it holds.
* `views` — the cache, and what its entries should be.
* `Good` — all entries are right.
* `SameViews`, `Steps` — a change of the database that leaves some entries as they should be.

## Main results

* `Good.step` — a change that leaves no entry stale.
* `good_getById`, `good_getSettings`, `good_list` — reads keep the entries right.
* `getById_answer`, `getSettings_answer`, `list_answer` — what reads answer then.
-/

set_option autoImplicit false

open ReadCommitted Autocommit

namespace PulseOps.Tenants

open Products (ListOptions ListPayload ProductPage ProductRepository.list)
open TenantService

/-- The keys of the cache. -/
inductive CacheKey where
  | tenant (id : Uuid)
  | settings (id : Uuid)
  | productList (tenantId : Uuid) (hash : String)
  deriving DecidableEq

inductive Entry where
  | tenant (v : TenantView)
  | settings (d : Settings.Document)
  | productList (page : ProductPage)

def Cache.entry (c : Cache) : CacheKey → Option Entry
  | .tenant id => (c.tenants.lookup id).map .tenant
  | .settings id => (c.settings.lookup id).map .settings
  | .productList tenantId hash => (c.productLists.lookup (tenantId, hash)).map .productList

/-- What PostgreSQL does with texts, the hash in the keys of lists, and the options that lists
have been asked for with. -/
structure Environment where
  texts : Products.Texts
  hash : ListPayload → String
  asked : Uuid → ListOptions → Prop

/-- The value that an entry should have. -/
inductive Right (E : Environment) (s : Store) : CacheKey → Entry → Prop
  | tenant {id : Uuid} {v : TenantView} (h : findAddressable s.db id = some v) :
      Right E s (.tenant id) (.tenant (stripTenant v))
  | settings {id : Uuid} {v : TenantView} {d : Settings.Document}
      (h : TenantRepository.findById s.db id = some v) (hd : v.settings = some d) :
      Right E s (.settings id) (.settings (stripDocument d))
  | productList {tenantId : Uuid} {options : ListOptions} (h : E.asked tenantId options) :
      Right E s (.productList tenantId (E.hash options.payload))
        (.productList (ProductRepository.list E.texts s.db.catalogue tenantId options))

/-- The cache, and what its entries should be. -/
def views (E : Environment) : CachedViews Store CacheKey Entry where
  cached s := s.cache.entry
  right := Right E

variable {E : Environment} {K : Set CacheKey} {s s' : Store} {db db' : Db} {id t tenantId : Uuid}
  {options : ListOptions}

/-- All entries are right, and the rows of the catalogue point at rows of the same tenant. -/
structure Good (E : Environment) (s : Store) : Prop where
  current : (views E).Current s
  sameTenant : s.db.catalogue.SameTenant

/-- Tenants, settings and lists that are stored as they were. -/
structure SameViews (E : Environment) (K : Set CacheKey) (db db' : Db) : Prop where
  tenant : ∀ id v, .tenant id ∉ K → TenantRepository.findById db id = some v →
    TenantRepository.findById db' id = some v
  settings : ∀ id v, .settings id ∉ K → TenantRepository.findById db id = some v →
    ∃ v', TenantRepository.findById db' id = some v' ∧ v'.settings = v.settings
  list : ∀ tenantId options, .productList tenantId (E.hash options.payload) ∉ K →
    ProductRepository.list E.texts db'.catalogue tenantId options =
      ProductRepository.list E.texts db.catalogue tenantId options
  sameTenant : db'.catalogue.SameTenant

/-- A step that writes no entry, and that leaves what the entries should be as it is, but for
those of the keys in `K`. -/
structure Steps (E : Environment) (K : Set CacheKey) (s s' : Store) : Prop where
  kept : ∀ k v, s'.cache.entry k = some v → s.cache.entry k = some v
  same : s.db.catalogue.SameTenant → SameViews E K s.db s'.db

theorem findAddressable_eq_some {v : TenantView} : findAddressable db id = some v ↔
    TenantRepository.findById db id = some v ∧ v.tenant.slug ≠ Accounts.platformTenantSlug := by
  unfold findAddressable
  rw [Option.filter_eq_some_iff, decide_eq_true_eq]

theorem Steps.forgets (h : Steps E K s s') (hc : s.db.catalogue.SameTenant) :
    (views E).Forgets K s s' where
  kept := h.kept
  right k hk v hv := by
    have hsame := h.same hc
    cases hv with
    | tenant hfound =>
      obtain ⟨hfound, hslug⟩ := findAddressable_eq_some.mp hfound
      exact .tenant (findAddressable_eq_some.mpr ⟨hsame.tenant _ _ hk hfound, hslug⟩)
    | settings hfound hd =>
      obtain ⟨v', hfound', hsettings⟩ := hsame.settings _ _ hk hfound
      exact .settings hfound' (hsettings.trans hd)
    | productList hasked =>
      rw [← hsame.list _ _ hk]
      exact .productList hasked

/-- A change that leaves no entry stale. -/
theorem Good.step (h : Good E s) (hstep : Steps E K s s')
    (hK : ∀ k ∈ K, s'.cache.entry k = none) : Good E s' where
  current := h.current.step (hstep.forgets h.sameTenant) hK
  sameTenant := (hstep.same h.sameTenant).sameTenant

/-- The entries that a change may make stale were not there. -/
theorem Good.step_uncached (h : Good E s) (hstep : Steps E K s s')
    (hK : ∀ k ∈ K, s.cache.entry k = none) : Good E s' :=
  h.step hstep fun k hk => (hstep.forgets h.sameTenant).not_cached (hK k hk)

/-! ### Reads -/

/-- A new entry that is right. -/
theorem Good.insert {k : CacheKey} {v : Entry} (h : Good E s) (hdb : s'.db = s.db)
    (hentries : ∀ k' v', s'.cache.entry k' = some v' →
      s.cache.entry k' = some v' ∨ (k' = k ∧ v' = v)) (hv : Right E s k v) : Good E s' := by
  have hright {k' : CacheKey} {v' : Entry} (h : Right E s k' v') : Right E s' k' v' := by
    cases h with
    | tenant hfound => exact .tenant (hdb.symm ▸ hfound)
    | settings hfound hd => exact .settings (hdb.symm ▸ hfound) hd
    | productList hasked =>
      rw [← hdb]
      exact .productList hasked
  refine ⟨fun k' v' hk' => ?_, hdb.symm ▸ h.sameTenant⟩
  rcases hentries k' v' hk' with hold | ⟨rfl, rfl⟩
  · exact hright (h.current k' v' hold)
  · exact hright hv

theorem good_setSettings {v : TenantView} {d : Settings.Document} (h : Good E s)
    (hfound : TenantRepository.findById s.db id = some v) (hd : v.settings = some d) :
    Good E (CacheService.setSettings id d s) := by
  refine h.insert (k := .settings id) (v := .settings (stripDocument d)) (by rfl) ?_ ?_
  · intro k' v' hk'
    cases k' with
    | settings id' =>
      obtain ⟨d', hd', rfl⟩ := Option.map_eq_some_iff.mp hk'
      rcases AList.lookup_insert_eq_some.mp hd' with ⟨rfl, rfl⟩ | ⟨-, hold⟩
      · exact .inr ⟨rfl, rfl⟩
      · exact .inl (Option.map_eq_some_iff.mpr ⟨d', hold, rfl⟩)
    | tenant id' => exact .inl hk'
    | productList t hash => exact .inl hk'
  · exact .settings hfound hd

theorem good_setTenant {v : TenantView} (h : Good E s)
    (hfound : findAddressable s.db id = some v) : Good E (CacheService.setTenant id v s) := by
  have hstored : TenantRepository.findById s.db id = some v :=
    (findAddressable_eq_some.mp hfound).1
  -- the entry of the tenant is written first, then that of its settings
  have htenant : Good E { s with
      cache := { s.cache with tenants := s.cache.tenants.insert id (stripTenant v) } } := by
    refine h.insert (k := .tenant id) (v := .tenant (stripTenant v)) (by rfl) ?_ ?_
    · intro k' v' hk'
      cases k' with
      | tenant id' =>
        obtain ⟨v₀, hv₀, rfl⟩ := Option.map_eq_some_iff.mp hk'
        rcases AList.lookup_insert_eq_some.mp hv₀ with ⟨rfl, rfl⟩ | ⟨-, hold⟩
        · exact .inr ⟨rfl, rfl⟩
        · exact .inl (Option.map_eq_some_iff.mpr ⟨v₀, hold, rfl⟩)
      | settings id' => exact .inl hk'
      | productList t hash => exact .inl hk'
    · exact .tenant hfound
  cases hsettings : v.settings with
  | none =>
    unfold CacheService.setTenant
    rw [hsettings]
    exact htenant
  | some d =>
    have hboth := good_setSettings htenant hstored hsettings
    unfold CacheService.setTenant
    rw [hsettings]
    exact hboth

theorem good_getById (h : Good E s) : (getById id).After (fun _ s' => Good E s') s := by
  unfold getById
  rw [after_find_bind]
  split
  next => exact h
  next =>
    rw [after_find_bind]
    apply After.orFail (fun v hv => ?_) fun _ => h
    exact good_setTenant h hv

theorem good_getSettings (h : Good E s) :
    (TenantService.getSettings tenantId).After (fun _ s' => Good E s') s := by
  unfold TenantService.getSettings
  rw [after_find_bind]
  split
  next => exact h
  next =>
    rw [after_find_bind]
    apply After.orFail (fun v hv => ?_) fun _ => h
    rw [after_bind, after_forSome]
    exact ⟨fun d hd => good_setSettings h hv hd, fun _ => h⟩

theorem good_list (h : Good E s) (hasked : E.asked tenantId options) :
    (Products.ProductService.list E.texts E.hash tenantId options).After
      (fun _ s' => Good E s') s := by
  unfold Products.ProductService.list
  dsimp only
  rw [after_find_bind]
  split
  next => exact h
  next =>
    rw [after_find_bind]
    refine h.insert (k := .productList tenantId (E.hash options.payload)) (by rfl) ?_
      (.productList hasked)
    intro k' v' hk'
    cases k' with
    | productList t hash =>
      obtain ⟨page, hpage, rfl⟩ := Option.map_eq_some_iff.mp hk'
      rcases AList.lookup_insert_eq_some.mp hpage with ⟨heq, rfl⟩ | ⟨-, hold⟩
      · obtain ⟨rfl, rfl⟩ := Prod.mk.inj heq
        exact .inr ⟨rfl, rfl⟩
      · exact .inl (Option.map_eq_some_iff.mpr ⟨page, hold, rfl⟩)
    | tenant id' => exact .inl hk'
    | settings id' => exact .inl hk'

/-! ### What reads answer -/

/-- The tenant as it is stored. -/
def storedTenant (db : Db) (id : Uuid) : Except Failure TenantView :=
  match findAddressable db id with
  | some v => .ok v
  | none => .error (.app tenantNotFound)

/-- The settings as they are stored. -/
def storedSettings (db : Db) (id : Uuid) : Except Failure (Option Settings.Document) :=
  match TenantRepository.findById db id with
  | some v => .ok v.settings
  | none => .error (.app tenantNotFound)

theorem getById_answer (h : Good E s)
    (hplain : ∀ v, findAddressable s.db id = some v → stripTenant v = v) :
    (getById id s).1 = storedTenant s.db id := by
  have hanswer : (getById id).After (fun r _ => r = storedTenant s.db id) s := by
    unfold getById
    rw [after_find_bind]
    split
    next v hv =>
      have hright := h.current (.tenant id) (.tenant v) (Option.map_eq_some_iff.mpr ⟨v, hv, rfl⟩)
      cases hright with
      | tenant hfound =>
        unfold storedTenant
        rw [hfound]
        exact congrArg Except.ok (hplain _ hfound)
    next =>
      unfold storedTenant
      rw [after_find_bind, after_orFail_bind]
      constructor
      · intro v hv
        rw [hv]
        rfl
      · intro hnone
        rw [hnone]
  exact hanswer

theorem getSettings_answer (h : Good E s) (hplain : ∀ v d,
      TenantRepository.findById s.db id = some v → v.settings = some d → stripDocument d = d) :
    (TenantService.getSettings id s).1 = storedSettings s.db id := by
  have hanswer : (TenantService.getSettings id).After
      (fun r _ => r = storedSettings s.db id) s := by
    unfold TenantService.getSettings
    rw [after_find_bind]
    split
    next d hd =>
      have hright := h.current (.settings id) (.settings d)
        (Option.map_eq_some_iff.mpr ⟨d, hd, rfl⟩)
      cases hright with
      | settings hfound hsettings =>
        unfold storedSettings
        rw [hfound]
        dsimp only
        rw [hsettings, hplain _ _ hfound hsettings]
        rfl
    next =>
      unfold storedSettings
      rw [after_find_bind, after_orFail_bind]
      constructor
      · intro v hv
        rw [hv, after_bind, after_forSome]
        exact ⟨fun d hd => rfl, fun _ => rfl⟩
      · intro hnone
        rw [hnone]
  exact hanswer

theorem list_answer (h : Good E s) (hhash : ∀ options', E.asked tenantId options' →
      E.hash options'.payload = E.hash options.payload → options'.payload = options.payload) :
    (Products.ProductService.list E.texts E.hash tenantId options s).1 =
      .ok (ProductRepository.list E.texts s.db.catalogue tenantId options) := by
  have hanswer : (Products.ProductService.list E.texts E.hash tenantId options).After (fun r _ =>
      r = .ok (ProductRepository.list E.texts s.db.catalogue tenantId options)) s := by
    unfold Products.ProductService.list
    dsimp only
    rw [after_find_bind]
    split
    next page hpage =>
      have hright := h.current (.productList tenantId (E.hash options.payload)) (.productList page)
        (Option.map_eq_some_iff.mpr ⟨page, hpage, rfl⟩)
      generalize hkey : CacheKey.productList tenantId (E.hash options.payload) = key at hright
      generalize hentry : Entry.productList page = entry at hright
      cases hright with
      | tenant hfound => cases hkey
      | settings hfound hd => cases hkey
      | @productList t options' hasked =>
        obtain ⟨rfl, hsame⟩ := CacheKey.productList.inj hkey
        obtain rfl := Entry.productList.inj hentry
        exact congrArg Except.ok (Products.list_eq_of_payload (hhash _ hasked hsame.symm))
    next => rfl
  exact hanswer

end PulseOps.Tenants
