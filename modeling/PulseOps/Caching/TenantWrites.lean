import PulseOps.Caching.DomainRows
import PulseOps.Caching.Statements
import PulseOps.Caching.Views
import PulseOps.Workspace.Settings

/-!
# What the writes of tenants leave in the cache

`TenantService` deletes the entries of the tenant that it has written; after the deletion of a
tenant the lists of its products stay. The other services delete nothing.

## Main definitions

* `CacheKey.owner` — the tenant of an entry.

## Main results

* `sameViews_update`, `sameViews_delete`, … — which views each statement changes.
* `good_update`, `good_delete` — `TenantService`.
* `steps_updateName`, `steps_changeDomains`, … — the other services.
-/

set_option autoImplicit false

open ReadCommitted Autocommit

namespace PulseOps.Tenants

open Accounts (TenantStatus)

variable {E : Environment} {K : Set CacheKey} {s s' : Store} {db db' : Db} {id t tenantId : Uuid}

/-- The tenant of an entry. -/
def CacheKey.owner : CacheKey → Uuid
  | .tenant id => id
  | .settings id => id
  | .productList tenantId _ => tenantId

/-! ### Statements -/

theorem findById_congr (htenant : db'.tenants.lookup t = db.tenants.lookup t)
    (hsettings : db'.settings.tenantSettings.lookup t = db.settings.tenantSettings.lookup t)
    (hdomains : Domains.rowsOf t db'.domains = Domains.rowsOf t db.domains) :
    TenantRepository.findById db' t = TenantRepository.findById db t := by
  have hrows : TenantRepository.domainRows t db'.domains =
      TenantRepository.domainRows t db.domains := congrArg AList.entries hdomains
  unfold TenantRepository.findById
  rw [htenant, hsettings, hrows]

theorem findById_insert {row : TenantRow} (ht : t ≠ id) : TenantRepository.findById
    { db with tenants := db.tenants.insert id row } t = TenantRepository.findById db t :=
  findById_congr (AList.lookup_insert_ne ht) rfl rfl

/-- A change of the row of one tenant, or of what belongs to it. -/
theorem sameViews_tenant (id : Uuid) (hc : db.catalogue.SameTenant)
    (hcatalogue : db'.catalogue = db.catalogue)
    (hothers : ∀ t, t ≠ id → TenantRepository.findById db' t = TenantRepository.findById db t)
    (hsettings : ∀ v, .settings id ∉ K → TenantRepository.findById db id = some v →
      ∃ v', TenantRepository.findById db' id = some v' ∧ v'.settings = v.settings)
    (hK : .tenant id ∈ K) : SameViews E K db db' where
  tenant t v ht hv := by
    have hne : t ≠ id := by
      rintro rfl
      exact ht hK
    rw [hothers t hne]
    exact hv
  settings t v ht hv := by
    by_cases hid : t = id
    · subst hid
      exact hsettings v ht hv
    · exact ⟨v, (hothers t hid).trans hv, rfl⟩
  list tenantId options _ := by
    rw [hcatalogue]
  sameTenant := hcatalogue ▸ hc

theorem sameViews_update {data : TenantData} (hc : db.catalogue.SameTenant)
    (h : TenantRepository.update id data db = .ok db') : SameViews E {.tenant id} db db' := by
  unfold TenantRepository.update at h
  split at h
  next => cases h
  next row hrow =>
    split_ifs at h
    obtain rfl := (Except.ok.inj h).symm
    refine sameViews_tenant id hc (by rfl) ?_ ?_ ?_
    · intro t ht
      exact findById_insert ht
    · intro v _ hv
      obtain ⟨row', -, rfl⟩ := Option.map_eq_some_iff.mp hv
      exact ⟨_, Option.map_eq_some_iff.mpr ⟨data.merge row, AList.lookup_insert _, rfl⟩, rfl⟩
    · rfl

theorem sameViews_create {name slug : String} {status : Option TenantStatus}
    {plan : Option String} (hc : db.catalogue.SameTenant)
    (h : TenantRepository.create id name slug status plan db = .ok db') :
    SameViews E ∅ db db' := by
  unfold TenantRepository.create at h
  split_ifs at h with hfree
  obtain rfl := (Except.ok.inj h).symm
  -- a tenant that is there is another one
  have hother {t : Uuid} {v : TenantView} (hv : TenantRepository.findById db t = some v) :
      t ≠ id := by
    rintro rfl
    obtain ⟨row, hrow, -⟩ := Option.map_eq_some_iff.mp hv
    rw [Option.isNone_iff_eq_none.mp hfree.1] at hrow
    cases hrow
  constructor
  · intro t v _ hv
    exact (findById_insert (hother hv)).trans hv
  · intro t v _ hv
    exact ⟨v, (findById_insert (hother hv)).trans hv, rfl⟩
  · intro tenantId options _
    rfl
  · exact hc

theorem sameViews_delete {restricted : Bool} (hc : db.catalogue.SameTenant)
    (h : TenantRepository.delete id restricted db = .ok db') :
    SameViews E {k | k.owner = id} db db' := by
  unfold TenantRepository.delete at h
  split_ifs at h
  obtain rfl := (Except.ok.inj h).symm
  have hconfined : Products.Confined id db.catalogue
      (TenantRepository.withoutTenant id db.catalogue) := Products.confined_withoutTenant
  -- the rows of the other tenants are all kept
  have hothers {t : Uuid} (ht : t ≠ id) : TenantRepository.findById
      { db with
        tenants := db.tenants.keep fun k _ => k ≠ id
        settings := { db.settings with
          tenantSettings := db.settings.tenantSettings.keep fun k _ => k ≠ id }
        domains := { db.domains with
          domains := db.domains.domains.keep fun _ row => row.tenantId ≠ id }
        catalogue := TenantRepository.withoutTenant id db.catalogue } t =
      TenantRepository.findById db t := by
    apply findById_congr
    · exact Products.lookup_part fun _ _ => decide_eq_true ht
    · exact Products.lookup_part fun _ _ => decide_eq_true ht
    · unfold Domains.rowsOf
      refine AList.keep_keep_out (q := fun _ (row : Domains.TenantDomain) => row.tenantId ≠ id)
        fun e _ he => ?_
      apply decide_eq_true
      intro hid
      exact ht ((of_decide_eq_true he).symm.trans hid)
  constructor
  · intro t v ht hv
    exact (hothers ht).trans hv
  · intro t v ht hv
    exact ⟨v, (hothers ht).trans hv, rfl⟩
  · intro tenantId options ht
    exact hconfined.list_eq hc ht
  · exact (hconfined hc).1

/-- The change of the settings of a tenant. -/
def withSettings (tenantId : Uuid) (r : Settings.SettingsRequest) (db : Db) :
    Except Failure Db :=
  match (r.program tenantId).run Settings.noAnswer db.settings with
  | .error e => .error e
  | .ok (_, es) =>
    if (db.tenants.lookup tenantId).isSome then
      .ok { db with settings := Settings.workspace.replay es db.settings }
    else .error (.database .foreignKeyViolation)

theorem sameViews_settings {r : Settings.SettingsRequest} (hc : db.catalogue.SameTenant)
    (h : withSettings tenantId r db = .ok db') :
    SameViews E {.tenant tenantId, .settings tenantId} db db' := by
  unfold withSettings at h
  split at h
  next => cases h
  next a es hrun =>
    split_ifs at h with hsome
    obtain rfl := (Except.ok.inj h).symm
    have hes := Settings.edits_of_runs (r := r) hrun
    refine sameViews_tenant tenantId hc (by rfl) ?_ ?_ ?_
    · intro t ht
      refine findById_congr (by rfl) ?_ (by rfl)
      rw [hes]
      exact AList.lookup_insert_ne ht
    · intro v hv _
      exact absurd (.inr rfl) hv
    · exact .inl rfl

/-- The change of the domains of tenants. -/
def withDomains (r : Domains.DomainRequest) (db : Db) : Except Failure Db :=
  match r.program.run Domains.noAnswer db.domains with
  | .error e => .error e
  | .ok (_, es) =>
    if (db.tenants.lookup (WorkspaceService.tenantOf r)).isSome then
      .ok { db with domains := Domains.registry.replay es db.domains }
    else .error (.database .foreignKeyViolation)

theorem sameViews_domains {r : Domains.DomainRequest} (hc : db.catalogue.SameTenant)
    (h : withDomains r db = .ok db') :
    SameViews E {k | ∃ t ∈ r.claimants db.domains, k = .tenant t} db db' := by
  unfold withDomains at h
  split at h
  next => cases h
  next a es hrun =>
    split_ifs at h with hsome
    obtain rfl := (Except.ok.inj h).symm
    constructor
    · intro t v ht hv
      have hout : t ∉ r.claimants db.domains := fun hmem => ht ⟨t, hmem, rfl⟩
      have hrows := Domains.leaves_rowsOf r hout a es hrun
      exact (findById_congr (by rfl) (by rfl) hrows).trans hv
    · intro t v _ hv
      obtain ⟨row, hrow, rfl⟩ := Option.map_eq_some_iff.mp hv
      exact ⟨_, Option.map_eq_some_iff.mpr ⟨row, hrow, rfl⟩, rfl⟩
    · intro tenantId options _
      rfl
    · exact hc

/-! ### Requests -/

/-- A writing statement changes the database or answers an error. -/
theorem after_inDb {f : Db → Except Failure Db} {Q : Except Failure Unit → Store → Prop} :
    (inDb f).After Q s ↔ (∀ db', f s.db = .ok db' → Q (.ok ()) { s with db := db' }) ∧
      ∀ e, f s.db = .error e → Q (.error e) s := by
  unfold inDb
  rw [after_write]
  cases f s.db <;> simp [Except.map]

theorem after_inDb_bind {f : Db → Except Failure Db} {k : Unit → Service Unit}
    {Q : Except Failure Unit → Store → Prop} :
    (inDb f >>= k).After Q s ↔
      (∀ db', f s.db = .ok db' → (k ()).After Q { s with db := db' }) ∧
      ∀ e, f s.db = .error e → Q (.error e) s := by
  rw [after_bind, after_inDb]

theorem Steps.refl (E : Environment) (K : Set CacheKey) (s : Store) : Steps E K s s where
  kept _ _ h := h
  same hc :=
    { tenant := fun _ _ _ h => h
      settings := fun _ v _ h => ⟨v, h, rfl⟩
      list := fun _ _ _ => rfl
      sameTenant := hc }

/-- The last statement of a request that deletes nothing in the cache. -/
theorem steps_inDb {f : Db → Except Failure Db}
    (h : ∀ db', s.db.catalogue.SameTenant → f s.db = .ok db' → SameViews E K s.db db') :
    (inDb f).After (fun _ s' => Steps E K s s') s := by
  rw [after_inDb]
  constructor
  · intro db' hdb'
    exact ⟨fun _ _ h => h, fun hc => h db' hc hdb'⟩
  · intro e _
    exact Steps.refl E K s

theorem entry_delTenant {k : CacheKey} {v : Entry}
    (h : (CacheService.delTenant id s).cache.entry k = some v) :
    s.cache.entry k = some v ∧ k ≠ .tenant id ∧ k ≠ .settings id := by
  cases k with
  | tenant id' =>
    obtain ⟨v', hv', rfl⟩ := Option.map_eq_some_iff.mp h
    obtain ⟨hne, hold⟩ := AList.lookup_erase_eq_some.mp hv'
    exact ⟨Option.map_eq_some_iff.mpr ⟨v', hold, rfl⟩, by simpa using hne, by simp⟩
  | settings id' =>
    obtain ⟨d, hd, rfl⟩ := Option.map_eq_some_iff.mp h
    obtain ⟨hne, hold⟩ := AList.lookup_erase_eq_some.mp hd
    exact ⟨Option.map_eq_some_iff.mpr ⟨d, hold, rfl⟩, by simp, by simpa using hne⟩
  | productList tenantId hash => exact ⟨h, by simp, by simp⟩

/-- A statement, and the deletion of the entries of the tenant. -/
theorem good_delTenant (h : Good E s) (hviews : SameViews E K s.db db')
    (hK : ∀ k ∈ K, k = .tenant id ∨ k = .settings id ∨ s.cache.entry k = none) :
    Good E (CacheService.delTenant id { s with db := db' }) := by
  have hstep : Steps E K s (CacheService.delTenant id { s with db := db' }) :=
    ⟨fun k v hk => (entry_delTenant hk).1, fun _ => hviews⟩
  apply h.step hstep
  intro k hk
  by_contra hsome
  obtain ⟨v, hv⟩ := Option.ne_none_iff_exists'.mp hsome
  obtain ⟨hold, htenant, hsettings⟩ := entry_delTenant hv
  rcases hK k hk with rfl | rfl | hnone
  · exact htenant rfl
  · exact hsettings rfl
  · cases hnone.symm.trans hold

namespace TenantService

theorem steps_create {name slug : String} {status : Option TenantStatus}
    {plan : Option String} :
    (create id name slug status plan).After (fun _ s' => Steps E ∅ s s') s := by
  have hstart := Steps.refl E ∅ s
  unfold create assertAssignablePlan
  apply After.check (fun _ => ?_) fun _ => hstart
  rw [after_find_bind]
  apply After.demand (fun _ => ?_) fun _ => hstart
  exact steps_inDb fun db' hc h => sameViews_create hc h

theorem good_update {data : TenantData} (h : Good E s) :
    (update id data).After (fun _ s' => Good E s') s := by
  unfold update assertAssignablePlan
  apply After.check (fun _ => ?_) fun _ => h
  apply After.bind (good_getById h)
  intro _ s₁ h₁
  rw [after_find_bind]
  apply After.demand (fun _ => ?_) fun _ => h₁
  rw [after_inDb_bind]
  constructor
  · intro db' hdb'
    exact good_delTenant h₁ (sameViews_update h₁.sameTenant hdb') fun k hk => .inl hk
  · intro e _
    exact h₁

/-- What `getById` leaves of the lists. -/
theorem lists_getById {P : Cache → Prop} (h : P s.cache)
    (hkeeps : ∀ v s, P s.cache → P (CacheService.setTenant id v s).cache) :
    (getById id).After (fun _ s' => P s'.cache) s := by
  unfold getById
  rw [after_find_bind]
  split
  next => exact h
  next =>
    rw [after_find_bind]
    apply After.orFail (fun v _ => ?_) fun _ => h
    exact hkeeps v s h

theorem good_delete {restricted : Bool} (h : Good E s)
    (hlists : ∀ hash, s.cache.entry (.productList id hash) = none) :
    (delete id restricted).After (fun _ s' => Good E s') s := by
  unfold delete
  have hgood : (getById id).After (fun _ s' => Good E s') s := good_getById h
  have hfirst := hgood.and (lists_getById
    (P := fun c => ∀ hash, c.entry (.productList id hash) = none) hlists fun _ _ h => h)
  rw [after_bind]
  apply hfirst.mono
  rintro r s₁ ⟨h₁, hlists₁⟩
  cases r with
  | error e => exact h₁
  | ok v =>
    rw [after_inDb_bind]
    constructor
    · intro db' hdb'
      apply good_delTenant h₁ (sameViews_delete h₁.sameTenant hdb')
      -- the entries of the tenant are deleted, and none of its lists is in the cache
      rintro k hk
      cases k with
      | tenant t =>
        obtain rfl : t = id := hk
        exact .inl rfl
      | settings t =>
        obtain rfl : t = id := hk
        exact .inr (.inl rfl)
      | productList t hash =>
        obtain rfl : t = id := hk
        exact .inr (.inr (hlists₁ hash))
    · intro e _
      exact h₁

end TenantService

namespace WorkspaceService

theorem steps_updateName {name : String} :
    (updateName tenantId name).After (fun _ s' => Steps E {.tenant tenantId} s s') s := by
  unfold updateName
  rw [after_find_bind]
  apply After.orFail (fun _ _ => ?_) fun _ => Steps.refl E _ s
  exact steps_inDb fun db' hc h => sameViews_update hc h

theorem steps_changeSettings {r : Settings.SettingsRequest} :
    (changeSettings tenantId r).After
      (fun _ s' => Steps E {.tenant tenantId, .settings tenantId} s s') s :=
  steps_inDb fun _ hc h => sameViews_settings hc h

theorem steps_changeDomains {r : Domains.DomainRequest} :
    (changeDomains r).After
      (fun _ s' => Steps E {k | ∃ t ∈ r.claimants s.db.domains, k = .tenant t} s s') s :=
  steps_inDb fun _ hc h => sameViews_domains hc h

end WorkspaceService

namespace PlatformService

/-- A request that starts with `getTenantById`. -/
theorem after_getTenantById {f : TenantView → Service Unit}
    {Q : Except Failure Unit → Store → Prop} (hf : ∀ v, (f v).After Q s)
    (herror : ∀ e, Q (.error e) s) : (getTenantById id >>= f).After Q s := by
  have hfirst : (getTenantById id).After (fun _ s' => s' = s) s := by
    unfold getTenantById
    apply After.demand (fun _ => ?_) fun _ => rfl
    rw [after_find_bind]
    apply After.orFail (fun v _ => ?_) fun _ => rfl
    apply After.demand (fun _ => ?_) fun _ => rfl
    rfl
  rw [after_bind]
  apply hfirst.mono
  rintro r s' rfl
  cases r with
  | ok v => exact hf v
  | error e => exact herror e

theorem steps_createTenant {name slug : String} {status : Option TenantStatus}
    {plan : Option String} {emailTaken : Bool} :
    (createTenant id name slug status plan emailTaken).After (fun _ s' => Steps E ∅ s s') s := by
  have hstart := Steps.refl E ∅ s
  unfold createTenant assertAssignablePlan
  apply After.check (fun _ => ?_) fun _ => hstart
  apply After.demand (fun _ => ?_) fun _ => hstart
  rw [after_find_bind]
  apply After.demand (fun _ => ?_) fun _ => hstart
  apply After.demand (fun _ => ?_) fun _ => hstart
  exact steps_inDb fun db' hc h => sameViews_create hc h

theorem steps_updateTenant {data : TenantData} :
    (updateTenant id data).After (fun _ s' => Steps E {.tenant id} s s') s := by
  have hstart := Steps.refl E {.tenant id} s
  unfold updateTenant assertAssignablePlan
  apply after_getTenantById (fun v => ?_) fun _ => hstart
  apply After.check (fun _ => ?_) fun _ => hstart
  apply After.demand (fun _ => ?_) fun _ => hstart
  rw [after_find_bind]
  apply After.demand (fun _ => ?_) fun _ => hstart
  exact steps_inDb fun db' hc h => sameViews_update hc h

theorem steps_updateTenantStatus {status : TenantStatus} :
    (updateTenantStatus id status).After (fun _ s' => Steps E {.tenant id} s s') s := by
  unfold updateTenantStatus
  apply after_getTenantById (fun v => ?_) fun _ => Steps.refl E _ s
  exact steps_inDb fun db' hc h => sameViews_update hc h

theorem steps_assignPlan {plan : String} :
    (assignPlan id plan).After (fun _ s' => Steps E {.tenant id} s s') s := by
  have hstart := Steps.refl E {.tenant id} s
  unfold assignPlan assertAssignablePlan
  rw [after_find_bind]
  apply After.orFail (fun _ _ => ?_) fun _ => hstart
  apply After.check (fun _ => ?_) fun _ => hstart
  exact steps_inDb fun db' hc h => sameViews_update hc h

end PlatformService

end PulseOps.Tenants
