import PulseOps.Model.Customers

/-!
# The default addresses of a customer

A customer who has addresses of a type has exactly one default address of that type. The
index over the default addresses refuses a second one after every statement, and
`ensureDefault` names one at the end of every request that may have taken it away.

`updateAddress` moves a default address to another type with its flag when the request does
not say whether it is the default. If the customer has a default of the other type, the
index refuses the statement, and the request fails.

## Main definitions

* `Db.WellKept` — the addresses are those of customers of their shop, and all are settled.
* `CustomerRequest.movesDefault` — a default address is to move to a type that has one.

## Main results

* `leaves_program` — every request keeps the addresses in order.
* `customerAddresses_settled` — which requests for an address that is there succeed.
-/

set_option autoImplicit false

open ReadCommitted Program

namespace PulseOps.Customers

open CustomerRepository

/-- Every address belongs to a customer of its shop. -/
def Db.Owned (s : Db) : Prop :=
  ∀ id row, s.addresses.lookup id = some row →
    ∃ customer, s.customers.lookup row.customerId = some customer ∧
      customer.tenantId = row.tenantId

/-- All addresses belong to customers of their shop, and are settled but for the groups `G`. -/
structure Db.KeptBut (s : Db) (G : Set (Uuid × AddressType)) : Prop where
  owned : s.Owned
  settled : defaultAddress.SettledBut s.addresses G

/-- The addresses are in order. -/
abbrev Db.WellKept (s : Db) : Prop := s.KeptBut ∅

variable {s : Db} {G : Set (Uuid × AddressType)} {id customerId tenantId addressId : Uuid}
  {type : AddressType} {row : AddressRow}

theorem Db.KeptBut.mono {G' : Set (Uuid × AddressType)} (h : s.KeptBut G) (hG : G ⊆ G') :
    s.KeptBut G' where
  owned := h.owned
  settled := h.settled.mono hG

/-- A customer of the shop. -/
def Db.IsCustomer (s : Db) (customerId tenantId : Uuid) : Prop :=
  ∃ customer, s.customers.lookup customerId = some customer ∧ customer.tenantId = tenantId

theorem isCustomer_of_active {customer : CustomerRow}
    (h : active id tenantId s = some customer) : s.IsCustomer id tenantId := by
  rw [active, Option.filter_eq_some_iff, decide_eq_true_eq] at h
  exact ⟨customer, h.1, h.2.1⟩

theorem isCustomer_of_findById {view : CustomerView}
    (h : findById id tenantId s = some view) : s.IsCustomer id tenantId := by
  obtain ⟨customer, hcustomer, -⟩ := Option.map_eq_some_iff.mp h
  exact isCustomer_of_active hcustomer

/-- The addresses of a customer are those of one shop. -/
theorem Db.Owned.tenant_eq (h : s.Owned) (hc : s.IsCustomer customerId tenantId)
    (hrow : s.addresses.lookup id = some row) (hid : row.customerId = customerId) :
    row.tenantId = tenantId := by
  obtain ⟨customer, hcustomer, htenant⟩ := hc
  obtain ⟨customer', hcustomer', htenant'⟩ := h id row hrow
  rw [hid, hcustomer] at hcustomer'
  obtain rfl := Option.some.inj hcustomer'
  exact htenant'.symm.trans htenant

theorem Db.Owned.ofType_iff (h : s.Owned) (hc : s.IsCustomer customerId tenantId)
    (hrow : s.addresses.lookup id = some row) :
    ofType customerId tenantId type row = true ↔
      defaultAddress.group row = (customerId, type) := by
  unfold ofType
  rw [decide_eq_true_eq, defaultAddress, Prod.mk.injEq]
  exact ⟨And.right, fun hgroup => ⟨h.tenant_eq hc hrow hgroup.1, hgroup⟩⟩

/-! ### What the repository reads -/

theorem holder_of_findDefaultAddress (h : s.Owned) (hc : s.IsCustomer customerId tenantId)
    (hfound : findDefaultAddress customerId tenantId type s = some id) :
    defaultAddress.Holder s.addresses (customerId, type) id := by
  obtain ⟨x, hx, rfl⟩ := Option.map_eq_some_iff.mp hfound
  have hsel := List.find?_some hx
  rw [decide_eq_true_eq] at hsel
  have hrow := AList.mem_entries_iff_lookup.mp (List.mem_of_find?_eq_some hx)
  exact ⟨x.2, hrow, (h.ofType_iff hc hrow).mp hsel.1, hsel.2⟩

theorem not_holder_of_findDefaultAddress (h : s.Owned) (hc : s.IsCustomer customerId tenantId)
    (hnone : findDefaultAddress customerId tenantId type s = none) (id : Uuid) :
    ¬ defaultAddress.Holder s.addresses (customerId, type) id := by
  rintro ⟨row, hrow, hgroup, hflag⟩
  rw [findDefaultAddress, Option.map_eq_none_iff, List.find?_eq_none] at hnone
  have hnot := hnone _ (AList.mem_entries_iff_lookup.mpr hrow)
  rw [decide_eq_true_eq] at hnot
  exact hnot ⟨(h.ofType_iff hc hrow).mpr hgroup, hflag⟩

theorem member_of_oldest (h : s.Owned) (hc : s.IsCustomer customerId tenantId)
    (hfound : oldest customerId tenantId type s = some id) :
    defaultAddress.Member s.addresses (customerId, type) id := by
  obtain ⟨x, hx, rfl⟩ := Option.map_eq_some_iff.mp hfound
  obtain ⟨hmem, hsel⟩ := List.mem_filter.mp (List.argmin_mem hx)
  have hrow := AList.mem_entries_iff_lookup.mp hmem
  exact ⟨x.2, hrow, (h.ofType_iff hc hrow).mp hsel⟩

theorem not_member_of_oldest (h : s.Owned) (hc : s.IsCustomer customerId tenantId)
    (hnone : oldest customerId tenantId type s = none) (id : Uuid) :
    ¬ defaultAddress.Member s.addresses (customerId, type) id := by
  rintro ⟨row, hrow, hgroup⟩
  rw [oldest, Option.map_eq_none_iff, List.argmin_eq_none, List.filter_eq_nil_iff] at hnone
  exact hnone _ (AList.mem_entries_iff_lookup.mpr hrow) ((h.ofType_iff hc hrow).mpr hgroup)

/-! ### What the repository writes -/

theorem owned_insert (h : s.Owned) (hc : s.IsCustomer row.customerId row.tenantId) :
    Db.Owned { s with addresses := s.addresses.insert id row } := by
  intro id' row' hrow'
  rcases AList.lookup_insert_eq_some.mp hrow' with ⟨-, rfl⟩ | ⟨-, hold⟩
  · exact hc
  · exact h id' row' hold

/-- `ensureDefault` succeeds and settles its group. -/
theorem succeeds_ensureDefault (h : s.KeptBut (insert (customerId, type) G))
    (hc : s.IsCustomer customerId tenantId) :
    (ensureDefault customerId tenantId type).Succeeds noAnswer
      (fun _ s' => s'.KeptBut G ∧ s'.customers = s.customers) s := by
  unfold ensureDefault
  rw [succeeds_query_bind]
  cases hcurrent : findDefaultAddress customerId tenantId type s with
  | some id =>
    have hholder := holder_of_findDefaultAddress h.owned hc hcurrent
    exact ⟨⟨h.owned, h.settled.found hholder⟩, rfl⟩
  | none =>
    have hnone := not_holder_of_findDefaultAddress h.owned hc hcurrent
    change (query _ >>= _ : Sql Unit).Succeeds _ _ _
    rw [succeeds_query_bind]
    cases holdest : oldest customerId tenantId type s with
    | none =>
      have hempty := not_member_of_oldest h.owned hc holdest
      exact ⟨⟨h.owned, h.settled.empty hempty⟩, rfl⟩
    | some id =>
      obtain ⟨row, hrow, hgroup⟩ := member_of_oldest h.owned hc holdest
      -- the oldest address becomes the default, and the index admits it
      obtain ⟨hadmits, hsettled⟩ :=
        h.settled.designate (r := { row with isDefault := true }) hnone hrow hgroup hgroup rfl
      refine succeeds_perform.mpr
        ⟨_, Statement.updateAddress_eq_ok.mpr ⟨row, hrow, hadmits, rfl⟩, ?_⟩
      exact ⟨⟨owned_insert h.owned (h.owned id row hrow), hsettled⟩, rfl⟩

/-- `clearDefault` leaves its group without a default address. -/
theorem clearDefault_keptBut (type : AddressType) (h : s.KeptBut G)
    (hc : s.IsCustomer customerId tenantId) :
    let s' := s.apply (.addressesUnset (defaults customerId tenantId type s))
    s'.KeptBut (insert (customerId, type) G) ∧
      ∀ id, ¬ defaultAddress.Holder s'.addresses (customerId, type) id := by
  -- what is selected are the default addresses of the group, since the owner is the customer
  have hmem (id : Uuid) (row : AddressRow) (hrow : s.addresses.lookup id = some row) :
      id ∈ defaults customerId tenantId type s ↔
        defaultAddress.group row = (customerId, type) ∧ row.isDefault = true := by
    unfold defaults
    rw [List.mem_map]
    constructor
    · rintro ⟨x, hx, rfl⟩
      obtain ⟨hx, hsel⟩ := List.mem_filter.mp hx
      have hrow' := AList.mem_entries_iff_lookup.mp hx
      obtain rfl := Option.some.inj (hrow'.symm.trans hrow)
      have hsel := of_decide_eq_true hsel
      exact ⟨(h.owned.ofType_iff hc hrow).mp hsel.1, hsel.2⟩
    · rintro ⟨hgroup, hflag⟩
      refine ⟨⟨id, row⟩, List.mem_filter.mpr ⟨AList.mem_entries_iff_lookup.mpr hrow, ?_⟩, rfl⟩
      exact decide_eq_true ⟨(h.owned.ofType_iff hc hrow).mpr hgroup, hflag⟩
  refine ⟨⟨fun id row' hrow' => ?_, ?_⟩, ?_⟩
  · simp only [Db.apply, AList.lookup_mapRows, Option.map_eq_some_iff] at hrow'
    obtain ⟨row, hrow, rfl⟩ := hrow'
    exact h.owned id row hrow
  · simp only [Db.apply]
    apply (h.settled.mono (Set.subset_insert _ _)).mapRows
    · intro id row
      rfl
    · intro id row hflag
      simp only [defaultAddress] at hflag ⊢
      split_ifs at hflag
      exact hflag
    · intro id row hrow hgroup
      simp only [defaultAddress]
      refine if_neg fun hid => hgroup (.inl ?_)
      exact ((hmem id row hrow).mp hid).1
  · rintro id ⟨row', hrow', hgroup, hflag⟩
    simp only [Db.apply, AList.lookup_mapRows, Option.map_eq_some_iff] at hrow'
    obtain ⟨row, hrow, rfl⟩ := hrow'
    simp only [defaultAddress] at hflag
    split_ifs at hflag with hid
    exact hid ((hmem id row hrow).mpr ⟨hgroup, hflag⟩)

/-! ### Every request -/

/-- The addresses are in order, and the shop still has the customer. -/
def Db.InOrder (customerId tenantId : Uuid) (G : Set (Uuid × AddressType)) (s : Db) : Prop :=
  s.KeptBut G ∧ s.IsCustomer customerId tenantId

theorem succeeds_clearDefault (h : s.InOrder customerId tenantId G) :
    (clearDefault customerId tenantId type).Succeeds noAnswer
      (fun _ s' => s'.InOrder customerId tenantId (insert (customerId, type) G) ∧
        ∀ id, ¬ defaultAddress.Holder s'.addresses (customerId, type) id) s := by
  obtain ⟨hkept, hnone⟩ := clearDefault_keptBut type h.1 h.2
  exact ⟨_, rfl, ⟨hkept, h.2⟩, hnone⟩

theorem succeeds_ensure (h : s.InOrder customerId tenantId (insert (customerId, type) G)) :
    (ensureDefault customerId tenantId type).Succeeds noAnswer
      (fun _ s' => s'.InOrder customerId tenantId G) s := by
  refine (succeeds_ensureDefault h.1 h.2).mono fun _ s' h' => ⟨h'.1, ?_⟩
  unfold Db.IsCustomer
  rw [h'.2]
  exact h.2

/-- `addAddress` keeps the addresses in order. -/
theorem leaves_addAddress {data : AddressBody} {now : ℤ} (h : s.InOrder customerId tenantId ∅) :
    (CustomerService.addAddress customerId tenantId addressId data now).Leaves noAnswer
      (fun _ s' => s'.InOrder customerId tenantId ∅) s := by
  -- what is left once the other defaults of the type may have been cleared
  have hrest (s₁ : Db) (h₁ : s₁.InOrder customerId tenantId {(customerId, data.type)}) :
      (do
        createAddress addressId data customerId tenantId now
        ensureDefault customerId tenantId data.type
        query (findAddress addressId customerId tenantId) : Sql _).Leaves noAnswer
        (fun _ s' => s'.InOrder customerId tenantId ∅) s₁ := by
    refine leaves_perform_bind.mpr fun e he => ?_
    obtain ⟨hnew, hadmits, rfl⟩ := Statement.insertAddress_eq_ok he
    have hinserted : Db.InOrder customerId tenantId (insert (customerId, data.type) ∅)
        (s₁.apply (.addressInsert addressId (newAddress data customerId tenantId now))) := by
      refine ⟨⟨owned_insert h₁.1.owned h₁.2, ?_⟩, h₁.2⟩
      rw [insert_empty_eq]
      refine h₁.1.settled.write hadmits rfl fun row hrow => ?_
      rw [hnew] at hrow
      cases hrow
    exact Leaves.bind ((succeeds_ensure hinserted).leaves.mono fun _ s₂ h₂ => leaves_query.mpr h₂)
  unfold CustomerService.addAddress
  dsimp only
  split_ifs
  · refine Leaves.bind ((succeeds_clearDefault h).leaves.mono fun _ s₁ h₁ => hrest s₁ ?_)
    rw [← insert_empty_eq]
    exact h₁.1
  · exact hrest s ⟨h.1.mono (Set.empty_subset _), h.2⟩

section GetById

variable {α : Type} {Q : α → Db → Prop} {f : CustomerView → Sql α}

theorem leaves_getById_bind : (CustomerService.getById id tenantId >>= f).Leaves noAnswer Q s ↔
    ∀ view, findById id tenantId s = some view → (f view).Leaves noAnswer Q s := by
  unfold CustomerService.getById
  rw [bind_assoc, leaves_query_bind, leaves_orRaise_bind]

theorem succeeds_getById_bind :
    (CustomerService.getById id tenantId >>= f).Succeeds noAnswer Q s ↔
      ∃ view, findById id tenantId s = some view ∧ (f view).Succeeds noAnswer Q s := by
  unfold CustomerService.getById
  rw [bind_assoc, succeeds_query_bind, succeeds_orRaise_bind]

theorem leaves_getById {Q : CustomerView → Db → Prop}
    (h : ∀ view, Q view s) : (CustomerService.getById id tenantId).Leaves noAnswer Q s := by
  intro view es hrun
  rw [CustomerService.getById, runs_query_bind, runs_orRaise] at hrun
  obtain ⟨-, rfl⟩ := hrun
  exact h view

end GetById

/-- A customer of the same shop is written over an old one. -/
theorem wellKept_customerUpdate {old new : CustomerRow} (h : s.WellKept)
    (hold : s.customers.lookup id = some old) (htenant : new.tenantId = old.tenantId) :
    (s.apply (.customerUpdate id new)).WellKept := by
  refine ⟨fun addressId row hrow => ?_, h.settled⟩
  obtain ⟨customer, hcustomer, hc⟩ := h.owned addressId row hrow
  by_cases hid : row.customerId = id
  · rw [hid, hold] at hcustomer
    obtain rfl := Option.some.inj hcustomer
    exact ⟨new, by rw [hid]; exact AList.lookup_insert _, htenant.trans hc⟩
  · exact ⟨customer, (AList.lookup_insert_ne hid).trans hcustomer, hc⟩

theorem leaves_create {data : CreateCustomer} {addressIds : List Uuid} {now : ℤ}
    (h : s.WellKept) : (CustomerService.create id tenantId data addressIds now).Leaves noAnswer
      (fun _ s' => s'.WellKept) s := by
  unfold CustomerService.create
  rw [leaves_query_bind, leaves_require_bind]
  intro _
  -- the addresses are in order when all are written
  refine Leaves.bind (Leaves.mono (Q := fun _ s' => s'.InOrder id tenantId ∅) ?_
    fun _ s₁ h₁ => leaves_getById fun _ => h₁.1)
  rw [leaves_mapError]
  refine leaves_perform_bind.mpr fun e he => ?_
  obtain ⟨⟨hnew, -⟩, rfl⟩ := Statement.insertCustomer_eq_ok.mp he
  refine Leaves.forM (I := Db.InOrder id tenantId ∅) (fun x _ s₁ h₁ => ?_) ⟨⟨?_, h.settled⟩, ?_⟩
  · exact Leaves.bind ((leaves_addAddress h₁).mono fun _ _ h₂ => leaves_ret.mpr h₂)
  · intro addressId row hrow
    obtain ⟨customer, hcustomer, hc⟩ := h.owned addressId row hrow
    have hne : row.customerId ≠ id := by
      rintro heq
      rw [heq, hnew] at hcustomer
      cases hcustomer
    exact ⟨customer, (AList.lookup_insert_ne hne).trans hcustomer, hc⟩
  · exact ⟨newRow data tenantId, AList.lookup_insert _, rfl⟩

theorem leaves_update {data : UpdateCustomer} (h : s.WellKept) :
    (CustomerService.update id tenantId data).Leaves noAnswer (fun _ s' => s'.WellKept) s := by
  unfold CustomerService.update
  rw [leaves_getById_bind]
  intro view _
  rw [leaves_query_bind, leaves_require_bind]
  intro _
  refine Leaves.bind ?_
  rw [leaves_mapError, CustomerRepository.update, leaves_perform]
  intro e he
  obtain ⟨row, hrow, -, rfl⟩ := Statement.updateCustomer_eq_ok.mp he
  exact leaves_getById fun _ => wellKept_customerUpdate h hrow rfl

theorem leaves_delete (h : s.WellKept) :
    (CustomerService.delete id tenantId).Leaves noAnswer (fun _ s' => s'.WellKept) s := by
  unfold CustomerService.delete
  rw [leaves_getById_bind]
  intro view _
  rw [softDelete, leaves_perform]
  intro e he
  obtain ⟨row, hrow, -, rfl⟩ := Statement.updateCustomer_eq_ok.mp he
  exact wellKept_customerUpdate h hrow rfl

theorem leaves_createAddress {data : AddressBody} {now : ℤ} (h : s.WellKept) :
    (CustomerService.createAddress id tenantId addressId data now).Leaves noAnswer
      (fun _ s' => s'.WellKept) s := by
  unfold CustomerService.createAddress
  rw [leaves_getById_bind]
  intro view hview
  have hc := isCustomer_of_findById hview
  exact (leaves_addAddress ⟨h, hc⟩).mono fun _ _ h' => h'.1

/-- `deleteAddress` of an address that is there. -/
theorem succeeds_deleteAddress (h : s.WellKept) (hid : (findById id tenantId s).isSome)
    (haddress : findAddress addressId id tenantId s = some row) :
    (CustomerService.deleteAddress id addressId tenantId).Succeeds noAnswer
      (fun _ s' => s'.WellKept) s := by
  obtain ⟨view, hview⟩ := Option.isSome_iff_exists.mp hid
  unfold CustomerService.deleteAddress
  rw [succeeds_getById_bind]
  refine ⟨view, hview, ?_⟩
  rw [succeeds_query_bind, succeeds_orRaise_bind]
  refine ⟨row, haddress, ?_⟩
  have hc : s.IsCustomer id tenantId := isCustomer_of_findById hview
  obtain ⟨hrow, hsel⟩ := Option.filter_eq_some_iff.mp haddress
  rw [decide_eq_true_eq] at hsel
  refine succeeds_perform_bind.mpr
    ⟨_, Statement.deleteAddress_eq_ok.mpr ⟨by rw [hrow]; rfl, rfl⟩, ?_⟩
  have herased : (s.apply (.addressDelete addressId)).InOrder id tenantId
      (insert (id, row.type) ∅) := by
    refine ⟨⟨fun addressId' row' hrow' => ?_, ?_⟩, hc⟩
    · exact h.owned addressId' row' (AList.lookup_erase_eq_some.mp hrow').2
    · refine (h.settled.mono (Set.empty_subset _)).erase fun row' hrow' => .inl ?_
      obtain rfl := Option.some.inj (hrow.symm.trans hrow')
      simp [defaultAddress, hsel.1]
  exact (succeeds_ensure herased).mono fun _ _ h' => h'.1

/-! ### Changing an address -/

/-- A default address is to move to a type of which the customer has an address, and the
request does not say whether it is to be the default. -/
def CustomerRequest.movesDefault (s : Db) : CustomerRequest → Bool
  | .updateAddress id addressId tenantId data =>
    (findAddress addressId id tenantId s).any fun existing =>
      existing.isDefault = true ∧ data.isDefault = none ∧
        data.type.any fun type => type ≠ existing.type ∧
          s.addresses.entries.any fun x => x.2.customerId = id ∧ x.2.type = type
  | _ => false

theorem movesDefault_iff {data : AddressChanges} {existing : AddressRow}
    (haddress : findAddress addressId id tenantId s = some existing) :
    (CustomerRequest.updateAddress id addressId tenantId data).movesDefault s = true ↔
      existing.isDefault = true ∧ data.isDefault = none ∧
        ∃ type, data.type = some type ∧ type ≠ existing.type ∧
          ∃ k, defaultAddress.Member s.addresses (id, type) k := by
  have hmember (type : AddressType) : (s.addresses.entries.any fun x =>
      x.2.customerId = id ∧ x.2.type = type) = true ↔
        ∃ k, defaultAddress.Member s.addresses (id, type) k := by
    rw [List.any_eq_true]
    constructor
    · rintro ⟨x, hx, hsel⟩
      exact ⟨x.1, x.2, AList.mem_entries_iff_lookup.mp hx,
        Prod.ext_iff.mpr (of_decide_eq_true hsel)⟩
    · rintro ⟨k, row, hrow, hgroup⟩
      refine ⟨⟨k, row⟩, AList.mem_entries_iff_lookup.mpr hrow, ?_⟩
      exact decide_eq_true (Prod.ext_iff.mp hgroup)
  simp only [CustomerRequest.movesDefault, haddress, Option.any_some, decide_eq_true_eq]
  refine and_congr_right fun _ => and_congr_right fun _ => ?_
  cases data.type with
  | none => simp
  | some type => simp only [Option.any_some, decide_eq_true_eq, hmember, Option.some.injEq,
      exists_eq_left']

theorem group_changedAddress (data : AddressChanges) (row : AddressRow) :
    defaultAddress.group (changedAddress data row) =
      (row.customerId, data.type.getD row.type) := rfl

theorem lookup_addressesUnset (ids : List Uuid) (hrow : s.addresses.lookup id = some row) :
    (s.apply (.addressesUnset ids)).addresses.lookup id =
      some { row with isDefault := if id ∈ ids then false else row.isDefault } := by
  simp [hrow]

/-- What is left of `updateAddress` once the other defaults of the type may have been cleared,
if the index admits the new row. -/
theorem succeeds_updateAddress_rest {data : AddressChanges} {existing row : AddressRow}
    (hG : G ⊆ {(id, existing.type), (id, data.type.getD existing.type)})
    (h : s.InOrder id tenantId G) (hrow : s.addresses.lookup addressId = some row)
    (hid : row.customerId = id) (htype : row.type = existing.type)
    (hadmits : defaultAddress.Admits s.addresses addressId (changedAddress data row)) :
    (do
      CustomerRepository.updateAddress addressId data
      ensureDefault id tenantId existing.type
      if data.type.getD existing.type ≠ existing.type then
        ensureDefault id tenantId (data.type.getD existing.type)
      query (findAddress addressId id tenantId) : Sql (Option AddressRow)).Succeeds noAnswer
      (fun _ s' => s'.WellKept) s := by
  have hgroup : defaultAddress.group (changedAddress data row) =
      (id, data.type.getD existing.type) := by
    rw [group_changedAddress, hid, htype]
  refine succeeds_perform_bind.mpr
    ⟨_, Statement.updateAddress_eq_ok.mpr ⟨row, hrow, hadmits, rfl⟩, ?_⟩
  have hwritten : (s.apply (.addressUpdate addressId (changedAddress data row))).InOrder id tenantId
      {(id, existing.type), (id, data.type.getD existing.type)} := by
    refine ⟨⟨owned_insert h.1.owned (h.1.owned addressId row hrow), ?_⟩, h.2⟩
    refine (h.1.settled.mono hG).write hadmits (.inr hgroup) fun row' hrow' => .inl ?_
    obtain rfl := Option.some.inj (hrow.symm.trans hrow')
    simp [defaultAddress, hid, htype]
  rw [succeeds_bind]
  dsimp only
  by_cases hsame : data.type.getD existing.type = existing.type
  · -- the address stays in its group, which is settled first
    rw [hsame, Set.pair_eq_singleton, ← insert_empty_eq] at hwritten
    refine (succeeds_ensure hwritten).mono fun _ s₂ h₂ => ?_
    rw [if_neg (not_not.mpr hsame)]
    exact h₂.1
  · -- it changes its type: the group it leaves is settled, then the one it joins
    refine (succeeds_ensure hwritten).mono fun _ s₂ h₂ => ?_
    rw [← insert_empty_eq] at h₂
    rw [if_pos hsame, succeeds_bind]
    exact (succeeds_ensure h₂).mono fun _ s₃ h₃ => h₃.1

/-- `updateAddress` of an address that is there succeeds, unless it moves a default. -/
theorem succeeds_updateAddress {data : AddressChanges} {existing : AddressRow} (h : s.WellKept)
    (hid : (findById id tenantId s).isSome)
    (haddress : findAddress addressId id tenantId s = some existing)
    (hmoves : (CustomerRequest.updateAddress id addressId tenantId data).movesDefault s = false) :
    (CustomerService.updateAddress id addressId tenantId data).Succeeds noAnswer
      (fun _ s' => s'.WellKept) s := by
  obtain ⟨view, hview⟩ := Option.isSome_iff_exists.mp hid
  have hc : s.IsCustomer id tenantId := isCustomer_of_findById hview
  obtain ⟨hrow, hsel⟩ := Option.filter_eq_some_iff.mp haddress
  rw [decide_eq_true_eq] at hsel
  unfold CustomerService.updateAddress
  rw [succeeds_getById_bind]
  refine ⟨view, hview, ?_⟩
  rw [succeeds_query_bind, succeeds_orRaise_bind]
  refine ⟨existing, haddress, ?_⟩
  dsimp only
  by_cases hset : data.isDefault = some true
  · -- the other defaults of the type are cleared first, and so no default is in the way
    rw [if_pos hset, succeeds_bind]
    obtain ⟨hkept, hnone⟩ := clearDefault_keptBut (data.type.getD existing.type) h hc
    refine succeeds_perform.mpr ⟨_, rfl, ?_⟩
    rw [insert_empty_eq] at hkept
    refine succeeds_updateAddress_rest (Set.subset_insert _ _) ⟨hkept, hc⟩
      (lookup_addressesUnset _ hrow) hsel.1 rfl fun _ k hk => ?_
    rw [group_changedAddress, hsel.1] at hk
    exact absurd hk (hnone k)
  · rw [if_neg hset]
    refine succeeds_updateAddress_rest (Set.empty_subset _) ⟨h, hc⟩ hrow hsel.1 rfl
      fun hflag k hk => ?_
    rw [group_changedAddress, hsel.1] at hk
    -- the address keeps the flag it has, so it is the default of its type
    have hgiven : data.isDefault = none := by
      cases hdata : data.isDefault with
      | none => rfl
      | some b =>
        have hb : b = true := by simpa [defaultAddress, changedAddress, hdata] using hflag
        rw [hdata, hb] at hset
        exact absurd rfl hset
    have hdefault : existing.isDefault = true := by
      simpa [defaultAddress, changedAddress, hgiven] using hflag
    have hheld : defaultAddress.Holder s.addresses (id, existing.type) addressId :=
      ⟨existing, hrow, by simp [defaultAddress, hsel.1], hdefault⟩
    by_cases hsame : data.type.getD existing.type = existing.type
    · rw [hsame] at hk
      exact h.settled.unique _ k addressId hk hheld
    · exfalso
      rw [Bool.eq_false_iff, Ne, movesDefault_iff haddress] at hmoves
      apply hmoves
      obtain ⟨type, htype⟩ : ∃ type, data.type = some type := by
        rw [← Option.isSome_iff_exists, Option.isSome_iff_ne_none]
        intro hnone
        exact hsame (by rw [hnone]; rfl)
      rw [htype] at hk hsame
      exact ⟨hdefault, hgiven, type, htype, hsame, k, hk.member⟩

/-- `updateAddress` fails when it moves a default. -/
theorem not_succeeds_updateAddress {data : AddressChanges} {existing : AddressRow}
    {Q : Option AddressRow → Db → Prop} (h : s.WellKept)
    (haddress : findAddress addressId id tenantId s = some existing)
    (hmoves : (CustomerRequest.updateAddress id addressId tenantId data).movesDefault s = true) :
    ¬ (CustomerService.updateAddress id addressId tenantId data).Succeeds noAnswer Q s := by
  obtain ⟨hdefault, hgiven, type, htype, hne, k, hk⟩ := (movesDefault_iff haddress).mp hmoves
  obtain ⟨hrow, hsel⟩ := Option.filter_eq_some_iff.mp haddress
  rw [decide_eq_true_eq] at hsel
  intro hsucc
  rw [CustomerService.updateAddress, succeeds_getById_bind] at hsucc
  obtain ⟨view, -, hsucc⟩ := hsucc
  rw [succeeds_query_bind, succeeds_orRaise_bind] at hsucc
  obtain ⟨existing', hexisting', hsucc⟩ := hsucc
  obtain rfl := Option.some.inj (haddress.symm.trans hexisting')
  dsimp only at hsucc
  rw [if_neg (by rw [hgiven]; simp)] at hsucc
  obtain ⟨e, he, -⟩ := succeeds_perform_bind.mp hsucc
  obtain ⟨row, hrow', hadmits, -⟩ := Statement.updateAddress_eq_ok.mp he
  obtain rfl := Option.some.inj (hrow.symm.trans hrow')
  -- the customer has a default of the other type, and it is another address
  obtain ⟨k', hk'⟩ := (h.settled.settled (id, type) (Set.notMem_empty _)).exists_holder k hk
  have hflag : (changedAddress data existing).isDefault = true := by
    simp [changedAddress, hgiven, hdefault]
  have heq := hadmits hflag k' (by rw [group_changedAddress, hsel.1, htype]; exact hk')
  obtain ⟨row', hrow', hgroup, -⟩ := hk'
  rw [heq, hrow] at hrow'
  obtain rfl := Option.some.inj hrow'
  exact hne (Prod.ext_iff.mp hgroup).2.symm

/-! ### Runs -/

/-- A request for an address that the customer has. -/
def CustomerRequest.OnAddress (s : Db) : CustomerRequest → Prop
  | .updateAddress id addressId tenantId _ | .deleteAddress id addressId tenantId =>
    (findById id tenantId s).isSome ∧ (findAddress addressId id tenantId s).isSome
  | _ => False

/-- Every request keeps the addresses in order. -/
theorem leaves_program (r : CustomerRequest) (h : s.WellKept) :
    r.program.Leaves noAnswer (fun _ s' => s'.WellKept) s := by
  cases r with
  | create id tenantId data addressIds now => exact leaves_map.mpr (leaves_create h)
  | update id tenantId data => exact leaves_map.mpr (leaves_update h)
  | delete id tenantId => exact leaves_map.mpr (leaves_delete h)
  | createAddress id tenantId addressId data now => exact leaves_map.mpr (leaves_createAddress h)
  | updateAddress id addressId tenantId data =>
    refine leaves_map.mpr fun a es hrun => ?_
    -- a request that has succeeded has found the customer and the address
    have hsucc := hrun.succeeds
    rw [CustomerService.updateAddress, succeeds_getById_bind] at hsucc
    obtain ⟨view, hview, hsucc⟩ := hsucc
    rw [succeeds_query_bind, succeeds_orRaise_bind] at hsucc
    obtain ⟨existing, hexisting, -⟩ := hsucc
    cases hmoves : (CustomerRequest.updateAddress id addressId tenantId data).movesDefault s with
    | false =>
      have hid : (findById id tenantId s).isSome := by rw [hview]; rfl
      exact (succeeds_updateAddress h hid hexisting hmoves).leaves a es hrun
    | true =>
      exact absurd hrun.succeeds (not_succeeds_updateAddress h hexisting hmoves)
  | deleteAddress id addressId tenantId =>
    refine leaves_map.mpr fun a es hrun => ?_
    have hsucc := hrun.succeeds
    rw [CustomerService.deleteAddress, succeeds_getById_bind] at hsucc
    obtain ⟨view, hview, hsucc⟩ := hsucc
    rw [succeeds_query_bind, succeeds_orRaise_bind] at hsucc
    obtain ⟨existing, hexisting, -⟩ := hsucc
    have hid : (findById id tenantId s).isSome := by rw [hview]; rfl
    exact (succeeds_deleteAddress h hid hexisting).leaves a es hrun

/-- No addresses are in order. -/
theorem wellKept_of_empty (h : s.addresses = ∅) : s.WellKept := by
  refine ⟨fun id row hrow => ?_, fun g => ?_, fun g _ => ?_⟩
  · rw [h] at hrow
    simp at hrow
  · rw [h]
    exact Designation.settled_empty.unique
  · rw [h]
    exact Designation.settled_empty

/-- **Default addresses.** After any requests, one after the other, a customer who has
addresses of a type has exactly one default of that type. A request for an address that is
there succeeds, and leaves it so, exactly if it does not move a default to a type that has
one. -/
theorem customerAddresses_settled {s₀ : Db} (h₀ : s₀.addresses = ∅)
    (requests : List CustomerRequest) :
    let s := afterAll noAnswer CustomerRequest.program s₀ requests
    (∀ customerId type id, defaultAddress.Member s.addresses (customerId, type) id →
      ∃! id', defaultAddress.Holder s.addresses (customerId, type) id') ∧
    ∀ r : CustomerRequest, r.OnAddress s →
      (r.program.Succeeds noAnswer (fun _ s' => ∀ customerId type id,
        defaultAddress.Member s'.addresses (customerId, type) id →
          ∃! id', defaultAddress.Holder s'.addresses (customerId, type) id') s ↔
        r.movesDefault s = false) := by
  have hkept := afterAll_induction (I := Db.WellKept) (fun r s hs => leaves_program r hs)
    (wellKept_of_empty h₀) requests
  have hone {s : Db} (hs : s.WellKept) (customerId : Uuid) (type : AddressType) (id : Uuid)
      (hmember : defaultAddress.Member s.addresses (customerId, type) id) :
      ∃! id', defaultAddress.Holder s.addresses (customerId, type) id' :=
    (hs.settled.settled _ (Set.notMem_empty _)).existsUnique hmember
  refine ⟨hone hkept, fun r hr => ?_⟩
  cases r with
  -- a default that is moved beside another one meets the unique index
  | updateAddress id addressId tenantId data =>
    obtain ⟨hid, hfound⟩ := hr
    obtain ⟨existing, haddress⟩ := Option.isSome_iff_exists.mp hfound
    constructor
    · intro hsucc
      rw [Bool.eq_false_iff]
      exact fun hmoves => not_succeeds_updateAddress hkept haddress hmoves (succeeds_map.mp hsucc)
    · intro hmoves
      refine succeeds_map.mpr ((succeeds_updateAddress hkept hid haddress hmoves).mono ?_)
      exact fun _ _ => hone
  -- a deletion meets no index
  | deleteAddress id addressId tenantId =>
    obtain ⟨hid, hfound⟩ := hr
    obtain ⟨existing, haddress⟩ := Option.isSome_iff_exists.mp hfound
    refine iff_of_true (succeeds_map.mpr ?_) rfl
    exact (succeeds_deleteAddress hkept hid haddress).mono fun _ _ => hone
  | _ => exact hr.elim

namespace Sample

def asha : CustomerRow where
  tenantId := "shop"
  email := "asha@example.com"
  firstName := "Asha"
  lastName := "Rao"

/-- A shop with a customer who has no addresses. -/
def directoryStart : Db where
  customers := AList.insert "c1" asha ∅

def home : AddressBody where
  type := .shipping
  line1 := "12 MG Road"
  city := "Bengaluru"
  country := "IN"

/-- The customer gives a shipping and a billing address. -/
def twoAddresses : List CustomerRequest :=
  [.createAddress "c1" "shop" "a1" home 1,
    .createAddress "c1" "shop" "a2" { home with type := .billing } 2]

/-- The shipping address becomes a billing address. -/
def toBilling : CustomerRequest := .updateAddress "c1" "a1" "shop" { type := some .billing }

end Sample

open Sample in
/-- The two addresses of the customer, each the default of its type. -/
theorem customerAddresses_settled_sample :
    ∃! id, defaultAddress.Holder
      (afterAll noAnswer CustomerRequest.program directoryStart twoAddresses).addresses
      ("c1", .billing) id := by
  obtain ⟨hone, -⟩ :=
    customerAddresses_settled (show directoryStart.addresses = ∅ from rfl) twoAddresses
  refine hone "c1" .billing "a2" ?_
  have hrow : ((afterAll noAnswer CustomerRequest.program directoryStart
      twoAddresses).addresses.lookup "a2").map defaultAddress.group = some ("c1", .billing) := by
    decide +kernel
  exact Option.map_eq_some_iff.mp hrow

open Sample in
/-- The shipping address cannot become a billing address: the customer has one. -/
theorem updateAddress_refused :
    let s := afterAll noAnswer CustomerRequest.program directoryStart twoAddresses
    toBilling.OnAddress s ∧ ¬ toBilling.program.Succeeds noAnswer (fun _ _ => True) s := by
  refine ⟨⟨by decide +kernel, by decide +kernel⟩, fun hsucc => ?_⟩
  obtain ⟨a, es, hruns, -⟩ := succeeds_iff.mp hsucc
  have hfailed : (toBilling.program.run noAnswer
      (afterAll noAnswer CustomerRequest.program directoryStart twoAddresses)).isOk = false := by
    decide +kernel
  rw [show toBilling.program.run noAnswer _ = .ok (a, es) from hruns] at hfailed
  cases hfailed

end PulseOps.Customers
