import PulseOps.Model.Tenants
import PulseOps.Workspace.Domains

/-!
# The domains of the other tenants

A request that writes domains leaves those of the other tenants alone. The one exception is
`verifyDomain`: it drops the claims that others have on the domain it verifies.

## Main definitions

* `rowsOf` — the domains of one tenant.
* `DomainRequest.claimants` — the tenants whose domains a request may write.

## Main results

* `leaves_rowsOf` — the domains of all others are as they were.
-/

set_option autoImplicit false

open ReadCommitted Program

namespace PulseOps.Domains

open WorkspaceRepository

variable {s : Db} {t u tenantId id domainId : Uuid} {row : TenantDomain}

/-- The domains of one tenant. -/
def rowsOf (t : Uuid) (s : Db) : Table Uuid TenantDomain :=
  s.domains.keep fun _ row => row.tenantId = t

/-- Another tenant has a claim on the domain that is to be verified. -/
def HasClaim (domainId tenantId t : Uuid) (s : Db) : Prop :=
  ∃ existing, findDomain domainId tenantId s = some existing ∧
    ∃ id row, s.domains.lookup id = some row ∧ row.domain = existing.domain ∧
      row.verified = false ∧ row.tenantId = t

/-- The tenants whose domains a request may write. -/
def DomainRequest.claimants (r : DomainRequest) (s : Db) : Set Uuid :=
  match r with
  | .add tenantId _ _ _ _ => {tenantId}
  | .makePrimary tenantId _ => {tenantId}
  | .verify tenantId domainId _ _ => {t | t = tenantId ∨ HasClaim domainId tenantId t s}
  | .remove tenantId _ => {tenantId}

/-! ### Statements -/

theorem rowsOf_update (new : TenantDomain) (hrow : s.domains.lookup id = some row)
    (ht : row.tenantId ≠ t) (hnew : new.tenantId = row.tenantId) :
    rowsOf t (s.apply (.domainUpdate id new)) = rowsOf t s := by
  unfold rowsOf
  apply AList.keep_insert_out
  · exact decide_eq_false fun h => ht (hnew.symm.trans h)
  · intro old hold
    obtain rfl := Option.some.inj (hrow.symm.trans hold)
    exact decide_eq_false ht

theorem rowsOf_insert (new : TenantDomain) (hid : s.domains.lookup id = none)
    (ht : new.tenantId ≠ t) : rowsOf t (s.apply (.domainInsert id new)) = rowsOf t s := by
  unfold rowsOf
  apply AList.keep_insert_out
  · exact decide_eq_false ht
  · intro old hold
    rw [hid] at hold
    cases hold

theorem rowsOf_delete {ids : List Uuid}
    (h : ∀ id row, s.domains.lookup id = some row → row.tenantId = t → id ∉ ids) :
    rowsOf t (s.apply (.domainsDelete ids)) = rowsOf t s := by
  simp only [rowsOf, Db.apply]
  apply AList.keep_keep_out
  intro e he hpart
  exact decide_eq_true
    (h e.1 e.2 (AList.mem_entries_iff_lookup.mp he) (of_decide_eq_true hpart))

theorem rowsOf_unset {ids : List Uuid}
    (h : ∀ id row, s.domains.lookup id = some row → row.tenantId = t → id ∉ ids) :
    rowsOf t (s.apply (.domainsUnset ids)) = rowsOf t s := by
  simp only [rowsOf, Db.apply]
  apply AList.keep_mapRows_out
  · intro e he hpart
    rw [if_neg (h e.1 e.2 (AList.mem_entries_iff_lookup.mp he) (of_decide_eq_true hpart))]
  · intro k r hr
    exact hr

/-- `ensurePrimary` writes a domain of the tenant it is called for. -/
theorem leaves_rowsOf_ensurePrimary {rows : Table Uuid TenantDomain} (hu : u ≠ t)
    (hs : rowsOf t s = rows) :
    (ensurePrimary u).Leaves noAnswer (fun _ s' => rowsOf t s' = rows) s := by
  unfold ensurePrimary
  rw [leaves_query_bind]
  split
  next => exact leaves_ret.mpr hs
  next =>
    rw [leaves_query_bind]
    split
    next => exact leaves_ret.mpr hs
    next id hid =>
      obtain ⟨row, hrow, htenant⟩ := member_of_oldest hid
      refine leaves_perform.mpr fun e he => ?_
      obtain ⟨row', hrow', -, rfl⟩ := Statement.updateDomain_eq_ok.mp he
      obtain rfl := Option.some.inj (hrow.symm.trans hrow')
      have ht : row.tenantId ≠ t := fun h => hu (htenant.symm.trans h)
      exact (rowsOf_update _ hrow ht (by rfl)).trans hs

/-! ### Requests -/

theorem leaves_rowsOf_addDomain {domain token : String} {now : ℤ} (ht : tenantId ≠ t) :
    (WorkspaceService.addDomain tenantId domain id token now).Leaves noAnswer
      (fun _ s' => rowsOf t s' = rowsOf t s) s := by
  unfold WorkspaceService.addDomain
  rw [leaves_query_bind, leaves_require_bind]
  intro _
  rw [leaves_mapError, createDomain, leaves_perform_bind]
  intro e he
  obtain ⟨hid, -, rfl⟩ := Statement.insertDomain_eq_ok he
  apply Leaves.bind
  refine (leaves_rowsOf_ensurePrimary ht (rowsOf_insert _ hid ht)).mono fun _ s₁ h₁ => ?_
  rw [leaves_query_bind, leaves_map]
  intro row es hrun
  obtain ⟨-, rfl⟩ := runs_orRaise.mp hrun
  exact h₁

theorem leaves_rowsOf_makePrimary (ht : tenantId ≠ t) :
    (WorkspaceService.makePrimary tenantId domainId).Leaves noAnswer
      (fun _ s' => rowsOf t s' = rowsOf t s) s := by
  unfold WorkspaceService.makePrimary
  rw [leaves_query_bind, leaves_orRaise_bind]
  intro existing hfound
  obtain ⟨hrow, htenant⟩ := Option.filter_eq_some_iff.mp hfound
  rw [decide_eq_true_eq] at htenant
  split_ifs
  · exact leaves_ret.mpr rfl
  · rw [leaves_map, setPrimary, leaves_perform_bind]
    intro e he
    obtain rfl := Except.ok.inj he
    have hunset : rowsOf t (s.apply (.domainsUnset (primaries tenantId s))) = rowsOf t s := by
      apply rowsOf_unset
      intro id row hid hother hmem
      obtain ⟨row', hrow', hgroup, -⟩ := mem_primaries.mp hmem
      obtain rfl := Option.some.inj (hid.symm.trans hrow')
      exact ht (hgroup.symm.trans hother)
    apply leaves_updateReturning
    intro row' hrow' _
    have htenant' : row'.tenantId ≠ t := by
      simp only [registry_apply, Db.apply, AList.lookup_mapRows, hrow, Option.map_some,
        Option.some.injEq] at hrow'
      rw [← hrow', htenant]
      exact ht
    exact (rowsOf_update _ hrow' htenant' (by rfl)).trans hunset

theorem leaves_rowsOf_removeDomain (ht : tenantId ≠ t) :
    (WorkspaceService.removeDomain tenantId domainId).Leaves noAnswer
      (fun _ s' => rowsOf t s' = rowsOf t s) s := by
  unfold WorkspaceService.removeDomain
  rw [leaves_query_bind, leaves_orRaise_bind]
  intro existing hfound
  obtain ⟨hrow, htenant⟩ := Option.filter_eq_some_iff.mp hfound
  rw [decide_eq_true_eq] at htenant
  refine leaves_perform_bind.mpr fun e he => ?_
  obtain rfl := Statement.deleteDomain_eq_ok he
  apply leaves_rowsOf_ensurePrimary ht
  apply rowsOf_delete
  intro id row hid hother hmem
  obtain rfl := List.mem_singleton.mp hmem
  obtain rfl := Option.some.inj (hrow.symm.trans hid)
  exact ht (htenant.symm.trans hother)

theorem leaves_rowsOf_verifyDomain {resolveTxt : String → Option (List (List String))} {now : ℤ}
    (ht : tenantId ≠ t) (hclaim : ¬ HasClaim domainId tenantId t s) :
    (WorkspaceService.verifyDomain tenantId domainId resolveTxt now).Leaves noAnswer
      (fun _ s' => rowsOf t s' = rowsOf t s) s := by
  unfold WorkspaceService.verifyDomain
  rw [leaves_query_bind, leaves_orRaise_bind]
  intro existing hfound
  obtain ⟨hrow, htenant⟩ := Option.filter_eq_some_iff.mp hfound
  rw [decide_eq_true_eq] at htenant
  split_ifs
  · exact leaves_ret.mpr rfl
  · rw [leaves_require_bind]
    intro _
    rw [leaves_query_bind, leaves_require_bind]
    intro _
    rw [leaves_mapError, markVerified]
    apply Leaves.bind
    apply leaves_updateReturning
    intro row hrow' _
    obtain rfl := Option.some.inj (hrow.symm.trans hrow')
    have hne : existing.tenantId ≠ t := fun h => ht (htenant.symm.trans h)
    obtain ⟨verified, hv⟩ : ∃ verified : TenantDomain,
        verified = { existing with verified := true, verifiedAt := some now } := ⟨_, rfl⟩
    obtain ⟨s₁, hs₁⟩ : ∃ s₁, s₁ = s.apply (.domainUpdate domainId verified) := ⟨_, rfl⟩
    have hmarked : rowsOf t s₁ = rowsOf t s := hs₁ ▸ rowsOf_update _ hrow hne (by rw [hv])
    -- the claims that are dropped were there before, and none of them is one of `t`
    have hclaims (c : Uuid × Uuid) (hc : c ∈ unverifiedClaims existing.domain domainId s₁) :
        c.2 ≠ t ∧ ∃ claim, s₁.domains.lookup c.1 = some claim ∧ claim.tenantId = c.2 := by
      obtain ⟨x, hx, rfl⟩ := List.mem_map.mp hc
      obtain ⟨hmem, hsel⟩ := List.mem_filter.mp hx
      rw [decide_eq_true_eq] at hsel
      obtain ⟨hdomain, hverified, hid⟩ := hsel
      have hlookup := AList.mem_entries_iff_lookup.mp hmem
      refine ⟨fun h => hclaim ?_, x.2, hlookup, rfl⟩
      rw [hs₁] at hlookup
      rcases AList.lookup_insert_eq_some.mp hlookup with ⟨hsame, -⟩ | ⟨-, hold⟩
      · exact absurd hsame hid
      · exact ⟨existing, hfound, x.1, x.2, hold, hdomain, hverified, h⟩
    rw [← hv, ← hs₁, deleteUnverifiedClaims, bind_assoc, leaves_query_bind,
      bind_assoc]
    refine leaves_perform_bind.mpr fun e he => ?_
    obtain rfl := Except.ok.inj he
    rw [pure_bind]
    apply Leaves.bind
    have hdeleted : rowsOf t (s₁.apply (.domainsDelete
        ((unverifiedClaims existing.domain domainId s₁).map (·.1)))) = rowsOf t s := by
      refine (rowsOf_delete fun id row hid hother hmem => ?_).trans hmarked
      obtain ⟨c, hc, rfl⟩ := List.mem_map.mp hmem
      obtain ⟨hc₂, claim, hlookup, hsame⟩ := hclaims c hc
      obtain rfl := Option.some.inj (hlookup.symm.trans hid)
      exact hc₂ (hsame.symm.trans hother)
    have hensured (c : Uuid × Uuid) (hc : c ∈ unverifiedClaims existing.domain domainId s₁)
        (s₂ : Db) (h₂ : rowsOf t s₂ = rowsOf t s) : (ensurePrimary c.2).Leaves noAnswer
          (fun _ s' => rowsOf t s' = rowsOf t s) s₂ :=
      leaves_rowsOf_ensurePrimary (hclaims c hc).1 h₂
    refine (Leaves.forM hensured hdeleted).mono fun _ s₃ h₃ => ?_
    exact leaves_ret.mpr h₃

/-- **Other tenants.** No request writes a domain of a tenant that is none of its claimants. -/
theorem leaves_rowsOf (r : DomainRequest) (ht : t ∉ r.claimants s) :
    r.program.Leaves noAnswer (fun _ s' => rowsOf t s' = rowsOf t s) s := by
  unfold DomainRequest.program
  cases r with
  | add tenantId domain id token now =>
    rw [leaves_map]
    exact leaves_rowsOf_addDomain fun h => ht h.symm
  | makePrimary tenantId domainId =>
    rw [leaves_map]
    exact leaves_rowsOf_makePrimary fun h => ht h.symm
  | verify tenantId domainId resolveTxt now =>
    rw [leaves_map]
    exact leaves_rowsOf_verifyDomain (fun h => ht (.inl h.symm)) fun h => ht (.inr h)
  | remove tenantId domainId =>
    rw [leaves_map]
    exact leaves_rowsOf_removeDomain fun h => ht h.symm

end PulseOps.Domains
