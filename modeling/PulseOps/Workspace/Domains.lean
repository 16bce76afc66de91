import PulseOps.Model.Domains

/-!
# Primary and verified domains

A shop that has domains has one primary domain, and a domain that is verified for a shop is
claimed by no other. Three unique indexes keep a second row away after every statement; what
they cannot do is to name a primary domain where none is left, and to remove the claims that
have lost. `ensurePrimary` does the first, for every shop that may have lost its primary
domain, and `deleteUnverifiedClaims` does the second.

## Main definitions

* `Db.KeptBut` — the domains are in order, but some shops may lack a primary domain.
* `Db.Descends` — every row comes from an old one, and is claimed and verified like it.

## Main results

* `leaves_program` — every request keeps the domains in order.
* `domains_inOrder` — what holds after any requests.
-/

set_option autoImplicit false

open ReadCommitted Program

namespace PulseOps.Domains

open WorkspaceRepository

/-- Every shop outside `G` that has domains has one primary domain, a shop claims a domain
once, and a verified domain is claimed once. -/
structure Db.KeptBut (s : Db) (G : Set Uuid) : Prop where
  primary : primaryDomain.SettledBut s.domains G
  claims : ∀ g, claim.AtMostOne s.domains g
  alone : ∀ id row, s.domains.lookup id = some row → row.verified = true →
    ∀ id' row', s.domains.lookup id' = some row' → row'.domain = row.domain → id' = id

/-- The domains are in order. -/
abbrev Db.InOrder (s : Db) : Prop := s.KeptBut ∅

/-- Every row comes from an old one with the same shop and domain, and is verified like it. -/
def Db.Descends (s s' : Db) : Prop :=
  ∀ id row', s'.domains.lookup id = some row' → ∃ row, s.domains.lookup id = some row ∧
    row'.tenantId = row.tenantId ∧ row'.domain = row.domain ∧ row'.verified = row.verified

variable {s s' s'' : Db} {G : Set Uuid} {id tenantId domainId : Uuid} {row : TenantDomain}

theorem Db.Descends.refl (s : Db) : s.Descends s :=
  fun _ row h => ⟨row, h, rfl, rfl, rfl⟩

theorem Db.Descends.trans (h : s.Descends s') (h' : s'.Descends s'') : s.Descends s'' := by
  intro id row'' hrow''
  obtain ⟨row', hrow', ht', hd', hv'⟩ := h' id row'' hrow''
  obtain ⟨row, hrow, ht, hd, hv⟩ := h id row' hrow'
  exact ⟨row, hrow, ht'.trans ht, hd'.trans hd, hv'.trans hv⟩

/-- The claims stay in order when every row comes from an old one. -/
theorem Db.KeptBut.descend {G' : Set Uuid} (h : s.KeptBut G) (hs : s.Descends s')
    (hprimary : primaryDomain.SettledBut s'.domains G') : s'.KeptBut G' where
  primary := hprimary
  claims g := (h.claims g).of_holders fun id hid => by
    obtain ⟨row', hrow', hg, -⟩ := hid
    obtain ⟨row, hrow, ht, hd, -⟩ := hs id row' hrow'
    exact ⟨row, hrow, (Prod.ext ht.symm hd.symm : claim.group row = claim.group row').trans hg, rfl⟩
  alone id₁ row₁' h₁' hverified id₂ row₂' h₂' hsame := by
    obtain ⟨row₁, h₁, -, hd₁, hv₁⟩ := hs id₁ row₁' h₁'
    obtain ⟨row₂, h₂, -, hd₂, -⟩ := hs id₂ row₂' h₂'
    exact h.alone id₁ row₁ h₁ (hv₁.symm.trans hverified) id₂ row₂ h₂
      (hd₂.symm.trans (hsame.trans hd₁))

/-! ### Single statements -/

theorem descends_update (new : TenantDomain) (hrow : s.domains.lookup id = some row)
    (ht : new.tenantId = row.tenantId) (hd : new.domain = row.domain)
    (hv : new.verified = row.verified) : s.Descends (s.apply (.domainUpdate id new)) := by
  intro id' row' hrow'
  rcases AList.lookup_insert_eq_some.mp hrow' with ⟨rfl, rfl⟩ | ⟨-, hold⟩
  · exact ⟨row, hrow, ht, hd, hv⟩
  · exact ⟨row', hold, rfl, rfl, rfl⟩

theorem descends_delete (ids : List Uuid) : s.Descends (s.apply (.domainsDelete ids)) :=
  fun _ row h => ⟨row, (AList.lookup_keep_eq_some.mp h).1, rfl, rfl, rfl⟩

theorem descends_unset (ids : List Uuid) : s.Descends (s.apply (.domainsUnset ids)) := by
  intro id row' hrow'
  simp only [Db.apply, AList.lookup_mapRows, Option.map_eq_some_iff] at hrow'
  obtain ⟨row, hrow, rfl⟩ := hrow'
  exact ⟨row, hrow, rfl, rfl, rfl⟩

theorem mem_primaries : id ∈ primaries tenantId s ↔
    primaryDomain.Holder s.domains tenantId id := by
  unfold primaries
  rw [List.mem_map]
  constructor
  · rintro ⟨x, hx, rfl⟩
    obtain ⟨hx, hsel⟩ := List.mem_filter.mp hx
    rw [decide_eq_true_eq] at hsel
    exact ⟨x.2, AList.mem_entries_iff_lookup.mp hx, hsel⟩
  · rintro ⟨row, hrow, hsel⟩
    exact ⟨⟨id, row⟩, List.mem_filter.mpr ⟨AList.mem_entries_iff_lookup.mpr hrow,
      decide_eq_true hsel⟩, rfl⟩

/-- The domain is not verified for anybody. -/
theorem not_verified_of_free {domain : String} (h : findVerifiedDomain domain s = none)
    (hrow : s.domains.lookup id = some row) (hverified : row.verified = true) :
    row.domain ≠ domain := by
  intro hdomain
  rw [findVerifiedDomain, Option.map_eq_none_iff, List.find?_eq_none] at h
  exact h _ (AList.mem_entries_iff_lookup.mpr hrow) (decide_eq_true ⟨hdomain, hverified⟩)

theorem member_of_oldest (h : oldest tenantId s = some id) :
    primaryDomain.Member s.domains tenantId id := by
  obtain ⟨x, hx, rfl⟩ := Option.map_eq_some_iff.mp h
  obtain ⟨hmem, hsel⟩ := List.mem_filter.mp (List.argmin_mem hx)
  exact ⟨x.2, AList.mem_entries_iff_lookup.mp hmem, of_decide_eq_true hsel⟩

theorem not_member_of_oldest (h : oldest tenantId s = none) (id : Uuid) :
    ¬ primaryDomain.Member s.domains tenantId id := by
  rintro ⟨row, hrow, htenant⟩
  rw [oldest, Option.map_eq_none_iff, List.argmin_eq_none, List.filter_eq_nil_iff] at h
  exact h _ (AList.mem_entries_iff_lookup.mpr hrow) (decide_eq_true htenant)

/-- A row that is there may be written again with another primary flag. -/
theorem Db.KeptBut.indexesAdmit (h : s.KeptBut G) (hrow : s.domains.lookup id = some row)
    (new : TenantDomain) (ht : new.tenantId = row.tenantId) (hd : new.domain = row.domain)
    (hv : new.verified = row.verified) (hprimary : primaryDomain.Admits s.domains id new) :
    Statement.indexesAdmit id new s = true := by
  refine Statement.indexesAdmit_iff.mpr ⟨fun _ k hk => ?_, fun hverified k hk => ?_, hprimary⟩
  · have hgroup : claim.group new = claim.group row := Prod.ext ht hd
    rw [hgroup] at hk
    exact h.claims _ k id hk ⟨row, hrow, rfl, rfl⟩
  · obtain ⟨row', hrow', hsame, -⟩ := hk
    exact h.alone id row hrow (hv.symm.trans hverified) k row' hrow' (hsame.trans hd)

/-- `ensurePrimary` succeeds and settles its shop. -/
theorem succeeds_ensurePrimary (h : s.KeptBut (insert tenantId G)) :
    (ensurePrimary tenantId).Succeeds noAnswer (fun _ s' => s'.KeptBut G ∧ s.Descends s') s := by
  unfold ensurePrimary
  rw [succeeds_query_bind]
  cases hprimary : (primaries tenantId s).head? with
  | some id =>
    have hholder := mem_primaries.mp (List.mem_of_head? hprimary)
    exact ⟨h.descend (.refl s) (h.primary.found hholder), .refl s⟩
  | none =>
    have hnone (id : Uuid) : ¬ primaryDomain.Holder s.domains tenantId id := by
      rw [← mem_primaries, List.head?_eq_none_iff.mp hprimary]
      exact List.not_mem_nil
    change (query _ >>= _ : Sql Unit).Succeeds _ _ _
    rw [succeeds_query_bind]
    cases hfirst : oldest tenantId s with
    | none =>
      exact ⟨h.descend (.refl s) (h.primary.empty (not_member_of_oldest hfirst)), .refl s⟩
    | some id =>
      obtain ⟨row, hrow, htenant⟩ := member_of_oldest hfirst
      -- the oldest domain takes over, and the indexes admit it
      obtain ⟨hadmits, hsettled⟩ :=
        h.primary.designate (r := { row with primary := true }) hnone hrow htenant htenant rfl
      have hindexes := h.indexesAdmit hrow { row with primary := true } rfl rfl rfl hadmits
      refine succeeds_perform.mpr
        ⟨_, Statement.updateDomain_eq_ok.mpr ⟨row, hrow, hindexes, rfl⟩, ?_⟩
      have hdescends := descends_update { row with primary := true } hrow rfl rfl rfl
      exact ⟨h.descend hdescends hsettled, hdescends⟩

/-- `ensurePrimary` for every shop that may have lost its primary domain. -/
theorem succeeds_ensureAll (dropped : List (Uuid × Uuid))
    (h : s.KeptBut {tenantId | tenantId ∈ dropped.map (·.2)}) :
    (forM dropped fun c => ensurePrimary c.2 : Sql PUnit).Succeeds noAnswer
      (fun _ s' => s'.InOrder ∧ s.Descends s') s := by
  induction dropped generalizing s with
  | nil =>
    refine ⟨h.descend (.refl s) (h.primary.mono fun t ht => ?_), .refl s⟩
    simp at ht
  | cons c dropped ih =>
    have hset : {tenantId | tenantId ∈ (c :: dropped).map (·.2)} =
        insert c.2 {tenantId | tenantId ∈ dropped.map (·.2)} := by
      ext t
      simp
    rw [hset] at h
    rw [List.forM_cons, succeeds_bind]
    refine (succeeds_ensurePrimary h).mono fun _ s₁ h₁ => ?_
    exact (ih h₁.1).mono fun _ s₂ h₂ => ⟨h₂.1, h₁.2.trans h₂.2⟩

theorem leaves_updateReturning {change : TenantDomain → TenantDomain}
    {Q : TenantDomain → Db → Prop}
    (h : ∀ row, s.domains.lookup id = some row → Statement.indexesAdmit id (change row) s = true →
      Q (change row) (s.apply (.domainUpdate id (change row)))) :
    (updateReturning id change).Leaves noAnswer Q s := by
  intro new es hrun
  obtain ⟨e, es₁, es₂, hexec, hrest, rfl⟩ := run_bind.mp hrun
  obtain ⟨he, rfl⟩ := runs_execute.mp hexec
  obtain ⟨row, hrow, hadmit, rfl⟩ := Statement.updateDomain_eq_ok.mp he
  obtain ⟨hnew, rfl⟩ := runs_orRaise.mp hrest
  obtain rfl := Option.some.inj hnew
  exact h row hrow hadmit

/-! ### Every request -/

theorem leaves_removeDomain (h : s.InOrder) :
    (WorkspaceService.removeDomain tenantId domainId).Leaves noAnswer
      (fun _ s' => s'.InOrder) s := by
  unfold WorkspaceService.removeDomain
  rw [leaves_query_bind, leaves_orRaise_bind]
  intro row hfound
  obtain ⟨hrow, htenant⟩ := Option.filter_eq_some_iff.mp hfound
  rw [decide_eq_true_eq] at htenant
  refine leaves_perform_bind.mpr fun e he => ?_
  obtain rfl := Statement.deleteDomain_eq_ok he
  have hdeleted : (s.apply (.domainsDelete [domainId])).KeptBut (insert tenantId ∅) := by
    refine h.descend (descends_delete _) ?_
    simp only [Db.apply]
    refine (h.primary.mono (Set.empty_subset _)).keep fun id row' hrow' hother => ?_
    rw [decide_eq_true_eq, List.mem_singleton]
    rintro rfl
    obtain rfl := Option.some.inj (hrow.symm.trans hrow')
    exact hother (.inl htenant)
  exact (succeeds_ensurePrimary hdeleted).leaves.mono fun _ _ h' => h'.1

theorem leaves_addDomain {domain token : String} {now : ℤ} (h : s.InOrder) :
    (WorkspaceService.addDomain tenantId domain id token now).Leaves noAnswer
      (fun _ s' => s'.InOrder) s := by
  unfold WorkspaceService.addDomain
  rw [leaves_query_bind, leaves_require_bind]
  intro htaken
  rw [leaves_mapError, createDomain, leaves_perform_bind]
  intro e he
  obtain ⟨hnew, hadmit, rfl⟩ := Statement.insertDomain_eq_ok he
  obtain ⟨hclaim, -, hprimary⟩ := Statement.indexesAdmit_iff.mp hadmit
  obtain ⟨added, hadded⟩ : ∃ added : TenantDomain,
      added = { tenantId, domain, verificationToken := some token, createdAt := now } := ⟨_, rfl⟩
  rw [← hadded] at hclaim hprimary ⊢
  have hinserted : (s.apply (.domainInsert id added)).KeptBut (insert tenantId ∅) := by
    refine ⟨?_, fun g => (h.claims g).insert hclaim, ?_⟩
    · refine (h.primary.mono (Set.empty_subset _)).write hprimary (.inl ?_) fun row hrow => ?_
      · rw [hadded]
        rfl
      · rw [hnew] at hrow
        cases hrow
    · -- the new domain is not verified, and the name was free among those that are
      intro id₁ row₁ h₁ hverified id₂ row₂ h₂ hsame
      rcases AList.lookup_insert_eq_some.mp h₁ with ⟨-, heq⟩ | ⟨-, hold₁⟩
      · rw [heq, hadded] at hverified
        cases hverified
      rcases AList.lookup_insert_eq_some.mp h₂ with ⟨-, heq⟩ | ⟨-, hold₂⟩
      · rw [heq, hadded] at hsame
        exact absurd hsame.symm (not_verified_of_free htaken hold₁ hverified)
      · exact h.alone id₁ row₁ hold₁ hverified id₂ row₂ hold₂ hsame
  refine Leaves.bind ((succeeds_ensurePrimary hinserted).leaves.mono fun _ s₁ h₁ => ?_)
  rw [leaves_query_bind, leaves_map]
  intro row es hrun
  obtain ⟨-, rfl⟩ := runs_orRaise.mp hrun
  exact h₁.1

theorem leaves_makePrimary (h : s.InOrder) :
    (WorkspaceService.makePrimary tenantId domainId).Leaves noAnswer
      (fun _ s' => s'.InOrder) s := by
  unfold WorkspaceService.makePrimary
  rw [leaves_query_bind, leaves_orRaise_bind]
  intro row hfound
  obtain ⟨hrow, htenant⟩ := Option.filter_eq_some_iff.mp hfound
  rw [decide_eq_true_eq] at htenant
  split_ifs with hprimary
  · exact leaves_ret.mpr h
  · rw [leaves_map, setPrimary, leaves_perform_bind]
    intro e he
    obtain rfl := Except.ok.inj he
    -- for a moment the tenant, and no other, has no primary domain
    have hcleared :
        (s.apply (.domainsUnset (primaries tenantId s))).KeptBut (insert tenantId ∅) := by
      refine h.descend (descends_unset _) ?_
      simp only [Db.apply]
      apply (h.primary.mono (Set.empty_subset _)).mapRows
      · intro id row
        rfl
      · intro id row hflag
        simp only [primaryDomain] at hflag ⊢
        split_ifs at hflag
        exact hflag
      · intro id row hrow hother
        simp only [primaryDomain]
        refine if_neg fun hid => hother (.inl ?_)
        obtain ⟨row', hrow', hgroup, -⟩ := mem_primaries.mp hid
        obtain rfl := Option.some.inj (hrow.symm.trans hrow')
        exact hgroup
    refine leaves_updateReturning fun row' hrow' hadmit => ?_
    have htenant' : row'.tenantId = tenantId := by
      simp only [registry_apply, Db.apply, AList.lookup_mapRows, hrow, Option.map_some,
        Option.some.injEq] at hrow'
      rw [← hrow']
      exact htenant
    obtain ⟨-, -, hadmits⟩ := Statement.indexesAdmit_iff.mp hadmit
    refine hcleared.descend (descends_update _ hrow' rfl rfl rfl) ?_
    have hwritten := hcleared.primary.write hadmits (.inl htenant') fun r hr => by
      obtain rfl := Option.some.inj (hrow'.symm.trans hr)
      exact .inl htenant'
    exact hwritten.found (Designation.holder_insert.mpr (.inl ⟨rfl, htenant', rfl⟩))

/-- The rows of a domain that is being verified, once the claims of the others are gone. -/
theorem eq_of_lookup_dropped {ids : List Uuid} {domain : String}
    (hids : ids = (unverifiedClaims domain domainId s).map (·.1))
    (hfree : ∀ id row, s.domains.lookup id = some row → id ≠ domainId → row.verified = true →
      row.domain ≠ domain)
    (hrow : (s.apply (.domainsDelete ids)).domains.lookup id = some row)
    (hdomain : row.domain = domain) : id = domainId := by
  obtain ⟨hold, hkept⟩ := AList.lookup_keep_eq_some.mp hrow
  rw [decide_eq_true_eq] at hkept
  by_contra hne
  cases hverified : row.verified with
  | true => exact hfree id row hold hne hverified hdomain
  | false =>
    apply hkept
    rw [hids, unverifiedClaims, List.map_map, List.mem_map]
    refine ⟨⟨id, row⟩, List.mem_filter.mpr ⟨AList.mem_entries_iff_lookup.mpr hold, ?_⟩, rfl⟩
    exact decide_eq_true ⟨hdomain, hverified, hne⟩

theorem leaves_verifyDomain {resolveTxt : String → Option (List (List String))} {now : ℤ}
    (h : s.InOrder) :
    (WorkspaceService.verifyDomain tenantId domainId resolveTxt now).Leaves noAnswer
      (fun view s' => s'.InOrder ∧ ∀ id row, s'.domains.lookup id = some row →
        row.domain = view.domain → row.tenantId = tenantId) s := by
  unfold WorkspaceService.verifyDomain
  rw [leaves_query_bind, leaves_orRaise_bind]
  intro existing hfound
  obtain ⟨hrow, htenant⟩ := Option.filter_eq_some_iff.mp hfound
  rw [decide_eq_true_eq] at htenant
  split_ifs with hverified
  · refine leaves_ret.mpr ⟨h, fun id row hid hdomain => ?_⟩
    obtain rfl := h.alone domainId existing hrow hverified id row hid hdomain
    obtain rfl := Option.some.inj (hrow.symm.trans hid)
    exact htenant
  dsimp only
  rw [leaves_require_bind]
  intro _
  rw [leaves_query_bind, leaves_require_bind]
  intro htaken
  rw [leaves_mapError]
  refine Leaves.bind ?_
  refine leaves_updateReturning fun row hrow' hadmit => ?_
  obtain rfl := Option.some.inj (hrow.symm.trans hrow')
  obtain ⟨hclaim, -, -⟩ := Statement.indexesAdmit_iff.mp hadmit
  -- the state with the verified row, and the one without the claims of the others
  obtain ⟨verified, hv⟩ : ∃ verified : TenantDomain,
      verified = { existing with verified := true, verifiedAt := some now } := ⟨_, rfl⟩
  rw [← hv] at hclaim ⊢
  have hname : verified.domain = existing.domain := by rw [hv]
  obtain ⟨s₁, hs₁⟩ : ∃ s₁, s₁ = s.apply (.domainUpdate domainId verified) := ⟨_, rfl⟩
  have hlookup : ∀ id row, s₁.domains.lookup id = some row →
      (id = domainId ∧ row = verified) ∨ (id ≠ domainId ∧ s.domains.lookup id = some row) := by
    intro id row hid
    rw [hs₁] at hid
    exact AList.lookup_insert_eq_some.mp hid
  have hfree : ∀ id row, s₁.domains.lookup id = some row → id ≠ domainId →
      row.verified = true → row.domain ≠ existing.domain := by
    intro id row hid hne hrowVerified
    rcases hlookup id row hid with ⟨heq, -⟩ | ⟨-, hold⟩
    · exact absurd heq hne
    · exact not_verified_of_free htaken hold hrowVerified
  rw [← hs₁, deleteUnverifiedClaims, bind_assoc, leaves_query_bind, bind_assoc]
  refine leaves_perform_bind.mpr fun e he => ?_
  obtain rfl := Except.ok.inj he
  rw [pure_bind]
  generalize hdropped : unverifiedClaims existing.domain domainId s₁ = dropped
  have honly : ∀ id row, (s₁.apply (.domainsDelete (dropped.map (·.1)))).domains.lookup id =
      some row → row.domain = existing.domain → id = domainId := fun id row hid =>
    eq_of_lookup_dropped (by rw [hdropped]) hfree hid
  have hkept : (s₁.apply (.domainsDelete (dropped.map (·.1)))).KeptBut
      {tenantId | tenantId ∈ dropped.map (·.2)} := by
    refine ⟨?_, fun g => ?_, fun id₁ row₁ h₁ hv₁ id₂ row₂ h₂ hsame => ?_⟩
    · have hwritten : primaryDomain.SettledBut s₁.domains ∅ := by
        rw [hs₁]
        exact h.primary.rewrite hrow (by rw [hv]; rfl) (by rw [hv]; rfl)
      simp only [Db.apply]
      refine (hwritten.mono (Set.empty_subset _)).keep fun id row hid hother => ?_
      rw [decide_eq_true_eq, List.mem_map]
      rintro ⟨c, hc, rfl⟩
      -- the shop of a claim that goes is among those that may lose their primary domain
      rw [← hdropped, unverifiedClaims] at hc
      obtain ⟨x, hx, rfl⟩ := List.mem_map.mp hc
      have hx' := AList.mem_entries_iff_lookup.mp (List.mem_filter.mp hx).1
      obtain rfl := Option.some.inj (hx'.symm.trans hid)
      apply hother
      rw [← hdropped]
      exact List.mem_map.mpr ⟨_, hc, rfl⟩
    · have hinserted : claim.AtMostOne s₁.domains g := by
        rw [hs₁]
        exact (h.claims g).insert hclaim
      refine hinserted.of_holders fun id hid => ?_
      obtain ⟨row, hlook, hholds⟩ := hid
      exact ⟨row, (AList.lookup_keep_eq_some.mp hlook).1, hholds⟩
    · have hold₁ := (AList.lookup_keep_eq_some.mp h₁).1
      have hold₂ := (AList.lookup_keep_eq_some.mp h₂).1
      rcases hlookup id₁ row₁ hold₁ with ⟨rfl, rfl⟩ | ⟨hne₁, hold₁⟩
      · exact honly id₂ row₂ h₂ (hsame.trans hname)
      · rcases hlookup id₂ row₂ hold₂ with ⟨rfl, rfl⟩ | ⟨-, hold₂⟩
        · exact absurd (honly id₁ row₁ h₁ (hsame.symm.trans hname)) hne₁
        · exact h.alone id₁ row₁ hold₁ hv₁ id₂ row₂ hold₂ hsame
  refine Leaves.bind ((succeeds_ensureAll dropped hkept).leaves.mono fun _ s₃ h₃ => ?_)
  refine leaves_ret.mpr ⟨h₃.1, fun id row hid hdomain => ?_⟩
  obtain ⟨row₂, hrow₂, ht, hd, -⟩ := h₃.2 id row hid
  have hdomain₂ : row₂.domain = existing.domain := hd.symm.trans (hdomain.trans hname)
  obtain rfl := honly id row₂ hrow₂ hdomain₂
  rcases hlookup id row₂ (AList.lookup_keep_eq_some.mp hrow₂).1 with ⟨-, rfl⟩ | ⟨hne, -⟩
  · rw [ht, hv]
    exact htenant
  · exact absurd rfl hne

/-- Every request keeps the domains in order. -/
theorem leaves_program (r : DomainRequest) (h : s.InOrder) :
    r.program.Leaves noAnswer (fun _ s' => s'.InOrder) s := by
  cases r with
  | add tenantId domain id token now => exact leaves_map.mpr (leaves_addDomain h)
  | makePrimary tenantId domainId => exact leaves_map.mpr (leaves_makePrimary h)
  | verify tenantId domainId resolveTxt now =>
    exact leaves_map.mpr ((leaves_verifyDomain h).mono fun _ _ h' => h'.1)
  | remove tenantId domainId => exact leaves_map.mpr (leaves_removeDomain h)

/-! ### Runs -/

theorem inOrder_empty : Db.InOrder {} where
  primary := ⟨fun _ => Designation.settled_empty.unique, fun _ _ => Designation.settled_empty⟩
  claims _ := Designation.settled_empty.unique
  alone id row h := by simp at h

/-- **Domains.** After any requests of any shops, a shop that has domains has one primary
domain, and a domain is verified for one shop at most. A verification that succeeds leaves no
claim of another shop on the domain, and a request that fails leaves everything as it was. -/
theorem domains_inOrder (requests : List DomainRequest) :
    let s := afterAll noAnswer DomainRequest.program {} requests
    (∀ tenantId id, primaryDomain.Member s.domains tenantId id →
      ∃! id', primaryDomain.Holder s.domains tenantId id') ∧
    (∀ id row id' row', s.domains.lookup id = some row → s.domains.lookup id' = some row' →
      row.domain = row'.domain → row.verified = true → row'.verified = true →
        row.tenantId = row'.tenantId) ∧
    (∀ tenantId domainId resolveTxt now view es,
      Runs noAnswer (WorkspaceService.verifyDomain tenantId domainId resolveTxt now) s view es →
        ∀ id row, (registry.replay es s).domains.lookup id = some row →
          row.domain = view.domain → row.tenantId = tenantId) ∧
    ∀ (r : DomainRequest) (e : Failure), r.program.run noAnswer s = .error e →
      r.program.after noAnswer s = s := by
  intro s
  have hs : s.InOrder := afterAll_induction (fun r s => leaves_program r) inOrder_empty requests
  refine ⟨fun tenantId id hid => ?_, fun id row id' row' hid hid' hsame hv _ => ?_, ?_, ?_⟩
  · exact (hs.primary.settled tenantId (Set.notMem_empty _)).existsUnique hid
  · obtain rfl := hs.alone id row hid hv id' row' hid' hsame.symm
    rw [Option.some.inj (hid.symm.trans hid')]
  · intro tenantId domainId resolveTxt now view es hrun
    exact (leaves_verifyDomain hs view es hrun).2
  · intro r e he
    refine after_of_not_succeeds fun hsucc => ?_
    obtain ⟨a, es, hrun, -⟩ := succeeds_iff.mp hsucc
    rw [show r.program.run noAnswer s = .ok (a, es) from hrun] at he
    cases he

end PulseOps.Domains
