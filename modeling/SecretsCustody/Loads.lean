/-
What the load paths read.  A resolution, and a generation whose correlation has one, find a
version row, and their answer is what opening that row gives.
-/
import SecretsCustody.Tampering

namespace SecretsCustody

open Effect History JsonText KeyedRows

/-! ### Loads -/

/-- The row a load path opens, with what it compares the row with. -/
inductive Load where
  | resolution (row : VersionRow) (intent : Option String)
  | replay (row : VersionRow) (generation : GenerationRow) (intent : String)

def Load.row : Load → VersionRow
  | .resolution row _ => row
  | .replay row _ _ => row

/-- What opening the row answers. -/
def Load.opens (suite : CryptoSuite) (master : MasterKey) : Load → Except Raised Reply
  | .resolution row intent => (resolveRow suite master row intent).map .resolved
  | .replay row generation intent =>
      (regenerated suite master generation row intent true).map .generated

/-- The load of a row a query found. -/
def located (found : Option VersionRow) (load : VersionRow → Load) : Except Raised Load :=
  match found with
  | none => .error .secretMissing
  | some row => .ok (load row)

/-- What an operation loads, or why it loads nothing; `none` for the operations that are no
load path. -/
def Operation.load (tables : Tables) : Operation → Option (Except Raised Load)
  | .resolveSecret workspaceId secretId versionId =>
      some (located (selectRow tables workspaceId secretId versionId)
        fun row => .resolution row none)
  | .resolveSecretForUse args =>
      match tables.selection args.workspaceId args.correlationId with
      | none =>
          some (located (selectRow tables args.workspaceId args.secretId args.versionId)
            fun row => .resolution row (some args.intent))
      | some selection =>
          some do
            raiseIf (¬ args.Agrees selection) .secretResolutionConflict
            located (tables.selectVersion args.workspaceId args.secretId selection.versionId)
              fun row => .resolution row (some args.intent)
  | .generateDelegationKey args =>
      match tables.generation args.workspaceId args.correlationId with
      | none => none
      | some existing =>
          some do
            let intent ← requireDelegationSigningFamily args.purpose args.intent
            raiseIf (¬ args.Agrees existing) .delegationKeyGenerationConflict
            located (tables.selectVersion existing.workspaceId existing.secretId
              existing.versionId) fun row => .replay row existing intent
  | _ => none

section

variable {suite : CryptoSuite} {tables : Tables} {call : Call suite}

/-- What opening a row answers, once its resolution is known. -/
theorem opens_resolution {master : MasterKey} {row : VersionRow} {intent : Option String}
    {result : Except Raised ResolvedSecret} (hresolve : resolveRow suite master row intent = result) :
    Load.opens suite master (.resolution row intent) = result.map .resolved := by
  rw [Load.opens, hresolve]

/-- A resolution answers what opening its row gives. -/
theorem perform_resolveSecret {workspaceId secretId : String} {versionId : Option String}
    (hfaultless : call.env.Faultless)
    (hoperation : call.operation = .resolveSecret workspaceId secretId versionId) :
    (perform tables call).1.result =
      located (selectRow tables workspaceId secretId versionId)
        (fun row => .resolution row none) >>= Load.opens suite call.master := by
  rcases perform_cases tables call with ⟨reply, hresult, hperforms⟩ |
    ⟨raised, hresult, hrefuses, _⟩
  · rw [hoperation] at hperforms
    generalize (perform tables call).2 = after at hperforms
    generalize (perform tables call).1.encryptions = log at hperforms
    cases hperforms with
    | resolved hrow hresolve =>
        rw [hresult, hrow]
        exact (opens_resolution hresolve).symm
  · rw [hoperation] at hrefuses
    cases hrefuses with
    | fault hfault => exact absurd hfault hfaultless.not_faults
    | resolveMissing hrow =>
        rw [hresult, hrow]
        rfl
    | resolveRefused hrow hresolve =>
        rw [hresult, hrow]
        exact (opens_resolution hresolve).symm

/-- A row that was found is found again by its version. -/
theorem selectVersion_of_selectRow {workspaceId secretId : String} {versionId : Option String}
    {row : VersionRow} (hkeys : Unique VersionRow.key tables.versions)
    (hrow : selectRow tables workspaceId secretId versionId = some row) :
    tables.selectVersion workspaceId secretId row.versionId = some row := by
  obtain ⟨hmem, haddress⟩ := selectRow_eq_some hrow
  rw [VersionRow.address, Prod.mk.injEq] at haddress
  apply hkeys.find_eq_some_iff.mpr
  rw [VersionRow.key, haddress.1, haddress.2]
  exact ⟨hmem, rfl⟩

/-- A resolution for use reads its row once to select it and once to open it. -/
theorem perform_resolveSecretForUse {args : ResolveSecretForUse}
    (hkeys : Unique VersionRow.key tables.versions) (hfaultless : call.env.Faultless)
    (hoperation : call.operation = .resolveSecretForUse args) :
    ∃ found, call.operation.load tables = some found ∧
      (perform tables call).1.result = found >>= Load.opens suite call.master := by
  have hfresh : tables.selection args.workspaceId args.correlationId = none →
      call.operation.load tables = some (located
        (selectRow tables args.workspaceId args.secretId args.versionId)
          fun row => .resolution row (some args.intent)) := by
    intro hnone
    simp only [hoperation, Operation.load, hnone]
  have hpinned : ∀ {selection}, tables.selection args.workspaceId args.correlationId =
      some selection → args.Agrees selection → call.operation.load tables = some (located
        (tables.selectVersion args.workspaceId args.secretId selection.versionId)
          fun row => .resolution row (some args.intent)) := by
    intro selection hexisting hagrees
    simp only [hoperation, Operation.load, hexisting, raiseIf, if_neg (not_not.mpr hagrees)]
    rfl
  rcases perform_cases tables call with ⟨reply, hresult, hperforms⟩ |
    ⟨raised, hresult, hrefuses, _⟩
  · rw [hresult]
    rw [hoperation] at hperforms
    generalize (perform tables call).2 = after at hperforms
    generalize (perform tables call).1.encryptions = log at hperforms
    cases hperforms with
    | selected hnone hselected _ _ _ hrow hresolve =>
        rw [selectVersion_of_selectRow hkeys hselected] at hrow
        cases hrow
        refine ⟨_, hfresh hnone, ?_⟩
        rw [hselected]
        exact (opens_resolution hresolve).symm
    | reselected hexisting hagrees hrow hresolve =>
        refine ⟨_, hpinned hexisting hagrees, ?_⟩
        rw [hrow]
        exact (opens_resolution hresolve).symm
  · rw [hresult]
    rw [hoperation] at hrefuses
    cases hrefuses with
    | fault hfault => exact absurd hfault hfaultless.not_faults
    | selectionConflict hexisting hagrees =>
        refine ⟨.error .secretResolutionConflict, ?_, rfl⟩
        simp only [hoperation, Operation.load, hexisting, raiseIf, if_pos hagrees]
        rfl
    | selectionMissing hnone hselected =>
        refine ⟨_, hfresh hnone, ?_⟩
        rw [hselected]
        rfl
    | selectionUnfit hnone hselected hresolve =>
        refine ⟨_, hfresh hnone, ?_⟩
        rw [hselected]
        exact (opens_resolution hresolve).symm
    | selectionRefused hnone hselected hrow hresolve =>
        rw [selectVersion_of_selectRow hkeys hselected] at hrow
        cases hrow
        refine ⟨_, hfresh hnone, ?_⟩
        rw [hselected]
        exact (opens_resolution hresolve).symm
    | pinnedMissing hexisting hagrees hrow =>
        refine ⟨_, hpinned hexisting hagrees, ?_⟩
        rw [hrow]
        rfl
    | pinnedRefused hexisting hagrees hrow hresolve =>
        refine ⟨_, hpinned hexisting hagrees, ?_⟩
        rw [hrow]
        exact (opens_resolution hresolve).symm

/-- A generation of a family that is not admitted stops before its transaction. -/
theorem perform_inadmissible {args : GenerateDelegationKey}
    (hoperation : call.operation = .generateDelegationKey args) {raised : Raised}
    (hfamily : requireDelegationSigningFamily args.purpose args.intent = .error raised) :
    (perform tables call).1.result = .error raised := by
  simp only [perform, Call.program, hoperation, generateDelegationKey, hfamily]
  rfl

/-- A replay answers what verifying its version gives, or why it verifies none. -/
theorem perform_replay {args : GenerateDelegationKey} {existing : GenerationRow}
    (hconsistent : Consistent tables) (haudits : Audits tables call.env)
    (hoperation : call.operation = .generateDelegationKey args)
    (hexisting : tables.generation args.workspaceId args.correlationId = some existing) :
    ∃ found, call.operation.load tables = some found ∧
      (perform tables call).1.result = found >>= Load.opens suite call.master := by
  cases hfamily : requireDelegationSigningFamily args.purpose args.intent with
  | error raised =>
      refine ⟨.error raised, ?_, perform_inadmissible hoperation hfamily⟩
      simp only [hoperation, Operation.load, hexisting, hfamily]
      rfl
  | ok admitted =>
      obtain ⟨hadmitted, rfl⟩ := requireDelegationSigningFamily_eq_ok_iff.mp hfamily
      by_cases hagrees : args.Agrees existing
      · obtain ⟨version, hversion, htarget⟩ := List.mem_map.mp
          (hconsistent.generationVersions existing (mem_of_find hexisting))
        have hselect : tables.selectVersion existing.workspaceId existing.secretId
            existing.versionId = some version :=
          hconsistent.versionKeys.find_eq_some_iff.mpr ⟨hversion, htarget⟩
        refine ⟨.ok (.replay version existing args.intent), ?_, ?_⟩
        · simp only [hoperation, Operation.load, hexisting, hfamily, raiseIf,
            if_neg (not_not.mpr hagrees), hselect]
          rfl
        · exact generate_agreeing hconsistent hoperation hadmitted hexisting hagrees haudits
            hversion htarget
      · obtain ⟨_, raised, hresult, hraised⟩ :=
          generate_conflicting hoperation hadmitted hexisting hagrees
        refine ⟨.error .delegationKeyGenerationConflict, ?_, ?_⟩
        · simp only [hoperation, Operation.load, hexisting, hfamily, raiseIf, if_pos hagrees]
          rfl
        · rw [hresult, hraised haudits]
          rfl

/-- A load path answers what opening its row gives, or why it has none. -/
theorem perform_load {found : Except Raised Load} (hconsistent : Consistent tables)
    (haudits : Audits tables call.env) (hload : call.operation.load tables = some found) :
    (perform tables call).1.result = found >>= Load.opens suite call.master := by
  have hsame : ∀ {result}, (∃ found', call.operation.load tables = some found' ∧
      result = found' >>= Load.opens suite call.master) →
        result = found >>= Load.opens suite call.master := by
    rintro result ⟨found', hfound', hresult⟩
    rw [hload] at hfound'
    cases hfound'
    exact hresult
  cases hoperation : call.operation with
  | resolveSecret workspaceId secretId versionId =>
      rw [hoperation] at hload
      cases hload
      exact perform_resolveSecret haudits.1 hoperation
  | resolveSecretForUse args =>
      exact hsame (perform_resolveSecretForUse hconsistent.versionKeys haudits.1 hoperation)
  | generateDelegationKey args =>
      cases hexisting : tables.generation args.workspaceId args.correlationId with
      | none =>
          simp only [hoperation, Operation.load, hexisting] at hload
          cases hload
      | some existing => exact hsame (perform_replay hconsistent haudits hoperation hexisting)
  | createSecret => simp [hoperation, Operation.load] at hload
  | rotateSecret => simp [hoperation, Operation.load] at hload
  | revokeSecret => simp [hoperation, Operation.load] at hload
  | revokeSecretVersion => simp [hoperation, Operation.load] at hload
  | metadata => simp [hoperation, Operation.load] at hload

end

/-! ### Tampered tables -/

/-- Any columns of any version rows were written over, and nothing else. -/
structure Tampered (tables tables' : Tables) : Prop where
  versions : List.Forall₂ Rewritten tables.versions tables'.versions
  selections : tables'.selections = tables.selections
  generations : tables'.generations = tables.generations
  revocations : tables'.revocations = tables.revocations
  auditRecords : tables'.auditRecords = tables.auditRecords

/-- The same load of a row that was written over. -/
inductive Load.Rewritten : Load → Load → Prop
  | resolution {row row' : VersionRow} {intent : Option String}
      (hrow : SecretsCustody.Rewritten row row') :
      Load.Rewritten (.resolution row intent) (.resolution row' intent)
  | replay {row row' : VersionRow} {generation : GenerationRow} {intent : String}
      (hrow : SecretsCustody.Rewritten row row') :
      Load.Rewritten (.replay row generation intent) (.replay row' generation intent)

section

variable {tables tables' : Tables}

theorem Tampered.keys_eq (htampered : Tampered tables tables') :
    tables'.versions.map VersionRow.key = tables.versions.map VersionRow.key :=
  map_eq_of_related htampered.versions fun _ _ => Rewritten.key

theorem Tampered.consistent (htampered : Tampered tables tables')
    (hconsistent : Consistent tables) : Consistent tables' := by
  have hnumbers : tables'.versions.map VersionRow.numberKey =
      tables.versions.map VersionRow.numberKey :=
    map_eq_of_related htampered.versions fun _ _ => Rewritten.numberKey
  constructor
  · rw [KeyedRows.Unique, htampered.keys_eq]
    exact hconsistent.versionKeys
  · rw [KeyedRows.Unique, hnumbers]
    exact hconsistent.numberKeys
  · rw [htampered.selections]
    exact hconsistent.selectionKeys
  · rw [htampered.generations]
    exact hconsistent.generationKeys
  · rw [htampered.generations]
    exact hconsistent.generationAddresses
  · rw [htampered.revocations]
    exact hconsistent.revocationKeys
  · rw [htampered.revocations]
    exact hconsistent.revocationTargets
  · rw [htampered.auditRecords]
    exact hconsistent.eventIds
  · rw [htampered.selections, htampered.keys_eq]
    exact hconsistent.selectionVersions
  · rw [htampered.generations, htampered.keys_eq]
    exact hconsistent.generationVersions
  · rw [htampered.revocations, htampered.keys_eq]
    exact hconsistent.revocationVersions

/-- A row that was written over is found where it was. -/
theorem Tampered.selectRow (htampered : Tampered tables tables') (workspaceId secretId : String)
    (versionId : Option String) :
    Option.Rel Rewritten (SecretsCustody.selectRow tables workspaceId secretId versionId)
      (SecretsCustody.selectRow tables' workspaceId secretId versionId) := by
  cases versionId with
  | some versionId =>
      exact find_related htampered.versions (fun _ _ => Rewritten.key) _
  | none =>
      apply latest_related htampered.versions _ fun _ _ => Rewritten.versionNumber
      intro row row' hrow
      rw [hrow.address]

theorem located_rewritten {found found' : Option VersionRow} {load : VersionRow → Load}
    (hfound : Option.Rel Rewritten found found')
    (hload : ∀ {row row'}, Rewritten row row' → (load row).Rewritten (load row')) :
    Alike Load.Rewritten (located found load) (located found' load) := by
  cases hfound with
  | none => rfl
  | some hrow => exact hload hrow

/-- An operation loads the same rows from the tampered tables, or raises alike. -/
theorem Tampered.load (htampered : Tampered tables tables') (operation : Operation) :
    Option.Rel (Alike Load.Rewritten) (operation.load tables) (operation.load tables') := by
  have hguarded : ∀ {condition : Prop} [Decidable condition] {raised : Raised}
      {found found' : Except Raised Load}, Alike Load.Rewritten found found' →
      Alike Load.Rewritten (do raiseIf condition raised; found)
        (do raiseIf condition raised; found') := by
    intro condition _ raised found found' halike
    by_cases hcondition : condition
    · simp only [raiseIf, if_pos hcondition]
      rfl
    · simp only [raiseIf, if_neg hcondition]
      exact halike
  cases operation with
  | resolveSecret workspaceId secretId versionId =>
      exact .some (located_rewritten (htampered.selectRow _ _ _) .resolution)
  | resolveSecretForUse args =>
      simp only [Operation.load, Tables.selection, htampered.selections]
      split
      · exact .some (located_rewritten (htampered.selectRow _ _ _) .resolution)
      · next selection _ =>
          have hpinned := htampered.selectRow args.workspaceId args.secretId
            (some selection.versionId)
          exact .some (hguarded (located_rewritten hpinned .resolution))
  | generateDelegationKey args =>
      simp only [Operation.load, Tables.generation, htampered.generations]
      split
      · exact .none
      · next existing _ =>
          have hversion := htampered.selectRow existing.workspaceId existing.secretId
            (some existing.versionId)
          cases requireDelegationSigningFamily args.purpose args.intent with
          | error raised => exact .some rfl
          | ok intent => exact .some (hguarded (located_rewritten hversion .replay))
  | createSecret => exact .none
  | rotateSecret => exact .none
  | revokeSecret => exact .none
  | revokeSecretVersion => exact .none
  | metadata => exact .none

/-- The tables hold what is loaded from them. -/
def Load.Found (tables : Tables) : Load → Prop
  | .resolution row _ => row ∈ tables.versions
  | .replay row generation _ =>
      row ∈ tables.versions ∧ generation ∈ tables.generations ∧ row.key = generation.target

theorem load_found {operation : Operation} {load : Load}
    (hload : operation.load tables = some (.ok load)) : load.Found tables := by
  have hlocated : ∀ {found : Option VersionRow} {wrap : VersionRow → Load},
      located found wrap = .ok load → (∀ row, found = some row → (wrap row).Found tables) →
        load.Found tables := by
    intro found wrap hfound hwrap
    cases found with
    | none => cases hfound
    | some row =>
        cases hfound
        exact hwrap row rfl
  cases operation with
  | resolveSecret workspaceId secretId versionId =>
      apply hlocated (Option.some.inj hload)
      intro row hrow
      exact (selectRow_eq_some hrow).1
  | resolveSecretForUse args =>
      simp only [Operation.load] at hload
      split at hload
      · apply hlocated (Option.some.inj hload)
        intro row hrow
        exact (selectRow_eq_some hrow).1
      · obtain ⟨_, _, hlocate⟩ := bind_eq_ok.mp (Option.some.inj hload)
        apply hlocated hlocate
        intro row hrow
        exact (Tables.selectVersion_eq_some hrow).1
  | generateDelegationKey args =>
      simp only [Operation.load] at hload
      split at hload
      · cases hload
      · next existing hexisting =>
          obtain ⟨intent, _, hguarded⟩ := bind_eq_ok.mp (Option.some.inj hload)
          obtain ⟨_, _, hlocate⟩ := bind_eq_ok.mp hguarded
          apply hlocated hlocate
          intro row hrow
          obtain ⟨hmem, hkey⟩ := Tables.selectVersion_eq_some hrow
          exact ⟨hmem, mem_of_find hexisting, hkey⟩
  | createSecret => cases hload
  | rotateSecret => cases hload
  | revokeSecret => cases hload
  | revokeSecretVersion => cases hload
  | metadata => cases hload

end

end SecretsCustody
