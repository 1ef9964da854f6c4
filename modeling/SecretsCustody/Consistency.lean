/-
The constraints of the schema as an invariant: unique keys, and every row of
the other tables refers to a version row that is there.
-/
import SecretsCustody.StoreEffects

namespace SecretsCustody

structure Consistent (tables : Tables) : Prop where
  versionKeys : KeyedRows.Unique VersionRow.key tables.versions
  numberKeys : KeyedRows.Unique VersionRow.numberKey tables.versions
  selectionKeys : KeyedRows.Unique SelectionRow.key tables.selections
  generationKeys : KeyedRows.Unique GenerationRow.key tables.generations
  generationAddresses : KeyedRows.Unique GenerationRow.address tables.generations
  revocationKeys : KeyedRows.Unique RevocationRow.key tables.revocations
  revocationTargets : KeyedRows.Unique RevocationRow.target tables.revocations
  eventIds : KeyedRows.Unique AuditRecord.eventId tables.auditRecords
  selectionVersions : ∀ row ∈ tables.selections,
    row.target ∈ tables.versions.map VersionRow.key
  generationVersions : ∀ row ∈ tables.generations,
    row.target ∈ tables.versions.map VersionRow.key
  revocationVersions : ∀ row ∈ tables.revocations,
    row.target ∈ tables.versions.map VersionRow.key

theorem consistent_empty : Consistent Tables.empty := by
  constructor <;> first | exact KeyedRows.unique_nil | (intro row hrow; cases hrow)

theorem RecordAdded.consistent {record : AuditRecord} {before after : Tables}
    (hadded : RecordAdded record before after) (hconsistent : Consistent before) :
    Consistent after := by
  obtain ⟨rfl, hfresh⟩ := hadded
  exact { hconsistent with
    eventIds := hconsistent.eventIds.append_fresh (KeyedRows.fresh_singleton hfresh) }

section

variable {suite : CryptoSuite} {env : Env suite} {master : MasterKey}
variable {before after : Tables} {operation : Operation} {reply : Reply}
variable {log : List Encryption} {row row' : VersionRow} {written : List SecretMetadata}

/-! ### Version rows -/

/-- The columns no operation rewrites. -/
structure SameVersion (row row' : VersionRow) : Prop where
  workspaceId : row'.workspaceId = row.workspaceId
  secretId : row'.secretId = row.secretId
  versionId : row'.versionId = row.versionId
  versionNumber : row'.versionNumber = row.versionNumber
  algorithm : row'.algorithm = row.algorithm
  keyFingerprint : row'.keyFingerprint = row.keyFingerprint
  keyVersion : row'.keyVersion = row.keyVersion
  labelsJson : row'.labelsJson = row.labelsJson
  createdAt : row'.createdAt = row.createdAt
  limits : row'.limits = row.limits

theorem SameVersion.refl (row : VersionRow) : SameVersion row row :=
  ⟨rfl, rfl, rfl, rfl, rfl, rfl, rfl, rfl, rfl, rfl⟩

theorem SameVersion.key (hsame : SameVersion row row') : row'.key = row.key := by
  simp only [VersionRow.key, hsame.workspaceId, hsame.secretId, hsame.versionId]

theorem SameVersion.numberKey (hsame : SameVersion row row') :
    row'.numberKey = row.numberKey := by
  simp only [VersionRow.numberKey, hsame.workspaceId, hsame.secretId, hsame.versionNumber]

theorem SameVersion.address (hsame : SameVersion row row') : row'.address = row.address := by
  simp only [VersionRow.address, hsame.workspaceId, hsame.secretId]

theorem RowStep.sameVersion (hstep : RowStep env master written log row row') :
    SameVersion row row' := by
  cases hstep with
  | same => exact SameVersion.refl row
  | resealed => exact ⟨rfl, rfl, rfl, rfl, rfl, rfl, rfl, rfl, rfl, rfl⟩

/-- A row changes only by being revoked. -/
theorem RowStep.eq_or_revoked (hstep : RowStep env master written log row row') :
    row' = row ∨ row.status = SecretStatus.active.value ∧
      row'.status = SecretStatus.revoked.value := by
  cases hstep with
  | same => exact .inl rfl
  | resealed hmetadata hactive =>
      refine .inr ⟨?_, rfl⟩
      rw [(metadataFromRow_describes hmetadata).status, hactive]

/-- The keys of the version rows only grow. -/
theorem VersionsEffect.keys (heffect : VersionsEffect env master before operation reply after log) :
    ∃ added, after.versions.map VersionRow.key = before.versions.map VersionRow.key ++ added := by
  rcases heffect.rows with ⟨change, added, hrows, hsteps, _⟩
  refine ⟨added.map VersionRow.key, ?_⟩
  rw [hrows, List.map_append, List.map_map]
  congr 1
  apply List.map_congr_left
  intro row hrow
  exact (hsteps row hrow).sameVersion.key

theorem VersionsEffect.versionKeys
    (heffect : VersionsEffect env master before operation reply after log)
    (hunique : KeyedRows.Unique VersionRow.key before.versions) :
    KeyedRows.Unique VersionRow.key after.versions := by
  rcases heffect.rows with ⟨change, added, hrows, hsteps, hadded⟩
  rw [hrows]
  apply hunique.map_append_fresh fun row hrow => (hsteps row hrow).sameVersion.key
  cases hadded with
  | none => exact KeyedRows.fresh_nil
  | one hinserted hwritten hmetadata hclean hseals hkey hlog hfresh =>
      exact KeyedRows.fresh_singleton hfresh

theorem VersionsEffect.numberKeys
    (heffect : VersionsEffect env master before operation reply after log)
    (hunique : KeyedRows.Unique VersionRow.numberKey before.versions) :
    KeyedRows.Unique VersionRow.numberKey after.versions := by
  rcases heffect.rows with ⟨change, added, hrows, hsteps, hadded⟩
  rw [hrows]
  apply hunique.map_append_fresh fun row hrow => (hsteps row hrow).sameVersion.numberKey
  cases hadded with
  | none => exact KeyedRows.fresh_nil
  | one hinserted hwritten hmetadata hclean hseals hkey hlog hfresh hnumber =>
      subst hmetadata
      exact KeyedRows.fresh_singleton hnumber

/-! ### The other tables -/

/-- What a call that returned appended to the other tables: at most one row to
each, under fresh keys. -/
structure RowsAppended (before after : Tables) (selections : List SelectionRow)
    (generations : List GenerationRow) (revocations : List RevocationRow)
    (auditRecords : List AuditRecord) : Prop where
  selectionsAre : after.selections = before.selections ++ selections
  generationsAre : after.generations = before.generations ++ generations
  revocationsAre : after.revocations = before.revocations ++ revocations
  auditRecordsAre : after.auditRecords = before.auditRecords ++ auditRecords
  selectionKeys : KeyedRows.Fresh SelectionRow.key before.selections selections
  generationKeys : KeyedRows.Fresh GenerationRow.key before.generations generations
  generationAddresses : KeyedRows.Fresh GenerationRow.address before.generations generations
  revocationKeys : KeyedRows.Fresh RevocationRow.key before.revocations revocations
  revocationTargets : KeyedRows.Fresh RevocationRow.target before.revocations revocations
  eventIds : KeyedRows.Fresh AuditRecord.eventId before.auditRecords auditRecords
  selectionVersions : ∀ row ∈ selections, row.target ∈ after.versions.map VersionRow.key
  generationVersions : ∀ row ∈ generations, row.target ∈ after.versions.map VersionRow.key
  revocationVersions : ∀ row ∈ revocations, row.target ∈ after.versions.map VersionRow.key

theorem Inserts.others {workspaceId secretId : String} {value : Bytes} {labels : TextDict}
    {versionNumber : Int} {metadata : SecretMetadata} {log' : List Encryption}
    (hinsert : Inserts env master workspaceId secretId value labels versionNumber before log
      metadata after log') :
    after.selections = before.selections ∧ after.generations = before.generations ∧
      after.revocations = before.revocations ∧ after.auditRecords = before.auditRecords := by
  cases hinsert
  exact ⟨rfl, rfl, rfl, rfl⟩

theorem Revokes.others {revokedAt : String} {metadata : SecretMetadata} {log' : List Encryption}
    (hrevokes : Revokes env master row revokedAt before log metadata after log') :
    after.selections = before.selections ∧ after.generations = before.generations ∧
      after.revocations = before.revocations ∧ after.auditRecords = before.auditRecords := by
  cases hrevokes
  exact ⟨rfl, rfl, rfl, rfl⟩

theorem RevokesEach.others {revokedAt : String} {rows : List VersionRow}
    {revoked : List SecretMetadata} {log' : List Encryption}
    (heach : RevokesEach env master revokedAt rows before log revoked after log') :
    after.selections = before.selections ∧ after.generations = before.generations ∧
      after.revocations = before.revocations ∧ after.auditRecords = before.auditRecords := by
  induction heach with
  | nil => exact ⟨rfl, rfl, rfl, rfl⟩
  | kept _ _ _ ih => exact ih
  | changed _ _ hrevokes _ ih =>
      obtain ⟨hselections, hgenerations, hrevocations, hrecords⟩ := hrevokes.others
      rwa [hselections, hgenerations, hrevocations, hrecords] at ih

open KeyedRows in
theorem rowsAppended_none (hselections : after.selections = before.selections)
    (hgenerations : after.generations = before.generations)
    (hrevocations : after.revocations = before.revocations)
    (hrecords : after.auditRecords = before.auditRecords) :
    RowsAppended before after [] [] [] [] where
  selectionsAre := by rw [hselections, List.append_nil]
  generationsAre := by rw [hgenerations, List.append_nil]
  revocationsAre := by rw [hrevocations, List.append_nil]
  auditRecordsAre := by rw [hrecords, List.append_nil]
  selectionKeys := fresh_nil
  generationKeys := fresh_nil
  generationAddresses := fresh_nil
  revocationKeys := fresh_nil
  revocationTargets := fresh_nil
  eventIds := fresh_nil
  selectionVersions := fun _ hrow => by cases hrow
  generationVersions := fun _ hrow => by cases hrow
  revocationVersions := fun _ hrow => by cases hrow

open KeyedRows in
/-- At most one row goes into each of the other tables. -/
theorem Performs.rowsAppended
    (hperforms : Performs env master before operation reply after log) :
    ∃ selections generations revocations auditRecords,
      RowsAppended before after selections generations revocations auditRecords := by
  cases hperforms with
  | created hinsert =>
      obtain ⟨hselections, hgenerations, hrevocations, hrecords⟩ := hinsert.others
      exact ⟨[], [], [], [], rowsAppended_none hselections hgenerations hrevocations hrecords⟩
  | rotated hlatest hmetadata hintent hinsert =>
      obtain ⟨hselections, hgenerations, hrevocations, hrecords⟩ := hinsert.others
      exact ⟨[], [], [], [], rowsAppended_none hselections hgenerations hrevocations hrecords⟩
  | revoked hrows hrevokes =>
      obtain ⟨hselections, hgenerations, hrevocations, hrecords⟩ := hrevokes.others
      exact ⟨[], [], [], [], rowsAppended_none hselections hgenerations hrevocations hrecords⟩
  | @revokedVersion args row metadata revoked middle _ hfresh htarget hrow hmetadata hnumber
      hstatus hrevokes hevent =>
      obtain ⟨hselections, hgenerations, hrevocations, hrecords⟩ := hrevokes.others
      have hkeys := Tables.mem_keys_of_selectVersion hrow
      have hnone := rowsAppended_none hselections hgenerations hrevocations hrecords
      refine ⟨[], [], [revocationRow args env.now], [revocationRecord suite env args revoked
        "revoked" "secret-version-revoked"], { hnone with
        revocationsAre := by rw [hrevocations]
        auditRecordsAre := by rw [hrecords]
        revocationKeys := fresh_singleton (find_eq_none_iff.mp hfresh)
        revocationTargets := fresh_singleton (find_eq_none_iff.mp htarget)
        eventIds := fresh_singleton hevent
        revocationVersions := ?_ }⟩
      intro row hmem
      rw [List.mem_singleton.mp hmem]
      cases hrevokes
      change _ ∈ List.map _ (Tables.updateVersion _ _ _ _ _ _).versions
      rw [Tables.updateVersion_keys]
      exact hkeys
  | revocationReplayed hexisting hagrees hrow hmetadata hnumber hstatus hevent =>
      exact ⟨[], [], [], _, { rowsAppended_none rfl rfl rfl rfl with
        auditRecordsAre := rfl
        eventIds := fresh_singleton hevent }⟩
  | @generated args keyId metadata middle _ hadmitted hfresh hkeyId hinsert haddress hevent =>
      obtain ⟨hselections, hgenerations, hrevocations, hrecords⟩ := hinsert.others
      have hnone := rowsAppended_none hselections hgenerations hrevocations hrecords
      refine ⟨[], [generationRow args metadata keyId (suite.publicPem env.privateKey)], [],
        [generationRecord suite env args metadata.versionId args.intent "generated"
          "delegation-key-generated"], { hnone with
        generationsAre := by rw [hgenerations]
        auditRecordsAre := by rw [hrecords]
        generationKeys := fresh_singleton (find_eq_none_iff.mp hfresh)
        generationAddresses := fresh_singleton haddress
        eventIds := fresh_singleton hevent
        generationVersions := ?_ }⟩
      intro row hmem
      rw [List.mem_singleton.mp hmem]
      exact hinsert.mem_keys
  | generationReplayed hadmitted hexisting hagrees hrow hkey hevent =>
      exact ⟨[], [], [], _, { rowsAppended_none rfl rfl rfl rfl with
        auditRecordsAre := rfl
        eventIds := fresh_singleton hevent }⟩
  | selected hfresh hselected hmetadata hstatus hintent hrow hresolve =>
      refine ⟨_, [], [], [], { rowsAppended_none rfl rfl rfl rfl with
        selectionsAre := rfl
        selectionKeys := fresh_singleton (find_eq_none_iff.mp hfresh)
        selectionVersions := ?_ }⟩
      intro row hmem
      rw [List.mem_singleton.mp hmem]
      exact Tables.mem_keys_of_selectVersion hrow
  | resolved => exact ⟨[], [], [], [], rowsAppended_none rfl rfl rfl rfl⟩
  | reselected => exact ⟨[], [], [], [], rowsAppended_none rfl rfl rfl rfl⟩
  | described => exact ⟨[], [], [], [], rowsAppended_none rfl rfl rfl rfl⟩

/-- A reference into the version rows stays good when rows are added. -/
theorem refers_append {ρ : Type} {target : ρ → String × String × String} {rows added : List ρ}
    (heffect : VersionsEffect env master before operation reply after log)
    (hold : ∀ row ∈ rows, target row ∈ before.versions.map VersionRow.key)
    (hnew : ∀ row ∈ added, target row ∈ after.versions.map VersionRow.key) :
    ∀ row ∈ rows ++ added, target row ∈ after.versions.map VersionRow.key := by
  intro row hrow
  rcases List.mem_append.mp hrow with hrow | hrow
  · rcases heffect.keys with ⟨keys, hkeys⟩
    rw [hkeys]
    exact List.mem_append_left _ (hold row hrow)
  · exact hnew row hrow

/-- A call that returned keeps the constraints. -/
theorem Performs.consistent (hperforms : Performs env master before operation reply after log)
    (hconsistent : Consistent before) : Consistent after := by
  have heffect := hperforms.versionsEffect hconsistent.versionKeys
  rcases hperforms.rowsAppended with ⟨selections, generations, revocations, records, happended⟩
  constructor
  · exact heffect.versionKeys hconsistent.versionKeys
  · exact heffect.numberKeys hconsistent.numberKeys
  · rw [happended.selectionsAre]
    exact hconsistent.selectionKeys.append_fresh happended.selectionKeys
  · rw [happended.generationsAre]
    exact hconsistent.generationKeys.append_fresh happended.generationKeys
  · rw [happended.generationsAre]
    exact hconsistent.generationAddresses.append_fresh happended.generationAddresses
  · rw [happended.revocationsAre]
    exact hconsistent.revocationKeys.append_fresh happended.revocationKeys
  · rw [happended.revocationsAre]
    exact hconsistent.revocationTargets.append_fresh happended.revocationTargets
  · rw [happended.auditRecordsAre]
    exact hconsistent.eventIds.append_fresh happended.eventIds
  · rw [happended.selectionsAre]
    exact refers_append heffect hconsistent.selectionVersions happended.selectionVersions
  · rw [happended.generationsAre]
    exact refers_append heffect hconsistent.generationVersions happended.generationVersions
  · rw [happended.revocationsAre]
    exact refers_append heffect hconsistent.revocationVersions happended.revocationVersions

end

/-- Every call keeps the constraints. -/
theorem perform_consistent {suite : CryptoSuite} {tables : Tables} (call : Call suite)
    (hconsistent : Consistent tables) : Consistent (perform tables call).2 := by
  rcases perform_cases tables call with ⟨reply, _, hperforms⟩ | ⟨raised, _, _, hsame⟩
  · exact hperforms.consistent hconsistent
  · rwa [hsame]

end SecretsCustody
