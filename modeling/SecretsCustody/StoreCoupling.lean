/-
The store's operations on two databases that differ in written values only:
they end alike, and the databases still differ in written values only.
-/
import SecretsCustody.LowEquality

namespace SecretsCustody

open Effect JsonText

section

variable {suite : CryptoSuite} {env : Env suite} {master : MasterKey}
variable {tables tables' : Tables}

/-- What two operations that return leave: one answer, and databases that still differ in
written values only. -/
def LowReturns {α : Type} (suite : CryptoSuite) (master : MasterKey) (value value' : α)
    (after after' : Tables) : Prop :=
  value' = value ∧ LowTables suite master after after'

/-- Rows written with two values. -/
theorem versionRow_lowRow (hsuite : suite.DecryptsOwn) {metadata : SecretMetadata}
    (htext : metadata.labels.IsText) (halgorithm : metadata.algorithm = algorithm)
    (hfingerprint : metadata.keyFingerprint = master.fingerprint suite)
    {nonce value value' ciphertext ciphertext' : Bytes}
    (hvalues : value' = value ∨ value.length ≤ maxSecretBytes ∧ value'.length ≤ maxSecretBytes)
    (hencrypt : master.encrypt suite nonce value (aad metadata) = .ok ciphertext)
    (hencrypt' : master.encrypt suite nonce value' (aad metadata) = .ok ciphertext') :
    LowRow suite master (versionRow metadata nonce ciphertext)
        (versionRow metadata nonce ciphertext') ∧
      (value' = value → versionRow metadata nonce ciphertext' =
        versionRow metadata nonce ciphertext) := by
  have hsame : value' = value → versionRow metadata nonce ciphertext' =
      versionRow metadata nonce ciphertext := by
    rintro rfl
    rw [hencrypt] at hencrypt'
    cases hencrypt'
    rfl
  refine ⟨⟨rfl, ?_⟩, hsame⟩
  rcases hvalues with heq | ⟨hbound, hbound'⟩
  · exact .inl (hsame heq)
  · exact .inr ⟨⟨value, decryptRow_versionRow hsuite rfl htext halgorithm hfingerprint hencrypt,
      hbound⟩, value', decryptRow_versionRow hsuite rfl htext halgorithm hfingerprint hencrypt',
      hbound'⟩

theorem insertVersion_coupled (hsuite : suite.DecryptsOwn) (hcipher : EncryptsAlike suite master)
    (hlow : LowTables suite master tables tables') (workspaceId secretId : String)
    {value value' : Bytes} (hvalues : value' = value ∨
      value.length ≤ maxSecretBytes ∧ value'.length ≤ maxSecretBytes) (labels : TextDict)
    (versionNumber : Int) :
    Coupled (insertVersion suite env master workspaceId secretId value labels versionNumber)
      (insertVersion suite env master workspaceId secretId value' labels versionNumber)
      tables tables'
      (fun metadata metadata' after after' =>
        LowReturns suite master metadata metadata' after after' ∧
          (value' = value → ∀ found ∈ after.versions,
            found.key = (workspaceId, secretId, metadata.versionId) → found ∈ after'.versions))
      (fun _ _ => True) := by
  apply Coupled.bind
  refine coupled_ofExcept (Alike.refl fun clean hclean => ?_) trivial
  apply Coupled.bind
  apply coupled_urandom
  intro nonce _
  apply Coupled.bind
  refine coupled_encrypt ((encrypt_alike hcipher hvalues).mono ?_) trivial
  rintro ciphertext ciphertext' ⟨hencrypt, hencrypt'⟩
  apply Coupled.bind
  refine coupled_raiseIf Iff.rfl (fun _ => ?_) trivial
  obtain ⟨hrow, hsame⟩ := versionRow_lowRow hsuite (cleanLabels_isText hclean) rfl rfl hvalues
    hencrypt hencrypt'
  apply Coupled.bind
  apply coupled_mapRaised
  refine coupled_execute ((hlow.insertVersion hrow).mono ?_) trivial
  rintro after after' ⟨hafter, hkept⟩
  exact coupled_pure ⟨⟨rfl, hafter⟩, fun heq => hkept (hsame heq)⟩

theorem createSecret_coupled (hsuite : suite.DecryptsOwn) (hcipher : EncryptsAlike suite master)
    (hlow : LowTables suite master tables tables') (workspaceId secretId : String)
    {value value' : Bytes} (hbound : value.length ≤ maxSecretBytes)
    (hbound' : value'.length ≤ maxSecretBytes) (labels : TextDict) :
    Coupled (createSecret suite env master workspaceId secretId value labels)
      (createSecret suite env master workspaceId secretId value' labels) tables tables'
      (LowReturns suite master) (LowTables suite master) := by
  refine coupled_connection ?_ hlow
  refine Coupled.bind (coupled_statement ?_ trivial)
  exact (insertVersion_coupled hsuite hcipher hlow workspaceId secretId
    (.inr ⟨hbound, hbound'⟩) labels 1).mono (fun _ _ _ _ hends => hends.1) fun _ _ hends => hends

theorem rotateSecret_coupled (hsuite : suite.DecryptsOwn) (hcipher : EncryptsAlike suite master)
    (hlow : LowTables suite master tables tables') (workspaceId secretId : String)
    {value value' : Bytes} (hbound : value.length ≤ maxSecretBytes)
    (hbound' : value'.length ≤ maxSecretBytes) (labels : TextDict)
    (expectedIntent : Option String) :
    Coupled (rotateSecret suite env master workspaceId secretId value labels expectedIntent)
      (rotateSecret suite env master workspaceId secretId value' labels expectedIntent)
      tables tables' (LowReturns suite master) (LowTables suite master) := by
  refine coupled_connection ?_ hlow
  refine Coupled.bind (coupled_statement ?_ trivial)
  refine Coupled.bind (coupled_query ?_ trivial)
  generalize hlatest : tables.latestVersion workspaceId secretId = latest
  generalize hlatest' : tables'.latestVersion workspaceId secretId = latest'
  have hrel := hlow.latestVersion workspaceId secretId
  rw [hlatest, hlatest'] at hrel
  cases hrel with
  | none => exact coupled_throw trivial
  | @some row row' hrow =>
      dsimp only
      rw [hrow.metadata, hrow.versionNumber]
      apply Coupled.bind
      refine coupled_ofExcept (Alike.refl fun metadata _ => ?_) trivial
      apply Coupled.bind
      refine coupled_raiseIf Iff.rfl (fun _ => ?_) trivial
      exact (insertVersion_coupled hsuite hcipher hlow workspaceId secretId
        (.inr ⟨hbound, hbound'⟩) labels (row.versionNumber + 1)).mono
        (fun _ _ _ _ hends => hends.1) fun _ _ hends => hends

/-! ### Revocation -/

/-- A row of one database and its counterpart in the other. -/
structure LowPair (suite : CryptoSuite) (master : MasterKey) (tables tables' : Tables)
    (row row' : VersionRow) : Prop where
  low : LowRow suite master row row'
  stored : row ∈ tables.versions
  stored' : row' ∈ tables'.versions

theorem selectRow_pair (hlow : LowTables suite master tables tables')
    (workspaceId secretId : String) (versionId : Option String) :
    Option.Rel (LowPair suite master tables tables')
      (selectRow tables workspaceId secretId versionId)
      (selectRow tables' workspaceId secretId versionId) := by
  have hrel := hlow.selectRow workspaceId secretId versionId
  generalize hrow : selectRow tables workspaceId secretId versionId = found at hrel ⊢
  generalize hrow' : selectRow tables' workspaceId secretId versionId = found' at hrel ⊢
  cases hrel with
  | none => exact .none
  | some hlowRow =>
      exact .some ⟨hlowRow, (selectRow_eq_some hrow).1, (selectRow_eq_some hrow').1⟩

/-- Every other row is still in its table. -/
def KeepsOthers (row : VersionRow) (tables after : Tables) : Prop :=
  ∀ other ∈ tables.versions, other.key ≠ row.key → other ∈ after.versions

theorem updateVersion_keepsOthers (row : VersionRow) (tables : Tables) (status : String)
    (nonce ciphertext : SqlValue) (revokedAt : Option String) :
    KeepsOthers row tables
      (tables.updateVersion row.key status nonce ciphertext revokedAt) := by
  intro other hother hkey
  exact List.mem_map.mpr ⟨other, hother, if_neg hkey⟩

theorem revokeRow_coupled (hsuite : suite.DecryptsOwn) (hcipher : EncryptsAlike suite master)
    (hlow : LowTables suite master tables tables') {row row' : VersionRow}
    (hpair : LowPair suite master tables tables' row row') (revokedAt : String) :
    Coupled (revokeRow suite env master row revokedAt) (revokeRow suite env master row' revokedAt)
      tables tables'
      (fun revoked revoked' after after' => LowReturns suite master revoked revoked' after after' ∧
        KeepsOthers row tables after ∧ KeepsOthers row' tables' after')
      (fun _ _ => True) := by
  unfold revokeRow
  rw [hpair.low.metadata]
  apply Coupled.bind
  refine coupled_ofExcept (Alike.refl fun metadata hmetadata => ?_) trivial
  apply Coupled.bind
  refine coupled_ofExcept (hpair.low.decrypts.known.mono ?_) trivial
  rintro plaintext plaintext' ⟨hdecrypt, hdecrypt', hvalues⟩
  apply Coupled.bind
  apply coupled_urandom
  intro nonce _
  apply Coupled.bind
  refine coupled_encrypt ((encrypt_alike hcipher (hvalues.imp_left And.right)).mono ?_) trivial
  rintro ciphertext ciphertext' ⟨hencrypt, hencrypt'⟩
  obtain ⟨hresealed, hsame⟩ := resealed_lowRow hsuite hpair.low hmetadata hdecrypt hdecrypt'
    hencrypt hencrypt'
  have hkey : (metadata.workspaceId, metadata.secretId, metadata.versionId) = row.key :=
    (metadataFromRow_describes hmetadata).key
  rw [hkey]
  apply Coupled.bind
  have hafter := hlow.updateVersion hpair.stored hpair.stored' hpair.low.key hresealed hsame
  have hkeep' := updateVersion_keepsOthers row' tables' SecretStatus.revoked.value (.blob nonce)
    (.blob ciphertext') (some revokedAt)
  rw [hpair.low.key] at hkeep'
  have hkeep := updateVersion_keepsOthers row tables SecretStatus.revoked.value (.blob nonce)
    (.blob ciphertext) (some revokedAt)
  apply coupled_execute
  · apply alike_ok
    apply coupled_pure
    exact ⟨⟨rfl, hafter⟩, hkeep, hkeep'⟩
  · exact trivial

theorem revokeUnlessRevoked_coupled (hsuite : suite.DecryptsOwn)
    (hcipher : EncryptsAlike suite master) (hlow : LowTables suite master tables tables')
    {row row' : VersionRow} (hpair : LowPair suite master tables tables' row row')
    (now : String) :
    Coupled (revokeUnlessRevoked suite env master now row)
      (revokeUnlessRevoked suite env master now row') tables tables'
      (fun revoked revoked' after after' => LowReturns suite master revoked revoked' after after' ∧
        KeepsOthers row tables after ∧ KeepsOthers row' tables' after')
      (fun _ _ => True) := by
  unfold revokeUnlessRevoked
  rw [hpair.low.metadata]
  apply Coupled.bind
  refine coupled_ofExcept (Alike.refl fun metadata _ => ?_) trivial
  split
  · exact coupled_pure ⟨⟨rfl, hlow⟩, fun _ hother _ => hother, fun _ hother _ => hother⟩
  · exact revokeRow_coupled hsuite hcipher hlow hpair now

/-- The loop over the rows of a secret. -/
theorem revokeEach_coupled (hsuite : suite.DecryptsOwn) (hcipher : EncryptsAlike suite master)
    (hlow : LowTables suite master tables tables') {rows rows' : List VersionRow}
    (hrows : List.Forall₂ (LowPair suite master tables tables') rows rows')
    (hkeys : KeyedRows.Unique VersionRow.key rows) (now : String) :
    Coupled (revokeEach suite env master now rows) (revokeEach suite env master now rows')
      tables tables' (LowReturns suite master) (fun _ _ => True) := by
  induction rows generalizing rows' tables tables' with
  | nil =>
      cases hrows
      exact coupled_pure ⟨rfl, hlow⟩
  | cons row rows ih =>
      obtain ⟨row', rows', hpair, hrest, rfl⟩ := List.forall₂_cons_left_iff.mp hrows
      have hfresh : row.key ∉ rows.map VersionRow.key := (List.nodup_cons.mp hkeys).1
      apply Coupled.bind
      refine (revokeUnlessRevoked_coupled hsuite hcipher hlow hpair now).mono ?_
        fun _ _ hends => hends
      rintro revoked _ after after' ⟨⟨rfl, hafter⟩, hkeep, hkeep'⟩
      -- The rows still to come have other keys, so they are where they were.
      have hafterRows : List.Forall₂ (LowPair suite master after after') rows rows' := by
        refine (KeyedRows.related_mem hrest).imp ?_
        rintro other other' ⟨hother, hmem, _⟩
        have hne : other.key ≠ row.key := fun heq => hfresh (heq ▸ List.mem_map_of_mem hmem)
        have hne' : other'.key ≠ row'.key := by
          rw [hother.low.key, hpair.low.key]
          exact hne
        exact ⟨hother.low, hkeep other hother.stored hne, hkeep' other' hother.stored' hne'⟩
      apply Coupled.bind
      refine (ih hafter hafterRows (List.nodup_cons.mp hkeys).2).mono ?_ fun _ _ hends => hends
      rintro rest _ last last' ⟨rfl, hlast⟩
      exact coupled_pure ⟨rfl, hlast⟩

theorem allVersions_pairs (hlow : LowTables suite master tables tables')
    (workspaceId secretId : String) :
    List.Forall₂ (LowPair suite master tables tables') (tables.allVersions workspaceId secretId)
      (tables'.allVersions workspaceId secretId) := by
  refine (KeyedRows.related_mem (hlow.allVersions workspaceId secretId)).imp ?_
  rintro row row' ⟨hrow, hmem, hmem'⟩
  exact ⟨hrow, (Tables.mem_allVersions.mp hmem).1, (Tables.mem_allVersions.mp hmem').1⟩

theorem revokeSecret_coupled (hsuite : suite.DecryptsOwn) (hcipher : EncryptsAlike suite master)
    (hlow : LowTables suite master tables tables') (workspaceId secretId : String) :
    Coupled (revokeSecret suite env master workspaceId secretId)
      (revokeSecret suite env master workspaceId secretId) tables tables'
      (LowReturns suite master) (LowTables suite master) := by
  refine coupled_connection ?_ hlow
  refine Coupled.bind (coupled_statement ?_ trivial)
  refine Coupled.bind (coupled_query ?_ trivial)
  have hrows := allVersions_pairs hlow workspaceId secretId
  apply Coupled.bind
  refine coupled_raiseIf ?_ (fun _ => ?_) trivial
  · rw [← List.length_eq_zero_iff, ← List.length_eq_zero_iff, hrows.length_eq]
  · exact revokeEach_coupled hsuite hcipher hlow hrows
      (allVersions_unique hlow.keys workspaceId secretId) env.now

theorem auditAlike_low (record : AuditRecord) : AuditAlike (LowTables suite master) record :=
  fun _ _ hlow => hlow.insertAudit record

/-- The row of a version, or `SecretMissing` in both. -/
theorem selectRow_coupled {α : Type} {returns : α → α → Tables → Tables → Prop}
    (hlow : LowTables suite master tables tables') (workspaceId secretId : String)
    (versionId : Option String) {next next' : VersionRow → Tx Tables α}
    (hnext : ∀ row row', LowPair suite master tables tables' row row' →
      Coupled (next row) (next' row') tables tables' returns fun _ _ => True) :
    Coupled
      (do
        match ← query env fun tables => selectRow tables workspaceId secretId versionId with
        | none => throw .secretMissing
        | some row => next row)
      (do
        match ← query env fun tables => selectRow tables workspaceId secretId versionId with
        | none => throw .secretMissing
        | some row => next' row)
      tables tables' returns fun _ _ => True := by
  apply Coupled.bind
  refine coupled_query ?_ trivial
  have hrel := selectRow_pair hlow workspaceId secretId versionId
  generalize selectRow tables workspaceId secretId versionId = found,
    selectRow tables' workspaceId secretId versionId = found' at hrel ⊢
  cases hrel with
  | none => exact coupled_throw trivial
  | some hpair => exact hnext _ _ hpair

theorem replayRevocation_coupled (hlow : LowTables suite master tables tables')
    (args : RevokeSecretVersion) (existing : RevocationRow) :
    Coupled (replayRevocation suite env args existing) (replayRevocation suite env args existing)
      tables tables' (LowReturns suite master) (fun _ _ => True) := by
  apply Coupled.bind
  refine coupled_raiseIf Iff.rfl (fun _ => ?_) trivial
  apply selectRow_coupled hlow
  intro row row' hpair
  rw [hpair.low.metadata]
  apply Coupled.bind
  refine coupled_ofExcept (Alike.refl fun metadata _ => ?_) trivial
  apply Coupled.bind
  refine coupled_raiseIf Iff.rfl (fun _ => ?_) trivial
  apply Coupled.bind
  refine (coupled_appendInTransaction (auditAlike_low _) hlow).mono ?_ fun _ _ hends => hends
  intro _ _ after after' hafter
  exact coupled_pure ⟨rfl, hafter⟩

theorem freshRevocation_coupled (hsuite : suite.DecryptsOwn) (hcipher : EncryptsAlike suite master)
    (hlow : LowTables suite master tables tables') (args : RevokeSecretVersion) :
    Coupled (freshRevocation suite env master args) (freshRevocation suite env master args)
      tables tables' (LowReturns suite master) (fun _ _ => True) := by
  apply Coupled.bind
  refine coupled_query ?_ trivial
  have hprior : tables'.revocationOf args.workspaceId args.secretId args.versionId =
      tables.revocationOf args.workspaceId args.secretId args.versionId := by
    unfold Tables.revocationOf
    rw [hlow.revocations]
  apply Coupled.bind
  refine coupled_raiseIf (by rw [hprior]) (fun _ => ?_) trivial
  apply selectRow_coupled hlow
  intro row row' hpair
  rw [hpair.low.metadata]
  apply Coupled.bind
  refine coupled_ofExcept (Alike.refl fun metadata _ => ?_) trivial
  apply Coupled.bind
  refine coupled_raiseIf Iff.rfl (fun _ => ?_) trivial
  apply Coupled.bind
  refine coupled_raiseIf Iff.rfl (fun _ => ?_) trivial
  apply Coupled.bind
  refine (revokeRow_coupled hsuite hcipher hlow hpair env.now).mono ?_ fun _ _ hends => hends
  rintro revoked _ after after' ⟨⟨rfl, hafter⟩, _⟩
  apply Coupled.bind
  refine coupled_execute ((hafter.insertRevocation _).mono ?_) trivial
  intro inserted inserted' hinserted
  apply Coupled.bind
  refine (coupled_appendInTransaction (auditAlike_low _) hinserted).mono ?_ fun _ _ hends => hends
  intro _ _ last last' hlast
  exact coupled_pure ⟨rfl, hlast⟩

theorem revokeSecretVersion_coupled (hsuite : suite.DecryptsOwn)
    (hcipher : EncryptsAlike suite master) (hlow : LowTables suite master tables tables')
    (args : RevokeSecretVersion) :
    Coupled (revokeSecretVersion suite env master args) (revokeSecretVersion suite env master args)
      tables tables' (LowReturns suite master) (LowTables suite master) := by
  refine coupled_connection ?_ hlow
  refine Coupled.bind (coupled_statement ?_ trivial)
  refine Coupled.bind (coupled_query ?_ trivial)
  have hexisting : tables'.revocation args.workspaceId args.correlationId =
      tables.revocation args.workspaceId args.correlationId := by
    unfold Tables.revocation
    rw [hlow.revocations]
  rw [hexisting]
  split
  · exact replayRevocation_coupled hlow args _
  · exact freshRevocation_coupled hsuite hcipher hlow args

/-! ### Generating -/

/-- The version of a generation is one row in both databases. -/
theorem selectVersion_generated (hlow : LowTables suite master tables tables')
    {generation : GenerationRow} (hgeneration : generation ∈ tables.generations) :
    tables'.selectVersion generation.workspaceId generation.secretId generation.versionId =
      tables.selectVersion generation.workspaceId generation.secretId generation.versionId := by
  have hrel := hlow.selectVersion generation.workspaceId generation.secretId generation.versionId
  generalize hrow : tables.selectVersion generation.workspaceId generation.secretId
    generation.versionId = found at hrel ⊢
  generalize hrow' : tables'.selectVersion generation.workspaceId generation.secretId
    generation.versionId = found' at hrel ⊢
  cases hrel with
  | none => rfl
  | some hlowRow =>
      obtain ⟨hmem, hkey⟩ := Tables.selectVersion_eq_some hrow
      obtain ⟨hmem', _⟩ := Tables.selectVersion_eq_some hrow'
      have hshared := hlow.generated generation hgeneration _ hmem hkey
      rw [hlow.keys'.eq_of_key hmem' hshared hlowRow.key]

theorem replayGeneration_coupled (hlow : LowTables suite master tables tables')
    (args : GenerateDelegationKey) (admittedIntent : String) {existing : GenerationRow}
    (hexisting : existing ∈ tables.generations) :
    Coupled (replayGeneration suite env master args admittedIntent existing)
      (replayGeneration suite env master args admittedIntent existing) tables tables'
      (LowReturns suite master) (fun _ _ => True) := by
  apply Coupled.bind
  refine coupled_raiseIf Iff.rfl (fun _ => ?_) trivial
  have hselect : selectRow tables' existing.workspaceId existing.secretId
      (some existing.versionId) = selectRow tables existing.workspaceId existing.secretId
        (some existing.versionId) :=
    selectVersion_generated hlow hexisting
  have hreplayed : Coupled
      (delegationGenerationFromRow suite env master existing admittedIntent true)
      (delegationGenerationFromRow suite env master existing admittedIntent true) tables tables'
      (LowReturns suite master) (fun _ _ => True) := by
    apply Coupled.bind
    refine coupled_query ?_ trivial
    rw [hselect]
    split
    · exact coupled_throw trivial
    · exact coupled_ofExcept (Alike.refl fun _ _ => ⟨rfl, hlow⟩) trivial
  apply Coupled.bind
  refine hreplayed.mono ?_ fun _ _ hends => hends
  rintro result _ after after' ⟨rfl, hafter⟩
  apply Coupled.bind
  refine (coupled_appendInTransaction (auditAlike_low _) hafter).mono ?_ fun _ _ hends => hends
  intro _ _ last last' hlast
  exact coupled_pure ⟨rfl, hlast⟩

theorem freshGeneration_coupled (hsuite : suite.DecryptsOwn) (hcipher : EncryptsAlike suite master)
    (hlow : LowTables suite master tables tables') (args : GenerateDelegationKey)
    (admittedIntent : String) :
    Coupled (freshGeneration suite env master args admittedIntent)
      (freshGeneration suite env master args admittedIntent) tables tables'
      (LowReturns suite master) (fun _ _ => True) := by
  unfold freshGeneration
  dsimp only
  split
  · exact coupled_throw trivial
  · next keyId _ =>
    apply Coupled.bind
    refine (insertVersion_coupled hsuite hcipher hlow args.workspaceId args.secretId (.inl rfl) _
      1).mono ?_ fun _ _ hends => hends
    rintro _ metadata after after' ⟨⟨rfl, hafter⟩, hsame⟩
    have hgeneration := hafter.insertGeneration
      (generationRow args metadata keyId (suite.publicPem env.privateKey)) (hsame rfl)
    apply Coupled.bind
    refine coupled_execute (hgeneration.mono ?_) trivial
    intro inserted inserted' hinserted
    apply Coupled.bind
    refine (coupled_appendInTransaction (auditAlike_low _) hinserted).mono ?_
      fun _ _ hends => hends
    intro _ _ last last' hlast
    exact coupled_pure ⟨rfl, hlast⟩

theorem generateDelegationKey_coupled (hsuite : suite.DecryptsOwn)
    (hcipher : EncryptsAlike suite master) (hlow : LowTables suite master tables tables')
    (args : GenerateDelegationKey) :
    Coupled (generateDelegationKey suite env master args)
      (generateDelegationKey suite env master args) tables tables' (LowReturns suite master)
      (LowTables suite master) := by
  apply Coupled.bind
  refine coupled_ofExcept (Alike.refl fun admittedIntent _ => ?_) hlow
  refine coupled_connection ?_ hlow
  refine Coupled.bind (coupled_statement ?_ trivial)
  refine Coupled.bind (coupled_query ?_ trivial)
  have hprior : tables'.generation args.workspaceId args.correlationId =
      tables.generation args.workspaceId args.correlationId := by
    unfold Tables.generation
    rw [hlow.generations]
  rw [hprior]
  split
  · next existing hfound =>
      exact replayGeneration_coupled hlow args admittedIntent (KeyedRows.mem_of_find hfound)
  · exact freshGeneration_coupled hsuite hcipher hlow args admittedIntent

/-! ### Reading and resolving -/

theorem metadata_coupled (hlow : LowTables suite master tables tables')
    (workspaceId secretId : String) (versionId : Option String) :
    Coupled (metadata suite env workspaceId secretId versionId)
      (metadata suite env workspaceId secretId versionId) tables tables'
      (LowReturns suite master) (LowTables suite master) := by
  apply Coupled.bind
  refine coupled_connection ?_ hlow
  refine coupled_query ?_ trivial
  have hrel := hlow.selectRow workspaceId secretId versionId
  generalize selectRow tables workspaceId secretId versionId = found,
    selectRow tables' workspaceId secretId versionId = found' at hrel ⊢
  cases hrel with
  | none => exact coupled_throw hlow
  | some hrow =>
      dsimp only
      rw [hrow.metadata]
      exact coupled_ofExcept (Alike.refl fun _ _ => ⟨rfl, hlow⟩) hlow

/-- Resolutions of one version, with the values of the two databases. -/
def LowResolved (suite : CryptoSuite) (master : MasterKey) (secret secret' : ResolvedSecret)
    (after after' : Tables) : Prop :=
  secret'.metadata = secret.metadata ∧ LowTables suite master after after'

theorem resolveRow_alike {row row' : VersionRow} (hrow : LowRow suite master row row')
    (intent : Option String) :
    Alike (fun secret secret' => secret'.metadata = secret.metadata)
      (resolveRow suite master row intent) (resolveRow suite master row' intent) := by
  unfold resolveRow
  rw [hrow.metadata]
  cases metadataFromRow row with
  | error raised => rfl
  | ok metadata =>
      simp only [bind, Except.bind]
      cases (raiseIf (metadata.status = .revoked) .secretRevoked : Except Raised Unit) with
      | error raised => rfl
      | ok done =>
          cases (raiseIf (LacksIntent metadata intent) .secretIntentMismatch :
              Except Raised Unit) with
          | error raised => rfl
          | ok done =>
              have halike := hrow.decrypts
              cases hleft : decryptRow suite master row <;>
                cases hright : decryptRow suite master row' <;>
                  simp only [hleft, hright, Alike] at halike
              · exact halike
              · rfl

theorem selectedVersion_coupled (hlow : LowTables suite master tables tables')
    (args : ResolveSecretForUse) :
    Coupled (selectedVersion suite env args) (selectedVersion suite env args) tables tables'
      (LowReturns suite master) (fun _ _ => True) := by
  apply Coupled.bind
  refine coupled_query ?_ trivial
  have hselection : tables'.selection args.workspaceId args.correlationId =
      tables.selection args.workspaceId args.correlationId := by
    unfold Tables.selection
    rw [hlow.selections]
  rw [hselection]
  split
  · apply Coupled.bind
    refine coupled_raiseIf Iff.rfl (fun _ => ?_) trivial
    exact coupled_pure ⟨rfl, hlow⟩
  · apply selectRow_coupled hlow
    intro row row' hpair
    rw [hpair.low.metadata]
    apply Coupled.bind
    refine coupled_ofExcept (Alike.refl fun metadata _ => ?_) trivial
    apply Coupled.bind
    refine coupled_raiseIf Iff.rfl (fun _ => ?_) trivial
    apply Coupled.bind
    refine coupled_raiseIf Iff.rfl (fun _ => ?_) trivial
    apply Coupled.bind
    refine coupled_execute ((hlow.insertSelection _).mono ?_) trivial
    intro after after' hafter
    exact coupled_pure ⟨rfl, hafter⟩

theorem resolveSecretForUse_coupled (hlow : LowTables suite master tables tables')
    (args : ResolveSecretForUse) :
    Coupled (resolveSecretForUse suite env master args) (resolveSecretForUse suite env master args)
      tables tables' (LowResolved suite master) (LowTables suite master) := by
  refine coupled_connection ?_ hlow
  refine Coupled.bind (coupled_statement ?_ trivial)
  apply Coupled.bind
  refine (selectedVersion_coupled hlow args).mono ?_ fun _ _ hends => hends
  rintro versionId _ after after' ⟨rfl, hafter⟩
  apply selectRow_coupled hafter
  intro row row' hpair
  refine coupled_ofExcept ((resolveRow_alike hpair.low (some args.intent)).mono ?_) trivial
  intro secret secret' hmetadata
  exact ⟨hmetadata, hafter⟩

end

end SecretsCustody
