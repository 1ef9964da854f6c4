/-
The encrypted secret store: each operation as the statements of its
transaction, in the order of the source.
-/
import SecretsCustody.Audit
import SecretsCustody.DelegationSigning
import SecretsCustody.Rows

namespace SecretsCustody

open Effect JsonText

def delegationKeyAlgorithm : String := "ed25519"

def maxDelegationPublicKeyPemChars : Nat := 8192

def maxDelegationKeyIdChars : Nat := 128

/-- The largest integer a statement can bind. -/
def maxSqliteInteger : Int := 2 ^ 63 - 1

/-- The arguments of `generate_delegation_key`. -/
structure GenerateDelegationKey where
  workspaceId : String
  secretId : String
  secretReference : String
  purpose : String
  intent : String
  issuer : String
  callerSubject : String
  correlationId : String
  providerId : String

/-- The arguments of `revoke_secret_version`. -/
structure RevokeSecretVersion where
  workspaceId : String
  secretId : String
  versionId : String
  versionNumber : Int
  callerSubject : String
  correlationId : String
  providerId : String

/-- The arguments of `resolve_secret_for_use`. -/
structure ResolveSecretForUse where
  workspaceId : String
  secretId : String
  intent : String
  callerSubject : String
  correlationId : String
  versionId : Option String

section

variable (suite : CryptoSuite) (env : Env suite) (master : MasterKey)

/-- `_connect`: open the database and run its two pragmas. -/
def connect : Tx Tables Unit := do
  statement env
  statement env
  statement env

/-- `with self._connection() as connection:`. -/
def connection {α : Type} (body : Tx Tables α) : Tx Tables α :=
  withConnection env (connect suite env) body

/-- `labels.get("intent") != intent`, for the intent a caller expects, if any. -/
def LacksIntent (metadata : SecretMetadata) (expected : Option String) : Prop :=
  ∃ intent ∈ expected, metadata.labels.has "intent" intent = false

instance (metadata : SecretMetadata) (expected : Option String) :
    Decidable (LacksIntent metadata expected) :=
  match expected with
  | none => .isFalse (by rintro ⟨intent, ⟨⟩, _⟩)
  | some intent =>
      decidable_of_iff (metadata.labels.has "intent" intent = false) (by simp [LacksIntent])

/-- `_select_row_with_connection`, `_latest_row` included. -/
def selectRow (tables : Tables) (workspaceId secretId : String) :
    Option String → Option VersionRow
  | none => tables.latestVersion workspaceId secretId
  | some versionId => tables.selectVersion workspaceId secretId versionId

/-! ### Writing one version -/

/-- The metadata `_insert_version` writes, its labels cleaned. -/
def freshMetadata (workspaceId secretId : String) (labels : Labels) (versionNumber : Int) :
    SecretMetadata :=
  { workspaceId := workspaceId
    secretId := secretId
    versionId := env.uuid4
    versionNumber := versionNumber
    status := .active
    algorithm := algorithm
    keyFingerprint := master.fingerprint suite
    keyVersion := master.version
    labels := labels
    createdAt := env.now
    revokedAt := none }

/-- `except sqlite3.IntegrityError: raise SecretAlreadyExists()`. -/
def alreadyExists : Raised → Raised
  | .integrityError => .secretAlreadyExists
  | raised => raised

/-- `_insert_version`. -/
def insertVersion (workspaceId secretId : String) (value : Bytes) (labels : TextDict)
    (versionNumber : Int) : Tx Tables SecretMetadata := do
  let labels ← ofExcept (cleanLabels labels)
  let metadata := freshMetadata suite env master workspaceId secretId labels versionNumber
  let nonce ← urandom env
  let ciphertext ← encrypt suite master nonce value (.version metadata)
  raiseIf (metadata.versionNumber > maxSqliteInteger) .overflowError
  mapRaised alreadyExists
    (execute env fun tables => tables.insertVersion (versionRow metadata nonce ciphertext))
  return metadata

/-- The metadata of a version once revoked. -/
def revokedMetadata (metadata : SecretMetadata) (revokedAt : String) : SecretMetadata :=
  { metadata with status := .revoked, revokedAt := some revokedAt }

/-- `_revoke_row`. -/
def revokeRow (row : VersionRow) (revokedAt : String) : Tx Tables SecretMetadata := do
  let metadata ← ofExcept (metadataFromRow row)
  let plaintext ← ofExcept (decryptRow suite master row)
  let revoked := revokedMetadata metadata revokedAt
  let nonce ← urandom env
  let ciphertext ← encrypt suite master nonce plaintext (.version revoked)
  execute env fun tables =>
    .ok (tables.updateVersion (metadata.workspaceId, metadata.secretId, metadata.versionId)
      SecretStatus.revoked.value (.blob nonce) (.blob ciphertext) (some revokedAt))
  return revoked

/-! ### Operations -/

def createSecret (workspaceId secretId : String) (value : Bytes) (labels : TextDict) :
    Tx Tables SecretMetadata :=
  connection suite env do
    statement env
    insertVersion suite env master workspaceId secretId value labels 1

def rotateSecret (workspaceId secretId : String) (value : Bytes) (labels : TextDict)
    (expectedIntent : Option String) : Tx Tables SecretMetadata :=
  connection suite env do
    statement env
    match ← query env fun tables => tables.latestVersion workspaceId secretId with
    | none => throw .secretMissing
    | some latest =>
        let latestMetadata ← ofExcept (metadataFromRow latest)
        raiseIf (LacksIntent latestMetadata expectedIntent) .secretIntentMismatch
        insertVersion suite env master workspaceId secretId value labels
          (latest.versionNumber + 1)

/-- The body of the loop of `revoke_secret`: a revoked row stays as it is. -/
def revokeUnlessRevoked (now : String) (row : VersionRow) : Tx Tables SecretMetadata := do
  let metadata ← ofExcept (metadataFromRow row)
  if metadata.status = .revoked then return metadata
  else revokeRow suite env master row now

/-- The loop of `revoke_secret` over the rows it read. -/
def revokeEach (now : String) : List VersionRow → Tx Tables (List SecretMetadata)
  | [] => pure []
  | row :: rows => do
      let revoked ← revokeUnlessRevoked suite env master now row
      let rest ← revokeEach now rows
      return revoked :: rest

def revokeSecret (workspaceId secretId : String) : Tx Tables (List SecretMetadata) :=
  connection suite env do
    statement env
    let rows ← query env fun tables => tables.allVersions workspaceId secretId
    raiseIf (rows = []) .secretMissing
    revokeEach suite env master env.now rows

/-- The audit record of one exact-version revocation. -/
def revocationRecord (args : RevokeSecretVersion) (metadata : SecretMetadata)
    (outcome code : String) : AuditRecord :=
  auditRecord env args.providerId args.workspaceId args.secretId (some args.versionId)
    (metadata.labels.lookup (codes "intent")) args.callerSubject args.correlationId outcome code

/-- The row a revocation records. -/
def revocationRow (args : RevokeSecretVersion) (revokedAt : String) : RevocationRow :=
  { workspaceId := args.workspaceId
    correlationId := args.correlationId
    secretId := args.secretId
    versionId := args.versionId
    versionNumber := args.versionNumber
    callerSubject := args.callerSubject
    revokedAt := revokedAt }

/-- The arguments agree with the revocation a correlation already made. -/
def RevokeSecretVersion.Agrees (args : RevokeSecretVersion) (existing : RevocationRow) : Prop :=
  existing.secretId = args.secretId ∧ existing.versionId = args.versionId ∧
    existing.versionNumber = args.versionNumber ∧ existing.callerSubject = args.callerSubject

instance (args : RevokeSecretVersion) (existing : RevocationRow) :
    Decidable (args.Agrees existing) :=
  inferInstanceAs (Decidable (_ ∧ _))

/-- `revoke_secret_version` under a correlation that has a revocation. -/
def replayRevocation (args : RevokeSecretVersion) (existing : RevocationRow) :
    Tx Tables SecretMetadata := do
  raiseIf (¬ args.Agrees existing) .secretVersionRevocationConflict
  match ← query env fun tables =>
      selectRow tables args.workspaceId args.secretId (some args.versionId) with
  | none => throw .secretMissing
  | some row =>
      let metadata ← ofExcept (metadataFromRow row)
      raiseIf (metadata.versionNumber ≠ args.versionNumber ∨ metadata.status ≠ .revoked)
        .secretVersionRevocationConflict
      appendInTransaction env (revocationRecord suite env args metadata "replayed"
        "secret-version-revocation-replayed")
      return metadata

/-- `revoke_secret_version` under a fresh correlation. -/
def freshRevocation (args : RevokeSecretVersion) : Tx Tables SecretMetadata := do
  let priorTarget ← query env fun tables =>
    tables.revocationOf args.workspaceId args.secretId args.versionId
  raiseIf (priorTarget ≠ none) .secretVersionRevocationConflict
  match ← query env fun tables =>
      selectRow tables args.workspaceId args.secretId (some args.versionId) with
  | none => throw .secretMissing
  | some row =>
      let metadata ← ofExcept (metadataFromRow row)
      raiseIf (metadata.versionNumber ≠ args.versionNumber) .secretVersionRevocationConflict
      raiseIf (metadata.status = .revoked) .secretRevoked
      let revoked ← revokeRow suite env master row env.now
      execute env fun tables => tables.insertRevocation (revocationRow args env.now)
      appendInTransaction env (revocationRecord suite env args revoked "revoked"
        "secret-version-revoked")
      return revoked

def revokeSecretVersion (args : RevokeSecretVersion) : Tx Tables SecretMetadata :=
  connection suite env do
    statement env
    match ← query env fun tables => tables.revocation args.workspaceId args.correlationId with
    | some existing => replayRevocation suite env args existing
    | none => freshRevocation suite env master args

/-- `_select_row`: the same query on a connection of its own. -/
def selectRowAlone (workspaceId secretId : String) (versionId : Option String) :
    Tx Tables (Option VersionRow) :=
  connection suite env (query env fun tables => selectRow tables workspaceId secretId versionId)

def metadata (workspaceId secretId : String) (versionId : Option String) :
    Tx Tables SecretMetadata := do
  match ← selectRowAlone suite env workspaceId secretId versionId with
  | none => throw .secretMissing
  | some row => ofExcept (metadataFromRow row)

/-- The checks and the decryption both resolutions make on a row.  Without an
intent the labels are not looked at. -/
def resolveRow (row : VersionRow) (intent : Option String) : Except Raised ResolvedSecret := do
  let metadata ← metadataFromRow row
  raiseIf (metadata.status = .revoked) .secretRevoked
  raiseIf (LacksIntent metadata intent) .secretIntentMismatch
  let value ← decryptRow suite master row
  return { metadata := metadata, value := value }

def resolveSecret (workspaceId secretId : String) (versionId : Option String) :
    Tx Tables ResolvedSecret := do
  match ← selectRowAlone suite env workspaceId secretId versionId with
  | none => throw .secretMissing
  | some row => ofExcept (resolveRow suite master row none)

/-- The arguments agree with the selection a correlation already made. -/
def ResolveSecretForUse.Agrees (args : ResolveSecretForUse) (selection : SelectionRow) : Prop :=
  selection.secretId = args.secretId ∧ selection.intent = args.intent ∧
    selection.callerSubject = args.callerSubject ∧
    (args.versionId = none ∨ args.versionId = some selection.versionId)

instance (args : ResolveSecretForUse) (selection : SelectionRow) :
    Decidable (args.Agrees selection) :=
  inferInstanceAs (Decidable (_ ∧ _))

/-- The row a first use records. -/
def selectionRow (args : ResolveSecretForUse) (versionId : String) : SelectionRow :=
  { workspaceId := args.workspaceId
    correlationId := args.correlationId
    secretId := args.secretId
    intent := args.intent
    callerSubject := args.callerSubject
    versionId := versionId
    selectedAt := env.now }

/-- The version a correlation resolves: the pinned one, or the one a first use
selects and pins. -/
def selectedVersion (args : ResolveSecretForUse) : Tx Tables String := do
  match ← query env fun tables => tables.selection args.workspaceId args.correlationId with
  | some selection =>
      raiseIf (¬ args.Agrees selection) .secretResolutionConflict
      return selection.versionId
  | none =>
      match ← query env fun tables =>
          selectRow tables args.workspaceId args.secretId args.versionId with
      | none => throw .secretMissing
      | some selected =>
          let selectedMetadata ← ofExcept (metadataFromRow selected)
          raiseIf (selectedMetadata.status = .revoked) .secretRevoked
          raiseIf (LacksIntent selectedMetadata (some args.intent)) .secretIntentMismatch
          execute env fun tables =>
            tables.insertSelection (selectionRow suite env args selectedMetadata.versionId)
          return selectedMetadata.versionId

def resolveSecretForUse (args : ResolveSecretForUse) : Tx Tables ResolvedSecret :=
  connection suite env do
    statement env
    let versionId ← selectedVersion suite env args
    match ← query env fun tables =>
        selectRow tables args.workspaceId args.secretId (some versionId) with
    | none => throw .secretMissing
    | some row => ofExcept (resolveRow suite master row (some args.intent))

/-- `resolve_secret_for_use` of a version identifier SQLite cannot encode.  No selection pins such
a version, and the `SELECT` of a first use binds the identifier. -/
def resolveUnencodableForUse {α : Type} (workspaceId correlationId : String) : Tx Tables α :=
  connection suite env do
    statement env
    match ← query env fun tables => tables.selection workspaceId correlationId with
    | some _ => throw .secretResolutionConflict
    | none => throw .unicodeEncodeError

/-! ### Delegation keys -/

/-- `_require_bounded_delegation_public_identity`, with the texts it admits. -/
def requireBoundedDelegationPublicIdentity :
    SqlValue → SqlValue → Except Raised (String × String)
  | .text publicKeyPem, .text keyId =>
      if publicKeyPem.length > maxDelegationPublicKeyPemChars ∨
          keyId.length > maxDelegationKeyIdChars then
        .error .secretTampered
      else .ok (publicKeyPem, keyId)
  | _, _ => .error .secretTampered

/-- The labels of a generated version. -/
def generationTexts (intent purpose issuer keyId : String) : List (String × String) :=
  [("intent", intent), ("purpose", purpose), ("issuer", issuer), ("key_id", keyId)]

/-- The same labels as the argument of `_insert_version`. -/
def generationLabels (intent purpose issuer keyId : String) : TextDict :=
  ⟨(generationTexts intent purpose issuer keyId).map fun text => ⟨text.1, text.2⟩, by
    change ["intent", "purpose", "issuer", "key_id"].Nodup
    decide⟩

/-- The handler around `_metadata_from_row`: labels and a status that do not decode are tampered
with. -/
def readingTampered : Raised → Raised
  | .jsonDecodeError => .secretTampered
  | .typeError => .secretTampered
  | .valueError => .secretTampered
  | raised => raised

/-- The part of `_delegation_generation_from_row` after its query: everything
the fresh generation wrote is checked again. -/
def regenerated (row : GenerationRow) (secretRow : VersionRow) (expectedIntent : String)
    (replayed : Bool) : Except Raised GeneratedDelegationKey := do
  let metadata ← (metadataFromRow secretRow).mapError readingTampered
  raiseIf (metadata.status = .revoked) .secretRevoked
  let identity ← requireBoundedDelegationPublicIdentity row.publicKeyPem row.keyId
  raiseIf (metadata.labels.matchesTexts
      (generationTexts expectedIntent row.purpose row.issuer identity.2) = false ∨
    row.algorithm ≠ delegationKeyAlgorithm) .secretTampered
  let privatePem ← decryptRow suite master secretRow
  let matched ← delegationMaterialMatches suite privatePem identity.1 identity.2
  raiseIf (matched = false) .secretTampered
  return {
    metadata := metadata
    secretReference := row.secretReference
    purpose := row.purpose
    issuer := row.issuer
    correlationId := row.correlationId
    keyId := identity.2
    algorithm := row.algorithm
    publicKeyPem := identity.1
    replayed := replayed }

/-- `_delegation_generation_from_row`. -/
def delegationGenerationFromRow (row : GenerationRow) (expectedIntent : String)
    (replayed : Bool) : Tx Tables GeneratedDelegationKey := do
  match ← query env fun tables =>
      selectRow tables row.workspaceId row.secretId (some row.versionId) with
  | none => throw .secretMissing
  | some secretRow =>
      ofExcept (regenerated suite master row secretRow expectedIntent replayed)

/-- The audit record of one generation. -/
def generationRecord (args : GenerateDelegationKey) (versionId intent : String)
    (outcome code : String) : AuditRecord :=
  auditRecord env args.providerId args.workspaceId args.secretId (some versionId)
    (some (.str (codes intent))) args.callerSubject args.correlationId outcome code

/-- The row a generation records. -/
def generationRow (args : GenerateDelegationKey) (metadata : SecretMetadata)
    (keyId publicKeyPem : String) : GenerationRow :=
  { workspaceId := args.workspaceId
    correlationId := args.correlationId
    secretId := args.secretId
    secretReference := args.secretReference
    purpose := args.purpose
    issuer := args.issuer
    callerSubject := args.callerSubject
    versionId := metadata.versionId
    keyId := .text keyId
    algorithm := delegationKeyAlgorithm
    publicKeyPem := .text publicKeyPem
    generatedAt := metadata.createdAt }

/-- The arguments agree with the generation a correlation already made. -/
def GenerateDelegationKey.Agrees (args : GenerateDelegationKey) (existing : GenerationRow) :
    Prop :=
  existing.secretId = args.secretId ∧ existing.secretReference = args.secretReference ∧
    existing.purpose = args.purpose ∧ existing.issuer = args.issuer ∧
    existing.callerSubject = args.callerSubject

instance (args : GenerateDelegationKey) (existing : GenerationRow) :
    Decidable (args.Agrees existing) :=
  inferInstanceAs (Decidable (_ ∧ _))

/-- `generate_delegation_key` under a correlation that has a generation. -/
def replayGeneration (args : GenerateDelegationKey) (admittedIntent : String)
    (existing : GenerationRow) : Tx Tables GeneratedDelegationKey := do
  raiseIf (¬ args.Agrees existing) .delegationKeyGenerationConflict
  let result ← delegationGenerationFromRow suite env master existing admittedIntent true
  appendInTransaction env (generationRecord suite env args result.metadata.versionId
    admittedIntent "replayed" "delegation-key-generation-replayed")
  return result

/-- `generate_delegation_key` under a fresh correlation. -/
def freshGeneration (args : GenerateDelegationKey) (admittedIntent : String) :
    Tx Tables GeneratedDelegationKey := do
  let privatePem := suite.privateBytes env.privateKey
  let publicPem := suite.publicPem env.privateKey
  match delegationKeyId suite publicPem with
  | none => throw .valueError
  | some keyId =>
      let metadata ← insertVersion suite env master args.workspaceId args.secretId privatePem
        (generationLabels admittedIntent args.purpose args.issuer keyId) 1
      execute env fun tables =>
        tables.insertGeneration (generationRow args metadata keyId publicPem)
      appendInTransaction env (generationRecord suite env args metadata.versionId
        admittedIntent "generated" "delegation-key-generated")
      return {
        metadata := metadata
        secretReference := args.secretReference
        purpose := args.purpose
        issuer := args.issuer
        correlationId := args.correlationId
        keyId := keyId
        algorithm := delegationKeyAlgorithm
        publicKeyPem := publicPem
        replayed := false }

def generateDelegationKey (args : GenerateDelegationKey) : Tx Tables GeneratedDelegationKey := do
  let admittedIntent ← ofExcept (requireDelegationSigningFamily args.purpose args.intent)
  connection suite env do
    statement env
    match ← query env fun tables => tables.generation args.workspaceId args.correlationId with
    | some existing => replayGeneration suite env master args admittedIntent existing
    | none => freshGeneration suite env master args admittedIntent

end

theorem selectRow_eq_some {tables : Tables} {workspaceId secretId : String}
    {versionId : Option String} {row : VersionRow}
    (hrow : selectRow tables workspaceId secretId versionId = some row) :
    row ∈ tables.versions ∧ row.address = (workspaceId, secretId) := by
  cases versionId with
  | none => exact Tables.latestVersion_eq_some hrow
  | some versionId =>
      obtain ⟨hmem, hkey⟩ := Tables.selectVersion_eq_some hrow
      simp only [VersionRow.key, Prod.mk.injEq] at hkey
      exact ⟨hmem, by rw [VersionRow.address, hkey.1, hkey.2.1]⟩

section

variable {suite : CryptoSuite} {master : MasterKey}

/-- A resolution returns an active row that fits the intent, decrypted. -/
theorem resolveRow_eq_ok {row : VersionRow} {intent : Option String} {secret : ResolvedSecret} :
    resolveRow suite master row intent = .ok secret ↔
      metadataFromRow row = .ok secret.metadata ∧ secret.metadata.status ≠ .revoked ∧
        ¬ LacksIntent secret.metadata intent ∧ decryptRow suite master row = .ok secret.value := by
  unfold resolveRow
  simp only [bind_eq_ok, raiseIf_eq_ok]
  constructor
  · rintro ⟨metadata, hmetadata, _, hstatus, _, hintent, value, hdecrypt, ⟨⟩⟩
    exact ⟨hmetadata, hstatus, hintent, hdecrypt⟩
  · rintro ⟨hmetadata, hstatus, hintent, hdecrypt⟩
    exact ⟨_, hmetadata, (), hstatus, (), hintent, _, hdecrypt, rfl⟩

/-- The checks of a resolution, in the order they are made. -/
theorem resolveRow_eq_error {row : VersionRow} {intent : Option String} {raised : Raised} :
    resolveRow suite master row intent = .error raised ↔
      metadataFromRow row = .error raised ∨
        ∃ metadata, metadataFromRow row = .ok metadata ∧
          (metadata.status = .revoked ∧ raised = .secretRevoked ∨
            metadata.status ≠ .revoked ∧
              (LacksIntent metadata intent ∧ raised = .secretIntentMismatch ∨
                ¬ LacksIntent metadata intent ∧
                  decryptRow suite master row = .error raised)) := by
  unfold resolveRow
  simp only [bind_eq_error, raiseIf_eq_ok, raiseIf_eq_error]
  constructor
  · rintro (hmetadata | ⟨metadata, hmetadata, hstatus | ⟨_, hstatus, hintent | ⟨_, hintent,
      hdecrypt | ⟨_, _, ⟨⟩⟩⟩⟩⟩)
    · exact .inl hmetadata
    · exact .inr ⟨metadata, hmetadata, .inl hstatus⟩
    · exact .inr ⟨metadata, hmetadata, .inr ⟨hstatus, .inl hintent⟩⟩
    · exact .inr ⟨metadata, hmetadata, .inr ⟨hstatus, .inr ⟨hintent, hdecrypt⟩⟩⟩
  · rintro (hmetadata | ⟨metadata, hmetadata, hstatus | ⟨hstatus, hintent | ⟨hintent,
      hdecrypt⟩⟩⟩)
    · exact .inl hmetadata
    · exact .inr ⟨metadata, hmetadata, .inl hstatus⟩
    · exact .inr ⟨metadata, hmetadata, .inr ⟨(), hstatus, .inl hintent⟩⟩
    · exact .inr ⟨metadata, hmetadata, .inr ⟨(), hstatus, .inr ⟨(), hintent, .inl hdecrypt⟩⟩⟩

theorem requireBounded_error {publicKeyPem keyId : SqlValue} {raised : Raised}
    (hraised : requireBoundedDelegationPublicIdentity publicKeyPem keyId = .error raised) :
    raised = .secretTampered := by
  unfold requireBoundedDelegationPublicIdentity at hraised
  split at hraised
  · split at hraised
    · cases hraised
      rfl
    · cases hraised
  · cases hraised
    rfl

theorem requireBounded_eq_ok {publicKeyPem keyId : SqlValue} {identity : String × String} :
    requireBoundedDelegationPublicIdentity publicKeyPem keyId = .ok identity ↔
      publicKeyPem = .text identity.1 ∧ keyId = .text identity.2 ∧
        identity.1.length ≤ maxDelegationPublicKeyPemChars ∧
        identity.2.length ≤ maxDelegationKeyIdChars := by
  rcases identity with ⟨pem, id⟩
  unfold requireBoundedDelegationPublicIdentity
  split
  · next foundPem foundId =>
      by_cases hlong : foundPem.length > maxDelegationPublicKeyPemChars ∨
          foundId.length > maxDelegationKeyIdChars
      · rw [if_pos hlong]
        simp only [reduceCtorEq, SqlValue.text.injEq, false_iff, not_and]
        rintro rfl rfl hpem hid
        omega
      · rw [if_neg hlong]
        simp only [Except.ok.injEq, Prod.mk.injEq, SqlValue.text.injEq]
        constructor
        · rintro ⟨rfl, rfl⟩
          exact ⟨rfl, rfl, by omega, by omega⟩
        · rintro ⟨hpem, hid, _⟩
          exact ⟨hpem, hid⟩
  · next hother =>
      simp only [reduceCtorEq, false_iff, not_and]
      rintro rfl rfl
      exact absurd rfl (hother _ _ rfl)

/-- Everything a replayed generation checks before it answers. -/
structure Regenerated (suite : CryptoSuite) (master : MasterKey) (row : GenerationRow)
    (secretRow : VersionRow) (expectedIntent : String) (key : GeneratedDelegationKey) : Prop where
  reads : metadataFromRow secretRow = .ok key.metadata
  active : key.metadata.status ≠ .revoked
  publicKeyPem : row.publicKeyPem = .text key.publicKeyPem
  keyId : row.keyId = .text key.keyId
  pemLength : key.publicKeyPem.length ≤ maxDelegationPublicKeyPemChars
  idLength : key.keyId.length ≤ maxDelegationKeyIdChars
  labels : key.metadata.labels.matchesTexts
    (generationTexts expectedIntent row.purpose row.issuer key.keyId) = true
  rowAlgorithm : row.algorithm = delegationKeyAlgorithm
  material : ∃ privatePem, decryptRow suite master secretRow = .ok privatePem ∧
    delegationMaterialMatches suite privatePem key.publicKeyPem key.keyId = .ok true
  secretReference : key.secretReference = row.secretReference
  purpose : key.purpose = row.purpose
  issuer : key.issuer = row.issuer
  correlationId : key.correlationId = row.correlationId
  algorithm : key.algorithm = row.algorithm

theorem regenerated_eq_ok {row : GenerationRow} {secretRow : VersionRow}
    {expectedIntent : String} {replayed : Bool} {key : GeneratedDelegationKey} :
    regenerated suite master row secretRow expectedIntent replayed = .ok key ↔
      Regenerated suite master row secretRow expectedIntent key ∧ key.replayed = replayed := by
  unfold regenerated
  simp only [bind_eq_ok, mapError_eq_ok, raiseIf_eq_ok, requireBounded_eq_ok, not_or,
    Bool.not_eq_false, not_not]
  constructor
  · rintro ⟨metadata, hreads, _, hstatus, ⟨pem, id⟩, ⟨hpem, hid, hpemLength, hidLength⟩, _,
      ⟨hlabels, halgorithm⟩, privatePem, hdecrypt, _, hmatches, _, rfl, ⟨⟩⟩
    exact ⟨⟨hreads, hstatus, hpem, hid, hpemLength, hidLength, hlabels, halgorithm,
      ⟨privatePem, hdecrypt, hmatches⟩, rfl, rfl, rfl, rfl, rfl⟩, rfl⟩
  · rintro ⟨hkey, rfl⟩
    obtain ⟨privatePem, hdecrypt, hmatches⟩ := hkey.material
    refine ⟨key.metadata, hkey.reads, (), hkey.active,
      (key.publicKeyPem, key.keyId),
      ⟨hkey.publicKeyPem, hkey.keyId, hkey.pemLength, hkey.idLength⟩, (),
      ⟨hkey.labels, hkey.rowAlgorithm⟩, privatePem, hdecrypt, true, hmatches, (), rfl, ?_⟩
    rw [← hkey.secretReference, ← hkey.purpose, ← hkey.issuer, ← hkey.correlationId,
      ← hkey.algorithm]
    rfl

end

/-! ### One call -/

/-- The operations of the store, with their arguments. -/
inductive Operation where
  | createSecret (workspaceId secretId : String) (value : Bytes) (labels : TextDict)
  | rotateSecret (workspaceId secretId : String) (value : Bytes) (labels : TextDict)
      (expectedIntent : Option String)
  | revokeSecret (workspaceId secretId : String)
  | revokeSecretVersion (args : RevokeSecretVersion)
  | generateDelegationKey (args : GenerateDelegationKey)
  | resolveSecret (workspaceId secretId : String) (versionId : Option String)
  | resolveSecretForUse (args : ResolveSecretForUse)
  | metadata (workspaceId secretId : String) (versionId : Option String)

inductive Reply where
  | metadata (metadata : SecretMetadata)
  | revoked (metadata : List SecretMetadata)
  | generated (key : GeneratedDelegationKey)
  | resolved (secret : ResolvedSecret)

/-- One client call on a store that holds one master key. -/
structure Call (suite : CryptoSuite) where
  operation : Operation
  master : MasterKey
  env : Env suite

/-- What one call returned or raised, and what it encrypted on the way. -/
structure Outcome where
  result : Except Raised Reply
  encryptions : List Encryption

section

variable {suite : CryptoSuite}

def Call.program (call : Call suite) : Tx Tables Reply :=
  match call.operation with
  | .createSecret workspaceId secretId value labels =>
      .metadata <$> createSecret suite call.env call.master workspaceId secretId value labels
  | .rotateSecret workspaceId secretId value labels expectedIntent =>
      .metadata <$> rotateSecret suite call.env call.master workspaceId secretId value labels
        expectedIntent
  | .revokeSecret workspaceId secretId =>
      .revoked <$> revokeSecret suite call.env call.master workspaceId secretId
  | .revokeSecretVersion args =>
      .metadata <$> revokeSecretVersion suite call.env call.master args
  | .generateDelegationKey args =>
      .generated <$> generateDelegationKey suite call.env call.master args
  | .resolveSecret workspaceId secretId versionId =>
      .resolved <$> resolveSecret suite call.env call.master workspaceId secretId versionId
  | .resolveSecretForUse args =>
      .resolved <$> resolveSecretForUse suite call.env call.master args
  | .metadata workspaceId secretId versionId =>
      .metadata <$> metadata suite call.env workspaceId secretId versionId

/-- The call as one step of the database. -/
def perform (tables : Tables) (call : Call suite) : Outcome × Tables :=
  match call.program.run { db := tables, executed := 0, encryptions := [] } with
  | .ok reply finish => (⟨.ok reply, finish.encryptions⟩, finish.db)
  | .error raised finish => (⟨.error raised, finish.encryptions⟩, finish.db)

end

end SecretsCustody
