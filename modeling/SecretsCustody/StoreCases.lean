/-
Every exit of every store operation.  `Performs` lists what an operation that
returns has found and written; `Refuses` lists why one raises, and then the
database is as it was.
-/
import SecretsCustody.Store

namespace SecretsCustody

open JsonText

section

variable {suite : CryptoSuite} (env : Env suite) (master : MasterKey)

/-! ### Writing one version -/

/-- `_insert_version` returned. -/
inductive Inserts (workspaceId secretId : String) (value : Bytes) (labels : TextDict)
    (versionNumber : Int) (tables : Tables) (log : List Encryption) :
    SecretMetadata → Tables → List Encryption → Prop
  | intro {clean : Labels} {ciphertext : Bytes}
      (hclean : cleanLabels labels = .ok clean)
      (hencrypt : master.encrypt suite (env.urandom log.length) value
        (aad (freshMetadata suite env master workspaceId secretId clean versionNumber)) =
          .ok ciphertext)
      (hnumber : versionNumber ≤ maxSqliteInteger)
      (hkey : (workspaceId, secretId, env.uuid4) ∉ tables.versions.map VersionRow.key)
      (hnumberKey : (workspaceId, secretId, versionNumber) ∉
        tables.versions.map VersionRow.numberKey) :
      Inserts workspaceId secretId value labels versionNumber tables log
        (freshMetadata suite env master workspaceId secretId clean versionNumber)
        { tables with
          versions := tables.versions ++
            [versionRow (freshMetadata suite env master workspaceId secretId clean versionNumber)
              (env.urandom log.length) ciphertext] }
        (log ++ [⟨master.key, env.urandom log.length, value,
          .version (freshMetadata suite env master workspaceId secretId clean versionNumber),
          ciphertext⟩])

/-- `_insert_version` raised. -/
inductive InsertRefused (workspaceId secretId : String) (value : Bytes) (labels : TextDict)
    (versionNumber : Int) (tables : Tables) : Raised → Prop
  | labels {raised : Raised} (hclean : cleanLabels labels = .error raised) :
      InsertRefused workspaceId secretId value labels versionNumber tables raised
  | cipher {clean : Labels} {nonce : Bytes} {raised : Raised}
      (hclean : cleanLabels labels = .ok clean) (hnonce : nonce.length = nonceBytes)
      (hencrypt : master.encrypt suite nonce value
        (aad (freshMetadata suite env master workspaceId secretId clean versionNumber)) =
          .error raised) :
      InsertRefused workspaceId secretId value labels versionNumber tables raised
  | overflow (hnumber : versionNumber > maxSqliteInteger) :
      InsertRefused workspaceId secretId value labels versionNumber tables .overflowError
  | taken (htaken : (workspaceId, secretId, env.uuid4) ∈ tables.versions.map VersionRow.key ∨
        (workspaceId, secretId, versionNumber) ∈ tables.versions.map VersionRow.numberKey) :
      InsertRefused workspaceId secretId value labels versionNumber tables .secretAlreadyExists
  | fault {raised : Raised} (hfault : env.Faults raised) :
      InsertRefused workspaceId secretId value labels versionNumber tables raised

/-- `_revoke_row` returned. -/
inductive Revokes (row : VersionRow) (revokedAt : String) (tables : Tables)
    (log : List Encryption) : SecretMetadata → Tables → List Encryption → Prop
  | intro {metadata : SecretMetadata} {plaintext ciphertext : Bytes}
      (hmetadata : metadataFromRow row = .ok metadata)
      (hdecrypt : decryptRow suite master row = .ok plaintext)
      (hencrypt : master.encrypt suite (env.urandom log.length) plaintext
        (aad (revokedMetadata metadata revokedAt)) = .ok ciphertext) :
      Revokes row revokedAt tables log (revokedMetadata metadata revokedAt)
        (tables.updateVersion row.key SecretStatus.revoked.value
          (.blob (env.urandom log.length)) (.blob ciphertext) (some revokedAt))
        (log ++ [⟨master.key, env.urandom log.length, plaintext,
          .version (revokedMetadata metadata revokedAt), ciphertext⟩])

/-- `_revoke_row` raised. -/
inductive RevokeRefused (row : VersionRow) (revokedAt : String) : Raised → Prop
  | unreadable {raised : Raised} (hmetadata : metadataFromRow row = .error raised) :
      RevokeRefused row revokedAt raised
  | undecryptable {raised : Raised} (hdecrypt : decryptRow suite master row = .error raised) :
      RevokeRefused row revokedAt raised
  | cipher {metadata : SecretMetadata} {nonce plaintext : Bytes} {raised : Raised}
      (hencrypt : master.encrypt suite nonce plaintext
        (aad (revokedMetadata metadata revokedAt)) = .error raised)
      (hnonce : nonce.length = nonceBytes)
      (hdecrypt : decryptRow suite master row = .ok plaintext) :
      RevokeRefused row revokedAt raised
  | fault {raised : Raised} (hfault : env.Faults raised) : RevokeRefused row revokedAt raised

/-- The loop of `revoke_secret` returned. -/
inductive RevokesEach (revokedAt : String) : List VersionRow → Tables → List Encryption →
    List SecretMetadata → Tables → List Encryption → Prop
  | nil {tables : Tables} {log : List Encryption} :
      RevokesEach revokedAt [] tables log [] tables log
  | kept {row : VersionRow} {rows : List VersionRow} {tables tables' : Tables}
      {log log' : List Encryption} {metadata : SecretMetadata} {revoked : List SecretMetadata}
      (hmetadata : metadataFromRow row = .ok metadata) (hstatus : metadata.status = .revoked)
      (hrest : RevokesEach revokedAt rows tables log revoked tables' log') :
      RevokesEach revokedAt (row :: rows) tables log (metadata :: revoked) tables' log'
  | changed {row : VersionRow} {rows : List VersionRow} {tables middle tables' : Tables}
      {log log' log'' : List Encryption} {metadata changed : SecretMetadata}
      {revoked : List SecretMetadata}
      (hmetadata : metadataFromRow row = .ok metadata) (hstatus : metadata.status ≠ .revoked)
      (hrevokes : Revokes env master row revokedAt tables log changed middle log')
      (hrest : RevokesEach revokedAt rows middle log' revoked tables' log'') :
      RevokesEach revokedAt (row :: rows) tables log (changed :: revoked) tables' log''

/-! ### Operations -/

/-- An operation returned: its reply, the database it left and what it encrypted. -/
inductive Performs (tables : Tables) : Operation → Reply → Tables → List Encryption → Prop
  | created {workspaceId secretId : String} {value : Bytes} {labels : TextDict}
      {metadata : SecretMetadata} {tables' : Tables} {log' : List Encryption}
      (hinsert : Inserts env master workspaceId secretId value labels 1 tables []
        metadata tables' log') :
      Performs tables (.createSecret workspaceId secretId value labels)
        (.metadata metadata) tables' log'
  | rotated {workspaceId secretId : String} {value : Bytes} {labels : TextDict}
      {expectedIntent : Option String} {latest : VersionRow}
      {latestMetadata metadata : SecretMetadata} {tables' : Tables} {log' : List Encryption}
      (hlatest : tables.latestVersion workspaceId secretId = some latest)
      (hmetadata : metadataFromRow latest = .ok latestMetadata)
      (hintent : ¬ LacksIntent latestMetadata expectedIntent)
      (hinsert : Inserts env master workspaceId secretId value labels (latest.versionNumber + 1)
        tables [] metadata tables' log') :
      Performs tables (.rotateSecret workspaceId secretId value labels expectedIntent)
        (.metadata metadata) tables' log'
  | revoked {workspaceId secretId : String} {revoked : List SecretMetadata}
      {tables' : Tables} {log' : List Encryption}
      (hrows : tables.allVersions workspaceId secretId ≠ [])
      (hrevokes : RevokesEach env master env.now (tables.allVersions workspaceId secretId)
        tables [] revoked tables' log') :
      Performs tables (.revokeSecret workspaceId secretId) (.revoked revoked) tables' log'
  | revokedVersion {args : RevokeSecretVersion} {row : VersionRow}
      {metadata revoked : SecretMetadata} {middle : Tables} {log' : List Encryption}
      (hfresh : tables.revocation args.workspaceId args.correlationId = none)
      (htarget : tables.revocationOf args.workspaceId args.secretId args.versionId = none)
      (hrow : tables.selectVersion args.workspaceId args.secretId args.versionId = some row)
      (hmetadata : metadataFromRow row = .ok metadata)
      (hnumber : metadata.versionNumber = args.versionNumber)
      (hstatus : metadata.status ≠ .revoked)
      (hrevokes : Revokes env master row env.now tables [] revoked middle log')
      (hevent : env.eventId ∉ tables.auditRecords.map AuditRecord.eventId) :
      Performs tables (.revokeSecretVersion args) (.metadata revoked)
        { middle with
          revocations := middle.revocations ++ [revocationRow args env.now]
          auditRecords := middle.auditRecords ++ [revocationRecord suite env args revoked
            "revoked" "secret-version-revoked"] } log'
  | revocationReplayed {args : RevokeSecretVersion} {existing : RevocationRow}
      {row : VersionRow} {metadata : SecretMetadata}
      (hexisting : tables.revocation args.workspaceId args.correlationId = some existing)
      (hagrees : args.Agrees existing)
      (hrow : tables.selectVersion args.workspaceId args.secretId args.versionId = some row)
      (hmetadata : metadataFromRow row = .ok metadata)
      (hnumber : metadata.versionNumber = args.versionNumber)
      (hstatus : metadata.status = .revoked)
      (hevent : env.eventId ∉ tables.auditRecords.map AuditRecord.eventId) :
      Performs tables (.revokeSecretVersion args) (.metadata metadata)
        { tables with
          auditRecords := tables.auditRecords ++ [revocationRecord suite env args metadata
            "replayed" "secret-version-revocation-replayed"] } []
  | generated {args : GenerateDelegationKey} {keyId : String} {metadata : SecretMetadata}
      {middle : Tables} {log' : List Encryption}
      (hadmitted : AdmittedFamily args.purpose args.intent)
      (hfresh : tables.generation args.workspaceId args.correlationId = none)
      (hkeyId : delegationKeyId suite (suite.publicPem env.privateKey) = some keyId)
      (hinsert : Inserts env master args.workspaceId args.secretId
        (suite.privateBytes env.privateKey)
        (generationLabels args.intent args.purpose args.issuer keyId) 1 tables []
        metadata middle log')
      (haddress : (args.workspaceId, args.secretId) ∉
        tables.generations.map GenerationRow.address)
      (hevent : env.eventId ∉ tables.auditRecords.map AuditRecord.eventId) :
      Performs tables (.generateDelegationKey args)
        (.generated {
          metadata := metadata
          secretReference := args.secretReference
          purpose := args.purpose
          issuer := args.issuer
          correlationId := args.correlationId
          keyId := keyId
          algorithm := delegationKeyAlgorithm
          publicKeyPem := suite.publicPem env.privateKey
          replayed := false })
        { middle with
          generations := middle.generations ++
            [generationRow args metadata keyId (suite.publicPem env.privateKey)]
          auditRecords := middle.auditRecords ++ [generationRecord suite env args
            metadata.versionId args.intent "generated" "delegation-key-generated"] } log'
  | generationReplayed {args : GenerateDelegationKey} {existing : GenerationRow}
      {secretRow : VersionRow} {key : GeneratedDelegationKey}
      (hadmitted : AdmittedFamily args.purpose args.intent)
      (hexisting : tables.generation args.workspaceId args.correlationId = some existing)
      (hagrees : args.Agrees existing)
      (hrow : tables.selectVersion existing.workspaceId existing.secretId existing.versionId =
        some secretRow)
      (hkey : regenerated suite master existing secretRow args.intent true = .ok key)
      (hevent : env.eventId ∉ tables.auditRecords.map AuditRecord.eventId) :
      Performs tables (.generateDelegationKey args) (.generated key)
        { tables with
          auditRecords := tables.auditRecords ++ [generationRecord suite env args
            key.metadata.versionId args.intent "replayed"
            "delegation-key-generation-replayed"] } []
  | resolved {workspaceId secretId : String} {versionId : Option String} {row : VersionRow}
      {secret : ResolvedSecret}
      (hrow : selectRow tables workspaceId secretId versionId = some row)
      (hresolve : resolveRow suite master row none = .ok secret) :
      Performs tables (.resolveSecret workspaceId secretId versionId)
        (.resolved secret) tables []
  | selected {args : ResolveSecretForUse} {selected row : VersionRow}
      {selectedMetadata : SecretMetadata} {secret : ResolvedSecret}
      (hfresh : tables.selection args.workspaceId args.correlationId = none)
      (hselected : selectRow tables args.workspaceId args.secretId args.versionId =
        some selected)
      (hmetadata : metadataFromRow selected = .ok selectedMetadata)
      (hstatus : selectedMetadata.status ≠ .revoked)
      (hintent : ¬ LacksIntent selectedMetadata (some args.intent))
      (hrow : tables.selectVersion args.workspaceId args.secretId selected.versionId = some row)
      (hresolve : resolveRow suite master row (some args.intent) = .ok secret) :
      Performs tables (.resolveSecretForUse args) (.resolved secret)
        { tables with
          selections := tables.selections ++
            [selectionRow suite env args selected.versionId] } []
  | reselected {args : ResolveSecretForUse} {selection : SelectionRow} {row : VersionRow}
      {secret : ResolvedSecret}
      (hexisting : tables.selection args.workspaceId args.correlationId = some selection)
      (hagrees : args.Agrees selection)
      (hrow : tables.selectVersion args.workspaceId args.secretId selection.versionId =
        some row)
      (hresolve : resolveRow suite master row (some args.intent) = .ok secret) :
      Performs tables (.resolveSecretForUse args) (.resolved secret) tables []
  | described {workspaceId secretId : String} {versionId : Option String} {row : VersionRow}
      {metadata : SecretMetadata}
      (hrow : selectRow tables workspaceId secretId versionId = some row)
      (hmetadata : metadataFromRow row = .ok metadata) :
      Performs tables (.metadata workspaceId secretId versionId) (.metadata metadata) tables []

/-- An operation raised. -/
inductive Refuses (tables : Tables) : Operation → Raised → Prop
  | fault {operation : Operation} {raised : Raised} (hfault : env.Faults raised) :
      Refuses tables operation raised
  | createRefused {workspaceId secretId : String} {value : Bytes} {labels : TextDict}
      {raised : Raised}
      (hrefused : InsertRefused env master workspaceId secretId value labels 1 tables raised) :
      Refuses tables (.createSecret workspaceId secretId value labels) raised
  | rotateMissing {workspaceId secretId : String} {value : Bytes} {labels : TextDict}
      {expectedIntent : Option String}
      (hlatest : tables.latestVersion workspaceId secretId = none) :
      Refuses tables (.rotateSecret workspaceId secretId value labels expectedIntent)
        .secretMissing
  | rotateUnreadable {workspaceId secretId : String} {value : Bytes} {labels : TextDict}
      {expectedIntent : Option String} {latest : VersionRow} {raised : Raised}
      (hlatest : tables.latestVersion workspaceId secretId = some latest)
      (hmetadata : metadataFromRow latest = .error raised) :
      Refuses tables (.rotateSecret workspaceId secretId value labels expectedIntent) raised
  | rotateMismatch {workspaceId secretId : String} {value : Bytes} {labels : TextDict}
      {expectedIntent : Option String} {latest : VersionRow} {latestMetadata : SecretMetadata}
      (hlatest : tables.latestVersion workspaceId secretId = some latest)
      (hmetadata : metadataFromRow latest = .ok latestMetadata)
      (hintent : LacksIntent latestMetadata expectedIntent) :
      Refuses tables (.rotateSecret workspaceId secretId value labels expectedIntent)
        .secretIntentMismatch
  | rotateRefused {workspaceId secretId : String} {value : Bytes} {labels : TextDict}
      {expectedIntent : Option String} {latest : VersionRow} {raised : Raised}
      (hlatest : tables.latestVersion workspaceId secretId = some latest)
      (hrefused : InsertRefused env master workspaceId secretId value labels
        (latest.versionNumber + 1) tables raised) :
      Refuses tables (.rotateSecret workspaceId secretId value labels expectedIntent) raised
  | revokeMissing {workspaceId secretId : String}
      (hrows : tables.allVersions workspaceId secretId = []) :
      Refuses tables (.revokeSecret workspaceId secretId) .secretMissing
  | revokeRefused {workspaceId secretId : String} {row : VersionRow} {raised : Raised}
      (hrow : row ∈ tables.allVersions workspaceId secretId)
      (hrefused : RevokeRefused env master row env.now raised) :
      Refuses tables (.revokeSecret workspaceId secretId) raised
  | revocationConflict {args : RevokeSecretVersion} {existing : RevocationRow}
      (hexisting : tables.revocation args.workspaceId args.correlationId = some existing)
      (hagrees : ¬ args.Agrees existing) :
      Refuses tables (.revokeSecretVersion args) .secretVersionRevocationConflict
  | revocationTaken {args : RevokeSecretVersion}
      (hfresh : tables.revocation args.workspaceId args.correlationId = none)
      (htarget : tables.revocationOf args.workspaceId args.secretId args.versionId ≠ none) :
      Refuses tables (.revokeSecretVersion args) .secretVersionRevocationConflict
  | revocationMissing {args : RevokeSecretVersion}
      (hadmits : ∀ existing, tables.revocation args.workspaceId args.correlationId =
        some existing → args.Agrees existing)
      (hrow : tables.selectVersion args.workspaceId args.secretId args.versionId = none) :
      Refuses tables (.revokeSecretVersion args) .secretMissing
  | revocationUnreadable {args : RevokeSecretVersion} {row : VersionRow} {raised : Raised}
      (hadmits : ∀ existing, tables.revocation args.workspaceId args.correlationId =
        some existing → args.Agrees existing)
      (hrow : tables.selectVersion args.workspaceId args.secretId args.versionId = some row)
      (hmetadata : metadataFromRow row = .error raised) :
      Refuses tables (.revokeSecretVersion args) raised
  | revocationReplayConflict {args : RevokeSecretVersion} {existing : RevocationRow}
      {row : VersionRow} {metadata : SecretMetadata}
      (hexisting : tables.revocation args.workspaceId args.correlationId = some existing)
      (hrow : tables.selectVersion args.workspaceId args.secretId args.versionId = some row)
      (hmetadata : metadataFromRow row = .ok metadata)
      (hconflict : metadata.versionNumber ≠ args.versionNumber ∨ metadata.status ≠ .revoked) :
      Refuses tables (.revokeSecretVersion args) .secretVersionRevocationConflict
  | revocationMismatch {args : RevokeSecretVersion} {row : VersionRow}
      {metadata : SecretMetadata}
      (hfresh : tables.revocation args.workspaceId args.correlationId = none)
      (hrow : tables.selectVersion args.workspaceId args.secretId args.versionId = some row)
      (hmetadata : metadataFromRow row = .ok metadata)
      (hnumber : metadata.versionNumber ≠ args.versionNumber) :
      Refuses tables (.revokeSecretVersion args) .secretVersionRevocationConflict
  | revocationRevoked {args : RevokeSecretVersion} {row : VersionRow}
      {metadata : SecretMetadata}
      (hfresh : tables.revocation args.workspaceId args.correlationId = none)
      (hrow : tables.selectVersion args.workspaceId args.secretId args.versionId = some row)
      (hmetadata : metadataFromRow row = .ok metadata)
      (hstatus : metadata.status = .revoked) :
      Refuses tables (.revokeSecretVersion args) .secretRevoked
  | revocationRefused {args : RevokeSecretVersion} {row : VersionRow} {raised : Raised}
      (hfresh : tables.revocation args.workspaceId args.correlationId = none)
      (hrow : tables.selectVersion args.workspaceId args.secretId args.versionId = some row)
      (hrefused : RevokeRefused env master row env.now raised) :
      Refuses tables (.revokeSecretVersion args) raised
  | revocationAudit {args : RevokeSecretVersion}
      (hadmits : ∀ existing, tables.revocation args.workspaceId args.correlationId =
        some existing → args.Agrees existing)
      (hblocked : AuditBlocked env tables) :
      Refuses tables (.revokeSecretVersion args) .auditUnavailable
  | generationInadmissible {args : GenerateDelegationKey}
      (hadmitted : ¬ AdmittedFamily args.purpose args.intent) :
      Refuses tables (.generateDelegationKey args) .secretMetadataInvalid
  | generationConflict {args : GenerateDelegationKey} {existing : GenerationRow}
      (hexisting : tables.generation args.workspaceId args.correlationId = some existing)
      (hagrees : ¬ args.Agrees existing) :
      Refuses tables (.generateDelegationKey args) .delegationKeyGenerationConflict
  | generationMissing {args : GenerateDelegationKey} {existing : GenerationRow}
      (hexisting : tables.generation args.workspaceId args.correlationId = some existing)
      (hagrees : args.Agrees existing)
      (hrow : tables.selectVersion existing.workspaceId existing.secretId existing.versionId =
        none) :
      Refuses tables (.generateDelegationKey args) .secretMissing
  | generationUnverified {args : GenerateDelegationKey} {existing : GenerationRow}
      {secretRow : VersionRow} {raised : Raised}
      (hadmitted : AdmittedFamily args.purpose args.intent)
      (hexisting : tables.generation args.workspaceId args.correlationId = some existing)
      (hagrees : args.Agrees existing)
      (hrow : tables.selectVersion existing.workspaceId existing.secretId existing.versionId =
        some secretRow)
      (hkey : regenerated suite master existing secretRow args.intent true = .error raised) :
      Refuses tables (.generateDelegationKey args) raised
  | generationKeyId {args : GenerateDelegationKey}
      (hfresh : tables.generation args.workspaceId args.correlationId = none)
      (hkeyId : delegationKeyId suite (suite.publicPem env.privateKey) = none) :
      Refuses tables (.generateDelegationKey args) .valueError
  | generationRefused {args : GenerateDelegationKey} {keyId : String} {raised : Raised}
      (hfresh : tables.generation args.workspaceId args.correlationId = none)
      (hkeyId : delegationKeyId suite (suite.publicPem env.privateKey) = some keyId)
      (hrefused : InsertRefused env master args.workspaceId args.secretId
        (suite.privateBytes env.privateKey)
        (generationLabels args.intent args.purpose args.issuer keyId) 1 tables raised) :
      Refuses tables (.generateDelegationKey args) raised
  | generationTaken {args : GenerateDelegationKey}
      (hfresh : tables.generation args.workspaceId args.correlationId = none)
      (haddress : (args.workspaceId, args.secretId) ∈
        tables.generations.map GenerationRow.address)
      (hnumber : (args.workspaceId, args.secretId, 1) ∉
        tables.versions.map VersionRow.numberKey) :
      Refuses tables (.generateDelegationKey args) .integrityError
  | generationAudit {args : GenerateDelegationKey} (hblocked : AuditBlocked env tables) :
      Refuses tables (.generateDelegationKey args) .auditUnavailable
  | resolveMissing {workspaceId secretId : String} {versionId : Option String}
      (hrow : selectRow tables workspaceId secretId versionId = none) :
      Refuses tables (.resolveSecret workspaceId secretId versionId) .secretMissing
  | resolveRefused {workspaceId secretId : String} {versionId : Option String}
      {row : VersionRow} {raised : Raised}
      (hrow : selectRow tables workspaceId secretId versionId = some row)
      (hresolve : resolveRow suite master row none = .error raised) :
      Refuses tables (.resolveSecret workspaceId secretId versionId) raised
  | selectionConflict {args : ResolveSecretForUse} {selection : SelectionRow}
      (hexisting : tables.selection args.workspaceId args.correlationId = some selection)
      (hagrees : ¬ args.Agrees selection) :
      Refuses tables (.resolveSecretForUse args) .secretResolutionConflict
  | selectionMissing {args : ResolveSecretForUse}
      (hfresh : tables.selection args.workspaceId args.correlationId = none)
      (hselected : selectRow tables args.workspaceId args.secretId args.versionId = none) :
      Refuses tables (.resolveSecretForUse args) .secretMissing
  | selectionUnfit {args : ResolveSecretForUse} {selected : VersionRow} {raised : Raised}
      (hfresh : tables.selection args.workspaceId args.correlationId = none)
      (hselected : selectRow tables args.workspaceId args.secretId args.versionId =
        some selected)
      (hresolve : resolveRow suite master selected (some args.intent) = .error raised) :
      Refuses tables (.resolveSecretForUse args) raised
  | selectionRefused {args : ResolveSecretForUse} {selected row : VersionRow}
      {raised : Raised}
      (hfresh : tables.selection args.workspaceId args.correlationId = none)
      (hselected : selectRow tables args.workspaceId args.secretId args.versionId =
        some selected)
      (hrow : tables.selectVersion args.workspaceId args.secretId selected.versionId = some row)
      (hresolve : resolveRow suite master row (some args.intent) = .error raised) :
      Refuses tables (.resolveSecretForUse args) raised
  | pinnedMissing {args : ResolveSecretForUse} {selection : SelectionRow}
      (hexisting : tables.selection args.workspaceId args.correlationId = some selection)
      (hagrees : args.Agrees selection)
      (hrow : tables.selectVersion args.workspaceId args.secretId selection.versionId = none) :
      Refuses tables (.resolveSecretForUse args) .secretMissing
  | pinnedRefused {args : ResolveSecretForUse} {selection : SelectionRow} {row : VersionRow}
      {raised : Raised}
      (hexisting : tables.selection args.workspaceId args.correlationId = some selection)
      (hagrees : args.Agrees selection)
      (hrow : tables.selectVersion args.workspaceId args.secretId selection.versionId =
        some row)
      (hresolve : resolveRow suite master row (some args.intent) = .error raised) :
      Refuses tables (.resolveSecretForUse args) raised
  | describeMissing {workspaceId secretId : String} {versionId : Option String}
      (hrow : selectRow tables workspaceId secretId versionId = none) :
      Refuses tables (.metadata workspaceId secretId versionId) .secretMissing
  | describeUnreadable {workspaceId secretId : String} {versionId : Option String}
      {row : VersionRow} {raised : Raised}
      (hrow : selectRow tables workspaceId secretId versionId = some row)
      (hmetadata : metadataFromRow row = .error raised) :
      Refuses tables (.metadata workspaceId secretId versionId) raised

end

end SecretsCustody
