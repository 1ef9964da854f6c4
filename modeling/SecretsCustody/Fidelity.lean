/-
Custody fidelity.  Under one master key every row reads back as the metadata
last written, every resolution returns the bytes that were inserted, and no call
finds a record tampered with.
-/
import SecretsCustody.Generations

namespace SecretsCustody

open History KeyedRows

section

variable {suite : CryptoSuite}

section

variable {env : Env suite} {master : MasterKey} {tables : Tables} {operation : Operation}

theorem metadataFromRow_not_tampered {row : VersionRow} :
    metadataFromRow row ≠ .error .secretTampered := by
  intro hmetadata
  have hlisted := metadataFromRow_error hmetadata
  simp [readingErrors] at hlisted

theorem Env.Faults.not_tampered : ¬ env.Faults .secretTampered := by
  rintro ⟨_, _, _, hraised⟩
  cases hraised

theorem encrypt_not_tampered {nonce plaintext associated : Bytes} :
    master.encrypt suite nonce plaintext associated ≠ .error .secretTampered := by
  intro hencrypt
  rcases MasterKey.encrypt_error hencrypt with hraised | hraised <;> cases hraised

theorem InsertRefused.not_tampered {workspaceId secretId : String} {value : Bytes}
    {labels : TextDict} {versionNumber : Int} :
    ¬ InsertRefused env master workspaceId secretId value labels versionNumber tables
      .secretTampered := by
  intro hrefused
  cases hrefused with
  | labels hclean => cases cleanLabels_error hclean
  | cipher _ _ hencrypt => exact encrypt_not_tampered hencrypt
  | fault hfault => exact hfault.not_tampered

variable {steps : List (Step suite)} {row : VersionRow}

theorem AllRecorded.decrypts (hsuite : suite.DecryptsOwn)
    (hrecorded : AllRecorded master.key steps tables) (hrow : row ∈ tables.versions) :
    decryptRow suite master row ≠ .error .secretTampered := by
  obtain ⟨metadata, value, hhere⟩ := hrecorded row hrow
  rw [hhere.decrypts hsuite rfl]
  intro hraised
  cases hraised

theorem AllRecorded.revokes (hsuite : suite.DecryptsOwn)
    (hrecorded : AllRecorded master.key steps tables) (hrow : row ∈ tables.versions)
    {revokedAt : String} : ¬ RevokeRefused env master row revokedAt .secretTampered := by
  intro hrefused
  cases hrefused with
  | unreadable hmetadata => exact metadataFromRow_not_tampered hmetadata
  | undecryptable hdecrypt => exact hrecorded.decrypts hsuite hrow hdecrypt
  | cipher hencrypt => exact encrypt_not_tampered hencrypt
  | fault hfault => exact hfault.not_tampered

theorem AllRecorded.resolves (hsuite : suite.DecryptsOwn)
    (hrecorded : AllRecorded master.key steps tables) {workspaceId secretId : String}
    {versionId intent : Option String}
    (hrow : selectRow tables workspaceId secretId versionId = some row) :
    resolveRow suite master row intent ≠ .error .secretTampered := by
  intro hresolve
  rcases resolveRow_eq_error.mp hresolve with hmetadata | ⟨_, _, hstatus | ⟨_, hintent | hdecrypt⟩⟩
  · exact metadataFromRow_not_tampered hmetadata
  · cases hstatus.2
  · cases hintent.2
  · exact hrecorded.decrypts hsuite (selectRow_eq_some hrow).1 hdecrypt.2

/-- A replay of a recorded generation does not find it tampered with. -/
theorem AllGenerated.regenerates (hsuite : suite.DecryptsOwn) (hmaterial : suite.KeyMaterial)
    (hrecorded : AllRecorded master.key steps tables) (hgenerated : AllGenerated steps tables)
    {args : GenerateDelegationKey} {existing : GenerationRow}
    (hadmitted : AdmittedFamily args.purpose args.intent)
    (hexisting : existing ∈ tables.generations) (hagrees : args.Agrees existing)
    (hrow : row ∈ tables.versions) (hkey : row.key = existing.target) :
    regenerated suite master existing row args.intent true ≠ .error .secretTampered := by
  obtain ⟨metadata, value, hhere⟩ := hrecorded row hrow
  obtain ⟨privateKey, keyId, intent, hfrom⟩ := hgenerated existing hexisting
  have hpurpose : existing.purpose = args.purpose := hagrees.2.2.1
  have hintent : intent = args.intent :=
    AdmittedFamily.intent_eq hadmitted (hpurpose ▸ hfrom.admitted)
  by_cases hrevoked : metadata.status = .revoked
  · rw [regenerated_of_revoked hhere.reads hrevoked]
    intro hraised
    cases hraised
  · obtain ⟨generated, hregenerated⟩ := hfrom.regenerated hsuite hmaterial hhere hkey hrevoked rfl
    rw [← hintent, hregenerated]
    intro hraised
    cases hraised

/-- No operation on recorded tables finds a record tampered with. -/
theorem Refuses.not_tampered (hsuite : suite.DecryptsOwn) (hmaterial : suite.KeyMaterial)
    (hrecorded : AllRecorded master.key steps tables) (hgenerated : AllGenerated steps tables) :
    ¬ Refuses env master tables operation .secretTampered := by
  intro hrefuses
  cases hrefuses with
  | fault hfault => exact hfault.not_tampered
  | createRefused hrefused => exact hrefused.not_tampered
  | rotateUnreadable _ hmetadata => exact metadataFromRow_not_tampered hmetadata
  | rotateRefused _ hrefused => exact hrefused.not_tampered
  | revokeRefused hrow hrefused =>
      exact hrecorded.revokes hsuite (Tables.mem_allVersions.mp hrow).1 hrefused
  | revocationUnreadable _ _ hmetadata => exact metadataFromRow_not_tampered hmetadata
  | revocationRefused _ hrow hrefused =>
      exact hrecorded.revokes hsuite (Tables.selectVersion_eq_some hrow).1 hrefused
  | generationUnverified hadmitted hexisting hagrees hrow hkey =>
      obtain ⟨hmem, htarget⟩ := Tables.selectVersion_eq_some hrow
      exact hgenerated.regenerates hsuite hmaterial hrecorded hadmitted (mem_of_find hexisting)
        hagrees hmem htarget hkey
  | generationRefused _ _ hrefused => exact hrefused.not_tampered
  | resolveRefused hrow hresolve => exact hrecorded.resolves hsuite hrow hresolve
  | selectionUnfit _ hselected hresolve => exact hrecorded.resolves hsuite hselected hresolve
  | @selectionRefused args selected row _ _ _ hrow hresolve =>
      have hselected : selectRow tables args.workspaceId args.secretId
        (some selected.versionId) = some row := hrow
      exact hrecorded.resolves hsuite hselected hresolve
  | @pinnedRefused args selection row _ _ _ hrow hresolve =>
      have hselected : selectRow tables args.workspaceId args.secretId
        (some selection.versionId) = some row := hrow
      exact hrecorded.resolves hsuite hselected hresolve
  | describeUnreadable _ hmetadata => exact metadataFromRow_not_tampered hmetadata

end

/-- What holds of the custody of an execution under one master key. -/
structure CustodyFaithful (key : Bytes) (system : System Tables (Call suite) Outcome) :
    Prop where
  /-- A row reads as the metadata last written under its key, its associated
  data is that of its last encryption, and it decrypts to what was inserted. -/
  rows : ∀ row ∈ system.committed.versions, ∃ metadata encryption original value,
    metadataFromRow row = .ok metadata ∧
      findLast SecretMetadata.key (writtenIn system.log) row.key = some metadata ∧
      findLast Encryption.versionKey (encryptedIn system.log) (some row.key) = some encryption ∧
      encryption.associated.data = aad metadata ∧
      findLast insertionKey (insertedIn system.log) row.key = some (original, value) ∧
      ∀ master : MasterKey, master.key = key → decryptRow suite master row = .ok value
  untampered : ∀ step ∈ system.log, step.output.result ≠ .error .secretTampered
  /-- A resolution returns the bytes its version was inserted with. -/
  resolved : ∀ earlier step later, system.log = earlier ++ step :: later →
    ∀ secret, step.output.result = .ok (.resolved secret) →
      ∃ original, findLast insertionKey (insertedIn earlier) secret.metadata.key =
        some (original, secret.value)

end

/-- Two versions of a labelled secret, written and revoked across a restart
under another key version, and resolved on both sides of it. -/
def custody : List (Event (Call transparentSuite)) :=
  [.begin 0 (plainCall "a" (.createSecret "workspace" "secret" [1]
      ⟨[⟨"intent", "use"⟩, ⟨"area", "tests"⟩], by
        change ["intent", "area"].Nodup
        decide⟩)),
    .commit 0,
    .read 0 (plainCall "b" (.resolveSecret "workspace" "secret" none)),
    .begin 0 (plainCall "c" (.rotateSecret "workspace" "secret" [2] ⟨[], List.nodup_nil⟩ none)),
    .crash 0,
    .begin 1 { plainCall "d" (.rotateSecret "workspace" "secret" [3] ⟨[], List.nodup_nil⟩
      (some "use")) with master := ⟨[], "restarted"⟩ },
    .commit 1,
    .begin 1 (plainCall "e" (.revokeSecretVersion {
      workspaceId := "workspace", secretId := "secret", versionId := "a", versionNumber := 1,
      callerSubject := "caller", correlationId := "e", providerId := "provider" })),
    .commit 1,
    .read 1 (plainCall "f" (.resolveSecret "workspace" "secret" none))]

end SecretsCustody
