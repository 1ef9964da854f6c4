/-
Databases that differ in written values only: the same rows in the same order,
column by column, except ciphertexts of values that decrypt.
-/
import SecretsCustody.Coupling
import SecretsCustody.StoreEffects

namespace SecretsCustody

open Effect JsonText

section

variable (suite : CryptoSuite) (master : MasterKey)

/-- Encryption raises or not whatever the value, within the bound of the API. -/
def EncryptsAlike : Prop :=
  ∀ nonce value value' associated, value.length ≤ maxSecretBytes →
    value'.length ≤ maxSecretBytes →
      Alike (fun _ _ => True) (master.encrypt suite nonce value associated)
        (master.encrypt suite nonce value' associated)

/-- The row decrypts to a value within the bound of the API. -/
def HoldsValue (row : VersionRow) : Prop :=
  ∃ value, decryptRow suite master row = .ok value ∧ value.length ≤ maxSecretBytes

/-- Rows that differ in the ciphertext of their values, if at all. -/
structure LowRow (row row' : VersionRow) : Prop where
  columns : row' = { row with ciphertext := row'.ciphertext }
  values : row' = row ∨ HoldsValue suite master row ∧ HoldsValue suite master row'

/-- Databases that differ in the ciphertexts of written values, if at all: generated keys are
the same in both. -/
structure LowTables (tables tables' : Tables) : Prop where
  versions : List.Forall₂ (LowRow suite master) tables.versions tables'.versions
  selections : tables'.selections = tables.selections
  generations : tables'.generations = tables.generations
  revocations : tables'.revocations = tables.revocations
  auditRecords : tables'.auditRecords = tables.auditRecords
  keys : KeyedRows.Unique VersionRow.key tables.versions
  refers : ∀ generation ∈ tables.generations,
    generation.target ∈ tables.versions.map VersionRow.key
  generated : ∀ generation ∈ tables.generations, ∀ row ∈ tables.versions,
    row.key = generation.target → row ∈ tables'.versions

end

section

variable {suite : CryptoSuite} {master : MasterKey}

namespace LowRow

variable {row row' : VersionRow}

theorem key (hlow : LowRow suite master row row') : row'.key = row.key := by
  rw [hlow.columns]
  rfl

theorem numberKey (hlow : LowRow suite master row row') : row'.numberKey = row.numberKey := by
  rw [hlow.columns]
  rfl

theorem address (hlow : LowRow suite master row row') : row'.address = row.address := by
  rw [hlow.columns]
  rfl

theorem versionNumber (hlow : LowRow suite master row row') :
    row'.versionNumber = row.versionNumber := by
  rw [hlow.columns]

/-- Reading the metadata does not look at the ciphertext. -/
theorem metadata (hlow : LowRow suite master row row') :
    metadataFromRow row' = metadataFromRow row := by
  rw [hlow.columns]
  rfl

/-- Both rows decrypt, to the same value if they are the same, or neither does. -/
theorem decrypts (hlow : LowRow suite master row row') :
    Alike (fun value value' => (row' = row ∧ value' = value) ∨
        value.length ≤ maxSecretBytes ∧ value'.length ≤ maxSecretBytes)
      (decryptRow suite master row) (decryptRow suite master row') := by
  rcases hlow.values with rfl | ⟨⟨value, hvalue, hbound⟩, value', hvalue', hbound'⟩
  · exact Alike.refl fun _ _ => .inl ⟨rfl, rfl⟩
  · rw [hvalue, hvalue']
    exact .inr ⟨hbound, hbound'⟩

end LowRow

theorem lowTables_empty : LowTables suite master Tables.empty Tables.empty where
  versions := .nil
  selections := rfl
  generations := rfl
  revocations := rfl
  auditRecords := rfl
  keys := KeyedRows.unique_nil
  refers := fun _ hmem => nomatch hmem
  generated := fun _ hmem => nomatch hmem

namespace LowTables

variable {tables tables' : Tables}

theorem keys_eq (hlow : LowTables suite master tables tables') :
    tables'.versions.map VersionRow.key = tables.versions.map VersionRow.key :=
  KeyedRows.map_eq_of_related hlow.versions fun _ _ => LowRow.key

theorem keys' (hlow : LowTables suite master tables tables') :
    KeyedRows.Unique VersionRow.key tables'.versions := by
  unfold KeyedRows.Unique
  rw [hlow.keys_eq]
  exact hlow.keys

/-! ### Queries -/

theorem selectVersion (hlow : LowTables suite master tables tables')
    (workspaceId secretId versionId : String) :
    Option.Rel (LowRow suite master) (tables.selectVersion workspaceId secretId versionId)
      (tables'.selectVersion workspaceId secretId versionId) :=
  KeyedRows.find_related hlow.versions (fun _ _ => LowRow.key) _

theorem latestVersion (hlow : LowTables suite master tables tables')
    (workspaceId secretId : String) :
    Option.Rel (LowRow suite master) (tables.latestVersion workspaceId secretId)
      (tables'.latestVersion workspaceId secretId) := by
  refine KeyedRows.latest_related hlow.versions ?_ fun _ _ => LowRow.versionNumber
  intro row row' hrow
  rw [hrow.address]

theorem selectRow (hlow : LowTables suite master tables tables') (workspaceId secretId : String)
    (versionId : Option String) :
    Option.Rel (LowRow suite master) (SecretsCustody.selectRow tables workspaceId secretId versionId)
      (SecretsCustody.selectRow tables' workspaceId secretId versionId) := by
  cases versionId with
  | none => exact hlow.latestVersion workspaceId secretId
  | some versionId => exact hlow.selectVersion workspaceId secretId versionId

theorem allVersions (hlow : LowTables suite master tables tables')
    (workspaceId secretId : String) :
    List.Forall₂ (LowRow suite master) (tables.allVersions workspaceId secretId)
      (tables'.allVersions workspaceId secretId) := by
  refine KeyedRows.insertionSort_related (fun _ _ => LowRow.versionNumber) ?_
  refine KeyedRows.filter_related hlow.versions ?_
  intro row row' hrow
  rw [hrow.address]

/-! ### Statements that write -/

/-- A new pair of rows goes into both tables or into neither; the same row is then in both. -/
theorem insertVersion (hlow : LowTables suite master tables tables') {row row' : VersionRow}
    (hrow : LowRow suite master row row') :
    Alike (fun after after' => LowTables suite master after after' ∧
        (row' = row → ∀ found ∈ after.versions, found.key = row.key → found ∈ after'.versions))
      (tables.insertVersion row) (tables'.insertVersion row') := by
  have hnumbers : tables'.versions.map VersionRow.numberKey =
      tables.versions.map VersionRow.numberKey :=
    KeyedRows.map_eq_of_related hlow.versions fun _ _ => LowRow.numberKey
  unfold Tables.insertVersion
  rw [hlow.keys_eq, hnumbers, hrow.key, hrow.numberKey]
  split
  · rfl
  · next hfree =>
      rw [not_or] at hfree
      constructor
      · constructor
        · exact List.rel_append hlow.versions (.cons hrow .nil)
        · exact hlow.selections
        · exact hlow.generations
        · exact hlow.revocations
        · exact hlow.auditRecords
        · exact hlow.keys.append hfree.1
        · intro generation hgeneration
          rw [List.map_append]
          exact List.mem_append_left _ (hlow.refers generation hgeneration)
        · intro generation hgeneration found hfound hkey
          rcases List.mem_append.mp hfound with hold | hnew
          · exact List.mem_append_left _ (hlow.generated generation hgeneration found hold hkey)
          · rw [List.mem_singleton] at hnew
            subst hnew
            exact absurd (hkey ▸ hlow.refers generation hgeneration) hfree.1
      · rintro rfl found hfound hkey
        rcases List.mem_append.mp hfound with hold | hnew
        · exact absurd (hkey ▸ List.mem_map_of_mem hold) hfree.1
        · exact List.mem_append_right _ hnew

/-- A pair of rows of the tables is revoked in both. -/
theorem updateVersion (hlow : LowTables suite master tables tables') {row row' : VersionRow}
    (hrow : row ∈ tables.versions) (hrow' : row' ∈ tables'.versions) (hkey : row'.key = row.key)
    {nonce ciphertext ciphertext' : Bytes} {revokedAt : String}
    (hresealed : LowRow suite master (row.resealed nonce ciphertext revokedAt)
      (row'.resealed nonce ciphertext' revokedAt))
    (hsame : row' = row → ciphertext' = ciphertext) :
    LowTables suite master
      (tables.updateVersion row.key SecretStatus.revoked.value (.blob nonce) (.blob ciphertext)
        (some revokedAt))
      (tables'.updateVersion row.key SecretStatus.revoked.value (.blob nonce) (.blob ciphertext')
        (some revokedAt)) := by
  have hpair : ∀ other ∈ tables.versions, ∀ other' ∈ tables'.versions,
      LowRow suite master other other' →
        LowRow suite master
          (if other.key = row.key then other.resealed nonce ciphertext revokedAt else other)
          (if other'.key = row.key then other'.resealed nonce ciphertext' revokedAt
            else other') := by
    intro other hother other' hother' hlowRow
    rw [hlowRow.key]
    split
    · next hat =>
        obtain rfl := hlow.keys.eq_of_key hother hrow hat
        obtain rfl := hlow.keys'.eq_of_key hother' hrow' (hlowRow.key.trans hkey.symm)
        exact hresealed
    · exact hlowRow
  constructor
  · unfold Tables.updateVersion
    dsimp only
    rw [List.forall₂_map_left_iff, List.forall₂_map_right_iff]
    refine (KeyedRows.related_mem hlow.versions).imp ?_
    rintro other other' ⟨hlowRow, hother, hother'⟩
    exact hpair other hother other' hother' hlowRow
  · exact hlow.selections
  · exact hlow.generations
  · exact hlow.revocations
  · exact hlow.auditRecords
  · unfold KeyedRows.Unique
    rw [Tables.updateVersion_keys]
    exact hlow.keys
  · intro generation hgeneration
    rw [Tables.updateVersion_keys]
    exact hlow.refers generation hgeneration
  · intro generation hgeneration found hfound htarget
    obtain ⟨other, hother, rfl⟩ := List.mem_map.mp hfound
    have hotherKey : other.key = generation.target := by
      rw [← htarget]
      split <;> rfl
    have hother' := hlow.generated generation hgeneration other hother hotherKey
    apply List.mem_map.mpr
    refine ⟨other, hother', ?_⟩
    by_cases hat : other.key = row.key
    · obtain rfl := hlow.keys.eq_of_key hother hrow hat
      obtain rfl := hlow.keys'.eq_of_key hother' hrow' hkey.symm
      rw [hsame rfl]
    · rw [if_neg hat, if_neg hat]

end LowTables

/-- A revoked row still holds its value. -/
theorem holdsValue_resealed (hsuite : suite.DecryptsOwn) {row : VersionRow}
    (hholds : HoldsValue suite master row) {metadata : SecretMetadata}
    (hmetadata : metadataFromRow row = .ok metadata) {plaintext : Bytes}
    (hdecrypt : decryptRow suite master row = .ok plaintext) {nonce ciphertext : Bytes}
    {revokedAt : String}
    (hencrypt : master.encrypt suite nonce plaintext (aad (revokedMetadata metadata revokedAt)) =
      .ok ciphertext) :
    HoldsValue suite master (row.resealed nonce ciphertext revokedAt) := by
  obtain ⟨value, hvalue, hbound⟩ := hholds
  rw [hdecrypt] at hvalue
  cases hvalue
  obtain ⟨found, _, _, hfound, halgorithm, hfingerprint, _⟩ := decryptRow_eq_ok.mp hdecrypt
  rw [hmetadata] at hfound
  cases hfound
  have hshallow := decryptRow_shallow hdecrypt
  refine ⟨plaintext, decryptRow_eq_ok.mpr ⟨revokedMetadata metadata revokedAt, nonce, ciphertext,
    metadataFromRow_resealed hmetadata nonce ciphertext revokedAt, halgorithm, hfingerprint, rfl,
    rfl, hshallow, ?_⟩, hbound⟩
  exact MasterKey.decrypt_of_encrypt hsuite rfl hencrypt

/-- A pair of rows that was the same before it was revoked, or holds values, is so after. -/
theorem resealed_lowRow (hsuite : suite.DecryptsOwn) {row row' : VersionRow}
    (hrow : LowRow suite master row row') {metadata : SecretMetadata}
    (hmetadata : metadataFromRow row = .ok metadata) {plaintext plaintext' : Bytes}
    (hdecrypt : decryptRow suite master row = .ok plaintext)
    (hdecrypt' : decryptRow suite master row' = .ok plaintext')
    {nonce ciphertext ciphertext' : Bytes} {revokedAt : String}
    (hencrypt : master.encrypt suite nonce plaintext (aad (revokedMetadata metadata revokedAt)) =
      .ok ciphertext)
    (hencrypt' : master.encrypt suite nonce plaintext' (aad (revokedMetadata metadata revokedAt)) =
      .ok ciphertext') :
    LowRow suite master (row.resealed nonce ciphertext revokedAt)
      (row'.resealed nonce ciphertext' revokedAt) ∧ (row' = row → ciphertext' = ciphertext) := by
  have hsame : row' = row → ciphertext' = ciphertext := by
    rintro rfl
    rw [hdecrypt] at hdecrypt'
    cases hdecrypt'
    rw [hencrypt] at hencrypt'
    cases hencrypt'
    rfl
  refine ⟨⟨?_, ?_⟩, hsame⟩
  · rw [hrow.columns]
    rfl
  · by_cases hrows : row' = row
    · left
      rw [hrows, hsame hrows]
    · obtain ⟨hholds, hholds'⟩ := hrow.values.resolve_left hrows
      have hmetadata' : metadataFromRow row' = .ok metadata := hrow.metadata.trans hmetadata
      exact .inr ⟨holdsValue_resealed hsuite hholds hmetadata hdecrypt hencrypt,
        holdsValue_resealed hsuite hholds' hmetadata' hdecrypt' hencrypt'⟩

/-- Two encryptions of the values of a pair of rows raise alike. -/
theorem encrypt_alike (hcipher : EncryptsAlike suite master) {nonce value value' associated : Bytes}
    (hvalues : value' = value ∨ value.length ≤ maxSecretBytes ∧ value'.length ≤ maxSecretBytes) :
    Alike (fun ciphertext ciphertext' =>
        master.encrypt suite nonce value associated = .ok ciphertext ∧
          master.encrypt suite nonce value' associated = .ok ciphertext')
      (master.encrypt suite nonce value associated)
      (master.encrypt suite nonce value' associated) := by
  have halike : Alike (fun _ _ => True) (master.encrypt suite nonce value associated)
      (master.encrypt suite nonce value' associated) := by
    rcases hvalues with rfl | ⟨hbound, hbound'⟩
    · exact Alike.refl fun _ _ => trivial
    · exact hcipher nonce value value' associated hbound hbound'
  cases hleft : master.encrypt suite nonce value associated <;>
    cases hright : master.encrypt suite nonce value' associated <;>
      simp only [hleft, hright, Alike] at halike
  · exact halike
  · exact ⟨rfl, rfl⟩

namespace LowTables

variable {tables tables' : Tables}

theorem insertSelection (hlow : LowTables suite master tables tables') (row : SelectionRow) :
    Alike (LowTables suite master) (tables.insertSelection row) (tables'.insertSelection row) := by
  unfold Tables.insertSelection
  rw [hlow.selections, hlow.keys_eq]
  split
  · rfl
  · exact { hlow with selections := rfl }

theorem insertRevocation (hlow : LowTables suite master tables tables') (row : RevocationRow) :
    Alike (LowTables suite master) (tables.insertRevocation row)
      (tables'.insertRevocation row) := by
  unfold Tables.insertRevocation
  rw [hlow.revocations, hlow.keys_eq]
  split
  · rfl
  · exact { hlow with revocations := rfl }

/-- A generation goes in when its version is the same in both. -/
theorem insertGeneration (hlow : LowTables suite master tables tables') (row : GenerationRow)
    (hsame : ∀ found ∈ tables.versions, found.key = row.target → found ∈ tables'.versions) :
    Alike (LowTables suite master) (tables.insertGeneration row)
      (tables'.insertGeneration row) := by
  unfold Tables.insertGeneration
  rw [hlow.generations, hlow.keys_eq]
  split
  · rfl
  · next hfree =>
      rw [not_or, not_or, not_not] at hfree
      refine { hlow with generations := rfl, refers := ?_, generated := ?_ }
      · intro generation hgeneration
        rcases List.mem_append.mp hgeneration with hold | hnew
        · exact hlow.refers generation hold
        · obtain rfl := List.mem_singleton.mp hnew
          exact hfree.2.2
      · intro generation hgeneration
        rcases List.mem_append.mp hgeneration with hold | hnew
        · exact hlow.generated generation hold
        · obtain rfl := List.mem_singleton.mp hnew
          exact hsame

theorem insertAudit (hlow : LowTables suite master tables tables') (record : AuditRecord) :
    Alike (LowTables suite master) (tables.insertAudit record) (tables'.insertAudit record) := by
  unfold Tables.insertAudit
  rw [hlow.auditRecords]
  split
  · rfl
  · exact { hlow with auditRecords := rfl }

end LowTables

end

end SecretsCustody
