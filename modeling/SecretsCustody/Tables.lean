/-
The tables of the provider database with the constraints their schema declares,
and the statements the store and the audit store run on them.
-/
import Mathlib.Data.List.Sort
import SecretsCustody.Crypto
import SecretsCustody.KeyedRows

namespace SecretsCustody

open JsonText

/-- A value a column can hold. -/
inductive SqlValue where
  | null
  | integer (value : Int)
  | real
  | text (value : String)
  | blob (data : Bytes)
  deriving DecidableEq

/-- The longest `bytes` there is: an index less the header of the object. -/
def maxBytesLength : Nat := 2 ^ 63 - 1 - 33

/-- `bytes(value)`: an integer gives that many zero bytes, while they fit the memory. -/
def SqlValue.bytes (memory : Nat) : SqlValue → Except Raised Bytes
  | .blob data => .ok data
  | .integer value =>
      if value < 0 then .error .valueError
      else if maxBytesLength < value.toNat then .error .overflowError
      else if memory < value.toNat then .error .memoryError
      else .ok (List.replicate value.toNat 0)
  | .null => .error .typeError
  | .real => .error .typeError
  | .text _ => .error .typeError

/-- What is out of the hands of the code when it reads a row: whether SQLite finds a text in it
that is no UTF-8, whether the interpreter runs out of recursion when it reads the labels or writes
them into the associated data, and the zero bytes that fit its memory.  A row the program wrote
meets no limit. -/
structure RowLimits where
  undecodable : Bool := false
  deepToRead : Bool := false
  deepToWrite : Bool := false
  memory : Nat := maxBytesLength
  deriving DecidableEq

/-- A row of `secret_versions`.  Columns the code reads through `str` and `int`
hold what these return. -/
structure VersionRow where
  workspaceId : String
  secretId : String
  versionId : String
  versionNumber : Int
  status : String
  algorithm : String
  keyFingerprint : String
  keyVersion : String
  nonce : SqlValue
  ciphertext : SqlValue
  labelsJson : String
  createdAt : String
  revokedAt : Option String
  limits : RowLimits := {}
  deriving DecidableEq

structure SelectionRow where
  workspaceId : String
  correlationId : String
  secretId : String
  intent : String
  callerSubject : String
  versionId : String
  selectedAt : String
  deriving DecidableEq

structure GenerationRow where
  workspaceId : String
  correlationId : String
  secretId : String
  secretReference : String
  purpose : String
  issuer : String
  callerSubject : String
  versionId : String
  keyId : SqlValue
  algorithm : String
  publicKeyPem : SqlValue
  generatedAt : String
  deriving DecidableEq

structure RevocationRow where
  workspaceId : String
  correlationId : String
  secretId : String
  versionId : String
  versionNumber : Int
  callerSubject : String
  revokedAt : String
  deriving DecidableEq

/-- A row of `audit_records`, and the dataclass it is written from.  The intent
is the label the caller passed. -/
structure AuditRecord where
  eventId : String
  providerId : String
  workspaceId : String
  secretId : String
  versionId : Option String
  intent : Option Json
  callerSubject : String
  correlationId : String
  outcome : String
  code : String
  occurredAt : String

structure Tables where
  versions : List VersionRow
  selections : List SelectionRow
  generations : List GenerationRow
  revocations : List RevocationRow
  auditRecords : List AuditRecord

/-- The database after `initialize`. -/
def Tables.empty : Tables :=
  { versions := [], selections := [], generations := [], revocations := [],
    auditRecords := [] }

/-! ### Keys -/

/-- Workspace and secret, the address of a version history. -/
def VersionRow.address (row : VersionRow) : String × String :=
  (row.workspaceId, row.secretId)

/-- `PRIMARY KEY (workspace_id, secret_id, version_id)`. -/
def VersionRow.key (row : VersionRow) : String × String × String :=
  (row.workspaceId, row.secretId, row.versionId)

/-- `UNIQUE (workspace_id, secret_id, version_number)`. -/
def VersionRow.numberKey (row : VersionRow) : String × String × Int :=
  (row.workspaceId, row.secretId, row.versionNumber)

def SelectionRow.key (row : SelectionRow) : String × String :=
  (row.workspaceId, row.correlationId)

def GenerationRow.key (row : GenerationRow) : String × String :=
  (row.workspaceId, row.correlationId)

/-- `UNIQUE (workspace_id, secret_id)`. -/
def GenerationRow.address (row : GenerationRow) : String × String :=
  (row.workspaceId, row.secretId)

def RevocationRow.key (row : RevocationRow) : String × String :=
  (row.workspaceId, row.correlationId)

/-- `UNIQUE (workspace_id, secret_id, version_id)`, also the foreign key. -/
def RevocationRow.target (row : RevocationRow) : String × String × String :=
  (row.workspaceId, row.secretId, row.versionId)

/-- The version the foreign key refers to. -/
def SelectionRow.target (row : SelectionRow) : String × String × String :=
  (row.workspaceId, row.secretId, row.versionId)

/-- The version the foreign key refers to. -/
def GenerationRow.target (row : GenerationRow) : String × String × String :=
  (row.workspaceId, row.secretId, row.versionId)

namespace Tables

variable (tables : Tables)

/-! ### Queries -/

def selectVersion (workspaceId secretId versionId : String) : Option VersionRow :=
  KeyedRows.find VersionRow.key tables.versions (workspaceId, secretId, versionId)

/-- `ORDER BY version_number DESC LIMIT 1`. -/
def latestVersion (workspaceId secretId : String) : Option VersionRow :=
  KeyedRows.latest (fun row => row.address = (workspaceId, secretId))
    VersionRow.versionNumber tables.versions

/-- `ORDER BY version_number`. -/
def allVersions (workspaceId secretId : String) : List VersionRow :=
  (tables.versions.filter fun row => row.address = (workspaceId, secretId)).insertionSort
    fun left right => left.versionNumber ≤ right.versionNumber

def selection (workspaceId correlationId : String) : Option SelectionRow :=
  KeyedRows.find SelectionRow.key tables.selections (workspaceId, correlationId)

def generation (workspaceId correlationId : String) : Option GenerationRow :=
  KeyedRows.find GenerationRow.key tables.generations (workspaceId, correlationId)

def revocation (workspaceId correlationId : String) : Option RevocationRow :=
  KeyedRows.find RevocationRow.key tables.revocations (workspaceId, correlationId)

/-- The revocation of one version, whatever its correlation. -/
def revocationOf (workspaceId secretId versionId : String) : Option RevocationRow :=
  KeyedRows.find RevocationRow.target tables.revocations (workspaceId, secretId, versionId)

/-! ### Statements that write -/

def insertVersion (row : VersionRow) : Except Raised Tables :=
  if row.key ∈ tables.versions.map VersionRow.key ∨
      row.numberKey ∈ tables.versions.map VersionRow.numberKey then
    .error .integrityError
  else .ok { tables with versions := tables.versions ++ [row] }

def insertSelection (row : SelectionRow) : Except Raised Tables :=
  if row.key ∈ tables.selections.map SelectionRow.key ∨
      row.target ∉ tables.versions.map VersionRow.key then
    .error .integrityError
  else .ok { tables with selections := tables.selections ++ [row] }

def insertGeneration (row : GenerationRow) : Except Raised Tables :=
  if row.key ∈ tables.generations.map GenerationRow.key ∨
      row.address ∈ tables.generations.map GenerationRow.address ∨
      row.target ∉ tables.versions.map VersionRow.key then
    .error .integrityError
  else .ok { tables with generations := tables.generations ++ [row] }

def insertRevocation (row : RevocationRow) : Except Raised Tables :=
  if row.key ∈ tables.revocations.map RevocationRow.key ∨
      row.target ∈ tables.revocations.map RevocationRow.target ∨
      row.target ∉ tables.versions.map VersionRow.key then
    .error .integrityError
  else .ok { tables with revocations := tables.revocations ++ [row] }

def insertAudit (record : AuditRecord) : Except Raised Tables :=
  if record.eventId ∈ tables.auditRecords.map AuditRecord.eventId then
    .error .integrityError
  else .ok { tables with auditRecords := tables.auditRecords ++ [record] }

/-- The four columns a revocation rewrites, in the rows of one key. -/
def updateVersion (key : String × String × String) (status : String)
    (nonce ciphertext : SqlValue) (revokedAt : Option String) : Tables :=
  { tables with
    versions := tables.versions.map fun row =>
      if row.key = key then
        { row with
          status := status, nonce := nonce, ciphertext := ciphertext, revokedAt := revokedAt }
      else row }

/-! ### What the queries find -/

section

variable {tables : Tables} {workspaceId secretId versionId : String} {row : VersionRow}

theorem selectVersion_eq_some (hrow : tables.selectVersion workspaceId secretId versionId = some row) :
    row ∈ tables.versions ∧ row.key = (workspaceId, secretId, versionId) :=
  ⟨KeyedRows.mem_of_find hrow, KeyedRows.key_of_find hrow⟩

theorem latestVersion_eq_some (hrow : tables.latestVersion workspaceId secretId = some row) :
    row ∈ tables.versions ∧ row.address = (workspaceId, secretId) := by
  obtain ⟨hmem, hkeep⟩ := KeyedRows.mem_of_latest hrow
  exact ⟨hmem, by simpa using hkeep⟩

theorem mem_allVersions :
    row ∈ tables.allVersions workspaceId secretId ↔
      row ∈ tables.versions ∧ row.address = (workspaceId, secretId) := by
  rw [allVersions, (List.perm_insertionSort _ _).mem_iff]
  simp

theorem mem_keys_of_selectVersion
    (hrow : tables.selectVersion workspaceId secretId versionId = some row) :
    (workspaceId, secretId, versionId) ∈ tables.versions.map VersionRow.key := by
  obtain ⟨hmem, hkey⟩ := selectVersion_eq_some hrow
  exact hkey ▸ List.mem_map_of_mem hmem

theorem selectVersion_isSome (hkey : (workspaceId, secretId, versionId) ∈
      tables.versions.map VersionRow.key) :
    ∃ row, tables.selectVersion workspaceId secretId versionId = some row := by
  cases hrow : tables.selectVersion workspaceId secretId versionId with
  | none => exact absurd hkey (KeyedRows.find_eq_none_iff.mp hrow)
  | some row => exact ⟨row, rfl⟩

/-- A revocation goes in when neither its correlation nor its version has one. -/
theorem insertRevocation_eq_ok {row : RevocationRow}
    (hcorrelation : tables.revocation row.workspaceId row.correlationId = none)
    (htarget : tables.revocationOf row.workspaceId row.secretId row.versionId = none)
    (hversion : row.target ∈ tables.versions.map VersionRow.key) :
    tables.insertRevocation row =
      .ok { tables with revocations := tables.revocations ++ [row] } := by
  unfold insertRevocation
  rw [if_neg]
  rintro (hkey | htaken | hmissing)
  · exact KeyedRows.find_eq_none_iff.mp hcorrelation hkey
  · exact KeyedRows.find_eq_none_iff.mp htarget htaken
  · exact hmissing hversion

/-- A selection goes in when its correlation has none. -/
theorem insertSelection_eq_ok {row : SelectionRow}
    (hcorrelation : tables.selection row.workspaceId row.correlationId = none)
    (hversion : row.target ∈ tables.versions.map VersionRow.key) :
    tables.insertSelection row =
      .ok { tables with selections := tables.selections ++ [row] } := by
  unfold insertSelection
  rw [if_neg]
  rintro (hkey | hmissing)
  · exact KeyedRows.find_eq_none_iff.mp hcorrelation hkey
  · exact hmissing hversion

/-- A generation goes in when neither its correlation nor its secret has one. -/
theorem insertGeneration_eq_ok {row : GenerationRow}
    (hcorrelation : tables.generation row.workspaceId row.correlationId = none)
    (haddress : row.address ∉ tables.generations.map GenerationRow.address)
    (hversion : row.target ∈ tables.versions.map VersionRow.key) :
    tables.insertGeneration row =
      .ok { tables with generations := tables.generations ++ [row] } := by
  unfold insertGeneration
  rw [if_neg]
  rintro (hkey | htaken | hmissing)
  · exact KeyedRows.find_eq_none_iff.mp hcorrelation hkey
  · exact haddress htaken
  · exact hmissing hversion

theorem insertGeneration_taken {row : GenerationRow}
    (haddress : row.address ∈ tables.generations.map GenerationRow.address) :
    tables.insertGeneration row = .error .integrityError := by
  unfold insertGeneration
  rw [if_pos (.inr (.inl haddress))]

theorem updateVersion_keys (key : String × String × String) (status : String)
    (nonce ciphertext : SqlValue) (revokedAt : Option String) :
    (tables.updateVersion key status nonce ciphertext revokedAt).versions.map VersionRow.key =
      tables.versions.map VersionRow.key := by
  unfold updateVersion
  rw [List.map_map]
  apply List.map_congr_left
  intro other _
  simp only [Function.comp]
  split <;> rfl

end

end Tables

end SecretsCustody
