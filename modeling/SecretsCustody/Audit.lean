/-
The audit store: one record per event, appended inside the caller's transaction
or in one of its own.
-/
import SecretsCustody.Tables
import SecretsCustody.Transaction

namespace SecretsCustody

open JsonText

section

variable {suite : CryptoSuite} (env : Env suite)

/-- `audit_record`, with the identifier and the time the call draws. -/
def auditRecord (providerId workspaceId secretId : String) (versionId : Option String)
    (intent : Option Json) (callerSubject correlationId outcome code : String) : AuditRecord :=
  { eventId := env.eventId
    providerId := providerId
    workspaceId := workspaceId
    secretId := secretId
    versionId := versionId
    intent := intent
    callerSubject := callerSubject
    correlationId := correlationId
    outcome := outcome
    code := code
    occurredAt := env.occurredAt }

/-- `except sqlite3.Error: raise AuditUnavailable()`. -/
def auditRaised : Raised → Raised
  | .integrityError => .auditUnavailable
  | .sqlite _ => .auditUnavailable
  | raised => raised

def appendInTransaction (record : AuditRecord) : Tx Tables Unit :=
  mapRaised auditRaised (execute env fun tables => tables.insertAudit record)

/-- `append`, on a connection the audit store opens itself. -/
def append (record : AuditRecord) : Tx Tables Unit :=
  mapRaised auditRaised
    (withConnection env (statement env) (execute env fun tables => tables.insertAudit record))

/-- `append` of a record with a text SQLite cannot encode: the connection opens, and the `INSERT`
raises what is no `sqlite3.Error` before it runs. -/
def appendUnencodable : Tx Tables Unit :=
  mapRaised auditRaised (withConnection env (statement env) (throw .unicodeEncodeError))

end

theorem Env.Faults.audit {suite : CryptoSuite} {env : Env suite} {raised : Raised}
    (hfault : env.Faults raised) : auditRaised raised = .auditUnavailable := by
  obtain ⟨_, _, _, rfl⟩ := hfault
  rfl

/-- The record went in under an identifier no record had. -/
def RecordAdded (record : AuditRecord) (tables tables' : Tables) : Prop :=
  tables' = { tables with auditRecords := tables.auditRecords ++ [record] } ∧
    record.eventId ∉ tables.auditRecords.map AuditRecord.eventId

theorem insertAudit_eq_ok {tables tables' : Tables} {record : AuditRecord}
    (hinsert : tables.insertAudit record = .ok tables') : RecordAdded record tables tables' := by
  unfold Tables.insertAudit at hinsert
  split at hinsert
  · cases hinsert
  · next hfresh =>
      cases hinsert
      exact ⟨rfl, hfresh⟩

theorem insertAudit_eq_error {tables : Tables} {record : AuditRecord} {raised : Raised}
    (hinsert : tables.insertAudit record = .error raised) :
    record.eventId ∈ tables.auditRecords.map AuditRecord.eventId ∧
      raised = .integrityError := by
  unfold Tables.insertAudit at hinsert
  split at hinsert
  · next htaken =>
      cases hinsert
      exact ⟨htaken, rfl⟩
  · cases hinsert

/-- What stops an audit append: a failed statement or a repeated event id. -/
def AuditBlocked {suite : CryptoSuite} (env : Env suite) (tables : Tables) : Prop :=
  (∃ raised, env.Faults raised) ∨
    env.eventId ∈ tables.auditRecords.map AuditRecord.eventId

section

variable {suite : CryptoSuite} {env : Env suite} {record : AuditRecord}
variable {tables : Tables} {log : List Encryption}

/-- An append inside a transaction adds the record, or raises
`AuditUnavailable`. -/
theorem appendInTransaction_ends (hevent : record.eventId = env.eventId) :
    Ends (appendInTransaction env record) tables log
      (fun _ tables' log' => RecordAdded record tables tables' ∧ log' = log)
      (fun raised _ log' =>
        raised = .auditUnavailable ∧ AuditBlocked env tables ∧ log' = log) := by
  refine ends_mapRaised (ends_execute (fun tables' hinsert => ?_) (fun raised hinsert => ?_)
    fun raised hfault => ?_)
  · exact ⟨insertAudit_eq_ok hinsert, rfl⟩
  · obtain ⟨htaken, rfl⟩ := insertAudit_eq_error hinsert
    exact ⟨rfl, .inr (hevent ▸ htaken), rfl⟩
  · exact ⟨hfault.audit, .inl ⟨raised, hfault⟩, rfl⟩

/-- An append of its own adds the record, or raises `AuditUnavailable` and
leaves the database as it was. -/
theorem append_ends (hevent : record.eventId = env.eventId) :
    Ends (append env record) tables log
      (fun _ tables' log' => RecordAdded record tables tables' ∧ log' = log)
      (fun raised tables' log' =>
        raised = .auditUnavailable ∧ tables' = tables ∧ AuditBlocked env tables ∧ log' = log) := by
  have hfaults : ∀ raised, env.Faults raised → auditRaised raised = .auditUnavailable ∧
      tables = tables ∧ AuditBlocked env tables ∧ log = log :=
    fun raised hfault => ⟨hfault.audit, rfl, .inl ⟨raised, hfault⟩, rfl⟩
  refine ends_mapRaised (ends_withConnection (ends_statement (ends_execute
    (fun tables' hinsert => ⟨⟨insertAudit_eq_ok hinsert, rfl⟩, hfaults⟩)
    (fun raised hinsert => ?_) hfaults) hfaults))
  obtain ⟨htaken, rfl⟩ := insertAudit_eq_error hinsert
  exact ⟨rfl, rfl, .inr (hevent ▸ htaken), rfl⟩

/-- What an append of an unencodable record raises. -/
def UnencodableRaised (env : Env suite) (raised : Raised) : Prop :=
  raised = .unicodeEncodeError ∨ raised = .auditUnavailable ∧ ∃ fault, env.Faults fault

theorem appendUnencodable_ends :
    Ends (appendUnencodable env) tables log (fun _ _ _ => False)
      (fun raised tables' _ => UnencodableRaised env raised ∧ tables' = tables) := by
  have hfaults : ∀ raised, env.Faults raised →
      UnencodableRaised env (auditRaised raised) ∧ tables = tables :=
    fun raised hfault => ⟨.inr ⟨hfault.audit, raised, hfault⟩, rfl⟩
  exact ends_mapRaised (ends_withConnection
    (ends_statement (ends_throw ⟨.inl rfl, rfl⟩) hfaults))

end

end SecretsCustody
