/-
Audit evidence.  Key generations and exact-version revocations stand one to one
against the audit records of their codes, and a call that raises leaves neither.
-/
import SecretsCustody.Executions

namespace SecretsCustody

open History

def generatedCode : String := "delegation-key-generated"

def revokedCode : String := "secret-version-revoked"

/-- What an audit record and the row it is evidence of have in common: workspace,
secret, version, caller and correlation. -/
abbrev Evidence := String × String × Option String × String × String

def AuditRecord.evidence (record : AuditRecord) : Evidence :=
  (record.workspaceId, record.secretId, record.versionId, record.callerSubject,
    record.correlationId)

def GenerationRow.evidence (row : GenerationRow) : Evidence :=
  (row.workspaceId, row.secretId, some row.versionId, row.callerSubject, row.correlationId)

def RevocationRow.evidence (row : RevocationRow) : Evidence :=
  (row.workspaceId, row.secretId, some row.versionId, row.callerSubject, row.correlationId)

/-- The evidence of one code in the audit, oldest first. -/
def evidenceOf (code : String) (records : List AuditRecord) : List Evidence :=
  (records.filter fun record => record.code = code).map AuditRecord.evidence

theorem evidenceOf_append (code : String) (earlier later : List AuditRecord) :
    evidenceOf code (earlier ++ later) = evidenceOf code earlier ++ evidenceOf code later := by
  rw [evidenceOf, List.filter_append, List.map_append]
  rfl

/-- The operations that write their own audit record. -/
def Operation.audited : Operation → Bool
  | .generateDelegationKey _ => true
  | .revokeSecretVersion _ => true
  | _ => false

/-- Every generation and every revocation has its record, and every record of
these codes has its row, in one order. -/
structure Evidenced (tables : Tables) : Prop where
  generations : tables.generations.map GenerationRow.evidence =
    evidenceOf generatedCode tables.auditRecords
  revocations : tables.revocations.map RevocationRow.evidence =
    evidenceOf revokedCode tables.auditRecords

theorem evidenced_empty : Evidenced Tables.empty :=
  ⟨rfl, rfl⟩

section

variable {suite : CryptoSuite} {env : Env suite} {master : MasterKey} {before after : Tables}
variable {operation : Operation} {reply : Reply} {log : List Encryption}

/-- What one call that returned adds to the audit: the evidence of the rows it
adds, and exactly one record where the operation is audited. -/
structure EvidenceAdded (before after : Tables) (operation : Operation)
    (generations : List GenerationRow) (revocations : List RevocationRow)
    (records : List AuditRecord) : Prop where
  generationsAre : after.generations = before.generations ++ generations
  revocationsAre : after.revocations = before.revocations ++ revocations
  recordsAre : after.auditRecords = before.auditRecords ++ records
  generated : generations.map GenerationRow.evidence = evidenceOf generatedCode records
  revoked : revocations.map RevocationRow.evidence = evidenceOf revokedCode records
  once : operation.audited = true → ∃ record, records = [record]

theorem evidenceAdded_none (hgenerations : after.generations = before.generations)
    (hrevocations : after.revocations = before.revocations)
    (hrecords : after.auditRecords = before.auditRecords) (haudited : operation.audited = false) :
    EvidenceAdded before after operation [] [] [] where
  generationsAre := by rw [hgenerations, List.append_nil]
  revocationsAre := by rw [hrevocations, List.append_nil]
  recordsAre := by rw [hrecords, List.append_nil]
  generated := rfl
  revoked := rfl
  once := by
    rw [haudited]
    intro hfalse
    cases hfalse

theorem Performs.evidence (hperforms : Performs env master before operation reply after log) :
    ∃ generations revocations records,
      EvidenceAdded before after operation generations revocations records := by
  cases hperforms with
  | created hinsert =>
      obtain ⟨_, hgenerations, hrevocations, hrecords⟩ := hinsert.others
      exact ⟨[], [], [], evidenceAdded_none hgenerations hrevocations hrecords rfl⟩
  | rotated _ _ _ hinsert =>
      obtain ⟨_, hgenerations, hrevocations, hrecords⟩ := hinsert.others
      exact ⟨[], [], [], evidenceAdded_none hgenerations hrevocations hrecords rfl⟩
  | revoked _ hrevokes =>
      obtain ⟨_, hgenerations, hrevocations, hrecords⟩ := hrevokes.others
      exact ⟨[], [], [], evidenceAdded_none hgenerations hrevocations hrecords rfl⟩
  | @revokedVersion args row metadata revoked middle _ _ _ _ _ _ _ hrevokes _ =>
      obtain ⟨_, hgenerations, hrevocations, hrecords⟩ := hrevokes.others
      refine ⟨[], [revocationRow args env.now],
        [revocationRecord suite env args revoked "revoked" "secret-version-revoked"], ?_⟩
      exact {
        generationsAre := by rw [hgenerations, List.append_nil]
        revocationsAre := by rw [hrevocations]
        recordsAre := by rw [hrecords]
        generated := rfl
        revoked := rfl
        once := fun _ => ⟨_, rfl⟩ }
  | @revocationReplayed args _ _ metadata =>
      refine ⟨[], [], [revocationRecord suite env args metadata "replayed"
        "secret-version-revocation-replayed"], ?_⟩
      exact {
        generationsAre := (List.append_nil _).symm
        revocationsAre := (List.append_nil _).symm
        recordsAre := rfl
        generated := rfl
        revoked := rfl
        once := fun _ => ⟨_, rfl⟩ }
  | @generated args keyId metadata middle _ _ _ _ hinsert _ _ =>
      obtain ⟨_, hgenerations, hrevocations, hrecords⟩ := hinsert.others
      refine ⟨[generationRow args metadata keyId (suite.publicPem env.privateKey)], [],
        [generationRecord suite env args metadata.versionId args.intent "generated"
          "delegation-key-generated"], ?_⟩
      exact {
        generationsAre := by rw [hgenerations]
        revocationsAre := by rw [hrevocations, List.append_nil]
        recordsAre := by rw [hrecords]
        generated := rfl
        revoked := rfl
        once := fun _ => ⟨_, rfl⟩ }
  | @generationReplayed args _ _ key =>
      refine ⟨[], [], [generationRecord suite env args key.metadata.versionId args.intent
        "replayed" "delegation-key-generation-replayed"], ?_⟩
      exact {
        generationsAre := (List.append_nil _).symm
        revocationsAre := (List.append_nil _).symm
        recordsAre := rfl
        generated := rfl
        revoked := rfl
        once := fun _ => ⟨_, rfl⟩ }
  | resolved => exact ⟨[], [], [], evidenceAdded_none rfl rfl rfl rfl⟩
  | selected => exact ⟨[], [], [], evidenceAdded_none rfl rfl rfl rfl⟩
  | reselected => exact ⟨[], [], [], evidenceAdded_none rfl rfl rfl rfl⟩
  | described => exact ⟨[], [], [], evidenceAdded_none rfl rfl rfl rfl⟩

theorem EvidenceAdded.evidenced {generations : List GenerationRow}
    {revocations : List RevocationRow} {records : List AuditRecord}
    (hadded : EvidenceAdded before after operation generations revocations records)
    (hevidenced : Evidenced before) : Evidenced after := by
  constructor
  · rw [hadded.generationsAre, hadded.recordsAre, List.map_append, evidenceOf_append,
      hevidenced.generations, hadded.generated]
  · rw [hadded.revocationsAre, hadded.recordsAre, List.map_append, evidenceOf_append,
      hevidenced.revocations, hadded.revoked]

theorem perform_evidenced {tables : Tables} (hevidenced : Evidenced tables) (call : Call suite) :
    Evidenced (perform tables call).2 := by
  rcases perform_cases tables call with ⟨reply, _, hperforms⟩ | ⟨raised, _, _, hsame⟩
  · obtain ⟨generations, revocations, records, hadded⟩ := hperforms.evidence
    exact hadded.evidenced hevidenced
  · rwa [hsame]

/-! ### Executions -/

/-- What holds of the audit of an execution. -/
structure AuditCoupled (system : System Tables (Call suite) Outcome) : Prop where
  evidenced : Evidenced system.committed
  /-- A call of an audited operation that returns adds one record. -/
  successful : ∀ step ∈ system.log, step.input.operation.audited = true →
    ∀ reply, step.output.result = .ok reply →
      ∃ record, step.after.auditRecords = step.before.auditRecords ++ [record]
  /-- A call that raises leaves every table as it was, and what is called next
  goes as if it had not been made. -/
  raising : ∀ step ∈ system.log, ∀ raised, step.output.result = .error raised →
    step.after = step.before ∧
      ∀ calls : List (Call suite),
        trace perform step.after calls = trace perform step.before calls

/-- The audit is coupled to custody, whatever the clients do and whichever
statements fail. -/
theorem audit_coupled (events : List (Event (Call suite))) : AuditCoupled (runClients events) := by
  obtain ⟨calls, hlog, hcommitted⟩ := runClients_serial events
  constructor
  · rw [hcommitted]
    exact invariant_final evidenced_empty fun _ call _ hinv => perform_evidenced hinv call
  · intro step hstep haudited reply hresult
    rw [hlog] at hstep
    obtain ⟨earlier, call, later, rfl, rfl⟩ := mem_trace hstep
    obtain ⟨generations, revocations, records, hadded⟩ := (performs_of_ok hresult).evidence
    obtain ⟨record, rfl⟩ := hadded.once haudited
    exact ⟨record, hadded.recordsAre⟩
  · intro step hstep raised hresult
    rw [hlog] at hstep
    obtain ⟨earlier, call, later, rfl, rfl⟩ := mem_trace hstep
    have hsame := (refuses_of_error hresult).2
    refine ⟨hsame, fun calls => ?_⟩
    change trace perform (perform _ call).2 calls = trace perform _ calls
    rw [hsame]
    rfl

end

end SecretsCustody
