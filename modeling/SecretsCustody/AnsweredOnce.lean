/-
A resolve request on a database with no other at work.  Its answer is one of those its handler
declares, with one audit record, when the store call raises nothing else.
-/
import SecretsCustody.Accounted

namespace SecretsCustody

open Effect Interleaving JsonText

/-! ### Handlers alone -/

section

variable {suite : CryptoSuite} {provider : Provider} {env : RequestEnv suite} {α β : Type}
variable {tables : Tables} {handler : Handler α}
variable {returns : α → Tables → Prop} {raises : Fault → Tables → Prop}

/-- How a handler that starts on `tables` ends with no other task at work, whatever the number
of audit appends before it. -/
def Finishes (handler : Handler α) (tables : Tables) (returns : α → Tables → Prop)
    (raises : Fault → Tables → Prop) : Prop :=
  ∀ audits, Ended returns raises (Script.run (handler audits) tables).1.1
    (Script.run (handler audits) tables).2

theorem finishes_pure {value : α} (hreturns : returns value tables) :
    Finishes (pure value) tables returns raises :=
  fun _ => hreturns

theorem finishes_throw {fault : Fault} (hraises : raises fault tables) :
    Finishes (throw fault : Handler α) tables returns raises :=
  fun _ => hraises

theorem Finishes.mono {returns' : α → Tables → Prop} {raises' : Fault → Tables → Prop}
    (hfinishes : Finishes handler tables returns raises)
    (hreturns : ∀ value after, returns value after → returns' value after)
    (hraises : ∀ fault after, raises fault after → raises' fault after) :
    Finishes handler tables returns' raises' := by
  intro audits
  have hended := hfinishes audits
  generalize Script.run (handler audits) tables = ending at hended ⊢
  obtain ⟨⟨result, count⟩, after⟩ := ending
  cases result with
  | error fault => exact hraises _ _ hended
  | ok value => exact hreturns _ _ hended

theorem Finishes.bind {next : α → Handler β} {returns : β → Tables → Prop}
    (hfinishes : Finishes handler tables
      (fun value after => Finishes (next value) after returns raises) raises) :
    Finishes (handler >>= next) tables returns raises := by
  intro audits
  have hended := hfinishes audits
  rw [run_bind]
  generalize Script.run (handler audits) tables = ending at hended ⊢
  obtain ⟨⟨result, count⟩, after⟩ := ending
  cases result with
  | error fault => exact hended
  | ok value => exact hended count

theorem finishes_tryCatch {handle : Fault → Handler α}
    (hfinishes : Finishes handler tables returns fun fault after =>
      Finishes (handle fault) after returns raises) :
    Finishes (tryCatch handler handle) tables returns raises := by
  intro audits
  have hended := hfinishes audits
  rw [run_tryCatch]
  generalize Script.run (handler audits) tables = ending at hended ⊢
  obtain ⟨⟨result, count⟩, after⟩ := ending
  cases result with
  | error fault => exact hended count
  | ok value => exact hended

theorem finishes_check {check : Except Fault α}
    (hreturns : ∀ value, check = .ok value → returns value tables)
    (hraises : ∀ fault, check = .error fault → raises fault tables) :
    Finishes (ofExcept check) tables returns raises := by
  cases check with
  | error fault => exact finishes_throw (hraises fault rfl)
  | ok value => exact finishes_pure (hreturns value rfl)

theorem finishes_transact {program : Tx Tables α}
    (hreturns : ∀ value, (attempt program tables).1 = .ok value →
      returns value (attempt program tables).2)
    (hraises : ∀ raised, (attempt program tables).1 = .error raised →
      raises (.raised raised) (attempt program tables).2) :
    Finishes (transact program) tables returns raises := by
  intro audits
  change Ended returns raises ((attempt program tables).1.mapError Fault.raised)
    (attempt program tables).2
  cases hresult : (attempt program tables).1 with
  | error raised => exact hraises raised hresult
  | ok value => exact hreturns value hresult

/-- The tables with one more audit record. -/
def Tables.logged (tables : Tables) (record : AuditRecord) : Tables :=
  { tables with auditRecords := tables.auditRecords ++ [record] }

/-- The audit takes every record of the request. -/
def AuditsAll (tables : Tables) (env : RequestEnv suite) : Prop :=
  ∀ position, Audits tables (env.audit position)

/-- An append that nothing blocks adds its record. -/
theorem attempt_append_audits {draws : Env suite} {record : AuditRecord}
    (haudits : Audits tables draws) (hevent : record.eventId = draws.eventId) :
    (attempt (append draws record) tables).1 = .ok () ∧
      (attempt (append draws record) tables).2 = tables.logged record := by
  have happend : Ends (append draws record) tables [] _ _ := append_ends hevent
  have hends := happend 0
  unfold Exits at hends
  unfold attempt
  cases hrun : (append draws record).run ⟨tables, 0, []⟩ with
  | ok value finish =>
      rw [hrun] at hends
      exact ⟨rfl, hends.1.1⟩
  | error raised finish =>
      rw [hrun] at hends
      obtain ⟨_, _, hblocked, _⟩ := hends
      exact absurd hblocked haudits.not_blocked

theorem finishes_appendAudit {fields : AuditFields} {outcome code : String}
    {returns : Unit → Tables → Prop} (haudits : AuditsAll tables env)
    (hreturns : ∀ draws : Env suite,
      returns () (tables.logged (auditRow provider draws fields outcome code))) :
    Finishes (appendAudit suite provider env fields outcome code) tables returns raises := by
  intro audits
  have hevent : (auditRow provider (env.audit audits) fields outcome code).eventId =
    (env.audit audits).eventId := rfl
  obtain ⟨hresult, hafter⟩ := attempt_append_audits (haudits audits) hevent
  have happend : Finishes (transact (append (env.audit audits)
      (auditRow provider (env.audit audits) fields outcome code))) tables returns
        fun _ _ => False := by
    apply finishes_transact
    · intro _ _
      rw [hafter]
      exact hreturns (env.audit audits)
    · intro raised hraised
      rw [hresult] at hraised
      cases hraised
  exact finishes_tryCatch (happend.mono (fun _ _ hends => hends) fun _ _ => False.elim)
    (audits + 1)

/-- A check that is audited when it fails. -/
theorem finishes_audited {fields : AuditFields} {outcome code : String} {check : Except Fault α}
    (haudits : AuditsAll tables env)
    (hreturns : ∀ value, check = .ok value → returns value tables)
    (hraises : ∀ fault, check = .error fault → ∃ status, fault = .http status outcome code ∧
      ∀ draws : Env suite, raises (.http status outcome code)
        (tables.logged (auditRow provider draws fields outcome code))) :
    Finishes (audited suite provider env fields outcome code check) tables returns raises := by
  apply finishes_tryCatch
  apply finishes_check hreturns
  intro fault hfault
  obtain ⟨status, rfl, hlogged⟩ := hraises fault hfault
  apply Finishes.bind
  apply finishes_appendAudit haudits
  intro draws
  exact finishes_throw (hlogged draws)

/-! ### Resolve requests -/

/-- The store call of a resolve request. -/
def resolveCall (provider : Provider) (env : RequestEnv suite) (workspaceId secretId : String)
    (body : EncodedResolveRequest) : Call suite :=
  { operation := .resolveSecretForUse
      { workspaceId := workspaceId
        secretId := secretId
        intent := body.intent
        callerSubject := body.callerSubject
        correlationId := body.correlationId
        versionId := body.versionId }
    master := provider.master
    env := env.store }

/-- What the resolve handler refuses a request with: the checks before its store call, then the
clauses around it. -/
def resolveRefusals : List (Nat × String × String) :=
  [(401, "denied", "unauthenticated"), (400, "malformed", "unsupported-intent"),
    (403, "denied", "insufficient-scope"), (404, "missing", "secret-missing"),
    (409, "revoked", "secret-revoked"),
    (409, "already-exists", "resolution-correlation-conflict"),
    (403, "denied", "secret-intent-mismatch"), (503, "unavailable", "integrity-failure")]

/-- The request is answered as one audit record says, with what its handler declares. -/
def AnsweredOnce (request : Request) (before after : Tables) (response : Response) : Prop :=
  ∃ record, after.auditRecords = before.auditRecords ++ [record] ∧
    Answered request response [record] ∧
    ∀ status outcome code, response = .refused status outcome code →
      (status, outcome, code) ∈ resolveRefusals

theorem answeredOnce_refused {request : Request} {fields : AuditFields} {middle : Tables}
    (hworkspace : fields.workspaceId = request.workspaceId)
    (hsecret : fields.secretId = request.secretId)
    (hcorrelation : fields.correlationId = request.correlationId)
    (hmiddle : middle.auditRecords = tables.auditRecords) {status : Nat} {outcome code : String}
    (hlisted : (status, outcome, code) ∈ resolveRefusals) (draws : Env suite) :
    AnsweredOnce request tables (middle.logged (auditRow provider draws fields outcome code))
      (Fault.http status outcome code).response := by
  refine ⟨auditRow provider draws fields outcome code, ?_, ?_, ?_⟩
  · rw [Tables.logged, hmiddle]
  · exact answered_refused hworkspace hsecret hcorrelation status outcome code draws
  · intro status' outcome' code' hresponse
    cases hresponse
    exact hlisted

/-- A check before the store call that fails is answered by its own row. -/
theorem finishes_checked {request : Request} {fields : AuditFields} {status : Nat}
    {outcome code : String} {check : Except Fault α} {returns : α → Tables → Prop}
    (haudits : AuditsAll tables env) (hworkspace : fields.workspaceId = request.workspaceId)
    (hsecret : fields.secretId = request.secretId)
    (hcorrelation : fields.correlationId = request.correlationId)
    (hlisted : (status, outcome, code) ∈ resolveRefusals)
    (hreturns : ∀ value, check = .ok value → returns value tables)
    (hfails : ∀ fault, check = .error fault → fault = .http status outcome code) :
    Finishes (audited suite provider env fields outcome code check) tables returns
      fun fault after => AnsweredOnce request tables after fault.response := by
  apply finishes_audited haudits hreturns
  intro fault hfault
  exact ⟨status, hfails fault hfault, fun draws =>
    answeredOnce_refused hworkspace hsecret hcorrelation rfl hlisted draws⟩

/-- A request is answered as its handler ends. -/
theorem respond_of_finishes {request : Request} (property : Tables → Response → Prop)
    (hfinishes : Finishes (request.handler provider env) tables
      (fun body after => property after (.ok body))
      fun fault after => property after fault.response) :
    property (respond provider env tables request).2 (respond provider env tables request).1 := by
  have hended := hfinishes 0
  unfold respond
  dsimp only
  generalize Script.run (request.handler provider env 0) tables = ending at hended ⊢
  obtain ⟨⟨result, count⟩, after⟩ := ending
  cases result with
  | error fault => exact hended
  | ok body => exact hended

/-- A resolve request is answered once, with what its handler declares, when its store call
raises only what the handler catches. -/
theorem resolve_answeredOnce {authorization : Option String} {workspaceId secretId : String}
    {body : EncodedResolveRequest} (hrecognised : Recognised provider authorization)
    (haudits : AuditsAll tables env)
    (hcall : ∀ raised, (perform tables (resolveCall provider env workspaceId secretId body)).1.result =
      .error raised → raised ∈ [.secretMissing, .secretRevoked, .secretResolutionConflict,
        .secretIntentMismatch, .secretTampered]) :
    AnsweredOnce (.resolve authorization workspaceId secretId body) tables
      (respond provider env tables (.resolve authorization workspaceId secretId body)).2
      (respond provider env tables (.resolve authorization workspaceId secretId body)).1 := by
  have hprogram : (resolveCall provider env workspaceId secretId body).program =
      Reply.resolved <$> resolveSecretForUse suite env.store provider.master
        { workspaceId := workspaceId
          secretId := secretId
          intent := body.intent
          callerSubject := body.callerSubject
          correlationId := body.correlationId
          versionId := body.versionId } := rfl
  obtain ⟨hresult, hafter⟩ := perform_attempt tables hprogram
  apply respond_of_finishes (AnsweredOnce _ tables)
  apply Finishes.bind
  apply finishes_checked haudits rfl rfl rfl (by decide) _ fun _ => credential_fails hrecognised
  intro client _
  apply Finishes.bind
  apply finishes_checked haudits rfl rfl rfl (by decide) _ fun _ => validateIntent_fails
  intro _ _
  apply Finishes.bind
  apply finishes_checked haudits rfl rfl rfl (by decide) _ fun _ => requireScope_fails
  intro _ _
  apply finishes_tryCatch
  apply Finishes.bind
  apply finishes_transact
  · intro secret hsecret
    obtain ⟨log, hperforms⟩ := attempt_performs hprogram hsecret
    obtain ⟨own, hrecords, hown⟩ := hperforms.ownRecords
    cases hown
    rw [List.append_nil] at hrecords
    have haudits' : AuditsAll (attempt (resolveSecretForUse suite env.store provider.master
        { workspaceId := workspaceId
          secretId := secretId
          intent := body.intent
          callerSubject := body.callerSubject
          correlationId := body.correlationId
          versionId := body.versionId }) tables).2 env := by
      intro position
      rw [Audits, hrecords]
      exact haudits position
    apply Finishes.bind
    apply finishes_appendAudit haudits'
    intro draws
    apply finishes_pure
    refine ⟨_, congrArg (· ++ _) hrecords, .resolved ⟨rfl, rfl, rfl⟩ rfl rfl rfl, ?_⟩
    rintro _ _ _ ⟨⟩
  · intro raised hraised
    obtain ⟨_, hsame⟩ := attempt_refuses hprogram hraised
    rw [hraised] at hresult
    have hlisted := hcall raised hresult
    rw [hsame]
    simp only [List.mem_cons, List.not_mem_nil, or_false] at hlisted
    rcases hlisted with rfl | rfl | rfl | rfl | rfl
    all_goals
      simp only [List.find?, reduceCtorEq, decide_false, decide_true]
      apply Finishes.bind
      apply finishes_appendAudit haudits
      intro draws
      apply finishes_throw
      exact answeredOnce_refused rfl rfl rfl rfl (by decide) draws

end

end SecretsCustody
