/-
The provider under load: each request is a task, and its transactions interleave
with those of the others.  What one transaction does to the database, and what
every database a server reaches keeps.
-/
import SecretsCustody.Coherence
import SecretsCustody.Denial

namespace SecretsCustody

open Effect Interleaving JsonText

/-- The store calls the handlers make, with what they checked before them. -/
inductive Handled : Operation → Prop
  | create {workspaceId secretId intent : String} {value : Bytes} {labels : TextDict}
      (hvalue : value.length ≤ maxSecretBytes) (hintent : intent ∈ allowedSecretUseIntents)
      (hlabel : labels.lookup "intent" = some intent) :
      Handled (.createSecret workspaceId secretId value labels)
  | rotate {workspaceId secretId intent : String} {value : Bytes} {labels : TextDict}
      (hvalue : value.length ≤ maxSecretBytes) (hintent : intent ∈ allowedSecretUseIntents)
      (hlabel : labels.lookup "intent" = some intent) :
      Handled (.rotateSecret workspaceId secretId value labels (some intent))
  | generate {args : GenerateDelegationKey} (hadmitted : AdmittedFamily args.purpose args.intent)
      (hissuer : args.issuer.length ≤ 200) : Handled (.generateDelegationKey args)
  | revokeVersion {args : RevokeSecretVersion} : Handled (.revokeSecretVersion args)
  | revoke {workspaceId secretId : String} : Handled (.revokeSecret workspaceId secretId)
  | resolve {args : ResolveSecretForUse} (hintent : args.intent ∈ allowedSecretUseIntents) :
      Handled (.resolveSecretForUse args)
  | readMetadata {workspaceId secretId : String} {versionId : Option String} :
      Handled (.metadata workspaceId secretId versionId)

/-- The store calls a request leads to, by what its handler checked before them. -/
inductive Calls {suite : CryptoSuite} (provider : Provider) (env : RequestEnv suite) :
    Request → Call suite → Prop
  | write {authorization : Option String} {workspaceId secretId : String}
      {body : SecretWriteRequest} {value : Bytes} {labels : TextDict}
      (hintent : body.intent ∈ allowedSecretUseIntents)
      (hlabel : labels.lookup "intent" = some body.intent)
      (hvalue : decodeSecretValue body.valueBase64 = .ok value) :
      Calls provider env (.write authorization workspaceId secretId body)
        ⟨.createSecret workspaceId secretId value labels, provider.master, env.store⟩
  | rotate {authorization : Option String} {workspaceId secretId : String}
      {body : SecretRotateRequest} {value : Bytes} {labels : TextDict}
      (hintent : body.intent ∈ allowedSecretUseIntents)
      (hlabel : labels.lookup "intent" = some body.intent)
      (hvalue : decodeSecretValue body.valueBase64 = .ok value) :
      Calls provider env (.rotate authorization workspaceId secretId body)
        ⟨.rotateSecret workspaceId secretId value labels (some body.intent), provider.master,
          env.store⟩
  | generate {authorization : Option String} {workspaceId secretId intent : String}
      {body : DelegationKeyGenerateRequest} (hadmitted : AdmittedFamily body.purpose intent) :
      Calls provider env (.generate authorization workspaceId secretId body)
        ⟨.generateDelegationKey
          { workspaceId := workspaceId
            secretId := secretId
            secretReference := body.secretReference
            purpose := body.purpose
            intent := intent
            issuer := body.issuer
            callerSubject := body.callerSubject
            correlationId := body.correlationId
            providerId := provider.providerId }, provider.master, env.store⟩
  | resolve {authorization : Option String} {workspaceId secretId : String}
      {body : EncodedResolveRequest} (hintent : body.intent ∈ allowedSecretUseIntents) :
      Calls provider env (.resolve authorization workspaceId secretId body)
        ⟨.resolveSecretForUse
          { workspaceId := workspaceId
            secretId := secretId
            intent := body.intent
            callerSubject := body.callerSubject
            correlationId := body.correlationId
            versionId := body.versionId }, provider.master, env.store⟩
  | revokeVersion {authorization : Option String} {workspaceId secretId versionId : String}
      {body : SecretVersionRevokeRequest} :
      Calls provider env (.revokeVersion authorization workspaceId secretId versionId body)
        ⟨.revokeSecretVersion
          { workspaceId := workspaceId
            secretId := secretId
            versionId := versionId
            versionNumber := body.versionNumber
            callerSubject := body.callerSubject
            correlationId := body.correlationId
            providerId := provider.providerId }, provider.master, env.store⟩
  | revoke {authorization : Option String} {workspaceId secretId : String}
      {body : Option SecretRevokeRequest} :
      Calls provider env (.revoke authorization workspaceId secretId body)
        ⟨.revokeSecret workspaceId secretId, provider.master, env.store⟩
  | readMetadata {authorization : Option String} {workspaceId secretId : String}
      {versionId : Option String} :
      Calls provider env (.readMetadata authorization workspaceId secretId versionId)
        ⟨.metadata workspaceId secretId versionId, provider.master, env.store⟩

section

variable {suite : CryptoSuite}

theorem Calls.master {provider : Provider} {env : RequestEnv suite} {request : Request}
    {call : Call suite} (hcalls : Calls provider env request call) :
    call.master = provider.master := by
  cases hcalls <;> rfl

theorem Calls.sameEnv {provider : Provider} {env : RequestEnv suite} {request : Request}
    {call : Call suite} (hcalls : Calls provider env request call) : call.env = env.store := by
  cases hcalls <;> rfl

theorem Calls.handled {provider : Provider} {env : RequestEnv suite} {request : Request}
    {call : Call suite} (hcalls : Calls provider env request call) : Handled call.operation := by
  cases hcalls with
  | write hintent hlabel hvalue => exact .create (decodeSecretValue_bounded hvalue) hintent hlabel
  | rotate hintent hlabel hvalue => exact .rotate (decodeSecretValue_bounded hvalue) hintent hlabel
  | @generate _ _ _ _ body hadmitted => exact .generate hadmitted body.issuer_length.2
  | resolve hintent => exact .resolve hintent
  | revokeVersion => exact .revokeVersion
  | revoke => exact .revoke
  | readMetadata => exact .readMetadata

/-- What one transaction of a handler does to the database: a store call, or an audit append
that may fail. -/
inductive Moved (suite : CryptoSuite) (provider : Provider) (before : Tables) : Tables → Prop
  | idle : Moved suite provider before before
  | performed (call : Call suite) (hmaster : call.master = provider.master)
      (hhandled : Handled call.operation) :
      Moved suite provider before (perform before call).2
  | audited {record : AuditRecord} {after : Tables} (hadded : RecordAdded record before after) :
      Moved suite provider before after

/-! ### One transaction -/

section

variable {α : Type} {call : Call suite} {program : Tx Tables α} {change : α → Reply}

/-- A store call is the transaction of its program. -/
theorem perform_attempt (tables : Tables) (hprogram : call.program = change <$> program) :
    (perform tables call).1.result = (attempt program tables).1.map change ∧
      (perform tables call).2 = (attempt program tables).2 := by
  unfold perform attempt
  simp only [hprogram, EStateM.run, Functor.map, EStateM.map]
  cases program ⟨tables, 0, []⟩ with
  | ok value finish => exact ⟨rfl, rfl⟩
  | error raised finish => exact ⟨rfl, rfl⟩

/-- What a store call returned is a case of `Performs`. -/
theorem attempt_performs {tables : Tables} {value : α} (hprogram : call.program = change <$> program)
    (hvalue : (attempt program tables).1 = .ok value) :
    ∃ log, Performs call.env call.master tables call.operation (change value)
      (attempt program tables).2 log := by
  obtain ⟨hresult, hafter⟩ := perform_attempt tables hprogram
  rw [hvalue] at hresult
  rw [← hafter]
  exact ⟨_, performs_of_ok hresult⟩

/-- What a store call raised is a case of `Refuses`, and the database is as it was. -/
theorem attempt_refuses {tables : Tables} {raised : Raised} (hprogram : call.program = change <$> program)
    (hraised : (attempt program tables).1 = .error raised) :
    Refuses call.env call.master tables call.operation raised ∧
      (attempt program tables).2 = tables := by
  obtain ⟨hresult, hafter⟩ := perform_attempt tables hprogram
  rw [hraised] at hresult
  rw [← hafter]
  exact refuses_of_error hresult

end

/-- An append adds the record, or raises `AuditUnavailable` and leaves the database as it
was. -/
theorem attempt_append (tables : Tables) {env : Env suite} {record : AuditRecord}
    (hevent : record.eventId = env.eventId) :
    (attempt (append env record) tables).1 = .ok () ∧
        RecordAdded record tables (attempt (append env record) tables).2 ∨
      (attempt (append env record) tables).1 = .error .auditUnavailable ∧
        (attempt (append env record) tables).2 = tables := by
  have happend : Ends (append env record) tables [] _ _ := append_ends hevent
  have hends := happend 0
  unfold Exits at hends
  unfold attempt
  cases hrun : (append env record).run ⟨tables, 0, []⟩ with
  | ok value finish =>
      rw [hrun] at hends
      exact .inl ⟨rfl, hends.1⟩
  | error raised finish =>
      rw [hrun] at hends
      obtain ⟨rfl, hsame, _⟩ := hends
      exact .inr ⟨rfl, hsame⟩

/-- A program that returns nothing and leaves the database as it was. -/
theorem attempt_raises {α : Type} {program : Tx Tables α} {tables : Tables}
    {refuses : Raised → Prop}
    (hraises : Ends program tables [] (fun _ _ _ => False)
      fun raised tables' _ => refuses raised ∧ tables' = tables) :
    ∃ raised, refuses raised ∧ attempt program tables = (.error raised, tables) := by
  have hends := hraises 0
  unfold Exits at hends
  unfold attempt
  cases hrun : program.run ⟨tables, 0, []⟩ with
  | ok value finish =>
      rw [hrun] at hends
      exact hends.elim
  | error raised finish =>
      rw [hrun] at hends
      obtain ⟨hrefuses, hsame⟩ := hends
      exact ⟨raised, hrefuses, Prod.ext rfl hsame⟩

theorem attempt_appendUnencodable (env : Env suite) (tables : Tables) :
    ∃ raised, UnencodableRaised env raised ∧
      attempt (appendUnencodable env) tables = (.error raised, tables) :=
  attempt_raises appendUnencodable_ends

theorem attempt_useUnencodable {α : Type} (env : Env suite) (workspaceId correlationId : String)
    (tables : Tables) :
    ∃ raised, UseUnencodable env tables workspaceId correlationId raised ∧
      attempt (resolveUnencodableForUse suite env workspaceId correlationId : Tx Tables α) tables =
        (.error raised, tables) :=
  attempt_raises resolveUnencodableForUse_ends

end

/-! ### What the transactions of a handler do -/

/-- The record an audit append of a request writes. -/
def auditRow {suite : CryptoSuite} (provider : Provider) (draws : Env suite) (fields : AuditFields)
    (outcome code : String) : AuditRecord :=
  auditRecord draws provider.providerId fields.workspaceId fields.secretId fields.versionId
    fields.intent fields.callerSubject fields.correlationId outcome code

section

variable {suite : CryptoSuite} {provider : Provider} {env : RequestEnv suite} {α β : Type}

/-- A transaction of a request: an audit append under an event of its own, or a store call of
its route, made for a client with a grant for it; or one of these with a text that cannot be
encoded. -/
inductive Transaction (provider : Provider) (env : RequestEnv suite) (request : Request) :
    ∀ β : Type, (Tables → β × Tables) → Prop
  | append (audits : Nat) {record : AuditRecord}
      (hevent : record.eventId = (env.audit audits).eventId) :
      Transaction provider env request (Except Raised Unit)
        (attempt (append (env.audit audits) record))
  | call {γ : Type} {call : Call suite} {program : Tx Tables γ} {change : γ → Reply}
      (hgranted : ¬ Denied provider request) (hcalls : Calls provider env request call)
      (hprogram : call.program = change <$> program) (hchange : Function.Injective change) :
      Transaction provider env request (Except Raised γ) (attempt program)
  | appendUnencodable (audits : Nat) :
      Transaction provider env request (Except Raised Unit)
        (attempt (appendUnencodable (env.audit audits)))
  | useUnencodable {γ : Type} (correlationId : String) :
      Transaction provider env request (Except Raised γ)
        (attempt (resolveUnencodableForUse suite env.store request.workspaceId correlationId))

/-- Every transaction of the handler is one of the request, and of a value it returns `returns`
holds. -/
def Transacts (provider : Provider) (env : RequestEnv suite) (request : Request)
    (handler : Handler α) (returns : α → Prop) : Prop :=
  ∀ audits, Script.Within (Transaction provider env request)
    (fun ending => ∀ value, ending.1 = .ok value → returns value) (handler audits)

variable {request : Request} {handler : Handler α} {returns : α → Prop}

theorem transacts_pure {value : α} (hreturns : returns value) :
    Transacts provider env request (pure value) returns := by
  rintro audits _ ⟨⟩
  exact hreturns

theorem transacts_throw (fault : Fault) :
    Transacts provider env request (throw fault) returns := by
  rintro audits _ ⟨⟩

theorem Transacts.mono {returns' : α → Prop}
    (htransacts : Transacts provider env request handler returns)
    (hreturns : ∀ value, returns value → returns' value) :
    Transacts provider env request handler returns' :=
  fun audits => (htransacts audits).mono fun _ hending value hvalue =>
    hreturns value (hending value hvalue)

theorem Transacts.bind {results : β → Prop} {next : α → Handler β}
    (htransacts : Transacts provider env request handler returns)
    (hnext : ∀ value, returns value → Transacts provider env request (next value) results) :
    Transacts provider env request (handler >>= next) results := by
  intro audits
  rw [bind_script]
  apply (htransacts audits).bind
  rintro ⟨result, count⟩ hresult
  cases result with
  | error fault => rintro _ ⟨⟩
  | ok value => exact hnext value (hresult value rfl) count

theorem transacts_tryCatch {handle : Fault → Handler α}
    (htransacts : Transacts provider env request handler returns)
    (hhandle : ∀ fault, Transacts provider env request (handle fault) returns) :
    Transacts provider env request (tryCatch handler handle) returns := by
  intro audits
  rw [tryCatch_script]
  apply (htransacts audits).bind
  rintro ⟨result, count⟩ hresult
  cases result with
  | error fault => exact hhandle fault count
  | ok value => exact hresult

theorem transacts_check (check : Except Fault α) :
    Transacts provider env request (ofExcept check) fun value => check = .ok value := by
  cases check with
  | error fault => exact transacts_throw fault
  | ok value => exact transacts_pure rfl

/-- The store call of a handler. -/
theorem transacts_call {call : Call suite} {program : Tx Tables α} {change : α → Reply}
    (hgranted : ¬ Denied provider request) (hcalls : Calls provider env request call)
    (hprogram : call.program = change <$> program) (hchange : Function.Injective change) :
    Transacts provider env request (transact program) fun _ => True :=
  fun _ => ⟨.call hgranted hcalls hprogram hchange, fun _ _ _ => trivial⟩

theorem transacts_appending {append : Env suite → Tx Tables Unit}
    (happend : ∀ audits, Transaction provider env request (Except Raised Unit)
      (attempt (append (env.audit audits)))) :
    Transacts provider env request (appending suite env append) fun _ => True := by
  intro audits
  have htransacts : Transacts provider env request (transact (append (env.audit audits)))
      fun _ => True := fun _ => ⟨happend audits, fun _ _ _ => trivial⟩
  refine transacts_tryCatch htransacts (fun fault => ?_) (audits + 1)
  split
  · exact transacts_throw _
  · exact transacts_throw _

theorem transacts_appendAudit (fields : AuditFields) (outcome code : String) :
    Transacts provider env request (appendAudit suite provider env fields outcome code)
      fun _ => True :=
  transacts_appending fun audits => .append audits rfl

theorem transacts_auditing {append : Handler Unit}
    (happend : Transacts provider env request append fun _ => True) (check : Except Fault α) :
    Transacts provider env request (auditing append check) fun value => check = .ok value := by
  apply transacts_tryCatch (transacts_check check)
  intro fault
  split
  · apply happend.bind
    intro _ _
    exact transacts_throw _
  · exact transacts_throw _

theorem transacts_audited (fields : AuditFields) (outcome code : String)
    (check : Except Fault α) :
    Transacts provider env request (audited suite provider env fields outcome code check)
      fun value => check = .ok value :=
  transacts_auditing (transacts_appendAudit fields outcome code) check

theorem transacts_catching (fields : AuditFields) (clauses : List Clause)
    (htransacts : Transacts provider env request handler returns) :
    Transacts provider env request (catching suite provider env fields clauses handler)
      returns := by
  apply transacts_tryCatch htransacts
  intro fault
  split
  · split
    · exact transacts_throw _
    · next clause _ =>
        unfold Clause.raise
        split
        · apply (transacts_appendAudit fields clause.outcome clause.code).bind
          intro _ _
          exact transacts_throw _
        · exact transacts_throw _
  · exact transacts_throw _

/-! ### The handlers -/

theorem validateIntent_eq_ok {intent : String} (hvalid : validateIntent intent = .ok ()) :
    intent ∈ allowedSecretUseIntents := by
  unfold validateIntent at hvalid
  split at hvalid
  · next hallowed => exact hallowed
  · cases hvalid

theorem validateIntent_fails {intent : String} {fault : Fault}
    (hfault : validateIntent intent = .error fault) :
    fault = .http 400 "malformed" "unsupported-intent" := by
  unfold validateIntent at hfault
  split at hfault
  · cases hfault
  · cases hfault
    rfl

theorem requireScope_fails {client : ProviderCredential} {action workspaceId : String}
    {intent : Option String} {fault : Fault}
    (hfault : requireScope client action workspaceId intent = .error fault) :
    fault = .http 403 "denied" "insufficient-scope" := by
  unfold requireScope requireGrant at hfault
  by_cases hpermitted : client.grants.any fun grant => grant.permits action workspaceId intent
  · rw [if_pos hpermitted] at hfault
    cases hfault
  · rw [if_neg hpermitted] at hfault
    cases hfault
    rfl

theorem validateIntent_not_raised {intent : String} {raised : Raised} :
    validateIntent intent ≠ .error (.raised raised) := by
  intro hraised
  obtain ⟨_, ⟨⟩⟩ := validateIntent_fails hraised

theorem requireScope_not_raised {client : ProviderCredential} {action workspaceId : String}
    {intent : Option String} {raised : Raised} :
    requireScope client action workspaceId intent ≠ .error (.raised raised) := by
  intro hraised
  obtain ⟨_, ⟨⟩⟩ := requireScope_fails hraised

theorem validateText_not_raised {intent : PyStr} {raised : Raised} :
    Api.validateText intent ≠ .error (.raised raised) := by
  unfold Api.validateText
  split
  · rintro ⟨⟩
  · intro hraised
    exact absurd (map_eq_error.mp hraised) validateIntent_not_raised

/-- The labels a value is stored under name its intent. -/
theorem canonicalIntentLabels_lookup {labels canonical : TextDict} {intent : String}
    (hlabels : canonicalIntentLabels labels intent = .ok canonical) :
    canonical.lookup "intent" = some intent := by
  unfold canonicalIntentLabels at hlabels
  split at hlabels
  · split at hlabels
    · cases hlabels
      exact AList.lookup_insert labels
    · cases hlabels
  · cases hlabels
    exact AList.lookup_insert labels

theorem delegationSigningIntentFor_eq_ok {purpose intent : String}
    (hintent : delegationSigningIntentFor purpose = .ok intent) :
    AdmittedFamily purpose intent := by
  unfold delegationSigningIntentFor at hintent
  split at hintent
  · cases hintent
  · next found hfound =>
      cases hintent
      exact hfound

theorem transacts_admitValue (action workspaceId : String) (body : SecretWriteRequest)
    (client : ProviderCredential) (fields : AuditFields) :
    Transacts provider env request
      (Api.admitValue suite provider env action workspaceId body client fields)
      fun labels => body.intent ∈ allowedSecretUseIntents ∧
        Granted client action workspaceId (some body.intent) ∧
        labels.lookup "intent" = some body.intent := by
  apply (transacts_audited fields _ _ _).bind
  intro _ hvalid
  apply (transacts_audited fields _ _ _).bind
  intro _ hscope
  apply (transacts_audited fields _ _ _).mono
  intro labels hlabels
  exact ⟨validateIntent_eq_ok hvalid, granted_of_requireScope hscope,
    canonicalIntentLabels_lookup hlabels⟩

/-- A client the credentials grant the request is not denied it. -/
theorem not_denied {client : ProviderCredential} {intent : Option String}
    (hclient : credential provider request.authorization = .ok client)
    (hintent : request.checkedIntent = .ok intent)
    (hgranted : Granted client request.action request.workspaceId intent) :
    ¬ Denied provider request :=
  fun hdenied => hdenied client (authenticate_of_credential hclient) intent hintent hgranted

theorem transacts_writeSecret (authorization : Option String) (workspaceId secretId : String)
    (body : SecretWriteRequest) {client : ProviderCredential}
    (hclient : credential provider authorization = .ok client) :
    Transacts provider env (.write authorization workspaceId secretId body)
      (Api.writeSecret suite provider env workspaceId secretId body client) fun _ => True := by
  apply (transacts_admitValue _ _ _ _ _).bind
  rintro labels ⟨hintent, hgranted, hlabel⟩
  apply (transacts_check _).bind
  intro value hvalue
  apply transacts_catching
  apply (transacts_call (not_denied hclient rfl hgranted) (.write hintent hlabel hvalue) rfl
    fun _ _ => Reply.metadata.inj).bind
  intro metadata _
  apply (transacts_appendAudit _ _ _).bind
  intro _ _
  exact transacts_pure trivial

theorem transacts_rotateSecret (authorization : Option String) (workspaceId secretId : String)
    (body : SecretRotateRequest) {client : ProviderCredential}
    (hclient : credential provider authorization = .ok client) :
    Transacts provider env (.rotate authorization workspaceId secretId body)
      (Api.rotateSecret suite provider env workspaceId secretId body client) fun _ => True := by
  apply (transacts_admitValue _ _ _ _ _).bind
  rintro labels ⟨hintent, hgranted, hlabel⟩
  apply (transacts_check _).bind
  intro value hvalue
  apply transacts_catching
  apply (transacts_call (not_denied hclient rfl hgranted) (.rotate hintent hlabel hvalue) rfl
    fun _ _ => Reply.metadata.inj).bind
  intro metadata _
  apply (transacts_appendAudit _ _ _).bind
  intro _ _
  exact transacts_pure trivial

theorem transacts_generateDelegationKey (authorization : Option String)
    (workspaceId secretId : String) (body : DelegationKeyGenerateRequest)
    {client : ProviderCredential} (hclient : credential provider authorization = .ok client) :
    Transacts provider env (.generate authorization workspaceId secretId body)
      (Api.generateDelegationKey suite provider env workspaceId secretId body client)
      fun _ => True := by
  have hrefuse : ∀ fields, Transacts provider env (.generate authorization workspaceId secretId body)
      (do
        appendAudit suite provider env fields "malformed" "invalid-delegation-key-generation"
        throw (.http 400 "malformed" "invalid-delegation-key-generation") : Handler Body)
      fun _ => True := by
    intro fields
    apply (transacts_appendAudit fields _ _).bind
    intro _ _
    exact transacts_throw _
  unfold Api.generateDelegationKey
  split
  · exact hrefuse _
  · next intent hintent =>
      apply (transacts_check _).bind
      intro valid _
      split
      · exact hrefuse _
      · apply (transacts_audited _ _ _ _).bind
        intro _ hscope
        apply transacts_catching
        have hchecked : (Request.generate authorization workspaceId secretId body).checkedIntent =
            .ok (some intent) := congrArg (Except.map some) hintent
        have hgranted := not_denied hclient hchecked (granted_of_requireScope hscope)
        have hadmitted := delegationSigningIntentFor_eq_ok hintent
        apply (transacts_call hgranted (.generate hadmitted) rfl fun _ _ => Reply.generated.inj).bind
        intro generated _
        exact (transacts_check _).mono fun _ _ => trivial

theorem transacts_resolveSecret (authorization : Option String) (workspaceId secretId : String)
    (body : EncodedResolveRequest) :
    Transacts provider env (.resolve authorization workspaceId secretId body)
      (Api.resolveSecret suite provider env workspaceId secretId body authorization)
      fun _ => True := by
  apply (transacts_audited _ _ _ _).bind
  intro client hclient
  apply (transacts_audited _ _ _ _).bind
  intro _ hvalid
  apply (transacts_audited _ _ _ _).bind
  intro _ hscope
  apply transacts_catching
  have hgranted := granted_of_requireScope hscope
  apply (transacts_call (not_denied hclient rfl hgranted) (.resolve (validateIntent_eq_ok hvalid))
    rfl fun _ _ => Reply.resolved.inj).bind
  intro resolved _
  apply (transacts_appendAudit _ _ _).bind
  intro _ _
  exact transacts_pure trivial

theorem transacts_resolveUnencodable (authorization : Option String)
    (workspaceId secretId : String) (body : SecretResolveRequest)
    (hunencodable : body.encode = none) :
    Transacts provider env
      (.resolveUnencodable authorization workspaceId secretId body hunencodable)
      (Api.resolveUnencodable suite provider env workspaceId body authorization)
      fun _ => True := by
  have happend : Transacts provider env
      (.resolveUnencodable authorization workspaceId secretId body hunencodable)
      (appending suite env fun draws => appendUnencodable draws) fun _ => True :=
    transacts_appending .appendUnencodable
  apply (transacts_auditing happend _).bind
  intro client _
  apply (transacts_auditing happend _).bind
  intro intent _
  apply (transacts_auditing happend _).bind
  intro _ _
  apply transacts_tryCatch
  · exact fun _ => ⟨.useUnencodable body.correlationId, fun _ _ _ => trivial⟩
  · intro fault
    split
    · apply happend.bind
      intro _ _
      exact transacts_throw _
    · exact transacts_throw _

theorem transacts_revokeSecretVersion (authorization : Option String)
    (workspaceId secretId versionId : String) (body : SecretVersionRevokeRequest)
    {client : ProviderCredential} (hclient : credential provider authorization = .ok client) :
    Transacts provider env (.revokeVersion authorization workspaceId secretId versionId body)
      (Api.revokeSecretVersion suite provider env workspaceId secretId versionId body client)
      fun _ => True := by
  apply (transacts_check _).bind
  intro _ hscope
  apply transacts_catching
  have hgranted := granted_of_requireScope hscope
  apply (transacts_call (not_denied hclient rfl hgranted) .revokeVersion rfl
    fun _ _ => Reply.metadata.inj).bind
  intro revoked _
  exact transacts_pure trivial

theorem transacts_auditRevoked (fields : AuditFields) (revoked : List SecretMetadata) :
    Transacts provider env request (Api.auditRevoked suite provider env fields revoked)
      fun _ => True := by
  induction revoked with
  | nil => exact transacts_pure trivial
  | cons metadata rest ih =>
      apply (transacts_check _).bind
      intro intent _
      apply (transacts_appendAudit _ _ _).bind
      intro _ _
      exact ih

theorem transacts_revokeSecret (authorization : Option String) (workspaceId secretId : String)
    (body : Option SecretRevokeRequest) {client : ProviderCredential}
    (hclient : credential provider authorization = .ok client) :
    Transacts provider env (.revoke authorization workspaceId secretId body)
      (Api.revokeSecret suite provider env workspaceId secretId body client) fun _ => True := by
  apply (transacts_check _).bind
  intro _ hscope
  apply transacts_catching
  have hgranted := granted_of_requireScope hscope
  apply (transacts_call (not_denied hclient rfl hgranted) .revoke rfl
    fun _ _ => Reply.revoked.inj).bind
  intro revoked _
  apply (transacts_auditRevoked _ revoked).bind
  intro _ _
  exact transacts_pure trivial

theorem transacts_readMetadata (authorization : Option String) (workspaceId secretId : String)
    (versionId : Option String) {client : ProviderCredential}
    (hclient : credential provider authorization = .ok client) :
    Transacts provider env (.readMetadata authorization workspaceId secretId versionId)
      (Api.readMetadata suite provider env workspaceId secretId versionId client)
      fun _ => True := by
  apply (transacts_check _).bind
  intro _ hscope
  apply transacts_catching
  have hgranted := granted_of_requireScope hscope
  apply (transacts_call (not_denied hclient rfl hgranted) .readMetadata rfl
    fun _ _ => Reply.metadata.inj).bind
  intro metadata _
  apply (transacts_appendAudit _ _ _).bind
  intro _ _
  exact transacts_pure trivial

/-- Whatever a request does to the database is one of its transactions. -/
theorem transacts_handler (request : Request) :
    Transacts provider env request (request.handler provider env) fun _ => True := by
  cases request with
  | write authorization workspaceId secretId body =>
      apply (transacts_check _).bind
      intro client hclient
      exact transacts_writeSecret authorization workspaceId secretId body hclient
  | generate authorization workspaceId secretId body =>
      apply (transacts_check _).bind
      intro client hclient
      exact transacts_generateDelegationKey authorization workspaceId secretId body hclient
  | rotate authorization workspaceId secretId body =>
      apply (transacts_check _).bind
      intro client hclient
      exact transacts_rotateSecret authorization workspaceId secretId body hclient
  | resolve authorization workspaceId secretId body =>
      exact transacts_resolveSecret authorization workspaceId secretId body
  | resolveUnencodable authorization workspaceId secretId body hunencodable =>
      exact transacts_resolveUnencodable authorization workspaceId secretId body hunencodable
  | revokeVersion authorization workspaceId secretId versionId body =>
      apply (transacts_check _).bind
      intro client hclient
      exact transacts_revokeSecretVersion authorization workspaceId secretId versionId body hclient
  | revoke authorization workspaceId secretId body =>
      apply (transacts_check _).bind
      intro client hclient
      exact transacts_revokeSecret authorization workspaceId secretId body hclient
  | readMetadata authorization workspaceId secretId versionId =>
      apply (transacts_check _).bind
      intro client hclient
      exact transacts_readMetadata authorization workspaceId secretId versionId hclient

/-! ### What the transactions do to the database -/

/-- Every transaction of the handler takes every database to a related one, and of a value it
returns `returns` holds. -/
def Moves (related : Tables → Tables → Prop) (handler : Handler α) (returns : α → Prop) : Prop :=
  ∀ audits, Script.Acts related (fun ending => ∀ value, ending.1 = .ok value → returns value)
    (handler audits)

/-- An audit append, done or failed, takes every database to a related one. -/
structure AuditsFreely (related : Tables → Tables → Prop) : Prop where
  idle : ∀ tables, related tables tables
  audited : ∀ {record : AuditRecord} {before after : Tables},
    RecordAdded record before after → related before after

theorem auditsFreely_moved : AuditsFreely (Moved suite provider) :=
  ⟨fun _ => .idle, .audited⟩

/-- What the store calls of a request do to every database, all its transactions do. -/
theorem moves_request {related : Tables → Tables → Prop} (haudits : AuditsFreely related)
    (request : Request)
    (hstep : ∀ call, Calls provider env request call →
      ∀ tables, related tables (perform tables call).2) :
    Moves related (request.handler provider env) fun _ => True := by
  intro audits
  apply (transacts_handler request audits).acts
  intro β action haction tables
  cases haction with
  | append position hevent =>
      rcases attempt_append tables hevent with ⟨_, hadded⟩ | ⟨_, hsame⟩
      · exact haudits.audited hadded
      · rw [hsame]
        exact haudits.idle tables
  | call _ hcalls hprogram _ =>
      rw [← (perform_attempt tables hprogram).2]
      exact hstep _ hcalls tables
  | appendUnencodable position =>
      obtain ⟨_, _, hattempt⟩ := attempt_appendUnencodable (env.audit position) tables
      rw [hattempt]
      exact haudits.idle tables
  | useUnencodable correlationId =>
      obtain ⟨_, _, hattempt⟩ :=
        attempt_useUnencodable env.store request.workspaceId correlationId tables
      rw [hattempt]
      exact haudits.idle tables

/-- Every transaction of every handler is a move. -/
theorem moves_handler (request : Request) :
    Moves (Moved suite provider) (request.handler provider env) fun _ => True := by
  apply moves_request auditsFreely_moved
  exact fun call hcalls _ => .performed call hcalls.master hcalls.handled

end

/-! ### How a handler ends -/

/-- How a handler ended, and what is seen of its steps. -/
def Ended {α γ : Type} (returns : α → γ → Prop) (raises : Fault → γ → Prop) :
    Except Fault α → γ → Prop
  | .ok value => returns value
  | .error fault => raises fault

/-- Whatever the other tasks do in between, as long as they keep `inv`: a handler that starts
when `seen` is what its task shows returns as `returns` says, or raises as `raises` does. -/
def Settles {α γ : Type} (view : List (Tables × Tables) → γ) (inv : Tables → Prop)
    (handler : Handler α) (seen : γ) (returns : α → γ → Prop) (raises : Fault → γ → Prop) : Prop :=
  ∀ audits own, view own = seen →
    (handler audits).Ensures inv
      (fun ending steps => Ended returns raises ending.1 (view steps)) own

section

variable {suite : CryptoSuite} {provider : Provider} {env : RequestEnv suite} {α β γ : Type}
variable {view : List (Tables × Tables) → γ} {inv : Tables → Prop} {seen : γ}
variable {handler : Handler α} {returns : α → γ → Prop} {raises : Fault → γ → Prop}

theorem settles_pure {value : α} (hreturns : returns value seen) :
    Settles view inv (pure value) seen returns raises := by
  rintro audits own rfl
  exact hreturns

theorem settles_throw {fault : Fault} (hraises : raises fault seen) :
    Settles view inv (throw fault : Handler α) seen returns raises := by
  rintro audits own rfl
  exact hraises

theorem Settles.mono {returns' : α → γ → Prop} {raises' : Fault → γ → Prop}
    (hsettles : Settles view inv handler seen returns raises)
    (hreturns : ∀ value seen, returns value seen → returns' value seen)
    (hraises : ∀ fault seen, raises fault seen → raises' fault seen) :
    Settles view inv handler seen returns' raises' := by
  intro audits own hown
  apply (hsettles audits own hown).mono
  rintro ⟨result, count⟩ steps hended
  cases result with
  | error fault => exact hraises _ _ hended
  | ok value => exact hreturns _ _ hended

theorem Settles.bind {next : α → Handler β} {returns : β → γ → Prop}
    (hsettles : Settles view inv handler seen
      (fun value seen' => Settles view inv (next value) seen' returns raises) raises) :
    Settles view inv (handler >>= next) seen returns raises := by
  intro audits own hown
  rw [bind_script]
  apply Script.Ensures.bind
  apply (hsettles audits own hown).mono
  rintro ⟨result, count⟩ steps hended
  cases result with
  | error fault => exact hended
  | ok value => exact hended count steps rfl

theorem settles_tryCatch {handle : Fault → Handler α}
    (hsettles : Settles view inv handler seen returns fun fault seen' =>
      Settles view inv (handle fault) seen' returns raises) :
    Settles view inv (tryCatch handler handle) seen returns raises := by
  intro audits own hown
  rw [tryCatch_script]
  apply Script.Ensures.bind
  apply (hsettles audits own hown).mono
  rintro ⟨result, count⟩ steps hended
  cases result with
  | error fault => exact hended count steps rfl
  | ok value => exact hended

theorem settles_check {check : Except Fault α}
    (hreturns : ∀ value, check = .ok value → returns value seen)
    (hraises : ∀ fault, check = .error fault → raises fault seen) :
    Settles view inv (ofExcept check) seen returns raises := by
  cases check with
  | error fault => exact settles_throw (hraises fault rfl)
  | ok value => exact settles_pure (hreturns value rfl)

/-- A store call, by the cases of what it does. -/
theorem settles_call (call : Call suite) {program : Tx Tables α} {change : α → Reply}
    (hprogram : call.program = change <$> program)
    (hreturns : ∀ own tables value after log, view own = seen → inv tables →
      Performs call.env call.master tables call.operation (change value) after log →
        returns value (view (own ++ [(tables, after)])))
    (hraises : ∀ own tables raised, view own = seen → inv tables →
      Refuses call.env call.master tables call.operation raised →
        raises (.raised raised) (view (own ++ [(tables, tables)]))) :
    Settles view inv (transact program) seen returns raises := by
  intro audits own hown tables hinv
  change Ended returns raises ((attempt program tables).1.mapError Fault.raised)
    (view (own ++ [(tables, (attempt program tables).2)]))
  cases hresult : (attempt program tables).1 with
  | error raised =>
      obtain ⟨hrefuses, hsame⟩ := attempt_refuses hprogram hresult
      rw [hsame]
      exact hraises own tables raised hown hinv hrefuses
  | ok value =>
      obtain ⟨log, hperforms⟩ := attempt_performs hprogram hresult
      exact hreturns own tables value _ log hown hinv hperforms

theorem settles_appendAudit {fields : AuditFields} {outcome code : String}
    {returns : Unit → γ → Prop}
    (hreturns : ∀ own (draws : Env suite) before after, view own = seen →
      RecordAdded (auditRow provider draws fields outcome code) before after →
        returns () (view (own ++ [(before, after)])))
    (hraises : ∀ own tables, view own = seen →
      raises (.http 503 "unavailable" "audit-unavailable") (view (own ++ [(tables, tables)]))) :
    Settles view inv (appendAudit suite provider env fields outcome code) seen returns raises := by
  intro audits own hown
  have happend : Settles view inv (transact (append (env.audit audits)
      (auditRow provider (env.audit audits) fields outcome code))) seen returns fun fault seen' =>
        fault = .raised .auditUnavailable ∧
          raises (.http 503 "unavailable" "audit-unavailable") seen' := by
    intro position steps hsteps tables _
    have hevent : (auditRow provider (env.audit audits) fields outcome code).eventId =
      (env.audit audits).eventId := rfl
    change Ended _ _ (Except.mapError Fault.raised _) (view (steps ++ [(tables, _)]))
    rcases attempt_append tables hevent with ⟨hresult, hadded⟩ | ⟨hresult, hsame⟩
    · rw [hresult]
      exact hreturns steps (env.audit audits) tables _ hsteps hadded
    · rw [hresult, hsame]
      exact ⟨rfl, hraises steps tables hsteps⟩
  refine settles_tryCatch (happend.mono (fun _ _ hends => hends) ?_) (audits + 1) own hown
  rintro _ seen' ⟨rfl, hunavailable⟩
  exact settles_throw hunavailable

/-- A check that is audited when it fails, by what its append does. -/
theorem settles_auditing {append : Handler Unit} {check : Except Fault α}
    (hreturns : ∀ value, check = .ok value → returns value seen)
    (happend : ∀ status outcome code, check = .error (.http status outcome code) →
      Settles view inv append seen (fun _ seen' => raises (.http status outcome code) seen') raises)
    (hraised : ∀ raised, check = .error (.raised raised) → raises (.raised raised) seen) :
    Settles view inv (auditing append check) seen returns raises := by
  apply settles_tryCatch
  apply settles_check hreturns
  intro fault hfault
  cases fault with
  | http status outcome code =>
      apply Settles.bind
      apply (happend status outcome code hfault).mono _ fun _ _ hends => hends
      exact fun _ _ hends => settles_throw hends
  | raised raised => exact settles_throw (hraised raised hfault)

/-! ### Texts that cannot be encoded -/

/-- What a request to resolve with a text that cannot be encoded ends with: the exception of the
append or the store call that binds the text, or of what came before it. -/
inductive UnencodableEnding (provider : Provider) (env : RequestEnv suite)
    (authorization : Option String) : Fault → Prop
  | unencodable : UnencodableEnding provider env authorization (.raised .unicodeEncodeError)
  | unavailable {position : Nat} {raised : Raised} (hfault : (env.audit position).Faults raised) :
      UnencodableEnding provider env authorization
        (.http 503 "unavailable" "audit-unavailable")
  | store {raised : Raised} (hfault : env.store.Faults raised) :
      UnencodableEnding provider env authorization (.raised raised)
  | credential {raised : Raised}
      (hraised : credential provider authorization = .error (.raised raised)) :
      UnencodableEnding provider env authorization (.raised raised)

/-- What an idle step keeps of what the task shows. -/
def KeptIdle (view : List (Tables × Tables) → γ) (kept : γ → Prop) : Prop :=
  ∀ own tables, kept (view own) → kept (view (own ++ [(tables, tables)]))

variable {kept : γ → Prop} {authorization : Option String}

theorem settles_appendingUnencodable (hidle : KeptIdle view kept) (hkept : kept seen)
    {returns : Unit → γ → Prop} :
    Settles view inv (appending suite env fun draws => appendUnencodable draws) seen returns
      fun fault seen' => UnencodableEnding provider env authorization fault ∧ kept seen' := by
  intro audits own hown
  have happend : Settles view inv (transact (appendUnencodable (env.audit audits))) seen returns
      fun fault seen' => (∃ raised, fault = .raised raised ∧
        UnencodableRaised (env.audit audits) raised) ∧ kept seen' := by
    rintro position steps rfl tables _
    obtain ⟨raised, hraised, hattempt⟩ := attempt_appendUnencodable (env.audit audits) tables
    change Ended _ _ (Except.mapError Fault.raised _) (view (steps ++ [(tables, _)]))
    rw [hattempt]
    exact ⟨⟨raised, rfl, hraised⟩, hidle steps tables hkept⟩
  refine settles_tryCatch (happend.mono (fun _ _ hends => hends) ?_) (audits + 1) own hown
  rintro _ seen' ⟨⟨raised, rfl, rfl | ⟨rfl, fault, hfault⟩⟩, hkept'⟩
  · exact settles_throw ⟨.unencodable, hkept'⟩
  · exact settles_throw ⟨.unavailable hfault, hkept'⟩

theorem settles_auditingUnencodable (hidle : KeptIdle view kept) (hkept : kept seen)
    {check : Except Fault α} (hreturns : ∀ value, check = .ok value → returns value seen)
    (hraised : ∀ raised, check = .error (.raised raised) →
      UnencodableEnding provider env authorization (.raised raised)) :
    Settles view inv
      (auditing (appending suite env fun draws => appendUnencodable draws) check) seen returns
      fun fault seen' => UnencodableEnding provider env authorization fault ∧ kept seen' :=
  settles_auditing hreturns (fun _ _ _ _ => settles_appendingUnencodable hidle hkept)
    fun raised hfault => ⟨hraised raised hfault, hkept⟩

/-- A request with a text that cannot be encoded is not answered, and its steps are idle. -/
theorem settles_resolveUnencodable (hidle : KeptIdle view kept) (hkept : kept seen)
    (workspaceId : String) (request : SecretResolveRequest) :
    Settles view inv (Api.resolveUnencodable suite provider env workspaceId request authorization)
      seen (fun _ _ => False)
      fun fault seen' => UnencodableEnding provider env authorization fault ∧ kept seen' := by
  apply Settles.bind
  apply settles_auditingUnencodable hidle hkept _ fun _ hraised => .credential hraised
  intro client _
  apply Settles.bind
  apply settles_auditingUnencodable hidle hkept _ fun _ hraised =>
    absurd hraised validateText_not_raised
  intro intent _
  apply Settles.bind
  apply settles_auditingUnencodable hidle hkept _ fun _ hraised =>
    absurd hraised requireScope_not_raised
  intro _ _
  apply settles_tryCatch
  rintro audits own rfl tables _
  obtain ⟨raised, hraised, hattempt⟩ :=
    attempt_useUnencodable env.store workspaceId request.correlationId tables
  change Ended _ _ (Except.mapError Fault.raised _) (view (own ++ [(tables, _)]))
  rw [hattempt]
  have hkept' := hidle own tables hkept
  cases hraised with
  | fault hfault =>
      obtain ⟨_, _, _, rfl⟩ := hfault
      exact settles_throw ⟨.store ⟨_, _, ‹_›, rfl⟩, hkept'⟩
  | conflict =>
      apply Settles.bind
      exact settles_appendingUnencodable hidle hkept'
  | unencodable => exact settles_throw ⟨.unencodable, hkept'⟩

/-- Where nothing is said of how a handler raises, a check that fails needs no more. -/
theorem settles_audited {fields : AuditFields} {outcome code : String} {check : Except Fault α}
    (hreturns : ∀ value, check = .ok value → returns value seen) :
    Settles view inv (audited suite provider env fields outcome code check) seen returns
      fun _ _ => True := by
  apply settles_tryCatch
  apply settles_check hreturns
  intro fault _
  cases fault with
  | http status outcome' code' =>
      apply Settles.bind
      apply settles_appendAudit
      · exact fun _ _ _ _ _ _ => settles_throw trivial
      · exact fun _ _ _ => trivial
  | raised raised => exact settles_throw trivial

/-- Where nothing is said of how a handler raises, its clauses do not matter. -/
theorem settles_caught {fields : AuditFields} {clauses : List Clause}
    (hsettles : Settles view inv handler seen returns fun _ _ => True) :
    Settles view inv (catching suite provider env fields clauses handler) seen returns
      fun _ _ => True := by
  apply settles_tryCatch
  apply hsettles.mono (fun _ _ hends => hends)
  intro fault seen' _
  split
  · split
    · exact settles_throw trivial
    · unfold Clause.raise
      split
      · apply Settles.bind
        apply settles_appendAudit
        · exact fun _ _ _ _ _ _ => settles_throw trivial
        · exact fun _ _ _ => trivial
      · exact settles_throw trivial
  · exact settles_throw trivial

end

/-! ### Servers -/

section

variable {suite : CryptoSuite}

/-- A request as the script its task runs. -/
def serve (provider : Provider) (call : ApiCall suite) :
    Script Tables (Except Fault Body × Nat) :=
  call.request.handler provider call.env 0

abbrev Server (suite : CryptoSuite) :=
  System Tables (ApiCall suite) (Except Fault Body × Nat)

/-- The server after requests arrived and took their transactions in the given order, on an
empty database. -/
def runServer (provider : Provider) (events : List (Event (ApiCall suite))) : Server suite :=
  System.run (serve provider) Tables.empty events

variable {provider : Provider}

theorem serve_guarantees {related : Tables → Tables → Prop}
    (hmoved : ∀ before after, Moved suite provider before after → related before after)
    (call : ApiCall suite) : (serve provider call).Guarantees related :=
  (moves_handler call.request 0).guarantees.mono hmoved

/-- What holds of an empty database and survives every move holds in every run. -/
theorem runServer_inv {inv : Tables → Prop} (hempty : inv Tables.empty)
    (hmoved : ∀ before after, inv before → Moved suite provider before after → inv after)
    (events : List (Event (ApiCall suite))) : inv (runServer provider events).state := by
  have hkept : System.Kept (Moved suite provider) inv (fun _ _ _ => True) Tables.empty
      (runServer provider events) :=
    System.run_kept hempty hmoved (serve_guarantees fun _ _ hstep => hstep)
      (fun call => Script.ensures_true (serve provider call)) events
  exact hkept.holds

/-- The database of a run is related to every later one. -/
theorem runServer_later {related : Tables → Tables → Prop}
    (hrefl : ∀ tables, related tables tables)
    (htrans : ∀ first second third, related first second → related second third →
      related first third)
    (hmoved : ∀ before after, Moved suite provider before after → related before after)
    (earlier later : List (Event (ApiCall suite))) :
    related (runServer provider earlier).state (runServer provider (earlier ++ later)).state :=
  System.run_later hrefl htrans (serve_guarantees hmoved) Tables.empty earlier later

/-! ### What every move keeps -/

theorem RecordAdded.extends {record : AuditRecord} {before after : Tables}
    (hadded : RecordAdded record before after) : Extends before after := by
  obtain ⟨rfl, _⟩ := hadded
  exact { Extends.refl before with auditRecords := List.prefix_append _ _ }

theorem Moved.consistent {before after : Tables} (hmoved : Moved suite provider before after)
    (hconsistent : Consistent before) : Consistent after := by
  cases hmoved with
  | idle => exact hconsistent
  | performed call => exact perform_consistent call hconsistent
  | audited hadded => exact hadded.consistent hconsistent

theorem Moved.extends {before after : Tables} (hmoved : Moved suite provider before after)
    (hconsistent : Consistent before) : Extends before after := by
  cases hmoved with
  | idle => exact Extends.refl before
  | performed call => exact perform_extends hconsistent call
  | audited hadded => exact hadded.extends

theorem Moved.coherent {before after : Tables} (hmoved : Moved suite provider before after)
    (hconsistent : Consistent before) (hcoherent : Coherent before) : Coherent after := by
  cases hmoved with
  | idle => exact hcoherent
  | performed call => exact perform_coherent hconsistent hcoherent call
  | audited hadded =>
      obtain ⟨rfl, _⟩ := hadded
      exact ⟨hcoherent.revokedAt, hcoherent.revocations, hcoherent.generations,
        hcoherent.selections, hcoherent.generationAddresses, hcoherent.revocationTargets⟩

/-- Every version row holds an encryption made under its own metadata. -/
def Sealed (suite : CryptoSuite) (tables : Tables) : Prop :=
  ∀ row ∈ tables.versions, ∃ encryption metadata, Seals suite encryption row metadata

theorem sealed_empty : Sealed suite Tables.empty := by
  intro row hrow
  cases hrow

theorem Performs.sealed {env : Env suite} {master : MasterKey} {before after : Tables}
    {operation : Operation} {reply : Reply} {log : List Encryption}
    (hperforms : Performs env master before operation reply after log)
    (hconsistent : Consistent before) (hsealed : Sealed suite before) : Sealed suite after := by
  obtain ⟨change, added, hrows, hsteps, hadded⟩ :=
    (hperforms.versionsEffect hconsistent.versionKeys).rows
  intro row hrow
  rw [hrows, List.mem_append] at hrow
  rcases hrow with hold | hnew
  · obtain ⟨found, hfound, rfl⟩ := List.mem_map.mp hold
    have hstep := hsteps found hfound
    generalize change found = row at hstep
    cases hstep with
    | same => exact hsealed found hfound
    | resealed _ _ _ hseals => exact ⟨_, _, hseals⟩
  · cases hadded with
    | none => cases hnew
    | one _ _ _ _ hseals =>
        rw [List.mem_singleton] at hnew
        subst hnew
        exact ⟨_, _, hseals⟩

theorem Moved.sealed {before after : Tables} (hmoved : Moved suite provider before after)
    (hconsistent : Consistent before) (hsealed : Sealed suite before) : Sealed suite after := by
  cases hmoved with
  | idle => exact hsealed
  | performed call =>
      rcases perform_cases before call with ⟨reply, _, hperforms⟩ | ⟨raised, _, _, hsame⟩
      · exact hperforms.sealed hconsistent hsealed
      · rwa [hsame]
  | audited hadded =>
      obtain ⟨rfl, _⟩ := hadded
      exact hsealed

/-- What an honest run leaves. -/
abbrev Honest (suite : CryptoSuite) (tables : Tables) : Prop :=
  Consistent tables ∧ Sealed suite tables

theorem honest_empty : Honest suite Tables.empty :=
  ⟨consistent_empty, sealed_empty⟩

theorem Moved.honest {before after : Tables} (hmoved : Moved suite provider before after)
    (hhonest : Honest suite before) : Honest suite after :=
  ⟨hmoved.consistent hhonest.1, hmoved.sealed hhonest.1 hhonest.2⟩

theorem runServer_consistent (events : List (Event (ApiCall suite))) :
    Consistent (runServer provider events).state :=
  runServer_inv consistent_empty (fun _ _ hconsistent hmoved => hmoved.consistent hconsistent)
    events

/-- A server keeps the tables coherent. -/
theorem runServer_coherent (events : List (Event (ApiCall suite))) :
    Consistent (runServer provider events).state ∧ Coherent (runServer provider events).state := by
  refine @runServer_inv suite provider (fun tables => Consistent tables ∧ Coherent tables)
    ⟨consistent_empty, coherent_empty⟩ ?_ events
  rintro before after ⟨hconsistent, hcoherent⟩ hmoved
  exact ⟨hmoved.consistent hconsistent, hmoved.coherent hconsistent hcoherent⟩

/-- The database of a run extends that of every earlier one. -/
theorem runServer_extends (earlier later : List (Event (ApiCall suite))) :
    Extends (runServer provider earlier).state (runServer provider (earlier ++ later)).state := by
  have hrelated : Consistent (runServer provider earlier).state →
      Consistent (runServer provider (earlier ++ later)).state ∧
        Extends (runServer provider earlier).state (runServer provider (earlier ++ later)).state := by
    refine @runServer_later suite provider (fun before after =>
      Consistent before → Consistent after ∧ Extends before after) ?_ ?_ ?_ earlier later
    · exact fun tables hconsistent => ⟨hconsistent, Extends.refl tables⟩
    · intro first second third hfirst hsecond hconsistent
      obtain ⟨hmiddle, hextends⟩ := hfirst hconsistent
      obtain ⟨hlast, hextends'⟩ := hsecond hmiddle
      exact ⟨hlast, hextends.trans hextends'⟩
    · exact fun _ _ hmoved hconsistent =>
        ⟨hmoved.consistent hconsistent, hmoved.extends hconsistent⟩
  exact (hrelated (runServer_consistent earlier)).2

/-- Every step of a run started on a consistent database that the last one extends. -/
theorem path_extends {steps : List (Interleaving.Step Tables)} {state : Tables}
    (hpath : System.Path (Moved suite provider) Tables.empty steps state) :
    Consistent state ∧
      ∀ step ∈ steps, Consistent step.before ∧ Extends step.before state := by
  induction hpath with
  | nil =>
      refine ⟨consistent_empty, ?_⟩
      intro step hstep
      cases hstep
  | @snoc steps before after task _ hmoved ih =>
      obtain ⟨hconsistent, hextends⟩ := ih
      have hlast := hmoved.extends hconsistent
      refine ⟨hmoved.consistent hconsistent, ?_⟩
      intro step hstep
      rw [List.mem_append, List.mem_singleton] at hstep
      rcases hstep with hold | rfl
      · exact ⟨(hextends step hold).1, (hextends step hold).2.trans hlast⟩
      · exact ⟨hconsistent, hlast⟩

end

end SecretsCustody
