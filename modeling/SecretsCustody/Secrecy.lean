/-
Secret values flow out through `resolve` only: two runs of requests that differ
in the values written answer alike, and store alike in every column but the
ciphertexts.
-/
import SecretsCustody.Denial
import SecretsCustody.History
import SecretsCustody.StoreCoupling

namespace SecretsCustody

open Effect History Interleaving JsonText

/-! ### Requests and answers that differ in values -/

/-- Write requests that differ in their values at most, and then in values the routes
accept. -/
structure SameButValue (body body' : SecretWriteRequest) : Prop where
  intent : body'.intent = body.intent
  labels : body'.labels = body.labels
  callerSubject : body'.callerSubject = body.callerSubject
  correlationId : body'.correlationId = body.correlationId
  values : body'.valueBase64 = body.valueBase64 ∨
    ∃ value value', decodeSecretValue body.valueBase64 = .ok value ∧
      decodeSecretValue body'.valueBase64 = .ok value'

/-- One request, or two that differ in the value to write. -/
inductive SameRequest : Request → Request → Prop
  | same (request : Request) : SameRequest request request
  | write {authorization : Option String} {workspaceId secretId : String}
      {body body' : SecretWriteRequest} (hbody : SameButValue body body') :
      SameRequest (.write authorization workspaceId secretId body)
        (.write authorization workspaceId secretId body')
  | rotate {authorization : Option String} {workspaceId secretId : String}
      {body body' : SecretRotateRequest} (hbody : SameButValue body body') :
      SameRequest (.rotate authorization workspaceId secretId body)
        (.rotate authorization workspaceId secretId body')

/-- One answer, or two resolutions that differ in the value. -/
inductive SameBody : Body → Body → Prop
  | same (body : Body) : SameBody body body
  | resolved (metadata : MetadataResponse) (valueBase64 valueBase64' : String) :
      SameBody (.resolved metadata valueBase64) (.resolved metadata valueBase64')

inductive SameResponse : Response → Response → Prop
  | ok {body body' : Body} (hbody : SameBody body body') : SameResponse (.ok body) (.ok body')
  | refused (status : Nat) (outcome code : String) :
      SameResponse (.refused status outcome code) (.refused status outcome code)
  | internalServerError : SameResponse .internalServerError .internalServerError

theorem SameButValue.refl (body : SecretWriteRequest) : SameButValue body body :=
  ⟨rfl, rfl, rfl, rfl, .inl rfl⟩

/-- Both values are refused alike, or both are within the bound. -/
theorem SameButValue.decode_alike {body body' : SecretWriteRequest}
    (hbody : SameButValue body body') :
    Alike (fun value value' => value.length ≤ maxSecretBytes ∧ value'.length ≤ maxSecretBytes)
      (decodeSecretValue body.valueBase64) (decodeSecretValue body'.valueBase64) := by
  rcases hbody.values with heq | ⟨value, value', hvalue, hvalue'⟩
  · rw [heq]
    exact Alike.refl fun value hvalue =>
      ⟨decodeSecretValue_bounded hvalue, decodeSecretValue_bounded hvalue⟩
  · rw [hvalue, hvalue']
    exact ⟨decodeSecretValue_bounded hvalue, decodeSecretValue_bounded hvalue'⟩

theorem SameButValue.writeFields {body body' : SecretWriteRequest}
    (hbody : SameButValue body body') (workspaceId secretId : String)
    (client : ProviderCredential) :
    Api.writeFields workspaceId secretId body' client =
      Api.writeFields workspaceId secretId body client := by
  unfold Api.writeFields
  rw [hbody.intent, hbody.callerSubject, hbody.correlationId]

/-! ### Handlers -/

section

variable {suite : CryptoSuite} {provider : Provider} {env : RequestEnv suite}

theorem auditsAlike_low : AuditsAlike env (LowTables suite provider.master) :=
  fun _ record _ => auditAlike_low record

theorem admitValue_low {action workspaceId : String} {body body' : SecretWriteRequest}
    (hintent : body'.intent = body.intent) (hlabels : body'.labels = body.labels)
    (client : ProviderCredential) (fields : AuditFields) :
    Agree (LowTables suite provider.master) (fun labels labels' => labels' = labels)
      (Api.admitValue suite provider env action workspaceId body client fields)
      (Api.admitValue suite provider env action workspaceId body' client fields) := by
  unfold Api.admitValue
  rw [hintent, hlabels]
  apply (agree_audited auditsAlike_low _ _ _ _).bind
  intro _ _ _
  apply (agree_audited auditsAlike_low _ _ _ _).bind
  intro _ _ _ audits tables tables' hlow
  obtain ⟨hvalues, hends⟩ := agree_audited auditsAlike_low fields "malformed"
    "intent-label-conflict" (canonicalIntentLabels body.labels body.intent) audits tables tables' hlow
  exact ⟨hvalues.mono fun _ _ hvalue => hvalue.1, hends⟩

/-- A store call on both databases with one answer, audited in both. -/
theorem agree_answered {α : Type} {left right : Tx Tables α} {values : α → α → Prop}
    (hcoupled : ∀ tables tables', LowTables suite provider.master tables tables' →
      Coupled left right tables tables'
        (fun value value' after after' =>
          values value value' ∧ LowTables suite provider.master after after')
        (LowTables suite provider.master))
    {finish finish' : α → Handler Body}
    (hfinish : ∀ value value', values value value' →
      Agree (LowTables suite provider.master) SameBody (finish value) (finish' value'))
    (fields : AuditFields) (clauses : List Clause) :
    Agree (LowTables suite provider.master) SameBody
      (catching suite provider env fields clauses (transact left >>= finish))
      (catching suite provider env fields clauses (transact right >>= finish')) :=
  agree_catching auditsAlike_low fields clauses ((agree_transact hcoupled).bind hfinish)

/-- An append and an answer that holds no value. -/
theorem agree_append_answer (fields : AuditFields) (outcome code : String) (body : Body) :
    Agree (LowTables suite provider.master) SameBody
      (do
        appendAudit suite provider env fields outcome code
        return body)
      (do
        appendAudit suite provider env fields outcome code
        return body) := by
  apply (agree_appendAudit auditsAlike_low fields outcome code).bind
  intro _ _ _
  exact agree_pure (.same body)

theorem auditRevoked_low (fields : AuditFields) (revoked : List SecretMetadata) :
    Agree (LowTables suite provider.master) (fun _ _ => True)
      (Api.auditRevoked suite provider env fields revoked)
      (Api.auditRevoked suite provider env fields revoked) := by
  induction revoked with
  | nil => exact agree_pure trivial
  | cons metadata rest ih =>
      apply agree_check.bind
      rintro intent _ ⟨rfl, _⟩
      apply (agree_appendAudit auditsAlike_low _ _ _).bind
      intro _ _ _
      exact ih

section

variable (hsuite : suite.DecryptsOwn) (hcipher : EncryptsAlike suite provider.master)

include hsuite hcipher

theorem writeSecret_low {workspaceId secretId : String} {body body' : SecretWriteRequest}
    (hbody : SameButValue body body') (client : ProviderCredential) :
    Agree (LowTables suite provider.master) SameBody
      (Api.writeSecret suite provider env workspaceId secretId body client)
      (Api.writeSecret suite provider env workspaceId secretId body' client) := by
  unfold Api.writeSecret
  dsimp only
  rw [hbody.writeFields]
  apply (admitValue_low hbody.intent hbody.labels client _).bind
  rintro labels _ rfl
  apply (agree_ofExcept hbody.decode_alike).bind
  rintro value value' ⟨hbound, hbound'⟩
  apply agree_answered
  · intro tables tables' hlow
    exact createSecret_coupled hsuite hcipher hlow workspaceId secretId
      hbound hbound' _
  · rintro metadata _ rfl
    exact agree_append_answer _ _ _ _

theorem rotateSecret_low {workspaceId secretId : String} {body body' : SecretRotateRequest}
    (hbody : SameButValue body body') (client : ProviderCredential) :
    Agree (LowTables suite provider.master) SameBody
      (Api.rotateSecret suite provider env workspaceId secretId body client)
      (Api.rotateSecret suite provider env workspaceId secretId body' client) := by
  unfold Api.rotateSecret
  dsimp only
  rw [hbody.writeFields, hbody.intent]
  apply (admitValue_low hbody.intent hbody.labels client _).bind
  rintro labels _ rfl
  apply (agree_ofExcept hbody.decode_alike).bind
  rintro value value' ⟨hbound, hbound'⟩
  apply agree_answered
  · intro tables tables' hlow
    exact rotateSecret_coupled hsuite hcipher hlow workspaceId secretId
      hbound hbound' _ _
  · rintro metadata _ rfl
    exact agree_append_answer _ _ _ _

theorem generateDelegationKey_low (workspaceId secretId : String)
    (request : DelegationKeyGenerateRequest) (client : ProviderCredential) :
    Agree (LowTables suite provider.master) SameBody
      (Api.generateDelegationKey suite provider env workspaceId secretId request client)
      (Api.generateDelegationKey suite provider env workspaceId secretId request client) := by
  have hrefuse : ∀ fields, Agree (LowTables suite provider.master) SameBody
      (do
        appendAudit suite provider env fields "malformed" "invalid-delegation-key-generation"
        throw (.http 400 "malformed" "invalid-delegation-key-generation") : Handler Body)
      (do
        appendAudit suite provider env fields "malformed" "invalid-delegation-key-generation"
        throw (.http 400 "malformed" "invalid-delegation-key-generation") : Handler Body) := by
    intro fields
    apply (agree_appendAudit auditsAlike_low _ _ _).bind
    intro _ _ _
    exact agree_throw _
  unfold Api.generateDelegationKey
  split
  · exact hrefuse _
  · apply agree_check.bind
    rintro valid _ ⟨rfl, _⟩
    split
    · exact hrefuse _
    · apply (agree_audited auditsAlike_low _ _ _ _).bind
      intro _ _ _
      apply agree_answered
      · intro tables tables' hlow
        exact generateDelegationKey_coupled hsuite hcipher hlow _
      · rintro generated _ rfl
        exact agree_ofExcept (Alike.refl fun body _ => .same body)

theorem revokeSecretVersion_low (workspaceId secretId versionId : String)
    (request : SecretVersionRevokeRequest) (client : ProviderCredential) :
    Agree (LowTables suite provider.master) SameBody
      (Api.revokeSecretVersion suite provider env workspaceId secretId versionId request client)
      (Api.revokeSecretVersion suite provider env workspaceId secretId versionId request client) := by
  apply agree_check.bind
  intro _ _ _
  apply agree_answered
  · intro tables tables' hlow
    exact revokeSecretVersion_coupled hsuite hcipher hlow _
  · rintro metadata _ rfl
    exact agree_pure (.same _)

theorem revokeSecret_low (workspaceId secretId : String) (request : Option SecretRevokeRequest)
    (client : ProviderCredential) :
    Agree (LowTables suite provider.master) SameBody
      (Api.revokeSecret suite provider env workspaceId secretId request client)
      (Api.revokeSecret suite provider env workspaceId secretId request client) := by
  apply agree_check.bind
  intro _ _ _
  apply agree_answered
  · intro tables tables' hlow
    exact revokeSecret_coupled hsuite hcipher hlow workspaceId secretId
  · rintro _ revoked rfl
    apply (auditRevoked_low _ revoked).bind
    intro _ _ _
    exact agree_pure (.same _)

end

theorem resolveSecret_low (workspaceId secretId : String) (request : EncodedResolveRequest)
    (authorization : Option String) :
    Agree (LowTables suite provider.master) SameBody
      (Api.resolveSecret suite provider env workspaceId secretId request authorization)
      (Api.resolveSecret suite provider env workspaceId secretId request authorization) := by
  apply (agree_audited auditsAlike_low _ _ _ _).bind
  rintro _ client ⟨rfl, _⟩
  apply (agree_audited auditsAlike_low _ _ _ _).bind
  intro _ _ _
  apply (agree_audited auditsAlike_low _ _ _ _).bind
  intro _ _ _
  apply agree_answered
  · intro tables tables' hlow
    exact resolveSecretForUse_coupled hlow _
  · intro secret secret' hmetadata
    rw [hmetadata]
    apply (agree_appendAudit auditsAlike_low _ _ _).bind
    intro _ _ _
    exact agree_pure (.resolved _ _ _)

theorem resolveUnencodable_low (workspaceId : String) (request : SecretResolveRequest)
    (authorization : Option String) :
    Agree (LowTables suite provider.master) SameBody
      (Api.resolveUnencodable suite provider env workspaceId request authorization)
      (Api.resolveUnencodable suite provider env workspaceId request authorization) := by
  apply (agree_auditing agree_appendingUnencodable _).bind
  rintro _ client ⟨rfl, _⟩
  apply (agree_auditing agree_appendingUnencodable _).bind
  rintro _ intent ⟨rfl, _⟩
  apply (agree_auditing agree_appendingUnencodable _).bind
  intro _ _ _
  apply agree_tryCatch
  · apply agree_transact
    intro tables tables' hlow
    apply coupled_resolveUnencodableForUse hlow
    unfold Tables.selection
    rw [hlow.selections]
  · intro fault
    split
    · apply agree_appendingUnencodable.bind
      intro _ _ _
      exact agree_throw _
    · exact agree_throw _

theorem readMetadata_low (workspaceId secretId : String) (versionId : Option String)
    (client : ProviderCredential) :
    Agree (LowTables suite provider.master) SameBody
      (Api.readMetadata suite provider env workspaceId secretId versionId client)
      (Api.readMetadata suite provider env workspaceId secretId versionId client) := by
  apply agree_check.bind
  intro _ _ _
  apply agree_answered
  · intro tables tables' hlow
    exact metadata_coupled hlow workspaceId secretId versionId
  · rintro metadata _ rfl
    exact agree_append_answer _ _ _ _

/-- Every handler, on requests that differ in the value to write at most. -/
theorem handler_low (hsuite : suite.DecryptsOwn) (hcipher : EncryptsAlike suite provider.master)
    {request request' : Request} (hsame : SameRequest request request') :
    Agree (LowTables suite provider.master) SameBody (request.handler provider env)
      (request'.handler provider env) := by
  have hcredential : ∀ (authorization : Option String) (next next' : ProviderCredential → Handler Body),
      (∀ client, Agree (LowTables suite provider.master) SameBody (next client) (next' client)) →
        Agree (LowTables suite provider.master) SameBody
          (ofExcept (credential provider authorization) >>= next)
          (ofExcept (credential provider authorization) >>= next') := by
    intro authorization next next' hnext
    apply agree_check.bind
    rintro _ client ⟨rfl, _⟩
    exact hnext client
  cases hsame with
  | write hbody =>
      apply hcredential
      exact writeSecret_low hsuite hcipher hbody
  | rotate hbody =>
      apply hcredential
      exact rotateSecret_low hsuite hcipher hbody
  | same =>
      cases request with
      | write authorization workspaceId secretId body =>
          apply hcredential
          exact writeSecret_low hsuite hcipher (SameButValue.refl body)
      | generate authorization workspaceId secretId body =>
          apply hcredential
          exact generateDelegationKey_low hsuite hcipher workspaceId secretId body
      | rotate authorization workspaceId secretId body =>
          apply hcredential
          exact rotateSecret_low hsuite hcipher (SameButValue.refl body)
      | resolve authorization workspaceId secretId body =>
          exact resolveSecret_low workspaceId secretId body authorization
      | resolveUnencodable authorization workspaceId secretId body hunencodable =>
          exact resolveUnencodable_low workspaceId body authorization
      | revokeVersion authorization workspaceId secretId versionId body =>
          apply hcredential
          exact revokeSecretVersion_low hsuite hcipher workspaceId secretId versionId body
      | revoke authorization workspaceId secretId body =>
          apply hcredential
          exact revokeSecret_low hsuite hcipher workspaceId secretId body
      | readMetadata authorization workspaceId secretId versionId =>
          apply hcredential
          exact readMetadata_low workspaceId secretId versionId

/-! ### Runs -/

/-- One request as a step of the database. -/
def answer (provider : Provider) (tables : Tables) (call : ApiCall suite) : Response × Tables :=
  respond provider call.env tables call.request

/-- The same draws, and requests that differ in the value to write at most. -/
structure SameCall (call call' : ApiCall suite) : Prop where
  env : call'.env = call.env
  request : SameRequest call.request call'.request

/-- Every column but the ciphertexts is the same in both databases. -/
structure SameColumns (tables tables' : Tables) : Prop where
  versions : List.Forall₂ (fun row row' : VersionRow =>
    row' = { row with ciphertext := row'.ciphertext }) tables.versions tables'.versions
  selections : tables'.selections = tables.selections
  generations : tables'.generations = tables.generations
  revocations : tables'.revocations = tables.revocations
  auditRecords : tables'.auditRecords = tables.auditRecords

theorem LowTables.sameColumns {master : MasterKey} {tables tables' : Tables}
    (hlow : LowTables suite master tables tables') : SameColumns tables tables' where
  versions := hlow.versions.imp fun _ _ hrow => hrow.columns
  selections := hlow.selections
  generations := hlow.generations
  revocations := hlow.revocations
  auditRecords := hlow.auditRecords

/-- What two requests that differ in the value to write leave and answer. -/
structure SameEntry (entry entry' : Entry Tables (ApiCall suite) Response) : Prop where
  response : SameResponse entry.output entry'.output
  columns : SameColumns entry.after entry'.after

theorem respond_low (env : RequestEnv suite) (hsuite : suite.DecryptsOwn)
    (hcipher : EncryptsAlike suite provider.master) {request request' : Request}
    (hsame : SameRequest request request') {tables tables' : Tables}
    (hlow : LowTables suite provider.master tables tables') :
    SameResponse (respond provider env tables request).1 (respond provider env tables' request').1 ∧
      LowTables suite provider.master (respond provider env tables request).2
        (respond provider env tables' request').2 := by
  have hagree : Agree (LowTables suite provider.master) SameBody (request.handler provider env)
      (request'.handler provider env) := handler_low hsuite hcipher hsame
  obtain ⟨hvalues, _, hafter⟩ := hagree 0 tables tables' hlow
  unfold respond
  generalize Script.run (request.handler provider env 0) tables = ending at hvalues hafter ⊢
  generalize Script.run (request'.handler provider env 0) tables' = ending' at hvalues hafter ⊢
  obtain ⟨⟨result, count⟩, after⟩ := ending
  obtain ⟨⟨result', count'⟩, after'⟩ := ending'
  cases result <;> cases result'
  · next fault fault' =>
      cases hvalues
      refine ⟨?_, hafter⟩
      cases fault with
      | http status outcome code => exact .refused status outcome code
      | raised raised => exact .internalServerError
  · exact hvalues.elim
  · exact hvalues.elim
  · exact ⟨.ok hvalues, hafter⟩

theorem trace_low (hsuite : suite.DecryptsOwn) (hcipher : EncryptsAlike suite provider.master)
    {calls calls' : List (ApiCall suite)} (hcalls : List.Forall₂ SameCall calls calls')
    {tables tables' : Tables} (hlow : LowTables suite provider.master tables tables') :
    List.Forall₂ SameEntry (trace (answer provider) tables calls)
      (trace (answer provider) tables' calls') := by
  induction hcalls generalizing tables tables' with
  | nil => exact .nil
  | @cons call call' calls calls' hcall _ ih =>
      obtain ⟨env, request⟩ := call
      obtain ⟨env', request'⟩ := call'
      obtain rfl : env' = env := hcall.env
      obtain ⟨hresponse, hafter⟩ := respond_low env' hsuite hcipher hcall.request hlow
      exact .cons ⟨hresponse, hafter.sameColumns⟩ (ih hafter)

theorem values_leave_by_resolve (provider : Provider) (hsuite : suite.DecryptsOwn)
    (hcipher : EncryptsAlike suite provider.master) (calls calls' : List (ApiCall suite))
    (hcalls : List.Forall₂ SameCall calls calls') :
    List.Forall₂ SameEntry (trace (answer provider) Tables.empty calls)
      (trace (answer provider) Tables.empty calls') :=
  trace_low hsuite hcipher hcalls lowTables_empty

end

/-! ### Two values -/

/-- A provider whose one client may do everything. -/
def openProvider : Provider :=
  { readingProvider with
    credentials := [{ subject := "client", token := "token"
                      grants := ["secret.write", "secret.rotate", "secret.resolve",
                        "secret.revoke", "secret.metadata"].map fun action =>
                          { action := action, workspaceId := "*" } }] }

def plainWrite (valueBase64 : String) (hvalue : 1 ≤ valueBase64.length) : SecretWriteRequest :=
  { valueBase64 := valueBase64
    intent := "postgres.password"
    labels := ⟨[], List.nodup_nil⟩
    callerSubject := none
    correlationId := none
    value_length := hvalue
    callerSubject_length := fun _ hnone => nomatch hnone
    correlationId_length := fun _ hnone => nomatch hnone }

/-- A value is written and resolved. -/
def writeThenResolve (valueBase64 : String) (hvalue : 1 ≤ valueBase64.length) :
    List (ApiCall transparentSuite) :=
  [⟨plainRequestEnv "first",
      .write (some "Bearer token") "workspace" "secret" (plainWrite valueBase64 hvalue)⟩,
    ⟨plainRequestEnv "second", unpermittedResolve⟩]

theorem encryptsAlike_transparent (master : MasterKey) : EncryptsAlike transparentSuite master :=
  fun _ _ _ _ _ _ => trivial

theorem values_leave_by_resolve_values :
    List.Forall₂ SameEntry
      (trace (answer openProvider) Tables.empty (writeThenResolve "AQ==" (by decide)))
      (trace (answer openProvider) Tables.empty (writeThenResolve "Ag==" (by decide))) := by
  apply values_leave_by_resolve openProvider transparentSuite_decryptsOwn
    (encryptsAlike_transparent _)
  have hvalue : decodeSecretValue "AQ==" = .ok [1] := rfl
  have hvalue' : decodeSecretValue "Ag==" = .ok [2] := rfl
  refine .cons ⟨rfl, .write ⟨rfl, rfl, rfl, rfl, .inr ⟨_, _, hvalue, hvalue'⟩⟩⟩ ?_
  exact .cons ⟨rfl, .same _⟩ .nil

end SecretsCustody
