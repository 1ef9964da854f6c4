/-
Requests that are denied: whatever the database holds, they end the same way
and add nothing to it but audit records.
-/
import SecretsCustody.Coupling
import SecretsCustody.Executions

namespace SecretsCustody

open Effect Interleaving JsonText

/-! ### What a route checks -/

def Request.authorization : Request → Option String
  | .write authorization _ _ _ => authorization
  | .generate authorization _ _ _ => authorization
  | .rotate authorization _ _ _ => authorization
  | .resolve authorization _ _ _ => authorization
  | .resolveUnencodable authorization _ _ _ _ => authorization
  | .revokeVersion authorization _ _ _ _ => authorization
  | .revoke authorization _ _ _ => authorization
  | .readMetadata authorization _ _ _ => authorization

def Request.workspaceId : Request → String
  | .write _ workspaceId _ _ => workspaceId
  | .generate _ workspaceId _ _ => workspaceId
  | .rotate _ workspaceId _ _ => workspaceId
  | .resolve _ workspaceId _ _ => workspaceId
  | .resolveUnencodable _ workspaceId _ _ _ => workspaceId
  | .revokeVersion _ workspaceId _ _ _ => workspaceId
  | .revoke _ workspaceId _ _ => workspaceId
  | .readMetadata _ workspaceId _ _ => workspaceId

/-- The action a grant must have. -/
def Request.action : Request → String
  | .write _ _ _ _ => "secret.write"
  | .generate _ _ _ _ => "secret.generate-delegation-key"
  | .rotate _ _ _ _ => "secret.rotate"
  | .resolve _ _ _ _ => "secret.resolve"
  | .resolveUnencodable _ _ _ _ _ => "secret.resolve"
  | .revokeVersion _ _ _ _ _ => "secret.revoke"
  | .revoke _ _ _ _ => "secret.revoke"
  | .readMetadata _ _ _ _ => "secret.metadata"

/-- An intent as a grant is looked for, unless it cannot be encoded. -/
def encodedIntent (intent : PyStr) : Except Raised (Option String) :=
  match scalarText intent with
  | none => .error .unicodeEncodeError
  | some intent => .ok (some intent)

/-- The intent a grant must cover, if the route checks one; a purpose that maps to no intent
has none to check, and no grant is looked for when an intent cannot be encoded. -/
def Request.checkedIntent : Request → Except Raised (Option String)
  | .write _ _ _ body => .ok (some body.intent)
  | .generate _ _ _ body => (delegationSigningIntentFor body.purpose).map some
  | .rotate _ _ _ body => .ok (some body.intent)
  | .resolve _ _ _ body => .ok (some body.intent)
  | .resolveUnencodable _ _ _ body _ => encodedIntent body.intent
  | .revokeVersion _ _ _ _ _ => .ok none
  | .revoke _ _ _ _ => .ok none
  | .readMetadata _ _ _ _ => .ok none

/-- The bearer token selects no credential, or one without a grant for the request. -/
def Denied (provider : Provider) (request : Request) : Prop :=
  ∀ client, authenticate provider.credentials request.authorization = .ok client →
    ∀ intent, request.checkedIntent = .ok intent →
      ¬ Granted client request.action request.workspaceId intent

/-! ### Two databases, side by side -/

/-- The same audit records were added to both databases, and nothing else. -/
def AuditsAdded (start start' tables tables' : Tables) : Prop :=
  ∃ records,
    tables = { start with auditRecords := start.auditRecords ++ records } ∧
      tables' = { start' with auditRecords := start'.auditRecords ++ records }

section

variable {suite : CryptoSuite} {provider : Provider} {env : RequestEnv suite}
variable {start start' : Tables}

/-- The event identifiers of the request are taken in both databases or in neither. -/
def SameEvents (env : RequestEnv suite) (start start' : Tables) : Prop :=
  ∀ position, (env.audit position).eventId ∈ start.auditRecords.map AuditRecord.eventId ↔
    (env.audit position).eventId ∈ start'.auditRecords.map AuditRecord.eventId

theorem auditsAlike_added (hevents : SameEvents env start start') :
    AuditsAlike env (AuditsAdded start start') := by
  rintro position record hevent _ _ ⟨records, rfl, rfl⟩
  have htaken : record.eventId ∈ (start.auditRecords ++ records).map AuditRecord.eventId ↔
      record.eventId ∈ (start'.auditRecords ++ records).map AuditRecord.eventId := by
    rw [List.map_append, List.map_append, List.mem_append, List.mem_append, hevent,
      hevents position]
  unfold Tables.insertAudit
  by_cases hmem : record.eventId ∈ (start.auditRecords ++ records).map AuditRecord.eventId
  · rw [if_pos hmem, if_pos (htaken.mp hmem)]
    rfl
  · rw [if_neg hmem, if_neg fun hmem' => hmem (htaken.mpr hmem')]
    refine ⟨records ++ [record], ?_, ?_⟩
    · rw [List.append_assoc]
    · rw [List.append_assoc]

theorem authenticate_of_credential {authorization : Option String} {client : ProviderCredential}
    (hclient : credential provider authorization = .ok client) :
    authenticate provider.credentials authorization = .ok client := by
  unfold credential at hclient
  split at hclient
  · next found hfound =>
      cases hclient
      exact hfound
  · cases hclient
  · cases hclient

theorem granted_of_requireScope {client : ProviderCredential} {action workspaceId : String}
    {intent : Option String} (hscope : requireScope client action workspaceId intent = .ok ()) :
    Granted client action workspaceId intent := by
  unfold requireScope at hscope
  split at hscope
  · next done hrequire => exact requireGrant_eq_ok.mp hrequire
  · cases hscope
  · cases hscope

/-- A program after a scope check that fails. -/
theorem agree_denied {α : Type} {handler : Handler Unit} {next : Unit → Handler α}
    {check : Except Fault Unit} {states : Tables → Tables → Prop}
    (hcheck : Agree states (fun value value' => value' = value ∧ check = .ok value) handler
      handler) (hdenied : check ≠ .ok ()) :
    Agree states (fun _ _ => False) (handler >>= next) (handler >>= next) :=
  hcheck.bind fun _ _ hok => absurd hok.2 hdenied

/-- The dependency of six routes selects the same client for both runs. -/
theorem agree_credential {states : Tables → Tables → Prop} {authorization : Option String}
    {next : ProviderCredential → Handler Body}
    (hnext : ∀ client, authenticate provider.credentials authorization = .ok client →
      Agree states (fun _ _ => False) (next client) (next client)) :
    Agree states (fun _ _ => False)
      (ofExcept (credential provider authorization) >>= next)
      (ofExcept (credential provider authorization) >>= next) := by
  apply agree_check.bind
  rintro client _ ⟨rfl, hclient⟩
  exact hnext _ (authenticate_of_credential hclient)

theorem admitValue_denied (hevents : SameEvents env start start') {action workspaceId : String}
    {request : SecretWriteRequest} {client : ProviderCredential} {fields : AuditFields}
    (hdenied : ¬ Granted client action workspaceId (some request.intent)) :
    Agree (AuditsAdded start start') (fun _ _ => False)
      (Api.admitValue suite provider env action workspaceId request client fields)
      (Api.admitValue suite provider env action workspaceId request client fields) := by
  apply (agree_audited (auditsAlike_added hevents) _ _ _ _).bind
  intro _ _ _
  apply agree_denied (agree_audited (auditsAlike_added hevents) _ _ _ _)
  intro hscope
  exact hdenied (granted_of_requireScope hscope)

theorem generate_denied (hevents : SameEvents env start start') {workspaceId secretId : String}
    {request : DelegationKeyGenerateRequest} {client : ProviderCredential}
    (hdenied : ∀ intent, delegationSigningIntentFor request.purpose = .ok intent →
      ¬ Granted client "secret.generate-delegation-key" workspaceId (some intent)) :
    Agree (AuditsAdded start start') (fun _ _ => False)
      (Api.generateDelegationKey suite provider env workspaceId secretId request client)
      (Api.generateDelegationKey suite provider env workspaceId secretId request client) := by
  have hrefuse : ∀ fields, Agree (AuditsAdded start start') (fun _ _ => False)
      (do
        appendAudit suite provider env fields "malformed" "invalid-delegation-key-generation"
        throw (.http 400 "malformed" "invalid-delegation-key-generation") : Handler Body)
      (do
        appendAudit suite provider env fields "malformed" "invalid-delegation-key-generation"
        throw (.http 400 "malformed" "invalid-delegation-key-generation") : Handler Body) := by
    intro fields
    apply (agree_appendAudit (auditsAlike_added hevents) _ _ _).bind
    intro _ _ _
    exact agree_throw _
  unfold Api.generateDelegationKey
  cases hintent : delegationSigningIntentFor request.purpose with
  | error raised => exact hrefuse _
  | ok intent =>
      apply agree_check.bind
      rintro valid _ ⟨rfl, _⟩
      split
      · exact hrefuse _
      · apply agree_denied (agree_audited (auditsAlike_added hevents) _ _ _ _)
        intro hscope
        exact hdenied intent hintent (granted_of_requireScope hscope)

theorem resolve_denied (hevents : SameEvents env start start') {workspaceId secretId : String}
    {request : EncodedResolveRequest} {authorization : Option String}
    (hdenied : ∀ client, authenticate provider.credentials authorization = .ok client →
      ¬ Granted client "secret.resolve" workspaceId (some request.intent)) :
    Agree (AuditsAdded start start') (fun _ _ => False)
      (Api.resolveSecret suite provider env workspaceId secretId request authorization)
      (Api.resolveSecret suite provider env workspaceId secretId request authorization) := by
  apply (agree_audited (auditsAlike_added hevents) _ _ _ _).bind
  rintro client _ ⟨rfl, hclient⟩
  apply (agree_audited (auditsAlike_added hevents) _ _ _ _).bind
  intro _ _ _
  apply agree_denied (agree_audited (auditsAlike_added hevents) _ _ _ _)
  intro hscope
  exact hdenied _ (authenticate_of_credential hclient) (granted_of_requireScope hscope)

theorem encodedIntent_of_validateText {text : PyStr} {intent : String}
    (hvalid : Api.validateText text = .ok intent) : encodedIntent text = .ok (some intent) := by
  unfold Api.validateText at hvalid
  unfold encodedIntent
  cases hfound : scalarText text with
  | none =>
      rw [hfound] at hvalid
      cases hvalid
  | some found =>
      rw [hfound] at hvalid
      obtain ⟨_, _, rfl⟩ := map_eq_ok.mp hvalid
      rfl

theorem unencodable_denied {workspaceId : String} {request : SecretResolveRequest}
    {authorization : Option String}
    (hdenied : ∀ client, authenticate provider.credentials authorization = .ok client →
      ∀ intent, encodedIntent request.intent = .ok intent →
        ¬ Granted client "secret.resolve" workspaceId intent) :
    Agree (AuditsAdded start start') (fun _ _ => False)
      (Api.resolveUnencodable suite provider env workspaceId request authorization)
      (Api.resolveUnencodable suite provider env workspaceId request authorization) := by
  apply (agree_auditing agree_appendingUnencodable _).bind
  rintro client _ ⟨rfl, hclient⟩
  apply (agree_auditing agree_appendingUnencodable _).bind
  rintro intent _ ⟨rfl, hvalid⟩
  apply agree_denied (agree_auditing agree_appendingUnencodable _)
  intro hscope
  exact hdenied _ (authenticate_of_credential hclient) _ (encodedIntent_of_validateText hvalid)
    (granted_of_requireScope hscope)

/-- Every handler refuses a denied request the same way on both databases. -/
theorem handler_denied (hevents : SameEvents env start start') {request : Request}
    (hdenied : Denied provider request) :
    Agree (AuditsAdded start start') (fun _ _ => False)
      (request.handler provider env) (request.handler provider env) := by
  cases request with
  | write authorization workspaceId secretId body =>
      apply agree_credential
      intro client hclient
      exact (admitValue_denied hevents (hdenied client hclient _ rfl)).bind
        fun _ _ hfalse => hfalse.elim
  | rotate authorization workspaceId secretId body =>
      apply agree_credential
      intro client hclient
      exact (admitValue_denied hevents (hdenied client hclient _ rfl)).bind
        fun _ _ hfalse => hfalse.elim
  | generate authorization workspaceId secretId body =>
      apply agree_credential
      intro client hclient
      apply generate_denied hevents
      intro intent hintent
      exact hdenied client hclient (some intent) (congrArg (Except.map some) hintent)
  | resolve authorization workspaceId secretId body =>
      apply resolve_denied hevents
      intro client hclient
      exact hdenied client hclient _ rfl
  | resolveUnencodable authorization workspaceId secretId body hunencodable =>
      exact unencodable_denied hdenied
  | revokeVersion authorization workspaceId secretId versionId body =>
      apply agree_credential
      intro client hclient
      apply agree_denied agree_check
      intro hscope
      exact hdenied client hclient none rfl (granted_of_requireScope hscope)
  | revoke authorization workspaceId secretId body =>
      apply agree_credential
      intro client hclient
      apply agree_denied agree_check
      intro hscope
      exact hdenied client hclient none rfl (granted_of_requireScope hscope)
  | readMetadata authorization workspaceId secretId versionId =>
      apply agree_credential
      intro client hclient
      apply agree_denied agree_check
      intro hscope
      exact hdenied client hclient none rfl (granted_of_requireScope hscope)

theorem Fault.response_ne_ok (fault : Fault) (body : Body) : fault.response ≠ .ok body := by
  cases fault <;> exact Response.noConfusion

/-- The request did not succeed, with one response on both databases, and it added the same
audit records to both and changed nothing else. -/
structure RefusedAlike (start start' : Tables) (ending ending' : Response × Tables) : Prop where
  refused : ∀ body, ending.1 ≠ .ok body
  same : ending'.1 = ending.1
  added : AuditsAdded start start' ending.2 ending'.2

theorem denied_learns_nothing (provider : Provider) (env : RequestEnv suite) (request : Request)
    (start start' : Tables) (hdenied : Denied provider request)
    (hevents : SameEvents env start start') :
    RefusedAlike start start' (respond provider env start request)
      (respond provider env start' request) := by
  have hadded : AuditsAdded start start' start start' :=
    ⟨[], by rw [List.append_nil], by rw [List.append_nil]⟩
  obtain ⟨hends, _, hafter⟩ := handler_denied hevents hdenied 0 start start' hadded
  unfold respond
  generalize Script.run (request.handler provider env 0) start = ending at hends hafter ⊢
  generalize Script.run (request.handler provider env 0) start' = ending' at hends hafter ⊢
  obtain ⟨⟨result, count⟩, after⟩ := ending
  obtain ⟨⟨result', count'⟩, after'⟩ := ending'
  cases result <;> cases result'
  · cases hends
    exact ⟨fun body => Fault.response_ne_ok _ body, rfl, hafter⟩
  · exact hends.elim
  · exact hends.elim
  · exact hends.elim

end

/-! ### A writer without a grant -/

def plainRequestEnv (name : String) : RequestEnv transparentSuite :=
  { store := plainEnv name, audit := fun _ => plainEnv name }

/-- A provider whose one client may only read metadata. -/
def readingProvider : Provider :=
  { providerId := "provider"
    credentials := [{ subject := "client", token := "token"
                      grants := [{ action := "secret.metadata", workspaceId := "*" }] }]
    master := ⟨[], "local"⟩
    urlsplit := fun _ => none }

theorem client_length : 1 ≤ "client".length ∧ "client".length ≤ 128 := by decide

theorem use_length : 1 ≤ "use".length ∧ "use".length ≤ maxCorrelationChars := by decide

/-- The client asks for a secret value. -/
def unpermittedResolve : Request :=
  .resolve (some "Bearer token") "workspace" "secret"
    { intent := "postgres.password"
      callerSubject := "client"
      correlationId := "use"
      versionId := none
      callerSubject_length := client_length
      correlationId_length := use_length }

/-- A database with the secret it asks for. -/
def oneSecret : Tables :=
  (perform Tables.empty
    (plainCall "first" (.createSecret "workspace" "secret" [1] ⟨[], List.nodup_nil⟩))).2

theorem unpermittedResolve_denied : Denied readingProvider unpermittedResolve := by
  rintro client hclient intent _ ⟨grant, hgrant, haction, _⟩
  obtain rfl := List.mem_singleton.mp (authenticate_mem hclient)
  obtain rfl := List.mem_singleton.mp hgrant
  exact absurd haction (by decide)

theorem sameEvents_oneSecret : SameEvents (plainRequestEnv "denied") Tables.empty oneSecret := by
  have haudits : oneSecret.auditRecords.map AuditRecord.eventId = [] := by decide +kernel
  intro position
  rw [haudits]
  rfl

theorem denied_learns_nothing_resolve :
    RefusedAlike Tables.empty oneSecret
      (respond readingProvider (plainRequestEnv "denied") Tables.empty unpermittedResolve)
      (respond readingProvider (plainRequestEnv "denied") oneSecret unpermittedResolve) :=
  denied_learns_nothing readingProvider (plainRequestEnv "denied") unpermittedResolve
    Tables.empty oneSecret unpermittedResolve_denied sameEvents_oneSecret

end SecretsCustody
