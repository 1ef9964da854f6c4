/-
What a request did once it is done: one store call of its route, which it answers, or nothing to
the secrets.  Only an append that failed after the store call comes between the two.
-/
import SecretsCustody.Guarded

namespace SecretsCustody

open Effect Interleaving

/-- The four tables of the store are as they were. -/
structure Undisturbed (before after : Tables) : Prop where
  versions : after.versions = before.versions
  selections : after.selections = before.selections
  generations : after.generations = before.generations
  revocations : after.revocations = before.revocations

theorem Undisturbed.refl (tables : Tables) : Undisturbed tables tables :=
  ⟨rfl, rfl, rfl, rfl⟩

theorem RecordAdded.undisturbed {record : AuditRecord} {before after : Tables}
    (hadded : RecordAdded record before after) : Undisturbed before after := by
  obtain ⟨rfl, _⟩ := hadded
  exact ⟨rfl, rfl, rfl, rfl⟩

/-- None of the steps disturbs the store. -/
def Quiet (steps : List (Tables × Tables)) : Prop :=
  ∀ step ∈ steps, Undisturbed step.1 step.2

theorem quiet_nil : Quiet [] := by
  rintro step ⟨⟩

theorem Quiet.snoc {steps : List (Tables × Tables)} (hquiet : Quiet steps) {before after : Tables}
    (hstep : Undisturbed before after) : Quiet (steps ++ [(before, after)]) := by
  intro step hmem
  rcases List.mem_append.mp hmem with hold | hlast
  · exact hquiet step hold
  · rw [List.mem_singleton.mp hlast]
    exact hstep

/-- The answer a route makes of a reply of the store. -/
inductive Renders (suite : CryptoSuite) : Request → Reply → Body → Prop
  | stored {authorization : Option String} {workspaceId secretId : String}
      {body : SecretWriteRequest} {metadata : SecretMetadata} :
      Renders suite (.write authorization workspaceId secretId body) (.metadata metadata)
        (.stored (metadataResponse metadata))
  | generated {authorization : Option String} {workspaceId secretId : String}
      {body : DelegationKeyGenerateRequest} {key : GeneratedDelegationKey} {answer : Body}
      (hanswer : Api.generatedBody suite key = .ok answer) :
      Renders suite (.generate authorization workspaceId secretId body) (.generated key) answer
  | rotated {authorization : Option String} {workspaceId secretId : String}
      {body : SecretRotateRequest} {metadata : SecretMetadata} :
      Renders suite (.rotate authorization workspaceId secretId body) (.metadata metadata)
        (.rotated (metadataResponse metadata))
  | resolved {authorization : Option String} {workspaceId secretId : String}
      {body : EncodedResolveRequest} {secret : ResolvedSecret} :
      Renders suite (.resolve authorization workspaceId secretId body) (.resolved secret)
        (.resolved (metadataResponse secret.metadata)
          (String.ofList (Base64.encode secret.value)))
  | revoked {authorization : Option String} {workspaceId secretId versionId : String}
      {body : SecretVersionRevokeRequest} {metadata : SecretMetadata} :
      Renders suite (.revokeVersion authorization workspaceId secretId versionId body)
        (.metadata metadata) (.revoked (metadataResponse metadata))
  | allRevoked {authorization : Option String} {workspaceId secretId : String}
      {body : Option SecretRevokeRequest} {revoked : List SecretMetadata} :
      Renders suite (.revoke authorization workspaceId secretId body) (.revoked revoked)
        (.allRevoked (revoked.map metadataResponse))
  | metadata {authorization : Option String} {workspaceId secretId : String}
      {versionId : Option String} {metadata : SecretMetadata} :
      Renders suite (.readMetadata authorization workspaceId secretId versionId)
        (.metadata metadata) (.metadata (metadataResponse metadata))

/-- An answer reports the versions the store replied with. -/
theorem Renders.versions {suite : CryptoSuite} {request : Request} {reply : Reply} {body : Body}
    (hrenders : Renders suite request reply body) :
    body.versions = reply.versions.map metadataResponse := by
  cases hrenders with
  | generated hanswer =>
      unfold Api.generatedBody at hanswer
      split at hanswer
      · cases hanswer
      · cases hanswer
        rfl
  | stored => rfl
  | rotated => rfl
  | resolved => rfl
  | revoked => rfl
  | allRevoked => rfl
  | metadata => rfl

section

variable {suite : CryptoSuite} (provider : Provider) (env : RequestEnv suite) (request : Request)

/-- One step is a store call of the request, which returned the reply; the others leave the store
alone. -/
inductive Performed : List (Tables × Tables) → Reply → Prop
  | intro {call : Call suite} {earlier later : List (Tables × Tables)} {before after : Tables}
      {reply : Reply} {log : List Encryption} (hearlier : Quiet earlier) (hlater : Quiet later)
      (hcalls : Calls provider env request call) (hreached : Reached suite provider before)
      (hperforms : Performs call.env call.master before call.operation reply after log) :
      Performed (earlier ++ (before, after) :: later) reply

/-- A request raised, and left the store alone unless an append after its store call failed. -/
def Spoils (fault : Fault) (steps : List (Tables × Tables)) : Prop :=
  Quiet steps ∨ fault = .http 503 "unavailable" "audit-unavailable" ∧
    ∃ reply, Performed provider env request steps reply

end

section

variable {suite : CryptoSuite} {provider : Provider} {env : RequestEnv suite} {request : Request}
variable {steps : List (Tables × Tables)} {reply : Reply} {α : Type} {handler : Handler α}
variable {returns : α → List (Tables × Tables) → Prop}

theorem Performed.snoc (hperformed : Performed provider env request steps reply)
    {before after : Tables} (hstep : Undisturbed before after) :
    Performed provider env request (steps ++ [(before, after)]) reply := by
  obtain ⟨hearlier, hlater, hcalls, hreached, hperforms⟩ := hperformed
  rw [List.append_assoc, List.cons_append]
  exact .intro hearlier (hlater.snoc hstep) hcalls hreached hperforms

/-- The handler, once its task has taken the steps, ends in an answer of which `returns` holds, or
raises as above. -/
abbrev Serves (provider : Provider) (env : RequestEnv suite) (request : Request)
    (handler : Handler α) (steps : List (Tables × Tables))
    (returns : α → List (Tables × Tables) → Prop) : Prop :=
  Settles id (Reached suite provider) handler steps returns (Spoils provider env request)

theorem serves_check {check : Except Fault α} (hquiet : Quiet steps)
    (hreturns : ∀ value, check = .ok value → returns value steps) :
    Serves provider env request (ofExcept check) steps returns :=
  settles_check hreturns fun _ _ => .inl hquiet

theorem serves_appendAudit_quiet {fields : AuditFields} {outcome code : String}
    (hquiet : Quiet steps) :
    Serves provider env request (appendAudit suite provider env fields outcome code) steps
      fun _ steps' => Quiet steps' := by
  apply settles_appendAudit
  · rintro own draws before after rfl hadded
    exact hquiet.snoc hadded.undisturbed
  · rintro own tables rfl
    exact .inl (hquiet.snoc (Undisturbed.refl tables))

theorem serves_appendAudit {fields : AuditFields} {outcome code : String}
    (hperformed : Performed provider env request steps reply) :
    Serves provider env request (appendAudit suite provider env fields outcome code) steps
      fun _ steps' => Performed provider env request steps' reply := by
  apply settles_appendAudit
  · rintro own draws before after rfl hadded
    exact hperformed.snoc hadded.undisturbed
  · rintro own tables rfl
    exact .inr ⟨rfl, reply, hperformed.snoc (Undisturbed.refl tables)⟩

/-- An error that is audited before it leaves the handler. -/
theorem serves_refuse {fields : AuditFields} {outcome code : String} {fault : Fault}
    (hquiet : Quiet steps) :
    Serves provider env request (do
      appendAudit suite provider env fields outcome code
      throw fault : Handler α) steps returns := by
  apply Settles.bind
  apply (serves_appendAudit_quiet hquiet).mono _ fun _ _ hspoils => hspoils
  intro _ steps' hquiet'
  exact settles_throw (.inl hquiet')

theorem serves_audited {fields : AuditFields} {outcome code : String} {check : Except Fault α}
    (hquiet : Quiet steps) (hreturns : ∀ value, check = .ok value → returns value steps) :
    Serves provider env request (audited suite provider env fields outcome code check) steps
      returns := by
  apply settles_auditing hreturns
  · intro status outcome' code' _
    apply (serves_appendAudit_quiet hquiet).mono _ fun _ _ hspoils => hspoils
    exact fun _ _ hquiet' => .inl hquiet'
  · exact fun _ _ => .inl hquiet

/-- What the clauses catch was raised before the store was touched. -/
theorem serves_catching {fields : AuditFields} {clauses : List Clause}
    (hserves : Serves provider env request handler steps returns) :
    Serves provider env request (catching suite provider env fields clauses handler) steps
      returns := by
  apply settles_tryCatch
  apply hserves.mono fun _ _ hreturns => hreturns
  intro fault steps' hspoils
  cases fault with
  | http status outcome code => exact settles_throw hspoils
  | raised raised =>
      have hquiet : Quiet steps' := by
        rcases hspoils with hquiet | ⟨⟨⟩, _⟩
        exact hquiet
      dsimp only
      split
      · exact settles_throw (.inl hquiet)
      · unfold Clause.raise
        split
        · exact serves_refuse hquiet
        · exact settles_throw (.inl hquiet)

theorem serves_call {call : Call suite} (hcalls : Calls provider env request call)
    {program : Tx Tables α} {change : α → Reply} (hprogram : call.program = change <$> program)
    (hquiet : Quiet steps) :
    Serves provider env request (transact program) steps
      fun value steps' => Performed provider env request steps' (change value) := by
  apply settles_call call hprogram
  · rintro own tables value after log rfl hreached hperforms
    exact .intro hquiet quiet_nil hcalls hreached hperforms
  · rintro own tables raised rfl _ _
    exact .inl (hquiet.snoc (Undisturbed.refl tables))

/-! ### The routes -/

theorem serves_admitValue {action workspaceId : String} {body : SecretWriteRequest}
    {client : ProviderCredential} {fields : AuditFields} (hquiet : Quiet steps)
    {returns : TextDict → List (Tables × Tables) → Prop}
    (hreturns : ∀ labels, body.intent ∈ allowedSecretUseIntents →
      labels.lookup "intent" = some body.intent → returns labels steps) :
    Serves provider env request
      (Api.admitValue suite provider env action workspaceId body client fields) steps returns := by
  apply Settles.bind
  apply serves_audited hquiet
  intro _ hvalid
  apply Settles.bind
  apply serves_audited hquiet
  intro _ _
  apply serves_audited hquiet
  intro labels hlabels
  exact hreturns labels (validateIntent_eq_ok hvalid) (canonicalIntentLabels_lookup hlabels)

/-- The store call of a handler that appends one record after it. -/
theorem serves_recorded {call : Call suite} (hcalls : Calls provider env request call)
    {program : Tx Tables α} {change : α → Reply} (hprogram : call.program = change <$> program)
    (hquiet : Quiet steps) {fields : α → AuditFields} {outcome code : String} {answer : α → Body}
    (hrenders : ∀ value, Renders suite request (change value) (answer value)) :
    Serves provider env request (do
      let value ← transact program
      appendAudit suite provider env (fields value) outcome code
      return answer value) steps fun body steps' =>
        ∃ reply, Performed provider env request steps' reply ∧ Renders suite request reply body := by
  apply Settles.bind
  apply (serves_call hcalls hprogram hquiet).mono _ fun _ _ hspoils => hspoils
  intro value steps' hperformed
  apply Settles.bind
  apply (serves_appendAudit hperformed).mono _ fun _ _ hspoils => hspoils
  intro _ steps'' hperformed'
  exact settles_pure ⟨_, hperformed', hrenders value⟩

theorem serves_writeSecret (authorization : Option String) (workspaceId secretId : String)
    (body : SecretWriteRequest) (client : ProviderCredential) :
    Serves provider env (.write authorization workspaceId secretId body)
      (Api.writeSecret suite provider env workspaceId secretId body client) []
      fun answer steps' => ∃ reply,
        Performed provider env (.write authorization workspaceId secretId body) steps' reply ∧
          Renders suite (.write authorization workspaceId secretId body) reply answer := by
  apply Settles.bind
  apply serves_admitValue quiet_nil
  intro labels hintent hlabel
  apply Settles.bind
  apply serves_check quiet_nil
  intro value hvalue
  apply serves_catching
  exact serves_recorded (.write hintent hlabel hvalue) rfl quiet_nil fun _ => .stored

theorem serves_rotateSecret (authorization : Option String) (workspaceId secretId : String)
    (body : SecretRotateRequest) (client : ProviderCredential) :
    Serves provider env (.rotate authorization workspaceId secretId body)
      (Api.rotateSecret suite provider env workspaceId secretId body client) []
      fun answer steps' => ∃ reply,
        Performed provider env (.rotate authorization workspaceId secretId body) steps' reply ∧
          Renders suite (.rotate authorization workspaceId secretId body) reply answer := by
  apply Settles.bind
  apply serves_admitValue quiet_nil
  intro labels hintent hlabel
  apply Settles.bind
  apply serves_check quiet_nil
  intro value hvalue
  apply serves_catching
  exact serves_recorded (.rotate hintent hlabel hvalue) rfl quiet_nil fun _ => .rotated

theorem serves_generateDelegationKey (authorization : Option String)
    (workspaceId secretId : String) (body : DelegationKeyGenerateRequest)
    (client : ProviderCredential) :
    Serves provider env (.generate authorization workspaceId secretId body)
      (Api.generateDelegationKey suite provider env workspaceId secretId body client) []
      fun answer steps' => ∃ reply,
        Performed provider env (.generate authorization workspaceId secretId body) steps' reply ∧
          Renders suite (.generate authorization workspaceId secretId body) reply answer := by
  unfold Api.generateDelegationKey
  split
  · exact serves_refuse quiet_nil
  · next intent hintent =>
      apply Settles.bind
      apply serves_check quiet_nil
      intro valid _
      split
      · exact serves_refuse quiet_nil
      · apply Settles.bind
        apply serves_audited quiet_nil
        intro _ _
        apply serves_catching
        apply Settles.bind
        have hadmitted := delegationSigningIntentFor_eq_ok hintent
        apply (serves_call (.generate hadmitted) rfl quiet_nil).mono _ fun _ _ hspoils => hspoils
        intro key steps' hperformed
        -- The public half of a generation that was returned is ASCII, so its identity is made.
        have hbody : ∃ answer, Api.generatedBody suite key = .ok answer := by
          obtain ⟨_, _, hcalls, _, hperforms⟩ := hperformed
          cases hcalls with
          | generate =>
              obtain ⟨data, hdata⟩ := hperforms.publicPem_ascii
              unfold Api.generatedBody
              rw [hdata]
              exact ⟨_, rfl⟩
        obtain ⟨answer, hanswer⟩ := hbody
        rw [hanswer]
        exact settles_pure ⟨_, hperformed, .generated hanswer⟩

theorem serves_resolveSecret (authorization : Option String) (workspaceId secretId : String)
    (body : EncodedResolveRequest) :
    Serves provider env (.resolve authorization workspaceId secretId body)
      (Api.resolveSecret suite provider env workspaceId secretId body authorization) []
      fun answer steps' => ∃ reply,
        Performed provider env (.resolve authorization workspaceId secretId body) steps' reply ∧
          Renders suite (.resolve authorization workspaceId secretId body) reply answer := by
  apply Settles.bind
  apply serves_audited quiet_nil
  intro client _
  apply Settles.bind
  apply serves_audited quiet_nil
  intro _ hvalid
  apply Settles.bind
  apply serves_audited quiet_nil
  intro _ _
  apply serves_catching
  exact serves_recorded (.resolve (validateIntent_eq_ok hvalid)) rfl quiet_nil fun _ => .resolved

theorem serves_revokeSecretVersion (authorization : Option String)
    (workspaceId secretId versionId : String) (body : SecretVersionRevokeRequest)
    (client : ProviderCredential) :
    Serves provider env (.revokeVersion authorization workspaceId secretId versionId body)
      (Api.revokeSecretVersion suite provider env workspaceId secretId versionId body client) []
      fun answer steps' => ∃ reply,
        Performed provider env (.revokeVersion authorization workspaceId secretId versionId body)
          steps' reply ∧
        Renders suite (.revokeVersion authorization workspaceId secretId versionId body) reply
          answer := by
  apply Settles.bind
  apply serves_check quiet_nil
  intro _ _
  apply serves_catching
  apply Settles.bind
  apply (serves_call .revokeVersion rfl quiet_nil).mono _ fun _ _ hspoils => hspoils
  intro revoked steps' hperformed
  exact settles_pure ⟨_, hperformed, .revoked⟩

theorem durableMetadataIntent_error {metadata : SecretMetadata} {fault : Fault}
    (hfault : durableMetadataIntent metadata = .error fault) : ∃ raised, fault = .raised raised := by
  unfold durableMetadataIntent at hfault
  split at hfault
  · cases hfault
  · cases hfault
    exact ⟨_, rfl⟩
  · cases hfault
    exact ⟨_, rfl⟩
  · split at hfault <;> cases hfault

theorem serves_auditRevoked {fields : AuditFields} {revoked : List SecretMetadata}
    (hintents : ∀ metadata ∈ revoked, ∀ raised,
      durableMetadataIntent metadata ≠ .error (.raised raised))
    (hperformed : Performed provider env request steps reply) :
    Serves provider env request (Api.auditRevoked suite provider env fields revoked) steps
      fun _ steps' => Performed provider env request steps' reply := by
  induction revoked generalizing steps with
  | nil => exact settles_pure hperformed
  | cons metadata rest ih =>
      apply Settles.bind
      apply settles_check
      · intro intent _
        apply Settles.bind
        apply (serves_appendAudit hperformed).mono _ fun _ _ hspoils => hspoils
        intro _ steps' hperformed'
        exact ih (fun other hother => hintents other (List.mem_cons_of_mem metadata hother))
          hperformed'
      · intro fault hfault
        obtain ⟨raised, rfl⟩ := durableMetadataIntent_error hfault
        exact absurd hfault (hintents metadata List.mem_cons_self raised)

theorem serves_revokeSecret (authorization : Option String) (workspaceId secretId : String)
    (body : Option SecretRevokeRequest) (client : ProviderCredential) :
    Serves provider env (.revoke authorization workspaceId secretId body)
      (Api.revokeSecret suite provider env workspaceId secretId body client) []
      fun answer steps' => ∃ reply,
        Performed provider env (.revoke authorization workspaceId secretId body) steps' reply ∧
          Renders suite (.revoke authorization workspaceId secretId body) reply answer := by
  apply Settles.bind
  apply serves_check quiet_nil
  intro _ _
  apply serves_catching
  apply Settles.bind
  apply (serves_call .revoke rfl quiet_nil).mono _ fun _ _ hspoils => hspoils
  intro revoked steps' hperformed
  have hintents : ∀ metadata ∈ revoked, ∀ raised,
      durableMetadataIntent metadata ≠ .error (.raised raised) := by
    obtain ⟨_, _, hcalls, hreached, hperforms⟩ := hperformed
    cases hcalls with
    | revoke => exact hreached.revoked_intents hperforms
  apply Settles.bind
  apply (serves_auditRevoked hintents hperformed).mono _ fun _ _ hspoils => hspoils
  intro _ steps'' hperformed'
  exact settles_pure ⟨_, hperformed', .allRevoked⟩

theorem serves_readMetadata (authorization : Option String) (workspaceId secretId : String)
    (versionId : Option String) (client : ProviderCredential) :
    Serves provider env (.readMetadata authorization workspaceId secretId versionId)
      (Api.readMetadata suite provider env workspaceId secretId versionId client) []
      fun answer steps' => ∃ reply,
        Performed provider env (.readMetadata authorization workspaceId secretId versionId) steps'
          reply ∧
        Renders suite (.readMetadata authorization workspaceId secretId versionId) reply
          answer := by
  apply Settles.bind
  apply serves_check quiet_nil
  intro _ _
  apply serves_catching
  exact serves_recorded .readMetadata rfl quiet_nil fun _ => .metadata

/-- Every request that is done answers a store call of its route, or left the store alone, or was
answered 503 because an append after its store call failed. -/
theorem serves_handler (request : Request) :
    Serves provider env request (request.handler provider env) [] fun body steps =>
      ∃ reply, Performed provider env request steps reply ∧ Renders suite request reply body := by
  cases request with
  | write authorization workspaceId secretId body =>
      apply Settles.bind
      apply serves_check quiet_nil
      intro client _
      exact serves_writeSecret authorization workspaceId secretId body client
  | generate authorization workspaceId secretId body =>
      apply Settles.bind
      apply serves_check quiet_nil
      intro client _
      exact serves_generateDelegationKey authorization workspaceId secretId body client
  | rotate authorization workspaceId secretId body =>
      apply Settles.bind
      apply serves_check quiet_nil
      intro client _
      exact serves_rotateSecret authorization workspaceId secretId body client
  | resolve authorization workspaceId secretId body =>
      exact serves_resolveSecret authorization workspaceId secretId body
  | resolveUnencodable authorization workspaceId secretId body hunencodable =>
      have hidle : KeptIdle id Quiet := fun _ tables hquiet => hquiet.snoc (Undisturbed.refl tables)
      apply (settles_resolveUnencodable hidle quiet_nil workspaceId body).mono
      · exact fun _ _ hfalse => hfalse.elim
      · exact fun _ _ hends => .inl hends.2
  | revokeVersion authorization workspaceId secretId versionId body =>
      apply Settles.bind
      apply serves_check quiet_nil
      intro client _
      exact serves_revokeSecretVersion authorization workspaceId secretId versionId body client
  | revoke authorization workspaceId secretId body =>
      apply Settles.bind
      apply serves_check quiet_nil
      intro client _
      exact serves_revokeSecret authorization workspaceId secretId body client
  | readMetadata authorization workspaceId secretId versionId =>
      apply Settles.bind
      apply serves_check quiet_nil
      intro client _
      exact serves_readMetadata authorization workspaceId secretId versionId client

end

end SecretsCustody
