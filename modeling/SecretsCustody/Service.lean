/-
What the provider is for.  A request asks one thing of a vault, once its checks let it, and is
told what came of it.  The handlers, with the transactions of all of them interleaved, serve the
requests as if the vault had been asked one after the other.
-/
import SecretsCustody.Linearization
import SecretsCustody.Served
import SecretsCustody.VaultRefinement

namespace SecretsCustody

open Effect Interleaving

/-! ### What a request asks -/

/-- A value under labels that name its intent, for a client with a grant for it. -/
def asksValue (client : ProviderCredential) (action workspaceId : String)
    (body : SecretWriteRequest) (operation : TextDict → Bytes → Operation) :
    Except Fault Operation := do
  validateIntent body.intent
  requireScope client action workspaceId (some body.intent)
  let labels ← canonicalIntentLabels body.labels body.intent
  let value ← decodeSecretValue body.valueBase64
  return operation labels value

/-- A key of an admitted family, for a client with a grant for its intent. -/
def asksKey (provider : Provider) (client : ProviderCredential) (workspaceId secretId : String)
    (body : DelegationKeyGenerateRequest) : Except Fault Operation := do
  let intent ← (delegationSigningIntentFor body.purpose).mapError fun _ =>
    .http 400 "malformed" "invalid-delegation-key-generation"
  let valid ← Api.validGeneration provider body
  if valid = false then .error (.http 400 "malformed" "invalid-delegation-key-generation")
  else do
    requireScope client "secret.generate-delegation-key" workspaceId (some intent)
    return .generateDelegationKey
      { workspaceId := workspaceId
        secretId := secretId
        secretReference := body.secretReference
        purpose := body.purpose
        intent := intent
        issuer := body.issuer
        callerSubject := body.callerSubject
        correlationId := body.correlationId
        providerId := provider.providerId }

/-- What a request asks of the vault, or why it is refused before it does. -/
def Request.asks (provider : Provider) : Request → Except Fault Operation
  | .write authorization workspaceId secretId body => do
      let client ← credential provider authorization
      asksValue client "secret.write" workspaceId body fun labels value =>
        .createSecret workspaceId secretId value labels
  | .generate authorization workspaceId secretId body => do
      let client ← credential provider authorization
      asksKey provider client workspaceId secretId body
  | .rotate authorization workspaceId secretId body => do
      let client ← credential provider authorization
      asksValue client "secret.rotate" workspaceId body fun labels value =>
        .rotateSecret workspaceId secretId value labels (some body.intent)
  | .resolve authorization workspaceId secretId body => do
      let client ← credential provider authorization
      validateIntent body.intent
      requireScope client "secret.resolve" workspaceId (some body.intent)
      return .resolveSecretForUse
        { workspaceId := workspaceId
          secretId := secretId
          intent := body.intent
          callerSubject := body.callerSubject
          correlationId := body.correlationId
          versionId := body.versionId }
  | .resolveUnencodable _ _ _ _ _ => .error (.raised .unicodeEncodeError)
  | .revokeVersion authorization workspaceId secretId versionId body => do
      let client ← credential provider authorization
      requireScope client "secret.revoke" workspaceId none
      return .revokeSecretVersion
        { workspaceId := workspaceId
          secretId := secretId
          versionId := versionId
          versionNumber := body.versionNumber
          callerSubject := body.callerSubject
          correlationId := body.correlationId
          providerId := provider.providerId }
  | .revoke authorization workspaceId secretId _ => do
      let client ← credential provider authorization
      requireScope client "secret.revoke" workspaceId none
      return .revokeSecret workspaceId secretId
  | .readMetadata authorization workspaceId secretId versionId => do
      let client ← credential provider authorization
      requireScope client "secret.metadata" workspaceId none
      return .metadata workspaceId secretId versionId

/-- The errors of the vault a route has an answer for. -/
def Request.refusals : Request → List (Raised × Nat × String × String)
  | .write .. =>
      [(.secretMetadataInvalid, 400, "malformed", "invalid-metadata"),
        (.secretAlreadyExists, 409, "already-exists", "secret-already-exists")]
  | .generate .. =>
      [(.delegationKeyGenerationConflict, 409, "conflict", "generation-correlation-conflict"),
        (.secretAlreadyExists, 409, "already-exists", "secret-already-exists"),
        (.secretRevoked, 409, "revoked", "secret-revoked"),
        (.secretTampered, 503, "unavailable", "integrity-failure"),
        (.auditUnavailable, 503, "unavailable", "audit-unavailable")]
  | .rotate .. =>
      [(.secretMissing, 404, "missing", "secret-missing"),
        (.secretMetadataInvalid, 400, "malformed", "invalid-metadata"),
        (.secretAlreadyExists, 409, "already-exists", "secret-version-conflict"),
        (.secretIntentMismatch, 409, "already-exists", "secret-intent-conflict")]
  | .resolve .. =>
      [(.secretMissing, 404, "missing", "secret-missing"),
        (.secretRevoked, 409, "revoked", "secret-revoked"),
        (.secretResolutionConflict, 409, "already-exists", "resolution-correlation-conflict"),
        (.secretIntentMismatch, 403, "denied", "secret-intent-mismatch"),
        (.secretTampered, 503, "unavailable", "integrity-failure")]
  | .resolveUnencodable .. => []
  | .revokeVersion .. =>
      [(.secretVersionRevocationConflict, 409, "conflict", "version-revocation-conflict"),
        (.secretRevoked, 409, "conflict", "secret-revoked"),
        (.secretMissing, 404, "missing", "secret-missing"),
        (.secretTampered, 503, "unavailable", "integrity-failure"),
        (.auditUnavailable, 503, "unavailable", "audit-unavailable")]
  | .revoke .. =>
      [(.secretMissing, 404, "missing", "secret-missing"),
        (.secretTampered, 503, "unavailable", "integrity-failure")]
  | .readMetadata .. => [(.secretMissing, 404, "missing", "secret-missing")]

/-- The answer to an error of the vault; one without an answer is not caught. -/
def Request.refuse (request : Request) (raised : Raised) : Fault :=
  match request.refusals.find? fun refusal => refusal.1 = raised with
  | none => .raised raised
  | some (_, status, outcome, code) => .http status outcome code

/-- What is told of what came of asking the vault. -/
inductive Told (suite : CryptoSuite) (request : Request) :
    Except Raised Reply → Except Fault Body → Prop
  | returned {reply : Reply} {body : Body} (hrenders : Renders suite request reply body) :
      Told suite request (.ok reply) (.ok body)
  | raised {raised : Raised} : Told suite request (.error raised) (.error (request.refuse raised))

section

variable {suite : CryptoSuite} (provider : Provider) (call : ApiCall suite)

/-- The call to the vault a request makes. -/
def ApiCall.asks : Except Fault (Call suite) :=
  (call.request.asks provider).map fun operation => ⟨operation, provider.master, call.env.store⟩

variable {provider call} in
theorem ApiCall.asks_error {fault : Fault} (hasks : call.request.asks provider = .error fault) :
    call.asks provider = .error fault := by
  rw [asks, hasks]
  rfl

variable {provider call} in
theorem ApiCall.asks_ok {operation : Operation}
    (hasks : call.request.asks provider = .ok operation) :
    call.asks provider = .ok ⟨operation, provider.master, call.env.store⟩ := by
  rw [asks, hasks]
  rfl

/-- The request asks the vault. -/
def ApiCall.Does (vault : Vault) (result : Except Raised Reply) (vault' : Vault) : Prop :=
  ∃ storeCall, call.asks provider = .ok storeCall ∧ result = vault.result storeCall ∧
    vault' = vault.after storeCall

/-- How a request ends, by what came of asking the vault and by its own steps. -/
inductive Concluded (ending : Except Fault Body) :
    Option (Except Raised Reply) → List (Tables × Tables) → Prop
  /-- Its checks refuse it. -/
  | refused {fault : Fault} {steps : List (Tables × Tables)}
      (hasks : call.asks provider = .error fault) (hending : ending = .error fault) :
      Concluded ending none steps
  /-- It is told what came of it. -/
  | told {result : Except Raised Reply} {steps : List (Tables × Tables)}
      (htold : Told suite call.request result ending) : Concluded ending (some result) steps
  /-- Something else than the vault kept it from its answer. -/
  | hindered {storeCall : Call suite} {vault : Vault} {tables : Tables} {raised : Raised}
      {steps : List (Tables × Tables)} (hasks : call.asks provider = .ok storeCall)
      (hstep : (tables, tables) ∈ steps) (hrepresents : Represents suite vault tables)
      (hhindered : Hindered storeCall.env storeCall.master tables (vault.Seals storeCall) raised)
      (hending : ending = .error (call.request.refuse raised)) : Concluded ending none steps
  /-- A text of it cannot be encoded. -/
  | unencodable {authorization : Option String} {fault : Fault} {steps : List (Tables × Tables)}
      (hunencodable : call.request.Unencodable)
      (hraised : UnencodableEnding provider call.env authorization fault)
      (hending : ending = .error fault) : Concluded ending none steps
  /-- An audit record of it could not be added. -/
  | unaudited {position : Nat} {tables : Tables} {result : Option (Except Raised Reply)}
      {steps : List (Tables × Tables)} (hstep : (tables, tables) ∈ steps)
      (hblocked : AuditBlocked (call.env.audit position) tables)
      (hending : ending = .error (.http 503 "unavailable" "audit-unavailable")) :
      Concluded ending result steps

end

/-! ### One transaction after the other -/

/-- The tables of a server hold the vault, every version of it sealed under its master key. -/
structure HoldsVault (suite : CryptoSuite) (provider : Provider) (tables : Tables) (vault : Vault) :
    Prop where
  reached : Reached suite provider tables
  represents : Represents suite vault tables
  sealedBy : ∀ home, ∀ version ∈ (vault.history home).items, version.sealedBy = provider.master

theorem holdsVault_empty (suite : CryptoSuite) (provider : Provider) :
    HoldsVault suite provider Tables.empty Vault.empty where
  reached := reached_empty
  represents := represents_empty suite
  sealedBy := fun _ _ hversion => by cases hversion

/-- A handler that starts once its task has taken the steps, and once `result` came of asking the
vault, if it has: it returns as `returns` says, or raises as `raises` does, and asks the vault
once at most. -/
def Serial {suite : CryptoSuite} {α : Type} (provider : Provider) (call : ApiCall suite)
    (handler : Handler α) (result : Option (Except Raised Reply)) (steps : List (Tables × Tables))
    (returns : α → Option (Except Raised Reply) → List (Tables × Tables) → Prop)
    (raises : Fault → Option (Except Raised Reply) → List (Tables × Tables) → Prop) : Prop :=
  ∀ audits, (handler audits).Linear (HoldsVault suite provider) (call.Does provider)
    (fun result ending steps => Ended (returns · result) (raises · result) ending.1 steps)
    result steps

section

variable {suite : CryptoSuite} {provider : Provider} {call : ApiCall suite} {α β : Type}
variable {handler : Handler α} {result : Option (Except Raised Reply)}
variable {steps : List (Tables × Tables)}
variable {returns : α → Option (Except Raised Reply) → List (Tables × Tables) → Prop}
variable {raises : Fault → Option (Except Raised Reply) → List (Tables × Tables) → Prop}

theorem serial_pure {value : α} (hreturns : returns value result steps) :
    Serial provider call (pure value) result steps returns raises :=
  fun _ => hreturns

theorem serial_throw {fault : Fault} (hraises : raises fault result steps) :
    Serial provider call (throw fault : Handler α) result steps returns raises :=
  fun _ => hraises

theorem Serial.mono
    {returns' : α → Option (Except Raised Reply) → List (Tables × Tables) → Prop}
    {raises' : Fault → Option (Except Raised Reply) → List (Tables × Tables) → Prop}
    (hserial : Serial provider call handler result steps returns raises)
    (hreturns : ∀ value result steps, returns value result steps → returns' value result steps)
    (hraises : ∀ fault result steps, raises fault result steps → raises' fault result steps) :
    Serial provider call handler result steps returns' raises' := by
  intro audits
  apply (hserial audits).mono
  rintro result' ⟨ending, count⟩ steps' hended
  cases ending with
  | error fault => exact hraises _ _ _ hended
  | ok value => exact hreturns _ _ _ hended

theorem Serial.bind {next : α → Handler β}
    {returns : β → Option (Except Raised Reply) → List (Tables × Tables) → Prop}
    (hserial : Serial provider call handler result steps
      (fun value result' steps' => Serial provider call (next value) result' steps' returns raises)
      raises) : Serial provider call (handler >>= next) result steps returns raises := by
  intro audits
  rw [bind_script]
  apply Script.Linear.bind
  apply (hserial audits).mono
  rintro result' ⟨ending, count⟩ steps' hended
  cases ending with
  | error fault => exact hended
  | ok value => exact hended count

theorem serial_tryCatch {handle : Fault → Handler α}
    (hserial : Serial provider call handler result steps returns fun fault result' steps' =>
      Serial provider call (handle fault) result' steps' returns raises) :
    Serial provider call (tryCatch handler handle) result steps returns raises := by
  intro audits
  rw [tryCatch_script]
  apply Script.Linear.bind
  apply (hserial audits).mono
  rintro result' ⟨ending, count⟩ steps' hended
  cases ending with
  | error fault => exact hended count
  | ok value => exact hended

theorem serial_check {check : Except Fault α}
    (hreturns : ∀ value, check = .ok value → returns value result steps)
    (hraises : ∀ fault, check = .error fault → raises fault result steps) :
    Serial provider call (ofExcept check) result steps returns raises := by
  cases check with
  | error fault => exact serial_throw (hraises fault rfl)
  | ok value => exact serial_pure (hreturns value rfl)

theorem attempt_append_blocked {tables : Tables} {env : Env suite} {record : AuditRecord}
    {raised : Raised} (hevent : record.eventId = env.eventId)
    (hraised : (attempt (append env record) tables).1 = .error raised) :
    AuditBlocked env tables := by
  have happend : Ends (append env record) tables [] _ _ := append_ends hevent
  have hends := happend 0
  unfold Exits at hends
  unfold attempt at hraised
  cases hrun : (append env record).run ⟨tables, 0, []⟩ with
  | ok value finish =>
      rw [hrun] at hraised
      cases hraised
  | error fault finish =>
      rw [hrun] at hends
      exact hends.2.2.1

theorem HoldsVault.audited {tables tables' : Tables} {vault : Vault} {record : AuditRecord}
    (hholds : HoldsVault suite provider tables vault) (hsuite : suite.DecryptsOwn)
    (hadded : RecordAdded record tables tables') : HoldsVault suite provider tables' vault where
  reached := (Moved.audited hadded).reached hsuite hholds.reached
  represents := by
    obtain ⟨rfl, _⟩ := hadded
    exact hholds.represents.audited _
  sealedBy := hholds.sealedBy

theorem serial_appendAudit (hsuite : suite.DecryptsOwn) {fields : AuditFields}
    {outcome code : String}
    {returns : Unit → Option (Except Raised Reply) → List (Tables × Tables) → Prop}
    (hreturns : ∀ step, returns () result (steps ++ [step]))
    (hraises : ∀ position tables, AuditBlocked (call.env.audit position) tables →
      raises (.http 503 "unavailable" "audit-unavailable") result (steps ++ [(tables, tables)])) :
    Serial provider call (appendAudit suite provider call.env fields outcome code) result steps
      returns raises := by
  intro audits
  have happend : Serial provider call (transact (append (call.env.audit audits)
      (auditRow provider (call.env.audit audits) fields outcome code))) result steps returns
        fun fault result' steps' => fault = .raised .auditUnavailable ∧
          raises (.http 503 "unavailable" "audit-unavailable") result' steps' := by
    intro position tables vault hholds
    have hevent : (auditRow provider (call.env.audit audits) fields outcome code).eventId =
      (call.env.audit audits).eventId := rfl
    left
    change HoldsVault suite provider _ vault ∧
      Ended _ _ (Except.mapError Fault.raised _) (steps ++ [(tables, _)])
    rcases attempt_append tables hevent with ⟨hresult, hadded⟩ | ⟨hresult, hsame⟩
    · rw [hresult]
      exact ⟨hholds.audited hsuite hadded, hreturns _⟩
    · rw [hresult, hsame]
      exact ⟨hholds, rfl, hraises audits tables (attempt_append_blocked hevent hresult)⟩
  refine serial_tryCatch (happend.mono (fun _ _ _ hends => hends) ?_) (audits + 1)
  rintro _ result' steps' ⟨rfl, hunavailable⟩
  exact serial_throw hunavailable

/-! ### Checks and clauses -/

/-- A check, when what the request asks is this check and then the rest. -/
theorem serial_checked {check : Except Fault α} {rest : α → Except Fault Operation}
    (hasks : call.request.asks provider = check >>= rest)
    (hreturns : ∀ value, check = .ok value → call.request.asks provider = rest value →
      returns value none steps) :
    Serial provider call (ofExcept check) none steps returns
      fun fault => Concluded provider call (.error fault) := by
  apply serial_check
  · rintro value rfl
    exact hreturns value rfl hasks
  · rintro fault rfl
    exact .refused (ApiCall.asks_error hasks) rfl

/-- An error that is audited before it leaves the handler. -/
theorem serial_refuse (hsuite : suite.DecryptsOwn) {fields : AuditFields} {outcome code : String}
    {fault : Fault}
    (hconcluded : ∀ step, Concluded provider call (.error fault) result (steps ++ [step])) :
    Serial provider call (do
      appendAudit suite provider call.env fields outcome code
      throw fault : Handler α) result steps returns
      fun fault => Concluded provider call (.error fault) := by
  apply Serial.bind
  apply serial_appendAudit hsuite
  · intro step
    exact serial_throw (hconcluded step)
  · intro position tables hblocked
    exact .unaudited (List.mem_append_right _ (List.mem_singleton_self _)) hblocked rfl

theorem serial_audited (hsuite : suite.DecryptsOwn) {fields : AuditFields}
    {outcome code : String} {check : Except Fault α} {rest : α → Except Fault Operation}
    (hasks : call.request.asks provider = check >>= rest)
    (hreturns : ∀ value, check = .ok value → call.request.asks provider = rest value →
      returns value none steps) :
    Serial provider call (audited suite provider call.env fields outcome code check) none steps
      returns fun fault => Concluded provider call (.error fault) := by
  apply serial_tryCatch
  apply serial_check
  · rintro value rfl
    exact hreturns value rfl hasks
  · rintro fault rfl
    have hrefused : ∀ steps', Concluded provider call (.error fault) none steps' :=
      fun _ => .refused (ApiCall.asks_error hasks) rfl
    cases fault with
    | http status outcome' code' => exact serial_refuse hsuite fun _ => hrefused _
    | raised raised => exact serial_throw (hrefused _)

/-- What leaves the store call of a handler, or the append after it. -/
inductive Raising (provider : Provider) (call : ApiCall suite) :
    Fault → Option (Except Raised Reply) → List (Tables × Tables) → Prop
  | told {raised : Raised} {steps : List (Tables × Tables)} :
      Raising provider call (.raised raised) (some (.error raised)) steps
  | hindered {storeCall : Call suite} {vault : Vault} {tables : Tables} {raised : Raised}
      {steps : List (Tables × Tables)} (hasks : call.asks provider = .ok storeCall)
      (hstep : (tables, tables) ∈ steps) (hrepresents : Represents suite vault tables)
      (hhindered : Hindered storeCall.env storeCall.master tables (vault.Seals storeCall) raised) :
      Raising provider call (.raised raised) none steps
  | unaudited {position : Nat} {tables : Tables} {result : Option (Except Raised Reply)}
      {steps : List (Tables × Tables)} (hstep : (tables, tables) ∈ steps)
      (hblocked : AuditBlocked (call.env.audit position) tables) :
      Raising provider call (.http 503 "unavailable" "audit-unavailable") result steps

theorem Raising.concluded {raised : Raised} {steps' : List (Tables × Tables)}
    (hraising : Raising provider call (.raised raised) result steps)
    (hsteps : ∀ step ∈ steps, step ∈ steps') :
    Concluded provider call (.error (call.request.refuse raised)) result steps' := by
  cases hraising with
  | told => exact .told .raised
  | hindered hasks hstep hrepresents hhindered =>
      exact .hindered hasks (hsteps _ hstep) hrepresents hhindered rfl

/-- The error a clause makes of the exception it catches. -/
def Clause.refusal (clause : Clause) : Raised × Nat × String × String :=
  (clause.caught, clause.status, clause.outcome, clause.code)

theorem refuse_of_clauses {request : Request} {clauses : List Clause}
    (hclauses : request.refusals = clauses.map Clause.refusal) (raised : Raised) :
    request.refuse raised =
      match clauses.find? fun clause => clause.caught = raised with
      | none => .raised raised
      | some clause => .http clause.status clause.outcome clause.code := by
  rw [Request.refuse, hclauses, List.find?_map]
  change (match (clauses.find? fun clause => clause.caught = raised).map Clause.refusal with
    | none => Fault.raised raised
    | some (_, status, outcome, code) => .http status outcome code) = _
  cases clauses.find? fun clause => clause.caught = raised with
  | none => rfl
  | some clause => rfl

/-- The clauses of a handler answer what the vault raises, and what hinders it. -/
theorem serial_catching (hsuite : suite.DecryptsOwn) {fields : AuditFields}
    {clauses : List Clause} (hclauses : call.request.refusals = clauses.map Clause.refusal)
    (hserial : Serial provider call handler result steps returns (Raising provider call)) :
    Serial provider call (catching suite provider call.env fields clauses handler) result steps
      returns fun fault => Concluded provider call (.error fault) := by
  apply serial_tryCatch
  apply hserial.mono fun _ _ _ hreturns => hreturns
  intro fault result' steps' hraising
  cases fault with
  | http status outcome code =>
      cases hraising with
      | unaudited hstep hblocked => exact serial_throw (.unaudited hstep hblocked rfl)
  | raised raised =>
      have hrefuse := refuse_of_clauses hclauses raised
      dsimp only
      split
      · next hnone =>
          rw [hnone] at hrefuse
          have hconcluded := hraising.concluded fun _ hstep => hstep
          rw [hrefuse] at hconcluded
          exact serial_throw hconcluded
      · next clause hfound =>
          rw [hfound] at hrefuse
          have hconcluded : ∀ {steps''}, (∀ step ∈ steps', step ∈ steps'') →
              Concluded provider call (.error (.http clause.status clause.outcome clause.code))
                result' steps'' := by
            intro steps'' hsteps
            have hended := hraising.concluded hsteps
            rwa [hrefuse] at hended
          unfold Clause.raise
          split
          · exact serial_refuse hsuite fun step =>
              hconcluded fun _ hmem => List.mem_append_left _ hmem
          · exact serial_throw (hconcluded fun _ hmem => hmem)

end

/-! ### The call to the vault -/

section

variable {suite : CryptoSuite} {provider : Provider} {call : ApiCall suite} {α : Type}
variable {steps : List (Tables × Tables)}

theorem asksValue_eq_ok {client : ProviderCredential} {action workspaceId : String}
    {body : SecretWriteRequest} {operation : TextDict → Bytes → Operation} {asked : Operation}
    (hasks : asksValue client action workspaceId body operation = .ok asked) :
    ∃ labels value, body.intent ∈ allowedSecretUseIntents ∧
      labels.lookup "intent" = some body.intent ∧
      decodeSecretValue body.valueBase64 = .ok value ∧ asked = operation labels value := by
  obtain ⟨_, hvalid, hasks⟩ := bind_eq_ok.mp hasks
  obtain ⟨_, _, hasks⟩ := bind_eq_ok.mp hasks
  obtain ⟨labels, hlabels, hasks⟩ := bind_eq_ok.mp hasks
  obtain ⟨value, hvalue, hasks⟩ := bind_eq_ok.mp hasks
  cases hasks
  exact ⟨labels, value, validateIntent_eq_ok hvalid, canonicalIntentLabels_lookup hlabels, hvalue,
    rfl⟩

/-- What a request asks, its handler calls the store for. -/
theorem calls_of_asks {storeCall : Call suite} (hasks : call.asks provider = .ok storeCall) :
    Calls provider call.env call.request storeCall := by
  obtain ⟨env, request⟩ := call
  obtain ⟨operation, hoperation, rfl⟩ := map_eq_ok.mp hasks
  cases request with
  | write authorization workspaceId secretId body =>
      obtain ⟨_, _, hvalue⟩ := bind_eq_ok.mp hoperation
      obtain ⟨labels, value, hintent, hlabel, hdecode, rfl⟩ := asksValue_eq_ok hvalue
      exact .write hintent hlabel hdecode
  | generate authorization workspaceId secretId body =>
      obtain ⟨_, _, hkey⟩ := bind_eq_ok.mp hoperation
      obtain ⟨intent, hintent, hkey⟩ := bind_eq_ok.mp hkey
      obtain ⟨valid, _, hkey⟩ := bind_eq_ok.mp hkey
      split at hkey
      · cases hkey
      · obtain ⟨_, _, hkey⟩ := bind_eq_ok.mp hkey
        cases hkey
        exact .generate (delegationSigningIntentFor_eq_ok (mapError_eq_ok.mp hintent))
  | rotate authorization workspaceId secretId body =>
      obtain ⟨_, _, hvalue⟩ := bind_eq_ok.mp hoperation
      obtain ⟨labels, value, hintent, hlabel, hdecode, rfl⟩ := asksValue_eq_ok hvalue
      exact .rotate hintent hlabel hdecode
  | resolve authorization workspaceId secretId body =>
      obtain ⟨_, _, huse⟩ := bind_eq_ok.mp hoperation
      obtain ⟨_, hvalid, huse⟩ := bind_eq_ok.mp huse
      obtain ⟨_, _, huse⟩ := bind_eq_ok.mp huse
      cases huse
      exact .resolve (validateIntent_eq_ok hvalid)
  | resolveUnencodable authorization workspaceId secretId body hunencodable => cases hoperation
  | revokeVersion authorization workspaceId secretId versionId body =>
      obtain ⟨_, _, hrevoke⟩ := bind_eq_ok.mp hoperation
      obtain ⟨_, _, hrevoke⟩ := bind_eq_ok.mp hrevoke
      cases hrevoke
      exact .revokeVersion
  | revoke authorization workspaceId secretId body =>
      obtain ⟨_, _, hrevoke⟩ := bind_eq_ok.mp hoperation
      obtain ⟨_, _, hrevoke⟩ := bind_eq_ok.mp hrevoke
      cases hrevoke
      exact .revoke
  | readMetadata authorization workspaceId secretId versionId =>
      obtain ⟨_, _, hread⟩ := bind_eq_ok.mp hoperation
      obtain ⟨_, _, hread⟩ := bind_eq_ok.mp hread
      cases hread
      exact .readMetadata

/-- A call the vault answers leaves the tables with the vault after it. -/
theorem HoldsVault.answered {tables : Tables} {vault : Vault} {storeCall : Call suite}
    (hholds : HoldsVault suite provider tables vault) (hsuite : suite.DecryptsOwn)
    (hcalls : Calls provider call.env call.request storeCall)
    (hrepresents : Represents suite (vault.after storeCall) (perform tables storeCall).2) :
    HoldsVault suite provider (perform tables storeCall).2 (vault.after storeCall) where
  reached := (Moved.performed storeCall hcalls.master hcalls.handled).reached hsuite hholds.reached
  represents := hrepresents
  sealedBy := by
    intro home version hversion
    rcases (vault.after_evolves storeCall).sealedBy hversion with hnew | ⟨old, hold, hsame⟩
    · exact hnew.trans hcalls.master
    · exact hsame.trans (hholds.sealedBy home old hold)

/-- The store call of a handler: the vault is asked, or something hinders it. -/
theorem serial_call (hsuite : suite.DecryptsOwn) (hmaterial : suite.KeyMaterial)
    {storeCall : Call suite} (hasks : call.asks provider = .ok storeCall)
    {program : Tx Tables α} {change : α → Reply} (hprogram : storeCall.program = change <$> program)
    {returns : α → Option (Except Raised Reply) → List (Tables × Tables) → Prop}
    (hreturns : ∀ value tables after log, Reached suite provider tables →
      Performs storeCall.env storeCall.master tables storeCall.operation (change value) after log →
        returns value (some (.ok (change value))) (steps ++ [(tables, after)])) :
    Serial provider call (transact program) none steps returns (Raising provider call) := by
  intro audits tables vault hholds
  have hcalls := calls_of_asks hasks
  have htells : vault.KeysTell suite storeCall.master := by
    intro home version hversion _
    rw [hholds.sealedBy home version hversion, hcalls.master]
  obtain ⟨hresult, hafter⟩ := perform_attempt tables hprogram
  rcases perform_answers hsuite hmaterial hholds.reached.gapless.consistent hholds.reached.coherent
    hholds.represents storeCall htells with
    ⟨hanswer, hrepresents⟩ | ⟨raised, hraised, hhindered, hsame⟩
  · right
    have hnext := hholds.answered hsuite hcalls hrepresents
    rw [hafter] at hnext
    refine ⟨rfl, vault.result storeCall, vault.after storeCall, ⟨storeCall, hasks, rfl, rfl⟩,
      hnext, ?_⟩
    rw [← hanswer, hresult]
    change Ended _ _ (Except.mapError Fault.raised (attempt program tables).1) _
    cases hattempt : (attempt program tables).1 with
    | error raised => exact Raising.told
    | ok value =>
        obtain ⟨log, hperforms⟩ := attempt_performs hprogram hattempt
        exact hreturns value tables _ log hholds.reached hperforms
  · left
    rw [hafter] at hsame
    rw [hresult] at hraised
    change HoldsVault suite provider (attempt program tables).2 vault ∧
      Ended _ _ (Except.mapError Fault.raised (attempt program tables).1)
        (steps ++ [(tables, (attempt program tables).2)])
    rw [hsame]
    refine ⟨hholds, ?_⟩
    cases hattempt : (attempt program tables).1 with
    | ok value =>
        rw [hattempt] at hraised
        cases hraised
    | error fault =>
        rw [hattempt] at hraised
        cases hraised
        exact Raising.hindered hasks (List.mem_append_right _ (List.mem_singleton_self _))
          hholds.represents hhindered

/-- The store call of a handler that appends one record after it. -/
theorem serial_recorded (hsuite : suite.DecryptsOwn) (hmaterial : suite.KeyMaterial)
    {storeCall : Call suite} (hasks : call.asks provider = .ok storeCall)
    {program : Tx Tables α} {change : α → Reply} (hprogram : storeCall.program = change <$> program)
    {fields : α → AuditFields} {outcome code : String} {answer : α → Body}
    (hrenders : ∀ value, Renders suite call.request (change value) (answer value)) :
    Serial provider call (do
      let value ← transact program
      appendAudit suite provider call.env (fields value) outcome code
      return answer value) none steps (fun body => Concluded provider call (.ok body))
      (Raising provider call) := by
  apply Serial.bind
  apply serial_call hsuite hmaterial hasks hprogram
  intro value tables after log _ _
  apply Serial.bind
  apply serial_appendAudit hsuite
  · intro step
    exact serial_pure (.told (.returned (hrenders value)))
  · intro position tables' hblocked
    exact .unaudited (List.mem_append_right _ (List.mem_singleton_self _)) hblocked

end

/-! ### The routes -/

section

variable {suite : CryptoSuite} {provider : Provider} {env : RequestEnv suite}

/-- The handler serves the request in turn. -/
abbrev InTurn (provider : Provider) (call : ApiCall suite) (handler : Handler Body) : Prop :=
  Serial provider call handler none [] (fun body => Concluded provider call (.ok body))
    fun fault => Concluded provider call (.error fault)

/-- A handler that admits a value before it calls the store. -/
theorem inTurn_asksValue (hsuite : suite.DecryptsOwn) {call : ApiCall suite}
    {client : ProviderCredential} {action workspaceId : String} {body : SecretWriteRequest}
    {operation : TextDict → Bytes → Operation} {fields : AuditFields}
    {next : TextDict → Bytes → Handler Body}
    (hasks : call.request.asks provider = asksValue client action workspaceId body operation)
    (hnext : ∀ labels value, call.request.asks provider = .ok (operation labels value) →
      InTurn provider call (next labels value)) :
    InTurn provider call (do
      let labels ← Api.admitValue suite provider call.env action workspaceId body client fields
      let value ← ofExcept (decodeSecretValue body.valueBase64)
      next labels value) := by
  apply Serial.bind
  apply Serial.bind
  apply serial_audited hsuite hasks
  intro _ _ hasks
  apply Serial.bind
  apply serial_audited hsuite hasks
  intro _ _ hasks
  apply serial_audited hsuite hasks
  intro labels _ hasks
  apply Serial.bind
  apply serial_checked hasks
  intro value _ hasks
  exact hnext labels value hasks

theorem inTurn_writeSecret (hsuite : suite.DecryptsOwn) (hmaterial : suite.KeyMaterial)
    {authorization : Option String} {workspaceId secretId : String} {body : SecretWriteRequest}
    {client : ProviderCredential}
    (hasks : (Request.write authorization workspaceId secretId body).asks provider =
      asksValue client "secret.write" workspaceId body fun labels value =>
        .createSecret workspaceId secretId value labels) :
    InTurn provider ⟨env, .write authorization workspaceId secretId body⟩
      (Api.writeSecret suite provider env workspaceId secretId body client) := by
  apply inTurn_asksValue hsuite hasks
  intro labels value hasks
  apply serial_catching hsuite rfl
  exact serial_recorded hsuite hmaterial (ApiCall.asks_ok hasks) rfl fun _ => .stored

theorem inTurn_rotateSecret (hsuite : suite.DecryptsOwn) (hmaterial : suite.KeyMaterial)
    {authorization : Option String} {workspaceId secretId : String} {body : SecretRotateRequest}
    {client : ProviderCredential}
    (hasks : (Request.rotate authorization workspaceId secretId body).asks provider =
      asksValue client "secret.rotate" workspaceId body fun labels value =>
        .rotateSecret workspaceId secretId value labels (some body.intent)) :
    InTurn provider ⟨env, .rotate authorization workspaceId secretId body⟩
      (Api.rotateSecret suite provider env workspaceId secretId body client) := by
  apply inTurn_asksValue hsuite hasks
  intro labels value hasks
  apply serial_catching hsuite rfl
  exact serial_recorded hsuite hmaterial (ApiCall.asks_ok hasks) rfl fun _ => .rotated

theorem inTurn_generateDelegationKey (hsuite : suite.DecryptsOwn) (hmaterial : suite.KeyMaterial)
    {authorization : Option String} {workspaceId secretId : String}
    {body : DelegationKeyGenerateRequest} {client : ProviderCredential}
    (hasks : (Request.generate authorization workspaceId secretId body).asks provider =
      asksKey provider client workspaceId secretId body) :
    InTurn provider ⟨env, .generate authorization workspaceId secretId body⟩
      (Api.generateDelegationKey suite provider env workspaceId secretId body client) := by
  unfold asksKey at hasks
  unfold Api.generateDelegationKey
  split
  · next raised hpurpose =>
      rw [hpurpose] at hasks
      exact serial_refuse hsuite fun _ => .refused (ApiCall.asks_error hasks) rfl
  · next intent hintent =>
      rw [hintent] at hasks
      apply Serial.bind
      apply serial_checked hasks
      intro valid _ hasks
      split
      · next hinvalid =>
          rw [if_pos hinvalid] at hasks
          exact serial_refuse hsuite fun _ => .refused (ApiCall.asks_error hasks) rfl
      · next hvalid =>
          rw [if_neg hvalid] at hasks
          apply Serial.bind
          apply serial_audited hsuite hasks
          intro _ _ hasks
          apply serial_catching hsuite rfl
          apply Serial.bind
          apply serial_call hsuite hmaterial (ApiCall.asks_ok hasks) rfl
          intro key tables after log _ hperforms
          -- The public half of a generation that was returned is ASCII, so its identity is made.
          obtain ⟨data, hdata⟩ := hperforms.publicPem_ascii
          have hanswer : ∃ answer, Api.generatedBody suite key = .ok answer := by
            unfold Api.generatedBody
            rw [hdata]
            exact ⟨_, rfl⟩
          obtain ⟨answer, hanswer⟩ := hanswer
          rw [hanswer]
          exact serial_pure (.told (.returned (.generated hanswer)))

theorem inTurn_resolveSecret (hsuite : suite.DecryptsOwn) (hmaterial : suite.KeyMaterial)
    (authorization : Option String) (workspaceId secretId : String) (body : EncodedResolveRequest) :
    InTurn provider ⟨env, .resolve authorization workspaceId secretId body⟩
      (Api.resolveSecret suite provider env workspaceId secretId body authorization) := by
  apply Serial.bind
  apply serial_audited hsuite rfl
  intro client _ hasks
  apply Serial.bind
  apply serial_audited hsuite hasks
  intro _ _ hasks
  apply Serial.bind
  apply serial_audited hsuite hasks
  intro _ _ hasks
  apply serial_catching hsuite rfl
  exact serial_recorded hsuite hmaterial (ApiCall.asks_ok hasks) rfl fun _ => .resolved

/-- A program that leaves the database as it was. -/
theorem serial_raises {α : Type} {call : ApiCall suite} {program : Tx Tables α}
    {refuses : Tables → Raised → Prop} {result : Option (Except Raised Reply)}
    {steps : List (Tables × Tables)}
    {returns : α → Option (Except Raised Reply) → List (Tables × Tables) → Prop}
    {raises : Fault → Option (Except Raised Reply) → List (Tables × Tables) → Prop}
    (hattempt : ∀ tables, ∃ raised, refuses tables raised ∧
      attempt program tables = (.error raised, tables))
    (hraises : ∀ tables raised, refuses tables raised →
      raises (.raised raised) result (steps ++ [(tables, tables)])) :
    Serial provider call (transact program) result steps returns raises := by
  intro audits tables vault hholds
  obtain ⟨raised, hrefuses, hattempt⟩ := hattempt tables
  left
  change HoldsVault suite provider _ vault ∧
    Ended _ _ (Except.mapError Fault.raised _) (steps ++ [(tables, _)])
  rw [hattempt]
  exact ⟨hholds, hraises tables raised hrefuses⟩

theorem serial_appendingUnencodable {call : ApiCall suite} {authorization : Option String}
    {result : Option (Except Raised Reply)} {steps : List (Tables × Tables)}
    {returns : Unit → Option (Except Raised Reply) → List (Tables × Tables) → Prop} :
    Serial provider call (appending suite call.env fun draws => appendUnencodable draws) result
      steps returns fun fault result' _ =>
        UnencodableEnding provider call.env authorization fault ∧ result' = result := by
  intro audits
  have happend : Serial provider call (transact (appendUnencodable (call.env.audit audits))) result
      steps returns fun fault result' _ =>
        (∃ raised, fault = .raised raised ∧ UnencodableRaised (call.env.audit audits) raised) ∧
          result' = result :=
    serial_raises (attempt_appendUnencodable (call.env.audit audits))
      fun _ raised hraised => ⟨⟨raised, rfl, hraised⟩, rfl⟩
  refine serial_tryCatch (happend.mono (fun _ _ _ hends => hends) ?_) (audits + 1)
  rintro _ result' steps' ⟨⟨raised, rfl, rfl | ⟨rfl, fault, hfault⟩⟩, rfl⟩
  · exact serial_throw ⟨.unencodable, rfl⟩
  · exact serial_throw ⟨.unavailable hfault, rfl⟩

theorem serial_auditingUnencodable {α : Type} {call : ApiCall suite}
    {authorization : Option String} {check : Except Fault α}
    {result : Option (Except Raised Reply)} {steps : List (Tables × Tables)}
    {returns : α → Option (Except Raised Reply) → List (Tables × Tables) → Prop}
    (hreturns : ∀ value, check = .ok value → returns value result steps)
    (hraised : ∀ raised, check = .error (.raised raised) →
      UnencodableEnding provider call.env authorization (.raised raised)) :
    Serial provider call
      (auditing (appending suite call.env fun draws => appendUnencodable draws) check) result steps
      returns fun fault result' _ =>
        UnencodableEnding provider call.env authorization fault ∧ result' = result := by
  apply serial_tryCatch
  apply serial_check hreturns
  intro fault hfault
  cases fault with
  | http status outcome code =>
      apply Serial.bind
      exact serial_appendingUnencodable
  | raised raised => exact serial_throw ⟨hraised raised hfault, rfl⟩

theorem inTurn_resolveUnencodable (authorization : Option String) (workspaceId secretId : String)
    (body : SecretResolveRequest) (hunencodable : body.encode = none) :
    InTurn provider ⟨env, .resolveUnencodable authorization workspaceId secretId body hunencodable⟩
      (Api.resolveUnencodable suite provider env workspaceId body authorization) := by
  have hserial : Serial provider
      ⟨env, .resolveUnencodable authorization workspaceId secretId body hunencodable⟩
      (Api.resolveUnencodable suite provider env workspaceId body authorization) none []
      (fun _ _ _ => False) fun fault result _ =>
        UnencodableEnding provider env authorization fault ∧ result = none := by
    apply Serial.bind
    apply serial_auditingUnencodable _ fun _ hraised => .credential hraised
    intro client _
    apply Serial.bind
    apply serial_auditingUnencodable _ fun _ hraised => absurd hraised validateText_not_raised
    intro intent _
    apply Serial.bind
    apply serial_auditingUnencodable _ fun _ hraised => absurd hraised requireScope_not_raised
    intro _ _
    apply serial_tryCatch
    apply serial_raises (attempt_useUnencodable env.store workspaceId body.correlationId)
    intro tables raised hraised
    cases hraised with
    | fault hfault =>
        obtain ⟨index, fault, hfails, rfl⟩ := hfault
        exact serial_throw ⟨.store ⟨index, fault, hfails, rfl⟩, rfl⟩
    | conflict =>
        apply Serial.bind
        exact serial_appendingUnencodable
    | unencodable => exact serial_throw ⟨.unencodable, rfl⟩
  apply hserial.mono
  · exact fun _ _ _ hfalse => hfalse.elim
  · rintro fault _ steps ⟨hending, rfl⟩
    exact .unencodable ⟨_, _, _, _, _, rfl⟩ hending rfl

theorem inTurn_revokeSecretVersion (hsuite : suite.DecryptsOwn) (hmaterial : suite.KeyMaterial)
    {authorization : Option String} {workspaceId secretId versionId : String}
    {body : SecretVersionRevokeRequest} {client : ProviderCredential}
    (hasks : (Request.revokeVersion authorization workspaceId secretId versionId body).asks
        provider =
      requireScope client "secret.revoke" workspaceId none >>= fun _ =>
        .ok (.revokeSecretVersion
          { workspaceId := workspaceId
            secretId := secretId
            versionId := versionId
            versionNumber := body.versionNumber
            callerSubject := body.callerSubject
            correlationId := body.correlationId
            providerId := provider.providerId })) :
    InTurn provider ⟨env, .revokeVersion authorization workspaceId secretId versionId body⟩
      (Api.revokeSecretVersion suite provider env workspaceId secretId versionId body client) := by
  apply Serial.bind
  apply serial_checked hasks
  intro _ _ hasks
  apply serial_catching hsuite rfl
  apply Serial.bind
  apply serial_call hsuite hmaterial (ApiCall.asks_ok hasks) rfl
  intro metadata tables after log _ _
  exact serial_pure (.told (.returned .revoked))

theorem serial_auditRevoked (hsuite : suite.DecryptsOwn) {call : ApiCall suite}
    {fields : AuditFields} {revoked : List SecretMetadata}
    (hintents : ∀ metadata ∈ revoked, ∀ raised,
      durableMetadataIntent metadata ≠ .error (.raised raised))
    {result : Option (Except Raised Reply)} {steps : List (Tables × Tables)} :
    Serial provider call (Api.auditRevoked suite provider call.env fields revoked) result steps
      (fun _ result' _ => result' = result) (Raising provider call) := by
  induction revoked generalizing steps with
  | nil => exact serial_pure rfl
  | cons metadata rest ih =>
      apply Serial.bind
      apply serial_check
      · intro intent _
        apply Serial.bind
        apply serial_appendAudit hsuite
        · intro step
          exact ih fun other hother => hintents other (List.mem_cons_of_mem metadata hother)
        · intro position tables hblocked
          exact .unaudited (List.mem_append_right _ (List.mem_singleton_self _)) hblocked
      · intro fault hfault
        obtain ⟨raised, rfl⟩ := durableMetadataIntent_error hfault
        exact absurd hfault (hintents metadata List.mem_cons_self raised)

theorem inTurn_revokeSecret (hsuite : suite.DecryptsOwn) (hmaterial : suite.KeyMaterial)
    {authorization : Option String} {workspaceId secretId : String}
    {body : Option SecretRevokeRequest} {client : ProviderCredential}
    (hasks : (Request.revoke authorization workspaceId secretId body).asks provider =
      requireScope client "secret.revoke" workspaceId none >>= fun _ =>
        .ok (.revokeSecret workspaceId secretId)) :
    InTurn provider ⟨env, .revoke authorization workspaceId secretId body⟩
      (Api.revokeSecret suite provider env workspaceId secretId body client) := by
  apply Serial.bind
  apply serial_checked hasks
  intro _ _ hasks
  apply serial_catching hsuite rfl
  apply Serial.bind
  apply serial_call hsuite hmaterial (ApiCall.asks_ok hasks) rfl
  intro revoked tables after log hreached hperforms
  apply Serial.bind
  apply (serial_auditRevoked hsuite (hreached.revoked_intents hperforms)).mono _ fun _ _ _ h => h
  rintro _ _ steps rfl
  exact serial_pure (.told (.returned .allRevoked))

theorem inTurn_readMetadata (hsuite : suite.DecryptsOwn) (hmaterial : suite.KeyMaterial)
    {authorization : Option String} {workspaceId secretId : String} {versionId : Option String}
    {client : ProviderCredential}
    (hasks : (Request.readMetadata authorization workspaceId secretId versionId).asks provider =
      requireScope client "secret.metadata" workspaceId none >>= fun _ =>
        .ok (.metadata workspaceId secretId versionId)) :
    InTurn provider ⟨env, .readMetadata authorization workspaceId secretId versionId⟩
      (Api.readMetadata suite provider env workspaceId secretId versionId client) := by
  apply Serial.bind
  apply serial_checked hasks
  intro _ _ hasks
  apply serial_catching hsuite rfl
  exact serial_recorded hsuite hmaterial (ApiCall.asks_ok hasks) rfl fun _ => .metadata

/-- Every handler serves its request in turn. -/
theorem inTurn_handler (hsuite : suite.DecryptsOwn) (hmaterial : suite.KeyMaterial)
    (request : Request) : InTurn provider ⟨env, request⟩ (request.handler provider env) := by
  cases request with
  | write authorization workspaceId secretId body =>
      apply Serial.bind
      apply serial_checked rfl
      intro client _ hasks
      exact inTurn_writeSecret hsuite hmaterial hasks
  | generate authorization workspaceId secretId body =>
      apply Serial.bind
      apply serial_checked rfl
      intro client _ hasks
      exact inTurn_generateDelegationKey hsuite hmaterial hasks
  | rotate authorization workspaceId secretId body =>
      apply Serial.bind
      apply serial_checked rfl
      intro client _ hasks
      exact inTurn_rotateSecret hsuite hmaterial hasks
  | resolve authorization workspaceId secretId body =>
      exact inTurn_resolveSecret hsuite hmaterial authorization workspaceId secretId body
  | resolveUnencodable authorization workspaceId secretId body hunencodable =>
      exact inTurn_resolveUnencodable authorization workspaceId secretId body hunencodable
  | revokeVersion authorization workspaceId secretId versionId body =>
      apply Serial.bind
      apply serial_checked rfl
      intro client _ hasks
      exact inTurn_revokeSecretVersion hsuite hmaterial hasks
  | revoke authorization workspaceId secretId body =>
      apply Serial.bind
      apply serial_checked rfl
      intro client _ hasks
      exact inTurn_revokeSecret hsuite hmaterial hasks
  | readMetadata authorization workspaceId secretId versionId =>
      apply Serial.bind
      apply serial_checked rfl
      intro client _ hasks
      exact inTurn_readMetadata hsuite hmaterial hasks

end

/-! ### Servers -/

section

variable {suite : CryptoSuite}

/-- A server served its requests in the order, as the vault answers them one after the other. -/
structure ServedInTurn (provider : Provider) (server : Server suite)
    (order : List (Done (ApiCall suite) (Except Raised Reply))) (vault : Vault) : Prop where
  /-- What came of each is what the vault answered, and the last vault is the one the tables
  represent. -/
  sequence : Sequence (fun call => ApiCall.Does provider call) Vault.empty order vault
  represents : Represents suite vault server.state
  /-- The order is that of one step of each, so no request comes before one that was done when it
  arrived. -/
  once : (order.map Done.task).Nodup
  inOrder : (order.map Done.task).Sublist (server.steps.map Interleaving.Step.task)
  inputs : ∀ done ∈ order, ∃ task, server.tasks[done.task]? = some task ∧ task.input = done.input
  /-- A request that is done was told what came of it, was refused by its checks, or was kept from
  its answer by something other than the vault. -/
  concluded : ∀ (index : Nat) call ending count,
    server.tasks[index]? = some ⟨call, .done (ending, count)⟩ →
      Concluded provider call ending (resultOf order index) (server.own index)

end

end SecretsCustody
