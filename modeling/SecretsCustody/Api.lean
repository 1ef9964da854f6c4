/-
The seven routes under `/v1`: each handler's checks, store call and audit
appends, in the order of the source.  The framework has parsed and bounded the
request before a handler sees it.
-/
import SecretsCustody.Auth
import SecretsCustody.Base64
import SecretsCustody.Interleaving
import SecretsCustody.Store

namespace SecretsCustody

open Effect Interleaving JsonText

def maxSecretBytes : Nat := 64 * 1024

def maxCorrelationChars : Nat := 128

def maxSecretReferenceChars : Nat := 1024

def allowedSecretUseIntents : List String :=
  ["application.control-token", "cloudflare.api-token", "cloudflare.tunnel-token",
    "docker.local-socket-access-marker", "docker.remote-tls.ca-certificate",
    "docker.remote-tls.client-certificate", "docker.remote-tls.client-key",
    "gateway.probe-signing-key", "gateway.node-control-transit-signing-key",
    "gateway.node-health-read-transit-signing-key", "oci.pull-credential", "postgres.password",
    "secrets.custody-root-key", "secrets.provider-credentials-document",
    "workload.node-control-signing-key", "workload.node-health-read-signing-key"]

/-! ### Requests -/

/-- An optional field with a bound on its length. -/
def Bounded (text : Option String) (bound : Nat) : Prop :=
  ∀ value ∈ text, value.length ≤ bound

structure SecretWriteRequest where
  valueBase64 : String
  intent : String
  labels : TextDict
  callerSubject : Option String
  correlationId : Option String
  value_length : 1 ≤ valueBase64.length
  callerSubject_length : Bounded callerSubject 128
  correlationId_length : Bounded correlationId maxCorrelationChars

/-- The same fields with the same bounds. -/
abbrev SecretRotateRequest := SecretWriteRequest

/-- `intent` and `version_id` are bare `str` fields, which take every text, one with an unpaired
surrogate too; the fields with bounds do not. -/
structure SecretResolveRequest where
  intent : PyStr
  callerSubject : String
  correlationId : String
  versionId : Option PyStr
  callerSubject_length : 1 ≤ callerSubject.length ∧ callerSubject.length ≤ 128
  correlationId_length : 1 ≤ correlationId.length ∧ correlationId.length ≤ maxCorrelationChars

/-- The same request, with texts SQLite can encode. -/
structure EncodedResolveRequest where
  intent : String
  callerSubject : String
  correlationId : String
  versionId : Option String
  callerSubject_length : 1 ≤ callerSubject.length ∧ callerSubject.length ≤ 128
  correlationId_length : 1 ≤ correlationId.length ∧ correlationId.length ≤ maxCorrelationChars

/-- A version identifier, encoded if there is one. -/
def encodeVersion : Option PyStr → Option (Option String)
  | none => some none
  | some versionId => (scalarText versionId).map some

/-- `none` where a text holds an unpaired surrogate. -/
def SecretResolveRequest.encode (request : SecretResolveRequest) : Option EncodedResolveRequest := do
  let intent ← scalarText request.intent
  let versionId ← encodeVersion request.versionId
  return { request with intent := intent, versionId := versionId }

structure SecretRevokeRequest where
  callerSubject : Option String
  correlationId : Option String
  callerSubject_length : Bounded callerSubject 128
  correlationId_length : Bounded correlationId maxCorrelationChars

structure SecretVersionRevokeRequest where
  versionNumber : Int
  callerSubject : String
  correlationId : String
  versionNumber_ge : 1 ≤ versionNumber
  callerSubject_length : 1 ≤ callerSubject.length ∧ callerSubject.length ≤ 128
  correlationId_length : 1 ≤ correlationId.length ∧ correlationId.length ≤ maxCorrelationChars

structure DelegationKeyGenerateRequest where
  secretReference : String
  purpose : String
  issuer : String
  callerSubject : String
  correlationId : String
  secretReference_length : 1 ≤ secretReference.length ∧
    secretReference.length ≤ maxSecretReferenceChars
  purpose_length : 1 ≤ purpose.length ∧ purpose.length ≤ 64
  issuer_length : 1 ≤ issuer.length ∧ issuer.length ≤ 200
  callerSubject_length : 1 ≤ callerSubject.length ∧ callerSubject.length ≤ 200
  correlationId_length : 1 ≤ correlationId.length ∧ correlationId.length ≤ maxCorrelationChars

/-! ### Secret references -/

/-- The parts of a URL, as `urlsplit` returns them. -/
structure SplitResult where
  scheme : String
  netloc : String
  path : String
  query : String
  fragment : String

/-- `_IDENTIFIER`. -/
def isIdentifier (text : String) : Bool :=
  match text.toList with
  | [] => false
  | first :: rest =>
      first.isAlphanum && rest.length ≤ 199 &&
        rest.all fun c => c.isAlphanum || c ∈ ['.', '_', ':', '-']

/-- `_REFERENCE_PROVIDER`. -/
def isReferenceProvider (text : String) : Bool :=
  match text.toList with
  | [] => false
  | first :: rest =>
      first.isLower && rest.length ≤ 62 &&
        rest.all fun c => c.isLower || c.isDigit || c = '-'

/-- `_REFERENCE_SEGMENT`. -/
def isReferenceSegment (text : String) : Bool :=
  1 ≤ text.length && text.length ≤ 128 &&
    text.toList.all fun c => c.isAlphanum || c ∈ ['.', '_', '-']

/-- `_valid_secret_reference`, for the function that splits URLs; it raises `ValueError`
where that does. -/
def validSecretReference (urlsplit : String → Option SplitResult) (reference : String) :
    Except Raised Bool :=
  match urlsplit reference with
  | none => .error .valueError
  | some parsed =>
      let path := (parsed.path.splitOn "/").filter fun part => part ≠ ""
      .ok (parsed.scheme = "secret" && isReferenceProvider parsed.netloc && parsed.query = "" &&
        parsed.fragment = "" && !path.isEmpty && parsed.path = "/" ++ "/".intercalate path &&
        path.all fun part => part ≠ "." && part ≠ ".." && isReferenceSegment part)

/-! ### Responses -/

/-- `_metadata_response`. -/
structure MetadataResponse where
  workspaceId : String
  secretId : String
  versionId : String
  versionNumber : Int
  status : String
  algorithm : String
  keyFingerprint : String
  keyVersion : String
  labels : Labels
  createdAt : String
  revokedAt : Option String

def metadataResponse (metadata : SecretMetadata) : MetadataResponse :=
  { workspaceId := metadata.workspaceId
    secretId := metadata.secretId
    versionId := metadata.versionId
    versionNumber := metadata.versionNumber
    status := metadata.status.value
    algorithm := metadata.algorithm
    keyFingerprint := metadata.keyFingerprint
    keyVersion := metadata.keyVersion
    labels := metadata.labels
    createdAt := metadata.createdAt
    revokedAt := metadata.revokedAt }

/-- What a handler returns: its `outcome`, and the other fields of the answer. -/
inductive Body where
  | stored (metadata : MetadataResponse)
  | generated (secretReference : String) (metadata : MetadataResponse)
      (purpose issuer correlationId keyId algorithm publicKeyPem fingerprintSha256 : String)
      (replayed : Bool)
  | rotated (metadata : MetadataResponse)
  | resolved (metadata : MetadataResponse) (valueBase64 : String)
  | revoked (metadata : MetadataResponse)
  | allRevoked (metadata : List MetadataResponse)
  | metadata (metadata : MetadataResponse)

/-- Why a handler does not return: an `HTTPException`, or an exception nothing catches. -/
inductive Fault where
  | http (status : Nat) (outcome code : String)
  | raised (raised : Raised)

/-- What the client gets. -/
inductive Response where
  | ok (body : Body)
  | refused (status : Nat) (outcome code : String)
  | internalServerError

def Fault.response : Fault → Response
  | .http status outcome code => .refused status outcome code
  | .raised _ => .internalServerError

/-! ### The provider -/

/-- What `create_app` closes over, with the library function that splits URLs. -/
structure Provider where
  providerId : String
  credentials : List ProviderCredential
  master : MasterKey
  urlsplit : String → Option SplitResult

/-- What one request draws from outside: for its store call, and for each audit append. -/
structure RequestEnv (suite : CryptoSuite) where
  store : Env suite
  audit : Nat → Env suite

/-- A handler acts on the database transaction by transaction, and counts the audit appends
it makes. -/
abbrev Handler := ExceptT Fault (StateT Nat (Script Tables))

/-- A program as one transaction, in a session of its own. -/
def attempt {α : Type} (program : Tx Tables α) (tables : Tables) : Except Raised α × Tables :=
  match program.run { db := tables, executed := 0, encryptions := [] } with
  | .ok value finish => (.ok value, finish.db)
  | .error raised finish => (.error raised, finish.db)

def transact {α : Type} (program : Tx Tables α) : Handler α := fun audits =>
  .act (attempt program) fun result => .done (result.mapError Fault.raised, audits)

/-- A handler with more to do after it, as a script. -/
theorem bind_script {α β : Type} (handler : Handler α) (next : α → Handler β) (audits : Nat) :
    (handler >>= next) audits = Script.bind (handler audits) fun ending =>
      match ending with
      | (.ok value, count) => next value count
      | (.error fault, count) => .done (.error fault, count) := by
  change Script.bind _ _ = _
  congr 1
  funext ending
  obtain ⟨result, count⟩ := ending
  cases result <;> rfl

theorem tryCatch_script {α : Type} (handler : Handler α) (handle : Fault → Handler α)
    (audits : Nat) :
    (tryCatch handler handle) audits = Script.bind (handler audits) fun ending =>
      match ending with
      | (.ok value, count) => .done (.ok value, count)
      | (.error fault, count) => handle fault count := by
  change Script.bind _ _ = _
  congr 1
  funext ending
  obtain ⟨result, count⟩ := ending
  cases result <;> rfl

theorem run_bind {α β : Type} (handler : Handler α) (next : α → Handler β) (audits : Nat)
    (tables : Tables) :
    Script.run ((handler >>= next) audits) tables =
      match Script.run (handler audits) tables with
      | ((.ok value, count), after) => Script.run (next value count) after
      | ((.error fault, count), after) => ((.error fault, count), after) := by
  rw [bind_script]
  refine (Script.run_bind _ _ tables).trans ?_
  obtain ⟨⟨result, count⟩, after⟩ := Script.run (handler audits) tables
  cases result <;> rfl

theorem run_tryCatch {α : Type} (handler : Handler α) (handle : Fault → Handler α) (audits : Nat)
    (tables : Tables) :
    Script.run ((tryCatch handler handle) audits) tables =
      match Script.run (handler audits) tables with
      | ((.ok value, count), after) => ((.ok value, count), after)
      | ((.error fault, count), after) => Script.run (handle fault count) after := by
  rw [tryCatch_script]
  refine (Script.run_bind _ _ tables).trans ?_
  obtain ⟨⟨result, count⟩, after⟩ := Script.run (handler audits) tables
  cases result <;> rfl

/-- The fields the audit records of one request share. -/
structure AuditFields where
  workspaceId : String
  secretId : String
  versionId : Option String
  intent : Option Json
  callerSubject : String
  correlationId : String

section

variable (suite : CryptoSuite) (provider : Provider) (env : RequestEnv suite)

/-- `_append_audit`, by the append it makes. -/
def appending (append : Env suite → Tx Tables Unit) : Handler Unit := do
  let position ← get
  set (position + 1)
  tryCatch (transact (append (env.audit position))) fun
    | .raised .auditUnavailable => throw (.http 503 "unavailable" "audit-unavailable")
    | fault => throw fault

def appendAudit (fields : AuditFields) (outcome code : String) : Handler Unit :=
  appending suite env fun draws =>
    append draws (auditRecord draws provider.providerId fields.workspaceId fields.secretId
      fields.versionId fields.intent fields.callerSubject fields.correlationId outcome code)

/-- A check whose `HTTPException` is audited by the given append before it leaves the handler. -/
def auditing {α : Type} (append : Handler Unit) (check : Except Fault α) : Handler α :=
  tryCatch (ofExcept check) fun
    | .http status outcome code => do
        append
        throw (.http status outcome code)
    | fault => throw fault

def audited {α : Type} (fields : AuditFields) (outcome code : String)
    (check : Except Fault α) : Handler α :=
  auditing (appendAudit suite provider env fields outcome code) check

/-- An `except` clause of a handler: the exception, the error it becomes, and whether that is
audited first, under the same outcome and code. -/
structure Clause where
  caught : Raised
  status : Nat
  outcome : String
  code : String
  audits : Bool := true

def Clause.raise {α : Type} (clause : Clause) (fields : AuditFields) : Handler α :=
  if clause.audits then do
    appendAudit suite provider env fields clause.outcome clause.code
    throw (.http clause.status clause.outcome clause.code)
  else throw (.http clause.status clause.outcome clause.code)

/-- `try: … except …:` with the given clauses. -/
def catching {α : Type} (fields : AuditFields) (clauses : List Clause) (body : Handler α) :
    Handler α :=
  tryCatch body fun
    | .raised raised =>
        match clauses.find? fun clause => clause.caught = raised with
        | none => throw (.raised raised)
        | some clause => clause.raise suite provider env fields
    | fault => throw fault

/-- `credential`, the dependency of six routes. -/
def credential (authorization : Option String) : Except Fault ProviderCredential :=
  match authenticate provider.credentials authorization with
  | .ok client => .ok client
  | .error .providerAuthenticationError => .error (.http 401 "denied" "unauthenticated")
  | .error raised => .error (.raised raised)

/-- `_require`. -/
def requireScope (client : ProviderCredential) (action workspaceId : String)
    (intent : Option String) : Except Fault Unit :=
  match requireGrant client action workspaceId intent with
  | .ok done => .ok done
  | .error .secretUseDenied => .error (.http 403 "denied" "insufficient-scope")
  | .error raised => .error (.raised raised)

/-- `_validate_intent`. -/
def validateIntent (intent : String) : Except Fault Unit :=
  if intent ∈ allowedSecretUseIntents then .ok ()
  else .error (.http 400 "malformed" "unsupported-intent")

/-- `_canonical_intent_labels`. -/
def canonicalIntentLabels (labels : TextDict) (intent : String) : Except Fault TextDict :=
  match labels.lookup "intent" with
  | some supplied =>
      if supplied = intent then .ok (labels.insert "intent" intent)
      else .error (.http 400 "malformed" "intent-label-conflict")
  | none => .ok (labels.insert "intent" intent)

/-- `_decode_secret_value`. -/
def decodeSecretValue (encoded : String) : Except Fault Bytes :=
  match Base64.decode encoded.toList with
  | none => .error (.http 400 "malformed" "invalid-secret-material")
  | some value =>
      if value.length > maxSecretBytes then
        .error (.http 400 "malformed" "secret-material-too-large")
      else .ok value

theorem decodeSecretValue_bounded {encoded : String} {value : Bytes}
    (hdecode : decodeSecretValue encoded = .ok value) : value.length ≤ maxSecretBytes := by
  unfold decodeSecretValue at hdecode
  split at hdecode
  · cases hdecode
  · split at hdecode
    · cases hdecode
    · next hbound =>
        cases hdecode
        omega

/-- `text or default`. -/
def orDefault (text : Option String) (default : String) : String :=
  match text with
  | none => default
  | some text => if text = "" then default else text

/-- A text intent, as the audit store takes it. -/
def textIntent (intent : String) : Option Json :=
  some (.str (codes intent))

/-- `_durable_metadata_intent`; a label that is a list or a map cannot be hashed. -/
def durableMetadataIntent (metadata : SecretMetadata) : Except Fault (Option Json) :=
  match metadata.labels.lookup (codes "intent") with
  | none => .ok none
  | some (.arr _) => .error (.raised .typeError)
  | some (.obj _) => .error (.raised .typeError)
  | some intent =>
      if ∃ allowed ∈ allowedSecretUseIntents, intent.isText (codes allowed) then .ok (some intent)
      else .ok none

/-! ### Handlers -/

namespace Api

def writeFields (workspaceId secretId : String) (request : SecretWriteRequest)
    (client : ProviderCredential) : AuditFields :=
  { workspaceId := workspaceId
    secretId := secretId
    versionId := none
    intent := textIntent request.intent
    callerSubject := orDefault request.callerSubject client.subject
    correlationId := orDefault request.correlationId "not-provided" }

/-- The checks `write_secret` and `rotate_secret` make before they decode the value. -/
def admitValue (action workspaceId : String) (request : SecretWriteRequest)
    (client : ProviderCredential) (fields : AuditFields) : Handler TextDict := do
  audited suite provider env fields "malformed" "unsupported-intent"
    (validateIntent request.intent)
  audited suite provider env fields "denied" "insufficient-scope"
    (requireScope client action workspaceId (some request.intent))
  audited suite provider env fields "malformed" "intent-label-conflict"
    (canonicalIntentLabels request.labels request.intent)

def writeSecret (workspaceId secretId : String) (request : SecretWriteRequest)
    (client : ProviderCredential) : Handler Body := do
  let fields := writeFields workspaceId secretId request client
  let labels ← admitValue suite provider env "secret.write" workspaceId request client fields
  let value ← ofExcept (decodeSecretValue request.valueBase64)
  catching suite provider env fields
    [{ caught := .secretMetadataInvalid, status := 400, outcome := "malformed"
       code := "invalid-metadata" },
      { caught := .secretAlreadyExists, status := 409, outcome := "already-exists"
        code := "secret-already-exists" }]
    do
      let metadata ← transact
        (createSecret suite env.store provider.master workspaceId secretId value labels)
      appendAudit suite provider env { fields with versionId := some metadata.versionId }
        "stored" "secret-stored"
      return .stored (metadataResponse metadata)

def rotateSecret (workspaceId secretId : String) (request : SecretRotateRequest)
    (client : ProviderCredential) : Handler Body := do
  let fields := writeFields workspaceId secretId request client
  let labels ← admitValue suite provider env "secret.rotate" workspaceId request client fields
  let value ← ofExcept (decodeSecretValue request.valueBase64)
  catching suite provider env fields
    [{ caught := .secretMissing, status := 404, outcome := "missing", code := "secret-missing" },
      { caught := .secretMetadataInvalid, status := 400, outcome := "malformed"
        code := "invalid-metadata" },
      { caught := .secretAlreadyExists, status := 409, outcome := "already-exists"
        code := "secret-version-conflict" },
      { caught := .secretIntentMismatch, status := 409, outcome := "already-exists"
        code := "secret-intent-conflict" }]
    do
      let metadata ← transact
        (SecretsCustody.rotateSecret suite env.store provider.master workspaceId secretId value labels
          (some request.intent))
      appendAudit suite provider env { fields with versionId := some metadata.versionId }
        "rotated" "secret-rotated"
      return .rotated (metadataResponse metadata)

/-- The identity of the generated key in an answer. -/
def generatedBody (generated : GeneratedDelegationKey) : Except Fault Body :=
  match encodeAscii generated.publicKeyPem with
  | none => .error (.raised .valueError)
  | some publicKey =>
      .ok (.generated generated.secretReference (metadataResponse generated.metadata)
        generated.purpose generated.issuer generated.correlationId generated.keyId
        generated.algorithm generated.publicKeyPem (suite.sha256 publicKey) generated.replayed)

/-- The identifiers and the reference of a generation are well formed. -/
def validGeneration (request : DelegationKeyGenerateRequest) : Except Fault Bool :=
  if isIdentifier request.issuer && isIdentifier request.callerSubject then
    (validSecretReference provider.urlsplit request.secretReference).mapError Fault.raised
  else .ok false

def generateFields (workspaceId secretId : String) (request : DelegationKeyGenerateRequest)
    (intent : Option Json) : AuditFields :=
  { workspaceId := workspaceId
    secretId := secretId
    versionId := none
    intent := intent
    callerSubject := request.callerSubject
    correlationId := request.correlationId }

def generateDelegationKey (workspaceId secretId : String) (request : DelegationKeyGenerateRequest)
    (client : ProviderCredential) : Handler Body := do
  match delegationSigningIntentFor request.purpose with
  | .error _ => do
      appendAudit suite provider env (generateFields workspaceId secretId request none)
        "malformed" "invalid-delegation-key-generation"
      throw (.http 400 "malformed" "invalid-delegation-key-generation")
  | .ok intent => do
      let fields := generateFields workspaceId secretId request (textIntent intent)
      let valid ← ofExcept (validGeneration provider request)
      if valid = false then do
        appendAudit suite provider env fields "malformed" "invalid-delegation-key-generation"
        throw (.http 400 "malformed" "invalid-delegation-key-generation")
      else do
        audited suite provider env fields "denied" "insufficient-scope"
          (requireScope client "secret.generate-delegation-key" workspaceId (some intent))
        catching suite provider env fields
          [{ caught := .delegationKeyGenerationConflict, status := 409, outcome := "conflict"
             code := "generation-correlation-conflict" },
            { caught := .secretAlreadyExists, status := 409, outcome := "already-exists"
              code := "secret-already-exists" },
            { caught := .secretRevoked, status := 409, outcome := "revoked"
              code := "secret-revoked" },
            { caught := .secretTampered, status := 503, outcome := "unavailable"
              code := "integrity-failure" },
            { caught := .auditUnavailable, status := 503, outcome := "unavailable"
              code := "audit-unavailable", audits := false }]
          do
            let generated ← transact (SecretsCustody.generateDelegationKey suite env.store provider.master
              { workspaceId := workspaceId
                secretId := secretId
                secretReference := request.secretReference
                purpose := request.purpose
                intent := intent
                issuer := request.issuer
                callerSubject := request.callerSubject
                correlationId := request.correlationId
                providerId := provider.providerId })
            ofExcept (generatedBody suite generated)

def resolveFields (workspaceId secretId : String) (request : EncodedResolveRequest) :
    AuditFields :=
  { workspaceId := workspaceId
    secretId := secretId
    versionId := request.versionId
    intent := textIntent request.intent
    callerSubject := request.callerSubject
    correlationId := request.correlationId }

/-- `resolve_secret` authenticates by itself, and audits that too. -/
def resolveSecret (workspaceId secretId : String) (request : EncodedResolveRequest)
    (authorization : Option String) : Handler Body := do
  let fields := resolveFields workspaceId secretId request
  let client ← audited suite provider env { fields with callerSubject := "unauthenticated" }
    "denied" "unauthenticated" (credential provider authorization)
  audited suite provider env fields "malformed" "unsupported-intent"
    (validateIntent request.intent)
  audited suite provider env fields "denied" "insufficient-scope"
    (requireScope client "secret.resolve" workspaceId (some request.intent))
  catching suite provider env fields
    [{ caught := .secretMissing, status := 404, outcome := "missing", code := "secret-missing" },
      { caught := .secretRevoked, status := 409, outcome := "revoked", code := "secret-revoked" },
      { caught := .secretResolutionConflict, status := 409, outcome := "already-exists"
        code := "resolution-correlation-conflict" },
      { caught := .secretIntentMismatch, status := 403, outcome := "denied"
        code := "secret-intent-mismatch" },
      { caught := .secretTampered, status := 503, outcome := "unavailable"
        code := "integrity-failure" }]
    do
      let resolved ← transact (resolveSecretForUse suite env.store provider.master
        { workspaceId := workspaceId
          secretId := secretId
          intent := request.intent
          callerSubject := request.callerSubject
          correlationId := request.correlationId
          versionId := request.versionId })
      appendAudit suite provider env
        { fields with versionId := some resolved.metadata.versionId } "resolved" "secret-resolved"
      return .resolved (metadataResponse resolved.metadata)
        (String.ofList (Base64.encode resolved.value))

/-- `_validate_intent` of a text that may hold unpaired surrogates. -/
def validateText (intent : PyStr) : Except Fault String :=
  match scalarText intent with
  | none => .error (.http 400 "malformed" "unsupported-intent")
  | some intent => (validateIntent intent).map fun _ => intent

/-- `resolve_secret` for a request with a text that cannot be encoded: all its audit records carry
that text, and its store call returns nothing. -/
def resolveUnencodable (workspaceId : String) (request : SecretResolveRequest)
    (authorization : Option String) : Handler Body := do
  let append := appending suite env fun draws => appendUnencodable draws
  let client ← auditing append (credential provider authorization)
  let intent ← auditing append (validateText request.intent)
  auditing append (requireScope client "secret.resolve" workspaceId (some intent))
  tryCatch
    (transact
      (resolveUnencodableForUse suite env.store workspaceId request.correlationId))
    fun
    | .raised .secretResolutionConflict => do
        append
        throw (.http 409 "already-exists" "resolution-correlation-conflict")
    | fault => throw fault

def revokeSecretVersion (workspaceId secretId versionId : String)
    (request : SecretVersionRevokeRequest) (client : ProviderCredential) : Handler Body := do
  ofExcept (requireScope client "secret.revoke" workspaceId none)
  let fields : AuditFields :=
    { workspaceId := workspaceId
      secretId := secretId
      versionId := some versionId
      intent := none
      callerSubject := request.callerSubject
      correlationId := request.correlationId }
  catching suite provider env fields
    [{ caught := .secretVersionRevocationConflict, status := 409, outcome := "conflict"
       code := "version-revocation-conflict", audits := false },
      { caught := .secretRevoked, status := 409, outcome := "conflict", code := "secret-revoked"
        audits := false },
      { caught := .secretMissing, status := 404, outcome := "missing", code := "secret-missing"
        audits := false },
      { caught := .secretTampered, status := 503, outcome := "unavailable"
        code := "integrity-failure", audits := false },
      { caught := .auditUnavailable, status := 503, outcome := "unavailable"
        code := "audit-unavailable", audits := false }]
    do
      let revoked ← transact
        (SecretsCustody.revokeSecretVersion suite env.store provider.master
          { workspaceId := workspaceId
            secretId := secretId
            versionId := versionId
            versionNumber := request.versionNumber
            callerSubject := request.callerSubject
            correlationId := request.correlationId
            providerId := provider.providerId })
      return .revoked (metadataResponse revoked)

/-- The loop of `revoke_secret` over what the store revoked. -/
def auditRevoked (fields : AuditFields) : List SecretMetadata → Handler Unit
  | [] => pure ()
  | metadata :: rest => do
      let intent ← ofExcept (durableMetadataIntent metadata)
      appendAudit suite provider env
        { fields with versionId := some metadata.versionId, intent := intent }
        "revoked" "secret-revoked"
      auditRevoked fields rest

/-- The request of `revoke_secret` may have no body. -/
def revokeFields (workspaceId secretId : String) (request : Option SecretRevokeRequest)
    (client : ProviderCredential) : AuditFields :=
  { workspaceId := workspaceId
    secretId := secretId
    versionId := none
    intent := none
    callerSubject := (request.bind SecretRevokeRequest.callerSubject).getD client.subject
    correlationId := (request.bind SecretRevokeRequest.correlationId).getD "not-provided" }

def revokeSecret (workspaceId secretId : String) (request : Option SecretRevokeRequest)
    (client : ProviderCredential) : Handler Body := do
  ofExcept (requireScope client "secret.revoke" workspaceId none)
  let fields := revokeFields workspaceId secretId request client
  catching suite provider env fields
    [{ caught := .secretMissing, status := 404, outcome := "missing", code := "secret-missing" },
      { caught := .secretTampered, status := 503, outcome := "unavailable"
        code := "integrity-failure" }]
    do
      let revoked ← transact
        (SecretsCustody.revokeSecret suite env.store provider.master workspaceId secretId)
      auditRevoked suite provider env fields revoked
      return .allRevoked (revoked.map metadataResponse)

def readMetadata (workspaceId secretId : String) (versionId : Option String)
    (client : ProviderCredential) : Handler Body := do
  ofExcept (requireScope client "secret.metadata" workspaceId none)
  let fields : AuditFields :=
    { workspaceId := workspaceId
      secretId := secretId
      versionId := versionId
      intent := none
      callerSubject := client.subject
      correlationId := "not-provided" }
  catching suite provider env fields
    [{ caught := .secretMissing, status := 404, outcome := "missing", code := "secret-missing" }]
    do
      let metadata ← transact (SecretsCustody.metadata suite env.store workspaceId secretId versionId)
      appendAudit suite provider env { fields with versionId := some metadata.versionId }
        "metadata" "metadata-read"
      return .metadata (metadataResponse metadata)

end Api

end

/-! ### One request -/

/-- A request to one of the seven routes, with the header and the parts of its path.  Those of the
resolve route are told apart by whether their texts can be encoded. -/
inductive Request where
  | write (authorization : Option String) (workspaceId secretId : String)
      (body : SecretWriteRequest)
  | generate (authorization : Option String) (workspaceId secretId : String)
      (body : DelegationKeyGenerateRequest)
  | rotate (authorization : Option String) (workspaceId secretId : String)
      (body : SecretRotateRequest)
  | resolve (authorization : Option String) (workspaceId secretId : String)
      (body : EncodedResolveRequest)
  | resolveUnencodable (authorization : Option String) (workspaceId secretId : String)
      (body : SecretResolveRequest) (hunencodable : body.encode = none)
  | revokeVersion (authorization : Option String) (workspaceId secretId versionId : String)
      (body : SecretVersionRevokeRequest)
  | revoke (authorization : Option String) (workspaceId secretId : String)
      (body : Option SecretRevokeRequest)
  | readMetadata (authorization : Option String) (workspaceId secretId : String)
      (versionId : Option String)

/-- The request of a body the resolve route takes. -/
def SecretResolveRequest.request (body : SecretResolveRequest) (authorization : Option String)
    (workspaceId secretId : String) : Request :=
  match hencoded : body.encode with
  | some encoded => .resolve authorization workspaceId secretId encoded
  | none => .resolveUnencodable authorization workspaceId secretId body hencoded

theorem SecretResolveRequest.request_encoded {authorization : Option String}
    {workspaceId secretId : String} {body : SecretResolveRequest} {encoded : EncodedResolveRequest}
    (hencoded : body.encode = some encoded) :
    body.request authorization workspaceId secretId =
      .resolve authorization workspaceId secretId encoded := by
  unfold request
  split
  · next found hfound =>
      cases hencoded.symm.trans hfound
      rfl
  · next hnone => cases hencoded.symm.trans hnone

theorem SecretResolveRequest.request_unencodable {authorization : Option String}
    {workspaceId secretId : String} {body : SecretResolveRequest}
    (hunencodable : body.encode = none) :
    body.request authorization workspaceId secretId =
      .resolveUnencodable authorization workspaceId secretId body hunencodable := by
  unfold request
  split
  · next found hfound => cases hunencodable.symm.trans hfound
  · rfl

/-- A request, with what it draws from outside. -/
structure ApiCall (suite : CryptoSuite) where
  env : RequestEnv suite
  request : Request

section

variable {suite : CryptoSuite} (provider : Provider) (env : RequestEnv suite)

/-- The handler of a request, after the dependency of its route. -/
def Request.handler : Request → Handler Body
  | .write authorization workspaceId secretId body => do
      let client ← ofExcept (credential provider authorization)
      Api.writeSecret suite provider env workspaceId secretId body client
  | .generate authorization workspaceId secretId body => do
      let client ← ofExcept (credential provider authorization)
      Api.generateDelegationKey suite provider env workspaceId secretId body client
  | .rotate authorization workspaceId secretId body => do
      let client ← ofExcept (credential provider authorization)
      Api.rotateSecret suite provider env workspaceId secretId body client
  | .resolve authorization workspaceId secretId body =>
      Api.resolveSecret suite provider env workspaceId secretId body authorization
  | .resolveUnencodable authorization workspaceId _ body _ =>
      Api.resolveUnencodable suite provider env workspaceId body authorization
  | .revokeVersion authorization workspaceId secretId versionId body => do
      let client ← ofExcept (credential provider authorization)
      Api.revokeSecretVersion suite provider env workspaceId secretId versionId body client
  | .revoke authorization workspaceId secretId body => do
      let client ← ofExcept (credential provider authorization)
      Api.revokeSecret suite provider env workspaceId secretId body client
  | .readMetadata authorization workspaceId secretId versionId => do
      let client ← ofExcept (credential provider authorization)
      Api.readMetadata suite provider env workspaceId secretId versionId client

/-- What the client gets of how a handler ended. -/
def responseOf : Except Fault Body → Response
  | .ok body => .ok body
  | .error fault => fault.response

/-- One request on a database, with no other at work: what the client gets, and the database
after. -/
def respond (tables : Tables) (request : Request) : Response × Tables :=
  let ending := Script.run (request.handler provider env 0) tables
  (responseOf ending.1.1, ending.2)

end

end SecretsCustody
