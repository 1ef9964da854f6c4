/-
No success without committed audit: what the transactions of one request leave
in the audit, whatever the other requests do in between.
-/
import SecretsCustody.Denial
import SecretsCustody.Evidence
import SecretsCustody.Server

namespace SecretsCustody

open Effect Interleaving JsonText

/-! ### What a store call audits itself -/

/-- The secret an operation is about. -/
def Operation.address : Operation → String × String
  | .createSecret workspaceId secretId _ _ => (workspaceId, secretId)
  | .rotateSecret workspaceId secretId _ _ _ => (workspaceId, secretId)
  | .revokeSecret workspaceId secretId => (workspaceId, secretId)
  | .revokeSecretVersion args => (args.workspaceId, args.secretId)
  | .generateDelegationKey args => (args.workspaceId, args.secretId)
  | .resolveSecret workspaceId secretId _ => (workspaceId, secretId)
  | .resolveSecretForUse args => (args.workspaceId, args.secretId)
  | .metadata workspaceId secretId _ => (workspaceId, secretId)

/-- The versions a reply reports. -/
def Reply.versions : Reply → List SecretMetadata
  | .metadata found => [found]
  | .revoked found => found
  | .generated key => [key.metadata]
  | .resolved secret => [secret.metadata]

section

variable {suite : CryptoSuite} {env : Env suite} {master : MasterKey} {before after : Tables}
variable {operation : Operation} {reply : Reply} {log : List Encryption} {row : VersionRow}

theorem metadataFromRow_address {metadata : SecretMetadata}
    (hmetadata : metadataFromRow row = .ok metadata) : metadata.address = row.address := by
  have hdescribes := metadataFromRow_describes hmetadata
  rw [SecretMetadata.address, VersionRow.address, hdescribes.workspaceId, hdescribes.secretId]

theorem Revokes.address {revokedAt : String} {revoked : SecretMetadata} {log' : List Encryption}
    (hrevokes : Revokes env master row revokedAt before log revoked after log') :
    revoked.address = row.address := by
  cases hrevokes with
  | intro hmetadata =>
      have haddress := metadataFromRow_address hmetadata
      exact haddress

theorem RevokesEach.address {address : String × String} {revokedAt : String}
    {rows : List VersionRow} {revoked : List SecretMetadata} {log' : List Encryption}
    (heach : RevokesEach env master revokedAt rows before log revoked after log')
    (hrows : ∀ row ∈ rows, row.address = address) :
    ∀ metadata ∈ revoked, metadata.address = address := by
  induction heach with
  | nil =>
      intro metadata hmetadata
      cases hmetadata
  | @kept row rows _ _ _ _ metadata revoked hmetadata _ _ ih =>
      intro found hfound
      rcases List.mem_cons.mp hfound with rfl | hrest
      · exact (metadataFromRow_address hmetadata).trans (hrows row List.mem_cons_self)
      · exact ih (fun other hother => hrows other (List.mem_cons_of_mem row hother)) found hrest
  | @changed row rows _ _ _ _ _ _ metadata changed revoked _ _ hrevokes _ ih =>
      intro found hfound
      rcases List.mem_cons.mp hfound with rfl | hrest
      · exact hrevokes.address.trans (hrows row List.mem_cons_self)
      · exact ih (fun other hother => hrows other (List.mem_cons_of_mem row hother)) found hrest

theorem selectVersion_address {tables : Tables} {workspaceId secretId versionId : String}
    (hrow : tables.selectVersion workspaceId secretId versionId = some row) :
    row.address = (workspaceId, secretId) := by
  have hkey := (Tables.selectVersion_eq_some hrow).2
  rw [VersionRow.key, Prod.mk.injEq, Prod.mk.injEq] at hkey
  rw [VersionRow.address, hkey.1, hkey.2.1]

/-- A call reports versions of the secret it is about. -/
theorem Performs.address (hperforms : Performs env master before operation reply after log) :
    ∀ metadata ∈ reply.versions, metadata.address = operation.address := by
  have hone : ∀ {found : SecretMetadata} {address : String × String}, found.address = address →
      ∀ metadata ∈ [found], metadata.address = address := by
    intro found address haddress metadata hmetadata
    rw [List.mem_singleton.mp hmetadata]
    exact haddress
  have hresolved : ∀ {row : VersionRow} {intent : Option String} {secret : ResolvedSecret},
      resolveRow suite master row intent = .ok secret → secret.metadata.address = row.address :=
    fun hresolve => metadataFromRow_address (resolveRow_eq_ok.mp hresolve).1
  cases hperforms with
  | created hinsert =>
      cases hinsert
      exact hone rfl
  | rotated _ _ _ hinsert =>
      cases hinsert
      exact hone rfl
  | @revoked workspaceId secretId _ _ _ _ hrevokes =>
      apply hrevokes.address
      intro row hrow
      rw [Tables.allVersions, List.mem_insertionSort, List.mem_filter] at hrow
      exact of_decide_eq_true hrow.2
  | revokedVersion _ _ hrow _ _ _ hrevokes =>
      exact hone (hrevokes.address.trans (selectVersion_address hrow))
  | revocationReplayed _ _ hrow hmetadata =>
      exact hone ((metadataFromRow_address hmetadata).trans (selectVersion_address hrow))
  | generated _ _ _ hinsert =>
      cases hinsert
      exact hone rfl
  | @generationReplayed args existing _ _ _ hexisting hagrees hrow hkey =>
      have haddress := selectVersion_address hrow
      have hworkspace : existing.workspaceId = args.workspaceId :=
        congrArg Prod.fst (KeyedRows.key_of_find hexisting)
      rw [hworkspace, hagrees.1] at haddress
      exact hone ((metadataFromRow_address (regenerated_eq_ok.mp hkey).1.reads).trans haddress)
  | resolved hrow hresolve => exact hone ((hresolved hresolve).trans (selectRow_eq_some hrow).2)
  | selected _ _ _ _ _ hrow hresolve =>
      exact hone ((hresolved hresolve).trans (selectVersion_address hrow))
  | reselected _ _ hrow hresolve =>
      exact hone ((hresolved hresolve).trans (selectVersion_address hrow))
  | described hrow hmetadata =>
      exact hone ((metadataFromRow_address hmetadata).trans (selectRow_eq_some hrow).2)

/-- An exact revocation reports the version it was asked for. -/
theorem Performs.exactVersion {args : RevokeSecretVersion} {metadata : SecretMetadata}
    (hperforms : Performs env master before (.revokeSecretVersion args) (.metadata metadata) after
      log) : metadata.versionId = args.versionId := by
  have hversion : ∀ {row : VersionRow} {found : SecretMetadata},
      before.selectVersion args.workspaceId args.secretId args.versionId = some row →
        metadataFromRow row = .ok found → found.versionId = args.versionId := by
    intro row found hrow hfound
    have hkey := (Tables.selectVersion_eq_some hrow).2
    rw [VersionRow.key, Prod.mk.injEq, Prod.mk.injEq] at hkey
    exact (metadataFromRow_describes hfound).versionId.trans hkey.2.2
  cases hperforms with
  | revokedVersion _ _ hrow _ _ _ hrevokes =>
      cases hrevokes with
      | intro hmetadata =>
          have hfound := hversion hrow hmetadata
          exact hfound
  | revocationReplayed _ _ hrow hmetadata => exact hversion hrow hmetadata

/-- The records a store call appends itself, for its operation and reply. -/
inductive OwnRecords (env : Env suite) : Operation → Reply → List AuditRecord → Prop
  | none {operation : Operation} {reply : Reply} (hunaudited : operation.audited = false) :
      OwnRecords env operation reply []
  | revoked {args : RevokeSecretVersion} {metadata : SecretMetadata} :
      OwnRecords env (.revokeSecretVersion args) (.metadata metadata)
        [revocationRecord suite env args metadata "revoked" "secret-version-revoked"]
  | revocationReplayed {args : RevokeSecretVersion} {metadata : SecretMetadata} :
      OwnRecords env (.revokeSecretVersion args) (.metadata metadata)
        [revocationRecord suite env args metadata "replayed" "secret-version-revocation-replayed"]
  | generated {args : GenerateDelegationKey} {key : GeneratedDelegationKey}
      (hfresh : key.replayed = false) :
      OwnRecords env (.generateDelegationKey args) (.generated key)
        [generationRecord suite env args key.metadata.versionId args.intent "generated"
          "delegation-key-generated"]
  | generationReplayed {args : GenerateDelegationKey} {key : GeneratedDelegationKey}
      (hreplayed : key.replayed = true) :
      OwnRecords env (.generateDelegationKey args) (.generated key)
        [generationRecord suite env args key.metadata.versionId args.intent "replayed"
          "delegation-key-generation-replayed"]

theorem Performs.ownRecords (hperforms : Performs env master before operation reply after log) :
    ∃ own, after.auditRecords = before.auditRecords ++ own ∧ OwnRecords env operation reply own := by
  have hnone : ∀ {operation : Operation} {reply : Reply} {tables : Tables},
      tables.auditRecords = before.auditRecords → operation.audited = false →
        ∃ own, tables.auditRecords = before.auditRecords ++ own ∧
          OwnRecords env operation reply own :=
    fun hsame hunaudited => ⟨[], by rw [hsame, List.append_nil], .none hunaudited⟩
  cases hperforms with
  | created hinsert => exact hnone hinsert.others.2.2.2 rfl
  | rotated _ _ _ hinsert => exact hnone hinsert.others.2.2.2 rfl
  | revoked _ hrevokes => exact hnone hrevokes.others.2.2.2 rfl
  | revokedVersion _ _ _ _ _ _ hrevokes =>
      exact ⟨_, by rw [hrevokes.others.2.2.2], .revoked⟩
  | revocationReplayed => exact ⟨_, rfl, .revocationReplayed⟩
  | generated _ _ _ hinsert =>
      exact ⟨_, by rw [hinsert.others.2.2.2], .generated rfl⟩
  | generationReplayed _ _ _ _ hkey =>
      exact ⟨_, rfl, .generationReplayed (regenerated_eq_ok.mp hkey).2⟩
  | resolved => exact hnone rfl rfl
  | selected => exact hnone rfl rfl
  | reselected => exact hnone rfl rfl
  | described => exact hnone rfl rfl

end

/-! ### What a handler appends -/

/-- The records between two databases, the later of which extends the earlier. -/
def appended (before after : Tables) : List AuditRecord :=
  after.auditRecords.drop before.auditRecords.length

/-- The records the steps of one task appended. -/
def auditRows (steps : List (Tables × Tables)) : List AuditRecord :=
  steps.flatMap fun step => appended step.1 step.2

theorem appended_of_eq {before after : Tables} {records : List AuditRecord}
    (hafter : after.auditRecords = before.auditRecords ++ records) :
    appended before after = records := by
  rw [appended, hafter, List.drop_left]

theorem auditRows_append {own : List (Tables × Tables)} {before after : Tables}
    {records : List AuditRecord} (hafter : after.auditRecords = before.auditRecords ++ records) :
    auditRows (own ++ [(before, after)]) = auditRows own ++ records := by
  rw [auditRows, List.flatMap_append, List.flatMap_singleton, appended_of_eq hafter]
  rfl

theorem auditRows_idle (own : List (Tables × Tables)) (tables : Tables) :
    auditRows (own ++ [(tables, tables)]) = auditRows own := by
  have hidle : tables.auditRecords = tables.auditRecords ++ [] := (List.append_nil _).symm
  rw [auditRows_append hidle, List.append_nil]

/-- How a handler ends, by the rows it appended. -/
abbrev Logs {α : Type} (inv : Tables → Prop) (handler : Handler α) (rows : List AuditRecord)
    (returns : α → List AuditRecord → Prop) (raises : Fault → List AuditRecord → Prop) : Prop :=
  Settles auditRows inv handler rows returns raises

section

variable {suite : CryptoSuite} {provider : Provider} {env : RequestEnv suite} {α β : Type}
variable {inv : Tables → Prop} {rows : List AuditRecord} {handler : Handler α}
variable {returns : α → List AuditRecord → Prop} {raises : Fault → List AuditRecord → Prop}

/-- A store call appends its own records, or none when it raises. -/
theorem logs_call (call : Call suite) {program : Tx Tables α} {change : α → Reply}
    (hprogram : call.program = change <$> program)
    (hreturns : ∀ tables value after log own, inv tables →
      Performs call.env call.master tables call.operation (change value) after log →
      OwnRecords call.env call.operation (change value) own → returns value (rows ++ own))
    (hraises : ∀ tables raised, inv tables →
      Refuses call.env call.master tables call.operation raised → raises (.raised raised) rows) :
    Logs inv (transact program) rows returns raises := by
  apply settles_call call hprogram
  · rintro steps tables value after log rfl hinv hperforms
    obtain ⟨own, hafter, hown⟩ := hperforms.ownRecords
    rw [auditRows_append hafter]
    exact hreturns tables value after log own hinv hperforms hown
  · rintro steps tables raised rfl hinv hrefuses
    rw [auditRows_idle]
    exact hraises tables raised hinv hrefuses

/-- An audit append adds its row, or becomes a 503 and adds none. -/
theorem logs_appendAudit {fields : AuditFields} {outcome code : String}
    {returns : Unit → List AuditRecord → Prop}
    (hreturns : ∀ draws : Env suite,
      returns () (rows ++ [auditRow provider draws fields outcome code]))
    (hraises : raises (.http 503 "unavailable" "audit-unavailable") rows) :
    Logs inv (appendAudit suite provider env fields outcome code) rows returns raises := by
  apply settles_appendAudit
  · rintro steps draws before after rfl hadded
    rw [auditRows_append (congrArg Tables.auditRecords hadded.1)]
    exact hreturns draws
  · rintro steps tables rfl
    rwa [auditRows_idle]

/-- A check that is audited when it fails. -/
theorem logs_audited {fields : AuditFields} {outcome code : String} {check : Except Fault α}
    (hreturns : ∀ value, check = .ok value → returns value rows)
    (haudited : ∀ status outcome' code' (draws : Env suite),
      check = .error (.http status outcome' code') → raises (.http status outcome' code')
        (rows ++ [auditRow provider draws fields outcome code]))
    (hunavailable : raises (.http 503 "unavailable" "audit-unavailable") rows)
    (hraised : ∀ raised, check = .error (.raised raised) → raises (.raised raised) rows) :
    Logs inv (audited suite provider env fields outcome code check) rows returns raises := by
  apply settles_auditing hreturns _ hraised
  intro status outcome' code' hfault
  exact logs_appendAudit (fun draws => haudited status outcome' code' draws hfault) hunavailable

/-- The clause that catches an exception audits it, or it leaves as it was. -/
theorem logs_catching {fields : AuditFields} {clauses : List Clause}
    (hlogs : Logs inv handler rows returns fun fault rows' =>
      match fault with
      | .http status outcome code => raises (.http status outcome code) rows'
      | .raised raised =>
          match clauses.find? fun clause => clause.caught = raised with
          | none => raises (.raised raised) rows'
          | some clause =>
              if clause.audits then
                (∀ draws : Env suite, raises (.http clause.status clause.outcome clause.code)
                  (rows' ++ [auditRow provider draws fields clause.outcome clause.code])) ∧
                  raises (.http 503 "unavailable" "audit-unavailable") rows'
              else raises (.http clause.status clause.outcome clause.code) rows') :
    Logs inv (catching suite provider env fields clauses handler) rows returns raises := by
  apply settles_tryCatch
  apply hlogs.mono (fun _ _ hends => hends)
  intro fault rows' hends
  cases fault with
  | http status outcome code => exact settles_throw hends
  | raised raised =>
      dsimp only at hends ⊢
      cases hfind : clauses.find? fun clause => clause.caught = raised with
      | none =>
          rw [hfind] at hends
          exact settles_throw hends
      | some clause =>
          rw [hfind] at hends
          dsimp only at hends ⊢
          unfold Clause.raise
          split
          · next haudits =>
              rw [if_pos haudits] at hends
              apply Settles.bind
              apply logs_appendAudit _ hends.2
              intro draws
              exact settles_throw (hends.1 draws)
          · next haudits =>
              rw [if_neg haudits] at hends
              exact settles_throw hends

end

/-! ### What a success reports -/

def Request.secretId : Request → String
  | .write _ _ secretId _ => secretId
  | .generate _ _ secretId _ => secretId
  | .rotate _ _ secretId _ => secretId
  | .resolve _ _ secretId _ => secretId
  | .resolveUnencodable _ _ secretId _ _ => secretId
  | .revokeVersion _ _ secretId _ _ => secretId
  | .revoke _ _ secretId _ => secretId
  | .readMetadata _ _ secretId _ => secretId

/-- The caller a handler derives: the one the request names, or else the client. -/
def Request.callerSubject (client : ProviderCredential) : Request → String
  | .write _ _ _ body => orDefault body.callerSubject client.subject
  | .generate _ _ _ body => body.callerSubject
  | .rotate _ _ _ body => orDefault body.callerSubject client.subject
  | .resolve _ _ _ body => body.callerSubject
  | .resolveUnencodable _ _ _ body _ => body.callerSubject
  | .revokeVersion _ _ _ _ body => body.callerSubject
  | .revoke _ _ _ body => (body.bind SecretRevokeRequest.callerSubject).getD client.subject
  | .readMetadata _ _ _ _ => client.subject

/-- The correlation a handler derives. -/
def Request.correlationId : Request → String
  | .write _ _ _ body => orDefault body.correlationId "not-provided"
  | .generate _ _ _ body => body.correlationId
  | .rotate _ _ _ body => orDefault body.correlationId "not-provided"
  | .resolve _ _ _ body => body.correlationId
  | .resolveUnencodable _ _ _ body _ => body.correlationId
  | .revokeVersion _ _ _ _ body => body.correlationId
  | .revoke _ _ _ body => (body.bind SecretRevokeRequest.correlationId).getD "not-provided"
  | .readMetadata _ _ _ _ => "not-provided"

/-- The versions an answer reports. -/
def Body.versions : Body → List MetadataResponse
  | .stored found => [found]
  | .generated _ found _ _ _ _ _ _ _ _ => [found]
  | .rotated found => [found]
  | .resolved found _ => [found]
  | .revoked found => [found]
  | .allRevoked found => found
  | .metadata found => [found]

/-- The outcome and the code under which an answer is audited. -/
inductive Reported : Body → String → String → Prop
  | stored {found : MetadataResponse} : Reported (.stored found) "stored" "secret-stored"
  | generated {reference purpose issuer correlationId keyId algorithm pem fingerprint : String}
      {found : MetadataResponse} :
      Reported (.generated reference found purpose issuer correlationId keyId algorithm pem
        fingerprint false) "generated" "delegation-key-generated"
  | generationReplayed
      {reference purpose issuer correlationId keyId algorithm pem fingerprint : String}
      {found : MetadataResponse} :
      Reported (.generated reference found purpose issuer correlationId keyId algorithm pem
        fingerprint true) "replayed" "delegation-key-generation-replayed"
  | rotated {found : MetadataResponse} : Reported (.rotated found) "rotated" "secret-rotated"
  | resolved {found : MetadataResponse} {valueBase64 : String} :
      Reported (.resolved found valueBase64) "resolved" "secret-resolved"
  | revoked {found : MetadataResponse} :
      Reported (.revoked found) "revoked" "secret-version-revoked"
  | revocationReplayed {found : MetadataResponse} :
      Reported (.revoked found) "replayed" "secret-version-revocation-replayed"
  | allRevoked {found : List MetadataResponse} :
      Reported (.allRevoked found) "revoked" "secret-revoked"
  | metadata {found : MetadataResponse} : Reported (.metadata found) "metadata" "metadata-read"

/-- The row reports the version, with what the handler of the request derived. -/
structure Accounts (request : Request) (client : ProviderCredential) (body : Body)
    (found : MetadataResponse) (record : AuditRecord) : Prop where
  workspaceId : record.workspaceId = request.workspaceId
  secretId : record.secretId = request.secretId
  versionId : record.versionId = some found.versionId
  ownWorkspace : found.workspaceId = request.workspaceId
  ownSecret : found.secretId = request.secretId
  callerSubject : record.callerSubject = request.callerSubject client
  correlationId : record.correlationId = request.correlationId
  reported : Reported body record.outcome record.code

/-- The client of the request is authenticated, and the rows report the versions of the
answer one by one. -/
def Succeeded (provider : Provider) (request : Request) (body : Body)
    (rows : List AuditRecord) : Prop :=
  ∃ client, authenticate provider.credentials request.authorization = .ok client ∧
    List.Forall₂ (Accounts request client body) body.versions rows

section

variable {suite : CryptoSuite} {provider : Provider} {env : RequestEnv suite}
variable {inv : Tables → Prop} {rows : List AuditRecord}

theorem accounted {request : Request} {client : ProviderCredential} {body : Body}
    (fields : AuditFields) {metadata : SecretMetadata} {outcome code : String}
    (haddress : metadata.address = (request.workspaceId, request.secretId))
    (hworkspace : fields.workspaceId = request.workspaceId)
    (hsecret : fields.secretId = request.secretId)
    (hversion : fields.versionId = some metadata.versionId)
    (hcaller : fields.callerSubject = request.callerSubject client)
    (hcorrelation : fields.correlationId = request.correlationId)
    (hreported : Reported body outcome code) (draws : Env suite) :
    Accounts request client body (metadataResponse metadata)
      (auditRow provider draws fields outcome code) where
  workspaceId := hworkspace
  secretId := hsecret
  versionId := hversion
  ownWorkspace := congrArg Prod.fst haddress
  ownSecret := congrArg Prod.snd haddress
  callerSubject := hcaller
  correlationId := hcorrelation
  reported := hreported

/-! ### The handlers -/

theorem admitValue_logs {action workspaceId : String} {request : SecretWriteRequest}
    {client : ProviderCredential} {fields : AuditFields}
    {returns : TextDict → List AuditRecord → Prop} (hreturns : ∀ labels, returns labels rows) :
    Logs inv (Api.admitValue suite provider env action workspaceId request client fields) rows
      returns fun _ _ => True := by
  apply Settles.bind
  apply settles_audited
  intro _ _
  apply Settles.bind
  apply settles_audited
  intro _ _
  apply settles_audited
  intro labels _
  exact hreturns labels

theorem writeSecret_logs (authorization : Option String) (workspaceId secretId : String)
    (request : SecretWriteRequest) (client : ProviderCredential) :
    Logs inv (Api.writeSecret suite provider env workspaceId secretId request client) []
      (fun body => List.Forall₂
        (Accounts (.write authorization workspaceId secretId request) client body) body.versions)
      fun _ _ => True := by
  apply Settles.bind
  apply admitValue_logs
  intro labels
  apply Settles.bind
  apply settles_check _ fun _ _ => trivial
  intro value _
  apply settles_caught
  apply Settles.bind
  apply logs_call ⟨.createSecret workspaceId secretId value labels, provider.master, env.store⟩
    rfl _ fun _ _ _ _ => trivial
  intro tables metadata after log own _ hperforms hown
  cases hown
  have haddress : metadata.address = (workspaceId, secretId) :=
    hperforms.address metadata List.mem_cons_self
  apply Settles.bind
  apply logs_appendAudit _ trivial
  intro draws
  exact settles_pure (.cons (accounted _ haddress rfl rfl rfl rfl rfl .stored draws) .nil)

theorem rotateSecret_logs (authorization : Option String) (workspaceId secretId : String)
    (request : SecretRotateRequest) (client : ProviderCredential) :
    Logs inv (Api.rotateSecret suite provider env workspaceId secretId request client) []
      (fun body => List.Forall₂
        (Accounts (.rotate authorization workspaceId secretId request) client body) body.versions)
      fun _ _ => True := by
  apply Settles.bind
  apply admitValue_logs
  intro labels
  apply Settles.bind
  apply settles_check _ fun _ _ => trivial
  intro value _
  apply settles_caught
  apply Settles.bind
  apply logs_call ⟨.rotateSecret workspaceId secretId value labels (some request.intent),
    provider.master, env.store⟩ rfl _ fun _ _ _ _ => trivial
  intro tables metadata after log own _ hperforms hown
  cases hown
  have haddress : metadata.address = (workspaceId, secretId) :=
    hperforms.address metadata List.mem_cons_self
  apply Settles.bind
  apply logs_appendAudit _ trivial
  intro draws
  exact settles_pure (.cons (accounted _ haddress rfl rfl rfl rfl rfl .rotated draws) .nil)

theorem readMetadata_logs (authorization : Option String) (workspaceId secretId : String)
    (versionId : Option String) (client : ProviderCredential) :
    Logs inv (Api.readMetadata suite provider env workspaceId secretId versionId client) []
      (fun body => List.Forall₂
        (Accounts (.readMetadata authorization workspaceId secretId versionId) client body)
        body.versions) fun _ _ => True := by
  apply Settles.bind
  apply settles_check _ fun _ _ => trivial
  intro _ _
  apply settles_caught
  apply Settles.bind
  apply logs_call ⟨.metadata workspaceId secretId versionId, provider.master, env.store⟩
    rfl _ fun _ _ _ _ => trivial
  intro tables metadata after log own _ hperforms hown
  cases hown
  have haddress : metadata.address = (workspaceId, secretId) :=
    hperforms.address metadata List.mem_cons_self
  apply Settles.bind
  apply logs_appendAudit _ trivial
  intro draws
  exact settles_pure (.cons (accounted _ haddress rfl rfl rfl rfl rfl .metadata draws) .nil)

theorem auditRevoked_logs {request : Request} {client : ProviderCredential} {body : Body}
    {fields : AuditFields} (hworkspace : fields.workspaceId = request.workspaceId)
    (hsecret : fields.secretId = request.secretId)
    (hcaller : fields.callerSubject = request.callerSubject client)
    (hcorrelation : fields.correlationId = request.correlationId)
    (hreported : Reported body "revoked" "secret-revoked") {revoked : List SecretMetadata}
    (haddress : ∀ metadata ∈ revoked, metadata.address = (request.workspaceId, request.secretId)) :
    Logs inv (Api.auditRevoked suite provider env fields revoked) rows
      (fun _ rows' => ∃ added, rows' = rows ++ added ∧
        List.Forall₂ (Accounts request client body) (revoked.map metadataResponse) added)
      fun _ _ => True := by
  induction revoked generalizing rows with
  | nil => exact settles_pure ⟨[], (List.append_nil rows).symm, .nil⟩
  | cons metadata rest ih =>
      apply Settles.bind
      apply settles_check _ fun _ _ => trivial
      intro intent _
      apply Settles.bind
      apply logs_appendAudit _ trivial
      intro draws
      have hrest := fun other hother => haddress other (List.mem_cons_of_mem metadata hother)
      apply (ih hrest).mono _ fun _ _ hends => hends
      rintro _ _ ⟨added, rfl, hadded⟩
      have hrow : Accounts request client body (metadataResponse metadata)
          (auditRow provider draws
            { fields with versionId := some metadata.versionId, intent := intent }
            "revoked" "secret-revoked") :=
        accounted { fields with versionId := some metadata.versionId, intent := intent }
          (haddress metadata List.mem_cons_self) hworkspace hsecret rfl hcaller hcorrelation
          hreported draws
      exact ⟨_, List.append_assoc _ _ _, .cons hrow hadded⟩

theorem revokeSecret_logs (authorization : Option String) (workspaceId secretId : String)
    (request : Option SecretRevokeRequest) (client : ProviderCredential) :
    Logs inv (Api.revokeSecret suite provider env workspaceId secretId request client) []
      (fun body => List.Forall₂
        (Accounts (.revoke authorization workspaceId secretId request) client body) body.versions)
      fun _ _ => True := by
  apply Settles.bind
  apply settles_check _ fun _ _ => trivial
  intro _ _
  apply settles_caught
  apply Settles.bind
  apply logs_call ⟨.revokeSecret workspaceId secretId, provider.master, env.store⟩
    rfl _ fun _ _ _ _ => trivial
  intro tables revoked after log own _ hperforms hown
  cases hown
  have haddress : ∀ metadata ∈ revoked, metadata.address = (workspaceId, secretId) :=
    hperforms.address
  apply Settles.bind
  have hrows : Logs inv (Api.auditRevoked suite provider env
      (Api.revokeFields workspaceId secretId request client) revoked) []
      (fun _ rows' => ∃ added, rows' = [] ++ added ∧
        List.Forall₂ (Accounts (.revoke authorization workspaceId secretId request) client
          (.allRevoked (revoked.map metadataResponse))) (revoked.map metadataResponse) added)
      fun _ _ => True :=
    auditRevoked_logs rfl rfl rfl rfl .allRevoked haddress
  apply hrows.mono _ fun _ _ hends => hends
  rintro _ _ ⟨added, rfl, hadded⟩
  exact settles_pure hadded

theorem revokeSecretVersion_logs (authorization : Option String)
    (workspaceId secretId versionId : String) (request : SecretVersionRevokeRequest)
    (client : ProviderCredential) :
    Logs inv
      (Api.revokeSecretVersion suite provider env workspaceId secretId versionId request client) []
      (fun body => List.Forall₂
        (Accounts (.revokeVersion authorization workspaceId secretId versionId request) client body)
        body.versions) fun _ _ => True := by
  apply Settles.bind
  apply settles_check _ fun _ _ => trivial
  intro _ _
  apply settles_caught
  apply Settles.bind
  apply logs_call ⟨.revokeSecretVersion _, provider.master, env.store⟩ rfl _ fun _ _ _ _ => trivial
  intro tables metadata after log own _ hperforms hown
  have haddress : metadata.address = (workspaceId, secretId) :=
    hperforms.address metadata List.mem_cons_self
  have hversion : some versionId = some metadata.versionId :=
    congrArg some hperforms.exactVersion.symm
  apply settles_pure
  cases hown with
  | none hunaudited => cases hunaudited
  | revoked =>
      exact .cons ⟨rfl, rfl, hversion, congrArg Prod.fst haddress, congrArg Prod.snd haddress,
        rfl, rfl, .revoked⟩ .nil
  | revocationReplayed =>
      exact .cons ⟨rfl, rfl, hversion, congrArg Prod.fst haddress, congrArg Prod.snd haddress,
        rfl, rfl, .revocationReplayed⟩ .nil

theorem generateDelegationKey_logs (authorization : Option String) (workspaceId secretId : String)
    (request : DelegationKeyGenerateRequest) (client : ProviderCredential) :
    Logs inv (Api.generateDelegationKey suite provider env workspaceId secretId request client) []
      (fun body => List.Forall₂
        (Accounts (.generate authorization workspaceId secretId request) client body)
        body.versions) fun _ _ => True := by
  have hrefuse : ∀ fields returns, Logs inv
      (do
        appendAudit suite provider env fields "malformed" "invalid-delegation-key-generation"
        throw (.http 400 "malformed" "invalid-delegation-key-generation") : Handler Body) []
      returns fun _ _ => True := by
    intro fields returns
    apply Settles.bind
    apply logs_appendAudit _ trivial
    exact fun _ => settles_throw trivial
  unfold Api.generateDelegationKey
  split
  · exact hrefuse _ _
  · apply Settles.bind
    apply settles_check _ fun _ _ => trivial
    intro valid _
    split
    · exact hrefuse _ _
    · apply Settles.bind
      apply settles_audited
      intro _ _
      apply settles_caught
      apply Settles.bind
      apply logs_call ⟨.generateDelegationKey _, provider.master, env.store⟩ rfl _
        fun _ _ _ _ => trivial
      intro tables key after log own _ hperforms hown
      have haddress : key.metadata.address = (workspaceId, secretId) :=
        hperforms.address key.metadata List.mem_cons_self
      apply settles_check _ fun _ _ => trivial
      intro body hbody
      unfold Api.generatedBody at hbody
      split at hbody
      · cases hbody
      · cases hbody
        cases hown with
        | none hunaudited => cases hunaudited
        | generated hfresh =>
            rw [hfresh]
            exact .cons ⟨rfl, rfl, rfl, congrArg Prod.fst haddress, congrArg Prod.snd haddress,
              rfl, rfl, .generated⟩ .nil
        | generationReplayed hreplayed =>
            rw [hreplayed]
            exact .cons ⟨rfl, rfl, rfl, congrArg Prod.fst haddress, congrArg Prod.snd haddress,
              rfl, rfl, .generationReplayed⟩ .nil

/-! ### Resolutions -/

/-- The row is of the request. -/
structure Names (request : Request) (record : AuditRecord) : Prop where
  workspaceId : record.workspaceId = request.workspaceId
  secretId : record.secretId = request.secretId
  correlationId : record.correlationId = request.correlationId

/-- A resolution left one row, whose outcome and code describe its response, or none, and
then its response is a 503 without material. -/
inductive Answered (request : Request) : Response → List AuditRecord → Prop
  | resolved {found : MetadataResponse} {valueBase64 : String} {record : AuditRecord}
      (hnames : Names request record) (houtcome : record.outcome = "resolved")
      (hcode : record.code = "secret-resolved") (hversion : record.versionId = some found.versionId) :
      Answered request (.ok (.resolved found valueBase64)) [record]
  | refused {status : Nat} {record : AuditRecord} (hnames : Names request record) :
      Answered request (.refused status record.outcome record.code) [record]
  | unavailable : Answered request (.refused 503 "unavailable" "audit-unavailable") []

/-- The header authenticates, or is refused as an exception the handler declares. -/
def Recognised (provider : Provider) (authorization : Option String) : Prop :=
  (∃ client, authenticate provider.credentials authorization = .ok client) ∨
    authenticate provider.credentials authorization = .error .providerAuthenticationError

/-- How a row that an honest run left fails to decrypt. -/
theorem decryptRow_sealed {master : MasterKey} {encryption : Encryption} {row : VersionRow}
    {metadata : SecretMetadata} (hseals : Seals suite encryption row metadata) {raised : Raised}
    (hraised : decryptRow suite master row = .error raised) : raised = .secretTampered := by
  unfold decryptRow at hraised
  rw [hseals.nonce, hseals.ciphertext] at hraised
  simp only [bind_eq_error, raiseIf_eq_error, hseals.reads, SqlValue.bytes] at hraised
  rcases hraised with ⟨⟨⟩⟩ | ⟨_, _, halgorithm | ⟨_, _, hfingerprint | ⟨_, _, hbytes⟩⟩⟩
  · exact halgorithm.2
  · exact hfingerprint.2
  · rcases hbytes with ⟨⟨⟩⟩ | ⟨_, _, ⟨⟨⟩⟩ | ⟨_, _, ⟨hdeep, _⟩ | ⟨_, _, hdecrypt⟩⟩⟩
    · rw [hseals.shallow] at hdeep
      cases hdeep
    split at hdecrypt
    · cases hdecrypt
      rfl
    · cases hdecrypt

/-- The exceptions a resolution raises on a row that an honest run left. -/
theorem resolveRow_sealed {master : MasterKey} {encryption : Encryption} {row : VersionRow}
    {metadata : SecretMetadata} (hseals : Seals suite encryption row metadata)
    {intent : Option String} {raised : Raised}
    (hraised : resolveRow suite master row intent = .error raised) :
    raised ∈ [.secretRevoked, .secretIntentMismatch, .secretTampered] := by
  rcases resolveRow_eq_error.mp hraised with hmetadata |
    ⟨_, _, ⟨_, rfl⟩ | ⟨_, ⟨_, rfl⟩ | ⟨_, hdecrypt⟩⟩⟩
  · rw [hseals.reads] at hmetadata
    cases hmetadata
  · simp
  · simp
  · rw [decryptRow_sealed hseals hdecrypt]
    simp

/-- The exceptions a resolution raises on a database that an honest run left. -/
theorem Refuses.resolution {env : Env suite} {master : MasterKey} {tables : Tables}
    {args : ResolveSecretForUse} {raised : Raised}
    (hrefuses : Refuses env master tables (.resolveSecretForUse args) raised)
    (hsealed : Sealed suite tables) (hfaultless : env.Faultless) :
    raised ∈ [.secretMissing, .secretResolutionConflict, .secretRevoked, .secretIntentMismatch,
      .secretTampered] := by
  have hrow : ∀ {row : VersionRow}, row ∈ tables.versions →
      resolveRow suite master row (some args.intent) = .error raised →
      raised ∈ [.secretMissing, .secretResolutionConflict, .secretRevoked, .secretIntentMismatch,
        .secretTampered] := by
    intro row hstored hraised
    obtain ⟨encryption, metadata, hseals⟩ := hsealed row hstored
    have hlisted := resolveRow_sealed hseals hraised
    exact List.mem_cons_of_mem _ (List.mem_cons_of_mem _ hlisted)
  cases hrefuses with
  | fault hfault => exact absurd hfault hfaultless.not_faults
  | selectionConflict => simp
  | selectionMissing => simp
  | selectionUnfit _ hselected hresolve => exact hrow (selectRow_eq_some hselected).1 hresolve
  | selectionRefused _ _ hrow' hresolve => exact hrow (Tables.selectVersion_eq_some hrow').1 hresolve
  | pinnedMissing => simp
  | pinnedRefused _ _ hrow' hresolve => exact hrow (Tables.selectVersion_eq_some hrow').1 hresolve

theorem resolveSecret_logs (authorization : Option String) (workspaceId secretId : String)
    (request : EncodedResolveRequest) :
    Logs inv (Api.resolveSecret suite provider env workspaceId secretId request authorization) []
      (Succeeded provider (.resolve authorization workspaceId secretId request))
      fun _ _ => True := by
  apply Settles.bind
  apply settles_audited
  intro client hclient
  apply Settles.bind
  apply settles_audited
  intro _ _
  apply Settles.bind
  apply settles_audited
  intro _ _
  apply settles_caught
  apply Settles.bind
  apply logs_call ⟨.resolveSecretForUse _, provider.master, env.store⟩ rfl _
    fun _ _ _ _ => trivial
  intro tables secret after log own _ hperforms hown
  cases hown
  have haddress : secret.metadata.address = (workspaceId, secretId) :=
    hperforms.address secret.metadata List.mem_cons_self
  apply Settles.bind
  apply logs_appendAudit _ trivial
  intro draws
  apply settles_pure
  exact ⟨client, authenticate_of_credential hclient,
    .cons (accounted _ haddress rfl rfl rfl rfl rfl .resolved draws) .nil⟩

/-- An error that is audited under its own outcome and code. -/
theorem answered_refused {request : Request} {fields : AuditFields}
    (hworkspace : fields.workspaceId = request.workspaceId)
    (hsecret : fields.secretId = request.secretId)
    (hcorrelation : fields.correlationId = request.correlationId) (status : Nat)
    (outcome code : String) (draws : Env suite) :
    Answered request (Fault.http status outcome code).response
      ([] ++ [auditRow provider draws fields outcome code]) :=
  @Answered.refused request status (auditRow provider draws fields outcome code)
    ⟨hworkspace, hsecret, hcorrelation⟩

/-- A check the resolve route audits is answered as its row says. -/
theorem logs_answered {α : Type} {request : Request} {fields : AuditFields} {outcome code : String}
    {check : Except Fault α} {returns : α → List AuditRecord → Prop}
    (hworkspace : fields.workspaceId = request.workspaceId)
    (hsecret : fields.secretId = request.secretId)
    (hcorrelation : fields.correlationId = request.correlationId)
    (hfails : ∀ fault, check = .error fault → ∃ status, fault = .http status outcome code)
    (hreturns : ∀ value, check = .ok value → returns value []) :
    Logs inv (audited suite provider env fields outcome code check) [] returns
      fun fault rows => Answered request fault.response rows := by
  apply logs_audited hreturns
  · intro status outcome' code' draws hfault
    obtain ⟨_, heq⟩ := hfails _ hfault
    cases heq
    exact answered_refused hworkspace hsecret hcorrelation _ _ _ draws
  · exact .unavailable
  · intro raised hraised
    obtain ⟨_, ⟨⟩⟩ := hfails _ hraised

theorem credential_fails {authorization : Option String}
    (hrecognised : Recognised provider authorization) {fault : Fault}
    (hfault : credential provider authorization = .error fault) :
    fault = .http 401 "denied" "unauthenticated" := by
  unfold credential at hfault
  rcases hrecognised with ⟨client, hclient⟩ | hrefused
  · rw [hclient] at hfault
    cases hfault
  · rw [hrefused] at hfault
    cases hfault
    rfl

/-- A resolve request is answered as the one row it appends says. -/
theorem resolveSecret_answered {authorization : Option String} (workspaceId secretId : String)
    (request : EncodedResolveRequest) (hrecognised : Recognised provider authorization)
    (hfaultless : env.store.Faultless) :
    Logs (Honest suite)
      (Api.resolveSecret suite provider env workspaceId secretId request authorization) []
      (fun body rows => Answered (.resolve authorization workspaceId secretId request) (.ok body) rows)
      fun fault rows =>
        Answered (.resolve authorization workspaceId secretId request) fault.response rows := by
  apply Settles.bind
  apply logs_answered rfl rfl rfl (fun _ hfault => ⟨401, credential_fails hrecognised hfault⟩)
  intro client _
  apply Settles.bind
  apply logs_answered rfl rfl rfl (fun _ hfault => ⟨400, validateIntent_fails hfault⟩)
  intro _ _
  apply Settles.bind
  apply logs_answered rfl rfl rfl (fun _ hfault => ⟨403, requireScope_fails hfault⟩)
  intro _ _
  apply logs_catching
  apply Settles.bind
  apply logs_call ⟨.resolveSecretForUse _, provider.master, env.store⟩ rfl
  · intro tables secret after log own _ _ hown
    cases hown
    apply Settles.bind
    apply logs_appendAudit
    · intro draws
      exact settles_pure (.resolved ⟨rfl, rfl, rfl⟩ rfl rfl rfl)
    · exact .unavailable
  · intro tables raised hhonest hrefuses
    have hlisted := hrefuses.resolution hhonest.2 hfaultless
    simp only [List.mem_cons, List.not_mem_nil, or_false] at hlisted
    rcases hlisted with rfl | rfl | rfl | rfl | rfl
    all_goals
      simp only [List.find?, reduceCtorEq, decide_false, decide_true, if_true]
      exact ⟨answered_refused rfl rfl rfl _ _ _, .unavailable⟩

theorem keptIdle_auditRows (kept : List AuditRecord → Prop) : KeptIdle auditRows kept := by
  intro own tables hkept
  rwa [auditRows_idle]

/-- A resolve request with a text that cannot be encoded appends no row. -/
theorem unencodable_logs {authorization : Option String} (workspaceId : String)
    (request : SecretResolveRequest) :
    Logs inv (Api.resolveUnencodable suite provider env workspaceId request authorization) []
      (fun _ _ => False)
      fun fault rows => UnencodableEnding provider env authorization fault ∧ rows = [] :=
  settles_resolveUnencodable (keptIdle_auditRows fun rows => rows = []) rfl workspaceId request

/-- Every handler that succeeds has appended the rows of its answer, and no others. -/
theorem handler_logs (request : Request) :
    Logs inv (request.handler provider env) [] (Succeeded provider request) fun _ _ => True := by
  have hcredential : ∀ {authorization : Option String} {next : ProviderCredential → Handler Body}
      {request : Request}, request.authorization = authorization →
      (∀ client, Logs inv (next client) []
        (fun body => List.Forall₂ (Accounts request client body) body.versions) fun _ _ => True) →
      Logs inv (ofExcept (credential provider authorization) >>= next) []
        (Succeeded provider request) fun _ _ => True := by
    rintro authorization next request rfl hnext
    apply Settles.bind
    apply settles_check _ fun _ _ => trivial
    intro client hclient
    apply (hnext client).mono _ fun _ _ hends => hends
    intro body rows hrows
    exact ⟨client, authenticate_of_credential hclient, hrows⟩
  cases request with
  | write authorization workspaceId secretId body =>
      exact hcredential rfl (writeSecret_logs authorization workspaceId secretId body)
  | generate authorization workspaceId secretId body =>
      exact hcredential rfl (generateDelegationKey_logs authorization workspaceId secretId body)
  | rotate authorization workspaceId secretId body =>
      exact hcredential rfl (rotateSecret_logs authorization workspaceId secretId body)
  | resolve authorization workspaceId secretId body =>
      exact resolveSecret_logs authorization workspaceId secretId body
  | resolveUnencodable authorization workspaceId secretId body hunencodable =>
      apply (unencodable_logs workspaceId body).mono _ fun _ _ _ => trivial
      exact fun _ _ hfalse => hfalse.elim
  | revokeVersion authorization workspaceId secretId versionId body =>
      exact hcredential rfl
        (revokeSecretVersion_logs authorization workspaceId secretId versionId body)
  | revoke authorization workspaceId secretId body =>
      exact hcredential rfl (revokeSecret_logs authorization workspaceId secretId body)
  | readMetadata authorization workspaceId secretId versionId =>
      exact hcredential rfl (readMetadata_logs authorization workspaceId secretId versionId)

end

/-! ### Servers -/

section

variable {suite : CryptoSuite} {provider : Provider}

/-- What the rows of one request say when it is done. -/
structure Closed (provider : Provider) (call : ApiCall suite) (result : Except Fault Body)
    (rows : List AuditRecord) : Prop where
  succeeded : ∀ body, result = .ok body → Succeeded provider call.request body rows
  answered : ∀ authorization workspaceId secretId body,
    call.request = .resolve authorization workspaceId secretId body →
      Recognised provider authorization → call.env.store.Faultless →
        Answered call.request (responseOf result) rows
  unencodable : ∀ authorization workspaceId secretId body hunencodable,
    call.request = .resolveUnencodable authorization workspaceId secretId body hunencodable →
      ∃ fault, result = .error fault ∧ UnencodableEnding provider call.env authorization fault ∧
        rows = []

theorem serve_answered (call : ApiCall suite) :
    (serve provider call).Ensures (Honest suite)
      (fun ending steps => ∀ authorization workspaceId secretId body,
        call.request = .resolve authorization workspaceId secretId body →
          Recognised provider authorization → call.env.store.Faultless →
            Answered call.request (responseOf ending.1) (auditRows steps)) [] := by
  obtain ⟨env, request⟩ := call
  by_cases hresolve : ∃ authorization workspaceId secretId body,
      request = .resolve authorization workspaceId secretId body ∧
        Recognised provider authorization ∧ env.store.Faultless
  · obtain ⟨authorization, workspaceId, secretId, body, rfl, hrecognised, hfaultless⟩ := hresolve
    have hanswers : (serve provider ⟨env, .resolve authorization workspaceId secretId body⟩).Ensures
        (Honest suite) _ [] :=
      resolveSecret_answered workspaceId secretId body hrecognised hfaultless 0 [] rfl
    apply hanswers.mono
    rintro ⟨result, count⟩ steps hanswered _ _ _ _ _ _ _
    cases result with
    | error fault => exact hanswered
    | ok found => exact hanswered
  · apply (Script.ensures_true _).mono
    intro _ _ _ authorization workspaceId secretId body hrequest hrecognised hfaultless
    exact absurd ⟨authorization, workspaceId, secretId, body, hrequest, hrecognised, hfaultless⟩
      hresolve

theorem serve_unencodable (call : ApiCall suite) :
    (serve provider call).Ensures (Honest suite)
      (fun ending steps => ∀ authorization workspaceId secretId body hunencodable,
        call.request = .resolveUnencodable authorization workspaceId secretId body hunencodable →
          ∃ fault, ending.1 = .error fault ∧
            UnencodableEnding provider call.env authorization fault ∧ auditRows steps = []) [] := by
  obtain ⟨env, request⟩ := call
  by_cases hresolve : ∃ authorization workspaceId secretId body hunencodable,
      request = .resolveUnencodable authorization workspaceId secretId body hunencodable
  · obtain ⟨authorization, workspaceId, secretId, body, hunencodable, rfl⟩ := hresolve
    have hends : (serve provider
        ⟨env, .resolveUnencodable authorization workspaceId secretId body hunencodable⟩).Ensures
        (Honest suite) _ [] := unencodable_logs workspaceId body 0 [] rfl
    apply hends.mono
    rintro ⟨result, count⟩ steps hended _ _ _ _ _ hrequest
    cases hrequest
    cases result with
    | error fault => exact ⟨fault, rfl, hended⟩
    | ok found => exact hended.elim
  · apply (Script.ensures_true _).mono
    intro _ _ _ authorization workspaceId secretId body hunencodable hrequest
    exact absurd ⟨authorization, workspaceId, secretId, body, hunencodable, hrequest⟩ hresolve

theorem serve_closed (call : ApiCall suite) :
    (serve provider call).Ensures (Honest suite)
      (fun ending steps => Closed provider call ending.1 (auditRows steps)) [] := by
  have hsucceeds : (serve provider call).Ensures (Honest suite) _ [] :=
    handler_logs call.request 0 [] rfl
  apply ((hsucceeds.and (serve_answered call)).and (serve_unencodable call)).mono
  rintro ⟨result, count⟩ steps ⟨⟨hsucceeded, hanswered⟩, hunencodable⟩
  refine ⟨?_, hanswered, hunencodable⟩
  rintro found rfl
  exact hsucceeded

/-- The audit is what the steps appended, in their order. -/
theorem path_auditRecords {steps : List (Interleaving.Step Tables)} {state : Tables}
    (hpath : System.Path (Moved suite provider) Tables.empty steps state) :
    Consistent state ∧
      state.auditRecords = steps.flatMap fun step => appended step.before step.after := by
  induction hpath with
  | nil => exact ⟨consistent_empty, rfl⟩
  | snoc _ hmoved ih =>
      obtain ⟨hconsistent, hrecords⟩ := ih
      refine ⟨hmoved.consistent hconsistent, ?_⟩
      obtain ⟨added, hadded⟩ := (hmoved.extends hconsistent).auditRecords
      rw [List.flatMap_append, List.flatMap_singleton, ← hrecords, appended_of_eq hadded.symm,
        hadded]

/-- The rows of one task, among those of all. -/
theorem mem_auditRows {server : Server suite} {index : Nat} {record : AuditRecord} :
    record ∈ auditRows (server.own index) ↔
      ∃ step ∈ server.steps, step.task = index ∧ record ∈ appended step.before step.after := by
  simp only [auditRows, System.own, List.mem_flatMap, List.mem_map, List.mem_filter,
    decide_eq_true_eq]
  constructor
  · rintro ⟨_, ⟨step, ⟨hstep, htask⟩, rfl⟩, hrecord⟩
    exact ⟨step, hstep, htask, hrecord⟩
  · rintro ⟨step, hstep, htask, hrecord⟩
    exact ⟨_, ⟨step, ⟨hstep, htask⟩, rfl⟩, hrecord⟩

/-- A resolution is answered as the one row it appended says, or appended none and is answered
503. -/
def ResolutionAnswered (provider : Provider) (server : Server suite)
    (body : SecretResolveRequest) : Prop :=
  ∀ (index : Nat) call result count,
    server.tasks[index]? = some ⟨call, .done (result, count)⟩ →
      ∀ authorization workspaceId secretId,
        call.request = body.request authorization workspaceId secretId →
          Recognised provider authorization → call.env.store.Faultless →
            Answered call.request (responseOf result) (auditRows (server.own index))

/-- What holds of the requests of a run, however their transactions interleaved and whichever
statements failed. -/
structure Accounted (provider : Provider) (server : Server suite) : Prop where
  /-- A request that succeeded has appended one row for each version its answer reports. -/
  succeeded : ∀ (index : Nat) call body count,
    server.tasks[index]? = some ⟨call, .done (.ok body, count)⟩ →
      Succeeded provider call.request body (auditRows (server.own index))
  /-- What a request appended is committed. -/
  committed : ∀ index, ∀ record ∈ auditRows (server.own index), record ∈ server.state.auditRecords
  /-- Two requests share no row. -/
  distinct : ∀ index index', index ≠ index' → ∀ record ∈ auditRows (server.own index),
    ∀ record' ∈ auditRows (server.own index'), record.eventId ≠ record'.eventId
  /-- A resolution whose texts can be encoded is answered as its row says. -/
  answered : ∀ body : SecretResolveRequest, body.encode.isSome = true →
    ResolutionAnswered provider server body
  /-- Any other is answered 500 and appends no row, unless a statement of its own fails. -/
  unanswered : ∀ (body : SecretResolveRequest) (index : Nat) call result count,
    body.encode = none → server.tasks[index]? = some ⟨call, .done (result, count)⟩ →
      ∀ authorization workspaceId secretId,
        call.request = body.request authorization workspaceId secretId →
          call.env.store.Faultless → (∀ position, (call.env.audit position).Faultless) →
            responseOf result = .internalServerError ∧ auditRows (server.own index) = []

end

/-! ### A text that cannot be encoded -/

/-- An intent that is an unpaired surrogate. -/
def surrogateResolve : SecretResolveRequest :=
  { intent := [0xd800]
    callerSubject := "client"
    correlationId := "use"
    versionId := none
    callerSubject_length := client_length
    correlationId_length := use_length }

/-- Its request comes without a token, on an empty database. -/
def surrogateEvents : List (Event (ApiCall transparentSuite)) :=
  [.arrive ⟨plainRequestEnv "use", surrogateResolve.request none "workspace" "secret"⟩, .step 0]

end SecretsCustody
