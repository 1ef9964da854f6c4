/-
Executions of the store by any number of clients.  A write holds the lock of
its `BEGIN IMMEDIATE` transaction from start to commit, a read sees committed
rows, and a restart is a client with another master key version.
-/
import SecretsCustody.Consistency
import SecretsCustody.History

namespace SecretsCustody

open History

/-- The operations that run one `SELECT` and take no write lock. -/
def Operation.readsOnly : Operation → Bool
  | .resolveSecret _ _ _ => true
  | .metadata _ _ _ => true
  | _ => false

section

variable {suite : CryptoSuite}

abbrev Step (suite : CryptoSuite) := Entry Tables (Call suite) Outcome

/-- The store after its clients did the given events on an empty database. -/
def runClients (events : List (Event (Call suite))) : System Tables (Call suite) Outcome :=
  System.run perform (fun call => call.operation.readsOnly) Tables.empty events

theorem Performs.readsOnly {env : Env suite} {master : MasterKey} {before after : Tables}
    {operation : Operation} {reply : Reply} {log : List Encryption}
    (hperforms : Performs env master before operation reply after log)
    (hreads : operation.readsOnly = true) : after = before := by
  cases hperforms <;> first | rfl | cases hreads

theorem perform_readsOnly (tables : Tables) (call : Call suite)
    (hreads : call.operation.readsOnly = true) : (perform tables call).2 = tables := by
  rcases perform_cases tables call with ⟨reply, _, hperforms⟩ | ⟨raised, _, _, hsame⟩
  · exact hperforms.readsOnly hreads
  · exact hsame

/-- What any interleaving of clients committed is a run of single calls. -/
theorem runClients_serial (events : List (Event (Call suite))) :
    ∃ calls, (runClients events).log = trace perform Tables.empty calls ∧
      (runClients events).committed = final perform Tables.empty calls :=
  (System.run_serial perform_readsOnly Tables.empty events).1

theorem final_consistent (calls : List (Call suite)) :
    Consistent (final perform Tables.empty calls) :=
  invariant_final consistent_empty fun _ call _ hconsistent =>
    perform_consistent call hconsistent

/-- A call that returned, as a case of `Performs`. -/
theorem performs_of_ok {tables : Tables} {call : Call suite} {reply : Reply}
    (hresult : (perform tables call).1.result = .ok reply) :
    Performs call.env call.master tables call.operation reply (perform tables call).2
      (perform tables call).1.encryptions := by
  rcases perform_cases tables call with ⟨found, hfound, hperforms⟩ | ⟨raised, hraised, _, _⟩
  · rw [hresult] at hfound
    cases hfound
    exact hperforms
  · rw [hresult] at hraised
    cases hraised

/-- A call that raised, as a case of `Refuses`; the database is as it was. -/
theorem refuses_of_error {tables : Tables} {call : Call suite} {raised : Raised}
    (hresult : (perform tables call).1.result = .error raised) :
    Refuses call.env call.master tables call.operation raised ∧
      (perform tables call).2 = tables := by
  rcases perform_cases tables call with ⟨found, hfound, _⟩ | ⟨other, hraised, hrefuses, hsame⟩
  · rw [hresult] at hfound
    cases hfound
  · rw [hresult] at hraised
    cases hraised
    exact ⟨hrefuses, hsame⟩

/-- The secret a resolution asks for. -/
def Operation.resolves : Operation → Option (String × String)
  | .resolveSecret workspaceId secretId _ => some (workspaceId, secretId)
  | .resolveSecretForUse args => some (args.workspaceId, args.secretId)
  | _ => none

/-- The row a resolution returned the bytes of. -/
structure ResolvedFrom (suite : CryptoSuite) (master : MasterKey) (tables : Tables) (operation : Operation)
    (secret : ResolvedSecret) (row : VersionRow) : Prop where
  stored : row ∈ tables.versions
  address : operation.resolves = some row.address
  reads : metadataFromRow row = .ok secret.metadata
  active : row.status = SecretStatus.active.value
  decrypts : decryptRow suite master row = .ok secret.value

theorem ResolvedFrom.key {master : MasterKey} {tables : Tables} {operation : Operation}
    {secret : ResolvedSecret} {row : VersionRow}
    (hresolved : ResolvedFrom suite master tables operation secret row) :
    secret.metadata.key = row.key :=
  (metadataFromRow_describes hresolved.reads).key

/-- A resolution that returned found an active row of its secret. -/
theorem Performs.resolves {env : Env suite} {master : MasterKey} {before after : Tables}
    {operation : Operation} {secret : ResolvedSecret} {log : List Encryption}
    (hperforms : Performs env master before operation (.resolved secret) after log) :
    ∃ row, ResolvedFrom suite master before operation secret row := by
  have hfrom : ∀ {workspaceId secretId : String} {versionId : Option String}
      {row : VersionRow} {intent : Option String},
      selectRow before workspaceId secretId versionId = some row →
      operation.resolves = some (workspaceId, secretId) →
      resolveRow suite master row intent = .ok secret →
        ResolvedFrom suite master before operation secret row := by
    intro workspaceId secretId versionId row intent hrow haddress hresolve
    obtain ⟨hmem, hat⟩ := selectRow_eq_some hrow
    obtain ⟨hreads, hstatus, _, hdecrypts⟩ := resolveRow_eq_ok.mp hresolve
    refine ⟨hmem, by rw [haddress, hat], hreads, ?_, hdecrypts⟩
    rw [(metadataFromRow_describes hreads).status, SecretStatus.eq_active hstatus]
  cases hperforms with
  | @resolved workspaceId secretId versionId row _ hrow hresolve =>
      exact ⟨row, hfrom hrow rfl hresolve⟩
  | @selected args selected row _ _ _ _ _ _ _ hrow hresolve =>
      have hselected : selectRow before args.workspaceId args.secretId
        (some selected.versionId) = some row := hrow
      exact ⟨row, hfrom hselected rfl hresolve⟩
  | @reselected args selection row _ _ _ hrow hresolve =>
      have hselected : selectRow before args.workspaceId args.secretId
        (some selection.versionId) = some row := hrow
      exact ⟨row, hfrom hselected rfl hresolve⟩

/-- Draws for a call of the transparent suite, all named after one text. -/
def plainEnv (name : String) : Env transparentSuite :=
  { uuid4 := name
    eventId := name
    now := name
    occurredAt := name
    urandom := fun _ => List.replicate nonceBytes 0
    urandom_length := fun _ => List.length_replicate
    privateKey := true
    fails := fun _ => none }

/-- A call on the transparent suite with the empty key. -/
def plainCall (name : String) (operation : Operation) : Call transparentSuite :=
  { operation := operation, master := ⟨[], "local"⟩, env := plainEnv name }

/-! ### What later databases keep -/

/-- The row as it was, or revoked since. -/
def SameOrRevoked (row row' : VersionRow) : Prop :=
  row' = row ∨ row.status = SecretStatus.active.value ∧
    row'.status = SecretStatus.revoked.value

theorem SameOrRevoked.trans {row row' row'' : VersionRow} (hfirst : SameOrRevoked row row')
    (hsecond : SameOrRevoked row' row'') : SameOrRevoked row row'' := by
  rcases hfirst with rfl | ⟨hactive, hrevoked⟩
  · exact hsecond
  · rcases hsecond with rfl | ⟨hagain, _⟩
    · exact .inr ⟨hactive, hrevoked⟩
    · rw [hrevoked] at hagain
      exact absurd hagain (by decide)

/-- A revoked row stays as it is. -/
theorem SameOrRevoked.eq_of_revoked {row row' : VersionRow} (hsame : SameOrRevoked row row')
    (hrevoked : row.status = SecretStatus.revoked.value) : row' = row := by
  rcases hsame with heq | ⟨hactive, _⟩
  · exact heq
  · rw [hrevoked] at hactive
    exact absurd hactive (by decide)

/-- A row that is active now was never anything else. -/
theorem SameOrRevoked.eq_of_active {row row' : VersionRow} (hsame : SameOrRevoked row row')
    (hactive : row'.status = SecretStatus.active.value) : row' = row := by
  rcases hsame with heq | ⟨_, hrevoked⟩
  · exact heq
  · rw [hrevoked] at hactive
    exact absurd hactive (by decide)

/-- A later database: rows are added to every table, and version rows are at
most revoked. -/
structure Extends (before after : Tables) : Prop where
  versions : ∀ row ∈ before.versions, ∃ row' ∈ after.versions,
    SameVersion row row' ∧ SameOrRevoked row row'
  selections : before.selections <+: after.selections
  generations : before.generations <+: after.generations
  revocations : before.revocations <+: after.revocations
  auditRecords : before.auditRecords <+: after.auditRecords

theorem SameVersion.trans {row row' row'' : VersionRow} (hfirst : SameVersion row row')
    (hsecond : SameVersion row' row'') : SameVersion row row'' where
  workspaceId := hsecond.workspaceId.trans hfirst.workspaceId
  secretId := hsecond.secretId.trans hfirst.secretId
  versionId := hsecond.versionId.trans hfirst.versionId
  versionNumber := hsecond.versionNumber.trans hfirst.versionNumber
  algorithm := hsecond.algorithm.trans hfirst.algorithm
  keyFingerprint := hsecond.keyFingerprint.trans hfirst.keyFingerprint
  keyVersion := hsecond.keyVersion.trans hfirst.keyVersion
  labelsJson := hsecond.labelsJson.trans hfirst.labelsJson
  createdAt := hsecond.createdAt.trans hfirst.createdAt
  limits := hsecond.limits.trans hfirst.limits

theorem Extends.refl (tables : Tables) : Extends tables tables where
  versions := fun row hrow => ⟨row, hrow, SameVersion.refl row, .inl rfl⟩
  selections := List.prefix_refl _
  generations := List.prefix_refl _
  revocations := List.prefix_refl _
  auditRecords := List.prefix_refl _

theorem Extends.trans {first second third : Tables} (hfirst : Extends first second)
    (hsecond : Extends second third) : Extends first third where
  versions := by
    intro row hrow
    obtain ⟨row', hrow', hsame, hstep⟩ := hfirst.versions row hrow
    obtain ⟨row'', hrow'', hsame', hstep'⟩ := hsecond.versions row' hrow'
    exact ⟨row'', hrow'', hsame.trans hsame', hstep.trans hstep'⟩
  selections := hfirst.selections.trans hsecond.selections
  generations := hfirst.generations.trans hsecond.generations
  revocations := hfirst.revocations.trans hsecond.revocations
  auditRecords := hfirst.auditRecords.trans hsecond.auditRecords

theorem Performs.extends {env : Env suite} {master : MasterKey} {before after : Tables}
    {operation : Operation} {reply : Reply} {log : List Encryption}
    (hperforms : Performs env master before operation reply after log)
    (hconsistent : Consistent before) : Extends before after := by
  rcases (hperforms.versionsEffect hconsistent.versionKeys).rows with
    ⟨change, added, hrows, hsteps, _⟩
  rcases hperforms.rowsAppended with ⟨selections, generations, revocations, records, happended⟩
  constructor
  · intro row hrow
    have hstep := hsteps row hrow
    refine ⟨change row, ?_, hstep.sameVersion, hstep.eq_or_revoked⟩
    rw [hrows]
    exact List.mem_append_left _ (List.mem_map_of_mem hrow)
  · rw [happended.selectionsAre]
    exact List.prefix_append _ _
  · rw [happended.generationsAre]
    exact List.prefix_append _ _
  · rw [happended.revocationsAre]
    exact List.prefix_append _ _
  · rw [happended.auditRecordsAre]
    exact List.prefix_append _ _

theorem perform_extends {tables : Tables} (hconsistent : Consistent tables) (call : Call suite) :
    Extends tables (perform tables call).2 := by
  rcases perform_cases tables call with ⟨reply, _, hperforms⟩ | ⟨raised, _, _, hsame⟩
  · exact hperforms.extends hconsistent
  · rw [hsame]
    exact Extends.refl tables

/-- Every run only adds to the database it starts from. -/
theorem final_extends {tables : Tables} (hconsistent : Consistent tables)
    (calls : List (Call suite)) : Extends tables (final perform tables calls) := by
  induction calls generalizing tables with
  | nil => exact Extends.refl tables
  | cons call calls ih =>
      have hstep := perform_extends hconsistent call
      exact hstep.trans (ih (perform_consistent call hconsistent))

/-- The same version of an earlier row is the row with its key. -/
theorem Extends.find {before after : Tables} (hextends : Extends before after)
    (hconsistent : Consistent after) {row row' : VersionRow} (hrow : row ∈ before.versions)
    (hrow' : row' ∈ after.versions) (hkey : row'.key = row.key) :
    SameVersion row row' ∧ SameOrRevoked row row' := by
  obtain ⟨found, hfound, hsame, hstep⟩ := hextends.versions row hrow
  have heq := hconsistent.versionKeys.eq_of_key hfound hrow' (hsame.key.trans hkey.symm)
  rw [← heq]
  exact ⟨hsame, hstep⟩

end

end SecretsCustody
