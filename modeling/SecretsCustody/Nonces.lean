/-
Nonces.  Whatever a call does and however it ends, each encryption it makes is under a draw of
its own; so where no two draws coincide no nonce serves twice, rolled back and crashed calls
included, and no two versions are stored under one.
-/
import SecretsCustody.CustodyRuns

namespace SecretsCustody

open Effect History

section

variable {suite : CryptoSuite} {δ α β : Type}

/-- What an action draws from outside. -/
def CustodyAction.env : CustodyAction suite → Env suite
  | .admitCustody admission => admission.env
  | .store call => call.env
  | .append env _ => env
  | .create env _ _ => env

/-! ### Programs that spend a draw on each encryption -/

/-- The encryptions were made under the draws of the call, in turn. -/
def Drawn (env : Env suite) (log : List Encryption) : Prop :=
  log.map Encryption.nonce = (List.range log.length).map env.urandom

theorem drawn_nil (env : Env suite) : Drawn env [] := rfl

theorem Drawn.append {env : Env suite} {log : List Encryption} (hdrawn : Drawn env log)
    (key plaintext ciphertext : Bytes) (associated : Associated) :
    Drawn env (log ++ [⟨key, env.urandom log.length, plaintext, associated, ciphertext⟩]) := by
  unfold Drawn at hdrawn ⊢
  rw [List.map_append, hdrawn, List.length_append, List.length_singleton, List.range_succ,
    List.map_append]
  rfl

/-- From any database and after any such encryptions, however the program ends. -/
def DrawsOnce (env : Env suite) (program : Tx δ α) : Prop :=
  ∀ db log, Drawn env log →
    Ends program db log (fun _ _ log' => Drawn env log') fun _ _ log' => Drawn env log'

variable {env : Env suite}

theorem drawsOnce_pure (value : α) : DrawsOnce env (pure value : Tx δ α) :=
  fun _ _ hdrawn => ends_pure hdrawn

theorem drawsOnce_throw (raised : Raised) : DrawsOnce env (throw raised : Tx δ α) :=
  fun _ _ hdrawn => ends_throw hdrawn

theorem DrawsOnce.bind {program : Tx δ α} {next : α → Tx δ β} (hprogram : DrawsOnce env program)
    (hnext : ∀ value, DrawsOnce env (next value)) : DrawsOnce env (program >>= next) := by
  intro db log hdrawn
  apply Ends.bind
  apply (hprogram db log hdrawn).mono _ fun _ _ _ hafter => hafter
  intro value db' log' hafter
  exact hnext value db' log' hafter

theorem DrawsOnce.map {program : Tx δ α} {change : α → β} (hprogram : DrawsOnce env program) :
    DrawsOnce env (change <$> program) := by
  rw [map_eq_pure_bind]
  exact hprogram.bind fun value => drawsOnce_pure (change value)

theorem drawsOnce_ofExcept (result : Except Raised α) :
    DrawsOnce env (ofExcept result : Tx δ α) :=
  fun _ _ hdrawn => ends_ofExcept (fun _ _ => hdrawn) fun _ _ => hdrawn

theorem drawsOnce_raiseIf {condition : Prop} [Decidable condition] (raised : Raised) :
    DrawsOnce env (raiseIf condition raised : Tx δ Unit) :=
  fun _ _ hdrawn => ends_raiseIf (fun _ => hdrawn) fun _ => hdrawn

theorem drawsOnce_statement (other : Env suite) : DrawsOnce env (statement other : Tx δ Unit) :=
  fun _ _ hdrawn => ends_statement hdrawn fun _ _ => hdrawn

theorem drawsOnce_query (other : Env suite) (read : δ → α) :
    DrawsOnce env (query other read) :=
  fun _ _ hdrawn => ends_query hdrawn fun _ _ => hdrawn

theorem drawsOnce_execute (other : Env suite) (write : δ → Except Raised δ) :
    DrawsOnce env (execute other write) :=
  fun _ _ hdrawn => ends_execute (fun _ _ => hdrawn) (fun _ _ => hdrawn) fun _ _ => hdrawn

theorem DrawsOnce.mapRaised {change : Raised → Raised} {body : Tx δ α}
    (hbody : DrawsOnce env body) : DrawsOnce env (mapRaised change body) :=
  fun db log hdrawn => ends_mapRaised (hbody db log hdrawn)

theorem DrawsOnce.withConnection {connect : Tx δ Unit} {body : Tx δ α}
    (hconnect : DrawsOnce env connect) (hbody : DrawsOnce env body) :
    DrawsOnce env (withConnection env connect body) := by
  intro db log hdrawn
  apply ends_withConnection
  apply (hconnect db log hdrawn).mono _ fun _ _ _ hafter => hafter
  intro _ db' log' hopened
  apply (hbody db' log' hopened).mono _ fun _ _ _ hafter => hafter
  intro _ _ _ hafter
  exact ⟨hafter, fun _ _ => hafter⟩

/-- A nonce is drawn and spent at once. -/
theorem drawsOnce_encrypt {master : MasterKey} {plaintext : Bytes} {associated : Associated}
    {next : Bytes → Bytes → Tx δ α}
    (hnext : ∀ nonce ciphertext, DrawsOnce env (next nonce ciphertext)) :
    DrawsOnce env (do
      let nonce ← urandom env
      let ciphertext ← encrypt suite master nonce plaintext associated
      next nonce ciphertext) := by
  intro db log hdrawn
  apply Ends.bind
  apply ends_urandom
  apply Ends.bind
  apply ends_encrypt
  · intro ciphertext _
    exact hnext _ ciphertext db _ (hdrawn.append _ _ ciphertext _)
  · exact fun _ _ => hdrawn

/-! ### The programs of the store -/

variable {master : MasterKey}

theorem DrawsOnce.connection {body : Tx Tables α} (hbody : DrawsOnce env body) :
    DrawsOnce env (connection suite env body) := by
  apply DrawsOnce.withConnection _ hbody
  apply (drawsOnce_statement env).bind
  intro _
  apply (drawsOnce_statement env).bind
  exact fun _ => drawsOnce_statement env

theorem insertVersion_drawsOnce (workspaceId secretId : String) (value : Bytes)
    (labels : TextDict) (versionNumber : Int) :
    DrawsOnce env (insertVersion suite env master workspaceId secretId value labels versionNumber) := by
  apply (drawsOnce_ofExcept _).bind
  intro clean
  apply drawsOnce_encrypt
  intro nonce ciphertext
  apply (drawsOnce_raiseIf _).bind
  intro _
  apply (drawsOnce_execute env _).mapRaised.bind
  exact fun _ => drawsOnce_pure _

theorem revokeRow_drawsOnce (row : VersionRow) (revokedAt : String) :
    DrawsOnce env (revokeRow suite env master row revokedAt) := by
  apply (drawsOnce_ofExcept _).bind
  intro metadata
  apply (drawsOnce_ofExcept _).bind
  intro plaintext
  apply drawsOnce_encrypt
  intro nonce ciphertext
  apply (drawsOnce_execute env _).bind
  exact fun _ => drawsOnce_pure _

/-- A whole revocation spends a draw on each version it seals again. -/
theorem revokeEach_drawsOnce (now : String) (rows : List VersionRow) :
    DrawsOnce env (revokeEach suite env master now rows) := by
  induction rows with
  | nil => exact drawsOnce_pure []
  | cons row rows ih =>
      have hrow : DrawsOnce env (revokeUnlessRevoked suite env master now row) := by
        apply (drawsOnce_ofExcept _).bind
        intro metadata
        split
        · exact drawsOnce_pure metadata
        · exact revokeRow_drawsOnce row now
      apply hrow.bind
      intro revoked
      apply ih.bind
      exact fun rest => drawsOnce_pure (revoked :: rest)

theorem appendInTransaction_drawsOnce (record : AuditRecord) :
    DrawsOnce env (appendInTransaction env record) :=
  (drawsOnce_execute env _).mapRaised

theorem createSecret_drawsOnce (workspaceId secretId : String) (value : Bytes)
    (labels : TextDict) :
    DrawsOnce env (createSecret suite env master workspaceId secretId value labels) := by
  apply DrawsOnce.connection
  apply (drawsOnce_statement env).bind
  exact fun _ => insertVersion_drawsOnce workspaceId secretId value labels 1

theorem rotateSecret_drawsOnce (workspaceId secretId : String) (value : Bytes)
    (labels : TextDict) (expectedIntent : Option String) :
    DrawsOnce env
      (rotateSecret suite env master workspaceId secretId value labels expectedIntent) := by
  apply DrawsOnce.connection
  apply (drawsOnce_statement env).bind
  intro _
  apply (drawsOnce_query env _).bind
  intro found
  split
  · exact drawsOnce_throw _
  · next latest =>
      apply (drawsOnce_ofExcept _).bind
      intro latestMetadata
      apply (drawsOnce_raiseIf _).bind
      exact fun _ => insertVersion_drawsOnce workspaceId secretId value labels _

theorem revokeSecret_drawsOnce (workspaceId secretId : String) :
    DrawsOnce env (revokeSecret suite env master workspaceId secretId) := by
  apply DrawsOnce.connection
  apply (drawsOnce_statement env).bind
  intro _
  apply (drawsOnce_query env _).bind
  intro rows
  apply (drawsOnce_raiseIf _).bind
  exact fun _ => revokeEach_drawsOnce env.now rows

theorem revokeSecretVersion_drawsOnce (args : RevokeSecretVersion) :
    DrawsOnce env (revokeSecretVersion suite env master args) := by
  have hreplay : ∀ existing, DrawsOnce env (replayRevocation suite env args existing) := by
    intro existing
    apply (drawsOnce_raiseIf _).bind
    intro _
    apply (drawsOnce_query env _).bind
    intro found
    split
    · exact drawsOnce_throw _
    · apply (drawsOnce_ofExcept _).bind
      intro metadata
      apply (drawsOnce_raiseIf _).bind
      intro _
      apply (appendInTransaction_drawsOnce _).bind
      exact fun _ => drawsOnce_pure metadata
  have hfresh : DrawsOnce env (freshRevocation suite env master args) := by
    apply (drawsOnce_query env _).bind
    intro priorTarget
    apply (drawsOnce_raiseIf _).bind
    intro _
    apply (drawsOnce_query env _).bind
    intro found
    split
    · exact drawsOnce_throw _
    · next row =>
        apply (drawsOnce_ofExcept _).bind
        intro metadata
        apply (drawsOnce_raiseIf _).bind
        intro _
        apply (drawsOnce_raiseIf _).bind
        intro _
        apply (revokeRow_drawsOnce row env.now).bind
        intro revoked
        apply (drawsOnce_execute env _).bind
        intro _
        apply (appendInTransaction_drawsOnce _).bind
        exact fun _ => drawsOnce_pure revoked
  apply DrawsOnce.connection
  apply (drawsOnce_statement env).bind
  intro _
  apply (drawsOnce_query env _).bind
  intro found
  split
  · exact hreplay _
  · exact hfresh

theorem generateDelegationKey_drawsOnce (args : GenerateDelegationKey) :
    DrawsOnce env (generateDelegationKey suite env master args) := by
  have hreplay : ∀ intent existing,
      DrawsOnce env (replayGeneration suite env master args intent existing) := by
    intro intent existing
    apply (drawsOnce_raiseIf _).bind
    intro _
    have hread : DrawsOnce env
        (delegationGenerationFromRow suite env master existing intent true) := by
      apply (drawsOnce_query env _).bind
      intro found
      split
      · exact drawsOnce_throw _
      · exact drawsOnce_ofExcept _
    apply hread.bind
    intro result
    apply (appendInTransaction_drawsOnce _).bind
    exact fun _ => drawsOnce_pure result
  have hfresh : ∀ intent, DrawsOnce env (freshGeneration suite env master args intent) := by
    intro intent
    unfold freshGeneration
    dsimp only
    split
    · exact drawsOnce_throw _
    · apply (insertVersion_drawsOnce _ _ _ _ 1).bind
      intro metadata
      apply (drawsOnce_execute env _).bind
      intro _
      apply (appendInTransaction_drawsOnce _).bind
      exact fun _ => drawsOnce_pure _
  apply (drawsOnce_ofExcept _).bind
  intro intent
  apply DrawsOnce.connection
  apply (drawsOnce_statement env).bind
  intro _
  apply (drawsOnce_query env _).bind
  intro found
  split
  · exact hreplay intent _
  · exact hfresh intent

theorem readRow_drawsOnce (workspaceId secretId : String) (versionId : Option String)
    (read : VersionRow → Except Raised α) :
    DrawsOnce env (do
      match ← selectRowAlone suite env workspaceId secretId versionId with
      | none => throw .secretMissing
      | some row => ofExcept (read row)) := by
  apply (drawsOnce_query env _).connection.bind
  intro found
  split
  · exact drawsOnce_throw _
  · exact drawsOnce_ofExcept _

theorem resolveSecretForUse_drawsOnce (args : ResolveSecretForUse) :
    DrawsOnce env (resolveSecretForUse suite env master args) := by
  have hselected : DrawsOnce env (selectedVersion suite env args) := by
    apply (drawsOnce_query env _).bind
    intro found
    split
    · apply (drawsOnce_raiseIf _).bind
      exact fun _ => drawsOnce_pure _
    · apply (drawsOnce_query env _).bind
      intro selected
      split
      · exact drawsOnce_throw _
      · apply (drawsOnce_ofExcept _).bind
        intro metadata
        apply (drawsOnce_raiseIf _).bind
        intro _
        apply (drawsOnce_raiseIf _).bind
        intro _
        apply (drawsOnce_execute env _).bind
        exact fun _ => drawsOnce_pure _
  apply DrawsOnce.connection
  apply (drawsOnce_statement env).bind
  intro _
  apply hselected.bind
  intro versionId
  apply (drawsOnce_query env _).bind
  intro found
  split
  · exact drawsOnce_throw _
  · exact drawsOnce_ofExcept _

theorem program_drawsOnce (call : Call suite) : DrawsOnce call.env call.program := by
  obtain ⟨operation, master, env⟩ := call
  cases operation with
  | createSecret => exact (createSecret_drawsOnce _ _ _ _).map
  | rotateSecret => exact (rotateSecret_drawsOnce _ _ _ _ _).map
  | revokeSecret => exact (revokeSecret_drawsOnce _ _).map
  | revokeSecretVersion => exact (revokeSecretVersion_drawsOnce _).map
  | generateDelegationKey => exact (generateDelegationKey_drawsOnce _).map
  | resolveSecret => exact (readRow_drawsOnce _ _ _ _).map
  | resolveSecretForUse => exact (resolveSecretForUse_drawsOnce _).map
  | metadata => exact (readRow_drawsOnce _ _ _ _).map

/-! ### Admissions and appends -/

theorem initializeInTransaction_drawsOnce (statements : List CreateStatement) :
    DrawsOnce env (initializeInTransaction suite env statements) := by
  induction statements with
  | nil => exact drawsOnce_pure ()
  | cons statement statements ih =>
      apply (drawsOnce_execute env _).bind
      exact fun _ => ih

theorem admitProviderCustody_drawsOnce (admission : Admission suite) :
    DrawsOnce admission.env (admitProviderCustody admission) := by
  have hcreate : DrawsOnce admission.env (createCustody suite admission.env admission.master
      admission.providerId) := by
    apply (initializeInTransaction_drawsOnce storeSchema).bind
    intro _
    apply (initializeInTransaction_drawsOnce auditSchema).bind
    intro _
    apply (drawsOnce_execute admission.env _).bind
    intro _
    apply drawsOnce_encrypt
    exact fun _ _ => drawsOnce_execute admission.env _
  have hverify : DrawsOnce admission.env (verifyBinding suite admission.env admission.master
      admission.providerId) := by
    apply (drawsOnce_query admission.env _).bind
    intro rows
    split
    · exact drawsOnce_ofExcept _
    · exact drawsOnce_throw _
  have hadmit : DrawsOnce admission.env (admitInTransaction admission) := by
    apply (drawsOnce_statement admission.env).bind
    intro _
    apply (drawsOnce_query admission.env _).bind
    intro observed
    have hunless : DrawsOnce admission.env (createUnlessObserved suite admission.env
        admission.master admission.providerId observed) := by
      unfold createUnlessObserved
      split
      · exact hcreate
      · exact drawsOnce_pure ()
    apply hunless.bind
    intro _
    apply (drawsOnce_query admission.env _).bind
    intro declared
    apply (drawsOnce_raiseIf _).bind
    exact fun _ => hverify
  apply DrawsOnce.mapRaised
  apply (drawsOnce_ofExcept _).bind
  intro _
  apply DrawsOnce.withConnection _ hadmit
  apply (drawsOnce_statement admission.env).bind
  exact fun _ => drawsOnce_statement admission.env

theorem append_drawsOnce (record : AuditRecord) : DrawsOnce env (append env record) := by
  apply DrawsOnce.mapRaised
  exact (drawsOnce_statement env).withConnection (drawsOnce_execute env _)

/-! ### Actions -/

theorem runOn_drawn {program : Tx δ α} (hdraws : DrawsOnce env program) (db : δ) :
    Drawn env (runOn program db).1.encryptions := by
  have hends := hdraws db [] (drawn_nil env)
  rcases runOn_cases hends with ⟨_, _, hdrawn⟩ | ⟨_, _, hdrawn⟩ <;> exact hdrawn

theorem onTables_drawn {used : List String} {missing : Raised} {program : Tx Tables α}
    (hdraws : DrawsOnce env program) (db : Database) :
    Drawn env (onTables used missing program db).1.encryptions := by
  unfold onTables
  split
  · exact runOn_drawn hdraws db.tables
  · exact drawn_nil env

theorem act_drawn (db : Database) (action : CustodyAction suite) :
    Drawn action.env (act db action).1.encryptions := by
  cases action with
  | admitCustody admission => exact runOn_drawn (admitProviderCustody_drawsOnce admission) db
  | store call => exact onTables_drawn (program_drawsOnce call) db
  | append env record => exact onTables_drawn (append_drawsOnce record) db
  | create env statement owned => exact runOn_drawn (drawsOnce_execute env _) db

/-! ### What the rows hold -/

/-- The row holds the encryption, which was made under the master key for its metadata. -/
structure SealedUnder (suite : CryptoSuite) (master : MasterKey) (encryption : Encryption)
    (row : VersionRow) : Prop where
  key : encryption.key = master.key
  seals : ∃ metadata, Seals suite encryption row metadata ∧ metadata.algorithm = algorithm ∧
    metadata.keyFingerprint = master.fingerprint suite

theorem SealedUnder.decrypts {master : MasterKey} {encryption : Encryption} {row : VersionRow}
    (hsealed : SealedUnder suite master encryption row) (hsuite : suite.DecryptsOwn) :
    decryptRow suite master row = .ok encryption.plaintext := by
  obtain ⟨metadata, hseals, halgorithm, hfingerprint⟩ := hsealed.seals
  exact hseals.decrypts hsuite hsealed.key halgorithm hfingerprint

/-- The step is a call that encrypted what the row holds. -/
def SealedBy (step : CustodyStep suite) (row : VersionRow) : Prop :=
  ∃ call, step.input = .store call ∧ ∃ encryption ∈ step.output.encryptions,
    SealedUnder suite call.master encryption row

/-- The step encrypted the custody witness the binding row holds. -/
def BoundBy (step : CustodyStep suite) (row : BindingRow) : Prop :=
  ∃ encryption ∈ step.output.encryptions, ∃ providerId,
    encryption.associated = .custody providerId ∧ row.nonce = .blob encryption.nonce

/-- Every row that holds an encryption holds one the steps made for it. -/
structure SealedIn (steps : List (CustodyStep suite)) (db : Database) : Prop where
  consistent : Consistent db.tables
  versions : ∀ row ∈ db.tables.versions, ∃ step ∈ steps, SealedBy step row
  binding : ∀ row ∈ db.binding, ∃ step ∈ steps, BoundBy step row

theorem SealedIn.extend {steps : List (CustodyStep suite)} {db db' : Database}
    (hsealed : SealedIn steps db) {step : CustodyStep suite} (hconsistent : Consistent db'.tables)
    (hversions : ∀ row ∈ db'.tables.versions, row ∈ db.tables.versions ∨ SealedBy step row)
    (hbinding : ∀ row ∈ db'.binding, row ∈ db.binding ∨ BoundBy step row) :
    SealedIn (steps ++ [step]) db' := by
  have hlast : step ∈ steps ++ [step] := List.mem_append_right _ (List.mem_singleton_self step)
  refine ⟨hconsistent, ?_, ?_⟩
  · intro row hrow
    rcases hversions row hrow with hold | hnew
    · obtain ⟨found, hfound, hmade⟩ := hsealed.versions row hold
      exact ⟨found, List.mem_append_left _ hfound, hmade⟩
    · exact ⟨step, hlast, hnew⟩
  · intro row hrow
    rcases hbinding row hrow with hold | hnew
    · obtain ⟨found, hfound, hmade⟩ := hsealed.binding row hold
      exact ⟨found, List.mem_append_left _ hfound, hmade⟩
    · exact ⟨step, hlast, hnew⟩

theorem SealedIn.same {steps : List (CustodyStep suite)} {db db' : Database}
    (hsealed : SealedIn steps db) (step : CustodyStep suite) (htables : db'.tables = db.tables)
    (hbinding : db'.binding = db.binding) : SealedIn (steps ++ [step]) db' := by
  apply hsealed.extend
  · exact htables ▸ hsealed.consistent
  · exact fun row hrow => .inl (htables ▸ hrow)
  · exact fun row hrow => .inl (hbinding ▸ hrow)

/-- Every version row after a call was there before, or holds an encryption of the call. -/
theorem perform_seals {tables : Tables} (hconsistent : Consistent tables) (call : Call suite)
    {row : VersionRow} (hrow : row ∈ (perform tables call).2.versions) :
    row ∈ tables.versions ∨ ∃ encryption ∈ (perform tables call).1.encryptions,
      SealedUnder suite call.master encryption row := by
  rcases perform_cases tables call with ⟨reply, _, hperforms⟩ | ⟨raised, _, _, hsame⟩
  · obtain ⟨change, added, hrows, hsteps, hadded⟩ :=
      (hperforms.versionsEffect hconsistent.versionKeys).rows
    rw [hrows, List.mem_append] at hrow
    rcases hrow with hold | hnew
    · obtain ⟨found, hfound, rfl⟩ := List.mem_map.mp hold
      have hstep := hsteps found hfound
      generalize change found = row at hstep
      cases hstep with
      | same => exact .inl hfound
      | resealed hmetadata _ hdecrypt hseals hkey hlog =>
          -- What is sealed again was decrypted, so its metadata passed the checks.
          obtain ⟨metadata', _, _, hreads, halgorithm, hfingerprint, _⟩ :=
            decryptRow_eq_ok.mp hdecrypt
          rw [hmetadata] at hreads
          cases hreads
          exact .inr ⟨_, hlog, hkey, _, hseals, halgorithm, hfingerprint⟩
    · cases hadded with
      | none => cases hnew
      | one _ _ hmetadata _ hseals hkey hlog =>
          rw [List.mem_singleton] at hnew
          subst hnew hmetadata
          exact .inr ⟨_, hlog, hkey, _, hseals, rfl, rfl⟩
  · exact .inl (hsame ▸ hrow)

/-- An operation on the tables it needs is its program; on others it is nothing. -/
theorem onTables_cases (used : List String) (missing : Raised) (program : Tx Tables α)
    (db : Database) :
    ((onTables used missing program db).1 = (runOn program db.tables).1 ∧
      (onTables used missing program db).2.tables = (runOn program db.tables).2) ∨
    (onTables used missing program db).2.tables = db.tables := by
  unfold onTables
  split
  · exact .inl ⟨rfl, rfl⟩
  · exact .inr rfl

theorem runOn_encryptions (tables : Tables) (call : Call suite) :
    (runOn call.program tables).1.encryptions = (perform tables call).1.encryptions := by
  unfold runOn perform
  cases call.program.run { db := tables, executed := 0, encryptions := [] } <;> rfl

theorem append_tables (tables : Tables) (env : Env suite) (record : AuditRecord) :
    RecordAdded record tables (runOn (append env record) tables).2 ∨
      (runOn (append env record) tables).2 = tables := by
  have hends : Ends (append env record) tables []
      (fun _ tables' _ => RecordAdded record tables tables') fun _ tables' _ => tables' = tables :=
    ends_mapRaised (ends_withConnection (ends_statement (ends_execute
      (fun _ hinsert => ⟨insertAudit_eq_ok hinsert, fun _ _ => rfl⟩) (fun _ _ => rfl)
      fun _ _ => rfl) fun _ _ => rfl))
  rcases runOn_cases hends with ⟨_, _, hadded⟩ | ⟨_, _, hsame⟩
  · exact .inl hadded
  · exact .inr hsame

theorem SealedIn.step {steps : List (CustodyStep suite)} {db : Database}
    (hsealed : SealedIn steps db) (action : CustodyAction suite) :
    SealedIn (steps ++ [entry act db action]) (act db action).2 := by
  cases action with
  | admitCustody admission =>
      rcases admit_cases db admission with ⟨_, hadmitted⟩ | ⟨_, _, _, hsame⟩
      · by_cases hobserved : observedSchema db.schema = []
        · obtain ⟨nonce, ciphertext, hcreated⟩ := hadmitted.created hobserved
          apply hsealed.extend
          · exact hcreated.tables_eq ▸ hsealed.consistent
          · exact fun row hrow => .inl (hcreated.tables_eq ▸ hrow)
          · intro row hrow
            rw [hcreated.binding_eq, List.mem_append, List.mem_singleton] at hrow
            rcases hrow with hold | rfl
            · exact .inl hold
            · exact .inr ⟨_, hcreated.made_eq ▸ List.mem_singleton_self _, _, rfl, rfl⟩
        · rw [(hadmitted.kept hobserved).1]
          exact hsealed.same _ rfl rfl
      · rw [hsame]
        exact hsealed.same _ rfl rfl
  | store call =>
      have hbinding := (onTables_frame call.operation.tablesUsed (.sqlite .operational)
        call.program db).2
      rcases onTables_cases call.operation.tablesUsed (.sqlite .operational) call.program db with
        ⟨hran, htables⟩ | htables
      · rw [runOn_program] at htables
        apply hsealed.extend
        · exact htables ▸ perform_consistent call hsealed.consistent
        · intro row hrow
          change row ∈ (onTables _ _ call.program db).2.tables.versions at hrow
          rw [htables] at hrow
          apply (perform_seals hsealed.consistent call hrow).imp_right
          rintro ⟨encryption, hencryption, hunder⟩
          refine ⟨call, rfl, encryption, ?_, hunder⟩
          change encryption ∈ (onTables _ _ call.program db).1.encryptions
          rwa [hran, runOn_encryptions]
        · exact fun row hrow => .inl (hbinding ▸ hrow)
      · exact hsealed.same _ htables hbinding
  | append env record =>
      have hbinding := (onTables_frame ["audit_records"] .auditUnavailable (append env record) db).2
      rcases onTables_cases ["audit_records"] .auditUnavailable (append env record) db with
        ⟨_, htables⟩ | htables
      · rcases append_tables db.tables env record with hadded | hsame
        · rw [← htables] at hadded
          apply hsealed.extend
          · exact hadded.consistent hsealed.consistent
          · intro row hrow
            change row ∈ (onTables _ _ (append env record) db).2.tables.versions at hrow
            rw [hadded.1] at hrow
            exact .inl hrow
          · exact fun row hrow => .inl (hbinding ▸ hrow)
        · exact hsealed.same _ (htables.trans hsame) hbinding
      · exact hsealed.same _ htables hbinding
  | create env statement howned =>
      rcases create_cases db env statement howned with hsame | hcreate
      · rw [hsame]
        exact hsealed.same _ rfl rfl
      · rw [(create_eq_ok hcreate).1]
        exact hsealed.same _ rfl rfl

theorem runCustody_sealed (events : List (Event (CustodyAction suite))) :
    SealedIn (runCustody events).log (runCustody events).committed := by
  obtain ⟨actions, hlog, hcommitted⟩ := runCustody_serial events
  rw [hlog, hcommitted]
  refine @invariant_trace _ _ _ _ (fun steps db => SealedIn steps db) _ _ ?_ ?_
  · exact ⟨consistent_empty, fun row hrow => (nomatch hrow), fun row hrow => (nomatch hrow)⟩
  · intro steps db action _ hsealed
    exact hsealed.step action

/-! ### Whole runs -/

/-- Every step the clients started, those a crash cut short included. -/
def startedSteps (events : List (Event (CustodyAction suite))) : List (CustodyStep suite) :=
  System.attempts act CustodyAction.readsOnly (System.initial Database.objectFree) events

def encryptionsStarted (events : List (Event (CustodyAction suite))) : List Encryption :=
  (startedSteps events).flatMap fun step => step.output.encryptions

/-- What the steps drew for their encryptions. -/
def drawsSpent (events : List (Event (CustodyAction suite))) : List Bytes :=
  (startedSteps events).flatMap fun step =>
    (List.range step.output.encryptions.length).map step.input.env.urandom

/-- Every encryption has a draw of its own.  Where no two draws coincide, what is stored under
one nonce is one row. -/
structure NoncesApart (events : List (Event (CustodyAction suite))) : Prop where
  drawn : (encryptionsStarted events).map Encryption.nonce = drawsSpent events
  versions : (drawsSpent events).Nodup → ∀ row ∈ (runCustody events).committed.tables.versions,
    ∀ other ∈ (runCustody events).committed.tables.versions, other.nonce = row.nonce → other = row
  binding : (drawsSpent events).Nodup → ∀ row ∈ (runCustody events).committed.tables.versions,
    ∀ bound ∈ (runCustody events).committed.binding, bound.nonce ≠ row.nonce

theorem encryptionsStarted_nonces (events : List (Event (CustodyAction suite))) :
    (encryptionsStarted events).map Encryption.nonce = drawsSpent events := by
  unfold encryptionsStarted drawsSpent
  rw [List.map_flatMap]
  apply List.flatMap_congr
  intro step hstep
  obtain ⟨inputs, hentry⟩ := System.mem_attempts act_readsOnly (System.serial_initial _) hstep
  rw [hentry]
  exact act_drawn _ step.input

theorem mem_encryptionsStarted {events : List (Event (CustodyAction suite))}
    {step : CustodyStep suite} (hstep : step ∈ (runCustody events).log) {encryption : Encryption}
    (hencryption : encryption ∈ step.output.encryptions) : encryption ∈ encryptionsStarted events :=
  List.mem_flatMap.mpr ⟨step, System.mem_attempts_of_log hstep, hencryption⟩

/-- Where no two draws coincide, an encryption is known by its nonce. -/
theorem encryption_of_nonce {events : List (Event (CustodyAction suite))}
    (hapart : (drawsSpent events).Nodup) {encryption other : Encryption}
    (hencryption : encryption ∈ encryptionsStarted events) (hother : other ∈ encryptionsStarted events)
    (hnonce : other.nonce = encryption.nonce) : other = encryption := by
  rw [← encryptionsStarted_nonces] at hapart
  exact List.inj_on_of_nodup_map hapart hother hencryption hnonce

theorem nonces_apart (events : List (Event (CustodyAction suite))) : NoncesApart events := by
  have hsealed := runCustody_sealed events
  refine ⟨encryptionsStarted_nonces events, ?_, ?_⟩
  · intro hapart row hrow other hother hnonce
    obtain ⟨step, hstep, _, _, encryption, hencryption, hunder⟩ := hsealed.versions row hrow
    obtain ⟨step', hstep', _, _, encryption', hencryption', hunder'⟩ :=
      hsealed.versions other hother
    obtain ⟨metadata, hseals, _⟩ := hunder.seals
    obtain ⟨metadata', hseals', _⟩ := hunder'.seals
    rw [hseals.nonce, hseals'.nonce] at hnonce
    obtain rfl := encryption_of_nonce hapart (mem_encryptionsStarted hstep hencryption)
      (mem_encryptionsStarted hstep' hencryption') (SqlValue.blob.inj hnonce)
    obtain rfl : metadata' = metadata :=
      Associated.version.inj (hseals'.associated.symm.trans hseals.associated)
    apply hsealed.consistent.versionKeys.eq_of_key hother hrow
    rw [← (metadataFromRow_describes hseals.reads).key,
      ← (metadataFromRow_describes hseals'.reads).key]
  · intro hapart row hrow bound hbound hnonce
    obtain ⟨step, hstep, _, _, encryption, hencryption, hunder⟩ := hsealed.versions row hrow
    obtain ⟨metadata, hseals, _⟩ := hunder.seals
    obtain ⟨step', hstep', encryption', hencryption', providerId, hcustody, hdrawn⟩ :=
      hsealed.binding bound hbound
    rw [hseals.nonce, hdrawn] at hnonce
    obtain rfl := encryption_of_nonce hapart (mem_encryptionsStarted hstep hencryption)
      (mem_encryptionsStarted hstep' hencryption') (SqlValue.blob.inj hnonce)
    rw [hseals.associated] at hcustody
    cases hcustody

end

end SecretsCustody
