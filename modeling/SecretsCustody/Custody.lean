/-
Admission of a database to custody: schema, identity witness and comparison in
one transaction, on a database that also carries all other traffic.
-/
import SecretsCustody.CustodySchema
import SecretsCustody.Store

namespace SecretsCustody

open Effect

/-- `_WITNESS`. -/
def custodyWitness : Bytes := encodeUtf8 "cpk-secrets-custody-v1"

/-- A row of `provider_custody_binding`. -/
structure BindingRow where
  singleton : SqlValue
  schemaVersion : SqlValue
  providerId : SqlValue
  nonce : SqlValue
  ciphertext : SqlValue

/-- The database of a provider: its schema, and the rows of its tables. -/
structure Database where
  schema : List SchemaObject
  binding : List BindingRow
  tables : Tables

/-- A database without objects. -/
def Database.objectFree : Database :=
  { schema := [], binding := [], tables := Tables.empty }

/-- An object of one of the kinds has the name, in any case. -/
def named (schema : List SchemaObject) (kinds : List String) (name : String) : Bool :=
  schema.any fun object => object.kind ∈ kinds && object.name.toLower = name.toLower

/-- The kinds among which the object would be the one the statement creates. -/
def CreateStatement.sameKinds (statement : CreateStatement) : List String :=
  if statement.kind = "index" then ["index"] else ["table", "view"]

/-- The kinds an object of the same name cannot have. -/
def CreateStatement.otherKinds (statement : CreateStatement) : List String :=
  if statement.kind = "index" then ["table", "view"] else ["index"]

/-- A `CREATE` statement: tables, views and indexes share their names, and an index
needs its table. -/
def Database.create (db : Database) (statement : CreateStatement) : Except Raised Database :=
  if statement.kind = "index" ∧ named db.schema ["table"] statement.owner = false then
    .error (.sqlite .operational)
  else if named db.schema statement.otherKinds statement.name then
    .error (.sqlite .operational)
  else if named db.schema statement.sameKinds statement.name then
    if statement.conditional then .ok db else .error (.sqlite .operational)
  else .ok { db with schema := db.schema ++ statement.declares }

def Database.insertBinding (db : Database) (row : BindingRow) : Except Raised Database :=
  if row.singleton ≠ .integer 1 ∨ row.schemaVersion ≠ .integer 1 ∨
      row.singleton ∈ db.binding.map BindingRow.singleton then
    .error .integrityError
  else .ok { db with binding := db.binding ++ [row] }

/-- What the checks of the database path find: it names a file or nothing, it is
`:memory:`, a symlink or not a file, or it cannot be read or made. -/
inductive DatabasePath where
  | usable
  | refused
  | osError

/-- One call of `admit_provider_custody`. -/
structure Admission (suite : CryptoSuite) where
  path : DatabasePath
  master : MasterKey
  providerId : String
  env : Env suite

/-- The key bytes and the provider. -/
def Admission.identity {suite : CryptoSuite} (admission : Admission suite) : Bytes × String :=
  (admission.master.key, admission.providerId)

section

variable (suite : CryptoSuite)

/-- The checks of `_verify_binding` on its one row. -/
def verifyRow (master : MasterKey) (providerId : String) (row : BindingRow) :
    Except Raised Unit :=
  match row.nonce, row.ciphertext with
  | .blob nonce, .blob ciphertext => do
      raiseIf (row.singleton ≠ .integer 1 ∨ row.schemaVersion ≠ .integer schemaVersion ∨
        row.providerId ≠ .text providerId ∨ nonce.length ≠ 12 ∨
        ciphertext.length ≠ custodyWitness.length + 16) .custodyRejected
      raiseIf (master.decrypt suite nonce ciphertext (context providerId) ≠ some custodyWitness)
        .custodyRejected
  | _, _ => .error .custodyRejected

variable (env : Env suite) (master : MasterKey) (providerId : String)

/-- `_verify_binding`. -/
def verifyBinding : Tx Database Unit := do
  match ← query env Database.binding with
  | [row] => ofExcept (verifyRow suite master providerId row)
  | _ => throw .custodyRejected

/-- `initialize_in_transaction`, for the statements of one store. -/
def initializeInTransaction : List CreateStatement → Tx Database Unit
  | [] => pure ()
  | statement :: statements => do
      execute env fun db => db.create statement
      initializeInTransaction statements

def bindingRow (nonce ciphertext : Bytes) : BindingRow :=
  { singleton := .integer 1
    schemaVersion := .integer schemaVersion
    providerId := .text providerId
    nonce := .blob nonce
    ciphertext := .blob ciphertext }

/-- What admission does to a database it finds empty. -/
def createCustody : Tx Database Unit := do
  initializeInTransaction suite env storeSchema
  initializeInTransaction suite env auditSchema
  execute env fun db => db.create bindingSchema
  let nonce ← urandom env
  let ciphertext ← encrypt suite master nonce custodyWitness (.custody providerId)
  execute env fun db => db.insertBinding (bindingRow providerId nonce ciphertext)

def createUnlessObserved (observed : List Declaration) : Tx Database Unit :=
  if observed = [] then createCustody suite env master providerId else pure ()

end

/-- The `except` clauses of `admit_provider_custody`. -/
def custodyRaised : Raised → Raised
  | .sqlite .notADatabase => .custodyRejected
  | .sqlite .corrupt => .custodyRejected
  | .sqlite .operational => .custodyUnavailable
  | .integrityError => .custodyUnavailable
  | .osError => .custodyUnavailable
  | raised => raised

def requirePath : DatabasePath → Except Raised Unit
  | .usable => .ok ()
  | .refused => .error .custodyRejected
  | .osError => .error .osError

section

variable {suite : CryptoSuite}

/-- The transaction of `admit_provider_custody`. -/
def admitInTransaction (admission : Admission suite) : Tx Database Unit := do
  statement admission.env
  let observed ← query admission.env fun db => observedSchema db.schema
  createUnlessObserved suite admission.env admission.master admission.providerId observed
  let declared ← query admission.env fun db => observedSchema db.schema
  raiseIf (declared ≠ expectedSchema) .custodyRejected
  verifyBinding suite admission.env admission.master admission.providerId

def admitProviderCustody (admission : Admission suite) : Tx Database Unit :=
  mapRaised custodyRaised do
    ofExcept (requirePath admission.path)
    withConnection admission.env (do statement admission.env; statement admission.env)
      (admitInTransaction admission)

end

/-! ### What an admission does -/

/-- The row authenticates under the identity. -/
structure Authenticates (suite : CryptoSuite) (master : MasterKey) (providerId : String)
    (row : BindingRow) (nonce ciphertext : Bytes) : Prop where
  singleton : row.singleton = .integer 1
  version : row.schemaVersion = .integer schemaVersion
  provider : row.providerId = .text providerId
  nonceBlob : row.nonce = .blob nonce
  nonceLength : nonce.length = 12
  ciphertextBlob : row.ciphertext = .blob ciphertext
  ciphertextLength : ciphertext.length = custodyWitness.length + 16
  witness : master.decrypt suite nonce ciphertext (context providerId) = some custodyWitness

/-- The database has exactly one binding row, and it authenticates under the
identity. -/
def BoundTo (suite : CryptoSuite) (db : Database) (master : MasterKey) (providerId : String) :
    Prop :=
  ∃ row nonce ciphertext, db.binding = [row] ∧
    Authenticates suite master providerId row nonce ciphertext

/-- The database is in the custody of the identity. -/
structure InCustody (suite : CryptoSuite) (db : Database) (master : MasterKey)
    (providerId : String) : Prop where
  declared : observedSchema db.schema = expectedSchema
  bound : BoundTo suite db master providerId

section

variable {suite : CryptoSuite}

theorem verifyRow_eq_ok {master : MasterKey} {providerId : String} {row : BindingRow} :
    verifyRow suite master providerId row = .ok () ↔
      ∃ nonce ciphertext, Authenticates suite master providerId row nonce ciphertext := by
  constructor
  · intro hverify
    unfold verifyRow at hverify
    split at hverify
    · next nonce ciphertext hnonce hciphertext =>
        rcases bind_eq_ok.mp hverify with ⟨_, hfields, hwitness⟩
        rw [raiseIf_eq_ok] at hfields hwitness
        simp only [not_or, Decidable.not_not] at hfields hwitness
        obtain ⟨hsingleton, hversion, hprovider, hlength, hlength'⟩ := hfields
        exact ⟨nonce, ciphertext, hsingleton, hversion, hprovider, hnonce, hlength, hciphertext,
          hlength', hwitness⟩
    · cases hverify
  · rintro ⟨nonce, ciphertext, hauthenticates⟩
    unfold verifyRow
    rw [hauthenticates.nonceBlob, hauthenticates.ciphertextBlob]
    refine bind_eq_ok.mpr ⟨(), raiseIf_eq_ok.mpr ?_, raiseIf_eq_ok.mpr ?_⟩
    · rw [hauthenticates.singleton, hauthenticates.version, hauthenticates.provider,
        hauthenticates.nonceLength, hauthenticates.ciphertextLength]
      simp
    · rw [hauthenticates.witness]
      simp

variable {env : Env suite} {master : MasterKey} {providerId : String}
variable {db : Database} {log : List Encryption}

theorem verifyBinding_ends :
    Ends (verifyBinding suite env master providerId) db log
      (fun _ db' log' => BoundTo suite db master providerId ∧ db' = db ∧ log' = log)
      (fun _ _ log' => ((∃ raised, env.Faults raised) ∨ ¬ BoundTo suite db master providerId) ∧
        log' = log) := by
  refine Ends.bind (ends_query ?_ fun raised hfault => ⟨.inl ⟨raised, hfault⟩, rfl⟩)
  cases hbinding : db.binding with
  | nil =>
      apply ends_throw
      refine ⟨.inr ?_, rfl⟩
      rintro ⟨row, _, _, hrow, _⟩
      rw [hbinding] at hrow
      cases hrow
  | cons row rest =>
      cases rest with
      | cons other rest =>
          apply ends_throw
          refine ⟨.inr ?_, rfl⟩
          rintro ⟨found, _, _, hfound, _⟩
          rw [hbinding] at hfound
          cases hfound
      | nil =>
          apply ends_ofExcept
          · rintro ⟨⟩ hverify
            obtain ⟨nonce, ciphertext, hauthenticates⟩ := verifyRow_eq_ok.mp hverify
            exact ⟨⟨row, nonce, ciphertext, hbinding, hauthenticates⟩, rfl, rfl⟩
          · intro raised hverify
            refine ⟨.inr ?_, rfl⟩
            rintro ⟨found, nonce, ciphertext, hfound, hauthenticates⟩
            rw [hbinding] at hfound
            cases hfound
            rw [verifyRow_eq_ok.mpr ⟨nonce, ciphertext, hauthenticates⟩] at hverify
            cases hverify

/-- A `CREATE` statement adds its object, or finds it. -/
theorem create_eq_ok {statement : CreateStatement} {db' : Database}
    (hcreate : db.create statement = .ok db') :
    db' = { db with schema := db'.schema } ∧
      (named db.schema statement.sameKinds statement.name = true → db' = db) := by
  unfold Database.create at hcreate
  split at hcreate
  · cases hcreate
  split at hcreate
  · cases hcreate
  split at hcreate
  · split at hcreate
    · cases hcreate
      exact ⟨rfl, fun _ => rfl⟩
    · cases hcreate
  · next hname =>
      cases hcreate
      exact ⟨rfl, fun htaken => absurd htaken hname⟩

/-- Creating a schema changes no row. -/
theorem initializeInTransaction_ends {statements : List CreateStatement} :
    Ends (initializeInTransaction suite env statements) db log
      (fun _ db' log' => db' = { db with schema := db'.schema } ∧ log' = log)
      (fun _ _ log' => log' = log) := by
  induction statements generalizing db with
  | nil => exact ends_pure ⟨rfl, rfl⟩
  | cons statement statements ih =>
      apply Ends.bind
      apply ends_execute
      · intro db' hcreate
        refine ih.mono ?_ (fun _ _ _ hlog => hlog)
        rintro _ db'' _ ⟨hrows, rfl⟩
        refine ⟨?_, rfl⟩
        rw [hrows, (create_eq_ok hcreate).1]
      · intro _ _
        rfl
      · intro _ _
        rfl

/-- The custody a database that was empty is given. -/
structure CreatedCustody (admission : Admission suite) (db db' : Database)
    (made : List Encryption) (nonce ciphertext : Bytes) : Prop where
  encrypts : admission.master.encrypt suite nonce custodyWitness
    (context admission.providerId) = .ok ciphertext
  made_eq : made = [⟨admission.master.key, nonce, custodyWitness,
    .custody admission.providerId, ciphertext⟩]
  binding_eq : db'.binding = db.binding ++ [bindingRow admission.providerId nonce ciphertext]
  tables_eq : db'.tables = db.tables

theorem createCustody_ends {admission : Admission suite} :
    Ends (createCustody suite admission.env admission.master admission.providerId) db []
      (fun _ db' made => ∃ nonce ciphertext, CreatedCustody admission db db' made nonce ciphertext)
      (fun _ _ _ => True) := by
  refine Ends.bind (initializeInTransaction_ends.mono ?_ fun _ _ _ _ => trivial)
  rintro _ db₁ _ ⟨hstore, rfl⟩
  refine Ends.bind (initializeInTransaction_ends.mono ?_ fun _ _ _ _ => trivial)
  rintro _ db₂ _ ⟨haudit, rfl⟩
  refine Ends.bind (ends_execute ?_ (fun _ _ => trivial) fun _ _ => trivial)
  intro db₃ hcreate
  refine Ends.bind (ends_urandom ?_)
  refine Ends.bind (ends_encrypt ?_ fun _ _ => trivial)
  intro ciphertext hencrypt
  refine ends_execute ?_ (fun _ _ => trivial) fun _ _ => trivial
  intro db₄ hinsert
  unfold Database.insertBinding at hinsert
  split at hinsert
  · cases hinsert
  · cases hinsert
    refine ⟨_, ciphertext, hencrypt, rfl, ?_, ?_⟩
    · rw [(create_eq_ok hcreate).1, haudit, hstore]
    · rw [(create_eq_ok hcreate).1, haudit, hstore]

/-- What an accepted admission leaves: custody of its identity, in the database it
found or in one it created. -/
structure Admitted (admission : Admission suite) (db db' : Database) (made : List Encryption) :
    Prop where
  inCustody : InCustody suite db' admission.master admission.providerId
  kept : observedSchema db.schema ≠ [] → db' = db ∧ made = []
  created : observedSchema db.schema = [] →
    ∃ nonce ciphertext, CreatedCustody admission db db' made nonce ciphertext

/-- What can stop an admission. -/
def AdmissionBlocked (admission : Admission suite) (db : Database) : Prop :=
  (∃ raised, admission.env.Faults raised) ∨ admission.path ≠ .usable ∨
    observedSchema db.schema = [] ∨ ¬ InCustody suite db admission.master admission.providerId

theorem createUnlessObserved_ends {admission : Admission suite} :
    Ends (createUnlessObserved suite admission.env admission.master admission.providerId
        (observedSchema db.schema)) db []
      (fun _ db' made => (observedSchema db.schema ≠ [] → db' = db ∧ made = []) ∧
        (observedSchema db.schema = [] →
          ∃ nonce ciphertext, CreatedCustody admission db db' made nonce ciphertext))
      (fun _ _ _ => observedSchema db.schema = []) := by
  apply ends_ite
  · intro hempty
    refine createCustody_ends.mono ?_ (fun _ _ _ _ => hempty)
    rintro _ db' made hcreated
    exact ⟨fun hobserved => absurd hempty hobserved, fun _ => hcreated⟩
  · intro hobserved
    apply ends_pure
    exact ⟨fun _ => ⟨rfl, rfl⟩, fun hempty => absurd hempty hobserved⟩

theorem admitInTransaction_ends {admission : Admission suite} :
    Ends (admitInTransaction admission) db []
      (fun _ db' made => Admitted admission db db' made)
      (fun _ _ _ => AdmissionBlocked admission db) := by
  have hfaults : ∀ raised, admission.env.Faults raised → AdmissionBlocked admission db :=
    fun raised hfault => .inl ⟨raised, hfault⟩
  refine Ends.bind (ends_statement ?_ hfaults)
  refine Ends.bind (ends_query ?_ hfaults)
  refine Ends.bind (createUnlessObserved_ends.mono ?_ fun _ _ _ hempty => .inr (.inr (.inl hempty)))
  rintro _ db' made ⟨hkept, hcreated⟩
  refine Ends.bind (ends_query ?_ hfaults)
  -- From here on a database that was not empty is the one the admission found.
  have hblocked : ¬ InCustody suite db' admission.master admission.providerId →
      AdmissionBlocked admission db := by
    intro hnot
    by_cases hempty : observedSchema db.schema = []
    · exact .inr (.inr (.inl hempty))
    · rw [(hkept hempty).1] at hnot
      exact .inr (.inr (.inr hnot))
  refine Ends.bind (ends_raiseIf ?_ ?_)
  · intro hdeclared
    exact hblocked fun hcustody => hdeclared hcustody.declared
  · intro hdeclared
    refine verifyBinding_ends.mono ?_ ?_
    · rintro _ db'' made' ⟨hbound, rfl, rfl⟩
      exact ⟨⟨Decidable.not_not.mp hdeclared, hbound⟩, hkept, hcreated⟩
    · rintro _ _ _ ⟨hfault | hbound, _⟩
      · exact .inl hfault
      · exact hblocked fun hcustody => hbound hcustody.bound

/-- An admission is accepted into custody, or refused with the database as it was. -/
theorem admitProviderCustody_ends {admission : Admission suite} :
    Ends (admitProviderCustody admission) db []
      (fun _ db' made => Admitted admission db db' made)
      (fun _ db' _ => AdmissionBlocked admission db ∧ db' = db) := by
  have hfaults : ∀ raised, admission.env.Faults raised →
      AdmissionBlocked admission db ∧ db = db :=
    fun raised hfault => ⟨.inl ⟨raised, hfault⟩, rfl⟩
  apply ends_mapRaised
  apply Ends.bind
  apply ends_ofExcept
  · intro _ _
    apply ends_withConnection
    refine Ends.bind (ends_statement ?_ hfaults)
    refine ends_statement ?_ hfaults
    refine admitInTransaction_ends.mono ?_ (fun _ _ _ hblocked => ⟨hblocked, rfl⟩)
    intro _ _ _ hadmitted
    exact ⟨hadmitted, hfaults⟩
  · intro raised hpath
    refine ⟨.inr (.inl ?_), rfl⟩
    intro husable
    rw [husable] at hpath
    cases hpath

/-! ### The first admission -/

/-- A statement whose name is free, and whose owner is there if it has one. -/
def creatable (schema : List SchemaObject) (statement : CreateStatement) : Bool :=
  (statement.kind ≠ "index" || named schema ["table"] statement.owner) &&
    !named schema statement.otherKinds statement.name &&
    !named schema statement.sameKinds statement.name

def creatableInTurn : List SchemaObject → List CreateStatement → Bool
  | _, [] => true
  | schema, statement :: statements =>
      creatable schema statement && creatableInTurn (schema ++ statement.declares) statements

theorem create_of_creatable {statement : CreateStatement}
    (hcreatable : creatable db.schema statement = true) :
    db.create statement = .ok { db with schema := db.schema ++ statement.declares } := by
  simp only [creatable, Bool.and_eq_true, Bool.or_eq_true, decide_eq_true_eq,
    Bool.not_eq_true'] at hcreatable
  obtain ⟨⟨howner, hother⟩, hsame⟩ := hcreatable
  unfold Database.create
  rw [if_neg, hother, hsame]
  · rfl
  · rintro ⟨hindex, hmissing⟩
    rcases howner with hkind | howner
    · exact hkind hindex
    · rw [hmissing] at howner
      cases howner

theorem initializeInTransaction_creates (hfaultless : env.Faultless)
    {statements : List CreateStatement}
    (hcreatable : creatableInTurn db.schema statements = true) :
    Ends (initializeInTransaction suite env statements) db log
      (fun _ db' log' =>
        db' = { db with schema := db.schema ++ statements.flatMap CreateStatement.declares } ∧
          log' = log)
      (fun _ _ _ => False) := by
  induction statements generalizing db with
  | nil =>
      apply ends_pure
      rw [List.flatMap_nil, List.append_nil]
      exact ⟨rfl, rfl⟩
  | cons statement statements ih =>
      rw [creatableInTurn, Bool.and_eq_true] at hcreatable
      have hcreate := create_of_creatable hcreatable.1
      refine Ends.bind (ends_execute ?_ ?_ fun _ hfault => hfaultless.not_faults hfault)
      · intro db' hdone
        rw [hcreate] at hdone
        cases hdone
        refine (ih hcreatable.2).mono ?_ (fun _ _ _ hfalse => hfalse)
        rintro _ db'' _ ⟨hrest, rfl⟩
        refine ⟨?_, rfl⟩
        rw [hrest, List.flatMap_cons, List.append_assoc]
      · intro raised hfailed
        rw [hcreate] at hfailed
        cases hfailed

theorem creatable_storeSchema : creatableInTurn [] storeSchema = true := by
  decide +kernel

theorem creatable_auditSchema :
    creatableInTurn (storeSchema.flatMap CreateStatement.declares) auditSchema = true := by
  decide +kernel

theorem creatable_bindingSchema :
    creatable ((storeSchema ++ auditSchema).flatMap CreateStatement.declares) bindingSchema =
      true := by
  decide +kernel

/-- What the first admission of a database without objects needs of the cipher: it encrypts
the witness, adds a tag of 16 bytes, and decrypts what it encrypted. -/
structure EncryptsWitness (admission : Admission suite) (ciphertext : Bytes) : Prop where
  encrypts : admission.master.encrypt suite (admission.env.urandom 0) custodyWitness
    (context admission.providerId) = .ok ciphertext
  tagged : ciphertext.length = custodyWitness.length + 16
  decrypts : suite.DecryptsOwn

theorem createCustody_creates {admission : Admission suite}
    (hfaultless : admission.env.Faultless) {ciphertext : Bytes}
    (hwitness : EncryptsWitness admission ciphertext) :
    Ends (createCustody suite admission.env admission.master admission.providerId)
      Database.objectFree []
      (fun _ db' _ => InCustody suite db' admission.master admission.providerId)
      (fun _ _ _ => False) := by
  have hfaults : ∀ raised, admission.env.Faults raised → False := fun _ =>
    hfaultless.not_faults
  refine Ends.bind ((initializeInTransaction_creates hfaultless creatable_storeSchema).mono ?_
    fun _ _ _ hfalse => hfalse)
  rintro _ _ _ ⟨rfl, rfl⟩
  refine Ends.bind ((initializeInTransaction_creates hfaultless creatable_auditSchema).mono ?_
    fun _ _ _ hfalse => hfalse)
  rintro _ _ _ ⟨rfl, rfl⟩
  have hschema : Database.objectFree.schema ++ storeSchema.flatMap CreateStatement.declares ++
      auditSchema.flatMap CreateStatement.declares =
        (storeSchema ++ auditSchema).flatMap CreateStatement.declares := by
    rw [List.flatMap_append]
    rfl
  dsimp only
  rw [hschema]
  generalize hstores : Database.mk _ Database.objectFree.binding _ = stores
  have hcreate : stores.create bindingSchema =
      .ok { stores with schema := stores.schema ++ bindingSchema.declares } := by
    apply create_of_creatable
    rw [← hstores]
    exact creatable_bindingSchema
  have hencrypts : admission.master.encrypt suite (admission.env.urandom ([] : List Encryption).length)
      custodyWitness (Associated.custody admission.providerId).data = .ok ciphertext :=
    hwitness.encrypts
  apply Ends.bind
  apply ends_execute
  · intro db' hdone
    rw [hcreate] at hdone
    cases hdone
    apply Ends.bind
    apply ends_urandom
    apply Ends.bind
    apply ends_encrypt
    · intro found hfound
      rw [hencrypts] at hfound
      cases hfound
      refine ends_execute ?_ ?_ hfaults
      · intro db'' hinsert
        subst hstores
        cases hinsert
        constructor
        · change observedSchema (_ ++ _) = _
          rw [← observedSchema_declares, allStatements_declares]
        · exact ⟨_, _, _, rfl, rfl, rfl, rfl, rfl, admission.env.urandom_length 0, rfl,
            hwitness.tagged,
            MasterKey.decrypt_of_encrypt hwitness.decrypts rfl hwitness.encrypts⟩
      · intro raised hinsert
        subst hstores
        cases hinsert
    · intro raised hraised
      rw [hencrypts] at hraised
      cases hraised
  · intro raised hfailed
    rw [hcreate] at hfailed
    cases hfailed
  · exact hfaults

/-- The first admission of a database without objects is accepted, over a usable path and
without a database failure. -/
theorem admitProviderCustody_creates {admission : Admission suite}
    (hpath : admission.path = .usable) (hfaultless : admission.env.Faultless)
    {ciphertext : Bytes} (hwitness : EncryptsWitness admission ciphertext) :
    Ends (admitProviderCustody admission) Database.objectFree [] (fun _ _ _ => True)
      (fun _ _ _ => False) := by
  have hfaults : ∀ raised, admission.env.Faults raised → False := fun _ =>
    hfaultless.not_faults
  apply ends_mapRaised
  rw [hpath]
  apply Ends.bind
  apply ends_ofExcept
  · intro _ _
    apply ends_withConnection
    refine Ends.bind (ends_statement ?_ hfaults)
    refine ends_statement ?_ hfaults
    refine Ends.bind (ends_statement ?_ hfaults)
    refine Ends.bind (ends_query ?_ hfaults)
    have hempty : observedSchema Database.objectFree.schema = [] := rfl
    rw [createUnlessObserved, if_pos hempty]
    refine Ends.bind ((createCustody_creates hfaultless hwitness).mono ?_
      fun _ _ _ hfalse => hfalse)
    intro _ db' made hcustody
    refine Ends.bind (ends_query ?_ hfaults)
    refine Ends.bind (ends_raiseIf ?_ ?_)
    · intro hdeclared
      exact hdeclared hcustody.declared
    · intro _
      refine verifyBinding_ends.mono ?_ ?_
      · intro _ _ _ _
        exact ⟨trivial, hfaults⟩
      · rintro _ _ _ ⟨⟨raised, hfault⟩ | hunbound, _⟩
        · exact hfaults raised hfault
        · exact hunbound hcustody.bound
  · intro raised hpath
    cases hpath

end

end SecretsCustody
