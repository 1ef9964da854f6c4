/-
Custody over whole executions: admissions by any clients, store operations,
audit appends and schema statements on one database, in any interleaving.
-/
import SecretsCustody.Custody
import SecretsCustody.Executions

namespace SecretsCustody

open Effect History

/-- What a program returned or raised, and what it encrypted on the way. -/
structure CustodyOutcome where
  result : Except Raised Unit
  encryptions : List Encryption

def runOn {δ α : Type} (program : Tx δ α) (db : δ) : CustodyOutcome × δ :=
  match program.run { db := db, executed := 0, encryptions := [] } with
  | .ok _ finish => (⟨.ok (), finish.encryptions⟩, finish.db)
  | .error raised finish => (⟨.error raised, finish.encryptions⟩, finish.db)

theorem runOn_cases {δ α : Type} {program : Tx δ α} {db : δ}
    {returns : α → δ → List Encryption → Prop}
    {raises : Raised → δ → List Encryption → Prop}
    (hends : Ends program db [] returns raises) :
    (∃ value, (runOn program db).1.result = .ok () ∧
      returns value (runOn program db).2 (runOn program db).1.encryptions) ∨
    ∃ raised, (runOn program db).1.result = .error raised ∧
      raises raised (runOn program db).2 (runOn program db).1.encryptions := by
  have hrun := hends 0
  unfold Exits at hrun
  unfold runOn
  split at hrun
  · next value finish heq =>
      rw [heq]
      exact .inl ⟨value, rfl, hrun⟩
  · next raised finish heq =>
      rw [heq]
      exact .inr ⟨raised, rfl, hrun⟩

/-- The tables an operation needs to change a row. -/
def Operation.tablesUsed : Operation → List String
  | .revokeSecretVersion _ => ["secret_versions", "secret_version_revocations", "audit_records"]
  | .generateDelegationKey _ => ["secret_versions", "delegation_key_generations", "audit_records"]
  | .resolveSecretForUse _ => ["secret_versions", "secret_resolution_selections"]
  | _ => ["secret_versions"]

section

variable {suite : CryptoSuite}

/-- A program on the tables it uses; without them its statements find no table. -/
def onTables {α : Type} (used : List String) (missing : Raised) (program : Tx Tables α)
    (db : Database) : CustodyOutcome × Database :=
  if used.all (named db.schema ["table"]) then
    let (outcome, tables) := runOn program db.tables
    (outcome, { db with tables := tables })
  else (⟨.error missing, []⟩, db)

/-- What a client can do to the database.  `initialize` commits each of its statements on
its own. -/
inductive CustodyAction (suite : CryptoSuite) where
  | admitCustody (admission : Admission suite)
  | store (call : Call suite)
  | append (env : Env suite) (record : AuditRecord)
  | create (env : Env suite) (statement : CreateStatement)
      (owned : statement ∈ storeSchema ++ auditSchema)

def act (db : Database) : CustodyAction suite → CustodyOutcome × Database
  | .admitCustody admission => runOn (admitProviderCustody admission) db
  | .store call =>
      onTables call.operation.tablesUsed (.sqlite .operational) call.program db
  | .append env record => onTables ["audit_records"] .auditUnavailable (append env record) db
  | .create env statement _ => runOn (execute env fun db => db.create statement) db

def CustodyAction.readsOnly : CustodyAction suite → Bool
  | .store call => call.operation.readsOnly
  | _ => false

/-- A database without objects after its clients did the given events. -/
def runCustody (events : List (Event (CustodyAction suite))) :
    System Database (CustodyAction suite) CustodyOutcome :=
  System.run act CustodyAction.readsOnly Database.objectFree events

/-! ### One action -/

theorem runOn_program (tables : Tables) (call : Call suite) :
    (runOn call.program tables).2 = (perform tables call).2 := by
  unfold runOn perform
  cases call.program.run { db := tables, executed := 0, encryptions := [] } <;> rfl

theorem admit_cases (db : Database) (admission : Admission suite) :
    ((act db (.admitCustody admission)).1.result = .ok () ∧
      Admitted admission db (act db (.admitCustody admission)).2
        (act db (.admitCustody admission)).1.encryptions) ∨
    (∃ raised, (act db (.admitCustody admission)).1.result = .error raised ∧
      AdmissionBlocked admission db ∧ (act db (.admitCustody admission)).2 = db) := by
  rcases runOn_cases (@admitProviderCustody_ends suite db admission) with
    ⟨_, hresult, hadmitted⟩ | ⟨raised, hresult, hblocked, hsame⟩
  · exact .inl ⟨hresult, hadmitted⟩
  · exact .inr ⟨raised, hresult, hblocked, hsame⟩

theorem onTables_frame {α : Type} (used : List String) (missing : Raised)
    (program : Tx Tables α) (db : Database) :
    (onTables used missing program db).2.schema = db.schema ∧
      (onTables used missing program db).2.binding = db.binding := by
  unfold onTables
  split <;> exact ⟨rfl, rfl⟩

theorem create_cases (db : Database) (env : Env suite) (statement : CreateStatement)
    (howned : statement ∈ storeSchema ++ auditSchema) :
    (act db (.create env statement howned)).2 = db ∨
      db.create statement = .ok (act db (.create env statement howned)).2 := by
  have hends : Ends (execute env fun db => db.create statement) db []
      (fun _ db' _ => db.create statement = .ok db') (fun _ db' _ => db' = db) :=
    ends_execute (fun _ hcreate => hcreate) (fun _ _ => rfl) fun _ _ => rfl
  rcases runOn_cases hends with ⟨_, _, hcreate⟩ | ⟨_, _, hsame⟩
  · exact .inr hcreate
  · exact .inl hsame

theorem act_readsOnly (db : Database) (action : CustodyAction suite)
    (hreads : action.readsOnly = true) : (act db action).2 = db := by
  cases action with
  | admitCustody admission => cases hreads
  | append env record => cases hreads
  | create env statement owned => cases hreads
  | store call =>
      have hsame := perform_readsOnly db.tables call hreads
      change (onTables _ _ call.program db).2 = db
      unfold onTables
      split
      · dsimp only
        rw [runOn_program, hsame]
      · rfl

theorem expectedSchema_ne_nil : expectedSchema ≠ [] := by
  intro hempty
  have hlength := congrArg List.length hempty
  rw [expectedSchema, List.length_insertionSort, expectedDeclarations, List.length_map] at hlength
  cases hlength

theorem storeStatement_cases {statement : CreateStatement}
    (howned : statement ∈ storeSchema ++ auditSchema) :
    statement.kind = "table" ∨ statement.kind = "index" := by
  revert statement
  decide +kernel

/-- A declared schema has the object of every statement of the stores. -/
theorem object_of_declared {schema : List SchemaObject}
    (hdeclared : observedSchema schema = expectedSchema) {statement : CreateStatement}
    (howned : statement ∈ storeSchema ++ auditSchema) :
    ∃ object ∈ schema, object.kind = statement.kind ∧ object.name = statement.name := by
  have hexpected : expectedDeclaration statement.text.toList ∈ expectedDeclarations :=
    List.mem_map_of_mem (List.mem_append_left _ howned)
  obtain ⟨object, hobject, heq⟩ := List.mem_map.mp
    ((declaresExpected_of_observed hdeclared).symm.subset hexpected)
  obtain ⟨_, _, _, _, hkind, hname, _⟩ := statement.creates
  have hobjectKind : object.kind = statement.kind := by rw [← hkind, ← heq]; rfl
  have hobjectName : object.name = statement.name := by rw [← hname, ← heq]; rfl
  exact ⟨object, List.mem_of_mem_filter hobject, hobjectKind, hobjectName⟩

/-- In a declared schema every statement of the stores finds its object. -/
theorem named_of_declared {schema : List SchemaObject}
    (hdeclared : observedSchema schema = expectedSchema) {statement : CreateStatement}
    (howned : statement ∈ storeSchema ++ auditSchema) :
    named schema statement.sameKinds statement.name = true := by
  obtain ⟨object, hobject, hobjectKind, hobjectName⟩ := object_of_declared hdeclared howned
  unfold named
  rw [List.any_eq_true]
  refine ⟨object, hobject, ?_⟩
  rw [hobjectName, hobjectKind]
  unfold CreateStatement.sameKinds
  rcases storeStatement_cases howned with htable | hindex
  · rw [htable]
    simp
  · rw [hindex]
    simp

/-- Custody depends on the schema and the binding only. -/
theorem InCustody.congr {db db' : Database} {master : MasterKey} {providerId : String}
    (hcustody : InCustody suite db master providerId) (hschema : db'.schema = db.schema)
    (hbinding : db'.binding = db.binding) : InCustody suite db' master providerId := by
  constructor
  · rw [hschema]
    exact hcustody.declared
  · unfold BoundTo
    rw [hbinding]
    exact hcustody.bound

/-- A schema that is declared stays as it is, with its binding, whatever is done. -/
theorem act_declared {db : Database} (hdeclared : observedSchema db.schema = expectedSchema)
    (action : CustodyAction suite) :
    (act db action).2.schema = db.schema ∧ (act db action).2.binding = db.binding := by
  cases action with
  | admitCustody admission =>
      rcases admit_cases db admission with ⟨_, hadmitted⟩ | ⟨_, _, _, hsame⟩
      · have hobserved : observedSchema db.schema ≠ [] := by
          rw [hdeclared]
          exact expectedSchema_ne_nil
        rw [(hadmitted.kept hobserved).1]
        exact ⟨rfl, rfl⟩
      · rw [hsame]
        exact ⟨rfl, rfl⟩
  | store call => exact onTables_frame _ _ _ db
  | append env record => exact onTables_frame _ _ _ db
  | create env statement howned =>
      rcases create_cases db env statement howned with hsame | hcreate
      · rw [hsame]
        exact ⟨rfl, rfl⟩
      · rw [(create_eq_ok hcreate).2 (named_of_declared hdeclared howned)]
        exact ⟨rfl, rfl⟩

/-- Nothing takes a binding row away or changes one. -/
theorem act_binding (db : Database) (action : CustodyAction suite) :
    db.binding <+: (act db action).2.binding := by
  cases action with
  | admitCustody admission =>
      rcases admit_cases db admission with ⟨_, hadmitted⟩ | ⟨_, _, _, hsame⟩
      · by_cases hobserved : observedSchema db.schema = []
        · obtain ⟨nonce, ciphertext, hcreated⟩ := hadmitted.created hobserved
          rw [hcreated.binding_eq]
          exact List.prefix_append _ _
        · rw [(hadmitted.kept hobserved).1]
      · rw [hsame]
  | store call =>
      rw [act, (onTables_frame _ _ _ db).2]
  | append env record =>
      rw [act, (onTables_frame _ _ _ db).2]
  | create env statement howned =>
      rcases create_cases db env statement howned with hsame | hcreate
      · rw [hsame]
      · rw [(create_eq_ok hcreate).1]

/-! ### The invariant of a run -/

abbrev CustodyStep (suite : CryptoSuite) := Entry Database (CustodyAction suite) CustodyOutcome

/-- The step is an admission that was accepted. -/
def Accepts (step : CustodyStep suite) (admission : Admission suite) : Prop :=
  step.input = .admitCustody admission ∧ step.output.result = .ok ()

/-- After the given steps the database is unbound, or bound by one of them, and in the
custody of every identity they accepted. -/
structure Custodial (steps : List (CustodyStep suite)) (db : Database) : Prop where
  bound : db.binding = [] ∨ observedSchema db.schema = expectedSchema ∧
    ∃ step ∈ steps, ∃ admission nonce ciphertext, Accepts step admission ∧
      admission.master.encrypt suite nonce custodyWitness (context admission.providerId) =
        .ok ciphertext ∧
      db.binding = [bindingRow admission.providerId nonce ciphertext]
  accepted : ∀ step ∈ steps, ∀ admission, Accepts step admission →
    InCustody suite db admission.master admission.providerId

theorem Custodial.binding_ne_nil {steps : List (CustodyStep suite)} {db : Database}
    (hcustodial : Custodial steps db) {step : CustodyStep suite} (hstep : step ∈ steps)
    {admission : Admission suite} (haccepts : Accepts step admission) : db.binding ≠ [] := by
  obtain ⟨_, ⟨row, _, _, hrow, _⟩⟩ := hcustodial.accepted step hstep admission haccepts
  rw [hrow]
  exact List.cons_ne_nil row []

/-- A step that accepted no one and left schema and binding keeps the invariant. -/
theorem Custodial.keep {steps : List (CustodyStep suite)} {db db' : Database}
    (hcustodial : Custodial steps db) {step : CustodyStep suite}
    (haccepted : ∀ admission, Accepts step admission →
      InCustody suite db' admission.master admission.providerId)
    (hschema : db'.schema = db.schema ∨ db.binding = []) (hbinding : db'.binding = db.binding) :
    Custodial (steps ++ [step]) db' := by
  constructor
  · rw [hbinding]
    rcases hcustodial.bound with hempty | ⟨hdeclared, bound, hbound, hbinds⟩
    · exact .inl hempty
    · obtain ⟨admission, nonce, ciphertext, haccepts, hencrypt, hrow⟩ := hbinds
      have hsame : db'.schema = db.schema := by
        refine hschema.resolve_right ?_
        rw [hrow]
        exact List.cons_ne_nil _ _
      exact .inr ⟨hsame ▸ hdeclared, bound, List.mem_append_left _ hbound, admission, nonce,
        ciphertext, haccepts, hencrypt, hrow⟩
  · intro found hfound admission haccepts
    rcases List.mem_append.mp hfound with hearlier | hlast
    · have hnonempty := hcustodial.binding_ne_nil hearlier haccepts
      exact (hcustodial.accepted found hearlier admission haccepts).congr
        (hschema.resolve_right hnonempty) hbinding
    · rw [List.mem_singleton] at hlast
      subst hlast
      exact haccepted admission haccepts

theorem Custodial.step {steps : List (CustodyStep suite)} {db : Database}
    (hcustodial : Custodial steps db) (action : CustodyAction suite) :
    Custodial (steps ++ [entry act db action]) (act db action).2 := by
  cases action with
  | store call =>
      have hframe := onTables_frame call.operation.tablesUsed (.sqlite .operational) call.program db
      refine hcustodial.keep ?_ (.inl hframe.1) hframe.2
      rintro admission ⟨⟨⟩, _⟩
  | append env record =>
      have hframe := onTables_frame ["audit_records"] .auditUnavailable (append env record) db
      refine hcustodial.keep ?_ (.inl hframe.1) hframe.2
      rintro admission ⟨⟨⟩, _⟩
  | create env statement howned =>
      have hbinding : (act db (.create env statement howned)).2.binding =
          db.binding := by
        rcases create_cases db env statement howned with hsame | hcreate
        · rw [hsame]
        · rw [(create_eq_ok hcreate).1]
      have hschema : (act db (.create env statement howned)).2.schema =
          db.schema ∨ db.binding = [] := by
        rcases hcustodial.bound with hempty | ⟨hdeclared, _⟩
        · exact .inr hempty
        · exact .inl (act_declared hdeclared _).1
      refine hcustodial.keep ?_ hschema hbinding
      rintro admission ⟨⟨⟩, _⟩
  | admitCustody admission =>
      rcases admit_cases db admission with ⟨hresult, hadmitted⟩ |
        ⟨raised, hresult, _, hsame⟩
      · have haccepted : ∀ other, Accepts (entry act db (.admitCustody admission)) other →
            InCustody suite (act db (.admitCustody admission)).2 other.master
              other.providerId := by
          rintro other ⟨⟨⟩, _⟩
          exact hadmitted.inCustody
        by_cases hobserved : observedSchema db.schema = []
        · obtain ⟨nonce, ciphertext, hcreated⟩ := hadmitted.created hobserved
          have hempty : db.binding = [] := by
            refine hcustodial.bound.resolve_right ?_
            rintro ⟨hdeclared, _⟩
            rw [hobserved] at hdeclared
            exact expectedSchema_ne_nil hdeclared.symm
          constructor
          · refine .inr ⟨hadmitted.inCustody.declared, _,
              List.mem_append_right _ (List.mem_singleton_self _), admission, nonce, ciphertext,
              ⟨rfl, hresult⟩, hcreated.encrypts, ?_⟩
            rw [hcreated.binding_eq, hempty]
            rfl
          · intro found hfound other haccepts
            rcases List.mem_append.mp hfound with hearlier | hlast
            · exact absurd hempty (hcustodial.binding_ne_nil hearlier haccepts)
            · rw [List.mem_singleton] at hlast
              subst hlast
              exact haccepted other haccepts
        · have hkept := (hadmitted.kept hobserved).1
          refine hcustodial.keep haccepted (.inl ?_) ?_
          · rw [hkept]
          · rw [hkept]
      · refine hcustodial.keep ?_ (.inl (congrArg _ hsame)) (congrArg _ hsame)
        rintro other ⟨⟨⟩, haccepts⟩
        change (act db (.admitCustody admission)).1.result = _ at haccepts
        rw [hresult] at haccepts
        cases haccepts

theorem custodial_trace (actions : List (CustodyAction suite)) :
    Custodial (trace act Database.objectFree actions) (final act Database.objectFree actions) := by
  refine @invariant_trace _ _ _ _ (fun steps db => Custodial steps db) _ _ ?_ ?_
  · exact ⟨.inl rfl, fun step hstep => nomatch hstep⟩
  · intro steps db action _ hcustodial
    exact hcustodial.step action

theorem runCustody_serial (events : List (Event (CustodyAction suite))) :
    ∃ actions, (runCustody events).log = trace act Database.objectFree actions ∧
      (runCustody events).committed = final act Database.objectFree actions :=
  (System.run_serial act_readsOnly Database.objectFree events).1

theorem runCustody_custodial (events : List (Event (CustodyAction suite))) :
    Custodial (runCustody events).log (runCustody events).committed := by
  obtain ⟨actions, hlog, hcommitted⟩ := runCustody_serial events
  rw [hlog, hcommitted]
  exact custodial_trace actions

theorem Authenticates.congr {master master' : MasterKey} {providerId : String} {row : BindingRow}
    {nonce ciphertext : Bytes} (hauthenticates :
      Authenticates suite master providerId row nonce ciphertext)
    (hkey : master'.key = master.key) :
    Authenticates suite master' providerId row nonce ciphertext := by
  refine { hauthenticates with witness := ?_ }
  rw [← hauthenticates.witness, MasterKey.decrypt, MasterKey.decrypt, hkey]

/-- An admission of an identity in whose custody the database is, over a usable path and
without a database failure, is accepted and changes nothing. -/
theorem admit_again {db : Database} {admission accepted : Admission suite}
    (hcustody : InCustody suite db accepted.master accepted.providerId)
    (hidentity : admission.identity = accepted.identity) (hpath : admission.path = .usable)
    (hfaultless : admission.env.Faultless) :
    (act db (.admitCustody admission)).1.result = .ok () ∧
      (act db (.admitCustody admission)).2 = db := by
  have hobserved : observedSchema db.schema ≠ [] := by
    rw [hcustody.declared]
    exact expectedSchema_ne_nil
  rcases admit_cases db admission with ⟨hresult, hadmitted⟩ | ⟨raised, _, hblocked, _⟩
  · exact ⟨hresult, (hadmitted.kept hobserved).1⟩
  · exfalso
    rcases hblocked with ⟨fault, hfault⟩ | hrefused | hempty | hnot
    · exact hfaultless.not_faults hfault
    · exact hrefused hpath
    · exact hobserved hempty
    · apply hnot
      obtain ⟨hdeclared, row, nonce, ciphertext, hrow, hauthenticates⟩ := hcustody
      have hkey : admission.master.key = accepted.master.key := congrArg Prod.fst hidentity
      have hprovider : admission.providerId = accepted.providerId := congrArg Prod.snd hidentity
      refine ⟨hdeclared, row, nonce, ciphertext, hrow, ?_⟩
      rw [hprovider]
      exact hauthenticates.congr hkey

/-- Authenticated encryption tells the keys of the admissions apart: none decrypts a custody
witness another encrypted. -/
def KeysCommit (steps : List (CustodyStep suite)) : Prop :=
  ∀ made ∈ steps, ∀ tried ∈ steps, ∀ creator admission, made.input = .admitCustody creator →
    tried.input = .admitCustody admission → ∀ nonce ciphertext,
      creator.master.encrypt suite nonce custodyWitness (context creator.providerId) =
        .ok ciphertext →
      admission.master.decrypt suite nonce ciphertext (context creator.providerId) =
        some custodyWitness → admission.master.key = creator.master.key

/-- Both admissions were accepted on the one binding row, so they have one identity. -/
theorem Custodial.identity {steps : List (CustodyStep suite)} {db : Database}
    (hcustodial : Custodial steps db) (hcommit : KeysCommit steps)
    {left right : CustodyStep suite} (hleft : left ∈ steps) (hright : right ∈ steps)
    {admission other : Admission suite} (haccepts : Accepts left admission)
    (haccepts' : Accepts right other) : other.identity = admission.identity := by
  obtain ⟨_, step, hstep, creator, nonce, ciphertext, hcreator, hencrypt, hrow⟩ :=
    hcustodial.bound.resolve_left (hcustodial.binding_ne_nil hleft haccepts)
  have hsame : ∀ found ∈ steps, ∀ admitted, Accepts found admitted →
      admitted.identity = creator.identity := by
    intro found hfound admitted hadmits
    obtain ⟨_, row, nonce', ciphertext', hrow', hauthenticates⟩ :=
      hcustodial.accepted found hfound admitted hadmits
    rw [hrow] at hrow'
    obtain rfl := (List.cons.inj hrow').1
    have hnonce : nonce = nonce' := SqlValue.blob.inj hauthenticates.nonceBlob
    have hciphertext : ciphertext = ciphertext' :=
      SqlValue.blob.inj hauthenticates.ciphertextBlob
    have hprovider : creator.providerId = admitted.providerId :=
      SqlValue.text.inj hauthenticates.provider
    have hwitness := hauthenticates.witness
    rw [← hnonce, ← hciphertext, ← hprovider] at hwitness
    have hkey := hcommit step hstep found hfound creator admitted hcreator.1 hadmits.1 nonce
      ciphertext hencrypt hwitness
    unfold Admission.identity
    rw [hkey, hprovider]
  rw [hsame left hleft admission haccepts, hsame right hright other haccepts']

/-- One custody identity, over every execution from a database without objects. -/
structure SingleCustody (events : List (Event (CustodyAction suite))) : Prop where
  single : ∀ earlier later, events = earlier ++ later →
    (runCustody earlier).committed.binding.length ≤ 1
  fixed : ∀ earlier later, events = earlier ++ later →
    (runCustody earlier).committed.binding <+: (runCustody events).committed.binding
  identity : ∀ first ∈ (runCustody events).log, ∀ other ∈ (runCustody events).log,
    ∀ admission admission', Accepts first admission → Accepts other admission' →
      admission'.identity = admission.identity
  again : ∀ earlier step later, (runCustody events).log = earlier ++ step :: later →
    ∀ first ∈ earlier, ∀ accepted admission, Accepts first accepted →
      step.input = .admitCustody admission → admission.identity = accepted.identity →
        admission.path = .usable → admission.env.Faultless →
          step.output.result = .ok () ∧ step.after = step.before
  refused : ∀ step ∈ (runCustody events).log, ∀ admission raised,
    step.input = .admitCustody admission → step.output.result = .error raised →
      step.after = step.before

/-- A database that declares objects other than the expected ones, or whose binding does not
authenticate under the identity, refuses every admission and stays as it is. -/
def RefusesOthers (suite : CryptoSuite) : Prop :=
  ∀ (db : Database) (admission : Admission suite), declaredObjects db.schema ≠ [] →
    ¬ DeclaresExpected db.schema ∨ ¬ BoundTo suite db admission.master admission.providerId →
      ∃ raised, (act db (.admitCustody admission)).1.result = .error raised ∧
        (act db (.admitCustody admission)).2 = db

theorem refusesOthers : RefusesOthers suite := by
  intro db admission hobjects hother
  rcases admit_cases db admission with ⟨_, hadmitted⟩ | ⟨raised, hresult, _, hsame⟩
  · exfalso
    have hobserved : observedSchema db.schema ≠ [] := fun hempty =>
      hobjects (observedSchema_eq_nil.mp hempty)
    have hcustody := hadmitted.inCustody
    rw [(hadmitted.kept hobserved).1] at hcustody
    rcases hother with hundeclared | hunbound
    · exact hundeclared (declaresExpected_of_observed hcustody.declared)
    · exact hunbound hcustody.bound
  · exact ⟨raised, hresult, hsame⟩

theorem custody_single (events : List (Event (CustodyAction suite)))
    (hcommit : KeysCommit (runCustody events).log) :
    SingleCustody events ∧ RefusesOthers suite := by
  refine ⟨⟨?_, ?_, ?_, ?_, ?_⟩, refusesOthers⟩
  · intro earlier _ _
    rcases (runCustody_custodial earlier).bound with hempty | ⟨_, _, _, _, _, _, _, _, hrow⟩
    · rw [hempty]
      exact Nat.zero_le 1
    · rw [hrow]
      exact Nat.le_refl 1
  · rintro earlier later rfl
    exact @System.run_related _ _ _ _ _ (fun db db' => db.binding <+: db'.binding)
      (fun db => List.prefix_refl db.binding) (fun _ _ _ => List.IsPrefix.trans)
      act_binding act_readsOnly Database.objectFree earlier later
  · intro first hfirst other hother admission admission' haccepts haccepts'
    exact (runCustody_custodial events).identity hcommit hfirst hother haccepts haccepts'
  · intro earlier step later hlog first hfirst accepted admission haccepts hinput hidentity
      hpath hfaultless
    obtain ⟨actions, htrace, _⟩ := runCustody_serial events
    rw [htrace] at hlog
    obtain ⟨before, action, after, _, rfl, rfl, _⟩ := trace_eq_append_cons hlog
    have hcustody := (custodial_trace before).accepted first hfirst accepted haccepts
    change action = _ at hinput
    subst hinput
    exact admit_again hcustody hidentity hpath hfaultless
  · intro step hstep admission raised hinput hresult
    obtain ⟨actions, htrace, _⟩ := runCustody_serial events
    rw [htrace] at hstep
    obtain ⟨before, action, after, _, rfl⟩ := mem_trace hstep
    change action = _ at hinput
    subst hinput
    rcases admit_cases (final act Database.objectFree before) admission with
      ⟨hok, _⟩ | ⟨_, _, _, hsame⟩
    · change (act _ _).1.result = _ at hresult
      rw [hok] at hresult
      cases hresult
    · exact hsame

theorem admit_objectFree {admission : Admission suite} (hpath : admission.path = .usable)
    (hfaultless : admission.env.Faultless) {ciphertext : Bytes}
    (hwitness : EncryptsWitness admission ciphertext) :
    Accepts (entry act Database.objectFree (.admitCustody admission)) admission := by
  rcases runOn_cases (admitProviderCustody_creates hpath hfaultless hwitness) with
    ⟨_, hresult, _⟩ | ⟨_, _, hfalse⟩
  · exact ⟨rfl, hresult⟩
  · exact hfalse.elim

end

/-! ### Two identities on one database -/

def plainAdmission (key : Bytes) (providerId : String) : Admission transparentSuite :=
  { path := .usable
    master := ⟨key, "local"⟩
    providerId := providerId
    env := plainEnv "admission" }

/-- A provider starts, another is refused, and the first starts again. -/
def admissions : List (Event (CustodyAction transparentSuite)) :=
  [.begin 0 (.admitCustody (plainAdmission [1] "a")), .commit 0,
    .begin 1 (.admitCustody (plainAdmission [2] "b")), .commit 1,
    .begin 0 (.admitCustody (plainAdmission [1] "a")), .commit 0]

theorem mem_admissions_log {step : CustodyStep transparentSuite}
    (hstep : step ∈ (runCustody admissions).log) :
    step.input = .admitCustody (plainAdmission [1] "a") ∨
      step.input = .admitCustody (plainAdmission [2] "b") := by
  obtain ⟨actions, hlog, _⟩ := runCustody_serial admissions
  have hinputs : (runCustody admissions).log.map Entry.input =
      [.admitCustody (plainAdmission [1] "a"), .admitCustody (plainAdmission [2] "b"),
        .admitCustody (plainAdmission [1] "a")] := rfl
  have hmem := List.mem_map_of_mem (f := Entry.input) hstep
  rw [hinputs] at hmem
  simp only [List.mem_cons, List.not_mem_nil, or_false] at hmem
  tauto

/-- The transparent suite tells keys with different tags apart. -/
theorem transparentTag_eq {master master' : MasterKey}
    {nonce plaintext plaintext' associated ciphertext : Bytes}
    (hencrypt : master.encrypt transparentSuite nonce plaintext associated = .ok ciphertext)
    (hdecrypt : master'.decrypt transparentSuite nonce ciphertext associated = some plaintext') :
    transparentTag master'.key = transparentTag master.key := by
  have hciphertext : plaintext ++ transparentTag master.key = ciphertext :=
    Except.ok.inj hencrypt
  have hlength : (plaintext ++ transparentTag master.key).length - 16 = plaintext.length := by
    rw [List.length_append, transparentTag_length, Nat.add_sub_cancel]
  subst hciphertext
  change (if _ then _ else _) = _ at hdecrypt
  split at hdecrypt
  · next htag =>
      rw [hlength, List.drop_left] at htag
      exact htag.symm
  · cases hdecrypt

theorem admissions_keysCommit : KeysCommit (runCustody admissions).log := by
  intro made hmade tried htried creator admission hcreator hadmission nonce ciphertext hencrypt
    hdecrypt
  have htags := transparentTag_eq hencrypt hdecrypt
  have hmade' := mem_admissions_log hmade
  have htried' := mem_admissions_log htried
  rw [hcreator] at hmade'
  rw [hadmission] at htried'
  rcases hmade' with ⟨⟨⟩⟩ | ⟨⟨⟩⟩ <;> rcases htried' with ⟨⟨⟩⟩ | ⟨⟨⟩⟩
  · rfl
  · exact absurd htags (by decide)
  · exact absurd htags (by decide)
  · rfl

theorem plainAdmission_encryptsWitness (key : Bytes) (providerId : String) :
    EncryptsWitness (plainAdmission key providerId) (custodyWitness ++ transparentTag key) where
  encrypts := rfl
  tagged := by rw [List.length_append, transparentTag_length]
  decrypts := transparentSuite_decryptsOwn

theorem admissions_first :
    entry act Database.objectFree (.admitCustody (plainAdmission [1] "a")) ∈
      (runCustody admissions).log :=
  List.mem_cons_self

theorem admissions_accepted :
    Accepts (entry act Database.objectFree (.admitCustody (plainAdmission [1] "a")))
      (plainAdmission [1] "a") :=
  admit_objectFree rfl (fun _ => rfl) (plainAdmission_encryptsWitness [1] "a")

theorem custody_single_admissions :
    (SingleCustody admissions ∧ RefusesOthers transparentSuite) ∧
      ∃ step ∈ (runCustody admissions).log, Accepts step (plainAdmission [1] "a") :=
  ⟨custody_single admissions admissions_keysCommit, _, admissions_first, admissions_accepted⟩

end SecretsCustody
