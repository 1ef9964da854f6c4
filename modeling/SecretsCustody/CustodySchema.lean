/-
The declared schema of the provider database: the statements that create it,
what the database records of them, and the comparison admission makes.
-/
import Mathlib.Data.List.Sort
import Mathlib.Data.String.Basic
import SecretsCustody.Words

namespace SecretsCustody

/-- What `_canonical_sql` takes out of a statement. -/
def ifNotExists : List Char :=
  ['I', 'F', ' ', 'N', 'O', 'T', ' ', 'E', 'X', 'I', 'S', 'T', 'S', ' ']

/-- The characters that open quoted text or a comment, and the first letter of
`VIRTUAL`, whose module arguments may be any text. -/
def quoting : List Char := "'\"`[-/V".toList

/-- In what the database records of a definition, `IF NOT EXISTS` stands in
quoted text, a comment or the arguments of a module, if at all. -/
def OnlyQuoted (text : List Char) : Prop :=
  ifNotExists <:+: Words.squeeze text → ∃ c ∈ quoting, c ∈ text

/-- `_canonical_sql`. -/
def canonicalSql (sql : List Char) : List Char :=
  Words.remove ifNotExists (Words.squeeze sql)

/-- Kind, name, owner and definition. -/
abbrev Declaration := String × String × String × List Char

/-- The body of the loop of `_expected_schema`. -/
def expectedDeclaration (statement : List Char) : Declaration :=
  let sql := canonicalSql statement
  let words := Words.words sql
  let kind := String.ofList ((words.getD 1 []).map Char.toLower)
  let name := String.ofList (words.getD 2 [])
  (kind, name, if kind = "table" then name else String.ofList (words.getD 4 []), sql)

theorem expectedDeclaration_sql (statement : List Char) :
    (expectedDeclaration statement).2.2.2 = canonicalSql statement :=
  rfl

/-! ### Statements that create -/

/-- The text the database records of a statement: without the space around it,
and without `IF NOT EXISTS`. -/
def recordedText (statement : List Char) : List Char :=
  Words.remove ifNotExists (Words.strip statement)

/-- A text that creates the object with the given kind, name and owner. -/
def Creates (statement : List Char) (kind name owner : String) (conditional : Bool) : Prop :=
  (conditional = true ↔ ifNotExists <:+: Words.squeeze statement) ∧
    canonicalSql statement = Words.squeeze (recordedText statement) ∧
    ¬ ifNotExists <:+: canonicalSql statement ∧
    (∀ c ∈ canonicalSql statement, c ∉ quoting) ∧
    (expectedDeclaration statement).1 = kind ∧ (expectedDeclaration statement).2.1 = name ∧
    (expectedDeclaration statement).2.2.1 = owner

instance (text : List Char) : Decidable (∀ c ∈ text, c ∉ quoting) :=
  List.decidableBAll (fun c => c ∉ quoting) text

instance (statement : List Char) (kind name owner : String) (conditional : Bool) :
    Decidable (Creates statement kind name owner conditional) :=
  inferInstanceAs (Decidable (_ ∧ _))

/-- A statement that creates an object, the object, and how many of its
constraints the database makes an index for. -/
structure CreateStatement where
  text : String
  kind : String
  name : String
  owner : String
  conditional : Bool
  constraints : Nat
  creates : Creates text.toList kind name owner conditional

theorem Creates.ofText {text : String} {statement : List Char} {kind name owner : String}
    {conditional : Bool} (htext : text = String.ofList statement)
    (hcreates : Creates statement kind name owner conditional) :
    Creates text.toList kind name owner conditional := by
  rw [htext, String.toList_ofList]
  exact hcreates

set_option maxRecDepth 20000

/-- `_SCHEMA_STATEMENTS` of the store. -/
def storeSchema : List CreateStatement :=
  [⟨"
    CREATE TABLE IF NOT EXISTS secret_versions (
        workspace_id TEXT NOT NULL,
        secret_id TEXT NOT NULL,
        version_id TEXT NOT NULL,
        version_number INTEGER NOT NULL,
        status TEXT NOT NULL,
        algorithm TEXT NOT NULL,
        key_fingerprint TEXT NOT NULL,
        key_version TEXT NOT NULL,
        nonce BLOB NOT NULL,
        ciphertext BLOB NOT NULL,
        labels_json TEXT NOT NULL,
        created_at TEXT NOT NULL,
        revoked_at TEXT,
        PRIMARY KEY (workspace_id, secret_id, version_id),
        UNIQUE (workspace_id, secret_id, version_number)
    )
    ", "table", "secret_versions", "secret_versions", true, 2,
    .ofText (Eq.refl (String.ofList _)) (by decide +kernel)⟩,
  ⟨"
    CREATE INDEX IF NOT EXISTS idx_secret_versions_latest
    ON secret_versions (workspace_id, secret_id, version_number DESC)
    ", "index", "idx_secret_versions_latest", "secret_versions", true, 0,
    .ofText (Eq.refl (String.ofList _)) (by decide +kernel)⟩,
  ⟨"
    CREATE TABLE IF NOT EXISTS secret_resolution_selections (
        workspace_id TEXT NOT NULL,
        correlation_id TEXT NOT NULL,
        secret_id TEXT NOT NULL,
        intent TEXT NOT NULL,
        caller_subject TEXT NOT NULL,
        version_id TEXT NOT NULL,
        selected_at TEXT NOT NULL,
        PRIMARY KEY (workspace_id, correlation_id),
        FOREIGN KEY (workspace_id, secret_id, version_id)
          REFERENCES secret_versions (
            workspace_id,
            secret_id,
            version_id
          )
    )
    ", "table", "secret_resolution_selections", "secret_resolution_selections", true, 1,
    .ofText (Eq.refl (String.ofList _)) (by decide +kernel)⟩,
  ⟨"
    CREATE TABLE IF NOT EXISTS delegation_key_generations (
        workspace_id TEXT NOT NULL,
        correlation_id TEXT NOT NULL,
        secret_id TEXT NOT NULL,
        secret_reference TEXT NOT NULL,
        purpose TEXT NOT NULL,
        issuer TEXT NOT NULL,
        caller_subject TEXT NOT NULL,
        version_id TEXT NOT NULL,
        key_id TEXT NOT NULL,
        algorithm TEXT NOT NULL,
        public_key_pem TEXT NOT NULL,
        generated_at TEXT NOT NULL,
        PRIMARY KEY (workspace_id, correlation_id),
        UNIQUE (workspace_id, secret_id),
        FOREIGN KEY (workspace_id, secret_id, version_id)
          REFERENCES secret_versions (
            workspace_id,
            secret_id,
            version_id
          )
    )
    ", "table", "delegation_key_generations", "delegation_key_generations", true, 2,
    .ofText (Eq.refl (String.ofList _)) (by decide +kernel)⟩,
  ⟨"
    CREATE TABLE IF NOT EXISTS secret_version_revocations (
        workspace_id TEXT NOT NULL,
        correlation_id TEXT NOT NULL,
        secret_id TEXT NOT NULL,
        version_id TEXT NOT NULL,
        version_number INTEGER NOT NULL,
        caller_subject TEXT NOT NULL,
        revoked_at TEXT NOT NULL,
        PRIMARY KEY (workspace_id, correlation_id),
        UNIQUE (workspace_id, secret_id, version_id),
        FOREIGN KEY (workspace_id, secret_id, version_id)
          REFERENCES secret_versions (
            workspace_id,
            secret_id,
            version_id
          )
    )
    ", "table", "secret_version_revocations", "secret_version_revocations", true, 2,
    .ofText (Eq.refl (String.ofList _)) (by decide +kernel)⟩]

/-- `_SCHEMA_STATEMENTS` of the audit store. -/
def auditSchema : List CreateStatement :=
  [⟨"
    CREATE TABLE IF NOT EXISTS audit_records (
        event_id TEXT PRIMARY KEY,
        provider_id TEXT NOT NULL,
        workspace_id TEXT NOT NULL,
        secret_id TEXT NOT NULL,
        version_id TEXT,
        intent TEXT,
        caller_subject TEXT NOT NULL,
        correlation_id TEXT NOT NULL,
        outcome TEXT NOT NULL,
        code TEXT NOT NULL,
        occurred_at TEXT NOT NULL
    )
    ", "table", "audit_records", "audit_records", true, 1,
    .ofText (Eq.refl (String.ofList _)) (by decide +kernel)⟩,
  ⟨"
    CREATE INDEX IF NOT EXISTS idx_audit_records_reference
    ON audit_records (workspace_id, secret_id, occurred_at)
    ", "index", "idx_audit_records_reference", "audit_records", true, 0,
    .ofText (Eq.refl (String.ofList _)) (by decide +kernel)⟩]

/-- `_BINDING_SCHEMA`. -/
def bindingSchema : CreateStatement :=
  ⟨"
CREATE TABLE provider_custody_binding (
    singleton INTEGER PRIMARY KEY CHECK (singleton = 1),
    schema_version INTEGER NOT NULL CHECK (schema_version = 1),
    provider_id TEXT NOT NULL,
    nonce BLOB NOT NULL,
    ciphertext BLOB NOT NULL
)
", "table", "provider_custody_binding", "provider_custody_binding", false, 0,
    .ofText (Eq.refl (String.ofList _)) (by decide +kernel)⟩

def allStatements : List CreateStatement :=
  storeSchema ++ auditSchema ++ [bindingSchema]

/-- A row of `sqlite_schema`. -/
structure SchemaObject where
  kind : String
  name : String
  owner : String
  sql : Option (List Char)
  recorded : ∀ text, sql = some text → OnlyQuoted text

/-- The rows the query of `_schema` leaves out. -/
def SchemaObject.constraintIndex (object : SchemaObject) : Bool :=
  object.kind = "index" && object.sql.isNone &&
    "sqlite_autoindex_".toList.isPrefixOf object.name.toList

namespace CreateStatement

variable (statement : CreateStatement)

def object : SchemaObject where
  kind := statement.kind
  name := statement.name
  owner := statement.owner
  sql := some (recordedText statement.text.toList)
  recorded := by
    rintro text ⟨⟩ hphrase
    obtain ⟨_, hcanonical, habsent, _⟩ := statement.creates
    rw [hcanonical] at habsent
    exact absurd hphrase habsent

/-- The index the database makes for one constraint of the object. -/
def constraintIndex (position : Nat) : SchemaObject where
  kind := "index"
  name := "sqlite_autoindex_" ++ (statement.name ++ "_" ++ toString (position + 1))
  owner := statement.name
  sql := none
  recorded := by rintro text ⟨⟩

/-- The rows the statement adds to `sqlite_schema`. -/
def declares : List SchemaObject :=
  statement.object :: (List.range statement.constraints).map statement.constraintIndex

end CreateStatement

/-! ### The comparison -/

/-- The order of `sorted` on such tuples. -/
def declarationLe (left right : Declaration) : Prop :=
  left.1 < right.1 ∨ left.1 = right.1 ∧
    (left.2.1 < right.2.1 ∨ left.2.1 = right.2.1 ∧
      (left.2.2.1 < right.2.2.1 ∨ left.2.2.1 = right.2.2.1 ∧ left.2.2.2 ≤ right.2.2.2))

instance : DecidableRel declarationLe :=
  fun _ _ => inferInstanceAs (Decidable (_ ∨ _ ∧ (_ ∨ _ ∧ (_ ∨ _ ∧ _))))

/-- `_expected_schema`, before it is sorted. -/
def expectedDeclarations : List Declaration :=
  allStatements.map fun statement => expectedDeclaration statement.text.toList

/-- `_expected_schema`. -/
def expectedSchema : List Declaration :=
  expectedDeclarations.insertionSort declarationLe

/-- What `_schema` reads of a row. -/
def SchemaObject.declaration (object : SchemaObject) : Declaration :=
  (object.kind, object.name, object.owner, canonicalSql (object.sql.getD []))

/-- The objects a schema declares. -/
def declaredObjects (schema : List SchemaObject) : List SchemaObject :=
  schema.filter fun object => !object.constraintIndex

/-- `_schema`. -/
def observedSchema (schema : List SchemaObject) : List Declaration :=
  ((declaredObjects schema).map SchemaObject.declaration).insertionSort declarationLe

/-- The definition of an object up to white space. -/
def SchemaObject.squeezed (object : SchemaObject) : Declaration :=
  (object.kind, object.name, object.owner, Words.squeeze (object.sql.getD []))

/-- The declared schema is the expected one up to white space. -/
def DeclaresExpected (schema : List SchemaObject) : Prop :=
  ((declaredObjects schema).map SchemaObject.squeezed).Perm expectedDeclarations

theorem observedSchema_eq_nil {schema : List SchemaObject} :
    observedSchema schema = [] ↔ declaredObjects schema = [] := by
  rw [← List.length_eq_zero_iff, observedSchema, List.length_insertionSort, List.length_map,
    List.length_eq_zero_iff]

/-- An expected definition has nothing quoted. -/
theorem quoting_of_expected {declaration : Declaration}
    (hexpected : declaration ∈ expectedDeclarations) {c : Char} (hc : c ∈ quoting) :
    c ∉ declaration.2.2.2 := by
  obtain ⟨statement, _, rfl⟩ := List.mem_map.mp hexpected
  obtain ⟨_, _, _, hplain, _⟩ := statement.creates
  intro hmem
  exact hplain c hmem hc

theorem not_isSpace_of_quoting {c : Char} (hc : c ∈ quoting) : Words.isSpace c = false := by
  have hall : (quoting.all fun quote => !Words.isSpace quote) = true := by decide +kernel
  simpa using List.all_eq_true.mp hall c hc

theorem not_mem_ifNotExists_of_quoting {c : Char} (hc : c ∈ quoting) : c ∉ ifNotExists := by
  have hall : (quoting.all fun quote => decide (quote ∉ ifNotExists)) = true := by decide +kernel
  exact of_decide_eq_true (List.all_eq_true.mp hall c hc)

/-- A definition with nothing quoted was compared as it stands. -/
theorem SchemaObject.declaration_eq_squeezed {object : SchemaObject}
    (hplain : ∀ c ∈ quoting, c ∉ object.declaration.2.2.2) :
    object.declaration = object.squeezed := by
  unfold declaration squeezed
  congr 3
  apply Words.remove_eq_self
  intro hphrase
  cases hsql : object.sql with
  | none =>
      rw [hsql] at hphrase
      exact absurd (List.infix_nil.mp hphrase) (List.cons_ne_nil _ _)
  | some text =>
      rw [hsql] at hphrase
      obtain ⟨c, hc, hmem⟩ := object.recorded text hsql hphrase
      apply hplain c hc
      unfold declaration
      rw [hsql]
      exact Words.mem_remove (not_mem_ifNotExists_of_quoting hc)
        (Words.mem_squeeze (not_isSpace_of_quoting hc) hmem)

/-- A schema that compares as the expected one is the expected one up to white
space. -/
theorem declaresExpected_of_observed {schema : List SchemaObject}
    (hobserved : observedSchema schema = expectedSchema) : DeclaresExpected schema := by
  have hperm : ((declaredObjects schema).map SchemaObject.declaration).Perm
      expectedDeclarations :=
    (List.perm_insertionSort declarationLe _).symm.trans
      ((List.Perm.of_eq hobserved).trans (List.perm_insertionSort declarationLe _))
  have hsqueezed : (declaredObjects schema).map SchemaObject.squeezed =
      (declaredObjects schema).map SchemaObject.declaration := by
    apply List.map_congr_left
    intro object hobject
    have hexpected : object.declaration ∈ expectedDeclarations :=
      hperm.subset (List.mem_map_of_mem hobject)
    exact (SchemaObject.declaration_eq_squeezed fun c hc => quoting_of_expected hexpected hc).symm
  unfold DeclaresExpected
  rw [hsqueezed]
  exact hperm

/-! ### The schema admission creates -/

theorem CreateStatement.object_declaration (statement : CreateStatement) :
    statement.object.declaration = expectedDeclaration statement.text.toList := by
  obtain ⟨_, hcanonical, habsent, _, hkind, hname, howner⟩ := statement.creates
  have hsql : canonicalSql (recordedText statement.text.toList) =
      canonicalSql statement.text.toList := by
    rw [hcanonical] at habsent
    rw [hcanonical]
    exact Words.remove_eq_self habsent
  change (statement.kind, statement.name, statement.owner,
    canonicalSql (recordedText statement.text.toList)) = _
  rw [← hkind, ← hname, ← howner, hsql, ← expectedDeclaration_sql]

theorem CreateStatement.declaredObjects_declares (statement : CreateStatement) :
    declaredObjects statement.declares = [statement.object] := by
  have hindexes : ((List.range statement.constraints).map statement.constraintIndex).filter
      (fun object => !object.constraintIndex) = [] := by
    rw [List.filter_eq_nil_iff]
    intro object hobject
    obtain ⟨position, _, rfl⟩ := List.mem_map.mp hobject
    simp [SchemaObject.constraintIndex, CreateStatement.constraintIndex]
  have hobject : (!statement.object.constraintIndex) = true := by
    simp [SchemaObject.constraintIndex, CreateStatement.object]
  unfold declaredObjects declares
  rw [List.filter_cons, if_pos hobject, hindexes]

theorem allStatements_declares :
    allStatements.flatMap CreateStatement.declares =
      (storeSchema ++ auditSchema).flatMap CreateStatement.declares ++
        bindingSchema.declares := by
  rw [allStatements, List.flatMap_append, List.flatMap_singleton]

/-- What all the statements create compares as the expected schema. -/
theorem observedSchema_declares :
    observedSchema (allStatements.flatMap CreateStatement.declares) = expectedSchema := by
  have hobjects : ∀ statements : List CreateStatement,
      declaredObjects (statements.flatMap CreateStatement.declares) =
        statements.map CreateStatement.object := by
    intro statements
    induction statements with
    | nil => rfl
    | cons statement statements ih =>
        rw [List.flatMap_cons, declaredObjects, List.filter_append]
        change declaredObjects _ ++ declaredObjects _ = _
        rw [statement.declaredObjects_declares, ih]
        rfl
  unfold observedSchema expectedSchema expectedDeclarations
  rw [hobjects, List.map_map]
  congr 2
  funext statement
  exact statement.object_declaration

end SecretsCustody
