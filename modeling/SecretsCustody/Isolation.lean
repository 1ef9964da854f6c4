/-
Workspace isolation.  A call of one workspace finds and changes the rows of
that workspace only: two databases with the same such rows answer it alike.
-/
import SecretsCustody.Generations
import SecretsCustody.Coupling

namespace SecretsCustody

open Effect History KeyedRows

/-- The workspace an operation is addressed to. -/
def Operation.workspaceId : Operation → String
  | .createSecret workspaceId _ _ _ => workspaceId
  | .rotateSecret workspaceId _ _ _ _ => workspaceId
  | .revokeSecret workspaceId _ => workspaceId
  | .revokeSecretVersion args => args.workspaceId
  | .generateDelegationKey args => args.workspaceId
  | .resolveSecret workspaceId _ _ => workspaceId
  | .resolveSecretForUse args => args.workspaceId
  | .metadata workspaceId _ _ => workspaceId

/-- The keys the schema declares for the secret tables. -/
structure Keyed (tables : Tables) : Prop where
  versionKeys : Unique VersionRow.key tables.versions
  numberKeys : Unique VersionRow.numberKey tables.versions
  selectionKeys : Unique SelectionRow.key tables.selections
  generationKeys : Unique GenerationRow.key tables.generations
  generationAddresses : Unique GenerationRow.address tables.generations
  revocationKeys : Unique RevocationRow.key tables.revocations
  revocationTargets : Unique RevocationRow.target tables.revocations

theorem keyed_empty : Keyed Tables.empty := by
  constructor <;> exact unique_nil

/-- The rows a predicate on workspaces keeps are the same in two databases. -/
structure SameRows (keep : String → Prop) (tables tables' : Tables) : Prop where
  versions : AgreeOn (fun row => keep row.workspaceId) tables.versions tables'.versions
  selections : AgreeOn (fun row => keep row.workspaceId) tables.selections tables'.selections
  generations : AgreeOn (fun row => keep row.workspaceId) tables.generations tables'.generations
  revocations : AgreeOn (fun row => keep row.workspaceId) tables.revocations tables'.revocations

/-- Two databases with the same rows of one workspace in the secret tables. -/
abbrev SameWorkspace (workspaceId : String) : Tables → Tables → Prop :=
  SameRows fun found => found = workspaceId

/-- The events some calls draw are taken in both databases or in neither. -/
def EventsAlike (drawn : String → Prop) (tables tables' : Tables) : Prop :=
  ∀ eventId, drawn eventId → (eventId ∈ tables.auditRecords.map AuditRecord.eventId ↔
    eventId ∈ tables'.auditRecords.map AuditRecord.eventId)

/-- Two databases a call of the workspace cannot tell apart. -/
structure Beside (workspaceId : String) (drawn : String → Prop) (tables tables' : Tables) :
    Prop where
  rows : SameWorkspace workspaceId tables tables'
  keyed : Keyed tables
  keyed' : Keyed tables'
  events : EventsAlike drawn tables tables'

section

variable {workspaceId : String} {drawn : String → Prop} {tables tables' : Tables}

/-! ### Queries -/

theorem numbersTell_address (hkeyed : Keyed tables) (address : String × String) :
    NumbersTell VersionRow.versionNumber (fun row => row.address = address) tables.versions := by
  intro left hleft right hright hleftAt hrightAt hnumber
  apply hkeyed.numberKeys.eq_of_key hleft hright
  have haddress : left.address = right.address :=
    (of_decide_eq_true hleftAt).trans (of_decide_eq_true hrightAt).symm
  simp only [VersionRow.address, Prod.mk.injEq] at haddress
  rw [VersionRow.numberKey, VersionRow.numberKey, haddress.1, haddress.2, hnumber]

variable (hbeside : Beside workspaceId drawn tables tables')

include hbeside

theorem Beside.selectVersion (secretId versionId : String) :
    tables'.selectVersion workspaceId secretId versionId =
      tables.selectVersion workspaceId secretId versionId :=
  hbeside.rows.versions.find_eq hbeside.keyed.versionKeys hbeside.keyed'.versionKeys
    fun _ hkey => congrArg Prod.fst hkey

theorem Beside.latestVersion (secretId : String) :
    tables'.latestVersion workspaceId secretId = tables.latestVersion workspaceId secretId := by
  apply hbeside.rows.versions.latest_eq
  · intro row hfilter
    exact congrArg Prod.fst (of_decide_eq_true hfilter)
  · exact numbersTell_address hbeside.keyed _

theorem Beside.allVersions (secretId : String) :
    tables'.allVersions workspaceId secretId = tables.allVersions workspaceId secretId := by
  apply hbeside.rows.versions.sorted_eq
  · intro row hfilter
    exact congrArg Prod.fst (of_decide_eq_true hfilter)
  · exact numbersTell_address hbeside.keyed _
  · exact List.Nodup.of_map _ hbeside.keyed.versionKeys
  · exact List.Nodup.of_map _ hbeside.keyed'.versionKeys

theorem Beside.selectRow (secretId : String) (versionId : Option String) :
    SecretsCustody.selectRow tables' workspaceId secretId versionId =
      SecretsCustody.selectRow tables workspaceId secretId versionId := by
  cases versionId with
  | none => exact hbeside.latestVersion secretId
  | some versionId => exact hbeside.selectVersion secretId versionId

theorem Beside.selection (correlationId : String) :
    tables'.selection workspaceId correlationId = tables.selection workspaceId correlationId :=
  hbeside.rows.selections.find_eq hbeside.keyed.selectionKeys hbeside.keyed'.selectionKeys
    fun _ hkey => congrArg Prod.fst hkey

theorem Beside.generation (correlationId : String) :
    tables'.generation workspaceId correlationId = tables.generation workspaceId correlationId :=
  hbeside.rows.generations.find_eq hbeside.keyed.generationKeys hbeside.keyed'.generationKeys
    fun _ hkey => congrArg Prod.fst hkey

theorem Beside.revocation (correlationId : String) :
    tables'.revocation workspaceId correlationId = tables.revocation workspaceId correlationId :=
  hbeside.rows.revocations.find_eq hbeside.keyed.revocationKeys hbeside.keyed'.revocationKeys
    fun _ hkey => congrArg Prod.fst hkey

theorem Beside.revocationOf (secretId versionId : String) :
    tables'.revocationOf workspaceId secretId versionId =
      tables.revocationOf workspaceId secretId versionId :=
  hbeside.rows.revocations.find_eq hbeside.keyed.revocationTargets
    hbeside.keyed'.revocationTargets fun _ hkey => congrArg Prod.fst hkey

/-! ### Writes -/

theorem Beside.insertVersion {row : VersionRow} (hrow : row.workspaceId = workspaceId) :
    Alike (Beside workspaceId drawn) (tables.insertVersion row) (tables'.insertVersion row) := by
  have hkey : row.key ∈ tables.versions.map VersionRow.key ↔
      row.key ∈ tables'.versions.map VersionRow.key :=
    hbeside.rows.versions.mem_keys_iff fun _ hkey => (congrArg Prod.fst hkey).trans hrow
  have hnumber : row.numberKey ∈ tables.versions.map VersionRow.numberKey ↔
      row.numberKey ∈ tables'.versions.map VersionRow.numberKey :=
    hbeside.rows.versions.mem_keys_iff fun _ hkey => (congrArg Prod.fst hkey).trans hrow
  apply alike_guarded (or_congr hkey hnumber)
  intro hfree hfree'
  rw [not_or] at hfree hfree'
  exact {
    rows := { hbeside.rows with versions := hbeside.rows.versions.append [row] }
    keyed := { hbeside.keyed with
      versionKeys := hbeside.keyed.versionKeys.append hfree.1
      numberKeys := hbeside.keyed.numberKeys.append hfree.2 }
    keyed' := { hbeside.keyed' with
      versionKeys := hbeside.keyed'.versionKeys.append hfree'.1
      numberKeys := hbeside.keyed'.numberKeys.append hfree'.2 }
    events := hbeside.events }

theorem Beside.refers {target : String × String × String} (htarget : target.1 = workspaceId) :
    target ∈ tables.versions.map VersionRow.key ↔
      target ∈ tables'.versions.map VersionRow.key :=
  hbeside.rows.versions.mem_keys_iff fun _ hkey => (congrArg Prod.fst hkey).trans htarget

theorem Beside.insertSelection {row : SelectionRow} (hrow : row.workspaceId = workspaceId) :
    Alike (Beside workspaceId drawn) (tables.insertSelection row)
      (tables'.insertSelection row) := by
  have hkey : row.key ∈ tables.selections.map SelectionRow.key ↔
      row.key ∈ tables'.selections.map SelectionRow.key :=
    hbeside.rows.selections.mem_keys_iff fun _ hkey => (congrArg Prod.fst hkey).trans hrow
  apply alike_guarded (or_congr hkey (not_congr (hbeside.refers hrow)))
  intro hfree hfree'
  rw [not_or] at hfree hfree'
  exact {
    rows := { hbeside.rows with selections := hbeside.rows.selections.append [row] }
    keyed := { hbeside.keyed with
      selectionKeys := hbeside.keyed.selectionKeys.append hfree.1 }
    keyed' := { hbeside.keyed' with
      selectionKeys := hbeside.keyed'.selectionKeys.append hfree'.1 }
    events := hbeside.events }

theorem Beside.insertGeneration {row : GenerationRow} (hrow : row.workspaceId = workspaceId) :
    Alike (Beside workspaceId drawn) (tables.insertGeneration row)
      (tables'.insertGeneration row) := by
  have hkey : row.key ∈ tables.generations.map GenerationRow.key ↔
      row.key ∈ tables'.generations.map GenerationRow.key :=
    hbeside.rows.generations.mem_keys_iff fun _ hkey => (congrArg Prod.fst hkey).trans hrow
  have haddress : row.address ∈ tables.generations.map GenerationRow.address ↔
      row.address ∈ tables'.generations.map GenerationRow.address :=
    hbeside.rows.generations.mem_keys_iff fun _ hkey => (congrArg Prod.fst hkey).trans hrow
  apply alike_guarded
    (or_congr hkey (or_congr haddress (not_congr (hbeside.refers hrow))))
  intro hfree hfree'
  rw [not_or, not_or] at hfree hfree'
  exact {
    rows := { hbeside.rows with generations := hbeside.rows.generations.append [row] }
    keyed := { hbeside.keyed with
      generationKeys := hbeside.keyed.generationKeys.append hfree.1
      generationAddresses := hbeside.keyed.generationAddresses.append hfree.2.1 }
    keyed' := { hbeside.keyed' with
      generationKeys := hbeside.keyed'.generationKeys.append hfree'.1
      generationAddresses := hbeside.keyed'.generationAddresses.append hfree'.2.1 }
    events := hbeside.events }

theorem Beside.insertRevocation {row : RevocationRow} (hrow : row.workspaceId = workspaceId) :
    Alike (Beside workspaceId drawn) (tables.insertRevocation row)
      (tables'.insertRevocation row) := by
  have hkey : row.key ∈ tables.revocations.map RevocationRow.key ↔
      row.key ∈ tables'.revocations.map RevocationRow.key :=
    hbeside.rows.revocations.mem_keys_iff fun _ hkey => (congrArg Prod.fst hkey).trans hrow
  have htarget : row.target ∈ tables.revocations.map RevocationRow.target ↔
      row.target ∈ tables'.revocations.map RevocationRow.target :=
    hbeside.rows.revocations.mem_keys_iff fun _ hkey => (congrArg Prod.fst hkey).trans hrow
  apply alike_guarded
    (or_congr hkey (or_congr htarget (not_congr (hbeside.refers hrow))))
  intro hfree hfree'
  rw [not_or, not_or] at hfree hfree'
  exact {
    rows := { hbeside.rows with revocations := hbeside.rows.revocations.append [row] }
    keyed := { hbeside.keyed with
      revocationKeys := hbeside.keyed.revocationKeys.append hfree.1
      revocationTargets := hbeside.keyed.revocationTargets.append hfree.2.1 }
    keyed' := { hbeside.keyed' with
      revocationKeys := hbeside.keyed'.revocationKeys.append hfree'.1
      revocationTargets := hbeside.keyed'.revocationTargets.append hfree'.2.1 }
    events := hbeside.events }

theorem Beside.insertAudit {record : AuditRecord} (hdrawn : drawn record.eventId) :
    Alike (Beside workspaceId drawn) (tables.insertAudit record)
      (tables'.insertAudit record) := by
  apply alike_guarded (hbeside.events record.eventId hdrawn)
  intro _ _
  refine ⟨{ hbeside.rows with }, { hbeside.keyed with }, { hbeside.keyed' with }, ?_⟩
  intro eventId hfound
  rw [List.map_append, List.map_append, List.mem_append, List.mem_append,
    hbeside.events eventId hfound]

theorem Beside.updateVersion (key : String × String × String) (status : String)
    (nonce ciphertext : SqlValue) (revokedAt : Option String) :
    Beside workspaceId drawn (tables.updateVersion key status nonce ciphertext revokedAt)
      (tables'.updateVersion key status nonce ciphertext revokedAt) := by
  have hchange : ∀ row : VersionRow,
      (if row.key = key then
        { row with
          status := status, nonce := nonce, ciphertext := ciphertext, revokedAt := revokedAt }
      else row).workspaceId = row.workspaceId ∧
      (if row.key = key then
        { row with
          status := status, nonce := nonce, ciphertext := ciphertext, revokedAt := revokedAt }
      else row).key = row.key ∧
      (if row.key = key then
        { row with
          status := status, nonce := nonce, ciphertext := ciphertext, revokedAt := revokedAt }
      else row).numberKey = row.numberKey := by
    intro row
    split <;> exact ⟨rfl, rfl, rfl⟩
  have hkeyed : ∀ {tables : Tables}, Keyed tables →
      Keyed (tables.updateVersion key status nonce ciphertext revokedAt) :=
    fun hkeyed => { hkeyed with
      versionKeys := hkeyed.versionKeys.map fun row _ => (hchange row).2.1
      numberKeys := hkeyed.numberKeys.map fun row _ => (hchange row).2.2 }
  refine ⟨{ hbeside.rows with versions := ?_ }, hkeyed hbeside.keyed, hkeyed hbeside.keyed',
    hbeside.events⟩
  apply hbeside.rows.versions.map
  intro row hrow
  rwa [(hchange row).1] at hrow

end

/-! ### Programs -/

section

variable {suite : CryptoSuite} {env : Env suite} {α β : Type}
variable {related : Tables → Tables → Prop} {holds : α → Prop}

/-- A program that does not tell related databases apart: it returns the same
value, of which a property holds, and leaves the databases related. -/
def Blind (related : Tables → Tables → Prop) (program : Tx Tables α) (holds : α → Prop) : Prop :=
  ∀ tables tables', related tables tables' →
    Coupled program program tables tables'
      (fun value value' after after' => value' = value ∧ holds value ∧ related after after')
      fun _ _ => True

theorem blind_pure {value : α} (hholds : holds value) :
    Blind related (pure value : Tx Tables α) holds :=
  fun _ _ hrelated => coupled_pure ⟨rfl, hholds, hrelated⟩

theorem blind_throw (raised : Raised) : Blind related (throw raised : Tx Tables α) holds :=
  fun _ _ _ => coupled_throw trivial

theorem Blind.bind {program : Tx Tables α} {next : α → Tx Tables β} {holds' : β → Prop}
    (hprogram : Blind related program holds)
    (hnext : ∀ value, holds value → Blind related (next value) holds') :
    Blind related (program >>= next) holds' := by
  intro tables tables' hrelated
  apply Coupled.bind
  refine (hprogram tables tables' hrelated).mono ?_ fun _ _ hends => hends
  rintro _ value after after' ⟨rfl, hholds, hafter⟩
  exact hnext value hholds after after' hafter

theorem Blind.map {program : Tx Tables α} (hprogram : Blind related program holds)
    (change : α → β) : Blind related (change <$> program) fun _ => True := by
  rw [map_eq_pure_bind]
  exact hprogram.bind fun _ _ => blind_pure trivial

theorem blind_ofExcept {result : Except Raised α}
    (hholds : ∀ value, result = .ok value → holds value) :
    Blind related (ofExcept result : Tx Tables α) holds :=
  fun _ _ hrelated => coupled_ofExcept
    (Alike.refl fun value hvalue => ⟨rfl, hholds value hvalue, hrelated⟩) trivial

theorem blind_raiseIf (condition : Prop) [Decidable condition] (raised : Raised) :
    Blind related (raiseIf condition raised : Tx Tables Unit) fun _ => True :=
  fun _ _ hrelated => coupled_raiseIf Iff.rfl (fun _ => ⟨rfl, trivial, hrelated⟩) trivial

theorem blind_statement : Blind related (statement env) fun _ => True :=
  fun _ _ hrelated => coupled_statement ⟨rfl, trivial, hrelated⟩ trivial

theorem blind_query {read : Tables → α}
    (hread : ∀ tables tables', related tables tables' →
      read tables' = read tables ∧ holds (read tables)) :
    Blind related (query env read) holds :=
  fun tables tables' hrelated => coupled_query
    ⟨(hread tables tables' hrelated).1, (hread tables tables' hrelated).2, hrelated⟩ trivial

theorem blind_read {read : Tables → α}
    (hread : ∀ tables tables', related tables tables' → read tables' = read tables) :
    Blind related (query env read) fun _ => True :=
  blind_query fun tables tables' hrelated => ⟨hread tables tables' hrelated, trivial⟩

theorem blind_execute {write : Tables → Except Raised Tables}
    (hwrite : ∀ tables tables', related tables tables' →
      Alike related (write tables) (write tables')) :
    Blind related (execute env write) fun _ => True :=
  fun tables tables' hrelated => coupled_execute
    ((hwrite tables tables' hrelated).mono fun _ _ hafter => ⟨rfl, trivial, hafter⟩) trivial

theorem blind_urandom : Blind related (urandom env : Tx Tables Bytes) fun _ => True :=
  fun _ _ hrelated => coupled_urandom fun _ _ => ⟨rfl, trivial, hrelated⟩

theorem blind_encrypt (master : MasterKey) (nonce plaintext : Bytes) (associated : Associated) :
    Blind related (encrypt suite master nonce plaintext associated : Tx Tables Bytes)
      fun _ => True :=
  fun _ _ hrelated => coupled_encrypt (Alike.refl fun _ _ => ⟨rfl, trivial, hrelated⟩) trivial

theorem Blind.mapRaised {program : Tx Tables α} (hprogram : Blind related program holds)
    (change : Raised → Raised) : Blind related (mapRaised change program) holds :=
  fun tables tables' hrelated => coupled_mapRaised (hprogram tables tables' hrelated)

theorem Blind.connection {body : Tx Tables α} (hbody : Blind related body holds) :
    Blind related (connection suite env body) holds :=
  fun tables tables' hrelated =>
    coupled_connection (hbody tables tables' hrelated) trivial

end

/-! ### Operations -/

section

variable {suite : CryptoSuite} {env : Env suite} {master : MasterKey} {workspaceId : String}
variable {drawn : String → Prop}

theorem blind_selectRow (secretId : String) (versionId : Option String) :
    Blind (Beside workspaceId drawn)
      (query env fun tables => selectRow tables workspaceId secretId versionId)
      fun found => ∀ row, found = some row → row.workspaceId = workspaceId := by
  apply blind_query
  intro tables tables' hbeside
  refine ⟨hbeside.selectRow secretId versionId, fun row hrow => ?_⟩
  exact congrArg Prod.fst (selectRow_eq_some hrow).2

theorem blind_insertVersion (secretId : String) (value : Bytes) (labels : TextDict)
    (versionNumber : Int) :
    Blind (Beside workspaceId drawn)
      (insertVersion suite env master workspaceId secretId value labels versionNumber)
      fun _ => True := by
  apply (blind_ofExcept fun _ _ => trivial).bind
  intro clean _
  apply blind_urandom.bind
  intro nonce _
  apply (blind_encrypt _ _ _ _).bind
  intro ciphertext _
  apply (blind_raiseIf _ _).bind
  intro _ _
  refine ((blind_execute fun tables tables' hbeside => ?_).mapRaised _).bind
    fun _ _ => blind_pure trivial
  exact hbeside.insertVersion rfl

theorem blind_revokeRow {row : VersionRow} (revokedAt : String) :
    Blind (Beside workspaceId drawn) (revokeRow suite env master row revokedAt)
      fun _ => True := by
  apply (blind_ofExcept fun _ _ => trivial).bind
  intro metadata _
  apply (blind_ofExcept fun _ _ => trivial).bind
  intro plaintext _
  apply blind_urandom.bind
  intro nonce _
  apply (blind_encrypt _ _ _ _).bind
  intro ciphertext _
  refine (blind_execute fun tables tables' hbeside => ?_).bind fun _ _ => blind_pure trivial
  exact hbeside.updateVersion _ _ _ _ _

theorem blind_revokeEach (now : String) (rows : List VersionRow) :
    Blind (Beside workspaceId drawn) (revokeEach suite env master now rows) fun _ => True := by
  induction rows with
  | nil => exact blind_pure trivial
  | cons row rows ih =>
      have hrow : Blind (Beside workspaceId drawn)
          (revokeUnlessRevoked suite env master now row) fun _ => True := by
        apply (blind_ofExcept fun _ _ => trivial).bind
        intro metadata _
        split
        · exact blind_pure trivial
        · exact blind_revokeRow now
      apply hrow.bind
      intro _ _
      apply ih.bind
      intro _ _
      exact blind_pure trivial

theorem blind_append {record : AuditRecord} (hdrawn : drawn record.eventId) :
    Blind (Beside workspaceId drawn) (appendInTransaction env record) fun _ => True :=
  (blind_execute fun _ _ hbeside => hbeside.insertAudit hdrawn).mapRaised _

theorem blind_createSecret (secretId : String) (value : Bytes) (labels : TextDict) :
    Blind (Beside workspaceId drawn)
      (createSecret suite env master workspaceId secretId value labels) fun _ => True :=
  Blind.connection (blind_statement.bind fun _ _ => blind_insertVersion _ _ _ _)

theorem blind_rotateSecret (secretId : String) (value : Bytes) (labels : TextDict)
    (expectedIntent : Option String) :
    Blind (Beside workspaceId drawn)
      (rotateSecret suite env master workspaceId secretId value labels expectedIntent)
      fun _ => True := by
  apply Blind.connection
  apply blind_statement.bind
  intro _ _
  apply (blind_selectRow secretId none).bind
  intro found _
  cases found with
  | none => exact blind_throw _
  | some latest =>
      apply (blind_ofExcept fun _ _ => trivial).bind
      intro latestMetadata _
      apply (blind_raiseIf _ _).bind
      intro _ _
      exact blind_insertVersion _ _ _ _

theorem blind_revokeSecret (secretId : String) :
    Blind (Beside workspaceId drawn) (revokeSecret suite env master workspaceId secretId)
      fun _ => True := by
  apply Blind.connection
  apply blind_statement.bind
  intro _ _
  apply (blind_read fun tables tables' hbeside => hbeside.allVersions secretId).bind
  intro rows _
  apply (blind_raiseIf _ _).bind
  intro _ _
  exact blind_revokeEach _ rows

theorem blind_replayRevocation {args : RevokeSecretVersion} (hdrawn : drawn env.eventId)
    (existing : RevocationRow) :
    Blind (Beside args.workspaceId drawn) (replayRevocation suite env args existing)
      fun _ => True := by
  apply (blind_raiseIf _ _).bind
  intro _ _
  apply (blind_selectRow args.secretId (some args.versionId)).bind
  intro found _
  cases found with
  | none => exact blind_throw _
  | some row =>
      apply (blind_ofExcept fun _ _ => trivial).bind
      intro metadata _
      apply (blind_raiseIf _ _).bind
      intro _ _
      apply (blind_append hdrawn).bind
      intro _ _
      exact blind_pure trivial

theorem blind_freshRevocation {args : RevokeSecretVersion} (hdrawn : drawn env.eventId) :
    Blind (Beside args.workspaceId drawn) (freshRevocation suite env master args)
      fun _ => True := by
  apply (blind_read fun tables tables' hbeside =>
    hbeside.revocationOf args.secretId args.versionId).bind
  intro _ _
  apply (blind_raiseIf _ _).bind
  intro _ _
  apply (blind_selectRow args.secretId (some args.versionId)).bind
  intro found _
  cases found with
  | none => exact blind_throw _
  | some row =>
      apply (blind_ofExcept fun _ _ => trivial).bind
      intro metadata _
      apply (blind_raiseIf _ _).bind
      intro _ _
      apply (blind_raiseIf _ _).bind
      intro _ _
      apply (blind_revokeRow _).bind
      intro revoked _
      apply (blind_execute fun tables tables' hbeside => hbeside.insertRevocation rfl).bind
      intro _ _
      apply (blind_append hdrawn).bind
      intro _ _
      exact blind_pure trivial

theorem blind_revokeSecretVersion {args : RevokeSecretVersion} (hdrawn : drawn env.eventId) :
    Blind (Beside args.workspaceId drawn) (revokeSecretVersion suite env master args)
      fun _ => True := by
  apply Blind.connection
  apply blind_statement.bind
  intro _ _
  apply (blind_read fun tables tables' hbeside =>
    hbeside.revocation args.correlationId).bind
  intro found _
  cases found with
  | none => exact blind_freshRevocation hdrawn
  | some existing => exact blind_replayRevocation hdrawn existing

theorem blind_replayGeneration {args : GenerateDelegationKey} (hdrawn : drawn env.eventId)
    (admittedIntent : String) {existing : GenerationRow}
    (hexisting : existing.workspaceId = args.workspaceId) :
    Blind (Beside args.workspaceId drawn)
      (replayGeneration suite env master args admittedIntent existing) fun _ => True := by
  apply (blind_raiseIf _ _).bind
  intro _ _
  have hregenerated : Blind (Beside args.workspaceId drawn)
      (delegationGenerationFromRow suite env master existing admittedIntent true)
      fun _ => True := by
    rw [← hexisting]
    apply (blind_selectRow existing.secretId (some existing.versionId)).bind
    intro found _
    cases found with
    | none => exact blind_throw _
    | some row => exact blind_ofExcept fun _ _ => trivial
  apply hregenerated.bind
  intro _ _
  apply (blind_append hdrawn).bind
  intro _ _
  exact blind_pure trivial

theorem blind_freshGeneration {args : GenerateDelegationKey} (hdrawn : drawn env.eventId)
    (admittedIntent : String) :
    Blind (Beside args.workspaceId drawn)
      (freshGeneration suite env master args admittedIntent) fun _ => True := by
  unfold freshGeneration
  dsimp only
  cases delegationKeyId suite (suite.publicPem env.privateKey) with
  | none => exact blind_throw _
  | some keyId =>
      apply (blind_insertVersion _ _ _ _).bind
      intro metadata _
      apply (blind_execute fun tables tables' hbeside => hbeside.insertGeneration rfl).bind
      intro _ _
      apply (blind_append hdrawn).bind
      intro _ _
      exact blind_pure trivial

theorem blind_generateDelegationKey {args : GenerateDelegationKey} (hdrawn : drawn env.eventId) :
    Blind (Beside args.workspaceId drawn) (generateDelegationKey suite env master args)
      fun _ => True := by
  apply (blind_ofExcept fun _ _ => trivial).bind
  intro admittedIntent _
  apply Blind.connection
  apply blind_statement.bind
  intro _ _
  have hfound : Blind (Beside args.workspaceId drawn)
      (query env fun tables => tables.generation args.workspaceId args.correlationId)
      fun found => ∀ row, found = some row → row.workspaceId = args.workspaceId :=
    blind_query fun tables tables' hbeside =>
      ⟨hbeside.generation args.correlationId, fun row hrow => congrArg Prod.fst (key_of_find hrow)⟩
  apply hfound.bind
  intro found hworkspace
  cases found with
  | none => exact blind_freshGeneration hdrawn admittedIntent
  | some existing =>
      exact blind_replayGeneration hdrawn admittedIntent (hworkspace existing rfl)

theorem blind_metadata (secretId : String) (versionId : Option String) :
    Blind (Beside workspaceId drawn) (metadata suite env workspaceId secretId versionId)
      fun _ => True := by
  apply (blind_selectRow secretId versionId).connection.bind
  intro found _
  cases found with
  | none => exact blind_throw _
  | some row => exact blind_ofExcept fun _ _ => trivial

theorem blind_resolveSecret (secretId : String) (versionId : Option String) :
    Blind (Beside workspaceId drawn)
      (resolveSecret suite env master workspaceId secretId versionId) fun _ => True := by
  apply (blind_selectRow secretId versionId).connection.bind
  intro found _
  cases found with
  | none => exact blind_throw _
  | some row => exact blind_ofExcept fun _ _ => trivial

theorem blind_selectedVersion (args : ResolveSecretForUse) :
    Blind (Beside args.workspaceId drawn) (selectedVersion suite env args) fun _ => True := by
  apply (blind_read fun tables tables' hbeside => hbeside.selection args.correlationId).bind
  intro found _
  cases found with
  | some selection =>
      apply (blind_raiseIf _ _).bind
      intro _ _
      exact blind_pure trivial
  | none =>
      apply (blind_selectRow args.secretId args.versionId).bind
      intro selected _
      cases selected with
      | none => exact blind_throw _
      | some row =>
          apply (blind_ofExcept fun _ _ => trivial).bind
          intro metadata _
          apply (blind_raiseIf _ _).bind
          intro _ _
          apply (blind_raiseIf _ _).bind
          intro _ _
          apply (blind_execute fun tables tables' hbeside => hbeside.insertSelection rfl).bind
          intro _ _
          exact blind_pure trivial

theorem blind_resolveSecretForUse (args : ResolveSecretForUse) :
    Blind (Beside args.workspaceId drawn) (resolveSecretForUse suite env master args)
      fun _ => True := by
  apply Blind.connection
  apply blind_statement.bind
  intro _ _
  apply (blind_selectedVersion args).bind
  intro versionId _
  apply (blind_selectRow args.secretId (some versionId)).bind
  intro found _
  cases found with
  | none => exact blind_throw _
  | some row => exact blind_ofExcept fun _ _ => trivial

/-- No operation tells databases apart that have the same rows of its
workspace. -/
theorem blind_program (call : Call suite) (hdrawn : drawn call.env.eventId) :
    Blind (Beside call.operation.workspaceId drawn) call.program fun _ => True := by
  rcases call with ⟨operation, master, env⟩
  cases operation with
  | createSecret workspaceId secretId value labels =>
      exact (blind_createSecret secretId value labels).map _
  | rotateSecret workspaceId secretId value labels expectedIntent =>
      exact (blind_rotateSecret secretId value labels expectedIntent).map _
  | revokeSecret workspaceId secretId => exact (blind_revokeSecret secretId).map _
  | revokeSecretVersion args => exact (blind_revokeSecretVersion hdrawn).map _
  | generateDelegationKey args => exact (blind_generateDelegationKey hdrawn).map _
  | resolveSecret workspaceId secretId versionId =>
      exact (blind_resolveSecret secretId versionId).map _
  | resolveSecretForUse args => exact (blind_resolveSecretForUse args).map _
  | metadata workspaceId secretId versionId => exact (blind_metadata secretId versionId).map _

/-- One call answers alike on two such databases, and leaves two such. -/
theorem perform_beside (call : Call suite) (hdrawn : drawn call.env.eventId)
    {tables tables' : Tables} (hbeside : Beside call.operation.workspaceId drawn tables tables') :
    (perform tables' call).1.result = (perform tables call).1.result ∧
      Beside call.operation.workspaceId drawn (perform tables call).2
        (perform tables' call).2 := by
  have hends := blind_program call hdrawn tables tables' hbeside 0 [] [] rfl
  have hsame : ∀ {tables : Tables} {raised : Raised},
      (perform tables call).1.result = .error raised → (perform tables call).2 = tables :=
    fun hresult => (refuses_of_error hresult).2
  unfold ExitsAlike at hends
  have hleft := @hsame tables
  have hright := @hsame tables'
  unfold perform at hleft hright ⊢
  cases hrun : call.program.run { db := tables, executed := 0, encryptions := [] } with
  | ok reply finish =>
      cases hrun' : call.program.run { db := tables', executed := 0, encryptions := [] } with
      | ok reply' finish' =>
          simp only [hrun, hrun'] at hends
          exact ⟨congrArg Except.ok hends.2.1, hends.2.2.2⟩
      | error raised' finish' =>
          simp only [hrun, hrun'] at hends
  | error raised finish =>
      cases hrun' : call.program.run { db := tables', executed := 0, encryptions := [] } with
      | ok reply' finish' =>
          simp only [hrun, hrun'] at hends
      | error raised' finish' =>
          simp only [hrun, hrun'] at hends hleft hright
          refine ⟨congrArg Except.error hends.1, ?_⟩
          simp only [hleft rfl, hright rfl]
          exact hbeside

end

/-! ### Other workspaces -/

/-- A call of the workspace left the rows of the others alone. -/
structure SameElsewhere (workspaceId eventId : String) (before after : Tables) : Prop where
  rows : SameRows (fun found => found ≠ workspaceId) before after
  auditRecords : ∃ added, after.auditRecords = before.auditRecords ++ added ∧
    ∀ record ∈ added, record.workspaceId = workspaceId ∧ record.eventId = eventId

section

variable {suite : CryptoSuite} {env : Env suite} {master : MasterKey} {before after : Tables}
variable {operation : Operation} {reply : Reply} {log log' : List Encryption}
variable {workspaceId eventId : String}

theorem SameRows.refl (keep : String → Prop) (tables : Tables) : SameRows keep tables tables :=
  ⟨AgreeOn.refl _ _, AgreeOn.refl _ _, AgreeOn.refl _ _, AgreeOn.refl _ _⟩

theorem SameRows.trans {keep : String → Prop} {first second third : Tables}
    (hfirst : SameRows keep first second) (hsecond : SameRows keep second third) :
    SameRows keep first third :=
  ⟨hfirst.versions.trans hsecond.versions, hfirst.selections.trans hsecond.selections,
    hfirst.generations.trans hsecond.generations, hfirst.revocations.trans hsecond.revocations⟩

theorem SameRows.symm {keep : String → Prop} {tables tables' : Tables}
    (hsame : SameRows keep tables tables') : SameRows keep tables' tables :=
  ⟨hsame.versions.symm, hsame.selections.symm, hsame.generations.symm, hsame.revocations.symm⟩

theorem SameRows.mono {keep keep' : String → Prop} {tables tables' : Tables}
    (hsame : SameRows keep tables tables') (hkeep : ∀ found, keep' found → keep found) :
    SameRows keep' tables tables' :=
  ⟨fun row hrow => hsame.versions row (hkeep _ hrow),
    fun row hrow => hsame.selections row (hkeep _ hrow),
    fun row hrow => hsame.generations row (hkeep _ hrow),
    fun row hrow => hsame.revocations row (hkeep _ hrow)⟩

theorem Inserts.elsewhere {secretId : String} {value : Bytes} {labels : TextDict}
    {versionNumber : Int} {metadata : SecretMetadata}
    (hinsert : Inserts env master workspaceId secretId value labels versionNumber before log
      metadata after log') :
    SameRows (fun found => found ≠ workspaceId) before after := by
  have hsame := SameRows.refl (fun found => found ≠ workspaceId) before
  cases hinsert
  refine { hsame with versions := agreeOn_append_other ?_ }
  intro row hrow
  rw [List.mem_singleton.mp hrow]
  exact not_not.mpr rfl

theorem Revokes.elsewhere {row : VersionRow} {revokedAt : String} {metadata : SecretMetadata}
    (hrevokes : Revokes env master row revokedAt before log metadata after log')
    (hrow : row.workspaceId = workspaceId) :
    SameRows (fun found => found ≠ workspaceId) before after := by
  have hsame := SameRows.refl (fun found => found ≠ workspaceId) before
  cases hrevokes
  refine { hsame with versions := agreeOn_map_other ?_ ?_ }
  · intro other hother
    split at hother <;> exact hother
  · intro other hother
    rw [if_neg]
    exact fun hkey => hother ((congrArg Prod.fst hkey).trans hrow)

theorem RevokesEach.elsewhere {revokedAt : String} {rows : List VersionRow}
    {revoked : List SecretMetadata}
    (heach : RevokesEach env master revokedAt rows before log revoked after log')
    (hrows : ∀ row ∈ rows, row.workspaceId = workspaceId) :
    SameRows (fun found => found ≠ workspaceId) before after := by
  induction heach with
  | nil => exact SameRows.refl _ _
  | kept _ _ _ ih => exact ih fun row hrow => hrows row (List.mem_cons_of_mem _ hrow)
  | changed _ _ hrevokes _ ih =>
      have hfirst := hrevokes.elsewhere (hrows _ List.mem_cons_self)
      exact hfirst.trans (ih fun row hrow => hrows row (List.mem_cons_of_mem _ hrow))

theorem sameElsewhere_of_rows (hrows : SameRows (fun found => found ≠ workspaceId) before after)
    (hrecords : after.auditRecords = before.auditRecords) :
    SameElsewhere workspaceId eventId before after :=
  ⟨hrows, [], by rw [hrecords, List.append_nil], fun _ hrecord => by cases hrecord⟩

/-- A call that returned leaves the other workspaces alone. -/
theorem Performs.elsewhere
    (hperforms : Performs env master before operation reply after log) :
    SameElsewhere operation.workspaceId env.eventId before after := by
  have hrecord : ∀ {records records' : List AuditRecord} {record : AuditRecord} {found : String},
      records' = records ++ [record] → record.workspaceId = found →
        record.eventId = env.eventId →
      ∃ added, records' = records ++ added ∧
        ∀ record ∈ added, record.workspaceId = found ∧ record.eventId = env.eventId := by
    intro records records' record found hrecords hworkspace hevent
    refine ⟨[record], hrecords, fun other hother => ?_⟩
    rw [List.mem_singleton.mp hother]
    exact ⟨hworkspace, hevent⟩
  have hsame := SameRows.refl (fun found => found ≠ operation.workspaceId) before
  cases hperforms with
  | created hinsert => exact sameElsewhere_of_rows hinsert.elsewhere hinsert.others.2.2.2
  | rotated _ _ _ hinsert =>
      exact sameElsewhere_of_rows hinsert.elsewhere hinsert.others.2.2.2
  | revoked _ hrevokes =>
      refine sameElsewhere_of_rows (hrevokes.elsewhere fun row hrow => ?_) hrevokes.others.2.2.2
      exact congrArg Prod.fst (Tables.mem_allVersions.mp hrow).2
  | revokedVersion _ _ hrow _ _ _ hrevokes =>
      have hrows := hrevokes.elsewhere (congrArg Prod.fst (Tables.selectVersion_eq_some hrow).2)
      refine ⟨{ hrows with revocations := ?_ }, hrecord (by rw [hrevokes.others.2.2.2]) rfl rfl⟩
      refine hrows.revocations.trans (agreeOn_append_other fun row hmem => ?_)
      rw [List.mem_singleton.mp hmem]
      exact not_not.mpr rfl
  | revocationReplayed => exact ⟨{ hsame with }, hrecord rfl rfl rfl⟩
  | generated _ _ _ hinsert =>
      have hrows := hinsert.elsewhere
      refine ⟨{ hrows with generations := ?_ }, hrecord (by rw [hinsert.others.2.2.2]) rfl rfl⟩
      refine hrows.generations.trans (agreeOn_append_other fun row hmem => ?_)
      rw [List.mem_singleton.mp hmem]
      exact not_not.mpr rfl
  | generationReplayed => exact ⟨{ hsame with }, hrecord rfl rfl rfl⟩
  | selected =>
      refine sameElsewhere_of_rows
        { hsame with selections := agreeOn_append_other fun row hmem => ?_ } rfl
      rw [List.mem_singleton.mp hmem]
      exact not_not.mpr rfl
  | resolved => exact sameElsewhere_of_rows hsame rfl
  | reselected => exact sameElsewhere_of_rows hsame rfl
  | described => exact sameElsewhere_of_rows hsame rfl

/-- Every call leaves the other workspaces alone. -/
theorem perform_elsewhere (tables : Tables) (call : Call suite) :
    SameElsewhere call.operation.workspaceId call.env.eventId tables (perform tables call).2 := by
  rcases perform_cases tables call with ⟨reply, _, hperforms⟩ | ⟨raised, _, _, hsame⟩
  · exact hperforms.elsewhere
  · rw [hsame]
    exact sameElsewhere_of_rows (SameRows.refl _ tables) rfl

end

/-! ### Runs -/

section

variable {suite : CryptoSuite} {workspaceId : String} {drawn : String → Prop}
variable {tables tables' : Tables}

theorem perform_keyed (hkeyed : Keyed tables) (call : Call suite) :
    Keyed (perform tables call).2 := by
  have hbeside : Beside call.operation.workspaceId (fun _ => True) tables tables :=
    ⟨SameRows.refl _ tables, hkeyed, hkeyed, fun _ _ => Iff.rfl⟩
  exact (perform_beside call trivial hbeside).2.keyed

/-- A call of another workspace makes no difference. -/
theorem Beside.other (hbeside : Beside workspaceId drawn tables tables') {call : Call suite}
    (hother : call.operation.workspaceId ≠ workspaceId) (hdrawn : ¬ drawn call.env.eventId) :
    Beside workspaceId drawn (perform tables call).2 tables' := by
  obtain ⟨hrows, added, hadded, hevents⟩ := perform_elsewhere tables call
  have hsame : SameWorkspace workspaceId tables (perform tables call).2 := by
    apply hrows.mono
    rintro found rfl
    exact hother.symm
  refine ⟨hsame.symm.trans hbeside.rows, perform_keyed hbeside.keyed call, hbeside.keyed', ?_⟩
  intro eventId hevent
  rw [← hbeside.events eventId hevent, hadded, List.map_append, List.mem_append,
    or_iff_left]
  intro hmem
  obtain ⟨record, hrecord, rfl⟩ := List.mem_map.mp hmem
  rw [(hevents record hrecord).2] at hevent
  exact hdrawn hevent

/-- The calls of the workspace answer as they do without the others. -/
theorem trace_alone (calls : List (Call suite))
    (hown : ∀ call ∈ calls, call.operation.workspaceId = workspaceId → drawn call.env.eventId)
    (hother : ∀ call ∈ calls, call.operation.workspaceId ≠ workspaceId →
      ¬ drawn call.env.eventId)
    (hbeside : Beside workspaceId drawn tables tables') :
    ((trace perform tables calls).filter fun step =>
        step.input.operation.workspaceId = workspaceId).map (fun step => step.output.result) =
      (trace perform tables' (calls.filter fun call =>
        call.operation.workspaceId = workspaceId)).map fun step => step.output.result := by
  induction calls generalizing tables tables' with
  | nil => rfl
  | cons call calls ih =>
      have hownRest := fun other hmem => hown other (List.mem_cons_of_mem call hmem)
      have hotherRest := fun other hmem => hother other (List.mem_cons_of_mem call hmem)
      by_cases hworkspace : call.operation.workspaceId = workspaceId
      · have hdrawn := hown call List.mem_cons_self hworkspace
        subst hworkspace
        obtain ⟨hresult, hafter⟩ := perform_beside call hdrawn hbeside
        simp only [trace, entry, decide_true, List.filter_cons_of_pos, List.map_cons, hresult]
        rw [ih hownRest hotherRest hafter]
      · have hafter := hbeside.other hworkspace (hother call List.mem_cons_self hworkspace)
        simp only [trace, entry, hworkspace, decide_false, Bool.false_eq_true,
          not_false_eq_true, List.filter_cons_of_neg]
        exact ih hownRest hotherRest hafter

end

/-- The results of the calls of one workspace, in order. -/
def resultsAt {suite : CryptoSuite} (workspaceId : String) (steps : List (Step suite)) :
    List (Except Raised Reply) :=
  (steps.filter fun step => step.input.operation.workspaceId = workspaceId).map
    fun step => step.output.result

/-- The calls of one workspace, in order. -/
def callsAt {suite : CryptoSuite} (workspaceId : String) (steps : List (Step suite)) :
    List (Call suite) :=
  (steps.map Entry.input).filter fun call => call.operation.workspaceId = workspaceId

/-- No call of another workspace drew an event id of the workspace. -/
def OwnEvents {suite : CryptoSuite} (workspaceId : String) (steps : List (Step suite)) : Prop :=
  ∀ own ∈ steps, ∀ other ∈ steps, own.input.operation.workspaceId = workspaceId →
    other.input.operation.workspaceId ≠ workspaceId →
      other.input.env.eventId ≠ own.input.env.eventId

/-- What the workspaces of a store can tell of each other. -/
structure WorkspacesIsolated (suite : CryptoSuite) : Prop where
  /-- A call answers alike on two databases with the same rows of its workspace,
  and leaves them with the same rows, if they have or lack its audit event
  alike. -/
  alike : ∀ (call : Call suite) tables tables', Keyed tables → Keyed tables' →
    SameWorkspace call.operation.workspaceId tables tables' →
    EventsAlike (fun eventId => eventId = call.env.eventId) tables tables' →
      (perform tables' call).1.result = (perform tables call).1.result ∧
        SameWorkspace call.operation.workspaceId (perform tables call).2
          (perform tables' call).2
  /-- A call leaves the rows of the other workspaces as they were. -/
  framed : ∀ (call : Call suite) tables,
    SameElsewhere call.operation.workspaceId call.env.eventId tables (perform tables call).2
  /-- A workspace sees the results of its own calls alone. -/
  alone : ∀ (events : List (Event (Call suite))) workspaceId,
    OwnEvents workspaceId (runClients events).log →
      resultsAt workspaceId (runClients events).log =
        (trace perform Tables.empty (callsAt workspaceId (runClients events).log)).map
          fun step => step.output.result

/-- Workspaces are isolated, up to the event ids of the audit records. -/
theorem workspaces_isolated (suite : CryptoSuite) : WorkspacesIsolated suite := by
  constructor
  · intro call tables tables' hkeyed hkeyed' hrows hevents
    have hbeside : Beside call.operation.workspaceId (fun eventId => eventId = call.env.eventId)
        tables tables' := ⟨hrows, hkeyed, hkeyed', hevents⟩
    obtain ⟨hresult, hafter⟩ :=
      @perform_beside suite (fun eventId => eventId = call.env.eventId) call rfl _ _ hbeside
    exact ⟨hresult, hafter.rows⟩
  · exact fun call tables => perform_elsewhere tables call
  · intro events workspaceId hown
    obtain ⟨calls, hlog, _⟩ := runClients_serial events
    rw [hlog] at hown ⊢
    rw [callsAt, inputs_of_trace]
    have hstep : ∀ call ∈ calls, ∃ step ∈ trace perform Tables.empty calls,
        step.input = call := by
      intro call hcall
      rw [← @inputs_of_trace _ _ _ perform Tables.empty calls] at hcall
      exact List.mem_map.mp hcall
    refine @trace_alone suite workspaceId
      (fun eventId => ∃ call ∈ calls, call.operation.workspaceId = workspaceId ∧
        call.env.eventId = eventId) _ _ calls ?_ ?_
      ⟨SameRows.refl _ _, keyed_empty, keyed_empty, fun _ _ => Iff.rfl⟩
    · exact fun call hcall hworkspace => ⟨call, hcall, hworkspace, rfl⟩
    · rintro other hother hworkspace ⟨call, hcall, hat, hevent⟩
      obtain ⟨own, hmem, rfl⟩ := hstep call hcall
      obtain ⟨step, hmem', rfl⟩ := hstep other hother
      exact hown own hmem step hmem' hat hworkspace hevent.symm

/-- A generation whose audit event has the id `a`. -/
def generationIn (workspaceId : String) : Call transparentSuite :=
  plainCall "a" (.generateDelegationKey
    { gatewayRequest "correlation" with workspaceId := workspaceId })

/-- The id of an audit event is unique across workspaces: a generation is
refused when one of another workspace drew its event id. -/
theorem events_not_isolated :
    ¬ ∀ (call : Call transparentSuite) (tables tables' : Tables), Keyed tables → Keyed tables' →
      SameWorkspace call.operation.workspaceId tables tables' →
        (perform tables' call).1.result = (perform tables call).1.result := by
  intro hisolated
  have hrows := (perform_elsewhere Tables.empty (generationIn "other")).rows
  have hsame : SameWorkspace "workspace" Tables.empty
      (perform Tables.empty (generationIn "other")).2 := by
    apply hrows.mono
    rintro found rfl
    decide
  have hresult := hisolated (generationIn "workspace") Tables.empty _ keyed_empty
    (perform_keyed keyed_empty (generationIn "other")) hsame
  have hright : ((perform (perform Tables.empty (generationIn "other")).2
      (generationIn "workspace")).1.result).isOk = false := by decide +kernel
  have hleft : ((perform Tables.empty (generationIn "workspace")).1.result).isOk = true := by
    decide +kernel
  rw [hresult, hleft] at hright
  cases hright

end SecretsCustody
