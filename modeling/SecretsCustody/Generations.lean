/-
Delegation keys.  Every correlation has one generation for ever, every retry
returns its key while the version is active, and the version decrypts to the
private half of that key.
-/
import SecretsCustody.Provenance

namespace SecretsCustody

open History KeyedRows

section

variable {suite : CryptoSuite}

/-! ### What one call adds -/

/-- A fresh generation went in. -/
structure FreshGeneration (env : Env suite) (before : Tables) (operation : Operation)
    (reply : Reply) (after : Tables) (args : GenerateDelegationKey) (metadata : SecretMetadata)
    (keyId : String) : Prop where
  operation : operation = .generateDelegationKey args
  admitted : AdmittedFamily args.purpose args.intent
  fresh : before.generation args.workspaceId args.correlationId = none
  identity : delegationKeyId suite (suite.publicPem env.privateKey) = some keyId
  reply : reply = .generated {
    metadata := metadata
    secretReference := args.secretReference
    purpose := args.purpose
    issuer := args.issuer
    correlationId := args.correlationId
    keyId := keyId
    algorithm := delegationKeyAlgorithm
    publicKeyPem := suite.publicPem env.privateKey
    replayed := false }
  version : metadata.key = (args.workspaceId, args.secretId, metadata.versionId)
  labels : metadata.labels.matchesTexts
    (generationTexts args.intent args.purpose args.issuer keyId) = true
  rows : after.generations =
    before.generations ++ [generationRow args metadata keyId (suite.publicPem env.privateKey)]

/-- A returned key is the one a generation row records. -/
structure KeyOf (row : GenerationRow) (key : GeneratedDelegationKey) : Prop where
  version : key.metadata.key = row.target
  keyId : row.keyId = .text key.keyId
  publicKeyPem : row.publicKeyPem = .text key.publicKeyPem
  secretReference : key.secretReference = row.secretReference
  purpose : key.purpose = row.purpose
  issuer : key.issuer = row.issuer

/-- The key a call under one correlation returned. -/
def keyUnder (correlation : String × String) : Operation → Reply → Option GeneratedDelegationKey
  | .generateDelegationKey args, .generated key =>
      if (args.workspaceId, args.correlationId) = correlation then some key else none
  | _, _ => none

section

variable {env : Env suite} {master : MasterKey} {before after : Tables}
variable {operation : Operation} {reply : Reply} {log : List Encryption}

theorem Inserts.matchesTexts {workspaceId secretId : String} {value : Bytes} {labels : TextDict}
    {versionNumber : Int} {metadata : SecretMetadata} {log' : List Encryption}
    (hinsert : Inserts env master workspaceId secretId value labels versionNumber before log
      metadata after log') :
    metadata.labels.matchesTexts (labels.entries.map fun label => (label.1, label.2)) = true ∧
      metadata.key = (workspaceId, secretId, metadata.versionId) := by
  cases hinsert with
  | intro hclean => exact ⟨cleanLabels_matchesTexts hclean, rfl⟩

theorem Regenerated.keyOf {row : GenerationRow} {secretRow : VersionRow}
    {expectedIntent : String} {key : GeneratedDelegationKey}
    (hregenerated : Regenerated suite master row secretRow expectedIntent key)
    (hkey : secretRow.key = row.target) : KeyOf row key where
  version := (metadataFromRow_describes hregenerated.reads).key.trans hkey
  keyId := hregenerated.keyId
  publicKeyPem := hregenerated.publicKeyPem
  secretReference := hregenerated.secretReference
  purpose := hregenerated.purpose
  issuer := hregenerated.issuer

/-- A call adds a fresh generation, or none; then a key it returns is a replay
of the generation its correlation has. -/
theorem Performs.generations
    (hperforms : Performs env master before operation reply after log) :
    (∃ args metadata keyId,
      FreshGeneration env before operation reply after args metadata keyId) ∨
    after.generations = before.generations ∧ ∀ correlation key,
      keyUnder correlation operation reply = some key → key.replayed = true ∧
        ∃ row, find GenerationRow.key before.generations correlation = some row ∧
          KeyOf row key := by
  cases hperforms with
  | @generated args keyId metadata middle _ hadmitted hfresh hkeyId hinsert haddress hevent =>
      obtain ⟨hlabels, hversion⟩ := hinsert.matchesTexts
      refine .inl ⟨args, metadata, keyId, ⟨rfl, hadmitted, hfresh, hkeyId, rfl, hversion, ?_, ?_⟩⟩
      · have htexts : (generationLabels args.intent args.purpose args.issuer keyId).entries.map
            (fun label => (label.1, label.2)) =
              generationTexts args.intent args.purpose args.issuer keyId := rfl
        rwa [htexts] at hlabels
      · rw [hinsert.others.2.1]
  | @generationReplayed args existing secretRow key hadmitted hexisting hagrees hrow hkey =>
      obtain ⟨hregenerated, hreplayed⟩ := regenerated_eq_ok.mp hkey
      refine .inr ⟨rfl, fun correlation found hfound => ?_⟩
      rw [keyUnder] at hfound
      split at hfound
      · next hcorrelation =>
          cases hfound
          refine ⟨hreplayed, existing, ?_, ?_⟩
          · rw [← hcorrelation]
            exact hexisting
          · exact hregenerated.keyOf (Tables.selectVersion_eq_some hrow).2
      · cases hfound
  | created hinsert => exact .inr ⟨hinsert.others.2.1, fun _ _ hnone => by cases hnone⟩
  | rotated _ _ _ hinsert => exact .inr ⟨hinsert.others.2.1, fun _ _ hnone => by cases hnone⟩
  | revoked _ hrevokes => exact .inr ⟨hrevokes.others.2.1, fun _ _ hnone => by cases hnone⟩
  | revokedVersion _ _ _ _ _ _ hrevokes =>
      exact .inr ⟨hrevokes.others.2.1, fun _ _ hnone => by cases hnone⟩
  | revocationReplayed => exact .inr ⟨rfl, fun _ _ hnone => by cases hnone⟩
  | resolved => exact .inr ⟨rfl, fun _ _ hnone => by cases hnone⟩
  | selected => exact .inr ⟨rfl, fun _ _ hnone => by cases hnone⟩
  | reselected => exact .inr ⟨rfl, fun _ _ hnone => by cases hnone⟩
  | described => exact .inr ⟨rfl, fun _ _ hnone => by cases hnone⟩

end

/-! ### One generation a correlation -/

/-- The keys returned under one correlation: none without a generation, and with
one first the fresh key and then its replays. -/
inductive Issued : List GeneratedDelegationKey → Option GenerationRow → Prop
  | free : Issued [] none
  | taken {row : GenerationRow} {first : GeneratedDelegationKey}
      {rest : List GeneratedDelegationKey} (hfirst : first.replayed = false)
      (hrest : ∀ key ∈ rest, key.replayed = true) (hkeys : ∀ key ∈ first :: rest, KeyOf row key) :
      Issued (first :: rest) (some row)

/-- The keys the calls under one correlation returned, oldest first. -/
def keysUnder (correlation : String × String) (steps : List (Step suite)) :
    List GeneratedDelegationKey :=
  steps.filterMap fun step =>
    match step.output.result with
    | .ok reply => keyUnder correlation step.input.operation reply
    | .error _ => none

theorem Performs.issued {env : Env suite} {master : MasterKey} {before after : Tables}
    {operation : Operation} {reply : Reply} {log : List Encryption}
    (hperforms : Performs env master before operation reply after log)
    (correlation : String × String) {keys : List GeneratedDelegationKey}
    (hissued : Issued keys (find GenerationRow.key before.generations correlation)) :
    Issued (keys ++ (keyUnder correlation operation reply).toList)
      (find GenerationRow.key after.generations correlation) := by
  rcases hperforms.generations with ⟨args, metadata, keyId, hadded⟩ | ⟨hsame, hreplayed⟩
  · have hkey : (generationRow args metadata keyId (suite.publicPem env.privateKey)).key =
        (args.workspaceId, args.correlationId) := rfl
    rw [hadded.rows, find_append_singleton, hadded.operation, hadded.reply, keyUnder, hkey]
    by_cases hcorrelation : (args.workspaceId, args.correlationId) = correlation
    · have hfresh : find GenerationRow.key before.generations correlation = none := by
        rw [← hcorrelation]
        exact hadded.fresh
      rw [hfresh] at hissued ⊢
      cases hissued
      rw [if_pos hcorrelation, if_pos hcorrelation]
      refine .taken rfl (fun _ hkey => by cases hkey) fun key hkey => ?_
      rw [List.mem_singleton.mp hkey]
      exact ⟨hadded.version, rfl, rfl, rfl, rfl, rfl⟩
    · rw [if_neg hcorrelation, if_neg hcorrelation, Option.or_none, Option.toList_none,
        List.append_nil]
      exact hissued
  · rw [hsame]
    cases hkey : keyUnder correlation operation reply with
    | none =>
        rw [Option.toList_none, List.append_nil]
        exact hissued
    | some key =>
        obtain ⟨hreplay, row, hrow, hkeyOf⟩ := hreplayed correlation key hkey
        rw [hrow] at hissued ⊢
        cases hissued with
        | @taken _ first rest hfirst hrest hkeys =>
            have hreplays : ∀ other ∈ rest ++ [key], other.replayed = true := by
              intro other hother
              rcases List.mem_append.mp hother with hother | hother
              · exact hrest other hother
              · rwa [List.mem_singleton.mp hother]
            have hall : ∀ other ∈ (first :: rest) ++ [key], KeyOf row other := by
              intro other hother
              rcases List.mem_append.mp hother with hother | hother
              · exact hkeys other hother
              · rwa [List.mem_singleton.mp hother]
            exact .taken hfirst hreplays hall

theorem issued_trace (calls : List (Call suite)) (correlation : String × String) :
    Issued (keysUnder correlation (trace perform Tables.empty calls))
      (find GenerationRow.key (final perform Tables.empty calls).generations correlation) := by
  refine @invariant_trace _ _ _ _ (fun steps tables =>
    Issued (keysUnder correlation steps) (find GenerationRow.key tables.generations correlation))
    _ _ .free ?_
  intro steps tables call _ hissued
  rcases perform_cases tables call with
    ⟨reply, hresult, hperforms⟩ | ⟨raised, hresult, _, hsame⟩
  · have hkeys : keysUnder correlation (steps ++ [entry perform tables call]) =
        keysUnder correlation steps ++ (keyUnder correlation call.operation reply).toList := by
      simp only [keysUnder, entry, List.filterMap_append, List.filterMap_cons, hresult,
        List.filterMap_nil]
      cases keyUnder correlation call.operation reply <;> rfl
    rw [hkeys]
    exact hperforms.issued correlation hissued
  · have hkeys : keysUnder correlation (steps ++ [entry perform tables call]) =
        keysUnder correlation steps := by
      simp [keysUnder, entry, hresult]
    rw [hkeys, hsame]
    exact hissued

/-! ### The key pair of a generation -/

/-- What the log says of one generation row: its version was inserted with the
private half of the key pair it names, under the labels a replay expects. -/
structure GeneratedFrom (steps : List (Step suite)) (row : GenerationRow)
    (privateKey : suite.PrivateKey) (keyId intent : String) : Prop where
  admitted : AdmittedFamily row.purpose intent
  rowAlgorithm : row.algorithm = delegationKeyAlgorithm
  rowPem : row.publicKeyPem = .text (suite.publicPem privateKey)
  rowKeyId : row.keyId = .text keyId
  identity : delegationKeyId suite (suite.publicPem privateKey) = some keyId
  inserted : ∃ original, findLast insertionKey (insertedIn steps) row.target =
      some (original, suite.privateBytes privateKey) ∧
    original.labels.matchesTexts (generationTexts intent row.purpose row.issuer keyId) = true

def AllGenerated (steps : List (Step suite)) (tables : Tables) : Prop :=
  ∀ row ∈ tables.generations, ∃ privateKey keyId intent,
    GeneratedFrom steps row privateKey keyId intent

theorem Performs.allGenerated {env : Env suite} {master : MasterKey} {before after : Tables}
    {operation : Operation} {reply : Reply} {log : List Encryption}
    {steps steps' : List (Step suite)}
    (hperforms : Performs env master before operation reply after log)
    (hconsistent : Consistent before) (hgenerated : AllGenerated steps before)
    (hinsertions : insertedIn steps' =
      insertedIn steps ++ (inserted env operation reply).toList) :
    AllGenerated steps' after := by
  have heffect := hperforms.versionsEffect hconsistent.versionKeys
  have hkept : ∀ row ∈ before.generations, ∃ privateKey keyId intent,
      GeneratedFrom steps' row privateKey keyId intent := by
    intro row hrow
    obtain ⟨privateKey, keyId, intent, hfrom⟩ := hgenerated row hrow
    obtain ⟨version, hversion, htarget⟩ :=
      List.mem_map.mp (hconsistent.generationVersions row hrow)
    have hsame := heffect.insertions_eq steps hversion
    rw [htarget, ← hinsertions] at hsame
    exact ⟨privateKey, keyId, intent, { hfrom with
      inserted := by rw [hsame]; exact hfrom.inserted }⟩
  rcases hperforms.generations with ⟨args, metadata, keyId, hadded⟩ | ⟨hsame, _⟩
  · intro row hrow
    rw [hadded.rows, List.mem_append, List.mem_singleton] at hrow
    rcases hrow with hrow | rfl
    · exact hkept row hrow
    · refine ⟨env.privateKey, keyId, args.intent, hadded.admitted, rfl, rfl, rfl,
        hadded.identity, metadata, ?_, hadded.labels⟩
      rw [hinsertions, hadded.operation, hadded.reply]
      apply findLast_append_eq
      · intro found hfound _
        exact List.mem_singleton.mp hfound
      · exact .inr ⟨_, List.mem_singleton_self _, hadded.version⟩
  · intro row hrow
    rw [hsame] at hrow
    exact hkept row hrow

/-- Every run under one key records every version and every generation. -/
theorem allGenerated_trace (calls : List (Call suite)) :
    Consistent (final perform Tables.empty calls) ∧
      AllGenerated (trace perform Tables.empty calls) (final perform Tables.empty calls) := by
  refine @invariant_trace _ _ _ _ (fun steps tables =>
    Consistent tables ∧ AllGenerated steps tables) _ _ ?_ ?_
  · exact ⟨consistent_empty, fun row hrow => by cases hrow⟩
  · rintro steps tables call _ ⟨hconsistent, hgenerated⟩
    refine ⟨perform_consistent call hconsistent, ?_⟩
    rcases perform_cases tables call with
      ⟨reply, hresult, hperforms⟩ | ⟨raised, hresult, _, hsame⟩
    · exact hperforms.allGenerated hconsistent hgenerated (insertions_append_of_ok steps hresult)
    · obtain ⟨_, _, hinsertions⟩ := append_of_error steps hresult
      rw [hsame]
      intro row hrow
      obtain ⟨privateKey, keyId, intent, hfrom⟩ := hgenerated row hrow
      exact ⟨privateKey, keyId, intent, { hfrom with
        inserted := by rw [hinsertions]; exact hfrom.inserted }⟩

/-! ### Replays -/

section

variable {key : Bytes} {steps : List (Step suite)} {row : GenerationRow} {version : VersionRow}
variable {metadata : SecretMetadata} {value : Bytes} {privateKey : suite.PrivateKey}
variable {keyId intent : String} {master : MasterKey}

/-- The version of a generation holds the private half of its key pair. -/
theorem GeneratedFrom.value_eq (hfrom : GeneratedFrom steps row privateKey keyId intent)
    (hrecorded : Recorded key steps version metadata value) (hkey : version.key = row.target) :
    value = suite.privateBytes privateKey ∧
      metadata.labels.matchesTexts (generationTexts intent row.purpose row.issuer keyId) =
        true := by
  obtain ⟨original, horiginal, hlabels⟩ := hfrom.inserted
  obtain ⟨original', horiginal', hsame⟩ := hrecorded.inserted
  rw [hkey, horiginal] at horiginal'
  cases horiginal'
  rw [hsame]
  exact ⟨rfl, hlabels⟩

theorem AdmittedFamily.intent_eq {purpose intent' : String}
    (hleft : AdmittedFamily purpose intent) (hright : AdmittedFamily purpose intent') :
    intent' = intent := by
  rw [AdmittedFamily, hleft] at hright
  exact (Option.some.inj hright).symm

/-- A replay of a generation whose version is active verifies. -/
theorem GeneratedFrom.regenerated (hsuite : suite.DecryptsOwn) (hmaterial : suite.KeyMaterial)
    (hfrom : GeneratedFrom steps row privateKey keyId intent)
    (hrecorded : Recorded key steps version metadata value) (hkey : version.key = row.target)
    (hactive : metadata.status ≠ .revoked) (hmaster : master.key = key) :
    ∃ generated, regenerated suite master row version intent true = .ok generated := by
  obtain ⟨hvalue, hlabels⟩ := hfrom.value_eq hrecorded hkey
  have hregenerated : Regenerated suite master row version intent {
      metadata := metadata
      secretReference := row.secretReference
      purpose := row.purpose
      issuer := row.issuer
      correlationId := row.correlationId
      keyId := keyId
      algorithm := row.algorithm
      publicKeyPem := suite.publicPem privateKey
      replayed := true } := {
    reads := hrecorded.reads
    active := hactive
    publicKeyPem := hfrom.rowPem
    keyId := hfrom.rowKeyId
    pemLength := hmaterial.public_length privateKey
    idLength := by
      rw [delegationKeyId_length hmaterial hfrom.identity]
      decide
    labels := hlabels
    rowAlgorithm := hfrom.rowAlgorithm
    material := ⟨value, hrecorded.decrypts hsuite hmaster, by
      rw [hvalue]
      exact delegationMaterialMatches_own hmaterial hfrom.identity⟩
    secretReference := rfl
    purpose := rfl
    issuer := rfl
    correlationId := rfl
    algorithm := rfl }
  exact ⟨_, regenerated_eq_ok.mpr ⟨hregenerated, rfl⟩⟩

/-- A replay of a generation whose version is revoked says so. -/
theorem regenerated_of_revoked {replayed : Bool} (hreads : metadataFromRow version = .ok metadata)
    (hrevoked : metadata.status = .revoked) :
    regenerated suite master row version intent replayed = .error .secretRevoked := by
  simp [regenerated, hreads, hrevoked, Except.mapError, raiseIf, bind, Except.bind, throw,
    throwThe, MonadExceptOf.throw]

end

section

variable {tables : Tables} {call : Call suite} {args : GenerateDelegationKey}
variable {existing : GenerationRow}

/-- The database runs every statement of the call and takes its audit record. -/
def Audits (tables : Tables) (env : Env suite) : Prop :=
  env.Faultless ∧ env.eventId ∉ tables.auditRecords.map AuditRecord.eventId

theorem Audits.not_blocked {env : Env suite} (haudits : Audits tables env) :
    ¬ AuditBlocked env tables := by
  rintro (⟨raised, hfault⟩ | htaken)
  · exact haudits.1.not_faults hfault
  · exact haudits.2 htaken

/-- Under a correlation that has a generation, a call that agrees with it gets
what verifying it gives. -/
theorem generate_agreeing (hconsistent : Consistent tables)
    (hoperation : call.operation = .generateDelegationKey args)
    (hadmitted : AdmittedFamily args.purpose args.intent)
    (hexisting : tables.generation args.workspaceId args.correlationId = some existing)
    (hagrees : args.Agrees existing) (haudits : Audits tables call.env) {version : VersionRow}
    (hversion : version ∈ tables.versions) (hkey : version.key = existing.target) :
    (perform tables call).1.result =
      (regenerated suite call.master existing version args.intent true).map .generated := by
  have hselect : tables.selectVersion existing.workspaceId existing.secretId
      existing.versionId = some version :=
    hconsistent.versionKeys.find_eq_some_iff.mpr ⟨hversion, hkey⟩
  rcases perform_cases tables call with ⟨reply, hresult, hperforms⟩ |
    ⟨raised, hresult, hrefuses, _⟩
  · rw [hoperation] at hperforms
    generalize (perform tables call).2 = after at hperforms
    generalize (perform tables call).1.encryptions = log at hperforms
    cases hperforms with
    | generated _ hfresh =>
        rw [hexisting] at hfresh
        cases hfresh
    | generationReplayed _ hfound _ hrow hregenerated =>
        rw [hexisting] at hfound
        cases hfound
        rw [hselect] at hrow
        cases hrow
        rw [hresult, hregenerated]
        rfl
  · rw [hoperation] at hrefuses
    cases hrefuses with
    | fault hfault => exact absurd hfault haudits.1.not_faults
    | generationInadmissible hinadmissible => exact absurd hadmitted hinadmissible
    | generationConflict hfound hconflict =>
        rw [hexisting] at hfound
        cases hfound
        exact absurd hagrees hconflict
    | generationMissing hfound _ hrow =>
        rw [hexisting] at hfound
        cases hfound
        rw [hselect] at hrow
        cases hrow
    | generationUnverified _ hfound _ hrow hregenerated =>
        rw [hexisting] at hfound
        cases hfound
        rw [hselect] at hrow
        cases hrow
        rw [hresult, hregenerated]
        rfl
    | generationKeyId hfresh =>
        rw [hexisting] at hfresh
        cases hfresh
    | generationRefused hfresh =>
        rw [hexisting] at hfresh
        cases hfresh
    | generationTaken hfresh =>
        rw [hexisting] at hfresh
        cases hfresh
    | generationAudit hblocked => exact absurd hblocked haudits.not_blocked

/-- A call that differs from the generation of its correlation is refused. -/
theorem generate_conflicting (hoperation : call.operation = .generateDelegationKey args)
    (hadmitted : AdmittedFamily args.purpose args.intent)
    (hexisting : tables.generation args.workspaceId args.correlationId = some existing)
    (hconflict : ¬ args.Agrees existing) :
    (perform tables call).2 = tables ∧ ∃ raised, (perform tables call).1.result = .error raised ∧
      (Audits tables call.env → raised = .delegationKeyGenerationConflict) := by
  rcases perform_cases tables call with ⟨reply, hresult, hperforms⟩ |
    ⟨raised, hresult, hrefuses, hsame⟩
  · rw [hoperation] at hperforms
    generalize (perform tables call).2 = after at hperforms
    generalize (perform tables call).1.encryptions = log at hperforms
    cases hperforms with
    | generated _ hfresh =>
        rw [hexisting] at hfresh
        cases hfresh
    | generationReplayed _ hfound hagrees =>
        rw [hexisting] at hfound
        cases hfound
        exact absurd hagrees hconflict
  · refine ⟨hsame, raised, hresult, fun haudits => ?_⟩
    rw [hoperation] at hrefuses
    cases hrefuses with
    | fault hfault => exact absurd hfault haudits.1.not_faults
    | generationInadmissible hinadmissible => exact absurd hadmitted hinadmissible
    | generationConflict => rfl
    | generationMissing hfound hagrees =>
        rw [hexisting] at hfound
        cases hfound
        exact absurd hagrees hconflict
    | generationUnverified _ hfound hagrees =>
        rw [hexisting] at hfound
        cases hfound
        exact absurd hagrees hconflict
    | generationKeyId hfresh =>
        rw [hexisting] at hfresh
        cases hfresh
    | generationRefused hfresh =>
        rw [hexisting] at hfresh
        cases hfresh
    | generationTaken hfresh =>
        rw [hexisting] at hfresh
        cases hfresh
    | generationAudit hblocked => exact absurd hblocked haudits.not_blocked

end

/-! ### Executions -/

/-- Two returned keys are one identity. -/
structure SameIdentity (left right : GeneratedDelegationKey) : Prop where
  version : left.metadata.key = right.metadata.key
  keyId : left.keyId = right.keyId
  publicKeyPem : left.publicKeyPem = right.publicKeyPem
  secretReference : left.secretReference = right.secretReference
  purpose : left.purpose = right.purpose
  issuer : left.issuer = right.issuer

theorem KeyOf.sameIdentity {row : GenerationRow} {left right : GeneratedDelegationKey}
    (hleft : KeyOf row left) (hright : KeyOf row right) : SameIdentity left right where
  version := hleft.version.trans hright.version.symm
  keyId := SqlValue.text.inj (hleft.keyId.symm.trans hright.keyId)
  publicKeyPem := SqlValue.text.inj (hleft.publicKeyPem.symm.trans hright.publicKeyPem)
  secretReference := hleft.secretReference.trans hright.secretReference.symm
  purpose := hleft.purpose.trans hright.purpose.symm
  issuer := hleft.issuer.trans hright.issuer.symm

theorem Issued.keyOf {keys : List GeneratedDelegationKey} {found : Option GenerationRow}
    (hissued : Issued keys found) {key : GeneratedDelegationKey} (hkey : key ∈ keys) :
    ∃ row, found = some row ∧ KeyOf row key := by
  cases hissued with
  | free => cases hkey
  | taken _ _ hkeys => exact ⟨_, rfl, hkeys key hkey⟩

theorem Issued.once {keys : List GeneratedDelegationKey} {found : Option GenerationRow}
    (hissued : Issued keys found) :
    keys = [] ∨ ∃ first rest, keys = first :: rest ∧ first.replayed = false ∧
      ∀ other ∈ rest, other.replayed = true ∧ SameIdentity first other := by
  cases hissued with
  | free => exact .inl rfl
  | taken hfirst hrest hkeys =>
      refine .inr ⟨_, _, rfl, hfirst, fun other hother => ⟨hrest other hother, ?_⟩⟩
      exact (hkeys _ List.mem_cons_self).sameIdentity
        (hkeys other (List.mem_cons_of_mem _ hother))

/-- What holds of the delegation keys of an execution under one master key. -/
structure GeneratedOnce (key : Bytes) (system : System Tables (Call suite) Outcome) : Prop where
  /-- One generation a correlation, and one a secret. -/
  correlations : Unique GenerationRow.key system.committed.generations
  addresses : Unique GenerationRow.address system.committed.generations
  /-- The calls of one correlation that returned got one identity, fresh once. -/
  once : ∀ correlation, keysUnder correlation system.log = [] ∨
    ∃ first rest, keysUnder correlation system.log = first :: rest ∧ first.replayed = false ∧
      ∀ other ∈ rest, other.replayed = true ∧ SameIdentity first other
  /-- The version a returned key names decrypts to its private half. -/
  material : ∀ correlation, ∀ generated ∈ keysUnder correlation system.log,
    ∃ version ∈ system.committed.versions, version.key = generated.metadata.key ∧
      ∃ privateKey, suite.publicPem privateKey = generated.publicKeyPem ∧
        ∀ master : MasterKey, master.key = key →
          decryptRow suite master version = .ok (suite.privateBytes privateKey)
  /-- A call that agrees is a replay while the version is active, and is told
  once it is revoked. -/
  agreeing : ∀ step ∈ system.log, ∀ args existing,
    step.input.operation = .generateDelegationKey args →
    AdmittedFamily args.purpose args.intent →
    step.before.generation args.workspaceId args.correlationId = some existing →
    args.Agrees existing → Audits step.before step.input.env →
      ∃ version ∈ step.before.versions, version.key = existing.target ∧
        (version.status = SecretStatus.active.value ∧
            (∃ generated, step.output.result = .ok (.generated generated) ∧
              generated.replayed = true) ∨
          version.status = SecretStatus.revoked.value ∧
            step.output.result = .error .secretRevoked)
  /-- A call that differs is refused and changes nothing. -/
  conflicting : ∀ step ∈ system.log, ∀ args existing,
    step.input.operation = .generateDelegationKey args →
    AdmittedFamily args.purpose args.intent →
    step.before.generation args.workspaceId args.correlationId = some existing →
    ¬ args.Agrees existing →
      step.after = step.before ∧ ∃ raised, step.output.result = .error raised ∧
        (Audits step.before step.input.env → raised = .delegationKeyGenerationConflict)

theorem generated_once (hsuite : suite.DecryptsOwn) (hmaterial : suite.KeyMaterial) {key : Bytes}
    (events : List (Event (Call suite))) (hkey : HoldsKey key (runClients events).log) :
    GeneratedOnce key (runClients events) := by
  obtain ⟨calls, hlog, hcommitted⟩ := runClients_serial events
  rw [hlog] at hkey
  have hconsistent : Consistent (runClients events).committed := by
    rw [hcommitted]
    exact final_consistent calls
  have hissued : ∀ correlation, Issued (keysUnder correlation (runClients events).log)
      (find GenerationRow.key (runClients events).committed.generations correlation) := by
    rw [hlog, hcommitted]
    exact issued_trace calls
  constructor
  · exact hconsistent.generationKeys
  · exact hconsistent.generationAddresses
  · exact fun correlation => (hissued correlation).once
  · intro correlation generated hgenerated
    obtain ⟨row, hfind, hkeyOf⟩ := (hissued correlation).keyOf hgenerated
    have hrow := mem_of_find hfind
    obtain ⟨version, hversion, htarget⟩ :=
      List.mem_map.mp (hconsistent.generationVersions row hrow)
    rw [hcommitted] at hrow hversion ⊢
    obtain ⟨privateKey, keyId, intent, hfrom⟩ := (allGenerated_trace calls).2 row hrow
    obtain ⟨metadata, value, hrecorded⟩ :=
      (allRecorded_trace hsuite hkey.calls).2 version hversion
    refine ⟨version, hversion, htarget.trans hkeyOf.version.symm, privateKey, ?_, ?_⟩
    · exact SqlValue.text.inj (hfrom.rowPem.symm.trans hkeyOf.publicKeyPem)
    · intro master hmaster
      rw [← (hfrom.value_eq hrecorded htarget).1]
      exact hrecorded.decrypts hsuite hmaster
  · intro step hstep args existing hoperation hadmitted hexisting hagrees haudits
    rw [hlog] at hstep
    obtain ⟨earlier, call, later, rfl, rfl⟩ := mem_trace hstep
    change call.operation = _ at hoperation
    have hmaster : call.master.key = key := hkey _ hstep
    rw [trace_append] at hkey
    have hearlier : HoldsKey key (trace perform Tables.empty earlier) :=
      fun step hmem => hkey step (List.mem_append_left _ hmem)
    have hbefore := final_consistent earlier
    obtain ⟨version, hversion, htarget⟩ := List.mem_map.mp
      (hbefore.generationVersions existing (mem_of_find hexisting))
    obtain ⟨metadata, value, hrecorded⟩ :=
      (allRecorded_trace hsuite hearlier.calls).2 version hversion
    obtain ⟨privateKey, keyId, intent, hfrom⟩ :=
      (allGenerated_trace earlier).2 existing (mem_of_find hexisting)
    have hpurpose : existing.purpose = args.purpose := hagrees.2.2.1
    have hintent : intent = args.intent :=
      AdmittedFamily.intent_eq hadmitted (hpurpose ▸ hfrom.admitted)
    have hresult := generate_agreeing hbefore hoperation hadmitted hexisting hagrees haudits
      hversion htarget
    have hstatus := (metadataFromRow_describes hrecorded.reads).status
    refine ⟨version, hversion, htarget, ?_⟩
    change _ ∧ (∃ generated, (perform _ call).1.result = _ ∧ _) ∨
      _ ∧ (perform _ call).1.result = _
    rw [hresult]
    by_cases hrevoked : metadata.status = .revoked
    · apply Or.inr
      rw [regenerated_of_revoked hrecorded.reads hrevoked, hstatus, hrevoked]
      exact ⟨rfl, rfl⟩
    · apply Or.inl
      obtain ⟨generated, hgenerated⟩ := hfrom.regenerated hsuite hmaterial hrecorded htarget
        hrevoked hmaster
      rw [← hintent, hgenerated, hstatus, SecretStatus.eq_active hrevoked]
      exact ⟨rfl, generated, rfl, (regenerated_eq_ok.mp hgenerated).2⟩
  · intro step hstep args existing hoperation hadmitted hexisting hconflict
    rw [hlog] at hstep
    obtain ⟨earlier, call, later, rfl, rfl⟩ := mem_trace hstep
    exact generate_conflicting hoperation hadmitted hexisting hconflict

end

/-- A generation request of one correlation. -/
def gatewayRequest (correlationId : String) : GenerateDelegationKey :=
  { workspaceId := "workspace"
    secretId := "gateway"
    secretReference := "secret://gateway"
    purpose := gatewayDelegationPurpose
    intent := gatewaySigningIntent
    issuer := "gateway"
    callerSubject := "caller"
    correlationId := correlationId
    providerId := "provider" }

/-- A generation, two retries with a rotation between them, a request that
differs, and a retry after the revocation. -/
def generations : List (Event (Call transparentSuite)) :=
  [.begin 0 (plainCall "a" (.generateDelegationKey (gatewayRequest "correlation"))),
    .commit 0,
    .begin 1 (plainCall "b" (.generateDelegationKey (gatewayRequest "correlation"))),
    .commit 1,
    .begin 0 (plainCall "c" (.rotateSecret "workspace" "gateway" [2] ⟨[], List.nodup_nil⟩ none)),
    .commit 0,
    .begin 1 (plainCall "d" (.generateDelegationKey (gatewayRequest "correlation"))),
    .commit 1,
    .begin 1 (plainCall "e" (.generateDelegationKey
      { gatewayRequest "correlation" with issuer := "other" })),
    .commit 1,
    .begin 0 (plainCall "f" (.revokeSecret "workspace" "gateway")),
    .commit 0,
    .begin 1 (plainCall "g" (.generateDelegationKey (gatewayRequest "correlation"))),
    .commit 1]

theorem generated_once_generations : GeneratedOnce [] (runClients generations) :=
  generated_once transparentSuite_decryptsOwn transparentSuite_keyMaterial generations
    (by decide +kernel)

end SecretsCustody
