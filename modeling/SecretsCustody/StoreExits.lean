/-
The exits of the store operations, one program at a time: each ends as
`Performs` or `Refuses` says, and leaves the database alone when it raises.
-/
import SecretsCustody.StoreCases

namespace SecretsCustody

open JsonText

section

variable {suite : CryptoSuite} {env : Env suite} {master : MasterKey} {tables : Tables}
variable {log : List Encryption}

/-- A connection whose body returns as `returns` says ends so, and otherwise
raises what the body or a failed statement raises. -/
theorem ends_connection {α : Type} {body : Tx Tables α}
    {returns : α → Tables → List Encryption → Prop} {refuses : Raised → Prop}
    (hbody : Ends body tables log returns fun raised _ _ => refuses raised)
    (hfaults : ∀ raised, env.Faults raised → refuses raised) :
    Ends (connection suite env body) tables log returns
      fun raised tables' _ => refuses raised ∧ tables' = tables := by
  have hrefuses : ∀ raised, env.Faults raised → refuses raised ∧ tables = tables :=
    fun raised hfault => ⟨hfaults raised hfault, rfl⟩
  apply ends_withConnection
  refine Ends.bind (ends_statement (Ends.bind (ends_statement (ends_statement ?_ hrefuses)
    hrefuses)) hrefuses)
  exact hbody.mono (fun _ _ _ hreturns => ⟨hreturns, hrefuses⟩) fun _ _ _ hraises => ⟨hraises, rfl⟩

theorem insertVersion_ends {workspaceId secretId : String} {value : Bytes} {labels : TextDict}
    {versionNumber : Int} :
    Ends (insertVersion suite env master workspaceId secretId value labels versionNumber)
      tables log
      (fun metadata tables' log' => Inserts env master workspaceId secretId value labels
        versionNumber tables log metadata tables' log')
      (fun raised _ _ => InsertRefused env master workspaceId secretId value labels
        versionNumber tables raised) := by
  unfold insertVersion
  refine Ends.bind (ends_ofExcept (fun clean hclean => ?_) fun raised hclean => .labels hclean)
  refine Ends.bind (ends_urandom ?_)
  refine Ends.bind (ends_encrypt (fun ciphertext hencrypt => ?_) fun raised hencrypt =>
    .cipher hclean (env.urandom_length _) hencrypt)
  refine Ends.bind (ends_raiseIf (fun hnumber => .overflow hnumber) fun hnumber => ?_)
  refine Ends.bind (ends_mapRaised (ends_execute (fun tables' hinsert => ?_)
    (fun raised hinsert => ?_) fun raised hfault => ?_))
  · unfold Tables.insertVersion at hinsert
    split at hinsert
    · cases hinsert
    · next hfree =>
        cases hinsert
        rw [not_or] at hfree
        exact ends_pure (.intro hclean hencrypt (not_lt.mp hnumber) hfree.1 hfree.2)
  · unfold Tables.insertVersion at hinsert
    split at hinsert
    · next htaken =>
        cases hinsert
        exact .taken htaken
    · cases hinsert
  · obtain ⟨index, fault, hfails, rfl⟩ := hfault
    exact .fault ⟨index, fault, hfails, rfl⟩

theorem revokeRow_ends {row : VersionRow} {revokedAt : String} :
    Ends (revokeRow suite env master row revokedAt) tables log
      (fun revoked tables' log' => Revokes env master row revokedAt tables log revoked tables'
        log')
      (fun raised _ _ => RevokeRefused env master row revokedAt raised) := by
  unfold revokeRow
  refine Ends.bind (ends_ofExcept (fun metadata hmetadata => ?_)
    fun raised hmetadata => .unreadable hmetadata)
  refine Ends.bind (ends_ofExcept (fun plaintext hdecrypt => ?_)
    fun raised hdecrypt => .undecryptable hdecrypt)
  refine Ends.bind (ends_urandom ?_)
  refine Ends.bind (ends_encrypt (fun ciphertext hencrypt => ?_)
    fun raised hencrypt => .cipher hencrypt (env.urandom_length _) hdecrypt)
  refine Ends.bind (ends_execute (fun tables' hupdate => ?_) (fun raised hupdate => ?_)
    fun raised hfault => .fault hfault)
  · cases hupdate
    rw [(metadataFromRow_describes hmetadata).key]
    exact ends_pure (.intro hmetadata hdecrypt hencrypt)
  · cases hupdate

theorem revokeUnlessRevoked_ends {row : VersionRow} {revokedAt : String} :
    Ends (revokeUnlessRevoked suite env master revokedAt row) tables log
      (fun revoked tables' log' =>
        (metadataFromRow row = .ok revoked ∧ revoked.status = .revoked ∧ tables' = tables ∧
            log' = log) ∨
          ∃ metadata, metadataFromRow row = .ok metadata ∧ metadata.status ≠ .revoked ∧
            Revokes env master row revokedAt tables log revoked tables' log')
      (fun raised _ _ => RevokeRefused env master row revokedAt raised) := by
  unfold revokeUnlessRevoked
  refine Ends.bind (ends_ofExcept (fun metadata hmetadata => ?_)
    fun raised hmetadata => .unreadable hmetadata)
  refine ends_ite (fun hstatus => ends_pure (.inl ⟨hmetadata, hstatus, rfl, rfl⟩))
    fun hstatus => ?_
  exact revokeRow_ends.mono (fun _ _ _ hrevokes => .inr ⟨metadata, hmetadata, hstatus, hrevokes⟩)
    fun _ _ _ hrefused => hrefused

theorem revokeEach_ends {revokedAt : String} (rows : List VersionRow) :
    Ends (revokeEach suite env master revokedAt rows) tables log
      (fun revoked tables' log' => RevokesEach env master revokedAt rows tables log revoked
        tables' log')
      (fun raised _ _ => ∃ row ∈ rows, RevokeRefused env master row revokedAt raised) := by
  induction rows generalizing tables log with
  | nil => exact ends_pure .nil
  | cons row rows ih =>
      have hhead : ∀ raised, RevokeRefused env master row revokedAt raised →
          ∃ found ∈ row :: rows, RevokeRefused env master found revokedAt raised :=
        fun raised hrefused => ⟨row, List.mem_cons_self, hrefused⟩
      refine Ends.bind (revokeUnlessRevoked_ends.mono (fun revoked middle log' hrevoked => ?_)
        fun raised _ _ => hhead raised)
      refine Ends.bind (ih.mono (fun rest tables' log'' hrest => ends_pure ?_) ?_)
      · rcases hrevoked with ⟨hmetadata, hstatus, rfl, rfl⟩ | ⟨metadata, hmetadata, hstatus, hrevokes⟩
        · exact .kept hmetadata hstatus hrest
        · exact .changed hmetadata hstatus hrevokes hrest
      · rintro raised _ _ ⟨found, hfound, hrefused⟩
        exact ⟨found, List.mem_cons_of_mem row hfound, hrefused⟩

/-! ### Operations -/

theorem createSecret_ends {workspaceId secretId : String} {value : Bytes} {labels : TextDict} :
    Ends (createSecret suite env master workspaceId secretId value labels) tables []
      (fun metadata tables' log' => Performs env master tables
        (.createSecret workspaceId secretId value labels) (.metadata metadata) tables' log')
      (fun raised tables' _ => Refuses env master tables
        (.createSecret workspaceId secretId value labels) raised ∧ tables' = tables) := by
  refine ends_connection (Ends.bind (ends_statement ?_ fun _ hfault => .fault hfault))
    fun _ hfault => .fault hfault
  exact insertVersion_ends.mono (fun _ _ _ hinsert => .created hinsert)
    fun _ _ _ hrefused => .createRefused hrefused

theorem rotateSecret_ends {workspaceId secretId : String} {value : Bytes} {labels : TextDict}
    {expectedIntent : Option String} :
    Ends (rotateSecret suite env master workspaceId secretId value labels expectedIntent)
      tables []
      (fun metadata tables' log' => Performs env master tables
        (.rotateSecret workspaceId secretId value labels expectedIntent) (.metadata metadata)
        tables' log')
      (fun raised tables' _ => Refuses env master tables
        (.rotateSecret workspaceId secretId value labels expectedIntent) raised ∧
          tables' = tables) := by
  refine ends_connection (Ends.bind (ends_statement (Ends.bind (ends_query ?_
    fun _ hfault => .fault hfault)) fun _ hfault => .fault hfault)) fun _ hfault => .fault hfault
  cases hlatest : tables.latestVersion workspaceId secretId with
  | none => exact ends_throw (.rotateMissing hlatest)
  | some latest =>
      refine Ends.bind (ends_ofExcept (fun latestMetadata hmetadata => ?_)
        fun raised hmetadata => .rotateUnreadable hlatest hmetadata)
      refine Ends.bind (ends_raiseIf (fun hintent => .rotateMismatch hlatest hmetadata hintent)
        fun hintent => ?_)
      exact insertVersion_ends.mono
        (fun _ _ _ hinsert => .rotated hlatest hmetadata hintent hinsert)
        fun _ _ _ hrefused => .rotateRefused hlatest hrefused

theorem revokeSecret_ends {workspaceId secretId : String} :
    Ends (revokeSecret suite env master workspaceId secretId) tables []
      (fun revoked tables' log' => Performs env master tables
        (.revokeSecret workspaceId secretId) (.revoked revoked) tables' log')
      (fun raised tables' _ => Refuses env master tables
        (.revokeSecret workspaceId secretId) raised ∧ tables' = tables) := by
  refine ends_connection (Ends.bind (ends_statement (Ends.bind (ends_query ?_
    fun _ hfault => .fault hfault)) fun _ hfault => .fault hfault)) fun _ hfault => .fault hfault
  refine Ends.bind (ends_raiseIf (fun hrows => .revokeMissing hrows) fun hrows => ?_)
  refine (revokeEach_ends _).mono (fun _ _ _ heach => .revoked hrows heach) ?_
  rintro raised _ _ ⟨row, hrow, hrefused⟩
  exact .revokeRefused hrow hrefused

theorem replayRevocation_ends {args : RevokeSecretVersion} {existing : RevocationRow}
    (hexisting : tables.revocation args.workspaceId args.correlationId = some existing) :
    Ends (replayRevocation suite env args existing) tables []
      (fun metadata tables' log' => Performs env master tables (.revokeSecretVersion args)
        (.metadata metadata) tables' log')
      (fun raised _ _ => Refuses env master tables (.revokeSecretVersion args) raised) := by
  unfold replayRevocation
  refine Ends.bind (ends_raiseIf (fun hagrees => .revocationConflict hexisting hagrees)
    fun hagrees => ?_)
  have hadmits : ∀ found, tables.revocation args.workspaceId args.correlationId = some found →
      args.Agrees found := by
    intro found hfound
    cases hexisting.symm.trans hfound
    exact not_not.mp hagrees
  refine Ends.bind (ends_query ?_ fun _ hfault => .fault hfault)
  rw [selectRow]
  cases hrow : tables.selectVersion args.workspaceId args.secretId args.versionId with
  | none => exact ends_throw (.revocationMissing hadmits hrow)
  | some row =>
      refine Ends.bind (ends_ofExcept (fun metadata hmetadata => ?_)
        fun raised hmetadata => .revocationUnreadable hadmits hrow hmetadata)
      refine Ends.bind (ends_raiseIf
        (fun hconflict => .revocationReplayConflict hexisting hrow hmetadata hconflict)
        fun hconflict => ?_)
      rw [not_or, not_not, not_not] at hconflict
      refine Ends.bind ((appendInTransaction_ends rfl).mono ?_ ?_)
      · rintro _ tables' log' ⟨⟨rfl, hevent⟩, rfl⟩
        exact ends_pure (.revocationReplayed hexisting (not_not.mp hagrees) hrow hmetadata
          hconflict.1 hconflict.2 hevent)
      · rintro raised _ _ ⟨rfl, hblocked, _⟩
        exact .revocationAudit hadmits hblocked

theorem freshRevocation_ends {args : RevokeSecretVersion}
    (hfresh : tables.revocation args.workspaceId args.correlationId = none) :
    Ends (freshRevocation suite env master args) tables []
      (fun metadata tables' log' => Performs env master tables (.revokeSecretVersion args)
        (.metadata metadata) tables' log')
      (fun raised _ _ => Refuses env master tables (.revokeSecretVersion args) raised) := by
  unfold freshRevocation
  have hadmits : ∀ found, tables.revocation args.workspaceId args.correlationId = some found →
      args.Agrees found := by
    intro found hfound
    cases hfresh.symm.trans hfound
  refine Ends.bind (ends_query ?_ fun _ hfault => .fault hfault)
  refine Ends.bind (ends_raiseIf (fun htarget => .revocationTaken hfresh htarget)
    fun htarget => ?_)
  refine Ends.bind (ends_query ?_ fun _ hfault => .fault hfault)
  rw [selectRow]
  cases hrow : tables.selectVersion args.workspaceId args.secretId args.versionId with
  | none => exact ends_throw (.revocationMissing hadmits hrow)
  | some row =>
      refine Ends.bind (ends_ofExcept (fun metadata hmetadata => ?_)
        fun raised hmetadata => .revocationUnreadable hadmits hrow hmetadata)
      refine Ends.bind (ends_raiseIf
        (fun hnumber => .revocationMismatch hfresh hrow hmetadata hnumber) fun hnumber => ?_)
      refine Ends.bind (ends_raiseIf
        (fun hstatus => .revocationRevoked hfresh hrow hmetadata hstatus) fun hstatus => ?_)
      refine Ends.bind (revokeRow_ends.mono (fun revoked middle log' hrevokes => ?_)
        fun raised _ _ hrefused => .revocationRefused hfresh hrow hrefused)
      have hinsert : middle.insertRevocation (revocationRow args env.now) =
          .ok { middle with
            revocations := middle.revocations ++ [revocationRow args env.now] } := by
        cases hrevokes
        refine Tables.insertRevocation_eq_ok hfresh (not_not.mp htarget) ?_
        rw [Tables.updateVersion_keys]
        exact Tables.mem_keys_of_selectVersion hrow
      have hrecords : middle.auditRecords = tables.auditRecords := by
        cases hrevokes
        rfl
      refine Ends.bind (ends_execute (fun middle' hmiddle => ?_) (fun raised hmiddle => ?_)
        fun _ hfault => .fault hfault)
      · rw [hinsert] at hmiddle
        cases hmiddle
        refine Ends.bind ((appendInTransaction_ends rfl).mono ?_ ?_)
        · rintro _ tables' log'' ⟨⟨rfl, hevent⟩, rfl⟩
          rw [hrecords] at hevent
          exact ends_pure (.revokedVersion hfresh (not_not.mp htarget) hrow hmetadata
            (not_not.mp hnumber) hstatus hrevokes hevent)
        · rintro raised _ _ ⟨rfl, hblocked, _⟩
          refine .revocationAudit hadmits ?_
          rwa [AuditBlocked, hrecords] at hblocked
      · rw [hinsert] at hmiddle
        cases hmiddle

theorem revokeSecretVersion_ends {args : RevokeSecretVersion} :
    Ends (revokeSecretVersion suite env master args) tables []
      (fun metadata tables' log' => Performs env master tables (.revokeSecretVersion args)
        (.metadata metadata) tables' log')
      (fun raised tables' _ => Refuses env master tables (.revokeSecretVersion args) raised ∧
        tables' = tables) := by
  refine ends_connection (Ends.bind (ends_statement (Ends.bind (ends_query ?_
    fun _ hfault => .fault hfault)) fun _ hfault => .fault hfault)) fun _ hfault => .fault hfault
  cases hexisting : tables.revocation args.workspaceId args.correlationId with
  | none => exact freshRevocation_ends hexisting
  | some existing => exact replayRevocation_ends hexisting

theorem replayGeneration_ends {args : GenerateDelegationKey} {existing : GenerationRow}
    (hadmitted : AdmittedFamily args.purpose args.intent)
    (hexisting : tables.generation args.workspaceId args.correlationId = some existing) :
    Ends (replayGeneration suite env master args args.intent existing) tables []
      (fun key tables' log' => Performs env master tables (.generateDelegationKey args)
        (.generated key) tables' log')
      (fun raised _ _ => Refuses env master tables (.generateDelegationKey args) raised) := by
  unfold replayGeneration
  refine Ends.bind (ends_raiseIf (fun hagrees => .generationConflict hexisting hagrees)
    fun hagrees => ?_)
  refine Ends.bind (Ends.bind (ends_query ?_ fun _ hfault => .fault hfault))
  rw [selectRow]
  cases hrow : tables.selectVersion existing.workspaceId existing.secretId
    existing.versionId with
  | none => exact ends_throw (.generationMissing hexisting (not_not.mp hagrees) hrow)
  | some secretRow =>
      refine ends_ofExcept (fun key hkey => ?_) fun raised hkey =>
        .generationUnverified hadmitted hexisting (not_not.mp hagrees) hrow hkey
      refine Ends.bind ((appendInTransaction_ends rfl).mono ?_ ?_)
      · rintro _ tables' log' ⟨⟨rfl, hevent⟩, rfl⟩
        exact ends_pure (.generationReplayed hadmitted hexisting (not_not.mp hagrees) hrow hkey
          hevent)
      · rintro raised _ _ ⟨rfl, hblocked, _⟩
        exact .generationAudit hblocked

/-- The version a generation just inserted is there for its foreign key. -/
theorem Inserts.mem_keys {workspaceId secretId : String} {value : Bytes} {labels : TextDict}
    {versionNumber : Int} {metadata : SecretMetadata} {tables' : Tables}
    {log' : List Encryption}
    (hinsert : Inserts env master workspaceId secretId value labels versionNumber tables log
      metadata tables' log') :
    (workspaceId, secretId, metadata.versionId) ∈ tables'.versions.map VersionRow.key := by
  cases hinsert
  rw [List.map_append, List.mem_append]
  exact .inr List.mem_cons_self

/-- A version goes in under a number its secret did not have. -/
theorem Inserts.number_free {workspaceId secretId : String} {value : Bytes} {labels : TextDict}
    {versionNumber : Int} {metadata : SecretMetadata} {tables' : Tables}
    {log' : List Encryption}
    (hinsert : Inserts env master workspaceId secretId value labels versionNumber tables log
      metadata tables' log') :
    (workspaceId, secretId, versionNumber) ∉ tables.versions.map VersionRow.numberKey := by
  cases hinsert with
  | intro _ _ _ _ hnumber => exact hnumber

theorem freshGeneration_ends {args : GenerateDelegationKey}
    (hadmitted : AdmittedFamily args.purpose args.intent)
    (hfresh : tables.generation args.workspaceId args.correlationId = none) :
    Ends (freshGeneration suite env master args args.intent) tables []
      (fun key tables' log' => Performs env master tables (.generateDelegationKey args)
        (.generated key) tables' log')
      (fun raised _ _ => Refuses env master tables (.generateDelegationKey args) raised) := by
  unfold freshGeneration
  dsimp only
  cases hkeyId : delegationKeyId suite (suite.publicPem env.privateKey) with
  | none => exact ends_throw (.generationKeyId hfresh hkeyId)
  | some keyId =>
      refine Ends.bind (insertVersion_ends.mono (fun metadata middle log' hinsert => ?_)
        fun raised _ _ hrefused => .generationRefused hfresh hkeyId hrefused)
      have hsame : middle.generations = tables.generations ∧
          middle.auditRecords = tables.auditRecords := by
        cases hinsert
        exact ⟨rfl, rfl⟩
      have hcorrelation : middle.generation args.workspaceId args.correlationId = none := by
        rw [Tables.generation, hsame.1]
        exact hfresh
      by_cases haddress : (args.workspaceId, args.secretId) ∈
          tables.generations.map GenerationRow.address
      · have htaken : middle.insertGeneration
            (generationRow args metadata keyId (suite.publicPem env.privateKey)) =
              .error .integrityError := by
          apply Tables.insertGeneration_taken
          rw [hsame.1]
          exact haddress
        refine Ends.bind (ends_execute (fun middle' hmiddle => ?_) (fun raised hmiddle => ?_)
          fun _ hfault => .fault hfault)
        · rw [htaken] at hmiddle
          cases hmiddle
        · rw [htaken] at hmiddle
          cases hmiddle
          exact .generationTaken hfresh haddress hinsert.number_free
      · have hrow : middle.insertGeneration
            (generationRow args metadata keyId (suite.publicPem env.privateKey)) =
              .ok { middle with
                generations := middle.generations ++
                  [generationRow args metadata keyId (suite.publicPem env.privateKey)] } := by
          apply Tables.insertGeneration_eq_ok hcorrelation _ hinsert.mem_keys
          rw [hsame.1]
          exact haddress
        refine Ends.bind (ends_execute (fun middle' hmiddle => ?_) (fun raised hmiddle => ?_)
          fun _ hfault => .fault hfault)
        · rw [hrow] at hmiddle
          cases hmiddle
          refine Ends.bind ((appendInTransaction_ends rfl).mono ?_ ?_)
          · rintro _ tables' log'' ⟨⟨rfl, hevent⟩, rfl⟩
            rw [hsame.2] at hevent
            exact ends_pure (.generated hadmitted hfresh hkeyId hinsert haddress hevent)
          · rintro raised _ _ ⟨rfl, hblocked, _⟩
            refine .generationAudit ?_
            rwa [AuditBlocked, hsame.2] at hblocked
        · rw [hrow] at hmiddle
          cases hmiddle

theorem generateDelegationKey_ends {args : GenerateDelegationKey} :
    Ends (generateDelegationKey suite env master args) tables []
      (fun key tables' log' => Performs env master tables (.generateDelegationKey args)
        (.generated key) tables' log')
      (fun raised tables' _ => Refuses env master tables (.generateDelegationKey args) raised ∧
        tables' = tables) := by
  refine Ends.bind (ends_ofExcept (fun admitted hfamily => ?_) fun raised hfamily => ?_)
  · obtain ⟨hadmitted, rfl⟩ := requireDelegationSigningFamily_eq_ok_iff.mp hfamily
    refine ends_connection (Ends.bind (ends_statement (Ends.bind (ends_query ?_
      fun _ hfault => .fault hfault)) fun _ hfault => .fault hfault)) fun _ hfault => .fault hfault
    cases hexisting : tables.generation args.workspaceId args.correlationId with
    | none => exact freshGeneration_ends hadmitted hexisting
    | some existing => exact replayGeneration_ends hadmitted hexisting
  · have hraised := requireDelegationSigningFamily_error hfamily
    subst hraised
    refine ⟨.generationInadmissible fun hadmitted => ?_, rfl⟩
    rw [requireDelegationSigningFamily_eq_ok_iff.mpr ⟨hadmitted, rfl⟩] at hfamily
    cases hfamily

/-- The query of `_select_row` returns the row, or raises a failed statement. -/
theorem selectRowAlone_ends {workspaceId secretId : String} {versionId : Option String} :
    Ends (selectRowAlone suite env workspaceId secretId versionId) tables []
      (fun row tables' log' => row = selectRow tables workspaceId secretId versionId ∧
        tables' = tables ∧ log' = [])
      (fun raised tables' _ => env.Faults raised ∧ tables' = tables) :=
  ends_connection (ends_query ⟨rfl, rfl, rfl⟩ fun _ hfault => hfault) fun _ hfault => hfault

theorem metadata_ends {workspaceId secretId : String} {versionId : Option String} :
    Ends (metadata suite env workspaceId secretId versionId) tables []
      (fun found tables' log' => Performs env master tables
        (.metadata workspaceId secretId versionId) (.metadata found) tables' log')
      (fun raised tables' _ => Refuses env master tables
        (.metadata workspaceId secretId versionId) raised ∧ tables' = tables) := by
  refine Ends.bind (selectRowAlone_ends.mono ?_ ?_)
  · rintro _ tables' log' ⟨rfl, rfl, rfl⟩
    cases hrow : selectRow tables' workspaceId secretId versionId with
    | none => exact ends_throw ⟨.describeMissing hrow, rfl⟩
    | some row =>
        exact ends_ofExcept (fun found hmetadata => .described hrow hmetadata)
          fun raised hmetadata => ⟨.describeUnreadable hrow hmetadata, rfl⟩
  · rintro raised tables' _ ⟨hfault, rfl⟩
    exact ⟨.fault hfault, rfl⟩

theorem resolveSecret_ends {workspaceId secretId : String} {versionId : Option String} :
    Ends (resolveSecret suite env master workspaceId secretId versionId) tables []
      (fun secret tables' log' => Performs env master tables
        (.resolveSecret workspaceId secretId versionId) (.resolved secret) tables' log')
      (fun raised tables' _ => Refuses env master tables
        (.resolveSecret workspaceId secretId versionId) raised ∧ tables' = tables) := by
  refine Ends.bind (selectRowAlone_ends.mono ?_ ?_)
  · rintro _ tables' log' ⟨rfl, rfl, rfl⟩
    cases hrow : selectRow tables' workspaceId secretId versionId with
    | none => exact ends_throw ⟨.resolveMissing hrow, rfl⟩
    | some row =>
        exact ends_ofExcept (fun secret hresolve => .resolved hrow hresolve)
          fun raised hresolve => ⟨.resolveRefused hrow hresolve, rfl⟩
  · rintro raised tables' _ ⟨hfault, rfl⟩
    exact ⟨.fault hfault, rfl⟩

theorem selectedVersion_ends {args : ResolveSecretForUse} :
    Ends (selectedVersion suite env args) tables []
      (fun versionId tables' log' => log' = [] ∧
        ((∃ selection, tables.selection args.workspaceId args.correlationId = some selection ∧
            args.Agrees selection ∧ versionId = selection.versionId ∧ tables' = tables) ∨
          ∃ selected selectedMetadata,
            tables.selection args.workspaceId args.correlationId = none ∧
            selectRow tables args.workspaceId args.secretId args.versionId = some selected ∧
            metadataFromRow selected = .ok selectedMetadata ∧
            selectedMetadata.status ≠ .revoked ∧
            ¬ LacksIntent selectedMetadata (some args.intent) ∧
            versionId = selected.versionId ∧
            tables' = { tables with
              selections := tables.selections ++
                [selectionRow suite env args selected.versionId] }))
      (fun raised _ _ => Refuses env master tables (.resolveSecretForUse args) raised) := by
  refine Ends.bind (ends_query ?_ fun _ hfault => .fault hfault)
  cases hexisting : tables.selection args.workspaceId args.correlationId with
  | some selection =>
      refine Ends.bind (ends_raiseIf (fun hagrees => .selectionConflict hexisting hagrees)
        fun hagrees => ?_)
      exact ends_pure ⟨rfl, .inl ⟨selection, rfl, not_not.mp hagrees, rfl, rfl⟩⟩
  | none =>
      refine Ends.bind (ends_query ?_ fun _ hfault => .fault hfault)
      cases hselected : selectRow tables args.workspaceId args.secretId args.versionId with
      | none => exact ends_throw (.selectionMissing hexisting hselected)
      | some selected =>
          refine Ends.bind (ends_ofExcept (fun selectedMetadata hmetadata => ?_)
            fun raised hmetadata => .selectionUnfit hexisting hselected
              (resolveRow_eq_error.mpr (.inl hmetadata)))
          refine Ends.bind (ends_raiseIf (fun hstatus => .selectionUnfit hexisting hselected
            (resolveRow_eq_error.mpr (.inr ⟨_, hmetadata, .inl ⟨hstatus, rfl⟩⟩)))
            fun hstatus => ?_)
          refine Ends.bind (ends_raiseIf (fun hintent => .selectionUnfit hexisting hselected
            (resolveRow_eq_error.mpr
              (.inr ⟨_, hmetadata, .inr ⟨hstatus, .inl ⟨hintent, rfl⟩⟩⟩)))
            fun hintent => ?_)
          rw [(metadataFromRow_describes hmetadata).versionId]
          have hinsert : tables.insertSelection
              (selectionRow suite env args selected.versionId) =
                .ok { tables with
                  selections := tables.selections ++
                    [selectionRow suite env args selected.versionId] } := by
            obtain ⟨hmem, haddress⟩ := selectRow_eq_some hselected
            apply Tables.insertSelection_eq_ok hexisting
            have hkey : (selectionRow suite env args selected.versionId).target =
                selected.key := by
              simp only [VersionRow.address, Prod.mk.injEq] at haddress
              rw [VersionRow.key, haddress.1, haddress.2]
              rfl
            rw [hkey]
            exact List.mem_map_of_mem hmem
          refine Ends.bind (ends_execute (fun tables' hsaved => ?_) (fun raised hsaved => ?_)
            fun _ hfault => .fault hfault)
          · rw [hinsert] at hsaved
            cases hsaved
            exact ends_pure ⟨rfl, .inr ⟨selected, selectedMetadata, rfl, rfl, hmetadata, hstatus,
              hintent, rfl, rfl⟩⟩
          · rw [hinsert] at hsaved
            cases hsaved

theorem resolveSecretForUse_ends {args : ResolveSecretForUse} :
    Ends (resolveSecretForUse suite env master args) tables []
      (fun secret tables' log' => Performs env master tables (.resolveSecretForUse args)
        (.resolved secret) tables' log')
      (fun raised tables' _ => Refuses env master tables (.resolveSecretForUse args) raised ∧
        tables' = tables) := by
  refine ends_connection (Ends.bind (ends_statement (Ends.bind (selectedVersion_ends.mono ?_
    fun _ _ _ hrefused => hrefused)) fun _ hfault => .fault hfault)) fun _ hfault => .fault hfault
  rintro versionId tables' log' ⟨rfl, hversion⟩
  refine Ends.bind (ends_query ?_ fun _ hfault => .fault hfault)
  rw [selectRow]
  rcases hversion with ⟨selection, hexisting, hagrees, rfl, rfl⟩ |
    ⟨selected, selectedMetadata, hfresh, hselected, hmetadata, hstatus, hintent, rfl, rfl⟩
  · cases hrow : tables'.selectVersion args.workspaceId args.secretId selection.versionId with
    | none => exact ends_throw (.pinnedMissing hexisting hagrees hrow)
    | some row =>
        exact ends_ofExcept
          (fun secret hresolve => .reselected hexisting hagrees hrow hresolve)
          fun raised hresolve => .pinnedRefused hexisting hagrees hrow hresolve
  · have hfound : ∃ row, tables.selectVersion args.workspaceId args.secretId
        selected.versionId = some row := by
      obtain ⟨hmem, haddress⟩ := selectRow_eq_some hselected
      simp only [VersionRow.address, Prod.mk.injEq] at haddress
      apply Tables.selectVersion_isSome
      rw [← haddress.1, ← haddress.2]
      exact List.mem_map_of_mem hmem
    obtain ⟨row, hrow⟩ := hfound
    have hkept : ({ tables with
        selections := tables.selections ++
          [selectionRow suite env args selected.versionId] } : Tables).selectVersion
        args.workspaceId args.secretId selected.versionId = some row := hrow
    rw [hkept]
    exact ends_ofExcept
      (fun secret hresolve => .selected hfresh hselected hmetadata hstatus hintent hrow hresolve)
      fun raised hresolve => .selectionRefused hfresh hselected hrow hresolve

/-- What the use of a version that cannot be encoded raises. -/
inductive UseUnencodable (env : Env suite) (tables : Tables) (workspaceId correlationId : String) :
    Raised → Prop
  | fault {raised : Raised} (hfault : env.Faults raised) :
      UseUnencodable env tables workspaceId correlationId raised
  | conflict (hpinned : (tables.selection workspaceId correlationId).isSome = true) :
      UseUnencodable env tables workspaceId correlationId .secretResolutionConflict
  | unencodable (hfresh : tables.selection workspaceId correlationId = none) :
      UseUnencodable env tables workspaceId correlationId .unicodeEncodeError

theorem resolveUnencodableForUse_ends {α : Type} {workspaceId correlationId : String} :
    Ends (resolveUnencodableForUse suite env workspaceId correlationId : Tx Tables α) tables log
      (fun _ _ _ => False)
      (fun raised tables' _ =>
        UseUnencodable env tables workspaceId correlationId raised ∧ tables' = tables) := by
  refine ends_connection (Ends.bind (ends_statement (Ends.bind (ends_query ?_
    fun _ hfault => .fault hfault)) fun _ hfault => .fault hfault)) fun _ hfault => .fault hfault
  cases hselection : tables.selection workspaceId correlationId with
  | none => exact ends_throw (.unencodable hselection)
  | some selection => exact ends_throw (.conflict (hselection ▸ rfl))

/-! ### One call -/

theorem Ends.map {α β : Type} {program : Tx Tables α} {change : α → β}
    {returns : β → Tables → List Encryption → Prop}
    {raises : Raised → Tables → List Encryption → Prop}
    (hends : Ends program tables log (fun value => returns (change value)) raises) :
    Ends (change <$> program) tables log returns raises := by
  rw [map_eq_pure_bind]
  exact Ends.bind (hends.mono (fun _ _ _ hreturns => ends_pure hreturns)
    fun _ _ _ hraises => hraises)

theorem program_ends (call : Call suite) :
    Ends call.program tables []
      (fun reply tables' log' => Performs call.env call.master tables call.operation reply
        tables' log')
      (fun raised tables' _ => Refuses call.env call.master tables call.operation raised ∧
        tables' = tables) := by
  rcases call with ⟨operation, master, env⟩
  cases operation with
  | createSecret workspaceId secretId value labels => exact createSecret_ends.map
  | rotateSecret workspaceId secretId value labels expectedIntent => exact rotateSecret_ends.map
  | revokeSecret workspaceId secretId => exact revokeSecret_ends.map
  | revokeSecretVersion args => exact revokeSecretVersion_ends.map
  | generateDelegationKey args => exact generateDelegationKey_ends.map
  | resolveSecret workspaceId secretId versionId => exact resolveSecret_ends.map
  | resolveSecretForUse args => exact resolveSecretForUse_ends.map
  | metadata workspaceId secretId versionId => exact metadata_ends.map

/-- What one call does to the database and answers. -/
theorem perform_cases (tables : Tables) (call : Call suite) :
    (∃ reply, (perform tables call).1.result = .ok reply ∧
      Performs call.env call.master tables call.operation reply (perform tables call).2
        (perform tables call).1.encryptions) ∨
    (∃ raised, (perform tables call).1.result = .error raised ∧
      Refuses call.env call.master tables call.operation raised ∧
        (perform tables call).2 = tables) := by
  have hends : Ends call.program tables [] _ _ := program_ends call
  unfold perform
  cases hrun : call.program.run { db := tables, executed := 0, encryptions := [] } with
  | ok reply finish => exact .inl ⟨reply, rfl, (hends 0).of_ok hrun⟩
  | error raised finish => exact .inr ⟨raised, rfl, (hends 0).of_error hrun⟩

end

end SecretsCustody
