/-
Exact-version revocation.  A fresh one revokes one version and nothing else, a
correlation claims its version for ever, and a replay answers as the first call
did at any later time.
-/
import SecretsCustody.Generations
import SecretsCustody.Revocation

namespace SecretsCustody

open History KeyedRows

section

variable {suite : CryptoSuite} {env : Env suite} {master : MasterKey} {before after : Tables}
variable {reply : Reply} {log : List Encryption} {args : RevokeSecretVersion}
variable {metadata : SecretMetadata} {existing : RevocationRow} {row : VersionRow}

/-- The version an exact revocation names. -/
def RevokeSecretVersion.target (args : RevokeSecretVersion) : String × String × String :=
  (args.workspaceId, args.secretId, args.versionId)

/-- The database holds the revocation of a correlation, and the version it
revoked, which reads as the given metadata. -/
structure Revoked (tables : Tables) (args : RevokeSecretVersion) (metadata : SecretMetadata) :
    Prop where
  claimed : ∃ existing, tables.revocation args.workspaceId args.correlationId = some existing ∧
    args.Agrees existing
  version : ∃ row ∈ tables.versions, row.key = args.target ∧
    row.status = SecretStatus.revoked.value ∧ metadataFromRow row = .ok metadata
  number : metadata.versionNumber = args.versionNumber

/-- A revocation stays as it is. -/
theorem Revoked.later (hrevoked : Revoked before args metadata) (hextends : Extends before after) :
    Revoked after args metadata := by
  obtain ⟨existing, hexisting, hagrees⟩ := hrevoked.claimed
  obtain ⟨row, hrow, hkey, hstatus, hreads⟩ := hrevoked.version
  exact ⟨⟨existing, find_of_prefix hextends.revocations hexisting, hagrees⟩,
    ⟨row, hextends.keeps_revoked hrow hstatus, hkey, hstatus, hreads⟩, hrevoked.number⟩

/-- What a fresh exact revocation that returned did. -/
structure RevokedAlone (env : Env suite) (args : RevokeSecretVersion) (before after : Tables)
    (row row' : VersionRow) (revoked : SecretMetadata) : Prop where
  stored : row ∈ before.versions
  key : row.key = args.target
  active : row.status = SecretStatus.active.value
  number : row.versionNumber = args.versionNumber
  resealed : ∃ nonce ciphertext, row' = row.resealed nonce ciphertext env.now
  reads : metadataFromRow row' = .ok revoked
  after : after = { before with
    versions := before.versions.map (resealAt row row')
    revocations := before.revocations ++ [revocationRow args env.now]
    auditRecords := before.auditRecords ++ [revocationRecord suite env args revoked "revoked"
      "secret-version-revoked"] }

/-- Under a fresh correlation an exact revocation reseals one active version. -/
theorem Performs.revokedAlone
    (hperforms : Performs env master before (.revokeSecretVersion args) reply after log)
    (hconsistent : Consistent before)
    (hfresh : before.revocation args.workspaceId args.correlationId = none) :
    ∃ row row' revoked, reply = .metadata revoked ∧
      RevokedAlone env args before after row row' revoked := by
  cases hperforms with
  | @revokedVersion _ row metadata revoked middle _ _ htarget hrow hmetadata hnumber hstatus
      hrevokes hevent =>
      obtain ⟨hstored, hkey⟩ := Tables.selectVersion_eq_some hrow
      have hdescribes := metadataFromRow_describes hmetadata
      cases hrevokes with
      | @intro found plaintext ciphertext hfound hdecrypt hencrypt =>
          rw [hmetadata] at hfound
          cases hfound
          refine ⟨row, row.resealed (env.urandom 0) ciphertext env.now, _, rfl, hstored, hkey,
            ?_, hdescribes.versionNumber.symm.trans hnumber, ⟨_, _, rfl⟩,
            metadataFromRow_resealed hmetadata _ _ _, ?_⟩
          · rw [hdescribes.status, SecretStatus.eq_active hstatus]
          · rw [List.length_nil, updateVersion_eq hconsistent.versionKeys hstored]
  | revocationReplayed hexisting =>
      rw [hexisting] at hfresh
      cases hfresh

/-- A success leaves its revocation behind, fresh or replayed. -/
theorem Performs.revoked_of_metadata
    (hperforms : Performs env master before (.revokeSecretVersion args) (.metadata metadata) after
      log)
    (hconsistent : Consistent before) : Revoked after args metadata := by
  cases hexisting : before.revocation args.workspaceId args.correlationId with
  | none =>
      obtain ⟨row, row', _, ⟨⟩, halone⟩ := hperforms.revokedAlone hconsistent hexisting
      obtain ⟨nonce, ciphertext, rfl⟩ := halone.resealed
      have hdescribes := metadataFromRow_describes halone.reads
      rw [halone.after]
      refine ⟨⟨revocationRow args env.now, ?_, rfl, rfl, rfl, rfl⟩,
        ⟨row.resealed nonce ciphertext env.now, ?_, halone.key, rfl, halone.reads⟩,
        hdescribes.versionNumber.trans halone.number⟩
      · change find RevocationRow.key (before.revocations ++ _) _ = _
        change find RevocationRow.key before.revocations _ = _ at hexisting
        rw [find_append_singleton, hexisting]
        exact if_pos rfl
      · refine List.mem_map.mpr ⟨row, halone.stored, ?_⟩
        rw [resealAt, if_pos rfl]
  | some existing =>
      cases hperforms with
      | revokedVersion hfresh =>
          rw [hexisting] at hfresh
          cases hfresh
      | @revocationReplayed _ found row _ hfound hagrees hrow hmetadata hnumber hstatus hevent =>
          obtain ⟨hstored, hkey⟩ := Tables.selectVersion_eq_some hrow
          refine ⟨⟨found, hfound, hagrees⟩, ⟨row, hstored, hkey, ?_, hmetadata⟩, hnumber⟩
          rw [(metadataFromRow_describes hmetadata).status, hstatus]

/-! ### Later calls -/

section

variable {tables : Tables} {call : Call suite}

/-- A call that repeats a revocation gets its metadata, when its audit record
goes in. -/
theorem Revoked.replays (hrevoked : Revoked tables args metadata)
    (hconsistent : Consistent tables) (hoperation : call.operation = .revokeSecretVersion args)
    (haudits : Audits tables call.env) :
    (perform tables call).1.result = .ok (.metadata metadata) := by
  obtain ⟨existing, hexisting, hagrees⟩ := hrevoked.claimed
  obtain ⟨row, hrow, hkey, hstatus, hreads⟩ := hrevoked.version
  have hselect : tables.selectVersion args.workspaceId args.secretId args.versionId = some row :=
    hconsistent.versionKeys.find_eq_some_iff.mpr ⟨hrow, hkey⟩
  have hrevokedStatus : metadata.status = .revoked := by
    rw [(metadataFromRow_describes hreads).status] at hstatus
    exact SecretStatus.value_injective hstatus
  rcases perform_cases tables call with ⟨reply, hresult, hperforms⟩ |
    ⟨raised, hresult, hrefuses, _⟩
  · rw [hoperation] at hperforms
    generalize (perform tables call).2 = after at hperforms
    generalize (perform tables call).1.encryptions = log at hperforms
    cases hperforms with
    | revokedVersion hfresh =>
        rw [hexisting] at hfresh
        cases hfresh
    | revocationReplayed _ _ hfound hmetadata =>
        rw [hselect] at hfound
        cases hfound
        rw [hreads] at hmetadata
        cases hmetadata
        exact hresult
  · rw [hoperation] at hrefuses
    cases hrefuses with
    | fault hfault => exact absurd hfault haudits.1.not_faults
    | revocationConflict hfound hconflict =>
        rw [hexisting] at hfound
        cases hfound
        exact absurd hagrees hconflict
    | revocationTaken hfresh =>
        rw [hexisting] at hfresh
        cases hfresh
    | revocationMissing _ hmissing =>
        rw [hselect] at hmissing
        cases hmissing
    | revocationUnreadable _ hfound hunreadable =>
        rw [hselect] at hfound
        cases hfound
        rw [hreads] at hunreadable
        cases hunreadable
    | revocationReplayConflict _ hfound hmetadata hconflict =>
        rw [hselect] at hfound
        cases hfound
        rw [hreads] at hmetadata
        cases hmetadata
        rcases hconflict with hnumber | hactive
        · exact absurd hrevoked.number hnumber
        · exact absurd hrevokedStatus hactive
    | revocationMismatch hfresh =>
        rw [hexisting] at hfresh
        cases hfresh
    | revocationRevoked hfresh =>
        rw [hexisting] at hfresh
        cases hfresh
    | revocationRefused hfresh =>
        rw [hexisting] at hfresh
        cases hfresh
    | revocationAudit _ hblocked => exact absurd hblocked haudits.not_blocked

/-- A call that disagrees with the revocation of its correlation is refused. -/
theorem revocation_conflicting
    (hoperation : call.operation = .revokeSecretVersion args)
    (hexisting : tables.revocation args.workspaceId args.correlationId = some existing)
    (hconflict : ¬ args.Agrees existing) :
    (perform tables call).2 = tables ∧ ∃ raised, (perform tables call).1.result = .error raised ∧
      (call.env.Faultless → raised = .secretVersionRevocationConflict) := by
  rcases perform_cases tables call with ⟨reply, hresult, hperforms⟩ |
    ⟨raised, hresult, hrefuses, hsame⟩
  · rw [hoperation] at hperforms
    generalize (perform tables call).2 = after at hperforms
    generalize (perform tables call).1.encryptions = log at hperforms
    cases hperforms with
    | revokedVersion hfresh =>
        rw [hexisting] at hfresh
        cases hfresh
    | revocationReplayed hfound hagrees =>
        rw [hexisting] at hfound
        cases hfound
        exact absurd hagrees hconflict
  · refine ⟨hsame, raised, hresult, fun hfaultless => ?_⟩
    rw [hoperation] at hrefuses
    cases hrefuses with
    | fault hfault => exact absurd hfault hfaultless.not_faults
    | revocationConflict => rfl
    | revocationTaken => rfl
    | revocationReplayConflict => rfl
    | revocationMismatch => rfl
    | revocationMissing hadmits => exact absurd (hadmits existing hexisting) hconflict
    | revocationUnreadable hadmits => exact absurd (hadmits existing hexisting) hconflict
    | revocationRevoked hfresh =>
        rw [hexisting] at hfresh
        cases hfresh
    | revocationRefused hfresh =>
        rw [hexisting] at hfresh
        cases hfresh
    | revocationAudit hadmits => exact absurd (hadmits existing hexisting) hconflict

end

/-! ### Executions -/

/-- The call differs from another in what its correlation is bound to. -/
def RevokeSecretVersion.Differs (args args' : RevokeSecretVersion) : Prop :=
  args'.secretId ≠ args.secretId ∨ args'.versionId ≠ args.versionId ∨
    args'.versionNumber ≠ args.versionNumber ∨ args'.callerSubject ≠ args.callerSubject

theorem RevokeSecretVersion.Differs.not_agrees {args' : RevokeSecretVersion}
    (hdiffers : args.Differs args') (hagrees : args.Agrees existing) :
    ¬ args'.Agrees existing := by
  obtain ⟨hsecret, hversion, hnumber, hcaller⟩ := hagrees
  rintro ⟨hsecret', hversion', hnumber', hcaller'⟩
  rcases hdiffers with hdiffers | hdiffers | hdiffers | hdiffers
  · exact hdiffers (hsecret'.symm.trans hsecret)
  · exact hdiffers (hversion'.symm.trans hversion)
  · exact hdiffers (hnumber'.symm.trans hnumber)
  · exact hdiffers (hcaller'.symm.trans hcaller)

/-- What holds of the exact revocations of an execution. -/
structure RevocationsTargeted (system : System Tables (Call suite) Outcome) : Prop where
  /-- A success under a fresh correlation reseals its version and no other row,
  and adds its revocation and its audit record. -/
  targeted : ∀ step ∈ system.log, ∀ args reply,
    step.input.operation = .revokeSecretVersion args → step.output.result = .ok reply →
    step.before.revocation args.workspaceId args.correlationId = none →
      ∃ row row' revoked, reply = .metadata revoked ∧
        RevokedAlone step.input.env args step.before step.after row row' revoked
  /-- A version has one revocation at most. -/
  claimed : Unique RevocationRow.target system.committed.revocations
  /-- A success leaves a revocation it agrees with. -/
  recorded : ∀ step ∈ system.log, ∀ args reply,
    step.input.operation = .revokeSecretVersion args → step.output.result = .ok reply →
      ∃ existing, step.after.revocation args.workspaceId args.correlationId = some existing ∧
        args.Agrees existing
  /-- A correlation keeps its revocation for ever. -/
  bound : ∀ earlier step later, system.log = earlier ++ step :: later →
    ∀ workspaceId correlationId existing,
    step.after.revocation workspaceId correlationId = some existing →
      system.committed.revocation workspaceId correlationId = some existing ∧
        ∀ found ∈ later, found.before.revocation workspaceId correlationId = some existing ∧
          found.after.revocation workspaceId correlationId = some existing
  /-- The same call later returns the same metadata. -/
  replayed : ∀ earlier step middle found later,
    system.log = earlier ++ step :: (middle ++ found :: later) → ∀ args providerId metadata,
    step.input.operation = .revokeSecretVersion args →
    step.output.result = .ok (.metadata metadata) →
    found.input.operation = .revokeSecretVersion { args with providerId := providerId } →
    Audits found.before found.input.env → found.output.result = .ok (.metadata metadata)
  /-- A call under the same correlation that differs is refused. -/
  conflicting : ∀ earlier step middle found later,
    system.log = earlier ++ step :: (middle ++ found :: later) → ∀ args args' reply,
    step.input.operation = .revokeSecretVersion args → step.output.result = .ok reply →
    found.input.operation = .revokeSecretVersion args' →
    (args'.workspaceId, args'.correlationId) = (args.workspaceId, args.correlationId) →
    args.Differs args' →
      found.after = found.before ∧ ∃ raised, found.output.result = .error raised ∧
        (found.input.env.Faultless → raised = .secretVersionRevocationConflict)
  /-- Under a fresh correlation a version that is unknown, revoked or has another
  number is refused. -/
  refused : ∀ step ∈ system.log, ∀ args,
    step.input.operation = .revokeSecretVersion args →
    step.before.revocation args.workspaceId args.correlationId = none →
    (∀ row ∈ step.before.versions, row.key = args.target →
      row.status = SecretStatus.revoked.value ∨ row.versionNumber ≠ args.versionNumber) →
      step.after = step.before ∧ ∃ raised, step.output.result = .error raised

/-- An exact revocation replies with metadata. -/
theorem Performs.revocation_reply
    (hperforms : Performs env master before (.revokeSecretVersion args) reply after log) :
    ∃ metadata, reply = .metadata metadata := by
  cases hperforms with
  | revokedVersion => exact ⟨_, rfl⟩
  | revocationReplayed => exact ⟨_, rfl⟩

/-- What a revocation that returned leaves for every later call. -/
theorem revocation_kept {tables : Tables} {call : Call suite} (hconsistent : Consistent tables)
    (hoperation : call.operation = .revokeSecretVersion args)
    (hresult : (perform tables call).1.result = .ok (.metadata metadata))
    (between : List (Call suite)) :
    Consistent (final perform (perform tables call).2 between) ∧
      Revoked (final perform (perform tables call).2 between) args metadata := by
  have hperforms := performs_of_ok hresult
  rw [hoperation] at hperforms
  have hafter := perform_consistent call hconsistent
  constructor
  · exact invariant_final hafter fun _ call _ hinv => perform_consistent call hinv
  · exact (hperforms.revoked_of_metadata hconsistent).later (final_extends hafter between)

/-- Exact revocations are targeted, whatever else the clients do. -/
theorem revocations_targeted (events : List (Event (Call suite))) :
    RevocationsTargeted (runClients events) := by
  obtain ⟨calls, hlog, hcommitted⟩ := runClients_serial events
  have hsuccess : ∀ {tables : Tables} {call : Call suite} {args : RevokeSecretVersion}
      {reply : Reply}, call.operation = .revokeSecretVersion args →
      (perform tables call).1.result = .ok reply →
        Performs call.env call.master tables (.revokeSecretVersion args) reply
          (perform tables call).2 (perform tables call).1.encryptions := by
    intro tables call args reply hoperation hresult
    have hperforms := performs_of_ok hresult
    rwa [hoperation] at hperforms
  constructor
  · intro step hstep args reply hoperation hresult hfresh
    rw [hlog] at hstep
    obtain ⟨earlier, call, later, rfl, rfl⟩ := mem_trace hstep
    exact (hsuccess hoperation hresult).revokedAlone (final_consistent earlier) hfresh
  · rw [hcommitted]
    exact (final_consistent calls).revocationTargets
  · intro step hstep args reply hoperation hresult
    rw [hlog] at hstep
    obtain ⟨earlier, call, later, rfl, rfl⟩ := mem_trace hstep
    obtain ⟨metadata, rfl⟩ := (hsuccess hoperation hresult).revocation_reply
    exact (revocation_kept (final_consistent earlier) hoperation hresult []).2.claimed
  · intro earlier step later hsplit workspaceId correlationId existing hexisting
    rw [hlog] at hsplit
    obtain ⟨first, call, second, rfl, rfl, rfl, rfl⟩ := trace_eq_append_cons hsplit
    have hafter := perform_consistent call (final_consistent first)
    have hkept : ∀ between : List (Call suite),
        (final perform (perform (final perform Tables.empty first) call).2
          between).revocation workspaceId correlationId = some existing :=
      fun between => find_of_prefix (final_extends hafter between).revocations hexisting
    constructor
    · rw [hcommitted, final_append]
      exact hkept second
    · intro found hfound
      obtain ⟨between, call', later, rfl, rfl⟩ := mem_trace hfound
      refine ⟨hkept between, ?_⟩
      have hnext := hkept (between ++ [call'])
      rwa [final_append] at hnext
  · intro earlier step middle found later hsplit args providerId metadata hoperation hresult
      hoperation' haudits
    rw [hlog] at hsplit
    obtain ⟨first, call, second, rfl, rfl, rfl, hrest⟩ := trace_eq_append_cons hsplit
    obtain ⟨between, call', rest, rfl, rfl, rfl, rfl⟩ := trace_eq_append_cons hrest.symm
    obtain ⟨hbefore, hrevoked⟩ :=
      revocation_kept (final_consistent first) hoperation hresult between
    have hsame : Revoked (final perform (perform (final perform Tables.empty first) call).2
        between) { args with providerId := providerId } metadata :=
      ⟨hrevoked.claimed, hrevoked.version, hrevoked.number⟩
    exact hsame.replays hbefore hoperation' haudits
  · intro earlier step middle found later hsplit args args' reply hoperation hresult hoperation'
      hcorrelation hdiffers
    rw [hlog] at hsplit
    obtain ⟨first, call, second, rfl, rfl, rfl, hrest⟩ := trace_eq_append_cons hsplit
    obtain ⟨between, call', rest, rfl, rfl, rfl, rfl⟩ := trace_eq_append_cons hrest.symm
    obtain ⟨metadata, rfl⟩ := (hsuccess hoperation hresult).revocation_reply
    obtain ⟨_, hrevoked⟩ := revocation_kept (final_consistent first) hoperation hresult between
    obtain ⟨existing, hexisting, hagrees⟩ := hrevoked.claimed
    simp only [Prod.mk.injEq] at hcorrelation
    rw [← hcorrelation.1, ← hcorrelation.2] at hexisting
    exact revocation_conflicting hoperation' hexisting (hdiffers.not_agrees hagrees)
  · intro step hstep args hoperation hfresh hunfit
    rw [hlog] at hstep
    obtain ⟨earlier, call, later, rfl, rfl⟩ := mem_trace hstep
    rcases perform_cases (final perform Tables.empty earlier) call with
      ⟨reply, hresult, _⟩ | ⟨raised, hresult, _, hsame⟩
    · obtain ⟨row, row', revoked, _, halone⟩ :=
        (hsuccess hoperation hresult).revokedAlone (final_consistent earlier) hfresh
      rcases hunfit row halone.stored halone.key with hrevoked | hnumber
      · rw [halone.active] at hrevoked
        exact absurd hrevoked (by decide)
      · exact absurd halone.number hnumber
    · exact ⟨hsame, raised, hresult⟩

end

end SecretsCustody
