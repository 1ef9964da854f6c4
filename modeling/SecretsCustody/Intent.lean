/-
Durable intent: every version of a secret carries the one intent its first
version was stored with, and a use that names another intent gets nothing.
-/
import SecretsCustody.Coupling
import SecretsCustody.Server
import SecretsCustody.VersionHistory

namespace SecretsCustody

open Effect Interleaving JsonText

/-- The row is labelled with the intent. -/
def Carries (row : VersionRow) (intent : String) : Prop :=
  ∃ labels, Labelled row labels ∧ labels.has "intent" intent = true

/-- Every version carries an intent the provider allows, and all versions of one secret the
same. -/
structure OneIntent (tables : Tables) : Prop where
  labelled : ∀ row ∈ tables.versions, ∃ intent ∈ allowedSecretUseIntents, Carries row intent
  same : ∀ row ∈ tables.versions, ∀ row' ∈ tables.versions, row'.address = row.address →
    ∀ intent, Carries row intent → Carries row' intent

theorem oneIntent_empty : OneIntent Tables.empty where
  labelled := fun row hrow => by cases hrow
  same := fun row hrow => by cases hrow

section

variable {row row' : VersionRow} {intent intent' : String}

theorem Carries.unique (hcarries : Carries row intent) (hcarries' : Carries row intent') :
    intent' = intent := by
  obtain ⟨labels, ⟨metadata, hmetadata, rfl⟩, hlabel⟩ := hcarries
  obtain ⟨labels, ⟨metadata', hmetadata', rfl⟩, hlabel'⟩ := hcarries'
  rw [hmetadata] at hmetadata'
  cases hmetadata'
  rw [Labels.has_iff] at hlabel hlabel'
  rw [hlabel] at hlabel'
  exact codes_injective (Json.str.inj (Option.some.inj hlabel')).symm

theorem Carries.later (hcarries : Carries row intent) (hversion : SameVersion row row')
    (hsame : SameOrRevoked row row') : Carries row' intent := by
  obtain ⟨labels, hlabelled, hlabel⟩ := hcarries
  exact ⟨labels, hlabelled.later hversion hsame, hlabel⟩

theorem Carries.of_metadata {metadata : SecretMetadata}
    (hmetadata : metadataFromRow row = .ok metadata)
    (hlabel : metadata.labels.has "intent" intent = true) : Carries row intent :=
  ⟨metadata.labels, ⟨metadata, hmetadata, rfl⟩, hlabel⟩

/-- An expected intent that is not lacking is the one the row carries. -/
theorem Carries.of_not_lacks {metadata : SecretMetadata}
    (hmetadata : metadataFromRow row = .ok metadata)
    (hintent : ¬ LacksIntent metadata (some intent)) : Carries row intent := by
  apply Carries.of_metadata hmetadata
  by_contra hother
  exact hintent ⟨intent, rfl, Bool.eq_false_iff.mpr hother⟩

/-- A row that became another one carries what it did. -/
theorem OneIntent.carries_iff {tables : Tables} (hone : OneIntent tables)
    (hrow : row ∈ tables.versions) (hversion : SameVersion row row')
    (hsame : SameOrRevoked row row') : Carries row' intent ↔ Carries row intent := by
  constructor
  · intro hcarries'
    obtain ⟨found, _, hcarries⟩ := hone.labelled row hrow
    have heq := hcarries'.unique (hcarries.later hversion hsame)
    rwa [heq] at hcarries
  · intro hcarries
    exact hcarries.later hversion hsame

end

/-! ### What one call does to the labels -/

/-- The intents of the delegation families are allowed ones. -/
theorem AdmittedFamily.allowed {purpose intent : String}
    (hadmitted : AdmittedFamily purpose intent) : intent ∈ allowedSecretUseIntents := by
  have hall : ∀ family ∈ delegationSigningIntents, family.2 ∈ allowedSecretUseIntents := by
    decide
  have hnodup : (delegationSigningIntents.map Prod.fst).Nodup := by decide
  exact hall (purpose, intent) ((lookup_eq_some_iff_mem hnodup).mp hadmitted)

section

variable {suite : CryptoSuite} {env : Env suite} {master : MasterKey} {before after : Tables}
variable {operation : Operation} {reply : Reply} {log : List Encryption}
variable {workspaceId secretId intent : String}

/-- A new version carries the intent among its labels. -/
theorem Inserts.carries {value : Bytes} {labels : TextDict} {versionNumber : Int}
    {metadata : SecretMetadata} {log' : List Encryption}
    (hinsert : Inserts env master workspaceId secretId value labels versionNumber before log
      metadata after log') (hlabel : labels.lookup "intent" = some intent) :
    ∃ row, after.versions = before.versions ++ [row] ∧ row.address = (workspaceId, secretId) ∧
      Carries row intent := by
  cases hinsert with
  | @intro clean ciphertext hclean =>
      refine ⟨_, rfl, rfl, Carries.of_metadata
        (metadataFromRow_versionRow (cleanLabels_isText hclean) _ _) ?_⟩
      have hmatches := cleanLabels_matchesTexts hclean
      rw [Labels.matchesTexts, Bool.and_eq_true, List.all_eq_true] at hmatches
      have hmem : (⟨"intent", intent⟩ : Sigma fun _ : String => String) ∈ labels.entries :=
        AList.mem_lookup_iff.mp hlabel
      have htext : ("intent", intent) ∈ labels.entries.map fun label => (label.1, label.2) :=
        List.mem_map.mpr ⟨_, hmem, rfl⟩
      exact hmatches.2 ("intent", intent) htext

/-- What a call that returned does to the intents: every row is an old one, or there is one
new row, which carries the intent of the others of its secret. -/
def IntentsKept (before after : Tables) : Prop :=
  (∀ row' ∈ after.versions, ∃ row ∈ before.versions,
    SameVersion row row' ∧ SameOrRevoked row row') ∨
  ∃ row intent, after.versions = before.versions ++ [row] ∧ intent ∈ allowedSecretUseIntents ∧
    Carries row intent ∧ ∀ other ∈ before.versions, other.address = row.address →
      Carries other intent

theorem intentsKept_same (hversions : after.versions = before.versions) :
    IntentsKept before after := by
  apply Or.inl
  intro row hrow
  rw [hversions] at hrow
  exact ⟨row, hrow, SameVersion.refl row, .inl rfl⟩

/-- A first version has no others. -/
theorem Inserts.first {value : Bytes} {labels : TextDict} {metadata : SecretMetadata}
    {log' : List Encryption}
    (hinsert : Inserts env master workspaceId secretId value labels 1 before log metadata after
      log') (hgapless : Gapless before) :
    ∀ other ∈ before.versions, other.address ≠ (workspaceId, secretId) := by
  intro other hother haddress
  obtain ⟨n, hnumbered⟩ := hgapless.numbered (workspaceId, secretId)
  rw [VersionRow.address, Prod.mk.injEq] at haddress
  have hnumber : (workspaceId, secretId, other.versionNumber) ∈
      before.versions.map VersionRow.numberKey := by
    rw [← haddress.1, ← haddress.2]
    exact List.mem_map_of_mem hother
  have hbounds := hnumbered.mem_iff.mp hnumber
  cases hinsert with
  | intro _ _ _ _ hfresh => exact hfresh (hnumbered.mem_iff.mpr ⟨le_refl 1, by omega⟩)

/-- Rows of a call that adds none are old ones. -/
theorem Performs.rowsKept (hperforms : Performs env master before operation reply after log)
    (hconsistent : Consistent before) (hinserted : inserted env operation reply = none) :
    IntentsKept before after := by
  obtain ⟨change, added, hrows, hsteps, hadded⟩ :=
    (hperforms.versionsEffect hconsistent.versionKeys).rows
  cases hadded with
  | one hfound =>
      rw [hinserted] at hfound
      cases hfound
  | none =>
      apply Or.inl
      intro row' hrow'
      rw [hrows, List.append_nil] at hrow'
      obtain ⟨row, hrow, rfl⟩ := List.mem_map.mp hrow'
      have hstep := hsteps row hrow
      exact ⟨row, hrow, hstep.sameVersion, hstep.eq_or_revoked⟩

/-- The store calls of the handlers keep the intents. -/
theorem Performs.intentsKept (hperforms : Performs env master before operation reply after log)
    (hhandled : Handled operation) (hgapless : Gapless before) (hone : OneIntent before) :
    IntentsKept before after := by
  have hfirst : ∀ {value : Bytes} {labels : TextDict} {metadata : SecretMetadata}
      {middle : Tables} {log' : List Encryption} {workspaceId secretId intent : String},
      Inserts env master workspaceId secretId value labels 1 before [] metadata middle log' →
        intent ∈ allowedSecretUseIntents → labels.lookup "intent" = some intent →
          after.versions = middle.versions → IntentsKept before after := by
    intro value labels metadata middle log' workspaceId secretId intent hinsert hintent hlabel
      hversions
    obtain ⟨row, hrows, haddress, hcarries⟩ := hinsert.carries hlabel
    refine .inr ⟨row, intent, hversions.trans hrows, hintent, hcarries, ?_⟩
    intro other hother hsame
    exact absurd (hsame.trans haddress) (hinsert.first hgapless other hother)
  cases hhandled with
  | create _ hintent hlabel =>
      cases hperforms with
      | created hinsert => exact hfirst hinsert hintent hlabel rfl
  | generate hadmitted =>
      cases hperforms with
      | generated _ _ _ hinsert => exact hfirst hinsert hadmitted.allowed rfl rfl
      | generationReplayed => exact intentsKept_same rfl
  | rotate _ hintent hlabel =>
      cases hperforms with
      | rotated hlatest hmetadata hexpected hinsert =>
          obtain ⟨row, hrows, haddress, hcarries⟩ := hinsert.carries hlabel
          obtain ⟨hstored, hat⟩ := Tables.latestVersion_eq_some hlatest
          refine .inr ⟨row, _, hrows, hintent, hcarries, ?_⟩
          intro other hother hsame
          apply hone.same _ hstored other hother (hsame.trans (haddress.trans hat.symm))
          exact Carries.of_not_lacks hmetadata hexpected
  | revokeVersion => exact hperforms.rowsKept hgapless.consistent (by cases hperforms <;> rfl)
  | revoke => exact hperforms.rowsKept hgapless.consistent (by cases hperforms; rfl)
  | resolve => exact hperforms.rowsKept hgapless.consistent (by cases hperforms <;> rfl)
  | readMetadata => exact hperforms.rowsKept hgapless.consistent (by cases hperforms; rfl)

theorem IntentsKept.oneIntent (hkept : IntentsKept before after) (hone : OneIntent before) :
    OneIntent after := by
  rcases hkept with hold | ⟨row, intent, hrows, hallowed, hcarries, hothers⟩
  · constructor
    · intro row' hrow'
      obtain ⟨row, hrow, hversion, hsame⟩ := hold row' hrow'
      obtain ⟨intent, hallowed, hcarries⟩ := hone.labelled row hrow
      exact ⟨intent, hallowed, hcarries.later hversion hsame⟩
    · intro row' hrow' other' hother' haddress intent hcarries
      obtain ⟨row, hrow, hversion, hsame⟩ := hold row' hrow'
      obtain ⟨other, hother, hversion', hsame'⟩ := hold other' hother'
      rw [hone.carries_iff hrow hversion hsame] at hcarries
      rw [hone.carries_iff hother hversion' hsame']
      rw [hversion.address, hversion'.address] at haddress
      exact hone.same row hrow other hother haddress intent hcarries
  · constructor
    · intro found hfound
      rw [hrows, List.mem_append, List.mem_singleton] at hfound
      rcases hfound with hold | rfl
      · exact hone.labelled found hold
      · exact ⟨intent, hallowed, hcarries⟩
    · intro found hfound other hother haddress found' hcarries'
      rw [hrows, List.mem_append, List.mem_singleton] at hfound hother
      rcases hfound with hold | rfl
      · rcases hother with hold' | rfl
        · exact hone.same found hold other hold' haddress found' hcarries'
        · rwa [(hothers found hold haddress.symm).unique hcarries']
      · rw [hcarries.unique hcarries']
        rcases hother with hold' | rfl
        · exact hothers other hold' haddress
        · exact hcarries

end

section

variable {suite : CryptoSuite} {provider : Provider}

theorem Moved.gapless {before after : Tables} (hmoved : Moved suite provider before after)
    (hgapless : Gapless before) : Gapless after := by
  cases hmoved with
  | idle => exact hgapless
  | performed call => exact hgapless.perform call
  | audited hadded =>
      obtain ⟨rfl, hfresh⟩ := hadded
      exact ⟨RecordAdded.consistent ⟨rfl, hfresh⟩ hgapless.consistent, hgapless.numbered⟩

theorem Moved.oneIntent {before after : Tables} (hmoved : Moved suite provider before after)
    (hgapless : Gapless before) (hone : OneIntent before) : OneIntent after := by
  cases hmoved with
  | idle => exact hone
  | performed call hmaster hhandled =>
      rcases perform_cases before call with ⟨reply, _, hperforms⟩ | ⟨raised, _, _, hsame⟩
      · exact (hperforms.intentsKept hhandled hgapless hone).oneIntent hone
      · rwa [hsame]
  | audited hadded =>
      obtain ⟨rfl, _⟩ := hadded
      exact ⟨hone.labelled, hone.same⟩

end

/-! ### Uses that name another intent -/

section

variable {suite : CryptoSuite} {env : Env suite} {master : MasterKey} {tables : Tables}

/-- Some version of the secret carries the intent. -/
def HasIntent (tables : Tables) (workspaceId secretId intent : String) : Prop :=
  ∃ row ∈ tables.versions, row.address = (workspaceId, secretId) ∧ Carries row intent

/-- A use that returned found a version with its intent. -/
theorem Performs.hasIntent {args : ResolveSecretForUse} {reply : Reply} {after : Tables}
    {log : List Encryption}
    (hperforms : Performs env master tables (.resolveSecretForUse args) reply after log) :
    HasIntent tables args.workspaceId args.secretId args.intent := by
  have hfound : ∀ {row : VersionRow} {versionId : String} {secret : ResolvedSecret},
      tables.selectVersion args.workspaceId args.secretId versionId = some row →
      resolveRow suite master row (some args.intent) = .ok secret →
        HasIntent tables args.workspaceId args.secretId args.intent := by
    intro row versionId secret hrow hresolve
    obtain ⟨hreads, _, hintent, _⟩ := resolveRow_eq_ok.mp hresolve
    have hselected : selectRow tables args.workspaceId args.secretId (some versionId) =
        some row := hrow
    obtain ⟨hstored, haddress⟩ := selectRow_eq_some hselected
    exact ⟨row, hstored, haddress, Carries.of_not_lacks hreads hintent⟩
  cases hperforms with
  | selected _ _ _ _ _ hrow hresolve => exact hfound hrow hresolve
  | reselected _ _ hrow hresolve => exact hfound hrow hresolve

/-- A use leaves the selections as they are, or some version has its intent. -/
theorem perform_selections (tables : Tables) (args : ResolveSecretForUse) (master : MasterKey)
    (env : Env suite) :
    (perform tables ⟨.resolveSecretForUse args, master, env⟩).2.selections = tables.selections ∨
      HasIntent tables args.workspaceId args.secretId args.intent := by
  rcases perform_cases tables (⟨.resolveSecretForUse args, master, env⟩ : Call suite) with
    ⟨reply, _, hperforms⟩ | ⟨raised, _, _, hsame⟩
  · exact .inr hperforms.hasIntent
  · exact .inl (congrArg Tables.selections hsame)

end

section

variable {suite : CryptoSuite} {provider : Provider}

/-- What a resolve request does to the database, step by step. -/
def Uses (call : ApiCall suite) (before after : Tables) : Prop :=
  ∀ authorization workspaceId secretId body,
    call.request = .resolve authorization workspaceId secretId body →
      after.selections = before.selections ∨ HasIntent before workspaceId secretId body.intent

theorem serve_uses (call : ApiCall suite) : (serve provider call).Guarantees (Uses call) := by
  obtain ⟨env, request⟩ := call
  by_cases hresolve : ∃ authorization workspaceId secretId body,
      request = .resolve authorization workspaceId secretId body
  · obtain ⟨authorization, workspaceId, secretId, body, rfl⟩ := hresolve
    have hmoves : Moves (fun before after => after.selections = before.selections ∨
        HasIntent before workspaceId secretId body.intent)
        (Api.resolveSecret suite provider env workspaceId secretId body authorization)
        fun _ => True := by
      apply moves_request _ (.resolve authorization workspaceId secretId body)
      · rintro _ ⟨_⟩ tables
        exact perform_selections tables _ provider.master env.store
      · refine ⟨fun _ => .inl rfl, ?_⟩
        rintro record before after ⟨rfl, _⟩
        exact .inl rfl
    apply (hmoves 0).guarantees.mono
    intro before after huses _ _ _ _ hrequest
    cases hrequest
    exact huses
  · apply (moves_handler request 0).guarantees.mono
    intro before after _ authorization workspaceId secretId body hrequest
    exact absurd ⟨authorization, workspaceId, secretId, body, hrequest⟩ hresolve

/-- A resolve request that succeeded found a version with its intent. -/
theorem resolveSecret_settles {env : RequestEnv suite} (authorization : Option String)
    (workspaceId secretId : String) (request : EncodedResolveRequest) :
    Settles id (fun _ => True)
      (Api.resolveSecret suite provider env workspaceId secretId request authorization) []
      (fun _ steps => ∃ step ∈ steps, HasIntent step.1 workspaceId secretId request.intent)
      fun _ _ => True := by
  apply Settles.bind
  apply settles_audited
  intro client _
  apply Settles.bind
  apply settles_audited
  intro _ _
  apply Settles.bind
  apply settles_audited
  intro _ _
  apply settles_caught
  apply Settles.bind
  apply settles_call ⟨.resolveSecretForUse _, provider.master, env.store⟩ rfl
  · intro own tables secret after log _ _ hperforms
    have hfound := hperforms.hasIntent
    apply Settles.bind
    apply settles_appendAudit
    · intro steps draws before final hsteps _
      apply settles_pure
      refine ⟨(tables, after), ?_, hfound⟩
      have hown : steps = own ++ [(tables, after)] := hsteps
      rw [hown]
      simp
    · exact fun _ _ _ => trivial
  · exact fun _ _ _ _ _ _ => trivial

end

/-- A resolve request that succeeded found a version with its intent in one of its steps. -/
def Found {suite : CryptoSuite} (call : ApiCall suite) (result : Except Fault Body)
    (steps : List (Tables × Tables)) : Prop :=
  ∀ authorization workspaceId secretId body,
    call.request = .resolve authorization workspaceId secretId body →
      ∀ answer, result = .ok answer →
        ∃ step ∈ steps, HasIntent step.1 workspaceId secretId body.intent

/-- An intent some version carried, some version of the secret still carries. -/
theorem HasIntent.later {before after : Tables} {workspaceId secretId intent : String}
    (hhas : HasIntent before workspaceId secretId intent) (hextends : Extends before after) :
    HasIntent after workspaceId secretId intent := by
  obtain ⟨row, hrow, haddress, hcarries⟩ := hhas
  obtain ⟨row', hrow', hversion, hsame⟩ := hextends.versions row hrow
  exact ⟨row', hrow', hversion.address.trans haddress, hcarries.later hversion hsame⟩

section

variable {suite : CryptoSuite} {provider : Provider}

theorem serve_found (call : ApiCall suite) :
    (serve provider call).Ensures (fun _ => True)
      (fun ending steps => Found call ending.1 steps) [] := by
  obtain ⟨env, request⟩ := call
  by_cases hresolve : ∃ authorization workspaceId secretId body,
      request = .resolve authorization workspaceId secretId body
  · obtain ⟨authorization, workspaceId, secretId, body, rfl⟩ := hresolve
    have hsettles : (serve provider ⟨env, .resolve authorization workspaceId secretId body⟩).Ensures
        (fun _ => True) _ [] :=
      resolveSecret_settles authorization workspaceId secretId body 0 [] rfl
    apply hsettles.mono
    rintro ⟨result, count⟩ steps hended _ _ _ _ hrequest answer rfl
    cases hrequest
    exact hended
  · apply (Script.ensures_true _).mono
    intro ending steps _ authorization workspaceId secretId body hrequest
    exact absurd ⟨authorization, workspaceId, secretId, body, hrequest⟩ hresolve

/-- As long as no version carries its intent, a resolve request gets and leaves nothing. -/
theorem resolve_refused {events : List (Event (ApiCall suite))} {index : Nat}
    {call : ApiCall suite} {script : Script Tables (Except Fault Body × Nat)}
    (htask : (runServer provider events).tasks[index]? = some ⟨call, script⟩)
    {authorization : Option String} {workspaceId secretId : String} {body : EncodedResolveRequest}
    (hrequest : call.request = .resolve authorization workspaceId secretId body)
    (hnone : ¬ HasIntent (runServer provider events).state workspaceId secretId body.intent) :
    (∀ answer count, script ≠ .done (.ok answer, count)) ∧
      ∀ step ∈ (runServer provider events).own index, step.2.selections = step.1.selections := by
  have hkept : System.Kept (Moved suite provider) (fun _ => True)
      (fun call ending steps => Found call ending.1 steps) Tables.empty
      (runServer provider events) :=
    System.run_kept trivial (fun _ _ _ _ => trivial) (serve_guarantees fun _ _ hmoved => hmoved)
      serve_found events
  have hnever : ∀ step ∈ (runServer provider events).own index,
      ¬ HasIntent step.1 workspaceId secretId body.intent := by
    rintro ⟨before, after⟩ hstep hhas
    obtain ⟨found, hfound, _, rfl, _⟩ := System.mem_own.mp hstep
    exact hnone (hhas.later (((path_extends hkept.path).2 found hfound).2))
  constructor
  · rintro answer count rfl
    obtain ⟨step, hstep, hhas⟩ := hkept.done htask authorization workspaceId secretId body hrequest
      answer rfl
    exact hnever step hstep hhas
  · intro step hstep
    have hpromised : System.Promised Uses (runServer provider events) :=
      System.run_promised serve_uses Tables.empty events
    rcases (hpromised index _ htask).2 step hstep authorization workspaceId secretId body
      hrequest with hsame | hhas
    · exact hsame
    · exact absurd hhas (hnever step hstep)

end

/-! ### Nothing is decrypted -/

/-- The same library functions with another decryption. -/
def CryptoSuite.withDecrypt (suite : CryptoSuite)
    (decrypt : Bytes → Bytes → Bytes → Bytes → Option Bytes) : CryptoSuite :=
  { suite with decrypt := decrypt }

/-- The same draws, for the same functions with another decryption. -/
def Env.withDecrypt {suite : CryptoSuite} (env : Env suite)
    (decrypt : Bytes → Bytes → Bytes → Bytes → Option Bytes) : Env (suite.withDecrypt decrypt) :=
  { uuid4 := env.uuid4
    eventId := env.eventId
    now := env.now
    occurredAt := env.occurredAt
    urandom := env.urandom
    urandom_length := env.urandom_length
    privateKey := env.privateKey
    fails := env.fails }

section

variable {suite : CryptoSuite} {env : Env suite} {master : MasterKey} {tables : Tables}
variable {args : ResolveSecretForUse}

/-- A use, for the function that resolves the row it selects. -/
def useRow (env : Env suite) (args : ResolveSecretForUse)
    (resolve : VersionRow → Except Raised ResolvedSecret) : Tx Tables ResolvedSecret :=
  connection suite env do
    statement env
    let versionId ← selectedVersion suite env args
    match ← query env fun tables =>
        selectRow tables args.workspaceId args.secretId (some versionId) with
    | none => throw .secretMissing
    | some row => ofExcept (resolve row)

theorem resolveSecretForUse_eq_useRow :
    resolveSecretForUse suite env master args =
      useRow env args fun row => resolveRow suite master row (some args.intent) :=
  rfl

theorem resolveSecretForUse_withDecrypt
    (decrypt : Bytes → Bytes → Bytes → Bytes → Option Bytes) :
    resolveSecretForUse (suite.withDecrypt decrypt) (env.withDecrypt decrypt) master args =
      useRow env args fun row =>
        resolveRow (suite.withDecrypt decrypt) master row (some args.intent) :=
  rfl

/-- The selection of a version keeps the versions, and does the same twice. -/
theorem selectedVersion_twice :
    Coupled (selectedVersion suite env args) (selectedVersion suite env args) tables tables
      (fun versionId versionId' after after' =>
        versionId' = versionId ∧ after' = after ∧ after.versions = tables.versions)
      fun _ _ => True := by
  apply Coupled.bind
  refine coupled_query ?_ trivial
  split
  · apply Coupled.bind
    refine coupled_raiseIf Iff.rfl (fun _ => ?_) trivial
    exact coupled_pure ⟨rfl, rfl, rfl⟩
  · apply Coupled.bind
    refine coupled_query ?_ trivial
    split
    · exact coupled_throw trivial
    · apply Coupled.bind
      refine coupled_ofExcept (Alike.refl fun metadata _ => ?_) trivial
      apply Coupled.bind
      refine coupled_raiseIf Iff.rfl (fun _ => ?_) trivial
      apply Coupled.bind
      refine coupled_raiseIf Iff.rfl (fun _ => ?_) trivial
      apply Coupled.bind
      refine coupled_execute (Alike.refl fun after hinsert => ?_) trivial
      unfold Tables.insertSelection at hinsert
      split at hinsert
      · cases hinsert
      · cases hinsert
        exact coupled_pure ⟨rfl, rfl, rfl⟩

/-- Two resolutions that do the same on the rows of the secret give the same use. -/
theorem useRow_congr {resolve resolve' : VersionRow → Except Raised ResolvedSecret}
    (hsame : ∀ row ∈ tables.versions, row.address = (args.workspaceId, args.secretId) →
      resolve' row = resolve row) :
    attempt (useRow env args resolve') tables = attempt (useRow env args resolve) tables := by
  have hcoupled : Coupled (useRow env args resolve) (useRow env args resolve') tables tables
      (fun secret secret' after after' => secret' = secret ∧ after' = after)
      fun after after' => after' = after := by
    refine coupled_connection ?_ rfl
    apply Coupled.bind
    refine coupled_statement ?_ trivial
    apply Coupled.bind
    apply selectedVersion_twice.mono _ fun _ _ hends => hends
    rintro versionId _ after _ ⟨rfl, rfl, hversions⟩
    apply Coupled.bind
    refine coupled_query ?_ trivial
    split
    · exact coupled_throw trivial
    · next row hrow =>
        obtain ⟨hstored, haddress⟩ := selectRow_eq_some hrow
        rw [hversions] at hstored
        rw [hsame row hstored haddress]
        exact coupled_ofExcept (Alike.refl fun _ _ => ⟨rfl, rfl⟩) trivial
  have hends := hcoupled 0 [] [] rfl
  unfold ExitsAlike at hends
  unfold attempt
  cases hleft : (useRow env args resolve).run ⟨tables, 0, []⟩ <;>
    cases hright : (useRow env args resolve').run ⟨tables, 0, []⟩ <;>
      simp only [hleft, hright] at hends ⊢
  · rw [hends.2.1, hends.2.2]
  · rw [hends.1, hends.2.2]

/-- A row that lacks the intent is refused before it is decrypted. -/
theorem resolveRow_lacking {row : VersionRow} {metadata : SecretMetadata}
    {intent : Option String} (hmetadata : metadataFromRow row = .ok metadata)
    (hlacks : LacksIntent metadata intent) :
    resolveRow suite master row intent =
      if metadata.status = .revoked then .error .secretRevoked else .error .secretIntentMismatch := by
  by_cases hstatus : metadata.status = .revoked
  · rw [if_pos hstatus]
    exact resolveRow_eq_error.mpr (.inr ⟨metadata, hmetadata, .inl ⟨hstatus, rfl⟩⟩)
  · rw [if_neg hstatus]
    exact resolveRow_eq_error.mpr
      (.inr ⟨metadata, hmetadata, .inr ⟨hstatus, .inl ⟨hlacks, rfl⟩⟩⟩)

/-- Without a version of its intent, a use ends alike whatever decryption does. -/
theorem use_undecrypted (hone : OneIntent tables)
    (hother : ¬ HasIntent tables args.workspaceId args.secretId args.intent)
    (decrypt : Bytes → Bytes → Bytes → Bytes → Option Bytes) :
    attempt (resolveSecretForUse (suite.withDecrypt decrypt) (env.withDecrypt decrypt) master args)
        tables =
      attempt (resolveSecretForUse suite env master args) tables := by
  rw [resolveSecretForUse_withDecrypt, resolveSecretForUse_eq_useRow]
  apply useRow_congr
  intro row hrow haddress
  obtain ⟨_, _, labels, ⟨metadata, hmetadata, _⟩, _⟩ := hone.labelled row hrow
  have hlacks : LacksIntent metadata (some args.intent) := by
    by_contra hintent
    exact hother ⟨row, hrow, haddress, Carries.of_not_lacks hmetadata hintent⟩
  rw [resolveRow_lacking hmetadata hlacks, resolveRow_lacking hmetadata hlacks]

end

/-! ### Runs -/

section

variable {suite : CryptoSuite} {provider : Provider}

/-- A server keeps one intent for each secret. -/
theorem runServer_oneIntent (provider : Provider) (events : List (Event (ApiCall suite))) :
    OneIntent (runServer provider events).state := by
  have hboth : Gapless (runServer provider events).state ∧
      OneIntent (runServer provider events).state := by
    refine @runServer_inv suite provider (fun tables => Gapless tables ∧ OneIntent tables)
      ⟨gapless_empty, oneIntent_empty⟩ ?_ events
    rintro before after ⟨hgapless, hone⟩ hmoved
    exact ⟨hmoved.gapless hgapless, hmoved.oneIntent hgapless hone⟩
  exact hboth.2

/-- What holds of the intents in every run of a provider. -/
structure IntentDurable (suite : CryptoSuite) (provider : Provider) : Prop where
  one : ∀ events : List (Event (ApiCall suite)), OneIntent (runServer provider events).state
  constant : ∀ earlier later : List (Event (ApiCall suite)),
    ∀ row ∈ (runServer provider earlier).state.versions,
      ∀ row' ∈ (runServer provider (earlier ++ later)).state.versions,
        row'.address = row.address → ∀ intent, Carries row intent → Carries row' intent
  selected : ∀ events : List (Event (ApiCall suite)),
    ∀ selection ∈ (runServer provider events).state.selections,
      ∃ row ∈ (runServer provider events).state.versions,
        row.key = selection.target ∧ Carries row selection.intent
  /-- A resolve request for another intent never succeeds, and adds no selection. -/
  refused : ∀ (events : List (Event (ApiCall suite))) (index : Nat) call script,
    (runServer provider events).tasks[index]? = some ⟨call, script⟩ →
      ∀ authorization workspaceId secretId body,
        call.request = .resolve authorization workspaceId secretId body →
          ∀ row ∈ (runServer provider events).state.versions,
            row.address = (workspaceId, secretId) → ¬ Carries row body.intent →
              (∀ answer count, script ≠ .done (.ok answer, count)) ∧
                ∀ step ∈ (runServer provider events).own index,
                  step.2.selections = step.1.selections
  /-- The store call of such a request ends alike whatever decryption does. -/
  undecrypted : ∀ (events : List (Event (ApiCall suite))) (env : Env suite) args,
    ∀ row ∈ (runServer provider events).state.versions,
      row.address = (args.workspaceId, args.secretId) → ¬ Carries row args.intent →
        ∀ decrypt, attempt (resolveSecretForUse (suite.withDecrypt decrypt)
            (env.withDecrypt decrypt) provider.master args) (runServer provider events).state =
          attempt (resolveSecretForUse suite env provider.master args)
            (runServer provider events).state

theorem OneIntent.not_hasIntent {tables : Tables} (hone : OneIntent tables) {row : VersionRow}
    {workspaceId secretId intent : String} (hrow : row ∈ tables.versions)
    (haddress : row.address = (workspaceId, secretId)) (hother : ¬ Carries row intent) :
    ¬ HasIntent tables workspaceId secretId intent := by
  rintro ⟨found, hfound, hat, hcarries⟩
  exact hother (hone.same found hfound row hrow (haddress.trans hat.symm) intent hcarries)

theorem intent_durable (suite : CryptoSuite) (provider : Provider) :
    IntentDurable suite provider := by
  constructor
  · exact runServer_oneIntent provider
  · intro earlier later row hrow row' hrow' haddress intent hcarries
    obtain ⟨found, hfound, hversion, hsame⟩ :=
      (runServer_extends earlier later).versions row hrow
    exact (runServer_oneIntent provider (earlier ++ later)).same found hfound row' hrow'
      (haddress.trans hversion.address.symm) intent (hcarries.later hversion hsame)
  · intro events selection hselection
    obtain ⟨row, hrow, labels, hkey, hlabelled, hlabel⟩ :=
      (runServer_coherent events).2.selections selection hselection
    exact ⟨row, hrow, hkey, labels, hlabelled, hlabel⟩
  · intro events index call script htask authorization workspaceId secretId body hrequest row hrow
      haddress hother
    exact resolve_refused htask hrequest
      ((runServer_oneIntent provider events).not_hasIntent hrow haddress hother)
  · intro events env args row hrow haddress hother decrypt
    have hone := runServer_oneIntent provider events
    exact use_undecrypted hone (hone.not_hasIntent hrow haddress hother) decrypt

end

end SecretsCustody
