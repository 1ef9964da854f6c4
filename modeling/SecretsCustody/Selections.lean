/-
Pinned resolutions.  The first use under a correlation selects the version that
is current at that moment, every later use returns the same bytes, and a use
that differs from the first is refused.
-/
import SecretsCustody.Executions

namespace SecretsCustody

open History KeyedRows

section

variable {suite : CryptoSuite} {env : Env suite} {master : MasterKey} {before after : Tables}
variable {operation : Operation} {reply : Reply} {log : List Encryption}
variable {args : ResolveSecretForUse} {secret : ResolvedSecret}

/-- The row a first use selects: the version asked for, or the highest. -/
structure Current (tables : Tables) (args : ResolveSecretForUse) (row : VersionRow) : Prop where
  stored : row ∈ tables.versions
  address : row.address = (args.workspaceId, args.secretId)
  wanted : ∀ versionId, args.versionId = some versionId → row.versionId = versionId
  highest : args.versionId = none → ∀ other ∈ tables.versions,
    other.address = (args.workspaceId, args.secretId) → other.versionNumber ≤ row.versionNumber

theorem current_of_selectRow {tables : Tables} {row : VersionRow}
    (hselect : selectRow tables args.workspaceId args.secretId args.versionId = some row) :
    Current tables args row := by
  obtain ⟨hstored, haddress⟩ := selectRow_eq_some hselect
  refine ⟨hstored, haddress, ?_, ?_⟩
  · intro versionId hwanted
    rw [hwanted] at hselect
    have hkey := (Tables.selectVersion_eq_some hselect).2
    simp only [VersionRow.key, Prod.mk.injEq] at hkey
    exact hkey.2.2
  · intro hlatest other hother hsame
    rw [hlatest] at hselect
    exact number_le_latest hselect hother (by simpa using hsame)

/-- The selection a use leaves under its correlation. -/
structure Pins (before after : Tables) (args : ResolveSecretForUse) (secret : ResolvedSecret)
    (selection : SelectionRow) : Prop where
  pinned : after.selection args.workspaceId args.correlationId = some selection
  target : selection.target = secret.metadata.key
  agrees : args.Agrees selection

/-- A use that returned found its selection, or made it from the current row. -/
theorem Performs.pins
    (hperforms : Performs env master before (.resolveSecretForUse args) (.resolved secret) after
      log)
    (hconsistent : Consistent before) :
    ∃ selection, Pins before after args secret selection ∧
      (before.selection args.workspaceId args.correlationId = some selection ∧ after = before ∨
        before.selection args.workspaceId args.correlationId = none ∧
          ∃ row, Current before args row ∧ row.key = secret.metadata.key ∧
            selection = selectionRow suite env args row.versionId ∧
            after = { before with selections := before.selections ++ [selection] }) := by
  cases hperforms with
  | @selected _ selected row _ _ hfresh hselected hmetadata hstatus hintent hrow hresolve =>
      have hcurrent := current_of_selectRow hselected
      have hkey : selected.key = (args.workspaceId, args.secretId, selected.versionId) := by
        have haddress := hcurrent.address
        simp only [VersionRow.address, Prod.mk.injEq] at haddress
        rw [VersionRow.key, haddress.1, haddress.2]
      have hsame : row = selected := by
        obtain ⟨hmem, hfound⟩ := Tables.selectVersion_eq_some hrow
        exact hconsistent.versionKeys.eq_of_key hmem hcurrent.stored (hfound.trans hkey.symm)
      subst hsame
      have hmetadataKey : secret.metadata.key = row.key :=
        (metadataFromRow_describes (resolveRow_eq_ok.mp hresolve).1).key
      refine ⟨selectionRow suite env args row.versionId, ⟨?_, ?_, ?_⟩,
        .inr ⟨hfresh, row, hcurrent, hmetadataKey.symm, rfl, rfl⟩⟩
      · have hselection : (selectionRow suite env args row.versionId).key =
            (args.workspaceId, args.correlationId) := rfl
        change find SelectionRow.key before.selections _ = none at hfresh
        change find SelectionRow.key (before.selections ++ _) _ = _
        rw [find_append_singleton, hfresh, hselection, if_pos rfl]
        rfl
      · rw [hmetadataKey, hkey]
        rfl
      · refine ⟨rfl, rfl, rfl, ?_⟩
        cases hwanted : args.versionId with
        | none => exact .inl rfl
        | some versionId => exact .inr (congrArg some (hcurrent.wanted versionId hwanted).symm)
  | @reselected _ selection row _ hexisting hagrees hrow hresolve =>
      refine ⟨selection, ⟨hexisting, ?_, hagrees⟩, .inl ⟨hexisting, rfl⟩⟩
      have hkey := (Tables.selectVersion_eq_some hrow).2
      have hmetadataKey : secret.metadata.key = row.key :=
        (metadataFromRow_describes (resolveRow_eq_ok.mp hresolve).1).key
      have hworkspace : selection.workspaceId = args.workspaceId :=
        congrArg Prod.fst (key_of_find hexisting)
      rw [hmetadataKey, hkey, SelectionRow.target, hworkspace, hagrees.1]

/-- A use that differs from the selection of its correlation is refused. -/
theorem use_conflicting {tables : Tables} {call : Call suite} {selection : SelectionRow}
    (hoperation : call.operation = .resolveSecretForUse args)
    (hexisting : tables.selection args.workspaceId args.correlationId = some selection)
    (hconflict : ¬ args.Agrees selection) :
    (perform tables call).2 = tables ∧ ∃ raised, (perform tables call).1.result = .error raised ∧
      (call.env.Faultless → raised = .secretResolutionConflict) := by
  rcases perform_cases tables call with ⟨reply, hresult, hperforms⟩ |
    ⟨raised, hresult, hrefuses, hsame⟩
  · rw [hoperation] at hperforms
    generalize (perform tables call).2 = after at hperforms
    generalize (perform tables call).1.encryptions = log at hperforms
    cases hperforms with
    | selected hfresh =>
        rw [hexisting] at hfresh
        cases hfresh
    | reselected hfound hagrees =>
        rw [hexisting] at hfound
        cases hfound
        exact absurd hagrees hconflict
  · refine ⟨hsame, raised, hresult, fun hfaultless => ?_⟩
    rw [hoperation] at hrefuses
    cases hrefuses with
    | fault hfault => exact absurd hfault hfaultless.not_faults
    | selectionConflict => rfl
    | selectionMissing hfresh =>
        rw [hexisting] at hfresh
        cases hfresh
    | selectionUnfit hfresh =>
        rw [hexisting] at hfresh
        cases hfresh
    | selectionRefused hfresh =>
        rw [hexisting] at hfresh
        cases hfresh
    | pinnedMissing hfound hagrees =>
        rw [hexisting] at hfound
        cases hfound
        exact absurd hagrees hconflict
    | pinnedRefused hfound hagrees =>
        rw [hexisting] at hfound
        cases hfound
        exact absurd hagrees hconflict

/-! ### The bytes of a version -/

/-- Master keys of a log that share a fingerprint are one key. -/
def FingerprintsTell (steps : List (Step suite)) : Prop :=
  ∀ left ∈ steps, ∀ right ∈ steps,
    left.input.master.fingerprint suite = right.input.master.fingerprint suite →
      left.input.master.key = right.input.master.key

instance (steps : List (Step suite)) : Decidable (FingerprintsTell steps) :=
  inferInstanceAs (Decidable (∀ left ∈ steps, ∀ right ∈ steps, _))

theorem decryptRow_congr {master master' : MasterKey} (hkey : master'.key = master.key)
    (row : VersionRow) : decryptRow suite master' row = decryptRow suite master row := by
  unfold decryptRow MasterKey.decrypt MasterKey.fingerprint
  rw [hkey]

/-- Two decryptions of one row name one fingerprint. -/
theorem decryptRow_fingerprint {master master' : MasterKey} {row : VersionRow}
    {value value' : Bytes} (hleft : decryptRow suite master row = .ok value)
    (hright : decryptRow suite master' row = .ok value') :
    master.fingerprint suite = master'.fingerprint suite := by
  obtain ⟨metadata, _, _, hreads, _, hleftPrint, _⟩ := decryptRow_eq_ok.mp hleft
  obtain ⟨metadata', _, _, hreads', _, hrightPrint, _⟩ := decryptRow_eq_ok.mp hright
  rw [hreads] at hreads'
  cases hreads'
  exact hleftPrint.symm.trans hrightPrint

/-- A version resolved again later is the same row, and gives the same bytes. -/
theorem ResolvedFrom.value_eq {tables later : Tables} {operation' : Operation}
    {master' : MasterKey} {secret' : ResolvedSecret} {row row' : VersionRow}
    (hfirst : ResolvedFrom suite master tables operation secret row)
    (hsecond : ResolvedFrom suite master' later operation' secret' row')
    (hextends : Extends tables later) (hconsistent : Consistent later)
    (htells : master.fingerprint suite = master'.fingerprint suite → master.key = master'.key)
    (hkey : secret'.metadata.key = secret.metadata.key) : secret'.value = secret.value := by
  rw [hfirst.key, hsecond.key] at hkey
  have hsame := (hextends.find hconsistent hfirst.stored hsecond.stored hkey).2.eq_of_active
    hsecond.active
  have hvalue := hsecond.decrypts
  rw [hsame] at hvalue
  have hmaster := htells (decryptRow_fingerprint hfirst.decrypts hvalue)
  rw [← decryptRow_congr hmaster, hfirst.decrypts] at hvalue
  exact (Except.ok.inj hvalue).symm

/-! ### First uses -/

/-- A logged call used a secret under the correlation. -/
def UsedBy (steps : List (Step suite)) (correlation : String × String) : Prop :=
  ∃ step ∈ steps, ∃ args secret, step.input.operation = .resolveSecretForUse args ∧
    (args.workspaceId, args.correlationId) = correlation ∧
    step.output.result = .ok (.resolved secret)

/-- Only a use that returns adds a selection, under its own correlation. -/
theorem Performs.selections_eq
    (hperforms : Performs env master before operation reply after log) :
    after.selections = before.selections ∨ ∃ args secret selection,
      operation = .resolveSecretForUse args ∧ reply = .resolved secret ∧
        selection.key = (args.workspaceId, args.correlationId) ∧
        after.selections = before.selections ++ [selection] := by
  cases hperforms with
  | created hinsert => exact .inl hinsert.others.1
  | rotated _ _ _ hinsert => exact .inl hinsert.others.1
  | revoked _ hrevokes => exact .inl hrevokes.others.1
  | revokedVersion _ _ _ _ _ _ hrevokes => exact .inl hrevokes.others.1
  | generated _ _ _ hinsert => exact .inl hinsert.others.1
  | selected => exact .inr ⟨_, _, _, rfl, rfl, rfl, rfl⟩
  | _ => exact .inl rfl

/-- Every selection was made by a use of its correlation. -/
theorem usedBy_trace (calls : List (Call suite)) :
    ∀ selection ∈ (final perform Tables.empty calls).selections,
      UsedBy (trace perform Tables.empty calls) selection.key := by
  refine @invariant_trace _ _ _ _ (fun steps tables =>
    ∀ selection ∈ tables.selections, UsedBy steps selection.key) _ _ ?_ ?_
  · intro selection hselection
    cases hselection
  · intro steps tables call _ hused selection hselection
    have hkept : selection ∈ tables.selections →
        UsedBy (steps ++ [entry perform tables call]) selection.key := by
      intro hold
      obtain ⟨step, hstep, args, secret, hoperation, hkey, hresult⟩ := hused selection hold
      exact ⟨step, List.mem_append_left _ hstep, args, secret, hoperation, hkey, hresult⟩
    rcases perform_cases tables call with
      ⟨reply, hresult, hperforms⟩ | ⟨raised, _, _, hsame⟩
    · rcases hperforms.selections_eq with hsame | ⟨args, secret, added, hoperation, rfl, hkey, hrows⟩
      · rw [hsame] at hselection
        exact hkept hselection
      · rw [hrows, List.mem_append, List.mem_singleton] at hselection
        rcases hselection with hold | rfl
        · exact hkept hold
        · exact ⟨_, List.mem_append_right _ (List.mem_singleton_self _), args, secret,
            hoperation, hkey.symm, hresult⟩
    · rw [hsame] at hselection
      exact hkept hselection

/-- Without an earlier use a correlation has no selection. -/
theorem selection_eq_none (calls : List (Call suite)) {workspaceId correlationId : String}
    (hfree : ¬ UsedBy (trace perform Tables.empty calls) (workspaceId, correlationId)) :
    (final perform Tables.empty calls).selection workspaceId correlationId = none := by
  cases hfound : (final perform Tables.empty calls).selection workspaceId correlationId with
  | none => rfl
  | some selection =>
      have hused := usedBy_trace calls selection (mem_of_find hfound)
      rw [key_of_find hfound] at hused
      exact absurd hused hfree

/-! ### Executions -/

/-- The call differs from the use that made the selection. -/
def Differs (args args' : ResolveSecretForUse) (secret : ResolvedSecret) : Prop :=
  args'.secretId ≠ args.secretId ∨ args'.intent ≠ args.intent ∨
    args'.callerSubject ≠ args.callerSubject ∨
    ∃ versionId, args'.versionId = some versionId ∧ versionId ≠ secret.metadata.versionId

/-- What holds of the uses of an execution. -/
structure UsesPinned (system : System Tables (Call suite) Outcome) : Prop where
  /-- One selection a correlation, and none is altered or removed. -/
  unique : Unique SelectionRow.key system.committed.selections
  unaltered : ∀ step ∈ system.log, step.before.selections <+: step.after.selections ∧
    step.after.selections <+: system.committed.selections
  /-- The first use selects the row current at that moment. -/
  first : ∀ earlier step later, system.log = earlier ++ step :: later → ∀ args secret,
    step.input.operation = .resolveSecretForUse args →
    step.output.result = .ok (.resolved secret) →
    ¬ UsedBy earlier (args.workspaceId, args.correlationId) →
      ∃ row, Current step.before args row ∧ row.key = secret.metadata.key ∧
        step.after = { step.before with
          selections := step.before.selections ++
            [selectionRow suite step.input.env args row.versionId] }
  /-- A later use returns the same version and the same bytes. -/
  pinned : ∀ earlier step middle found later,
    system.log = earlier ++ step :: (middle ++ found :: later) → ∀ args args' secret secret',
    step.input.operation = .resolveSecretForUse args →
    step.output.result = .ok (.resolved secret) →
    found.input.operation = .resolveSecretForUse args' →
    found.output.result = .ok (.resolved secret') →
    (args'.workspaceId, args'.correlationId) = (args.workspaceId, args.correlationId) →
      secret'.metadata.key = secret.metadata.key ∧ secret'.value = secret.value
  /-- A later use that differs is refused and changes nothing. -/
  conflicting : ∀ earlier step middle found later,
    system.log = earlier ++ step :: (middle ++ found :: later) → ∀ args args' secret,
    step.input.operation = .resolveSecretForUse args →
    step.output.result = .ok (.resolved secret) →
    found.input.operation = .resolveSecretForUse args' →
    (args'.workspaceId, args'.correlationId) = (args.workspaceId, args.correlationId) →
    Differs args args' secret →
      found.after = found.before ∧ ∃ raised, found.output.result = .error raised ∧
        (found.input.env.Faultless → raised = .secretResolutionConflict)
  /-- A use that raises leaves nothing behind. -/
  raising : ∀ step ∈ system.log, ∀ args raised,
    step.input.operation = .resolveSecretForUse args →
    step.output.result = .error raised → step.after = step.before

theorem Differs.not_agrees {args' : ResolveSecretForUse} {selection : SelectionRow}
    (hdiffers : Differs args args' secret) (htarget : selection.target = secret.metadata.key)
    (hagrees : args.Agrees selection) : ¬ args'.Agrees selection := by
  obtain ⟨hsecret, hintent, hcaller, _⟩ := hagrees
  rintro ⟨hsecret', hintent', hcaller', hversion⟩
  have hversionId : selection.versionId = secret.metadata.versionId := by
    simp only [SelectionRow.target, SecretMetadata.key, Prod.mk.injEq] at htarget
    exact htarget.2.2
  rcases hdiffers with hdiffers | hdiffers | hdiffers | ⟨versionId, hwanted, hdiffers⟩
  · exact hdiffers (hsecret'.symm.trans hsecret)
  · exact hdiffers (hintent'.symm.trans hintent)
  · exact hdiffers (hcaller'.symm.trans hcaller)
  · rcases hversion with hnone | hsome
    · rw [hwanted] at hnone
      cases hnone
    · rw [hwanted] at hsome
      exact hdiffers ((Option.some.inj hsome).trans hversionId)

/-- What a use that returned leaves for every later call of its correlation. -/
theorem use_pinned {tables : Tables} {call : Call suite} (hconsistent : Consistent tables)
    (hoperation : call.operation = .resolveSecretForUse args)
    (hresult : (perform tables call).1.result = .ok (.resolved secret))
    (between : List (Call suite)) :
    ∃ selection,
      (final perform (perform tables call).2 between).selection args.workspaceId
        args.correlationId = some selection ∧
      selection.target = secret.metadata.key ∧ args.Agrees selection := by
  have hperforms := performs_of_ok hresult
  rw [hoperation] at hperforms
  obtain ⟨selection, hpins, _⟩ := hperforms.pins hconsistent
  have hlater := final_extends (perform_consistent call hconsistent) between
  exact ⟨selection, find_of_prefix hlater.selections hpins.pinned, hpins.target, hpins.agrees⟩

/-- Uses are pinned, whatever else the clients do. -/
theorem uses_pinned (events : List (Event (Call suite)))
    (htells : FingerprintsTell (runClients events).log) : UsesPinned (runClients events) := by
  obtain ⟨calls, hlog, hcommitted⟩ := runClients_serial events
  constructor
  · rw [hcommitted]
    exact (final_consistent calls).selectionKeys
  · intro step hstep
    rw [hlog] at hstep
    rw [hcommitted]
    obtain ⟨earlier, call, later, rfl, rfl⟩ := mem_trace hstep
    have hbefore := final_consistent earlier
    refine ⟨(perform_extends hbefore call).selections, ?_⟩
    rw [final_append]
    exact (final_extends (perform_consistent call hbefore) later).selections
  · intro earlier step later hsplit args secret hoperation hresult hfree
    rw [hlog] at hsplit
    obtain ⟨first, call, second, rfl, rfl, rfl, rfl⟩ := trace_eq_append_cons hsplit
    have hperforms := performs_of_ok hresult
    change call.operation = _ at hoperation
    rw [hoperation] at hperforms
    obtain ⟨selection, _, ⟨hexisting, _⟩ | ⟨_, row, hcurrent, hkey, rfl, hafter⟩⟩ :=
      hperforms.pins (final_consistent first)
    · rw [selection_eq_none first hfree] at hexisting
      cases hexisting
    · exact ⟨row, hcurrent, hkey, hafter⟩
  · intro earlier step middle found later hsplit args args' secret secret' hoperation hresult
      hoperation' hresult' hcorrelation
    have htell : step.input.master.fingerprint suite = found.input.master.fingerprint suite →
        step.input.master.key = found.input.master.key := by
      apply htells <;> rw [hsplit] <;> simp
    rw [hlog] at hsplit
    obtain ⟨first, call, second, rfl, rfl, rfl, hrest⟩ := trace_eq_append_cons hsplit
    obtain ⟨between, later, rest, rfl, rfl, rfl, rfl⟩ := trace_eq_append_cons hrest.symm
    have hfirst := final_consistent first
    have hafter := perform_consistent call hfirst
    have hbefore : Consistent (final perform (perform (final perform Tables.empty first) call).2
        between) :=
      invariant_final hafter fun _ call _ hinv => perform_consistent call hinv
    have hextends := (perform_extends hfirst call).trans (final_extends hafter between)
    obtain ⟨selection, hpinned, htarget, hagrees⟩ :=
      use_pinned hfirst hoperation hresult between
    simp only [Prod.mk.injEq] at hcorrelation
    have hperforms := performs_of_ok hresult'
    change later.operation = _ at hoperation'
    rw [hoperation'] at hperforms
    obtain ⟨selection', hpins, ⟨hexisting, _⟩ | ⟨hfresh, _⟩⟩ := hperforms.pins hbefore
    · rw [hcorrelation.1, hcorrelation.2] at hexisting
      cases hexisting.symm.trans hpinned
      have hkey : secret'.metadata.key = secret.metadata.key := hpins.target.symm.trans htarget
      obtain ⟨row, hresolved⟩ := (performs_of_ok hresult).resolves
      obtain ⟨row', hresolved'⟩ := (performs_of_ok hresult').resolves
      exact ⟨hkey, hresolved.value_eq hresolved' hextends hbefore htell hkey⟩
    · rw [hcorrelation.1, hcorrelation.2] at hfresh
      cases hfresh.symm.trans hpinned
  · intro earlier step middle found later hsplit args args' secret hoperation hresult hoperation'
      hcorrelation hdiffers
    rw [hlog] at hsplit
    obtain ⟨first, call, second, rfl, rfl, rfl, hrest⟩ := trace_eq_append_cons hsplit
    obtain ⟨between, later, rest, rfl, rfl, rfl, rfl⟩ := trace_eq_append_cons hrest.symm
    obtain ⟨selection, hpinned, htarget, hagrees⟩ :=
      use_pinned (final_consistent first) hoperation hresult between
    simp only [Prod.mk.injEq] at hcorrelation
    rw [← hcorrelation.1, ← hcorrelation.2] at hpinned
    exact use_conflicting hoperation' hpinned (hdiffers.not_agrees htarget hagrees)
  · intro step hstep args raised hoperation hresult
    rw [hlog] at hstep
    obtain ⟨earlier, call, later, rfl, rfl⟩ := mem_trace hstep
    exact (refuses_of_error hresult).2

end

/-- A use of one correlation for the intent `use`. -/
def probe (callerSubject : String) : ResolveSecretForUse :=
  { workspaceId := "workspace"
    secretId := "secret"
    intent := "use"
    callerSubject := callerSubject
    correlationId := "correlation"
    versionId := none }

/-- A use, a rotation, the use again after a restart, and one by another caller. -/
def uses : List (Event (Call transparentSuite)) :=
  [.begin 0 (plainCall "a" (.createSecret "workspace" "secret" [1]
      ⟨[⟨"intent", "use"⟩], List.nodup_singleton _⟩)),
    .commit 0,
    .begin 1 (plainCall "b" (.resolveSecretForUse (probe "caller"))),
    .commit 1,
    .begin 0 (plainCall "c" (.rotateSecret "workspace" "secret" [2]
      ⟨[⟨"intent", "use"⟩], List.nodup_singleton _⟩ none)),
    .commit 0,
    .begin 1 { plainCall "d" (.resolveSecretForUse (probe "caller")) with
      master := ⟨[], "restarted"⟩ },
    .commit 1,
    .begin 1 (plainCall "e" (.resolveSecretForUse (probe "other"))),
    .commit 1]

theorem uses_pinned_uses : UsesPinned (runClients uses) :=
  uses_pinned uses (by decide +kernel)

end SecretsCustody
