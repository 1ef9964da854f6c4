/-
Version histories.  The versions of a secret are numbered `1, …, n` in every
reachable database, rotations number on from there, and no version is ever
removed.
-/
import SecretsCustody.Executions

namespace SecretsCustody

open History

/-- The numbers `1, …, n`. -/
def numbering (n : Nat) : List Int :=
  (List.range n).map fun i : Nat => (i : Int) + 1

theorem numbering_succ (n : Nat) : numbering (n + 1) = numbering n ++ [(n : Int) + 1] := by
  simp [numbering, List.range_succ]

theorem mem_numbering {n : Nat} {k : Int} : k ∈ numbering n ↔ 1 ≤ k ∧ k ≤ n := by
  simp only [numbering, List.mem_map, List.mem_range]
  constructor
  · rintro ⟨i, hi, rfl⟩
    omega
  · rintro ⟨hone, hn⟩
    exact ⟨(k - 1).toNat, by omega, by omega⟩

/-- The version numbers of one secret, in the order of their rows. -/
def numbersAt (tables : Tables) (address : String × String) : List Int :=
  (tables.versions.filter fun row => row.address = address).map VersionRow.versionNumber

/-- The versions of one secret are numbered `1, …, n`, one row each. -/
def Numbered (tables : Tables) (address : String × String) (n : Nat) : Prop :=
  (numbersAt tables address).Perm (numbering n)

section

variable {tables : Tables} {workspaceId secretId : String} {n : Nat} {k : Int}

theorem mem_numbersAt :
    k ∈ numbersAt tables (workspaceId, secretId) ↔
      (workspaceId, secretId, k) ∈ tables.versions.map VersionRow.numberKey := by
  simp only [numbersAt, List.mem_map, List.mem_filter, decide_eq_true_eq, VersionRow.address,
    VersionRow.numberKey, Prod.mk.injEq]
  constructor
  · rintro ⟨row, ⟨hrow, hworkspace, hsecret⟩, hnumber⟩
    exact ⟨row, hrow, hworkspace, hsecret, hnumber⟩
  · rintro ⟨row, hrow, hworkspace, hsecret, hnumber⟩
    exact ⟨row, ⟨hrow, hworkspace, hsecret⟩, hnumber⟩

theorem Numbered.mem_iff (hnumbered : Numbered tables (workspaceId, secretId) n) :
    (workspaceId, secretId, k) ∈ tables.versions.map VersionRow.numberKey ↔ 1 ≤ k ∧ k ≤ n := by
  rw [← mem_numbersAt, List.Perm.mem_iff hnumbered, mem_numbering]

/-- The latest row of a numbered history carries the last number. -/
theorem Numbered.latest (hnumbered : Numbered tables (workspaceId, secretId) n)
    {row : VersionRow} (hlatest : tables.latestVersion workspaceId secretId = some row) :
    row.versionNumber = n ∧ 1 ≤ n := by
  obtain ⟨hrow, haddress⟩ := Tables.latestVersion_eq_some hlatest
  have hmem : row.versionNumber ∈ numbersAt tables (workspaceId, secretId) :=
    List.mem_map_of_mem (List.mem_filter.mpr ⟨hrow, by simpa using haddress⟩)
  have hbounds := mem_numbering.mp (List.Perm.mem_iff hnumbered |>.mp hmem)
  have hlast : (n : Int) ∈ numbersAt tables (workspaceId, secretId) :=
    (List.Perm.mem_iff hnumbered).mpr (mem_numbering.mpr ⟨by omega, le_refl _⟩)
  simp only [numbersAt, List.mem_map, List.mem_filter, decide_eq_true_eq] at hlast
  rcases hlast with ⟨other, ⟨hother, hsame⟩, hnumber⟩
  have hle := KeyedRows.number_le_latest hlatest hother (by simpa using hsame)
  omega

theorem Numbered.latest_eq_none_iff (hnumbered : Numbered tables (workspaceId, secretId) n) :
    tables.latestVersion workspaceId secretId = none ↔ n = 0 := by
  constructor
  · intro hnone
    by_contra hpos
    have hmem : (n : Int) ∈ numbersAt tables (workspaceId, secretId) :=
      (List.Perm.mem_iff hnumbered).mpr (mem_numbering.mpr ⟨by omega, le_refl _⟩)
    simp only [numbersAt, List.mem_map, List.mem_filter, decide_eq_true_eq] at hmem
    rcases hmem with ⟨row, ⟨hrow, haddress⟩, _⟩
    have hkept := KeyedRows.latest_eq_none_iff.mp hnone row hrow
    simp [haddress] at hkept
  · rintro rfl
    cases hlatest : tables.latestVersion workspaceId secretId with
    | none => rfl
    | some row =>
        have hpos := (hnumbered.latest hlatest).2
        omega

theorem numbered_empty (address : String × String) : Numbered Tables.empty address 0 :=
  .refl _

end

section

variable {suite : CryptoSuite} {env : Env suite} {master : MasterKey}
variable {before after : Tables} {operation : Operation} {reply : Reply}
variable {log : List Encryption}

theorem numbersAt_map_append {change : VersionRow → VersionRow} {added : List VersionRow}
    (hrows : after.versions = before.versions.map change ++ added)
    (hsame : ∀ row ∈ before.versions, SameVersion row (change row))
    (address : String × String) :
    numbersAt after address = numbersAt before address ++
      (added.filter fun row => row.address = address).map VersionRow.versionNumber := by
  have hmapped : ∀ rows : List VersionRow, (∀ row ∈ rows, SameVersion row (change row)) →
      ((rows.map change).filter fun row => row.address = address).map
          VersionRow.versionNumber =
        (rows.filter fun row => row.address = address).map VersionRow.versionNumber := by
    intro rows hrows
    induction rows with
    | nil => rfl
    | cons row rows ih =>
        have hrow := hrows row List.mem_cons_self
        have hrest := ih fun other hother => hrows other (List.mem_cons_of_mem row hother)
        by_cases haddress : row.address = address
        · simpa [haddress, hrow.address, hrow.versionNumber] using hrest
        · simpa [haddress, hrow.address] using hrest
  rw [numbersAt, numbersAt, hrows, List.filter_append, List.map_append,
    hmapped before.versions hsame]

/-- A call that returned adds no version at an address, or the next one. -/
theorem VersionsEffect.numbered
    (heffect : VersionsEffect env master before operation reply after log)
    {address : String × String} {n : Nat} (hnumbered : Numbered before address n) :
    (Numbered after address n ∧ ∀ metadata value,
        inserted env operation reply = some (metadata, value) → metadata.address ≠ address) ∨
      Numbered after address (n + 1) ∧ ∃ metadata value,
        inserted env operation reply = some (metadata, value) ∧ metadata.address = address ∧
          metadata.versionNumber = (n : Int) + 1 := by
  rcases heffect.rows with ⟨change, added, hrows, hsteps, hadded⟩
  have hnumbers := numbersAt_map_append hrows (fun row hrow => (hsteps row hrow).sameVersion)
    address
  cases hadded with
  | none hinserted =>
      apply Or.inl
      rw [Numbered, hnumbers, List.filter_nil, List.map_nil, List.append_nil, hinserted]
      exact ⟨hnumbered, fun _ _ hnone => by cases hnone⟩
  | @one clean workspaceId secretId versionNumber metadata encryption hinserted hwritten
      hmetadata hclean hseals hkey hlog hfresh hnumber hnext =>
      subst hmetadata
      by_cases haddress : address = (workspaceId, secretId)
      · subst haddress
        have hlast : versionNumber = (n : Int) + 1 := by
          rcases hnext with rfl | ⟨latest, hlatest, rfl⟩
          · rw [hnumbered.mem_iff] at hnumber
            omega
          · rw [(hnumbered.latest hlatest).1]
        refine .inr ⟨?_, _, _, hinserted, rfl, hlast⟩
        rw [Numbered, hnumbers, numbering_succ, ← hlast]
        simp only [versionRow, freshMetadata, VersionRow.address, decide_true,
          List.filter_cons_of_pos, List.filter_nil, List.map_cons, List.map_nil]
        exact List.Perm.append_right _ hnumbered
      · have hother : ¬ (workspaceId, secretId) = address := fun heq => haddress heq.symm
        apply Or.inl
        constructor
        · rw [Numbered, hnumbers]
          simp only [versionRow, freshMetadata, VersionRow.address, hother, decide_false,
            Bool.false_eq_true, not_false_eq_true, List.filter_cons_of_neg, List.filter_nil,
            List.map_nil, List.append_nil]
          exact hnumbered
        · intro metadata value hfound
          rw [hinserted] at hfound
          cases hfound
          exact hother

/-- The constraints hold and every secret has a numbered history. -/
structure Gapless (tables : Tables) : Prop where
  consistent : Consistent tables
  numbered : ∀ address, ∃ n, Numbered tables address n

theorem gapless_empty : Gapless Tables.empty :=
  ⟨consistent_empty, fun address => ⟨0, numbered_empty address⟩⟩

theorem Gapless.perform {tables : Tables} (hgapless : Gapless tables) (call : Call suite) :
    Gapless (perform tables call).2 := by
  refine ⟨perform_consistent call hgapless.consistent, fun address => ?_⟩
  obtain ⟨n, hnumbered⟩ := hgapless.numbered address
  rcases perform_cases tables call with ⟨reply, _, hperforms⟩ | ⟨raised, _, _, hsame⟩
  · have heffect := hperforms.versionsEffect hgapless.consistent.versionKeys
    rcases heffect.numbered hnumbered with ⟨hn, _⟩ | ⟨hn, _⟩
    · exact ⟨n, hn⟩
    · exact ⟨n + 1, hn⟩
  · exact ⟨n, by rwa [hsame]⟩

/-- Every run keeps every history numbered. -/
theorem final_gapless (calls : List (Call suite)) :
    Gapless (final perform Tables.empty calls) :=
  invariant_final gapless_empty fun _ call _ hgapless => hgapless.perform call

/-! ### Rotations in order -/

/-- The number of the version an operation rotated a secret to. -/
def rotatedTo (address : String × String) : Operation → Reply → Option Int
  | .rotateSecret workspaceId secretId _ _ _, .metadata metadata =>
      if (workspaceId, secretId) = address then some metadata.versionNumber else none
  | _, _ => none

/-- The numbers the successful rotations of a secret returned, in order. -/
def rotatedNumbers (address : String × String) (steps : List (Step suite)) : List Int :=
  steps.filterMap fun step =>
    match step.output.result with
    | .ok reply => rotatedTo address step.input.operation reply
    | .error _ => none

theorem numbering_cons (n : Nat) :
    numbering (n + 1) = 1 :: (numbering n).map fun k => k + 1 := by
  simp [numbering, List.range_succ_eq_map, Function.comp_def]

/-- On a secret that exists a rotation takes the next number, and nothing else
adds a version. -/
theorem Performs.rotates (hperforms : Performs env master before operation reply after log)
    (hconsistent : Consistent before) {address : String × String} {n : Nat}
    (hnumbered : Numbered before address n) (hpositive : 1 ≤ n) :
    (rotatedTo address operation reply = none ∧ Numbered after address n) ∨
      rotatedTo address operation reply = some ((n : Int) + 1) ∧
        Numbered after address (n + 1) := by
  rcases (hperforms.versionsEffect hconsistent.versionKeys).numbered hnumbered with
    ⟨hn, hnone⟩ | ⟨hn, metadata, value, hinserted, haddress, hnumber⟩
  · apply Or.inl
    refine ⟨?_, hn⟩
    cases hperforms with
    | rotated hlatest hmetadata hintent hinsert =>
        cases hinsert
        exact if_neg (hnone _ _ rfl)
    | _ => rfl
  · apply Or.inr
    refine ⟨?_, hn⟩
    cases hperforms with
    | rotated hlatest hmetadata hintent hinsert =>
        cases hinserted
        cases hinsert
        rw [← hnumber]
        exact if_pos haddress
    | created hinsert =>
        cases hinserted
        cases hinsert
        change (1 : Int) = n + 1 at hnumber
        omega
    | generated hadmitted hfresh hkeyId hinsert =>
        cases hinserted
        cases hinsert
        change (1 : Int) = n + 1 at hnumber
        omega
    | generationReplayed hadmitted hexisting hagrees hrow hkey =>
        rw [inserted, (regenerated_eq_ok.mp hkey).2] at hinserted
        cases hinserted
    | _ => cases hinserted

/-- The rotations of a secret that exists number its versions without a gap. -/
theorem rotatedNumbers_trace {tables : Tables} (hconsistent : Consistent tables)
    {address : String × String} {n : Nat} (hnumbered : Numbered tables address n)
    (hpositive : 1 ≤ n) (calls : List (Call suite)) :
    ∃ k, rotatedNumbers address (trace perform tables calls) =
      (numbering k).map fun i => (n : Int) + i := by
  induction calls generalizing tables n with
  | nil => exact ⟨0, rfl⟩
  | cons call calls ih =>
      have hnext := perform_consistent call hconsistent
      have hstep : (rotatedNumbers address [entry perform tables call] = [] ∧
            Numbered (perform tables call).2 address n) ∨
          rotatedNumbers address [entry perform tables call] = [(n : Int) + 1] ∧
            Numbered (perform tables call).2 address (n + 1) := by
        rcases perform_cases tables call with
          ⟨reply, hresult, hperforms⟩ | ⟨raised, hresult, _, hsame⟩
        · rcases hperforms.rotates hconsistent hnumbered hpositive with ⟨hnone, hn⟩ | ⟨hsome, hn⟩
          · exact .inl ⟨by simp [rotatedNumbers, entry, hresult, hnone], hn⟩
          · exact .inr ⟨by simp [rotatedNumbers, entry, hresult, hsome], hn⟩
        · exact .inl ⟨by simp [rotatedNumbers, entry, hresult], by rwa [hsame]⟩
      have hsplit : rotatedNumbers address (trace perform tables (call :: calls)) =
          rotatedNumbers address [entry perform tables call] ++
            rotatedNumbers address (trace perform (perform tables call).2 calls) := by
        rw [rotatedNumbers, rotatedNumbers, rotatedNumbers, ← List.filterMap_append]
        rfl
      rw [hsplit]
      rcases hstep with ⟨hnone, hn⟩ | ⟨hsome, hn⟩
      · rw [hnone]
        exact ih hnext hn hpositive
      · obtain ⟨k, hk⟩ := ih hnext hn (by omega)
        refine ⟨k + 1, ?_⟩
        rw [hsome, hk, numbering_cons, List.map_cons, List.map_map]
        have hfirst : (n : Int) + 1 = (fun i => (n : Int) + i) 1 := rfl
        rw [List.singleton_append, hfirst]
        congr 1
        apply List.map_congr_left
        intro i _
        change ((n + 1 : Nat) : Int) + i = n + (i + 1)
        omega

/-! ### Executions -/

/-- Every call drew a version id no version had. -/
def FreshVersionIds (steps : List (Step suite)) : Prop :=
  ∀ step ∈ steps, step.input.env.uuid4 ∉ step.before.versions.map VersionRow.versionId

instance (steps : List (Step suite)) : Decidable (FreshVersionIds steps) :=
  inferInstanceAs (Decidable (∀ step ∈ steps, _))

/-- What holds of the version histories of an execution. -/
structure HistoriesGapless (system : System Tables (Call suite) Outcome) : Prop where
  /-- The numbers of each secret are `1, …, n`, one row each. -/
  numbered : ∀ address, ∃ n, Numbered system.committed address n
  /-- No version row is removed. -/
  kept : ∀ step ∈ system.log, ∀ row ∈ step.before.versions,
    ∃ row' ∈ system.committed.versions, SameVersion row row'
  /-- A creation succeeds on a new secret and changes nothing on another. -/
  created : ∀ step ∈ system.log, ∀ workspaceId secretId value labels n,
    step.input.operation = .createSecret workspaceId secretId value labels →
    ValidLabels labels → step.input.env.Faultless → step.input.master.Takes suite value →
    Numbered step.before (workspaceId, secretId) n →
      (n = 0 → ∃ metadata, step.output.result = .ok (.metadata metadata)) ∧
      (n ≠ 0 → step.output.result = .error .secretAlreadyExists ∧ step.after = step.before)
  /-- A rotation adds the next version and leaves the other rows alone. -/
  rotated : ∀ step ∈ system.log, ∀ workspaceId secretId value labels intent reply (n : Nat),
    step.input.operation = .rotateSecret workspaceId secretId value labels intent →
    step.output.result = .ok reply → Numbered step.before (workspaceId, secretId) n →
      ∃ row, step.after.versions = step.before.versions ++ [row] ∧
        row.address = (workspaceId, secretId) ∧ row.versionNumber = (n : Int) + 1
  /-- The rotations of a secret number its versions consecutively. -/
  consecutive : ∀ earlier step steps later, system.log = earlier ++ step :: steps ++ later →
    ∀ address n, Numbered step.before address n → 1 ≤ n →
      ∃ k, rotatedNumbers address (step :: steps) =
        (numbering k).map fun i => (n : Int) + i
  /-- A rotation of a secret that exists never finds its version taken. -/
  available : ∀ step ∈ system.log, ∀ workspaceId secretId value labels intent n,
    step.input.operation = .rotateSecret workspaceId secretId value labels intent →
    ValidLabels labels → Numbered step.before (workspaceId, secretId) n → 1 ≤ n →
      step.output.result ≠ .error .secretAlreadyExists

theorem InsertRefused.of_valid {tables : Tables} {workspaceId secretId : String} {value : Bytes}
    {labels : TextDict} {versionNumber : Int} {raised : Raised}
    (hrefused : InsertRefused env master workspaceId secretId value labels versionNumber
      tables raised)
    (hlabels : ValidLabels labels) (hfaultless : env.Faultless)
    (htakes : master.Takes suite value) :
    (versionNumber > maxSqliteInteger ∧ raised = .overflowError) ∨
      ((workspaceId, secretId, env.uuid4) ∈ tables.versions.map VersionRow.key ∨
        (workspaceId, secretId, versionNumber) ∈ tables.versions.map VersionRow.numberKey) ∧
        raised = .secretAlreadyExists := by
  cases hrefused with
  | labels hclean =>
      obtain ⟨clean, hok⟩ := (cleanLabels_isOk_iff labels).mpr hlabels
      rw [hok] at hclean
      cases hclean
  | cipher hclean hnonce hencrypt =>
      obtain ⟨ciphertext, hok⟩ := htakes _ (aad _) hnonce
      rw [hok] at hencrypt
      cases hencrypt
  | overflow hnumber => exact .inl ⟨hnumber, rfl⟩
  | taken htaken => exact .inr ⟨htaken, rfl⟩
  | fault hfault => exact absurd hfault hfaultless.not_faults

/-- Only the first version of a secret can be created. -/
theorem Performs.creates {workspaceId secretId : String} {value : Bytes} {labels : TextDict}
    {n : Nat}
    (hperforms : Performs env master before (.createSecret workspaceId secretId value labels)
      reply after log)
    (hnumbered : Numbered before (workspaceId, secretId) n) :
    n = 0 ∧ ∃ metadata, reply = .metadata metadata := by
  cases hperforms with
  | @created _ _ _ _ metadata _ _ hinsert =>
      refine ⟨?_, metadata, rfl⟩
      cases hinsert with
      | intro hclean hencrypt hmaximum hkey hnumberKey =>
          rw [hnumbered.mem_iff] at hnumberKey
          omega

theorem Numbered.eq_zero_iff {tables : Tables} {workspaceId secretId : String} {n : Nat}
    (hnumbered : Numbered tables (workspaceId, secretId) n) :
    n = 0 ↔ ∀ row ∈ tables.versions, row.address ≠ (workspaceId, secretId) := by
  rw [← hnumbered.latest_eq_none_iff]
  unfold Tables.latestVersion
  rw [KeyedRows.latest_eq_none_iff]
  simp

/-- A creation on a numbered history: the first version goes in, any other is
refused. -/
theorem createSecret_numbered {tables : Tables} {call : Call suite}
    {workspaceId secretId : String} {value : Bytes} {labels : TextDict} {n : Nat}
    (hoperation : call.operation = .createSecret workspaceId secretId value labels)
    (hlabels : ValidLabels labels) (hfaultless : call.env.Faultless)
    (htakes : call.master.Takes suite value)
    (hnumbered : Numbered tables (workspaceId, secretId) n) :
    (n = 0 → ∃ metadata, (perform tables call).1.result = .ok (.metadata metadata)) ∧
      (n ≠ 0 → (perform tables call).1.result = .error .secretAlreadyExists ∧
        (perform tables call).2 = tables) := by
  rcases perform_cases tables call with ⟨reply, hresult, hperforms⟩ |
    ⟨raised, hresult, hrefuses, hsame⟩
  · rw [hoperation] at hperforms
    obtain ⟨hzero, metadata, rfl⟩ := hperforms.creates hnumbered
    exact ⟨fun _ => ⟨metadata, hresult⟩, fun hpositive => absurd hzero hpositive⟩
  · rw [hoperation] at hrefuses
    cases hrefuses with
    | fault hfault => exact absurd hfault hfaultless.not_faults
    | createRefused hrefused =>
        rcases hrefused.of_valid hlabels hfaultless htakes with ⟨hlarge, _⟩ | ⟨htaken, rfl⟩
        · exact absurd hlarge (by decide)
        · refine ⟨fun hzero => ?_, fun _ => ⟨hresult, hsame⟩⟩
          have hnone := hnumbered.eq_zero_iff.mp hzero
          rcases htaken with htaken | htaken
          · obtain ⟨row, hrow, hkey⟩ := List.mem_map.mp htaken
            simp only [VersionRow.key, Prod.mk.injEq] at hkey
            exact absurd (by rw [VersionRow.address, hkey.1, hkey.2.1]) (hnone row hrow)
          · rw [hnumbered.mem_iff] at htaken
            omega

theorem rotateSecret_numbered {workspaceId secretId : String}
    {value : Bytes} {labels : TextDict} {intent : Option String} {n : Nat}
    (hperforms : Performs env master before
      (.rotateSecret workspaceId secretId value labels intent) reply after log)
    (hnumbered : Numbered before (workspaceId, secretId) n) :
    ∃ row, after.versions = before.versions ++ [row] ∧
      row.address = (workspaceId, secretId) ∧ row.versionNumber = (n : Int) + 1 := by
  cases hperforms with
  | rotated hlatest hmetadata hintent hinsert =>
      cases hinsert
      refine ⟨_, rfl, rfl, ?_⟩
      rw [← (hnumbered.latest hlatest).1]
      rfl

/-- The next number is free, so only a repeated version id can be taken. -/
theorem InsertRefused.not_taken {tables : Tables} {workspaceId secretId : String}
    {value : Bytes} {labels : TextDict} {latest : VersionRow} {n : Nat}
    (hrefused : InsertRefused env master workspaceId secretId value labels
      (latest.versionNumber + 1) tables .secretAlreadyExists)
    (hlatest : tables.latestVersion workspaceId secretId = some latest)
    (hfresh : env.uuid4 ∉ tables.versions.map VersionRow.versionId)
    (hnumbered : Numbered tables (workspaceId, secretId) n) : False := by
  cases hrefused with
  | labels hclean => cases cleanLabels_error hclean
  | cipher hclean hnonce hencrypt =>
      rcases MasterKey.encrypt_error hencrypt with hraised | hraised <;> cases hraised
  | taken htaken =>
      rcases htaken with htaken | htaken
      · obtain ⟨row, hrow, hkey⟩ := List.mem_map.mp htaken
        simp only [VersionRow.key, Prod.mk.injEq] at hkey
        exact hfresh (List.mem_map.mpr ⟨row, hrow, hkey.2.2⟩)
      · rw [hnumbered.mem_iff, (hnumbered.latest hlatest).1] at htaken
        omega
  | fault hfault =>
      obtain ⟨_, _, _, hraised⟩ := hfault
      cases hraised

theorem rotateSecret_available {tables : Tables} {workspaceId secretId : String}
    {value : Bytes} {labels : TextDict} {intent : Option String} {n : Nat}
    (hfresh : env.uuid4 ∉ tables.versions.map VersionRow.versionId)
    (hnumbered : Numbered tables (workspaceId, secretId) n) :
    ¬ Refuses env master tables (.rotateSecret workspaceId secretId value labels intent)
      .secretAlreadyExists := by
  intro hrefuses
  cases hrefuses with
  | fault hfault =>
      obtain ⟨_, _, _, hraised⟩ := hfault
      cases hraised
  | rotateUnreadable hlatest hmetadata =>
      have hlisted := metadataFromRow_error hmetadata
      simp [readingErrors] at hlisted
  | rotateRefused hlatest hrefused =>
      exact hrefused.not_taken hlatest hfresh hnumbered

/-- Version histories are gapless and append-only, whatever the clients do. -/
theorem histories_gapless (events : List (Event (Call suite)))
    (hfresh : FreshVersionIds (runClients events).log) :
    HistoriesGapless (runClients events) := by
  obtain ⟨calls, hlog, hcommitted⟩ := runClients_serial events
  constructor
  · rw [hcommitted]
    exact (final_gapless calls).numbered
  · intro step hstep row hrow
    rw [hlog] at hstep
    rw [hcommitted]
    obtain ⟨earlier, call, later, rfl, rfl⟩ := mem_trace hstep
    have hextends := final_extends (final_consistent earlier) (call :: later)
    rw [← final_append] at hextends
    obtain ⟨row', hrow', hsame, _⟩ := hextends.versions row hrow
    exact ⟨row', hrow', hsame⟩
  · intro step hstep workspaceId secretId value labels n hoperation hlabels hfaultless htakes
      hnumbered
    rw [hlog] at hstep
    obtain ⟨earlier, call, later, rfl, rfl⟩ := mem_trace hstep
    exact createSecret_numbered hoperation hlabels hfaultless htakes hnumbered
  · intro step hstep workspaceId secretId value labels intent reply n hoperation hresult
      hnumbered
    rw [hlog] at hstep
    obtain ⟨earlier, call, later, rfl, rfl⟩ := mem_trace hstep
    have hperforms := performs_of_ok hresult
    change call.operation = _ at hoperation
    rw [hoperation] at hperforms
    exact rotateSecret_numbered hperforms hnumbered
  · intro earlier step steps later hsplit address n hnumbered hpositive
    rw [hlog, List.append_assoc] at hsplit
    obtain ⟨first, second, rfl, rfl, hrest⟩ := trace_eq_append hsplit
    obtain ⟨middle, last, rfl, hmiddle, _⟩ := trace_eq_append hrest.symm
    cases middle with
    | nil => cases hmiddle
    | cons call middle =>
        have hfirst : step = entry perform (final perform Tables.empty first) call :=
          (List.cons.inj hmiddle).1
        rw [hfirst] at hnumbered
        rw [hmiddle]
        exact rotatedNumbers_trace (final_consistent first) hnumbered hpositive _
  · intro step hstep workspaceId secretId value labels intent n hoperation _ hnumbered _
      hresult
    have hid := hfresh step hstep
    rw [hlog] at hstep
    obtain ⟨earlier, call, later, rfl, rfl⟩ := mem_trace hstep
    have hrefuses := (refuses_of_error hresult).1
    change call.operation = _ at hoperation
    rw [hoperation] at hrefuses
    exact rotateSecret_available hid hnumbered hrefuses

end

/-- Two clients rotate one secret, the second once the first has its lock back. -/
def rotations : List (Event (Call transparentSuite)) :=
  [.begin 0 (plainCall "a" (.createSecret "workspace" "secret" [1] ⟨[], List.nodup_nil⟩)),
    .commit 0,
    .begin 1 (plainCall "b" (.rotateSecret "workspace" "secret" [2] ⟨[], List.nodup_nil⟩ none)),
    .begin 2 (plainCall "c" (.rotateSecret "workspace" "secret" [3] ⟨[], List.nodup_nil⟩ none)),
    .commit 1,
    .begin 2 (plainCall "c" (.rotateSecret "workspace" "secret" [3] ⟨[], List.nodup_nil⟩ none)),
    .commit 2]

theorem histories_gapless_rotations : HistoriesGapless (runClients rotations) :=
  histories_gapless rotations (by decide +kernel)

end SecretsCustody
