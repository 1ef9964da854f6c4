/-
What a log says of each version: the metadata last written, the encryption last
made and the bytes it was inserted with.  The row of a version agrees with all
three in every reachable database.
-/
import SecretsCustody.VersionHistory

namespace SecretsCustody

open History JsonText KeyedRows

/-- The version an encryption was made for. -/
def Encryption.versionKey (encryption : Encryption) : Option (String × String × String) :=
  match encryption.associated with
  | .version metadata => some metadata.key
  | .custody _ => none

section

variable {suite : CryptoSuite}

/-- The metadata the calls that returned wrote, oldest first. -/
def writtenIn (steps : List (Step suite)) : List SecretMetadata :=
  steps.flatMap fun step =>
    match step.output.result with
    | .ok reply => wrote step.input.operation reply
    | .error _ => []

/-- The encryptions of the calls that returned. -/
def encryptedIn (steps : List (Step suite)) : List Encryption :=
  steps.flatMap fun step =>
    match step.output.result with
    | .ok _ => step.output.encryptions
    | .error _ => []

/-- The versions the calls that returned inserted, with the bytes given. -/
def insertedIn (steps : List (Step suite)) : List (SecretMetadata × Bytes) :=
  steps.filterMap fun step =>
    match step.output.result with
    | .ok reply => inserted step.input.env step.input.operation reply
    | .error _ => none

def insertionKey (insertion : SecretMetadata × Bytes) : String × String × String :=
  insertion.1.key

section

variable {tables : Tables} {call : Call suite} (steps : List (Step suite))

theorem written_append_of_ok {reply : Reply}
    (hresult : (perform tables call).1.result = .ok reply) :
    writtenIn (steps ++ [entry perform tables call]) =
      writtenIn steps ++ wrote call.operation reply := by
  simp [writtenIn, entry, hresult]

theorem encrypted_append_of_ok {reply : Reply}
    (hresult : (perform tables call).1.result = .ok reply) :
    encryptedIn (steps ++ [entry perform tables call]) =
      encryptedIn steps ++ (perform tables call).1.encryptions := by
  simp [encryptedIn, entry, hresult]

theorem insertions_append_of_ok {reply : Reply}
    (hresult : (perform tables call).1.result = .ok reply) :
    insertedIn (steps ++ [entry perform tables call]) =
      insertedIn steps ++ (inserted call.env call.operation reply).toList := by
  simp only [insertedIn, entry, List.filterMap_append, List.filterMap_cons, hresult,
    List.filterMap_nil]
  cases inserted call.env call.operation reply <;> rfl

/-- A call that raised adds nothing to any of the three. -/
theorem append_of_error {raised : Raised}
    (hresult : (perform tables call).1.result = .error raised) :
    writtenIn (steps ++ [entry perform tables call]) = writtenIn steps ∧
      encryptedIn (steps ++ [entry perform tables call]) = encryptedIn steps ∧
      insertedIn (steps ++ [entry perform tables call]) = insertedIn steps := by
  simp [writtenIn, encryptedIn, insertedIn, entry, hresult]

end

/-- What a log says of one version row, under one master key. -/
structure Recorded (key : Bytes) (steps : List (Step suite)) (row : VersionRow)
    (metadata : SecretMetadata) (value : Bytes) : Prop where
  reads : metadataFromRow row = .ok metadata
  written : findLast SecretMetadata.key (writtenIn steps) row.key = some metadata
  encrypted : ∃ encryption,
    findLast Encryption.versionKey (encryptedIn steps) (some row.key) = some encryption ∧
      encryption.associated = .version metadata
  sealed : ∃ encryption, Seals suite encryption row metadata ∧ encryption.key = key ∧
    encryption.plaintext = value
  inserted : ∃ original, findLast insertionKey (insertedIn steps) row.key =
    some (original, value) ∧ metadata.labels = original.labels
  algorithm : metadata.algorithm = algorithm
  fingerprint : ∀ master : MasterKey, master.key = key →
    metadata.keyFingerprint = master.fingerprint suite

/-- A recorded row decrypts to the bytes the version was inserted with. -/
theorem Recorded.decrypts (hsuite : suite.DecryptsOwn) {key : Bytes} {steps : List (Step suite)}
    {row : VersionRow} {metadata : SecretMetadata} {value : Bytes}
    (hrecorded : Recorded key steps row metadata value) {master : MasterKey}
    (hkey : master.key = key) : decryptRow suite master row = .ok value := by
  obtain ⟨encryption, hseals, hsame, rfl⟩ := hrecorded.sealed
  exact hseals.decrypts hsuite (hsame.trans hkey.symm) hrecorded.algorithm
    (hrecorded.fingerprint master hkey)

/-- Every version row is recorded. -/
def AllRecorded (key : Bytes) (steps : List (Step suite)) (tables : Tables) : Prop :=
  ∀ row ∈ tables.versions, ∃ metadata value, Recorded key steps row metadata value

section

variable {env : Env suite} {master : MasterKey} {before after : Tables}
variable {operation : Operation} {reply : Reply} {log : List Encryption}

/-- The metadata a call wrote under the key of a row it left is that row's. -/
theorem VersionsEffect.wrote_eq
    (heffect : VersionsEffect env master before operation reply after log)
    (hunique : Unique VersionRow.key after.versions) {row : VersionRow}
    (hrow : row ∈ after.versions) {metadata found : SecretMetadata}
    (hreads : metadataFromRow row = .ok metadata) (hfound : found ∈ wrote operation reply)
    (hkey : found.key = row.key) : found = metadata := by
  obtain ⟨other, hother, hreads'⟩ := heffect.returned found hfound
  have hsame := hunique.eq_of_key hother hrow
    ((metadataFromRow_describes hreads').key.symm.trans hkey)
  rw [hsame, hreads] at hreads'
  exact (Except.ok.inj hreads').symm

/-- The encryptions a call made for a row it left were made under its metadata. -/
theorem VersionsEffect.associated_eq
    (heffect : VersionsEffect env master before operation reply after log)
    (hunique : Unique VersionRow.key after.versions) {row : VersionRow}
    (hrow : row ∈ after.versions) {metadata : SecretMetadata} {encryption : Encryption}
    (hreads : metadataFromRow row = .ok metadata) (hlog : encryption ∈ log)
    (hkey : encryption.versionKey = some row.key) :
    encryption.associated = .version metadata := by
  obtain ⟨other, hother, found, hassociated, hreads'⟩ := heffect.encrypted encryption hlog
  have hfound : found.key = row.key := by
    rw [Encryption.versionKey, hassociated] at hkey
    exact Option.some.inj hkey
  have hsame := hunique.eq_of_key hother hrow
    ((metadataFromRow_describes hreads').key.symm.trans hfound)
  rw [hsame, hreads] at hreads'
  rw [hassociated, Except.ok.inj hreads']

/-- What one call that returned adds to the record of a row it left. -/
theorem VersionsEffect.recorded {steps steps' : List (Step suite)}
    (heffect : VersionsEffect env master before operation reply after log)
    (hunique : Unique VersionRow.key after.versions)
    (hwritten : writtenIn steps' = writtenIn steps ++ wrote operation reply)
    (hencrypted : encryptedIn steps' = encryptedIn steps ++ log)
    {row : VersionRow} (hrow : row ∈ after.versions) {metadata : SecretMetadata}
    (hreads : metadataFromRow row = .ok metadata)
    (hwrote : findLast SecretMetadata.key (writtenIn steps) row.key = some metadata ∨
      metadata ∈ wrote operation reply)
    (hsealed : (∃ encryption,
        findLast Encryption.versionKey (encryptedIn steps) (some row.key) = some encryption ∧
          encryption.associated = .version metadata) ∨
      ∃ encryption ∈ log, encryption.associated = .version metadata) :
    findLast SecretMetadata.key (writtenIn steps') row.key = some metadata ∧
      ∃ encryption,
        findLast Encryption.versionKey (encryptedIn steps') (some row.key) = some encryption ∧
          encryption.associated = .version metadata := by
  have hkey : metadata.key = row.key := (metadataFromRow_describes hreads).key
  constructor
  · rw [hwritten]
    apply findLast_append_eq
    · intro found hfound hfoundKey
      exact heffect.wrote_eq hunique hrow hreads hfound hfoundKey
    · rcases hwrote with hwrote | hwrote
      · exact .inl hwrote
      · exact .inr ⟨metadata, hwrote, hkey⟩
  · rw [hencrypted, findLast_append]
    cases hlast : findLast Encryption.versionKey log (some row.key) with
    | some encryption =>
        obtain ⟨hmem, hlastKey⟩ := findLast_eq_some hlast
        exact ⟨encryption, rfl, heffect.associated_eq hunique hrow hreads hmem hlastKey⟩
    | none =>
        rcases hsealed with hsealed | ⟨encryption, hmem, hassociated⟩
        · exact hsealed
        · have hfound : encryption.versionKey = some row.key := by
            rw [Encryption.versionKey, hassociated, ← hkey]
          exact absurd (hfound ▸ List.mem_map_of_mem hmem) (findLast_eq_none_iff.mp hlast)

theorem VersionsEffect.insertions_eq
    (heffect : VersionsEffect env master before operation reply after log)
    (steps : List (Step suite)) {row : VersionRow} (hrow : row ∈ before.versions) :
    findLast insertionKey (insertedIn steps ++ (inserted env operation reply).toList) row.key =
      findLast insertionKey (insertedIn steps) row.key := by
  rw [findLast_append]
  cases hlast : findLast insertionKey (inserted env operation reply).toList row.key with
  | none => rfl
  | some insertion =>
      obtain ⟨hmem, hkey⟩ := findLast_eq_some hlast
      rcases heffect.rows with ⟨change, added, hrows, hsteps, hadded⟩
      cases hadded with
      | none hinserted =>
          rw [hinserted] at hmem
          cases hmem
      | one hinserted hwritten hmetadata hclean hseals hsame hlog hfresh =>
          rw [hinserted, Option.toList_some, List.mem_singleton] at hmem
          subst hmem
          change _ = row.key at hkey
          exact absurd (List.mem_map.mpr ⟨row, hrow, hkey.symm⟩) hfresh

/-- A call that returned keeps every row recorded. -/
theorem Performs.allRecorded (hsuite : suite.DecryptsOwn) {steps steps' : List (Step suite)}
    (hperforms : Performs env master before operation reply after log)
    (hconsistent : Consistent before) (hrecorded : AllRecorded master.key steps before)
    (hwritten : writtenIn steps' = writtenIn steps ++ wrote operation reply)
    (hencrypted : encryptedIn steps' = encryptedIn steps ++ log)
    (hinsertions : insertedIn steps' =
      insertedIn steps ++ (inserted env operation reply).toList) :
    AllRecorded master.key steps' after := by
  have heffect := hperforms.versionsEffect hconsistent.versionKeys
  have hunique := heffect.versionKeys hconsistent.versionKeys
  rcases heffect.rows with ⟨change, added, hrows, hsteps, hadded⟩
  intro row' hrow'
  have hmem := hrow'
  rw [hrows, List.mem_append] at hmem
  rcases hmem with hmem | hmem
  · obtain ⟨row, hrow, rfl⟩ := List.mem_map.mp hmem
    obtain ⟨metadata, value, hold⟩ := hrecorded row hrow
    obtain ⟨original, horiginal, hlabels⟩ := hold.inserted
    have hsame := heffect.insertions_eq steps hrow
    have hstep := hsteps row hrow
    have hstepKey := hstep.sameVersion.key
    generalize change row = row' at hrow' hstep hstepKey
    cases hstep with
    | same =>
        obtain ⟨hwritten', hencrypted'⟩ := heffect.recorded hunique hwritten hencrypted hrow'
          hold.reads (.inl hold.written) (.inl hold.encrypted)
        exact ⟨metadata, value, {
          reads := hold.reads
          written := hwritten'
          encrypted := hencrypted'
          sealed := hold.sealed
          inserted := ⟨original, by rw [hinsertions, hsame, horiginal], hlabels⟩
          algorithm := hold.algorithm
          fingerprint := hold.fingerprint }⟩
    | @resealed found encryption hfound hactive hdecrypt hseals hkey hlog hwrote =>
        rw [hold.reads] at hfound
        cases hfound
        obtain ⟨hwritten', hencrypted'⟩ := heffect.recorded hunique hwritten hencrypted hrow'
          hseals.reads (.inr hwrote) (.inr ⟨encryption, hlog, hseals.associated⟩)
        have hvalue : encryption.plaintext = value :=
          Except.ok.inj (hdecrypt.symm.trans (hold.decrypts hsuite rfl))
        exact ⟨revokedMetadata metadata env.now, value, {
          reads := hseals.reads
          written := hwritten'
          encrypted := hencrypted'
          sealed := ⟨encryption, hseals, hkey, hvalue⟩
          inserted := ⟨original, by rw [hinsertions, hstepKey, hsame, horiginal], hlabels⟩
          algorithm := hold.algorithm
          fingerprint := hold.fingerprint }⟩
  · cases hadded with
    | none => cases hmem
    | @one clean workspaceId secretId versionNumber metadata encryption hinserted hwrote
        hmetadata hclean hseals hkey hlog hfresh =>
        rw [List.mem_singleton] at hmem
        subst hmem
        obtain ⟨hwritten', hencrypted'⟩ := heffect.recorded hunique hwritten hencrypted hrow'
          hseals.reads (.inr hwrote) (.inr ⟨encryption, hlog, hseals.associated⟩)
        refine ⟨metadata, encryption.plaintext, {
          reads := hseals.reads
          written := hwritten'
          encrypted := hencrypted'
          sealed := ⟨encryption, hseals, hkey, rfl⟩
          inserted := ⟨metadata, ?_, rfl⟩
          algorithm := by rw [hmetadata, freshMetadata]
          fingerprint := ?_ }⟩
        · rw [hinsertions, hinserted]
          apply findLast_append_eq
          · intro found hfound _
            exact List.mem_singleton.mp hfound
          · exact .inr ⟨_, List.mem_singleton_self _, rfl⟩
        · intro other hother
          rw [hmetadata, freshMetadata, MasterKey.fingerprint, MasterKey.fingerprint, hother]

/-- Every call of a log held the master key. -/
def HoldsKey (key : Bytes) (steps : List (Step suite)) : Prop :=
  ∀ step ∈ steps, step.input.master.key = key

instance (key : Bytes) (steps : List (Step suite)) : Decidable (HoldsKey key steps) :=
  inferInstanceAs (Decidable (∀ step ∈ steps, _))

theorem HoldsKey.calls {key : Bytes} {tables : Tables} {calls : List (Call suite)}
    (hkey : HoldsKey key (trace perform tables calls)) :
    ∀ call ∈ calls, call.master.key = key := by
  intro call hcall
  rw [← @inputs_of_trace _ _ _ perform tables calls] at hcall
  obtain ⟨step, hstep, rfl⟩ := List.mem_map.mp hcall
  exact hkey step hstep

/-- Every run under one key keeps every row recorded. -/
theorem allRecorded_trace (hsuite : suite.DecryptsOwn) {key : Bytes} {calls : List (Call suite)}
    (hkeys : ∀ call ∈ calls, call.master.key = key) :
    Consistent (final perform Tables.empty calls) ∧
      AllRecorded key (trace perform Tables.empty calls) (final perform Tables.empty calls) := by
  refine @invariant_trace _ _ _ _
    (fun steps tables => Consistent tables ∧ AllRecorded key steps tables) _ _ ?_ ?_
  · exact ⟨consistent_empty, fun row hrow => by cases hrow⟩
  · rintro steps tables call hcall ⟨hconsistent, hrecorded⟩
    refine ⟨perform_consistent call hconsistent, ?_⟩
    rw [← hkeys call hcall] at hrecorded ⊢
    rcases perform_cases tables call with
      ⟨reply, hresult, hperforms⟩ | ⟨raised, hresult, _, hsame⟩
    · exact hperforms.allRecorded hsuite hconsistent hrecorded
        (written_append_of_ok steps hresult) (encrypted_append_of_ok steps hresult)
        (insertions_append_of_ok steps hresult)
    · obtain ⟨hwritten, hencrypted, hinsertions⟩ := append_of_error steps hresult
      rw [hsame]
      intro row hrow
      obtain ⟨metadata, value, hold⟩ := hrecorded row hrow
      exact ⟨metadata, value, { hold with
        written := by rw [hwritten]; exact hold.written
        encrypted := by rw [hencrypted]; exact hold.encrypted
        inserted := by rw [hinsertions]; exact hold.inserted }⟩

end

end

end SecretsCustody
