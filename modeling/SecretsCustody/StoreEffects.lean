/-
What a call that returned did to the version rows.  Every row stays as it was
or is sealed again as revoked; at most one row is new; and the metadata the
call returned and encrypted is the metadata of the rows it left.
-/
import SecretsCustody.StoreExits

namespace SecretsCustody

open JsonText

def SecretMetadata.key (metadata : SecretMetadata) : String × String × String :=
  (metadata.workspaceId, metadata.secretId, metadata.versionId)

def SecretMetadata.address (metadata : SecretMetadata) : String × String :=
  (metadata.workspaceId, metadata.secretId)

/-- The row a revocation leaves. -/
def VersionRow.resealed (row : VersionRow) (nonce ciphertext : Bytes) (revokedAt : String) :
    VersionRow :=
  { row with
    status := SecretStatus.revoked.value
    nonce := .blob nonce
    ciphertext := .blob ciphertext
    revokedAt := some revokedAt }

/-- The row holds an encryption made under its own metadata. -/
structure Seals (suite : CryptoSuite) (encryption : Encryption) (row : VersionRow)
    (metadata : SecretMetadata) : Prop where
  reads : metadataFromRow row = .ok metadata
  associated : encryption.associated = .version metadata
  nonce : row.nonce = .blob encryption.nonce
  ciphertext : row.ciphertext = .blob encryption.ciphertext
  shallow : row.limits.deepToWrite = false
  encrypted : suite.encrypt encryption.key encryption.nonce encryption.plaintext
    (aad metadata) = .ok encryption.ciphertext

/-- A row sealed under its metadata decrypts to what was encrypted for it. -/
theorem Seals.decrypts {suite : CryptoSuite} {master : MasterKey} {encryption : Encryption}
    {row : VersionRow} {metadata : SecretMetadata} (hsuite : suite.DecryptsOwn)
    (hseals : Seals suite encryption row metadata) (hkey : encryption.key = master.key)
    (halgorithm : metadata.algorithm = algorithm)
    (hfingerprint : metadata.keyFingerprint = master.fingerprint suite) :
    decryptRow suite master row = .ok encryption.plaintext := by
  refine decryptRow_eq_ok.mpr ⟨metadata, encryption.nonce, encryption.ciphertext, hseals.reads,
    halgorithm, hfingerprint, ?_, ?_, hseals.shallow, ?_⟩
  · rw [hseals.nonce]
    rfl
  · rw [hseals.ciphertext]
    rfl
  · apply hsuite
    rw [← hkey]
    exact hseals.encrypted

theorem metadataFromRow_resealed {row : VersionRow} {metadata : SecretMetadata}
    (hmetadata : metadataFromRow row = .ok metadata) (nonce ciphertext : Bytes)
    (revokedAt : String) :
    metadataFromRow (row.resealed nonce ciphertext revokedAt) =
      .ok (revokedMetadata metadata revokedAt) := by
  have hreads := metadataFromRow_eq_ok.mp hmetadata
  exact metadataFromRow_eq_ok.mpr
    { hreads with
      status := rfl
      revokedAt := rfl
      decodable := hreads.decodable
      labels := hreads.labels }

theorem MasterKey.encrypt_eq_ok {suite : CryptoSuite} {master : MasterKey}
    {nonce plaintext associated ciphertext : Bytes}
    (hencrypt : master.encrypt suite nonce plaintext associated = .ok ciphertext) :
    suite.encrypt master.key nonce plaintext associated = .ok ciphertext := by
  unfold MasterKey.encrypt at hencrypt
  cases hcipher : suite.encrypt master.key nonce plaintext associated with
  | error fault => rw [hcipher] at hencrypt; cases hencrypt
  | ok found => rw [hcipher] at hencrypt; cases hencrypt; rfl

/-! ### Writing operations and what they return -/

/-- The metadata a writing operation returned. -/
def wrote : Operation → Reply → List SecretMetadata
  | .createSecret _ _ _ _, .metadata metadata => [metadata]
  | .rotateSecret _ _ _ _ _, .metadata metadata => [metadata]
  | .revokeSecret _ _, .revoked metadata => metadata
  | .revokeSecretVersion _, .metadata metadata => [metadata]
  | .generateDelegationKey _, .generated key => [key.metadata]
  | _, _ => []

/-- The version an operation inserted, and the bytes it was given for it. -/
def inserted {suite : CryptoSuite} (env : Env suite) :
    Operation → Reply → Option (SecretMetadata × Bytes)
  | .createSecret _ _ value _, .metadata metadata => some (metadata, value)
  | .rotateSecret _ _ value _ _, .metadata metadata => some (metadata, value)
  | .generateDelegationKey _, .generated key =>
      if key.replayed then none
      else some (key.metadata, suite.privateBytes env.privateKey)
  | _, _ => none

section

variable {suite : CryptoSuite} (env : Env suite) (master : MasterKey)

/-- What can become of a version row in one call. -/
inductive RowStep (written : List SecretMetadata) (log : List Encryption) (row : VersionRow) :
    VersionRow → Prop
  | same : RowStep written log row row
  | resealed {metadata : SecretMetadata} {encryption : Encryption}
      (hmetadata : metadataFromRow row = .ok metadata) (hactive : metadata.status = .active)
      (hdecrypt : decryptRow suite master row = .ok encryption.plaintext)
      (hseals : Seals suite encryption
        (row.resealed encryption.nonce encryption.ciphertext env.now)
        (revokedMetadata metadata env.now))
      (hkey : encryption.key = master.key) (hlog : encryption ∈ log)
      (hwritten : revokedMetadata metadata env.now ∈ written) :
      RowStep written log row (row.resealed encryption.nonce encryption.ciphertext env.now)

/-- The rows one call adds: none, or the one its reply names. -/
inductive RowsAdded (before : Tables) (operation : Operation) (reply : Reply)
    (log : List Encryption) : List VersionRow → Prop
  | none (hinserted : inserted env operation reply = none) :
      RowsAdded before operation reply log []
  | one {clean : Labels} {workspaceId secretId : String} {versionNumber : Int}
      {metadata : SecretMetadata} {encryption : Encryption}
      (hinserted : inserted env operation reply = some (metadata, encryption.plaintext))
      (hwritten : metadata ∈ wrote operation reply)
      (hmetadata : metadata =
        freshMetadata suite env master workspaceId secretId clean versionNumber)
      (hclean : clean.IsText)
      (hseals : Seals suite encryption
        (versionRow metadata encryption.nonce encryption.ciphertext) metadata)
      (hkey : encryption.key = master.key) (hlog : encryption ∈ log)
      (hfresh : metadata.key ∉ before.versions.map VersionRow.key)
      (hnumber : (workspaceId, secretId, versionNumber) ∉
        before.versions.map VersionRow.numberKey)
      (hnext : (versionNumber = 1 ∨ ∃ latest, before.latestVersion workspaceId secretId =
        some latest ∧ versionNumber = latest.versionNumber + 1)) :
      RowsAdded before operation reply log
        [versionRow metadata encryption.nonce encryption.ciphertext]

/-- What a call that returned did to the version rows. -/
structure VersionsEffect (before : Tables) (operation : Operation) (reply : Reply)
    (after : Tables) (log : List Encryption) : Prop where
  rows : ∃ change added, after.versions = before.versions.map change ++ added ∧
    (∀ row ∈ before.versions, RowStep env master (wrote operation reply) log row (change row)) ∧
    RowsAdded env master before operation reply log added
  returned : ∀ metadata ∈ wrote operation reply, ∃ row ∈ after.versions,
    metadataFromRow row = .ok metadata
  encrypted : ∀ encryption ∈ log, ∃ row ∈ after.versions, ∃ metadata,
    encryption.associated = .version metadata ∧ metadataFromRow row = .ok metadata

end

section

variable {suite : CryptoSuite} {env : Env suite} {master : MasterKey} {tables tables' : Tables}
variable {log log' : List Encryption}

/-! ### Revocations -/

/-- The change one revocation makes. -/
def resealAt (row : VersionRow) (row' : VersionRow) (other : VersionRow) : VersionRow :=
  if other = row then row' else other

theorem SecretStatus.eq_active {status : SecretStatus} (hstatus : status ≠ .revoked) :
    status = .active := by
  cases status with
  | active => rfl
  | revoked => exact absurd rfl hstatus

/-- With unique keys a revocation reseals the row of the key and no other. -/
theorem updateVersion_eq {row : VersionRow} (hunique : KeyedRows.Unique VersionRow.key tables.versions)
    (hrow : row ∈ tables.versions) (nonce ciphertext : Bytes) (revokedAt : String) :
    tables.updateVersion row.key SecretStatus.revoked.value (.blob nonce) (.blob ciphertext)
        (some revokedAt) =
      { tables with
        versions := tables.versions.map (resealAt row (row.resealed nonce ciphertext revokedAt)) } := by
  unfold Tables.updateVersion
  congr 1
  apply List.map_congr_left
  intro other hother
  by_cases hkey : other.key = row.key
  · have hsame := hunique.eq_of_key hother hrow hkey
    subst hsame
    simp [resealAt, VersionRow.resealed]
  · have hne : other ≠ row := fun heq => hkey (heq ▸ rfl)
    simp [resealAt, hkey, hne]

theorem Revokes.effect {row : VersionRow} {metadata revoked : SecretMetadata}
    {written : List SecretMetadata} {later : List Encryption}
    (hrevokes : Revokes env master row env.now tables log revoked tables' log')
    (hmetadata : metadataFromRow row = .ok metadata) (hstatus : metadata.status ≠ .revoked)
    (hunique : KeyedRows.Unique VersionRow.key tables.versions) (hrow : row ∈ tables.versions)
    (hwritten : revoked ∈ written) (hlater : ∀ encryption ∈ log', encryption ∈ later) :
    ∃ row' encryption,
      tables' = { tables with versions := tables.versions.map (resealAt row row') } ∧
      RowStep env master written later row row' ∧ row'.key = row.key ∧
      metadataFromRow row' = .ok revoked ∧ revoked.status = .revoked ∧
      encryption.associated = .version revoked ∧ log' = log ++ [encryption] := by
  cases hrevokes with
  | intro hfound hdecrypt hencrypt =>
      rw [hmetadata] at hfound
      cases hfound
      rename_i plaintext ciphertext
      have hshallow := decryptRow_shallow hdecrypt
      have hseals : Seals suite
          ⟨master.key, env.urandom log.length, plaintext,
            .version (revokedMetadata metadata env.now), ciphertext⟩
          (row.resealed (env.urandom log.length) ciphertext env.now)
          (revokedMetadata metadata env.now) :=
        ⟨metadataFromRow_resealed hmetadata _ _ _, rfl, rfl, rfl, hshallow,
          MasterKey.encrypt_eq_ok hencrypt⟩
      exact ⟨row.resealed (env.urandom log.length) ciphertext env.now, _,
        updateVersion_eq hunique hrow _ _ _,
        .resealed hmetadata (SecretStatus.eq_active hstatus) hdecrypt hseals rfl
          (hlater _ (List.mem_append_right _ List.mem_cons_self)) hwritten,
        rfl, hseals.reads, rfl, rfl, rfl⟩

theorem RevokesEach.log_subset {rows : List VersionRow} {revoked : List SecretMetadata}
    {revokedAt : String}
    (heach : RevokesEach env master revokedAt rows tables log revoked tables' log') :
    ∀ encryption ∈ log, encryption ∈ log' := by
  induction heach with
  | nil => exact fun _ hmem => hmem
  | kept _ _ _ ih => exact ih
  | changed _ _ hrevokes _ ih =>
      cases hrevokes
      exact fun encryption hmem => ih encryption (List.mem_append_left _ hmem)

/-- What the loop of `revoke_secret` makes of the rows it was given: it changes no other,
returns their metadata, and encrypts for them alone. -/
structure RevisesEach {suite : CryptoSuite} (env : Env suite) (master : MasterKey)
    (written : List SecretMetadata) (later : List Encryption) (rows : List VersionRow)
    (revoked : List SecretMetadata) (log log' : List Encryption)
    (change : VersionRow → VersionRow) : Prop where
  same : ∀ row, row ∉ rows → change row = row
  steps : ∀ row ∈ rows, RowStep env master written later row (change row)
  reads : ∀ row ∈ rows, ∃ metadata, metadataFromRow (change row) = .ok metadata ∧
    metadata.status = .revoked
  returned : ∀ metadata ∈ revoked, ∃ row ∈ rows, metadataFromRow (change row) = .ok metadata
  logged : ∀ encryption ∈ log', encryption ∈ log ∨ ∃ row ∈ rows, ∃ metadata,
    encryption.associated = .version metadata ∧ metadataFromRow (change row) = .ok metadata

/-- A round on a row of its own, with the loop on the rows behind it. -/
theorem RevisesEach.cons {row : VersionRow} {rows : List VersionRow} {metadata : SecretMetadata}
    {revoked written : List SecretMetadata} {log middle log' later : List Encryption}
    {first change : VersionRow → VersionRow}
    (hrest : RevisesEach env master written later rows revoked middle log' change)
    (hother : row ∉ rows) (hfirst : ∀ other, other ≠ row → first other = other)
    (hstep : RowStep env master written later row (change (first row)))
    (hreads : metadataFromRow (change (first row)) = .ok metadata)
    (hstatus : metadata.status = .revoked)
    (hmiddle : ∀ encryption ∈ middle,
      encryption ∈ log ∨ encryption.associated = .version metadata) :
    RevisesEach env master written later (row :: rows) (metadata :: revoked) log log'
      (change ∘ first) := by
  have hbehind : ∀ other ∈ rows, (change ∘ first) other = change other := by
    intro other hmem
    rw [Function.comp, hfirst other fun heq => hother (heq ▸ hmem)]
  constructor
  · intro other hmem
    rw [List.mem_cons, not_or] at hmem
    rw [Function.comp, hfirst other hmem.1]
    exact hrest.same other hmem.2
  · intro other hmem
    rcases List.mem_cons.mp hmem with rfl | hmem
    · exact hstep
    · rw [hbehind other hmem]
      exact hrest.steps other hmem
  · intro other hmem
    rcases List.mem_cons.mp hmem with rfl | hmem
    · exact ⟨metadata, hreads, hstatus⟩
    · rw [hbehind other hmem]
      exact hrest.reads other hmem
  · intro found hmem
    rcases List.mem_cons.mp hmem with rfl | hmem
    · exact ⟨row, List.mem_cons_self, hreads⟩
    · obtain ⟨other, hmem', hfound⟩ := hrest.returned found hmem
      refine ⟨other, List.mem_cons_of_mem row hmem', ?_⟩
      rw [hbehind other hmem']
      exact hfound
  · intro encryption hmem
    rcases hrest.logged encryption hmem with hold | ⟨other, hmem', hnew⟩
    · rcases hmiddle encryption hold with hold | hassociated
      · exact .inl hold
      · exact .inr ⟨row, List.mem_cons_self, metadata, hassociated, hreads⟩
    · refine .inr ⟨other, List.mem_cons_of_mem row hmem', ?_⟩
      rw [hbehind other hmem']
      exact hnew

/-- The loop of `revoke_secret` changes the rows it was given and no other, and
returns their metadata. -/
theorem RevokesEach.effect {rows : List VersionRow} {revoked written : List SecretMetadata}
    {later : List Encryption}
    (heach : RevokesEach env master env.now rows tables log revoked tables' log')
    (hkeys : KeyedRows.Unique VersionRow.key rows)
    (hunique : KeyedRows.Unique VersionRow.key tables.versions)
    (hrows : ∀ row ∈ rows, row ∈ tables.versions)
    (hwritten : ∀ metadata ∈ revoked, metadata ∈ written)
    (hlater : ∀ encryption ∈ log', encryption ∈ later) :
    ∃ change : VersionRow → VersionRow,
      tables' = { tables with versions := tables.versions.map change } ∧
      RevisesEach env master written later rows revoked log log' change := by
  induction heach with
  | nil =>
      refine ⟨id, by simp, fun _ _ => rfl, ?_, ?_, ?_, fun _ hmem => .inl hmem⟩
      · simp
      · simp
      · simp
  | @kept row rows tables tables' log log' metadata revoked hmetadata hstatus hrest ih =>
      simp only [KeyedRows.Unique, List.map_cons, List.nodup_cons] at hkeys
      have hother : row ∉ rows := fun hmem => hkeys.1 (List.mem_map_of_mem hmem)
      obtain ⟨change, rfl, hchange⟩ := ih hkeys.2 hunique
        (fun other hmem => hrows other (List.mem_cons_of_mem row hmem))
        (fun found hmem => hwritten found (List.mem_cons_of_mem metadata hmem)) hlater
      have hsame : change (id row) = row := hchange.same row hother
      refine ⟨change ∘ id, rfl, hchange.cons hother (fun _ _ => rfl) ?_ ?_ hstatus
        fun _ hmem => .inl hmem⟩
      · rw [hsame]
        exact .same
      · rw [hsame]
        exact hmetadata
  | @changed row rows tables middle tables' log log' log'' metadata changed revoked hmetadata
      hstatus hrevokes hrest ih =>
      simp only [KeyedRows.Unique, List.map_cons, List.nodup_cons] at hkeys
      have hother : row ∉ rows := fun hmem => hkeys.1 (List.mem_map_of_mem hmem)
      rcases hrevokes.effect hmetadata hstatus hunique (hrows row List.mem_cons_self)
        (hwritten changed List.mem_cons_self)
        (fun encryption hmem => hlater encryption (hrest.log_subset encryption hmem)) with
        ⟨row', encryption, rfl, hstep, hkey, hreads, hstatus', hassociated, rfl⟩
      have hreseal : ∀ other, other ≠ row → resealAt row row' other = other :=
        fun other hne => if_neg hne
      have hmapped : KeyedRows.Unique VersionRow.key (tables.versions.map (resealAt row row')) := by
        apply hunique.map
        intro other _
        by_cases heq : other = row
        · rw [resealAt, if_pos heq, hkey, heq]
        · rw [hreseal other heq]
      obtain ⟨change, rfl, hchange⟩ := ih hkeys.2 hmapped
        (fun other hmem => by
          rw [← hreseal other fun heq => hother (heq ▸ hmem)]
          exact List.mem_map_of_mem (hrows other (List.mem_cons_of_mem row hmem)))
        (fun found hmem => hwritten found (List.mem_cons_of_mem changed hmem)) hlater
      -- The row it leaves has the key of the old one, so the rounds behind it pass it by.
      have hsame : change (resealAt row row' row) = row' := by
        rw [resealAt, if_pos rfl]
        apply hchange.same
        intro hmem
        rw [← hkey] at hkeys
        exact hkeys.1 (List.mem_map_of_mem hmem)
      refine ⟨change ∘ resealAt row row', by simp, hchange.cons hother hreseal ?_ ?_ hstatus' ?_⟩
      · rw [hsame]
        exact hstep
      · rw [hsame]
        exact hreads
      · intro found hmem
        rcases List.mem_append.mp hmem with hold | hnew
        · exact .inl hold
        · rw [List.mem_singleton.mp hnew]
          exact .inr hassociated

/-! ### Every operation -/

theorem versionsEffect_of_same {before after : Tables} {operation : Operation} {reply : Reply}
    (hsame : after.versions = before.versions) (hinserted : inserted env operation reply = none)
    (hreturned : ∀ metadata ∈ wrote operation reply, ∃ row ∈ before.versions,
      metadataFromRow row = .ok metadata) :
    VersionsEffect env master before operation reply after [] where
  rows := ⟨id, [], by simp [hsame], fun _ _ => .same, .none hinserted⟩
  returned := by rwa [hsame]
  encrypted := by simp

/-- An insertion keeps the other rows and encrypts the one it adds. -/
theorem Inserts.versionsEffect {workspaceId secretId : String} {value : Bytes}
    {labels : TextDict} {versionNumber : Int} {metadata : SecretMetadata}
    {before middle after : Tables} {operation : Operation} {reply : Reply}
    (hinsert : Inserts env master workspaceId secretId value labels versionNumber before []
      metadata middle log)
    (hsame : after.versions = middle.versions)
    (hinserted : inserted env operation reply = some (metadata, value))
    (hwrote : wrote operation reply = [metadata])
    (hnext : (versionNumber = 1 ∨ ∃ latest, before.latestVersion workspaceId secretId =
      some latest ∧ versionNumber = latest.versionNumber + 1)) :
    VersionsEffect env master before operation reply after log := by
  cases hinsert with
  | intro hclean hencrypt hnumber hkey hnumberKey =>
      rename_i clean ciphertext
      have htext := cleanLabels_isText hclean
      have hseals : Seals suite
          ⟨master.key, env.urandom 0, value,
            .version (freshMetadata suite env master workspaceId secretId clean versionNumber),
            ciphertext⟩
          (versionRow (freshMetadata suite env master workspaceId secretId clean versionNumber)
            (env.urandom 0) ciphertext)
          (freshMetadata suite env master workspaceId secretId clean versionNumber) :=
        ⟨metadataFromRow_versionRow htext _ _, rfl, rfl, rfl, rfl,
          MasterKey.encrypt_eq_ok hencrypt⟩
      have hlast : versionRow
          (freshMetadata suite env master workspaceId secretId clean versionNumber)
          (env.urandom 0) ciphertext ∈ after.versions := by
        rw [hsame]
        exact List.mem_append_right _ List.mem_cons_self
      refine ⟨⟨id, _, by rw [hsame, List.map_id], fun _ _ => .same, ?_⟩, ?_, ?_⟩
      · exact .one hinserted (by rw [hwrote]; exact List.mem_cons_self) rfl htext hseals rfl
          List.mem_cons_self hkey hnumberKey hnext
      · rw [hwrote]
        intro metadata hmem
        rw [List.mem_singleton] at hmem
        subst hmem
        exact ⟨_, hlast, hseals.reads⟩
      · intro encryption hmem
        rw [List.nil_append, List.mem_singleton] at hmem
        subst hmem
        exact ⟨_, hlast, _, rfl, hseals.reads⟩

theorem allVersions_unique (hunique : KeyedRows.Unique VersionRow.key tables.versions)
    (workspaceId secretId : String) :
    KeyedRows.Unique VersionRow.key (tables.allVersions workspaceId secretId) := by
  unfold KeyedRows.Unique Tables.allVersions
  rw [((List.perm_insertionSort _ _).map _).nodup_iff]
  exact hunique.sublist (List.filter_sublist.map _)

/-- What any call that returned did to the version rows. -/
theorem Performs.versionsEffect {before after : Tables} {operation : Operation} {reply : Reply}
    (hperforms : Performs env master before operation reply after log)
    (hunique : KeyedRows.Unique VersionRow.key before.versions) :
    VersionsEffect env master before operation reply after log := by
  cases hperforms with
  | created hinsert => exact hinsert.versionsEffect rfl rfl rfl (.inl rfl)
  | rotated hlatest hmetadata hintent hinsert =>
      exact hinsert.versionsEffect rfl rfl rfl (.inr ⟨_, hlatest, rfl⟩)
  | generated hadmitted hfresh hkeyId hinsert haddress hevent =>
      exact hinsert.versionsEffect rfl rfl rfl (.inl rfl)
  | @revoked workspaceId secretId revoked _ _ hrows hrevokes =>
      have hmem : ∀ row ∈ before.allVersions workspaceId secretId, row ∈ before.versions :=
        fun row hrow => (Tables.mem_allVersions.mp hrow).1
      rcases hrevokes.effect (allVersions_unique hunique workspaceId secretId) hunique hmem
        (fun _ hwritten => hwritten) (fun _ hlater => hlater) with
        ⟨change, rfl, hsame, hsteps, -, hreturned, hlog⟩
      refine ⟨⟨change, [], by simp, ?_, .none rfl⟩, ?_, ?_⟩
      · intro row hrow
        by_cases hselected : row ∈ before.allVersions workspaceId secretId
        · exact hsteps row hselected
        · rw [hsame row hselected]
          exact .same
      · intro metadata hwritten
        obtain ⟨row, hrow, hreads⟩ := hreturned metadata hwritten
        exact ⟨change row, List.mem_map_of_mem (hmem row hrow), hreads⟩
      · intro encryption hencrypted
        rcases hlog encryption hencrypted with hold | ⟨row, hrow, metadata, hassociated, hreads⟩
        · cases hold
        · exact ⟨change row, List.mem_map_of_mem (hmem row hrow), metadata, hassociated, hreads⟩
  | @revokedVersion args row metadata revoked middle _ hfresh htarget hrow hmetadata hnumber
      hstatus hrevokes hevent =>
      have hmem := (Tables.selectVersion_eq_some hrow).1
      rcases hrevokes.effect hmetadata hstatus hunique hmem (List.mem_singleton_self revoked)
        (fun _ hlater => hlater) with
        ⟨row', encryption, rfl, hstep, hkey, hreads, hrevoked, hassociated, rfl⟩
      have hchanged : row' ∈ before.versions.map (resealAt row row') := by
        have hhere := List.mem_map_of_mem (f := resealAt row row') hmem
        rwa [resealAt, if_pos rfl] at hhere
      refine ⟨⟨resealAt row row', [], by simp, ?_, .none rfl⟩, ?_, ?_⟩
      · intro other _
        by_cases heq : other = row
        · subst heq
          rw [resealAt, if_pos rfl]
          exact hstep
        · rw [resealAt, if_neg heq]
          exact .same
      · intro found hwritten
        rw [List.mem_singleton.mp hwritten]
        exact ⟨row', hchanged, hreads⟩
      · intro found hencrypted
        rw [List.nil_append, List.mem_singleton] at hencrypted
        subst hencrypted
        exact ⟨row', hchanged, revoked, hassociated, hreads⟩
  | @revocationReplayed args existing row metadata hexisting hagrees hrow hmetadata hnumber
      hstatus hevent =>
      refine versionsEffect_of_same rfl rfl ?_
      intro found hwritten
      rw [List.mem_singleton.mp hwritten]
      exact ⟨row, (Tables.selectVersion_eq_some hrow).1, hmetadata⟩
  | @generationReplayed args existing secretRow key hadmitted hexisting hagrees hrow hkey
      hevent =>
      obtain ⟨hregenerated, hreplayed⟩ := regenerated_eq_ok.mp hkey
      refine versionsEffect_of_same rfl (by simp [inserted, hreplayed]) ?_
      intro found hwritten
      rw [List.mem_singleton.mp hwritten]
      exact ⟨secretRow, (Tables.selectVersion_eq_some hrow).1, hregenerated.reads⟩
  | resolved hrow hresolve =>
      exact versionsEffect_of_same rfl rfl fun _ hwritten => by cases hwritten
  | selected hfresh hselected hmetadata hstatus hintent hrow hresolve =>
      exact versionsEffect_of_same rfl rfl fun _ hwritten => by cases hwritten
  | reselected hexisting hagrees hrow hresolve =>
      exact versionsEffect_of_same rfl rfl fun _ hwritten => by cases hwritten
  | described hrow hmetadata =>
      exact versionsEffect_of_same rfl rfl fun _ hwritten => by cases hwritten

end

end SecretsCustody
