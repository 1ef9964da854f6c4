/-
Failing closed.  After an honest execution, whatever is written into the version rows, a load
path answers as it would have or raises an error of the store, unless what was written breaks
the decoding itself.
-/
import SecretsCustody.AnsweredOnce
import SecretsCustody.Loads

namespace SecretsCustody

open Effect History JsonText KeyedRows

/-- The subclasses of `SecretStoreError`. -/
def storeErrors : List Raised :=
  [.secretMissing, .secretAlreadyExists, .secretResolutionConflict,
    .secretVersionRevocationConflict, .delegationKeyGenerationConflict, .secretIntentMismatch,
    .secretRevoked, .secretTampered, .secretMetadataInvalid]

/-! ### Rows that break their decoding -/

/-- The labels a row decodes to, if any. -/
def VersionRow.labels (row : VersionRow) : Option Labels :=
  row.loadLabels.toOption

/-- A text of the row is no UTF-8, the status is none of `SecretStatus`, or the labels are no JSON
text of a label map that the limits let through. -/
def VersionRow.Malformed (row : VersionRow) : Prop :=
  row.limits.undecodable = true ∨ SecretStatus.ofValue row.status = none ∨ row.labels = none

/-- Reading the row raises what the handler of a replay lets through. -/
def VersionRow.Unreadable (row : VersionRow) : Prop :=
  row.limits.undecodable = true ∨
    SecretStatus.ofValue row.status ≠ none ∧ row.limits.deepToRead = true

/-- `bytes(value)` is defined. -/
def SqlValue.IsBytes (memory : Nat) : SqlValue → Prop
  | .blob _ => True
  | .integer value => 0 ≤ value ∧ value.toNat ≤ maxBytesLength ∧ value.toNat ≤ memory
  | .null => False
  | .real => False
  | .text _ => False

/-- A pair with a key that is no text, list or map.  Such a key goes into a `dict`, but into no
label map here. -/
def ForeignPair : Json → Prop
  | .arr [.null, _] => True
  | .arr [.bool _, _] => True
  | .arr [.int _, _] => True
  | .arr [.float _, _] => True
  | _ => False

/-- The labels are written as pairs that make a `dict`, one of them under such a key. -/
def VersionRow.Foreign (row : VersionRow) : Prop :=
  ∃ items, loads row.limits.deepToRead row.labelsJson = .ok (.arr items) ∧
    (∃ item ∈ items, ForeignPair item) ∧
    ∀ item ∈ items, ForeignPair item ∨ ∃ pair, pairOf item = .ok pair

/-- The arguments of the decryption cannot be made: `bytes` refuses the nonce or the ciphertext,
or the labels are too deep to write. -/
def VersionRow.Unprepared (row : VersionRow) : Prop :=
  ¬ row.nonce.IsBytes row.limits.memory ∨ ¬ row.ciphertext.IsBytes row.limits.memory ∨
    row.limits.deepToWrite = true

/-- The labels are those the load expects. -/
def Load.Fits : Load → Labels → Prop
  | .resolution _ intent, labels => ∀ expected ∈ intent, labels.has "intent" expected = true
  | .replay _ generation intent, labels => ∃ keyId, generation.keyId = .text keyId ∧
      labels.matchesTexts
        (generationTexts intent generation.purpose generation.issuer keyId) = true

/-- The row passes every check before its bytes are read. -/
structure Load.Reaches (suite : CryptoSuite) (master : MasterKey) (load : Load) : Prop where
  decodable : load.row.limits.undecodable = false
  status : load.row.status = SecretStatus.active.value
  labels : ∃ labels, load.row.labels = some labels ∧ load.Fits labels
  algorithm : load.row.algorithm = SecretsCustody.algorithm
  keyFingerprint : load.row.keyFingerprint = master.fingerprint suite

/-- What breaks a load: a resolution decodes a malformed row, of which a replay takes all but the
unreadable ones for tampered; or nothing stops the load before arguments that cannot be made. -/
inductive Load.Spoiled (suite : CryptoSuite) (master : MasterKey) : Load → Prop
  | malformed {row : VersionRow} {intent : Option String} (hmalformed : row.Malformed) :
      Load.Spoiled suite master (.resolution row intent)
  | unreadable {row : VersionRow} {generation : GenerationRow} {intent : String}
      (hunreadable : row.Unreadable) : Load.Spoiled suite master (.replay row generation intent)
  | unprepared {load : Load} (hreaches : load.Reaches suite master)
      (hunprepared : load.row.Unprepared) : Load.Spoiled suite master load

section

variable {suite : CryptoSuite} {master : MasterKey} {row : VersionRow} {raised : Raised}
variable {metadata : SecretMetadata}

theorem VersionRow.labels_eq_some {labels : Labels} :
    row.labels = some labels ↔ row.loadLabels = .ok labels := by
  unfold VersionRow.labels
  cases row.loadLabels with
  | error raised => simp [Except.toOption]
  | ok found => simp [Except.toOption]

theorem labels_of_metadataFromRow (hreads : metadataFromRow row = .ok metadata) :
    row.labels = some metadata.labels :=
  VersionRow.labels_eq_some.mpr (metadataFromRow_eq_ok.mp hreads).labels

/-- A row that is fetched reads, with the labels it decodes to. -/
theorem metadataFromRow_of_labels {status : SecretStatus} {labels : Labels}
    (hdecodable : row.limits.undecodable = false) (hstatus : row.status = status.value)
    (hlabels : row.labels = some labels) :
    ∃ metadata, metadataFromRow row = .ok metadata ∧ metadata.status = status ∧
      metadata.labels = labels := by
  refine ⟨{
    workspaceId := row.workspaceId
    secretId := row.secretId
    versionId := row.versionId
    versionNumber := row.versionNumber
    status := status
    algorithm := row.algorithm
    keyFingerprint := row.keyFingerprint
    keyVersion := row.keyVersion
    labels := labels
    createdAt := row.createdAt
    revokedAt := row.revokedAt }, metadataFromRow_eq_ok.mpr ?_, rfl, rfl⟩
  exact ⟨⟨rfl, rfl, rfl, rfl, hstatus, rfl, rfl, rfl, rfl, rfl⟩, hdecodable,
    VersionRow.labels_eq_some.mp hlabels⟩

theorem metadataFromRow_malformed :
    (∃ raised, metadataFromRow row = .error raised) ↔ row.Malformed := by
  constructor
  · rintro ⟨raised, hraised⟩
    rcases metadataFromRow_eq_error.mp hraised with ⟨hundecodable, _⟩ | ⟨_, ⟨hstatus, _⟩ |
      ⟨_, hlabels⟩⟩
    · exact .inl hundecodable
    · exact .inr (.inl hstatus)
    · refine .inr (.inr ?_)
      rw [VersionRow.labels, hlabels]
      rfl
  · intro hmalformed
    cases hreads : metadataFromRow row with
    | error raised => exact ⟨raised, rfl⟩
    | ok metadata =>
        rcases hmalformed with hundecodable | hstatus | hlabels
        · rw [(metadataFromRow_eq_ok.mp hreads).decodable] at hundecodable
          cases hundecodable
        · rw [(metadataFromRow_describes hreads).status, SecretStatus.ofValue_value] at hstatus
          cases hstatus
        · rw [labels_of_metadataFromRow hreads] at hlabels
          cases hlabels

/-- The handler of a replay takes a row that does not read for tampered, but an unreadable one. -/
theorem readingTampered_of_error (hreads : metadataFromRow row = .error raised) :
    readingTampered raised = .secretTampered ∨ row.Unreadable := by
  rcases metadataFromRow_eq_error.mp hreads with ⟨hundecodable, _⟩ | ⟨_, ⟨_, rfl⟩ |
    ⟨hstatus, hlabels⟩⟩
  · exact .inr (.inl hundecodable)
  · exact .inl rfl
  · rcases loadLabels_error hlabels with ⟨hdeep, _⟩ | hlisted
    · exact .inr (.inr ⟨hstatus, hdeep⟩)
    · simp only [List.mem_cons, List.not_mem_nil, or_false] at hlisted
      rcases hlisted with rfl | rfl | rfl
      · exact .inl rfl
      · exact .inl rfl
      · exact .inl rfl

/-- An unreadable row is not taken for tampered. -/
theorem VersionRow.Unreadable.raises (hunreadable : row.Unreadable) :
    ∃ raised ∈ readingErrors, metadataFromRow row = .error raised ∧
      readingTampered raised = raised := by
  rcases hunreadable with hundecodable | ⟨hstatus, hdeep⟩
  · exact ⟨.sqlite .operational, by simp [readingErrors],
      metadataFromRow_eq_error.mpr (.inl ⟨hundecodable, rfl⟩), rfl⟩
  · cases hundecodable : row.limits.undecodable with
    | true =>
        exact ⟨.sqlite .operational, by simp [readingErrors],
          metadataFromRow_eq_error.mpr (.inl ⟨hundecodable, rfl⟩), rfl⟩
    | false =>
        have hlabels : row.loadLabels = .error .recursionError := by
          rw [VersionRow.loadLabels, loads_eq_recursion.mpr hdeep]
          rfl
        exact ⟨.recursionError, by simp [readingErrors],
          metadataFromRow_eq_error.mpr (.inr ⟨hundecodable, .inr ⟨hstatus, hlabels⟩⟩), rfl⟩

theorem SqlValue.IsBytes.bytes {memory : Nat} {value : SqlValue}
    (hbytes : value.IsBytes memory) : ∃ data, value.bytes memory = .ok data := by
  cases value with
  | blob data => exact ⟨data, rfl⟩
  | integer value =>
      obtain ⟨hsigned, hlength, hmemory⟩ := hbytes
      refine ⟨List.replicate value.toNat 0, ?_⟩
      rw [SqlValue.bytes, if_neg (not_lt.mpr hsigned), if_neg (not_lt.mpr hlength),
        if_neg (not_lt.mpr hmemory)]
  | null => cases hbytes
  | real => cases hbytes
  | text => cases hbytes

/-- The exceptions of `bytes`. -/
def bytesErrors : List Raised :=
  [.valueError, .typeError, .overflowError, .memoryError]

theorem SqlValue.bytes_error {memory : Nat} {value : SqlValue} (hbytes : ¬ value.IsBytes memory) :
    ∃ raised ∈ bytesErrors, value.bytes memory = .error raised := by
  cases value with
  | blob data => exact absurd trivial hbytes
  | integer value =>
      rw [SqlValue.bytes]
      by_cases hsigned : value < 0
      · exact ⟨.valueError, by simp [bytesErrors], if_pos hsigned⟩
      · rw [if_neg hsigned]
        by_cases hlength : maxBytesLength < value.toNat
        · exact ⟨.overflowError, by simp [bytesErrors], if_pos hlength⟩
        · rw [if_neg hlength]
          refine ⟨.memoryError, by simp [bytesErrors], if_pos ?_⟩
          by_contra hmemory
          exact hbytes ⟨not_lt.mp hsigned, not_lt.mp hlength, not_lt.mp hmemory⟩
  | null => exact ⟨.typeError, by simp [bytesErrors], rfl⟩
  | real => exact ⟨.typeError, by simp [bytesErrors], rfl⟩
  | text => exact ⟨.typeError, by simp [bytesErrors], rfl⟩

/-- A row the store wrote is prepared. -/
theorem prepared_versionRow (metadata : SecretMetadata) (nonce ciphertext : Bytes) :
    ¬ (versionRow metadata nonce ciphertext).Unprepared := by
  rintro (hnonce | hciphertext | hdeep)
  · exact hnonce trivial
  · exact hciphertext trivial
  · cases hdeep

/-- A row that reads is tampered with when it does not decrypt, unless what it is decrypted with
cannot be made. -/
theorem decryptRow_error (hreads : metadataFromRow row = .ok metadata)
    (hraised : decryptRow suite master row = .error raised) :
    raised = .secretTampered ∨ row.algorithm = algorithm ∧
      row.keyFingerprint = master.fingerprint suite ∧ row.Unprepared := by
  have hdescribes := metadataFromRow_describes hreads
  unfold decryptRow at hraised
  simp only [bind_eq_error, raiseIf_eq_error, raiseIf_eq_ok, hreads, not_not] at hraised
  rcases hraised with ⟨⟨⟩⟩ | ⟨_, ⟨rfl⟩, ⟨_, rfl⟩ | ⟨_, halgorithm, ⟨_, rfl⟩ | ⟨_, hfingerprint,
    hread⟩⟩⟩
  · exact .inl rfl
  · exact .inl rfl
  · rw [hdescribes.algorithm] at halgorithm
    rw [hdescribes.keyFingerprint] at hfingerprint
    rcases hread with hnonce | ⟨nonce, _, hciphertext | ⟨ciphertext, _, ⟨hdeep, _⟩ |
      ⟨_, _, hdecrypt⟩⟩⟩
    · refine .inr ⟨halgorithm, hfingerprint, .inl fun hbytes => ?_⟩
      obtain ⟨data, hdata⟩ := hbytes.bytes
      rw [hdata] at hnonce
      cases hnonce
    · refine .inr ⟨halgorithm, hfingerprint, .inr (.inl fun hbytes => ?_)⟩
      obtain ⟨data, hdata⟩ := hbytes.bytes
      rw [hdata] at hciphertext
      cases hciphertext
    · exact .inr ⟨halgorithm, hfingerprint, .inr (.inr hdeep)⟩
    · split at hdecrypt
      · cases hdecrypt
        exact .inl rfl
      · cases hdecrypt

/-- The exceptions of the decoding, none of which is an error of the store. -/
def decodingErrors : List Raised :=
  [.valueError, .typeError, .jsonDecodeError, .recursionError, .sqlite .operational,
    .overflowError, .memoryError]

theorem readingErrors_decoding : readingErrors ⊆ decodingErrors := by
  decide

theorem bytesErrors_decoding : bytesErrors ⊆ decodingErrors := by
  decide

theorem decodingErrors_not_store : ∀ raised ∈ decodingErrors, raised ∉ storeErrors := by
  decide

/-- Arguments that cannot be made are made before anything is decrypted. -/
theorem decryptRow_unprepared (hreads : metadataFromRow row = .ok metadata)
    (halgorithm : row.algorithm = algorithm)
    (hfingerprint : row.keyFingerprint = master.fingerprint suite)
    (hunprepared : row.Unprepared) :
    ∃ raised ∈ decodingErrors, decryptRow suite master row = .error raised := by
  have hdescribes := metadataFromRow_describes hreads
  have hnamed : ¬ metadata.algorithm ≠ algorithm := by
    rw [hdescribes.algorithm]
    exact not_not.mpr halgorithm
  have hkeyed : ¬ metadata.keyFingerprint ≠ master.fingerprint suite := by
    rw [hdescribes.keyFingerprint]
    exact not_not.mpr hfingerprint
  unfold decryptRow
  simp only [bind_eq_error, hreads, raiseIf_eq_ok]
  by_cases hnonce : row.nonce.IsBytes row.limits.memory
  · obtain ⟨nonce, hnonceData⟩ := hnonce.bytes
    by_cases hciphertext : row.ciphertext.IsBytes row.limits.memory
    · obtain ⟨ciphertext, hciphertextData⟩ := hciphertext.bytes
      have hdeep := (hunprepared.resolve_left (not_not.mpr hnonce)).resolve_left
        (not_not.mpr hciphertext)
      exact ⟨.recursionError, by simp [decodingErrors], .inr ⟨_, rfl, .inr ⟨(), hnamed, .inr
        ⟨(), hkeyed, .inr ⟨nonce, hnonceData, .inr ⟨ciphertext, hciphertextData, .inl
          (raiseIf_eq_error.mpr ⟨hdeep, rfl⟩)⟩⟩⟩⟩⟩⟩
    · obtain ⟨raised, hlisted, hraised⟩ := SqlValue.bytes_error hciphertext
      exact ⟨raised, bytesErrors_decoding hlisted, .inr ⟨_, rfl, .inr ⟨(), hnamed, .inr
        ⟨(), hkeyed, .inr ⟨nonce, hnonceData, .inl hraised⟩⟩⟩⟩⟩
  · obtain ⟨raised, hlisted, hraised⟩ := SqlValue.bytes_error hnonce
    exact ⟨raised, bytesErrors_decoding hlisted, .inr ⟨_, rfl, .inr ⟨(), hnamed, .inr
      ⟨(), hkeyed, .inl hraised⟩⟩⟩⟩

end

/-! ### What a load answers -/

/-- The answer gives a version as it was inserted; a key is the one its private half makes. -/
def Reply.Authentic {suite : CryptoSuite} (steps : List (Step suite)) :
    Reply → Prop
  | .resolved secret =>
      findLast insertionKey (insertedIn steps) secret.metadata.key =
        some (secret.metadata, secret.value)
  | .generated key => ∃ privatePem,
      findLast insertionKey (insertedIn steps) key.metadata.key = some (key.metadata, privatePem) ∧
        delegationMaterialMatches suite privatePem key.publicKeyPem key.keyId = .ok true
  | .metadata _ => False
  | .revoked _ => False

section

variable {suite : CryptoSuite} {master : MasterKey} {performed : List Encryption}
variable {events : List (Event (Call suite))} {load load' : Load} {reply : Reply}
variable {raised : Raised}

theorem generated_committed (events : List (Event (Call suite))) :
    AllGenerated (runClients events).log (runClients events).committed := by
  obtain ⟨calls, hlog, hcommitted⟩ := runClients_serial events
  rw [hlog, hcommitted]
  exact (allGenerated_trace calls).2

/-- What opens after it was written over opened before, and is what was inserted. -/
theorem Unforgeable.opens_load (hunforgeable : Unforgeable performed events)
    (hfound : load.Found (runClients events).committed) (hrewritten : load.Rewritten load')
    (hopens : load'.opens suite master = .ok reply) :
    load.opens suite master = .ok reply ∧ reply.Authentic (runClients events).log := by
  cases hrewritten with
  | @resolution row row' intent hrow =>
      change (resolveRow suite master row' intent).map Reply.resolved = _ at hopens
      cases hresolve : resolveRow suite master row' intent with
      | error raised =>
          rw [hresolve] at hopens
          cases hopens
      | ok secret =>
          rw [hresolve] at hopens
          cases hopens
          obtain ⟨hreads, hactive, hintent, hdecrypt⟩ := resolveRow_eq_ok.mp hresolve
          obtain ⟨hreads', hdecrypt', hinserted⟩ :=
            hunforgeable.opens hfound hrow hreads hactive hdecrypt
          constructor
          · exact opens_resolution (resolveRow_eq_ok.mpr ⟨hreads', hactive, hintent, hdecrypt'⟩)
          · rw [← (metadataFromRow_describes hreads').key] at hinserted
            exact hinserted
  | @replay row row' generation intent hrow =>
      change (regenerated suite master generation row' intent true).map Reply.generated = _
        at hopens
      cases hregenerated : regenerated suite master generation row' intent true with
      | error raised =>
          rw [hregenerated] at hopens
          cases hopens
      | ok key =>
          rw [hregenerated] at hopens
          cases hopens
          obtain ⟨hkey, hreplayed⟩ := regenerated_eq_ok.mp hregenerated
          obtain ⟨privatePem, hdecrypt, hmatches⟩ := hkey.material
          obtain ⟨hreads', hdecrypt', hinserted⟩ :=
            hunforgeable.opens hfound.1 hrow hkey.reads hkey.active hdecrypt
          have hhonest : Regenerated suite master generation row intent key :=
            { hkey with
              reads := hreads'
              material := ⟨privatePem, hdecrypt', hmatches⟩ }
          constructor
          · change (regenerated suite master generation row intent true).map Reply.generated = _
            rw [regenerated_eq_ok.mpr ⟨hhonest, hreplayed⟩]
            rfl
          · rw [← (metadataFromRow_describes hreads').key] at hinserted
            exact ⟨privatePem, hinserted, hmatches⟩

theorem not_lacksIntent_iff {metadata : SecretMetadata} {intent : Option String} :
    ¬ LacksIntent metadata intent ↔
      ∀ expected ∈ intent, metadata.labels.has "intent" expected = true := by
  simp [LacksIntent]

/-- The exceptions a load raises on its row while nothing breaks it. -/
def loadErrors : List Raised :=
  [.secretRevoked, .secretIntentMismatch, .secretTampered]

/-- A row that decrypts no more was tampered with, or cannot be decrypted. -/
theorem decrypt_load_error {row : VersionRow} {metadata : SecretMetadata}
    (hrow : load.row = row) (hreads : metadataFromRow row = .ok metadata)
    (hactive : metadata.status ≠ .revoked) (hfits : load.Fits metadata.labels)
    (hraised : decryptRow suite master row = .error raised) :
    load.Spoiled suite master ∨ raised ∈ loadErrors := by
  subst hrow
  rcases decryptRow_error hreads hraised with rfl | ⟨halgorithm, hfingerprint, hunprepared⟩
  · exact .inr (by simp [loadErrors])
  · have hstatus : load.row.status = SecretStatus.active.value := by
      rw [(metadataFromRow_describes hreads).status, SecretStatus.eq_active hactive]
    exact .inl (.unprepared ⟨(metadataFromRow_eq_ok.mp hreads).decodable, hstatus,
      ⟨_, labels_of_metadataFromRow hreads, hfits⟩, halgorithm, hfingerprint⟩ hunprepared)

/-- A resolution that is not spoiled raises errors of the store only. -/
theorem resolution_error {row : VersionRow} {intent : Option String}
    (hraised : resolveRow suite master row intent = .error raised) :
    (Load.resolution row intent).Spoiled suite master ∨ raised ∈ loadErrors := by
  rcases resolveRow_eq_error.mp hraised with hmetadata |
    ⟨metadata, hreads, ⟨_, rfl⟩ | ⟨hactive, ⟨_, rfl⟩ | ⟨hintent, hdecrypt⟩⟩⟩
  · exact .inl (.malformed (metadataFromRow_malformed.mp ⟨raised, hmetadata⟩))
  · exact .inr (by simp [loadErrors])
  · exact .inr (by simp [loadErrors])
  · exact decrypt_load_error rfl hreads hactive (not_lacksIntent_iff.mp hintent) hdecrypt

/-- A replay that is not spoiled raises errors of the store only: what decrypts is the private
half that was inserted. -/
theorem replay_error (hmaterial : suite.KeyMaterial)
    (hunforgeable : Unforgeable performed events) {row row' : VersionRow}
    {generation : GenerationRow} {intent : String}
    (hfound : (Load.replay row generation intent).Found (runClients events).committed)
    (hrewritten : Rewritten row row')
    (hraised : regenerated suite master generation row' intent true = .error raised) :
    (Load.replay row' generation intent).Spoiled suite master ∨ raised ∈ loadErrors := by
  unfold regenerated at hraised
  simp only [bind_eq_error, raiseIf_eq_error, raiseIf_eq_ok, mapError_eq_ok, mapError_eq_error]
    at hraised
  rcases hraised with ⟨_, hunread, rfl⟩ | ⟨metadata, hreads, ⟨_, rfl⟩ | ⟨_, hactive, hbounded |
    ⟨identity, hbounded, ⟨_, rfl⟩ | ⟨_, hfits, hdecrypt | ⟨privatePem, hdecrypt, hmaterials |
      ⟨_, _, ⟨_, rfl⟩ | ⟨_, _, ⟨⟩⟩⟩⟩⟩⟩⟩⟩
  · rcases readingTampered_of_error hunread with htampered | hunreadable
    · exact .inr (by simp [htampered, loadErrors])
    · exact .inl (.unreadable hunreadable)
  · exact .inr (by simp [loadErrors])
  · rw [requireBounded_error hbounded]
    exact .inr (by simp [loadErrors])
  · exact .inr (by simp [loadErrors])
  · rw [not_or, Bool.not_eq_false] at hfits
    exact decrypt_load_error rfl hreads hactive
      ⟨identity.2, (requireBounded_eq_ok.mp hbounded).2.1, hfits.1⟩ hdecrypt
  · obtain ⟨hmem, hgeneration, htarget⟩ := hfound
    obtain ⟨privateKey, keyId, made, hfrom⟩ :=
      generated_committed events generation hgeneration
    obtain ⟨_, _, hinserted⟩ := hunforgeable.opens hmem hrewritten hreads hactive hdecrypt
    obtain ⟨original, horiginal, _⟩ := hfrom.inserted
    rw [htarget, horiginal] at hinserted
    cases hinserted
    rw [delegationMaterialMatches, hmaterial.load_private] at hmaterials
    cases hmaterials
  · exact .inr (by simp [loadErrors])

/-- The public identity a generation recorded is within its bounds. -/
theorem GeneratedFrom.bounded {steps : List (Step suite)} {generation : GenerationRow}
    {privateKey : suite.PrivateKey} {keyId intent : String} (hmaterial : suite.KeyMaterial)
    (hfrom : GeneratedFrom steps generation privateKey keyId intent) :
    requireBoundedDelegationPublicIdentity generation.publicKeyPem generation.keyId =
      .ok (suite.publicPem privateKey, keyId) := by
  apply requireBounded_eq_ok.mpr
  refine ⟨hfrom.rowPem, hfrom.rowKeyId, hmaterial.public_length privateKey, ?_⟩
  rw [delegationKeyId_length hmaterial hfrom.identity]
  decide

/-- Once everything else fits the arguments of the decryption are made, and cannot be. -/
theorem Load.Reaches.decrypts (hreaches : load.Reaches suite master)
    (hunprepared : load.row.Unprepared) :
    ∃ metadata, metadataFromRow load.row = .ok metadata ∧ metadata.status ≠ .revoked ∧
      load.Fits metadata.labels ∧
      ∃ found ∈ decodingErrors, decryptRow suite master load.row = .error found := by
  obtain ⟨labels, hlabels, hfits⟩ := hreaches.labels
  obtain ⟨metadata, hreads, hactive, rfl⟩ :=
    metadataFromRow_of_labels hreaches.decodable hreaches.status hlabels
  refine ⟨metadata, hreads, ?_, hfits, decryptRow_unprepared hreads hreaches.algorithm
    hreaches.keyFingerprint hunprepared⟩
  rw [hactive]
  simp

theorem replay_unprepared (hmaterial : suite.KeyMaterial) {row : VersionRow}
    {generation : GenerationRow} {intent : String}
    (hgeneration : generation ∈ (runClients events).committed.generations)
    (hreaches : (Load.replay row generation intent).Reaches suite master)
    (hunprepared : row.Unprepared) :
    ∃ found ∈ decodingErrors,
      regenerated suite master generation row intent true = .error found := by
  obtain ⟨metadata, hreads, hactive, ⟨keyId, hkeyId, hfits⟩, found, hlisted, hfound⟩ :=
    hreaches.decrypts hunprepared
  obtain ⟨privateKey, keyId', made, hfrom⟩ := generated_committed events generation hgeneration
  have hsame : keyId = keyId' := SqlValue.text.inj (hkeyId.symm.trans hfrom.rowKeyId)
  subst hsame
  change metadataFromRow row = _ at hreads
  refine ⟨found, hlisted, ?_⟩
  unfold regenerated
  simp only [bind_eq_error, raiseIf_eq_ok]
  refine .inr ⟨metadata, by rw [hreads]; rfl, .inr ⟨(), hactive, .inr ⟨_,
    hfrom.bounded hmaterial, .inr ⟨(), ?_, .inl hfound⟩⟩⟩⟩
  rw [hfits, hfrom.rowAlgorithm]
  simp

/-- A spoiled load ends in an exception of the decoding. -/
theorem Load.Spoiled.opens (hmaterial : suite.KeyMaterial)
    (hspoiled : load.Spoiled suite master)
    (hgenerations : ∀ row generation intent, load = .replay row generation intent →
      generation ∈ (runClients events).committed.generations) :
    ∃ found ∈ decodingErrors, load.opens suite master = .error found := by
  cases hspoiled with
  | malformed hmalformed =>
      obtain ⟨found, hfound⟩ := metadataFromRow_malformed.mpr hmalformed
      exact ⟨found, readingErrors_decoding (metadataFromRow_error hfound),
        map_eq_error.mpr (resolveRow_eq_error.mpr (.inl hfound))⟩
  | unreadable hunreadable =>
      obtain ⟨found, hlisted, hfound, hkept⟩ := hunreadable.raises
      refine ⟨found, readingErrors_decoding hlisted, map_eq_error.mpr ?_⟩
      unfold regenerated
      exact bind_eq_error.mpr (.inl (mapError_eq_error.mpr ⟨found, hfound, hkept⟩))
  | unprepared hreaches hunprepared =>
      cases load with
      | resolution row intent =>
          obtain ⟨metadata, hreads, hactive, hfits, found, hlisted, hfound⟩ :=
            hreaches.decrypts hunprepared
          refine ⟨found, hlisted, map_eq_error.mpr (resolveRow_eq_error.mpr (.inr ?_))⟩
          exact ⟨metadata, hreads, .inr ⟨hactive, .inr ⟨not_lacksIntent_iff.mpr hfits, hfound⟩⟩⟩
      | replay row generation intent =>
          obtain ⟨found, hlisted, hfound⟩ := replay_unprepared hmaterial
            (hgenerations row generation intent rfl) hreaches hunprepared
          exact ⟨found, hlisted, map_eq_error.mpr hfound⟩

end

/-! ### Failing closed -/

section

variable {suite : CryptoSuite}

/-- A load path on tables that were tampered with after an execution. -/
structure FailsClosed (events : List (Event (Call suite))) (tampered : Tables)
    (call : Call suite) : Prop where
  /-- What it answers it would have answered before, and it is what was inserted. -/
  authentic : ∀ reply, (perform tampered call).1.result = .ok reply →
    (perform (runClients events).committed call).1.result = .ok reply ∧
      reply.Authentic (runClients events).log
  /-- What it raises is an error of the store. -/
  bounded : ∀ raised, (perform tampered call).1.result = .error raised → raised ∈ storeErrors
  /-- A resolve request that makes the call is answered once, as its handler declares. -/
  answered : ∀ provider env authorization workspaceId secretId body,
    call = resolveCall provider env workspaceId secretId body →
    Recognised provider authorization → AuditsAll tampered env →
      AnsweredOnce (.resolve authorization workspaceId secretId body) tampered
        (respond provider env tampered (.resolve authorization workspaceId secretId body)).2
        (respond provider env tampered (.resolve authorization workspaceId secretId body)).1

theorem located_error {found : Option VersionRow} {load : VersionRow → Load} {raised : Raised}
    (hlocated : located found load = .error raised) : raised = .secretMissing := by
  cases found with
  | none =>
      cases hlocated
      rfl
  | some row => cases hlocated

/-- Why an operation loads nothing. -/
theorem load_error {tables : Tables} {operation : Operation} {raised : Raised}
    (hload : operation.load tables = some (.error raised)) :
    raised ∈ storeErrors ∧ ∀ args, operation = .resolveSecretForUse args →
      raised ∈ [.secretMissing, .secretResolutionConflict] := by
  cases operation with
  | resolveSecret workspaceId secretId versionId =>
      rw [located_error (Option.some.inj hload)]
      refine ⟨by simp [storeErrors], ?_⟩
      rintro _ ⟨⟩
  | resolveSecretForUse args =>
      simp only [Operation.load] at hload
      split at hload
      · rw [located_error (Option.some.inj hload)]
        exact ⟨by simp [storeErrors], fun _ _ => by simp⟩
      · rcases bind_eq_error.mp (Option.some.inj hload) with hconflict | ⟨_, _, hlocated⟩
        · rw [(raiseIf_eq_error.mp hconflict).2]
          exact ⟨by simp [storeErrors], fun _ _ => by simp⟩
        · rw [located_error hlocated]
          exact ⟨by simp [storeErrors], fun _ _ => by simp⟩
  | generateDelegationKey args =>
      simp only [Operation.load] at hload
      constructor
      · split at hload
        · cases hload
        · rcases bind_eq_error.mp (Option.some.inj hload) with hfamily | ⟨_, _, hguarded⟩
          · rw [requireDelegationSigningFamily_error hfamily]
            simp [storeErrors]
          · rcases bind_eq_error.mp hguarded with hconflict | ⟨_, _, hlocated⟩
            · rw [(raiseIf_eq_error.mp hconflict).2]
              simp [storeErrors]
            · rw [located_error hlocated]
              simp [storeErrors]
      · rintro _ ⟨⟩
  | createSecret => cases hload
  | rotateSecret => cases hload
  | revokeSecret => cases hload
  | revokeSecretVersion => cases hload
  | metadata => cases hload

theorem Tampered.audits {tables tampered : Tables} {env : Env suite}
    (htampered : Tampered tables tampered) (haudits : Audits tampered env) : Audits tables env := by
  rw [Audits, htampered.auditRecords] at haudits
  exact haudits

/-- A load that is not spoiled raises errors of the store only. -/
theorem Unforgeable.load_raises {performed : List Encryption} {events : List (Event (Call suite))}
    {master : MasterKey} {load load' : Load} {raised : Raised} (hmaterial : suite.KeyMaterial)
    (hunforgeable : Unforgeable performed events)
    (hfound : load.Found (runClients events).committed) (hrewritten : load.Rewritten load')
    (hspoiled : ¬ load'.Spoiled suite master)
    (hraised : load'.opens suite master = .error raised) : raised ∈ loadErrors := by
  cases hrewritten with
  | resolution hrow =>
      exact (resolution_error (map_eq_error.mp hraised)).resolve_left hspoiled
  | replay hrow =>
      have hreplay := replay_error hmaterial hunforgeable hfound hrow (map_eq_error.mp hraised)
      exact hreplay.resolve_left hspoiled

end

/-! ### One row written over -/

/-- The version row of the execution with one version. -/
def sealedRow : VersionRow :=
  versionRow sealedMetadata sealedNonce sealedEncryption.ciphertext

/-- Its tables with another row in its place. -/
def overwritten (row : VersionRow) : Tables :=
  { Tables.empty with versions := [row] }

/-- The version is resolved. -/
def resolvingSealed : Call sealedSuite where
  operation := .resolveSecret "workspace" "secret" none
  master := ⟨[], "local"⟩
  env := {
    uuid4 := "b"
    eventId := "b"
    now := "b"
    occurredAt := "b"
    urandom := fun _ => sealedNonce
    urandom_length := sealedNonce_length
    privateKey := true
    fails := fun _ => none }

theorem committed_sealing : (runClients sealing).committed = overwritten sealedRow := by
  rfl

theorem tampered_sealing {row : VersionRow} (hrow : Rewritten sealedRow row) :
    Tampered (runClients sealing).committed (overwritten row) := by
  rw [committed_sealing]
  exact ⟨.cons hrow .nil, rfl, rfl, rfl, rfl⟩

theorem sealedSuite_keyMaterial : sealedSuite.KeyMaterial where
  load_private := transparentSuite_keyMaterial.load_private
  public_length := transparentSuite_keyMaterial.public_length
  hexdigest_length := transparentSuite_keyMaterial.hexdigest_length

theorem unforgeable_sealing : Unforgeable [sealedEncryption] sealing where
  made := fun encryption hmem => .inl (by rwa [encryptionsMade_sealing])
  ideal := idealFor_sealing
  fresh := by
    rw [encryptionsMade_sealing]
    decide

end SecretsCustody
