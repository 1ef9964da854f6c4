/-
The exceptions of the store calls.  On every database a server reaches a store call raises only
what the handler of its route catches, and violates no constraint but the one the store
translates.
-/
import SecretsCustody.Accounted
import SecretsCustody.Intent
import SecretsCustody.Secrecy

namespace SecretsCustody

open Effect Interleaving JsonText

/-! ### What the rows hold -/

/-- The row is an encryption of the value under the master key. -/
def Encloses (suite : CryptoSuite) (master : MasterKey) (row : VersionRow) (value : Bytes) : Prop :=
  ∃ encryption metadata, Seals suite encryption row metadata ∧ encryption.key = master.key ∧
    encryption.plaintext = value

/-- The values the provider stores: those it decodes from a request, and the keys it makes. -/
def Storable (suite : CryptoSuite) (value : Bytes) : Prop :=
  value.length ≤ maxSecretBytes ∨ ∃ privateKey, value = suite.privateBytes privateKey

/-- Every version holds a value the provider stores, and that of a generation the private half of
a key pair. -/
structure Provisioned (suite : CryptoSuite) (master : MasterKey) (tables : Tables) : Prop where
  versions : ∀ row ∈ tables.versions, ∃ value,
    Encloses suite master row value ∧ Storable suite value
  generations : ∀ generation ∈ tables.generations, ∃ row ∈ tables.versions,
    row.key = generation.target ∧
      ∃ privateKey, Encloses suite master row (suite.privateBytes privateKey)

section

variable {suite : CryptoSuite} {env : Env suite} {master : MasterKey} {before after : Tables}
variable {operation : Operation} {reply : Reply} {log : List Encryption} {row row' : VersionRow}
variable {value plaintext : Bytes}

theorem provisioned_empty : Provisioned suite master Tables.empty where
  versions := fun row hrow => by cases hrow
  generations := fun generation hgeneration => by cases hgeneration

theorem Encloses.value_eq (hencloses : Encloses suite master row value) (hsuite : suite.DecryptsOwn)
    (hdecrypt : decryptRow suite master row = .ok plaintext) : plaintext = value := by
  obtain ⟨encryption, metadata, hseals, hkey, rfl⟩ := hencloses
  obtain ⟨found, nonce, ciphertext, hreads, _, _, hnonce, hciphertext, _, hplain⟩ :=
    decryptRow_eq_ok.mp hdecrypt
  rw [hseals.reads] at hreads
  cases hreads
  rw [hseals.nonce] at hnonce
  cases hnonce
  rw [hseals.ciphertext] at hciphertext
  cases hciphertext
  have hown := hsuite _ _ _ _ _ hseals.encrypted
  rw [hkey] at hown
  exact Option.some.inj (hplain.symm.trans hown)

/-- A row that is sealed again holds what it held. -/
theorem RowStep.encloses {written : List SecretMetadata}
    (hstep : RowStep env master written log row row') (hsuite : suite.DecryptsOwn)
    (hencloses : Encloses suite master row value) : Encloses suite master row' value := by
  cases hstep with
  | same => exact hencloses
  | resealed _ _ hdecrypt hseals hkey =>
      exact ⟨_, _, hseals, hkey, hencloses.value_eq hsuite hdecrypt⟩

/-- What a handler hands the store is a value the provider stores. -/
theorem Handled.storable {metadata : SecretMetadata} (hhandled : Handled operation)
    (hinserted : inserted env operation reply = some (metadata, value)) : Storable suite value := by
  cases hhandled with
  | create hvalue =>
      cases reply <;> cases hinserted
      exact .inl hvalue
  | rotate hvalue =>
      cases reply <;> cases hinserted
      exact .inl hvalue
  | generate =>
      cases reply with
      | generated key =>
          rw [inserted] at hinserted
          split at hinserted
          · cases hinserted
          · cases hinserted
            exact .inr ⟨env.privateKey, rfl⟩
      | metadata found => cases hinserted
      | revoked found => cases hinserted
      | resolved found => cases hinserted
  | revokeVersion => cases reply <;> cases hinserted
  | revoke => cases reply <;> cases hinserted
  | resolve => cases reply <;> cases hinserted
  | readMetadata => cases reply <;> cases hinserted

/-- A call that inserted a version left a row that holds what it was given. -/
theorem VersionsEffect.encloses {metadata : SecretMetadata}
    (heffect : VersionsEffect env master before operation reply after log)
    (hinserted : inserted env operation reply = some (metadata, value)) :
    ∃ row ∈ after.versions, row.key = metadata.key ∧ Encloses suite master row value := by
  obtain ⟨change, added, hrows, _, hadded⟩ := heffect.rows
  cases hadded with
  | none hnone =>
      rw [hnone] at hinserted
      cases hinserted
  | one hfound _ _ _ hseals hkey =>
      rw [hfound] at hinserted
      cases hinserted
      refine ⟨_, ?_, rfl, _, _, hseals, hkey, rfl⟩
      rw [hrows]
      exact List.mem_append_right _ (List.mem_singleton_self _)

theorem Performs.provisioned (hperforms : Performs env master before operation reply after log)
    (hhandled : Handled operation) (hsuite : suite.DecryptsOwn) (hconsistent : Consistent before)
    (hprovisioned : Provisioned suite master before) : Provisioned suite master after := by
  have heffect := hperforms.versionsEffect hconsistent.versionKeys
  obtain ⟨change, added, hrows, hsteps, hadded⟩ := heffect.rows
  have hchanged : ∀ row ∈ before.versions, change row ∈ after.versions := by
    intro row hrow
    rw [hrows]
    exact List.mem_append_left _ (List.mem_map_of_mem hrow)
  have hkept : ∀ generation ∈ before.generations, ∃ row ∈ after.versions,
      row.key = generation.target ∧
        ∃ privateKey, Encloses suite master row (suite.privateBytes privateKey) := by
    intro generation hgeneration
    obtain ⟨row, hrow, hkey, privateKey, hencloses⟩ :=
      hprovisioned.generations generation hgeneration
    have hstep := hsteps row hrow
    exact ⟨change row, hchanged row hrow, hstep.sameVersion.key.trans hkey, privateKey,
      hstep.encloses hsuite hencloses⟩
  constructor
  · intro row hrow
    rw [hrows, List.mem_append] at hrow
    rcases hrow with hold | hnew
    · obtain ⟨found, hfound, rfl⟩ := List.mem_map.mp hold
      obtain ⟨value, hencloses, hstorable⟩ := hprovisioned.versions found hfound
      exact ⟨value, (hsteps found hfound).encloses hsuite hencloses, hstorable⟩
    · cases hadded with
      | none => cases hnew
      | one hinserted _ _ _ hseals hkey =>
          rw [List.mem_singleton] at hnew
          subst hnew
          exact ⟨_, ⟨_, _, hseals, hkey, rfl⟩, hhandled.storable hinserted⟩
  · rcases hperforms.generations with ⟨args, metadata, keyId, hfresh⟩ | ⟨hsame, _⟩
    · intro generation hgeneration
      rw [hfresh.rows, List.mem_append, List.mem_singleton] at hgeneration
      rcases hgeneration with hold | rfl
      · exact hkept generation hold
      · have hinserted : inserted env operation reply =
            some (metadata, suite.privateBytes env.privateKey) := by
          rw [hfresh.operation, hfresh.reply]
          rfl
        obtain ⟨row, hrow, hkey, hencloses⟩ := heffect.encloses hinserted
        exact ⟨row, hrow, hkey.trans hfresh.version, env.privateKey, hencloses⟩
    · rw [hsame]
      exact hkept

theorem Moved.provisioned {provider : Provider} (hmoved : Moved suite provider before after)
    (hsuite : suite.DecryptsOwn) (hconsistent : Consistent before)
    (hprovisioned : Provisioned suite provider.master before) :
    Provisioned suite provider.master after := by
  cases hmoved with
  | idle => exact hprovisioned
  | performed call hmaster hhandled =>
      rcases perform_cases before call with ⟨reply, _, hperforms⟩ | ⟨raised, _, _, hsame⟩
      · rw [hmaster] at hperforms
        exact hperforms.provisioned hhandled hsuite hconsistent hprovisioned
      · rwa [hsame]
  | audited hadded =>
      obtain ⟨rfl, _⟩ := hadded
      exact ⟨hprovisioned.versions, hprovisioned.generations⟩

end

/-! ### What the calls raise -/

/-- Documented behaviour of the libraries: a key pair loads as it was made and its public half is
ASCII, what was encrypted decrypts to itself, and AES-GCM takes the values the provider stores. -/
structure Documented (suite : CryptoSuite) (master : MasterKey) : Prop where
  keys : suite.KeyMaterial
  publicPem_ascii : ∀ privateKey, (encodeAscii (suite.publicPem privateKey)).isSome
  decrypts : suite.DecryptsOwn
  takes : ∀ value, Storable suite value → master.Takes suite value

/-- What every database of a server is. -/
structure Reached (suite : CryptoSuite) (provider : Provider) (tables : Tables) : Prop where
  gapless : Gapless tables
  coherent : Coherent tables
  intents : OneIntent tables
  provisioned : Provisioned suite provider.master tables

/-- The exceptions of a store call that the handler of its route catches. -/
def Operation.caught : Operation → List Raised
  | .createSecret _ _ _ _ => [.secretMetadataInvalid, .secretAlreadyExists]
  | .rotateSecret _ _ _ _ _ =>
      [.secretMissing, .secretMetadataInvalid, .secretAlreadyExists, .secretIntentMismatch]
  | .generateDelegationKey _ =>
      [.delegationKeyGenerationConflict, .secretAlreadyExists, .secretRevoked, .secretTampered,
        .auditUnavailable]
  | .resolveSecretForUse _ =>
      [.secretMissing, .secretRevoked, .secretResolutionConflict, .secretIntentMismatch,
        .secretTampered]
  | .revokeSecretVersion _ =>
      [.secretVersionRevocationConflict, .secretRevoked, .secretMissing, .secretTampered,
        .auditUnavailable]
  | .revokeSecret _ _ => [.secretMissing, .secretTampered]
  | .metadata _ _ _ => [.secretMissing]
  | .resolveSecret _ _ _ => []

section

variable {suite : CryptoSuite} {env : Env suite} {master : MasterKey} {tables : Tables}
variable {row : VersionRow} {value : Bytes} {raised : Raised}

theorem InsertRefused.raises {workspaceId secretId : String} {labels : TextDict}
    {versionNumber : Int}
    (hrefused : InsertRefused env master workspaceId secretId value labels versionNumber tables
      raised)
    (hfaultless : env.Faultless) (htakes : master.Takes suite value)
    (hnumber : versionNumber ≤ maxSqliteInteger) :
    raised = .secretMetadataInvalid ∨ raised = .secretAlreadyExists := by
  cases hrefused with
  | labels hclean => exact .inl (cleanLabels_error hclean)
  | cipher hclean hnonce hencrypt =>
      obtain ⟨ciphertext, hok⟩ := htakes _ (aad _) hnonce
      rw [hok] at hencrypt
      cases hencrypt
  | overflow hlarge => omega
  | taken => exact .inr rfl
  | fault hfault => exact absurd hfault hfaultless.not_faults

/-- A row that the provider sealed reads. -/
theorem Encloses.reads (hencloses : Encloses suite master row value) :
    metadataFromRow row ≠ .error raised := by
  obtain ⟨_, _, hseals, _⟩ := hencloses
  rw [hseals.reads]
  rintro ⟨⟩

theorem Encloses.decrypt_error (hencloses : Encloses suite master row value)
    (hraised : decryptRow suite master row = .error raised) : raised = .secretTampered := by
  obtain ⟨_, _, hseals, _⟩ := hencloses
  exact decryptRow_sealed hseals hraised

theorem RevokeRefused.raises {revokedAt : String}
    (hrefused : RevokeRefused env master row revokedAt raised) (hfaultless : env.Faultless)
    (hsuite : suite.DecryptsOwn) (hencloses : Encloses suite master row value)
    (htakes : master.Takes suite value) : raised = .secretTampered := by
  cases hrefused with
  | unreadable hmetadata => exact absurd hmetadata hencloses.reads
  | undecryptable hdecrypt => exact hencloses.decrypt_error hdecrypt
  | cipher hencrypt hnonce hdecrypt =>
      rw [hencloses.value_eq hsuite hdecrypt] at hencrypt
      obtain ⟨ciphertext, hok⟩ := htakes _ (aad _) hnonce
      rw [hok] at hencrypt
      cases hencrypt
  | fault hfault => exact absurd hfault hfaultless.not_faults

/-- A replay on the version of a generation finds it revoked or tampered with, or verifies. -/
theorem regenerated_error {generation : GenerationRow} {intent : String} {replayed : Bool}
    {privateKey : suite.PrivateKey} (hmaterial : suite.KeyMaterial) (hsuite : suite.DecryptsOwn)
    (hencloses : Encloses suite master row (suite.privateBytes privateKey))
    (hraised : regenerated suite master generation row intent replayed = .error raised) :
    raised = .secretRevoked ∨ raised = .secretTampered := by
  unfold regenerated at hraised
  simp only [bind_eq_error, raiseIf_eq_error, mapError_eq_error] at hraised
  rcases hraised with ⟨found, hmetadata, _⟩ | ⟨_, _, ⟨_, rfl⟩ | ⟨_, _, hbounded | ⟨_, _, ⟨_, rfl⟩ |
    ⟨_, _, hdecrypt | ⟨privatePem, hdecrypt, hmaterials | ⟨_, _, ⟨_, rfl⟩ | ⟨_, _, ⟨⟩⟩⟩⟩⟩⟩⟩⟩
  · exact absurd hmetadata hencloses.reads
  · exact .inl rfl
  · exact .inr (requireBounded_error hbounded)
  · exact .inr rfl
  · exact .inr (hencloses.decrypt_error hdecrypt)
  · rw [hencloses.value_eq hsuite hdecrypt, delegationMaterialMatches, hmaterial.load_private]
      at hmaterials
    cases hmaterials
  · exact .inr rfl

/-- The labels of a generation are within the bounds. -/
theorem validLabels_generation {purpose intent issuer keyId : String}
    (hadmitted : AdmittedFamily purpose intent) (hissuer : issuer.length ≤ 200)
    (hkeyId : keyId.length = 72) : ValidLabels (generationLabels intent purpose issuer keyId) := by
  have hfamilies : ∀ family ∈ delegationSigningIntents,
      family.1.length ≤ maxLabelValueChars ∧ family.2.length ≤ maxLabelValueChars := by
    decide
  have hnodup : (delegationSigningIntents.map Prod.fst).Nodup := by decide
  have hfamily := hfamilies (purpose, intent) ((lookup_eq_some_iff_mem hnodup).mp hadmitted)
  have hlimit : maxLabelValueChars = 256 := rfl
  constructor
  · change 4 ≤ maxLabels
    decide
  · intro label hlabel
    simp only [generationLabels, generationTexts, List.map_cons, List.map_nil, List.mem_cons,
      List.not_mem_nil, or_false] at hlabel
    rcases hlabel with rfl | rfl | rfl | rfl
    · exact (⟨by decide, by decide, hfamily.2⟩ : LabelFits "intent" intent)
    · exact (⟨by decide, by decide, hfamily.1⟩ : LabelFits "purpose" purpose)
    · exact (⟨by decide, by decide, by omega⟩ : LabelFits "issuer" issuer)
    · exact (⟨by decide, by decide, by omega⟩ : LabelFits "key_id" keyId)

/-- A secret has no more versions than the database has rows. -/
theorem Numbered.le_length {address : String × String} {n : Nat}
    (hnumbered : Numbered tables address n) : n ≤ tables.versions.length := by
  have hlength := List.Perm.length_eq hnumbered
  rw [numbering, List.length_map, List.length_range, numbersAt, List.length_map] at hlength
  rw [← hlength]
  exact List.length_filter_le _ _

end

section

variable {suite : CryptoSuite} {provider : Provider} {env : Env suite} {tables : Tables}
variable {operation : Operation} {raised : Raised}

/-- The row of a version that a database of a server names. -/
theorem Reached.encloses (hreached : Reached suite provider tables) {row : VersionRow}
    (hrow : row ∈ tables.versions) :
    ∃ value, Encloses suite provider.master row value ∧ Storable suite value :=
  hreached.provisioned.versions row hrow

theorem Reached.sealed (hreached : Reached suite provider tables) : Sealed suite tables := by
  intro row hrow
  obtain ⟨_, ⟨encryption, metadata, hseals, _⟩, _⟩ := hreached.encloses hrow
  exact ⟨encryption, metadata, hseals⟩

theorem Reached.reads (hreached : Reached suite provider tables) {row : VersionRow}
    (hrow : row ∈ tables.versions) : metadataFromRow row ≠ .error raised := by
  obtain ⟨_, hencloses, _⟩ := hreached.encloses hrow
  exact hencloses.reads

/-- Revoking a version finds it tampered with at worst. -/
theorem Reached.revokes (hreached : Reached suite provider tables)
    (hdocumented : Documented suite provider.master) (hfaultless : env.Faultless)
    {row : VersionRow} (hrow : row ∈ tables.versions) {revokedAt : String}
    (hrefused : RevokeRefused env provider.master row revokedAt raised) :
    raised = .secretTampered := by
  obtain ⟨value, hencloses, hstorable⟩ := hreached.encloses hrow
  exact hrefused.raises hfaultless hdocumented.decrypts hencloses
    (hdocumented.takes value hstorable)

/-- A first version of a secret with a generation is not the first. -/
theorem Coherent.generation_number {workspaceId secretId : String} (hcoherent : Coherent tables)
    (haddress : (workspaceId, secretId) ∈ tables.generations.map GenerationRow.address) :
    (workspaceId, secretId, 1) ∈ tables.versions.map VersionRow.numberKey := by
  obtain ⟨generation, hgeneration, hat⟩ := List.mem_map.mp haddress
  obtain ⟨row, hrow, _, _, hkey, hnumber, _⟩ := hcoherent.generations generation hgeneration
  rw [VersionRow.key, GenerationRow.target, Prod.mk.injEq, Prod.mk.injEq] at hkey
  rw [GenerationRow.address, Prod.mk.injEq] at hat
  refine List.mem_map.mpr ⟨row, hrow, ?_⟩
  rw [VersionRow.numberKey, hkey.1, hkey.2.1, hnumber, hat.1, hat.2]

/-- A generation that agrees finds its version, and raises only what that allows. -/
theorem Reached.generation (hreached : Reached suite provider tables)
    (hdocumented : Documented suite provider.master) (hfaultless : env.Faultless)
    {args : GenerateDelegationKey} (hadmitted : AdmittedFamily args.purpose args.intent)
    (hissuer : args.issuer.length ≤ 200)
    (hrefuses : Refuses env provider.master tables (.generateDelegationKey args) raised) :
    raised ∈ (Operation.generateDelegationKey args).caught := by
  have hconsistent := hreached.gapless.consistent
  cases hrefuses with
  | fault hfault => exact absurd hfault hfaultless.not_faults
  | generationInadmissible hinadmissible => exact absurd hadmitted hinadmissible
  | generationConflict => simp [Operation.caught]
  | @generationMissing _ existing hexisting _ hrow =>
      have hstored := KeyedRows.mem_of_find hexisting
      obtain ⟨row, hfound⟩ :=
        Tables.selectVersion_isSome (hconsistent.generationVersions existing hstored)
      rw [hrow] at hfound
      cases hfound
  | @generationUnverified _ existing secretRow _ _ hexisting _ hrow hkey =>
      have hstored := KeyedRows.mem_of_find hexisting
      obtain ⟨hmem, htarget⟩ := Tables.selectVersion_eq_some hrow
      obtain ⟨row, hversion, hsame, privateKey, hencloses⟩ :=
        hreached.provisioned.generations existing hstored
      have heq : row = secretRow :=
        hconsistent.versionKeys.eq_of_key hversion hmem (hsame.trans htarget.symm)
      rw [heq] at hencloses
      rcases regenerated_error hdocumented.keys hdocumented.decrypts hencloses hkey with rfl | rfl
      · simp [Operation.caught]
      · simp [Operation.caught]
  | generationKeyId _ hkeyId =>
      rw [delegationKeyId, Option.map_eq_none_iff] at hkeyId
      have hascii := hdocumented.publicPem_ascii env.privateKey
      rw [hkeyId] at hascii
      cases hascii
  | @generationRefused _ keyId _ _ hkeyId hrefused =>
      have hlabels := validLabels_generation hadmitted hissuer
        (delegationKeyId_length hdocumented.keys hkeyId)
      have htakes := hdocumented.takes _ (.inr ⟨env.privateKey, rfl⟩)
      rcases hrefused.of_valid hlabels hfaultless htakes with ⟨hlarge, _⟩ | ⟨_, rfl⟩
      · exact absurd hlarge (by decide)
      · simp [Operation.caught]
  | generationTaken _ haddress hnumber =>
      exact absurd (hreached.coherent.generation_number haddress) hnumber
  | generationAudit => simp [Operation.caught]

/-- A store call of a handler raises only what the handler of its route catches. -/
theorem Reached.caught (hreached : Reached suite provider tables)
    (hdocumented : Documented suite provider.master) (hfaultless : env.Faultless)
    (hfits : (tables.versions.length : Int) < maxSqliteInteger) (hhandled : Handled operation)
    (hrefuses : Refuses env provider.master tables operation raised) :
    raised ∈ operation.caught := by
  have hreads : ∀ {workspaceId secretId : String} (versionId : Option String) {row : VersionRow},
      selectRow tables workspaceId secretId versionId = some row →
        metadataFromRow row ≠ .error raised :=
    fun _ _ hrow => hreached.reads (selectRow_eq_some hrow).1
  cases hhandled with
  | create hvalue =>
      cases hrefuses with
      | fault hfault => exact absurd hfault hfaultless.not_faults
      | createRefused hrefused =>
          rcases hrefused.raises hfaultless (hdocumented.takes _ (.inl hvalue)) (by decide) with
            rfl | rfl
          · simp [Operation.caught]
          · simp [Operation.caught]
  | @rotate workspaceId secretId _ _ _ hvalue =>
      cases hrefuses with
      | fault hfault => exact absurd hfault hfaultless.not_faults
      | rotateMissing => simp [Operation.caught]
      | rotateUnreadable hlatest hmetadata =>
          exact absurd hmetadata (hreads none hlatest)
      | rotateMismatch => simp [Operation.caught]
      | rotateRefused hlatest hrefused =>
          obtain ⟨n, hnumbered⟩ := hreached.gapless.numbered (workspaceId, secretId)
          have hnumber := (hnumbered.latest hlatest).1
          have hlength := hnumbered.le_length
          rcases hrefused.raises hfaultless (hdocumented.takes _ (.inl hvalue)) (by omega) with
            rfl | rfl
          · simp [Operation.caught]
          · simp [Operation.caught]
  | generate hadmitted hissuer =>
      exact hreached.generation hdocumented hfaultless hadmitted hissuer hrefuses
  | @revokeVersion args =>
      cases hrefuses with
      | fault hfault => exact absurd hfault hfaultless.not_faults
      | revocationConflict => simp [Operation.caught]
      | revocationTaken => simp [Operation.caught]
      | revocationMissing => simp [Operation.caught]
      | revocationUnreadable _ hrow hmetadata =>
          exact absurd hmetadata (hreads (some args.versionId) hrow)
      | revocationReplayConflict => simp [Operation.caught]
      | revocationMismatch => simp [Operation.caught]
      | revocationRevoked => simp [Operation.caught]
      | revocationRefused _ hrow hrefused =>
          have hstored := (Tables.selectVersion_eq_some hrow).1
          rw [hreached.revokes hdocumented hfaultless hstored hrefused]
          simp [Operation.caught]
      | revocationAudit => simp [Operation.caught]
  | revoke =>
      cases hrefuses with
      | fault hfault => exact absurd hfault hfaultless.not_faults
      | revokeMissing => simp [Operation.caught]
      | revokeRefused hrow hrefused =>
          have hstored := (Tables.mem_allVersions.mp hrow).1
          rw [hreached.revokes hdocumented hfaultless hstored hrefused]
          simp [Operation.caught]
  | resolve =>
      have hlisted := hrefuses.resolution hreached.sealed hfaultless
      simp only [List.mem_cons, List.not_mem_nil, or_false] at hlisted
      rcases hlisted with rfl | rfl | rfl | rfl | rfl
      all_goals simp [Operation.caught]
  | readMetadata =>
      cases hrefuses with
      | fault hfault => exact absurd hfault hfaultless.not_faults
      | describeMissing => simp [Operation.caught]
      | describeUnreadable hrow hmetadata => exact absurd hmetadata (hreads _ hrow)

/-- With a fresh identifier a rotation finds its version free. -/
theorem Reached.rotation (hreached : Reached suite provider tables) {master : MasterKey}
    {workspaceId secretId : String} {value : Bytes} {labels : TextDict} {intent : Option String}
    (hfresh : env.uuid4 ∉ tables.versions.map VersionRow.versionId) :
    ¬ Refuses env master tables (.rotateSecret workspaceId secretId value labels intent)
      .secretAlreadyExists := by
  obtain ⟨n, hnumbered⟩ := hreached.gapless.numbered (workspaceId, secretId)
  exact rotateSecret_available hfresh hnumbered

theorem reached_empty : Reached suite provider Tables.empty :=
  ⟨gapless_empty, coherent_empty, oneIntent_empty, provisioned_empty⟩

theorem Moved.reached {before after : Tables} (hmoved : Moved suite provider before after)
    (hsuite : suite.DecryptsOwn) (hreached : Reached suite provider before) :
    Reached suite provider after where
  gapless := hmoved.gapless hreached.gapless
  coherent := hmoved.coherent hreached.gapless.consistent hreached.coherent
  intents := hmoved.oneIntent hreached.gapless hreached.intents
  provisioned := hmoved.provisioned hsuite hreached.gapless.consistent hreached.provisioned

/-- Every database of a server is so. -/
theorem runServer_reached (hsuite : suite.DecryptsOwn) (events : List (Event (ApiCall suite))) :
    Reached suite provider (runServer provider events).state :=
  runServer_inv reached_empty (fun _ _ hreached hmoved => hmoved.reached hsuite hreached) events

end

/-! ### What leaves the handlers -/

/-- A check of the request raises by itself, before any store call. -/
def Request.Raises (provider : Provider) (request : Request) (raised : Raised) : Prop :=
  credential provider request.authorization = .error (.raised raised) ∨
    ∃ authorization workspaceId secretId body,
      request = .generate authorization workspaceId secretId body ∧
        Api.validGeneration provider body = .error (.raised raised)

/-- The request is to resolve with a text that cannot be encoded. -/
def Request.Unencodable (request : Request) : Prop :=
  ∃ authorization workspaceId secretId body hunencodable,
    request = .resolveUnencodable authorization workspaceId secretId body hunencodable

/-- What may leave the handler of a request unanswered. -/
def Request.Leaves (provider : Provider) (request : Request) (raised : Raised) : Prop :=
  request.Raises provider raised ∨ request.Unencodable ∧ raised = .unicodeEncodeError

/-- One of the steps found as many versions as the database can number. -/
def FoundFull (steps : List (Tables × Tables)) : Prop :=
  ∃ step ∈ steps, maxSqliteInteger ≤ (step.1.versions.length : Int)

section

variable {suite : CryptoSuite} {provider : Provider} {env : RequestEnv suite} {α β : Type}
variable {inv : Tables → Prop} {checks : Raised → Prop} {handler : Handler α}
variable {returns : α → Prop}

/-- What leaves the handler is an `HTTPException`, or what a check raises, or the database was
full. -/
def Guards (inv : Tables → Prop) (checks : Raised → Prop) (handler : Handler α)
    (returns : α → Prop) : Prop :=
  ∀ full, Settles FoundFull inv handler full (fun value _ => returns value)
    fun fault full' => ∀ raised, fault = .raised raised → checks raised ∨ full'

theorem guards_pure {value : α} (hreturns : returns value) :
    Guards inv checks (pure value) returns :=
  fun _ => settles_pure hreturns

theorem guards_http (status : Nat) (outcome code : String) :
    Guards inv checks (throw (.http status outcome code)) returns := by
  intro full
  apply settles_throw
  rintro raised ⟨⟩

theorem Guards.bind {next : α → Handler β} {results : β → Prop}
    (hguards : Guards inv checks handler returns)
    (hnext : ∀ value, returns value → Guards inv checks (next value) results) :
    Guards inv checks (handler >>= next) results := by
  intro full
  apply Settles.bind
  apply (hguards full).mono _ fun _ _ hraises => hraises
  intro value full' hreturns
  exact hnext value hreturns full'

theorem Guards.mono {returns' : α → Prop} (hguards : Guards inv checks handler returns)
    (hreturns : ∀ value, returns value → returns' value) : Guards inv checks handler returns' :=
  fun full => (hguards full).mono (fun value _ => hreturns value) fun _ _ hraises => hraises

theorem guards_check {check : Except Fault α}
    (hchecks : ∀ raised, check = .error (.raised raised) → checks raised) :
    Guards inv checks (ofExcept check) fun value => check = .ok value := by
  intro full
  apply settles_check
  · exact fun _ hvalue => hvalue
  · rintro fault hfault raised rfl
    exact .inl (hchecks raised hfault)

theorem guards_appendAudit (fields : AuditFields) (outcome code : String) :
    Guards inv checks (appendAudit suite provider env fields outcome code) fun _ => True := by
  intro full
  apply settles_appendAudit
  · exact fun _ _ _ _ _ _ => trivial
  · rintro _ _ _ raised ⟨⟩

/-- A check whose exceptions the handler declares, or that raises by itself. -/
theorem guards_audited {fields : AuditFields} {outcome code : String} {check : Except Fault α}
    (hchecks : ∀ raised, check = .error (.raised raised) → checks raised) :
    Guards inv checks (audited suite provider env fields outcome code check)
      fun value => check = .ok value := by
  intro full
  apply settles_auditing fun _ hvalue => hvalue
  · intro status outcome' code' _
    apply (guards_appendAudit fields outcome code full).mono _ fun _ _ hraises => hraises
    rintro _ full' _ raised ⟨⟩
  · rintro found hfault raised ⟨⟩
    exact .inl (hchecks found hfault)

/-- What the clauses catch does not leave the handler. -/
theorem guards_catching {fields : AuditFields} {clauses : List Clause}
    (hguards : Guards inv (fun raised => checks raised ∨ raised ∈ clauses.map Clause.caught)
      handler returns) :
    Guards inv checks (catching suite provider env fields clauses handler) returns := by
  intro full
  apply settles_tryCatch
  apply (hguards full).mono (fun _ _ hreturns => hreturns)
  intro fault full' hraises
  cases fault with
  | http status outcome code => exact guards_http status outcome code full'
  | raised found =>
      dsimp only
      cases hfound : clauses.find? fun clause => clause.caught = found with
      | none =>
          apply settles_throw
          rintro raised ⟨⟩
          rcases hraises found rfl with (hchecked | hlisted) | hfull
          · exact .inl hchecked
          · obtain ⟨clause, hclause, hcaught⟩ := List.mem_map.mp hlisted
            have hnone := List.find?_eq_none.mp hfound clause hclause
            exact absurd (decide_eq_true hcaught) hnone
          · exact .inr hfull
      | some clause =>
          have hraise : Guards inv checks (clause.raise suite provider env fields : Handler α)
              returns := by
            unfold Clause.raise
            split
            · apply (guards_appendAudit fields _ _).bind
              exact fun _ _ => guards_http _ _ _
            · exact guards_http _ _ _
          exact hraise full'

/-- A store call raises what the handler of its route catches, or the database was full. -/
theorem guards_call (hdocumented : Documented suite provider.master)
    (hfaultless : env.store.Faultless) {operation : Operation} (hhandled : Handled operation)
    {program : Tx Tables α} {change : α → Reply}
    (hprogram : Call.program ⟨operation, provider.master, env.store⟩ = change <$> program) :
    Guards (Reached suite provider) (fun raised => checks raised ∨ raised ∈ operation.caught)
      (transact program) fun value => ∃ before after log, Reached suite provider before ∧
        Performs env.store provider.master before operation (change value) after log := by
  intro full
  apply settles_call ⟨operation, provider.master, env.store⟩ hprogram
  · intro own tables value after log _ hreached hperforms
    exact ⟨tables, after, log, hreached, hperforms⟩
  · rintro own tables found _ hreached hrefuses raised ⟨⟩
    rcases lt_or_ge (tables.versions.length : Int) maxSqliteInteger with hfits | hfull
    · exact .inl (.inr (hreached.caught hdocumented hfaultless hfits hhandled hrefuses))
    · exact .inr ⟨(tables, tables), by simp, hfull⟩

/-- The public half of a generation that was returned is ASCII. -/
theorem Performs.publicPem_ascii {draws : Env suite} {master : MasterKey} {before after : Tables}
    {args : GenerateDelegationKey} {key : GeneratedDelegationKey} {log : List Encryption}
    (hperforms : Performs draws master before (.generateDelegationKey args) (.generated key)
      after log) : ∃ data, encodeAscii key.publicKeyPem = some data := by
  have hascii : ∀ {publicKeyPem keyId : String},
      delegationKeyId suite publicKeyPem = some keyId →
        ∃ data, encodeAscii publicKeyPem = some data := by
    intro publicKeyPem keyId hkeyId
    obtain ⟨data, hdata, _⟩ := Option.map_eq_some_iff.mp hkeyId
    exact ⟨data, hdata⟩
  cases hperforms with
  | generated _ _ hkeyId => exact hascii hkeyId
  | generationReplayed _ _ _ _ hkey =>
      obtain ⟨privatePem, _, hmatches⟩ := (regenerated_eq_ok.mp hkey).1.material
      unfold delegationMaterialMatches at hmatches
      split at hmatches
      · cases hmatches
      · cases hmatches
      · cases hmatches
      · simp only [Except.ok.injEq, Bool.and_eq_true, decide_eq_true_eq] at hmatches
        exact hascii hmatches.2

/-- The versions a whole revocation returned carry a text as their intent. -/
theorem Reached.revoked_intents {draws : Env suite} {before after : Tables}
    {workspaceId secretId : String} {revoked : List SecretMetadata} {log : List Encryption}
    (hreached : Reached suite provider before)
    (hperforms : Performs draws provider.master before (.revokeSecret workspaceId secretId)
      (.revoked revoked) after log) :
    ∀ metadata ∈ revoked, ∀ raised, durableMetadataIntent metadata ≠ .error (.raised raised) := by
  intro metadata hmetadata raised
  have hconsistent := hreached.gapless.consistent
  have hone := (hperforms.intentsKept .revoke hreached.gapless hreached.intents).oneIntent
    hreached.intents
  obtain ⟨row, hrow, hreads⟩ :=
    (hperforms.versionsEffect hconsistent.versionKeys).returned metadata hmetadata
  obtain ⟨intent, _, labels, ⟨found, hfound, rfl⟩, hlabel⟩ := hone.labelled row hrow
  rw [hreads] at hfound
  cases hfound
  rw [Labels.has_iff] at hlabel
  rw [durableMetadataIntent, hlabel]
  dsimp only
  split
  · simp
  · simp

theorem canonicalIntentLabels_not_raised {labels : TextDict} {intent : String} {raised : Raised} :
    canonicalIntentLabels labels intent ≠ .error (.raised raised) := by
  unfold canonicalIntentLabels
  split
  · split
    · simp
    · simp
  · simp

theorem decodeSecretValue_not_raised {encoded : String} {raised : Raised} :
    decodeSecretValue encoded ≠ .error (.raised raised) := by
  unfold decodeSecretValue
  split
  · simp
  · split
    · simp
    · simp

theorem guards_admitValue (action workspaceId : String) (request : SecretWriteRequest)
    (client : ProviderCredential) (fields : AuditFields) :
    Guards inv checks
      (Api.admitValue suite provider env action workspaceId request client fields)
      fun labels => request.intent ∈ allowedSecretUseIntents ∧
        labels.lookup "intent" = some request.intent := by
  apply (guards_audited fun _ hraised => absurd hraised validateIntent_not_raised).bind
  intro _ hvalid
  apply (guards_audited fun _ hraised => absurd hraised requireScope_not_raised).bind
  intro _ _
  apply (guards_audited fun _ hraised => absurd hraised canonicalIntentLabels_not_raised).mono
  intro labels hlabels
  exact ⟨validateIntent_eq_ok hvalid, canonicalIntentLabels_lookup hlabels⟩

variable (hdocumented : Documented suite provider.master) (hfaultless : env.store.Faultless)

include hdocumented hfaultless

theorem guards_writeSecret (workspaceId secretId : String) (request : SecretWriteRequest)
    (client : ProviderCredential) :
    Guards (Reached suite provider) checks
      (Api.writeSecret suite provider env workspaceId secretId request client) fun _ => True := by
  apply (guards_admitValue _ _ _ _ _).bind
  rintro labels ⟨hintent, hlabel⟩
  apply (guards_check fun _ hraised => absurd hraised decodeSecretValue_not_raised).bind
  intro value hvalue
  apply guards_catching
  apply (guards_call hdocumented hfaultless
    (.create (decodeSecretValue_bounded hvalue) hintent hlabel) rfl).bind
  intro metadata _
  apply (guards_appendAudit _ _ _).bind
  exact fun _ _ => guards_pure trivial

theorem guards_rotateSecret (workspaceId secretId : String) (request : SecretRotateRequest)
    (client : ProviderCredential) :
    Guards (Reached suite provider) checks
      (Api.rotateSecret suite provider env workspaceId secretId request client) fun _ => True := by
  apply (guards_admitValue _ _ _ _ _).bind
  rintro labels ⟨hintent, hlabel⟩
  apply (guards_check fun _ hraised => absurd hraised decodeSecretValue_not_raised).bind
  intro value hvalue
  apply guards_catching
  apply (guards_call hdocumented hfaultless
    (.rotate (decodeSecretValue_bounded hvalue) hintent hlabel) rfl).bind
  intro metadata _
  apply (guards_appendAudit _ _ _).bind
  exact fun _ _ => guards_pure trivial

theorem guards_resolveSecret (workspaceId secretId : String) (request : EncodedResolveRequest)
    {authorization : Option String}
    (hchecks : ∀ raised, credential provider authorization = .error (.raised raised) →
      checks raised) :
    Guards (Reached suite provider) checks
      (Api.resolveSecret suite provider env workspaceId secretId request authorization)
      fun _ => True := by
  apply (guards_audited hchecks).bind
  intro client _
  apply (guards_audited fun _ hraised => absurd hraised validateIntent_not_raised).bind
  intro _ hvalid
  apply (guards_audited fun _ hraised => absurd hraised requireScope_not_raised).bind
  intro _ _
  apply guards_catching
  apply (guards_call hdocumented hfaultless (.resolve (validateIntent_eq_ok hvalid)) rfl).bind
  intro resolved _
  apply (guards_appendAudit _ _ _).bind
  exact fun _ _ => guards_pure trivial

theorem guards_revokeSecretVersion (workspaceId secretId versionId : String)
    (request : SecretVersionRevokeRequest) (client : ProviderCredential) :
    Guards (Reached suite provider) checks
      (Api.revokeSecretVersion suite provider env workspaceId secretId versionId request client)
      fun _ => True := by
  apply (guards_check fun _ hraised => absurd hraised requireScope_not_raised).bind
  intro _ _
  apply guards_catching
  apply (guards_call hdocumented hfaultless .revokeVersion rfl).bind
  intro revoked _
  exact guards_pure trivial

theorem guards_readMetadata (workspaceId secretId : String) (versionId : Option String)
    (client : ProviderCredential) :
    Guards (Reached suite provider) checks
      (Api.readMetadata suite provider env workspaceId secretId versionId client)
      fun _ => True := by
  apply (guards_check fun _ hraised => absurd hraised requireScope_not_raised).bind
  intro _ _
  apply guards_catching
  apply (guards_call hdocumented hfaultless .readMetadata rfl).bind
  intro metadata _
  apply (guards_appendAudit _ _ _).bind
  exact fun _ _ => guards_pure trivial

omit hdocumented hfaultless in
theorem guards_auditRevoked (fields : AuditFields) {revoked : List SecretMetadata}
    (hintents : ∀ metadata ∈ revoked, ∀ raised,
      durableMetadataIntent metadata ≠ .error (.raised raised)) :
    Guards inv checks (Api.auditRevoked suite provider env fields revoked) fun _ => True := by
  induction revoked with
  | nil => exact guards_pure trivial
  | cons metadata rest ih =>
      apply (guards_check fun raised hraised =>
        absurd hraised (hintents metadata List.mem_cons_self raised)).bind
      intro intent _
      apply (guards_appendAudit _ _ _).bind
      intro _ _
      exact ih fun other hother => hintents other (List.mem_cons_of_mem metadata hother)

theorem guards_revokeSecret (workspaceId secretId : String) (request : Option SecretRevokeRequest)
    (client : ProviderCredential) :
    Guards (Reached suite provider) checks
      (Api.revokeSecret suite provider env workspaceId secretId request client)
      fun _ => True := by
  apply (guards_check fun _ hraised => absurd hraised requireScope_not_raised).bind
  intro _ _
  apply guards_catching
  apply (guards_call hdocumented hfaultless .revoke rfl).bind
  rintro revoked ⟨before, after, log, hreached, hperforms⟩
  apply (guards_auditRevoked _ (hreached.revoked_intents hperforms)).bind
  exact fun _ _ => guards_pure trivial

theorem guards_generateDelegationKey (workspaceId secretId : String)
    (request : DelegationKeyGenerateRequest) (client : ProviderCredential)
    (hchecks : ∀ raised, Api.validGeneration provider request = .error (.raised raised) →
      checks raised) :
    Guards (Reached suite provider) checks
      (Api.generateDelegationKey suite provider env workspaceId secretId request client)
      fun _ => True := by
  have hrefuse : ∀ fields, Guards (Reached suite provider) checks
      (do
        appendAudit suite provider env fields "malformed" "invalid-delegation-key-generation"
        throw (.http 400 "malformed" "invalid-delegation-key-generation") : Handler Body)
      fun _ => True := by
    intro fields
    apply (guards_appendAudit fields _ _).bind
    exact fun _ _ => guards_http _ _ _
  unfold Api.generateDelegationKey
  split
  · exact hrefuse _
  · next intent hintent =>
      apply (guards_check hchecks).bind
      intro valid _
      split
      · exact hrefuse _
      · apply (guards_audited fun _ hraised => absurd hraised requireScope_not_raised).bind
        intro _ _
        apply guards_catching
        refine (guards_call hdocumented hfaultless
          (@Handled.generate ⟨_, _, _, _, _, _, _, _, _⟩ ?_ ?_) rfl).bind ?_
        · exact delegationSigningIntentFor_eq_ok hintent
        · exact request.issuer_length.2
        · rintro generated ⟨before, after, log, _, hperforms⟩
          obtain ⟨data, hdata⟩ := hperforms.publicPem_ascii
          apply (guards_check _).mono fun _ _ => trivial
          intro raised hraised
          rw [Api.generatedBody, hdata] at hraised
          cases hraised

/-- Nothing leaves a handler but what a check of its request raises, or the exception of a text
that cannot be encoded. -/
theorem guards_handler (request : Request) :
    Guards (Reached suite provider) (request.Leaves provider) (request.handler provider env)
      fun _ => True := by
  cases request with
  | write authorization workspaceId secretId body =>
      apply (guards_check fun _ hraised => .inl (.inl hraised)).bind
      intro client _
      exact guards_writeSecret hdocumented hfaultless workspaceId secretId body client
  | generate authorization workspaceId secretId body =>
      apply (guards_check fun _ hraised => .inl (.inl hraised)).bind
      intro client _
      apply guards_generateDelegationKey hdocumented hfaultless
      exact fun raised hraised => .inl (.inr ⟨_, _, _, _, rfl, hraised⟩)
  | rotate authorization workspaceId secretId body =>
      apply (guards_check fun _ hraised => .inl (.inl hraised)).bind
      intro client _
      exact guards_rotateSecret hdocumented hfaultless workspaceId secretId body client
  | resolve authorization workspaceId secretId body =>
      exact guards_resolveSecret hdocumented hfaultless workspaceId secretId body
        fun _ hraised => .inl (.inl hraised)
  | resolveUnencodable authorization workspaceId secretId body hunencodable =>
      intro full
      have hidle : KeptIdle FoundFull fun _ => True := fun _ _ _ => trivial
      apply (settles_resolveUnencodable hidle trivial workspaceId body).mono
      · exact fun _ _ _ => trivial
      · rintro _ _ ⟨hending, _⟩ raised rfl
        cases hending with
        | unencodable => exact .inl (.inr ⟨⟨_, _, _, _, _, rfl⟩, rfl⟩)
        | store hfault => exact absurd hfault hfaultless.not_faults
        | credential hraised => exact .inl (.inl (.inl hraised))
  | revokeVersion authorization workspaceId secretId versionId body =>
      apply (guards_check fun _ hraised => .inl (.inl hraised)).bind
      intro client _
      exact guards_revokeSecretVersion hdocumented hfaultless workspaceId secretId versionId body
        client
  | revoke authorization workspaceId secretId body =>
      apply (guards_check fun _ hraised => .inl (.inl hraised)).bind
      intro client _
      exact guards_revokeSecret hdocumented hfaultless workspaceId secretId body client
  | readMetadata authorization workspaceId secretId versionId =>
      apply (guards_check fun _ hraised => .inl (.inl hraised)).bind
      intro client _
      exact guards_readMetadata hdocumented hfaultless workspaceId secretId versionId client

end

/-! ### Servers -/

section

variable {suite : CryptoSuite} {provider : Provider}

/-- A later database has no fewer versions. -/
theorem Extends.length_le {before after : Tables} (hextends : Extends before after)
    (hconsistent : Consistent before) : before.versions.length ≤ after.versions.length := by
  have hsubset : before.versions.map VersionRow.key ⊆ after.versions.map VersionRow.key := by
    intro key hkey
    obtain ⟨row, hrow, rfl⟩ := List.mem_map.mp hkey
    obtain ⟨row', hrow', hversion, _⟩ := hextends.versions row hrow
    exact List.mem_map.mpr ⟨row', hrow', hversion.key⟩
  have hlength := (List.subperm_of_subset hconsistent.versionKeys hsubset).length_le
  rwa [List.length_map, List.length_map] at hlength

theorem serve_guarded (hdocumented : Documented suite provider.master) (call : ApiCall suite) :
    (serve provider call).Ensures (Reached suite provider)
      (fun ending steps => call.env.store.Faultless → ∀ raised,
        ending.1 = .error (.raised raised) → call.request.Leaves provider raised ∨ FoundFull steps)
      [] := by
  by_cases hfaultless : call.env.store.Faultless
  · have hguards : (serve provider call).Ensures (Reached suite provider) _ [] :=
      guards_handler hdocumented hfaultless call.request _ 0 [] rfl
    apply hguards.mono
    rintro ⟨result, count⟩ steps hended _ raised rfl
    exact hended raised rfl
  · apply (Script.ensures_true _).mono
    exact fun _ _ _ hstore => absurd hstore hfaultless

/-- A store call of a handler, on a database that fails no statement. -/
structure Made (provider : Provider) (call : Call suite) : Prop where
  master : call.master = provider.master
  handled : Handled call.operation
  faultless : call.env.Faultless

/-- What the store call of the resolve route raises, for a version identifier that cannot be
encoded. -/
def UnencodableRaises (server : Server suite) (env : Env suite) (workspaceId correlationId : String)
    (raised : Raised) : Prop :=
  (attempt (resolveUnencodableForUse suite env workspaceId correlationId : Tx Tables ResolvedSecret)
    server.state).1 = .error raised

/-- The handler of the resolve route catches what that raises. -/
def UnencodableCaught (server : Server suite) (env : Env suite)
    (workspaceId correlationId : String) : Prop :=
  ∀ args raised, UnencodableRaises server env workspaceId correlationId raised →
    raised ∈ (Operation.resolveSecretForUse args).caught

/-- What the store calls of a server raise, and what becomes of it. -/
structure Guarded (provider : Provider) (server : Server suite) : Prop where
  /-- A store call raises only what the handler of its route catches. -/
  caught : ∀ (call : Call suite) raised, Made provider call →
    (perform server.state call).1.result = .error raised → raised ∈ call.operation.caught
  /-- One for a version identifier that cannot be encoded does so when its correlation has a
  selection, and not otherwise. -/
  unencodable : ∀ (env : Env suite) workspaceId correlationId, env.Faultless →
    (UnencodableCaught server env workspaceId correlationId ↔
      (server.state.selection workspaceId correlationId).isSome = true)
  /-- No constraint is violated but the ones the store translates. -/
  constraints : ∀ call : Call suite, Made provider call →
    (perform server.state call).1.result ≠ .error .integrityError
  /-- The version of a generation is never missing. -/
  replays : ∀ (call : Call suite) args, Made provider call →
    call.operation = .generateDelegationKey args →
      (perform server.state call).1.result ≠ .error .secretMissing
  /-- The labels of a generation are never invalid. -/
  generations : ∀ (call : Call suite) args, Made provider call →
    call.operation = .generateDelegationKey args →
      (perform server.state call).1.result ≠ .error .secretMetadataInvalid
  /-- A rotation that draws a fresh identifier never finds its version taken. -/
  rotations : ∀ (call : Call suite) workspaceId secretId value labels intent,
    Made provider call →
      call.operation = .rotateSecret workspaceId secretId value labels intent →
        call.env.uuid4 ∉ server.state.versions.map VersionRow.versionId →
          (perform server.state call).1.result ≠ .error .secretAlreadyExists
  /-- Nothing leaves a handler unanswered but what a check of its request raises, or the exception
  of a text that cannot be encoded. -/
  answered : ∀ (index : Nat) call raised count,
    server.tasks[index]? = some ⟨call, .done (.error (.raised raised), count)⟩ →
      call.env.store.Faultless → call.request.Leaves provider raised

theorem unencodableCaught_iff {server : Server suite} {env : Env suite}
    {workspaceId correlationId : String} (hfaultless : env.Faultless) :
    UnencodableCaught server env workspaceId correlationId ↔
      (server.state.selection workspaceId correlationId).isSome = true := by
  obtain ⟨raised, hraised, hattempt⟩ := @attempt_useUnencodable suite ResolvedSecret env workspaceId
    correlationId server.state
  have hraises : ∀ found, UnencodableRaises server env workspaceId correlationId found ↔
      found = raised := by
    intro found
    rw [UnencodableRaises, hattempt]
    exact ⟨fun hsame => (Except.error.inj hsame).symm, fun hsame => congrArg Except.error hsame.symm⟩
  unfold UnencodableCaught
  simp only [hraises, forall_eq]
  cases hraised with
  | fault hfault => exact absurd hfault hfaultless.not_faults
  | conflict hpinned => simp [Operation.caught, hpinned]
  | unencodable hfresh =>
      have hargs : Nonempty ResolveSecretForUse := ⟨⟨"", "", "", "", "", none⟩⟩
      simp [Operation.caught, hfresh]

/-- The handlers cover what their store calls raise, in every run on a database that can number
its versions. -/
theorem handlers_guarded (hdocumented : Documented suite provider.master)
    (events : List (Event (ApiCall suite)))
    (hfits : ((runServer provider events).state.versions.length : Int) < maxSqliteInteger) :
    Guarded provider (runServer provider events) := by
  have hreached : Reached suite provider (runServer provider events).state :=
    runServer_reached hdocumented.decrypts events
  have hcaught : ∀ (call : Call suite) raised, Made provider call →
      (perform (runServer provider events).state call).1.result = .error raised →
        raised ∈ call.operation.caught := by
    intro call raised hmade hresult
    have hrefuses := (refuses_of_error hresult).1
    rw [hmade.master] at hrefuses
    exact hreached.caught hdocumented hmade.faultless hfits hmade.handled hrefuses
  constructor
  · exact hcaught
  · exact fun env workspaceId correlationId => unencodableCaught_iff
  · intro call hmade hresult
    have hlisted := hcaught call _ hmade hresult
    cases hoperation : call.operation <;> simp [hoperation, Operation.caught] at hlisted
  · intro call args hmade hoperation hresult
    have hlisted := hcaught call _ hmade hresult
    simp [hoperation, Operation.caught] at hlisted
  · intro call args hmade hoperation hresult
    have hlisted := hcaught call _ hmade hresult
    simp [hoperation, Operation.caught] at hlisted
  · intro call workspaceId secretId value labels intent hmade hoperation hfresh hresult
    have hrefuses := (refuses_of_error hresult).1
    rw [hoperation] at hrefuses
    exact hreached.rotation hfresh hrefuses
  · intro index call raised count htask hfaultless
    have hkept : System.Kept (Moved suite provider) (Reached suite provider) _ Tables.empty
        (runServer provider events) :=
      System.run_kept reached_empty
        (fun _ _ hbefore hmoved => hmoved.reached hdocumented.decrypts hbefore)
        (serve_guarantees fun _ _ hmoved => hmoved) (serve_guarded hdocumented) events
    rcases hkept.done htask hfaultless raised rfl with hraises | ⟨step, hstep, hfull⟩
    · exact hraises
    · obtain ⟨found, hfound, _, hbefore, _⟩ := System.mem_own.mp hstep
      obtain ⟨hconsistent, hextends⟩ := (path_extends hkept.path).2 found hfound
      have hlength := hextends.length_le hconsistent
      rw [hbefore] at hlength
      omega

end

theorem documented_transparent (master : MasterKey) : Documented transparentSuite master where
  keys := transparentSuite_keyMaterial
  publicPem_ascii privateKey := by cases privateKey <;> decide
  decrypts := transparentSuite_decryptsOwn
  takes := fun value _ _ _ _ => ⟨value ++ transparentTag master.key, rfl⟩

/-- A secret is written, and resolved once its write is audited. -/
def writtenAndResolved : List (Event (ApiCall transparentSuite)) :=
  (writeThenResolve "AA==" (by decide)).flatMap fun call => [.arrive call, .step 0, .step 1]

theorem handlers_guarded_resolved :
    Guarded openProvider (runServer openProvider writtenAndResolved) :=
  handlers_guarded (documented_transparent openProvider.master) writtenAndResolved
    (by decide +kernel)

/-- A version identifier that is an unpaired surrogate, with an intent that is admitted. -/
def surrogateVersion : SecretResolveRequest :=
  { intent := codes "postgres.password"
    callerSubject := "client"
    correlationId := "use"
    versionId := some [0xd800]
    callerSubject_length := client_length
    correlationId_length := use_length }

/-- Its request comes from a client with the grant, on an empty database. -/
def surrogateVersionEvents : List (Event (ApiCall transparentSuite)) :=
  [.arrive ⟨plainRequestEnv "use",
      surrogateVersion.request (some "Bearer token") "workspace" "secret"⟩, .step 0]

/-- The store call raises what the handler does not catch, and the request ends with it. -/
theorem surrogateVersion_uncaught :
    ¬ UnencodableCaught (runServer openProvider surrogateVersionEvents) (plainEnv "use")
        "workspace" "use" ∧
      ∃ call count, (runServer openProvider surrogateVersionEvents).tasks[0]? =
        some ⟨call, .done (.error (.raised .unicodeEncodeError), count)⟩ := by
  constructor
  · intro hcaught
    have hlisted := hcaught ⟨"workspace", "secret", "postgres.password", "client", "use", none⟩
      .unicodeEncodeError rfl
    simp [Operation.caught] at hlisted
  · exact ⟨_, _, rfl⟩

end SecretsCustody
