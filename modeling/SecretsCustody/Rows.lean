/-
Version rows and the metadata they hold: what a writing operation puts into a
row, and what a reading one rebuilds from it.
-/
import SecretsCustody.Effect
import SecretsCustody.Tables

namespace SecretsCustody

open Effect JsonText

/-! ### Writing -/

def maxLabels : Nat := 16

def maxLabelKeyChars : Nat := 64

def maxLabelValueChars : Nat := 256

/-- The bounds `_clean_labels` puts on one label. -/
def LabelFits (key value : String) : Prop :=
  key ≠ "" ∧ key.length ≤ maxLabelKeyChars ∧ value.length ≤ maxLabelValueChars

instance (key value : String) : Decidable (LabelFits key value) :=
  inferInstanceAs (Decidable (_ ∧ _ ∧ _))

/-- The loop of `_clean_labels`. -/
def cleanEach : List (Sigma fun _ : String => String) → Labels → Except Raised Labels
  | [], cleaned => .ok cleaned
  | ⟨labelKey, labelValue⟩ :: rest, cleaned =>
      if LabelFits labelKey labelValue then
        cleanEach rest (cleaned.insert (codes labelKey) (.str (codes labelValue)))
      else .error .secretMetadataInvalid

/-- `_clean_labels`. -/
def cleanLabels (labels : TextDict) : Except Raised Labels :=
  if labels.entries.length > maxLabels then .error .secretMetadataInvalid
  else cleanEach labels.entries ∅

/-- The labels `_clean_labels` accepts. -/
def ValidLabels (labels : TextDict) : Prop :=
  labels.entries.length ≤ maxLabels ∧ ∀ label ∈ labels.entries, LabelFits label.1 label.2

/-- The values the two `INSERT` and `UPDATE` statements bind. -/
def versionRow (metadata : SecretMetadata) (nonce ciphertext : Bytes) : VersionRow :=
  { workspaceId := metadata.workspaceId
    secretId := metadata.secretId
    versionId := metadata.versionId
    versionNumber := metadata.versionNumber
    status := metadata.status.value
    algorithm := metadata.algorithm
    keyFingerprint := metadata.keyFingerprint
    keyVersion := metadata.keyVersion
    nonce := .blob nonce
    ciphertext := .blob ciphertext
    labelsJson := dumps .standard metadata.labels.toJson
    createdAt := metadata.createdAt
    revokedAt := metadata.revokedAt }

/-! ### Reading -/

/-- One element of the sequence `dict(…)` takes: its two items.  A list or a map is no key.  `dict`
takes a null, a Boolean or a number for one, but such a map is no `Mapping[str, str]` and none of
`Labels`: it is refused here, and what is proved of any row names the rows that hold one. -/
def pairOf : Json → Except Raised (PyStr × Json)
  | .arr [.str key, value] => .ok (key, value)
  | .arr [_, _] => .error .typeError
  | .arr _ => .error .valueError
  | .str [key, value] => .ok ([key], .str [value])
  | .str _ => .error .valueError
  | .obj [(key, _), (value, _)] => .ok (key, .str value)
  | .obj _ => .error .valueError
  | _ => .error .typeError

/-- `dict(pairs)`: a later pair replaces an earlier one. -/
def Labels.ofPairs (pairs : List (PyStr × Json)) : Labels :=
  pairs.foldl (fun labels pair => labels.insert pair.1 pair.2) ∅

/-- `dict(value)` of a decoded JSON value. -/
def pyDict : Json → Except Raised Labels
  | .obj entries => .ok (Labels.ofPairs entries)
  | .arr items => (items.mapM pairOf).map Labels.ofPairs
  | .str [] => .ok ∅
  | .str _ => .error .valueError
  | _ => .error .typeError

/-- The exception of a text `json.loads` does not read. -/
def loadRaised : LoadFault → Raised
  | .malformed => .jsonDecodeError
  | .longInteger => .valueError
  | .recursion => .recursionError

/-- `dict(json.loads(row["labels_json"]))`. -/
def VersionRow.loadLabels (row : VersionRow) : Except Raised Labels :=
  match loads row.limits.deepToRead row.labelsJson with
  | .error fault => .error (loadRaised fault)
  | .ok decoded => pyDict decoded

/-- `_metadata_from_row`, the fetch of the row included: `sqlite3` raises `OperationalError` for a
text that is no UTF-8. -/
def metadataFromRow (row : VersionRow) : Except Raised SecretMetadata :=
  if row.limits.undecodable then .error (.sqlite .operational)
  else
    match SecretStatus.ofValue row.status with
    | none => .error .valueError
    | some status =>
        match row.loadLabels with
        | .error raised => .error raised
        | .ok labels =>
            .ok {
              workspaceId := row.workspaceId
              secretId := row.secretId
              versionId := row.versionId
              versionNumber := row.versionNumber
              status := status
              algorithm := row.algorithm
              keyFingerprint := row.keyFingerprint
              keyVersion := row.keyVersion
              labels := labels
              createdAt := row.createdAt
              revokedAt := row.revokedAt }

/-- `_decrypt_row`. -/
def decryptRow (suite : CryptoSuite) (master : MasterKey) (row : VersionRow) :
    Except Raised Bytes := do
  let metadata ← metadataFromRow row
  raiseIf (metadata.algorithm ≠ algorithm) .secretTampered
  raiseIf (metadata.keyFingerprint ≠ master.fingerprint suite) .secretTampered
  let nonce ← row.nonce.bytes row.limits.memory
  let ciphertext ← row.ciphertext.bytes row.limits.memory
  raiseIf (row.limits.deepToWrite = true) .recursionError
  match master.decrypt suite nonce ciphertext (aad metadata) with
  | none => throw .secretTampered
  | some plaintext => return plaintext

/-- The metadata a row holds, column by column. -/
structure Describes (row : VersionRow) (metadata : SecretMetadata) : Prop where
  workspaceId : metadata.workspaceId = row.workspaceId
  secretId : metadata.secretId = row.secretId
  versionId : metadata.versionId = row.versionId
  versionNumber : metadata.versionNumber = row.versionNumber
  status : row.status = metadata.status.value
  algorithm : metadata.algorithm = row.algorithm
  keyFingerprint : metadata.keyFingerprint = row.keyFingerprint
  keyVersion : metadata.keyVersion = row.keyVersion
  createdAt : metadata.createdAt = row.createdAt
  revokedAt : metadata.revokedAt = row.revokedAt

/-- A row reads as metadata: it is fetched, its status is one, and its labels decode. -/
structure Reads (row : VersionRow) (metadata : SecretMetadata) : Prop
    extends Describes row metadata where
  decodable : row.limits.undecodable = false
  labels : row.loadLabels = .ok metadata.labels

theorem metadataFromRow_eq_ok {row : VersionRow} {metadata : SecretMetadata} :
    metadataFromRow row = .ok metadata ↔ Reads row metadata := by
  unfold metadataFromRow
  constructor
  · intro hmetadata
    split at hmetadata
    · cases hmetadata
    · next hdecodable =>
        split at hmetadata
        · cases hmetadata
        · next status hstatus =>
            split at hmetadata
            · cases hmetadata
            · next labels hlabels =>
                cases hmetadata
                exact ⟨⟨rfl, rfl, rfl, rfl, SecretStatus.value_of_ofValue hstatus, rfl, rfl, rfl,
                  rfl, rfl⟩, Bool.eq_false_iff.mpr hdecodable, hlabels⟩
  · intro hreads
    simp only [hreads.decodable, Bool.false_eq_true, if_false, hreads.status,
      SecretStatus.ofValue_value, hreads.labels, ← hreads.workspaceId, ← hreads.secretId,
      ← hreads.versionId, ← hreads.versionNumber, ← hreads.algorithm, ← hreads.keyFingerprint,
      ← hreads.keyVersion, ← hreads.createdAt, ← hreads.revokedAt]

theorem metadataFromRow_describes {row : VersionRow} {metadata : SecretMetadata}
    (hmetadata : metadataFromRow row = .ok metadata) : Describes row metadata :=
  (metadataFromRow_eq_ok.mp hmetadata).toDescribes

theorem pairOf_error {item : Json} {raised : Raised} (hpair : pairOf item = .error raised) :
    raised = .valueError ∨ raised = .typeError := by
  unfold pairOf at hpair
  split at hpair <;> cases hpair <;> simp

theorem pyDict_error {decoded : Json} {raised : Raised} (hdict : pyDict decoded = .error raised) :
    raised = .valueError ∨ raised = .typeError := by
  unfold pyDict at hdict
  split at hdict
  · cases hdict
  · obtain ⟨item, _, hitem⟩ := mapM_eq_error (map_eq_error.mp hdict)
    exact pairOf_error hitem
  · cases hdict
  · cases hdict
    exact .inl rfl
  · cases hdict
    exact .inr rfl

theorem loadLabels_error {row : VersionRow} {raised : Raised}
    (hlabels : row.loadLabels = .error raised) :
    row.limits.deepToRead = true ∧ raised = .recursionError ∨
      raised ∈ [.valueError, .typeError, .jsonDecodeError] := by
  unfold VersionRow.loadLabels at hlabels
  split at hlabels
  · next fault hloads =>
      cases hlabels
      cases fault with
      | malformed => simp [loadRaised]
      | longInteger => simp [loadRaised]
      | recursion => exact .inl ⟨loads_eq_recursion.mp hloads, rfl⟩
  · rcases pyDict_error hlabels with rfl | rfl
    · simp
    · simp

/-- Why a row does not read. -/
theorem metadataFromRow_eq_error {row : VersionRow} {raised : Raised} :
    metadataFromRow row = .error raised ↔
      row.limits.undecodable = true ∧ raised = .sqlite .operational ∨
        row.limits.undecodable = false ∧
          (SecretStatus.ofValue row.status = none ∧ raised = .valueError ∨
            SecretStatus.ofValue row.status ≠ none ∧ row.loadLabels = .error raised) := by
  unfold metadataFromRow
  cases row.limits.undecodable with
  | true => simp [eq_comm]
  | false =>
      cases SecretStatus.ofValue row.status with
      | none => simp [eq_comm]
      | some status => cases row.loadLabels <;> simp

/-- The exceptions of a row that does not read, none of them an exception of the store's own. -/
def readingErrors : List Raised :=
  [.valueError, .typeError, .jsonDecodeError, .recursionError, .sqlite .operational]

theorem metadataFromRow_error {row : VersionRow} {raised : Raised}
    (hmetadata : metadataFromRow row = .error raised) : raised ∈ readingErrors := by
  rcases metadataFromRow_eq_error.mp hmetadata with ⟨_, rfl⟩ | ⟨_, ⟨_, rfl⟩ | ⟨_, hlabels⟩⟩
  · simp [readingErrors]
  · simp [readingErrors]
  · rcases loadLabels_error hlabels with ⟨_, rfl⟩ | hlisted
    · simp [readingErrors]
    · simp only [List.mem_cons, List.not_mem_nil, or_false] at hlisted
      rcases hlisted with rfl | rfl | rfl
      all_goals simp [readingErrors]

theorem Describes.key {row : VersionRow} {metadata : SecretMetadata}
    (hdescribes : Describes row metadata) :
    (metadata.workspaceId, metadata.secretId, metadata.versionId) = row.key := by
  rw [hdescribes.workspaceId, hdescribes.secretId, hdescribes.versionId]
  rfl

/-- A row decrypts under its own metadata and the key whose fingerprint it
names, or not at all. -/
theorem decryptRow_eq_ok {suite : CryptoSuite} {master : MasterKey} {row : VersionRow}
    {plaintext : Bytes} :
    decryptRow suite master row = .ok plaintext ↔
      ∃ metadata nonce ciphertext, metadataFromRow row = .ok metadata ∧
        metadata.algorithm = algorithm ∧ metadata.keyFingerprint = master.fingerprint suite ∧
        row.nonce.bytes row.limits.memory = .ok nonce ∧
        row.ciphertext.bytes row.limits.memory = .ok ciphertext ∧
        row.limits.deepToWrite = false ∧
        master.decrypt suite nonce ciphertext (aad metadata) = some plaintext := by
  unfold decryptRow
  simp only [bind_eq_ok]
  constructor
  · rintro ⟨metadata, hmetadata, _, halgorithm, _, hfingerprint, nonce, hnonce, ciphertext,
      hciphertext, _, hshallow, hdecrypt⟩
    rw [raiseIf_eq_ok, not_not] at halgorithm hfingerprint
    rw [raiseIf_eq_ok, Bool.not_eq_true] at hshallow
    refine ⟨metadata, nonce, ciphertext, hmetadata, halgorithm, hfingerprint, hnonce,
      hciphertext, hshallow, ?_⟩
    cases hfound : master.decrypt suite nonce ciphertext (aad metadata) with
    | none => rw [hfound] at hdecrypt; cases hdecrypt
    | some found => rw [hfound] at hdecrypt; cases hdecrypt; rfl
  · rintro ⟨metadata, nonce, ciphertext, hmetadata, halgorithm, hfingerprint, hnonce,
      hciphertext, hshallow, hdecrypt⟩
    refine ⟨metadata, hmetadata, (), raiseIf_eq_ok.mpr (not_not.mpr halgorithm), (),
      raiseIf_eq_ok.mpr (not_not.mpr hfingerprint), nonce, hnonce, ciphertext, hciphertext, (),
      raiseIf_eq_ok.mpr (by simp [hshallow]), ?_⟩
    rw [hdecrypt]
    rfl

theorem decryptRow_shallow {suite : CryptoSuite} {master : MasterKey} {row : VersionRow}
    {plaintext : Bytes} (hdecrypt : decryptRow suite master row = .ok plaintext) :
    row.limits.deepToWrite = false := by
  obtain ⟨_, _, _, _, _, _, _, _, hshallow, _⟩ := decryptRow_eq_ok.mp hdecrypt
  exact hshallow

/-! ### Rows read back as they were written -/

theorem foldl_insert_lookup {pairs : List (PyStr × Json)} (hnodup : (pairs.map Prod.fst).Nodup)
    (labels : Labels) (key : PyStr) :
    (pairs.foldl (fun labels pair => labels.insert pair.1 pair.2) labels).lookup key =
      (pairs.lookup key).or (labels.lookup key) := by
  induction pairs generalizing labels with
  | nil => rfl
  | cons pair pairs ih =>
      obtain ⟨k, value⟩ := pair
      simp only [List.map_cons, List.nodup_cons] at hnodup
      rw [List.foldl_cons, ih hnodup.2, List.lookup_cons]
      by_cases hkey : key = k
      · subst hkey
        have hfresh : pairs.lookup key = none := List.lookup_eq_none_iff.mpr fun entry hentry =>
          by simpa using fun heq : key = entry.1 => hnodup.1 (heq ▸ List.mem_map_of_mem hentry)
        simp [hfresh]
      · have hbeq : (key == k) = false := by simpa using hkey
        rw [hbeq, Finmap.lookup_insert_of_ne _ hkey]

theorem Labels.lookup_ofPairs {pairs : List (PyStr × Json)}
    (hnodup : (pairs.map Prod.fst).Nodup) (key : PyStr) :
    (Labels.ofPairs pairs).lookup key = pairs.lookup key := by
  rw [Labels.ofPairs, foldl_insert_lookup hnodup, Finmap.lookup_empty, Option.or_none]

/-- What a store statement wrote as `labels_json` reads back as the same map. -/
theorem pyDict_toJson {labels : Labels} (htext : labels.IsText) :
    pyDict (sortKeys labels.toJson) = .ok labels := by
  have hperm := List.perm_insertionSort keyLe (sortEntries labels.entries)
  have hnodup : (((sortEntries labels.entries).insertionSort keyLe).map Prod.fst).Nodup := by
    rw [(hperm.map Prod.fst).nodup_iff, sortEntries_keys]
    exact labels.entries_nodup
  change Except.ok (Labels.ofPairs ((sortEntries labels.entries).insertionSort keyLe)) = _
  congr 1
  apply Finmap.ext_lookup
  intro key
  calc (Labels.ofPairs ((sortEntries labels.entries).insertionSort keyLe)).lookup key
      = ((sortEntries labels.entries).insertionSort keyLe).lookup key :=
        Labels.lookup_ofPairs hnodup key
    _ = (sortEntries labels.entries).lookup key := lookup_perm hnodup hperm key
    _ = (labels.lookup key).map sortKeys := by
        rw [lookup_sortEntries, Labels.lookup_entries]
    _ = labels.lookup key := htext.map_sortKeys key

/-- The row of a text-labelled metadata reads back as that metadata. -/
theorem metadataFromRow_versionRow {metadata : SecretMetadata} (htext : metadata.labels.IsText)
    (nonce ciphertext : Bytes) :
    metadataFromRow (versionRow metadata nonce ciphertext) = .ok metadata := by
  refine metadataFromRow_eq_ok.mpr ⟨⟨rfl, rfl, rfl, rfl, rfl, rfl, rfl, rfl, rfl, rfl⟩, rfl, ?_⟩
  simp only [VersionRow.loadLabels, versionRow, loads_dumps .standard htext.plain htext.short,
    pyDict_toJson htext]

/-- A row written with an encryption of its own metadata decrypts to what was
encrypted. -/
theorem decryptRow_versionRow {suite : CryptoSuite} (hsuite : suite.DecryptsOwn)
    {master master' : MasterKey} (hkey : master'.key = master.key) {metadata : SecretMetadata}
    (htext : metadata.labels.IsText) (halgorithm : metadata.algorithm = algorithm)
    (hfingerprint : metadata.keyFingerprint = master.fingerprint suite)
    {nonce plaintext ciphertext : Bytes}
    (hencrypt : master.encrypt suite nonce plaintext (aad metadata) = .ok ciphertext) :
    decryptRow suite master' (versionRow metadata nonce ciphertext) = .ok plaintext := by
  have hsame : metadata.keyFingerprint = master'.fingerprint suite := by
    rw [hfingerprint, MasterKey.fingerprint, MasterKey.fingerprint, hkey]
  have hdecrypt := MasterKey.decrypt_of_encrypt hsuite hkey hencrypt
  exact decryptRow_eq_ok.mpr ⟨metadata, nonce, ciphertext,
    metadataFromRow_versionRow htext nonce ciphertext, halgorithm, hsame, rfl, rfl, rfl, hdecrypt⟩

/-! ### Cleaned labels -/

theorem Labels.isText_empty : (∅ : Labels).IsText := by
  intro key value hfound
  simp at hfound

theorem Labels.IsText.insert {labels : Labels} (htext : labels.IsText) (key value : String) :
    Labels.IsText (labels.insert (codes key) (.str (codes value))) := by
  intro found label hfound
  by_cases hkey : found = codes key
  · subst hkey
    rw [Finmap.lookup_insert] at hfound
    cases hfound
    exact ⟨codes_plain key, codes value, codes_plain value, rfl⟩
  · rw [Finmap.lookup_insert_of_ne _ hkey] at hfound
    exact htext found label hfound

theorem cleanEach_isText {items : List (Sigma fun _ : String => String)} {cleaned clean : Labels}
    (htext : cleaned.IsText) (hclean : cleanEach items cleaned = .ok clean) : clean.IsText := by
  induction items generalizing cleaned with
  | nil =>
      cases hclean
      exact htext
  | cons item items ih =>
      unfold cleanEach at hclean
      split at hclean
      · exact ih (htext.insert _ _) hclean
      · cases hclean

theorem cleanLabels_isText {labels : TextDict} {clean : Labels}
    (hclean : cleanLabels labels = .ok clean) : clean.IsText := by
  unfold cleanLabels at hclean
  split at hclean
  · cases hclean
  · exact cleanEach_isText Labels.isText_empty hclean

/-- The keys the loop adds, and the value it leaves under each. -/
theorem cleanEach_lookup {items : List (Sigma fun _ : String => String)} {cleaned clean : Labels}
    (hnodup : (items.map Sigma.fst).Nodup) (hclean : cleanEach items cleaned = .ok clean) :
    (∀ label ∈ items, clean.has label.1 label.2 = true) ∧
      (∀ key, key ∉ items.map (fun label => codes label.1) →
        clean.lookup key = cleaned.lookup key) ∧
      clean.keys = (items.map fun label => codes label.1).toFinset ∪ cleaned.keys := by
  induction items generalizing cleaned with
  | nil =>
      cases hclean
      simp
  | cons item items ih =>
      unfold cleanEach at hclean
      split at hclean
      · simp only [List.map_cons, List.nodup_cons] at hnodup
        obtain ⟨hhas, hother, hkeys⟩ := ih hnodup.2 hclean
        have hnew : codes item.1 ∉ items.map fun label => codes label.1 := by
          intro hmem
          obtain ⟨label, hlabel, hcodes⟩ := List.mem_map.mp hmem
          exact hnodup.1 (codes_injective hcodes ▸ List.mem_map_of_mem hlabel)
        refine ⟨?_, ?_, ?_⟩
        · intro label hlabel
          rcases List.mem_cons.mp hlabel with rfl | hlabel
          · rw [Labels.has_iff, hother _ hnew, Finmap.lookup_insert]
          · exact hhas label hlabel
        · intro key hkey
          simp only [List.map_cons, List.mem_cons, not_or] at hkey
          rw [hother key hkey.2, Finmap.lookup_insert_of_ne _ hkey.1]
        · rw [hkeys]
          ext key
          simp only [List.map_cons, List.toFinset_cons, Finset.mem_union, Finset.mem_insert,
            Finmap.mem_keys, Finmap.mem_insert]
          exact or_left_comm.trans or_assoc.symm
      · cases hclean

/-- Labels that were accepted match the texts they were given as. -/
theorem cleanLabels_matchesTexts {labels : TextDict} {clean : Labels}
    (hclean : cleanLabels labels = .ok clean) :
    clean.matchesTexts (labels.entries.map fun label => (label.1, label.2)) = true := by
  unfold cleanLabels at hclean
  split at hclean
  · cases hclean
  · have hnodup : (labels.entries.map Sigma.fst).Nodup := labels.nodupKeys
    obtain ⟨hhas, _, hkeys⟩ := cleanEach_lookup hnodup hclean
    have hcodes : (labels.entries.map fun label => codes label.1).Nodup := by
      have hmapped := hnodup.map codes_injective
      rwa [List.map_map] at hmapped
    simp only [Labels.matchesTexts, Bool.and_eq_true, decide_eq_true_eq, List.length_map,
      List.all_map, List.all_eq_true, Function.comp_apply]
    refine ⟨?_, hhas⟩
    rw [hkeys, Finmap.keys_empty, Finset.union_empty, List.toFinset_card_of_nodup hcodes,
      List.length_map]

theorem cleanEach_isOk_iff (items : List (Sigma fun _ : String => String)) (cleaned : Labels) :
    (∃ clean, cleanEach items cleaned = .ok clean) ↔
      ∀ label ∈ items, LabelFits label.1 label.2 := by
  induction items generalizing cleaned with
  | nil => simp [cleanEach]
  | cons item items ih =>
      by_cases hfits : LabelFits item.1 item.2
      · simp [cleanEach, hfits, ih]
      · simp [cleanEach, hfits]

/-- Labels are refused exactly when they break a bound. -/
theorem cleanLabels_isOk_iff (labels : TextDict) :
    (∃ clean, cleanLabels labels = .ok clean) ↔ ValidLabels labels := by
  unfold cleanLabels ValidLabels
  split
  · next hmany =>
      simp only [reduceCtorEq, exists_false, false_iff]
      omega
  · next hfew =>
      rw [cleanEach_isOk_iff]
      simp only [show labels.entries.length ≤ maxLabels by omega, true_and]

theorem cleanEach_error {items : List (Sigma fun _ : String => String)} {cleaned : Labels}
    {raised : Raised} (hclean : cleanEach items cleaned = .error raised) :
    raised = .secretMetadataInvalid := by
  induction items generalizing cleaned with
  | nil => cases hclean
  | cons item items ih =>
      unfold cleanEach at hclean
      split at hclean
      · exact ih hclean
      · cases hclean
        rfl

theorem cleanLabels_error {labels : TextDict} {raised : Raised}
    (hclean : cleanLabels labels = .error raised) : raised = .secretMetadataInvalid := by
  unfold cleanLabels at hclean
  split at hclean
  · cases hclean
    rfl
  · exact cleanEach_error hclean

end SecretsCustody
