/-
Rows that were written over.  Under an ideal cipher whatever decrypts reads as
it was stored: an active row that opens is the row of its version, with the
metadata and the bytes that were inserted.
-/
import SecretsCustody.Coherence
import SecretsCustody.JsonReading
import SecretsCustody.TamperEvidence

namespace SecretsCustody

open History JsonText KeyedRows

/-! ### Labels as they decode -/

/-- The labels are what some JSON text decodes to. -/
def Labels.IsReadable (labels : Labels) : Prop :=
  ∀ key value, labels.lookup key = some value → Unpaired key ∧ Readable value

theorem Labels.isReadable_ofPairs {pairs : List (PyStr × Json)}
    (hpairs : ∀ pair ∈ pairs, Unpaired pair.1 ∧ Readable pair.2) :
    (Labels.ofPairs pairs).IsReadable := by
  have hfrom : ∀ labels : Labels, labels.IsReadable → Labels.IsReadable
      (pairs.foldl (fun labels pair => labels.insert pair.1 pair.2) labels) := by
    induction pairs with
    | nil => exact fun _ hlabels => hlabels
    | cons pair pairs ih =>
        intro labels hlabels
        apply ih fun other hother => hpairs other (List.mem_cons_of_mem pair hother)
        intro key value hfound
        by_cases hkey : key = pair.1
        · subst hkey
          rw [Finmap.lookup_insert] at hfound
          cases hfound
          exact hpairs pair List.mem_cons_self
        · rw [Finmap.lookup_insert_of_ne _ hkey] at hfound
          exact hlabels key value hfound
  apply hfrom
  intro key value hfound
  simp at hfound

theorem pairOf_readable {item : Json} {pair : PyStr × Json} (hreadable : Readable item)
    (hpair : pairOf item = .ok pair) : Unpaired pair.1 ∧ Readable pair.2 := by
  unfold pairOf at hpair
  split at hpair <;> cases hpair
  · exact ⟨hreadable.1, hreadable.2.1⟩
  · have hlone : ∀ {code : Nat}, code < 0x110000 → Unpaired [code] := by
      intro code hbound
      refine ⟨hbound, ?_, trivial⟩
      intro _ low hnone
      cases hnone
    exact ⟨hlone hreadable.1, hlone hreadable.2.2.1⟩
  · exact ⟨hreadable.1, hreadable.2.2.1⟩

theorem pairsOf_readable {items : List Json} {pairs : List (PyStr × Json)}
    (hreadable : ReadableItems items) (hpairs : items.mapM pairOf = .ok pairs) :
    ∀ pair ∈ pairs, Unpaired pair.1 ∧ Readable pair.2 := by
  have hrelated := Effect.mapM_eq_ok.mp hpairs
  induction hrelated with
  | nil =>
      intro pair hpair
      cases hpair
  | cons hitem hrest ih =>
      intro pair hpair
      rcases List.mem_cons.mp hpair with rfl | hpair
      · exact pairOf_readable hreadable.1 hitem
      · exact ih hreadable.2 (Effect.mapM_eq_ok.mpr hrest) pair hpair

theorem pyDict_isReadable {decoded : Json} {labels : Labels} (hreadable : Readable decoded)
    (hlabels : pyDict decoded = .ok labels) : labels.IsReadable := by
  unfold pyDict at hlabels
  split at hlabels
  · cases hlabels
    exact Labels.isReadable_ofPairs ((readableEntries_iff _).mp hreadable)
  · next items =>
      cases hitems : items.mapM pairOf with
      | error raised =>
          rw [hitems] at hlabels
          cases hlabels
      | ok pairs =>
          rw [hitems] at hlabels
          cases hlabels
          exact Labels.isReadable_ofPairs (pairsOf_readable hreadable hitems)
  · cases hlabels
    intro key value hfound
    simp at hfound
  · cases hlabels
  · cases hlabels

theorem metadataFromRow_isReadable {row : VersionRow} {metadata : SecretMetadata}
    (hreads : metadataFromRow row = .ok metadata) : metadata.labels.IsReadable := by
  have hlabels := (metadataFromRow_eq_ok.mp hreads).labels
  unfold VersionRow.loadLabels at hlabels
  split at hlabels
  · cases hlabels
  · next hdecoded => exact pyDict_isReadable (loads_readable hdecoded) hlabels

/-! ### Associated data of labels as they decode -/

theorem Labels.IsText.textEntries {labels : Labels} (htext : labels.IsText) :
    TextEntries ((sortEntries labels.entries).insertionSort keyLe) := by
  intro entry hentry
  rw [(List.perm_insertionSort keyLe _).mem_iff, sortEntries_eq_map, List.mem_map] at hentry
  obtain ⟨⟨key, value⟩, hmem, rfl⟩ := hentry
  obtain ⟨hkey, text, hplain, rfl⟩ := htext key value (mem_entries.mp hmem)
  exact ⟨hkey.unpaired, text, hplain.unpaired, rfl⟩

theorem Labels.IsReadable.readableEntries {labels : Labels} (hreadable : labels.IsReadable) :
    ReadableEntries ((sortEntries labels.entries).insertionSort keyLe) := by
  rw [readableEntries_iff]
  intro entry hentry
  rw [(List.perm_insertionSort keyLe _).mem_iff, sortEntries_eq_map, List.mem_map] at hentry
  obtain ⟨⟨key, value⟩, hmem, rfl⟩ := hentry
  obtain ⟨hkey, hvalue⟩ := hreadable key value (mem_entries.mp hmem)
  exact ⟨hkey, readable_sortKeys value hvalue⟩

/-- Labels written like text labels are text labels. -/
theorem Labels.IsText.of_sortKeys {left right : Labels} (hleft : left.IsText)
    (heq : sortKeys left.toJson = sortKeys right.toJson) : right.IsText := by
  intro key value hfound
  have hmem : (key, sortKeys value) ∈ (sortEntries right.entries).insertionSort keyLe := by
    rw [(List.perm_insertionSort keyLe _).mem_iff, sortEntries_eq_map, List.mem_map]
    exact ⟨(key, value), mem_entries.mpr hfound, rfl⟩
  have hsorted : (sortEntries left.entries).insertionSort keyLe =
      (sortEntries right.entries).insertionSort keyLe := Json.obj.inj heq
  rw [← hsorted, (List.perm_insertionSort keyLe _).mem_iff, sortEntries_eq_map,
    List.mem_map] at hmem
  obtain ⟨⟨key', value'⟩, hmem', hsame⟩ := hmem
  obtain ⟨hkey, text, htext, rfl⟩ := hleft key' value' (mem_entries.mp hmem')
  obtain ⟨rfl, hvalue⟩ := Prod.mk.inj hsame
  refine ⟨hkey, text, htext, ?_⟩
  cases value <;> cases hvalue
  rfl

/-- A member with one name and a text value, in front of others. -/
theorem renderEntries_cons_text {sep : Separators} {key : PyStr} {left right : String}
    {entries entries' : List (PyStr × Json)}
    (hsame : renderEntries sep ((key, .str (codes left)) :: entries) =
      renderEntries sep ((key, .str (codes right)) :: entries')) :
    renderEntries sep entries = renderEntries sep entries' := by
  simp only [renderEntries, render, List.cons.injEq, true_and, List.append_assoc,
    List.cons_append, List.append_cancel_left_eq] at hsame
  exact (quoted_append_inj (codes_plain left).unpaired (codes_plain right).unpaired hsame).2

/-- Metadata whose labels decode to anything shares its associated data with text-labelled
metadata only if it is that metadata. -/
theorem aad_injective_of_readable {left right : SecretMetadata} (hleft : left.labels.IsText)
    (hright : right.labels.IsReadable) (haad : aad left = aad right) : left = right := by
  obtain ⟨rest, hpayload⟩ := sortKeys_aadPayload left
  obtain ⟨rest', hpayload'⟩ := sortKeys_aadPayload right
  have htext : render .compact (sortKeys (aadPayload left)) =
      render .compact (sortKeys (aadPayload right)) :=
    String.ofList_injective (encodeUtf8_injective haad)
  rw [hpayload, hpayload'] at htext
  have hentries : ∀ {entry entry' : PyStr × Json} {entries entries' : List (PyStr × Json)},
      render .compact (.obj (entry :: entries)) = render .compact (.obj (entry' :: entries')) →
      renderEntries .compact (entry :: entries) = renderEntries .compact (entry' :: entries') := by
    rintro ⟨key, value⟩ ⟨key', value'⟩ entries entries' hsame
    simp only [render, List.cons.injEq, true_and] at hsame
    simp only [renderEntries, Separators.pad, List.nil_append] at hsame ⊢
    rw [hsame]
  have hlabels :
      renderEntries .compact ((codes "labels", sortKeys left.labels.toJson) :: rest) =
        renderEntries .compact ((codes "labels", sortKeys right.labels.toJson) :: rest') :=
    renderEntries_cons_text (renderEntries_cons_text (renderEntries_cons_text
      (renderEntries_cons_text (hentries htext))))
  simp only [renderEntries, List.cons.injEq, true_and, List.append_assoc,
    List.append_cancel_left_eq] at hlabels
  have hsorted : sortKeys left.labels.toJson = sortKeys right.labels.toJson :=
    congrArg Json.obj (render_obj_inj hleft.textEntries hright.readableEntries hlabels).1
  exact aad_injective hleft (hleft.of_sortKeys hsorted) haad

/-! ### New versions -/

/-- The id of the new version an encryption was made for. -/
def Encryption.drawnId (encryption : Encryption) : Option String :=
  match encryption.associated with
  | .version metadata => if metadata.status = .active then some metadata.versionId else none
  | .custody _ => none

/-- No id was drawn for two new versions, those of calls that failed or crashed included. -/
def DrawsFresh (log : List Encryption) : Prop :=
  (log.filterMap Encryption.drawnId).Nodup

instance (log : List Encryption) : Decidable (DrawsFresh log) :=
  inferInstanceAs (Decidable (List.Nodup _))

theorem DrawsFresh.eq_of_drawnId {log : List Encryption} (hfresh : DrawsFresh log)
    {left right : Encryption} (hleft : left ∈ log) (hright : right ∈ log) {versionId : String}
    (hdrawn : left.drawnId = some versionId) (hdrawn' : right.drawnId = some versionId) :
    left = right := by
  have hpairs := List.pairwise_filterMap.mp hfresh
  have : Std.Symm fun encryption encryption' : Encryption =>
      ∀ id, encryption.drawnId = some id → ∀ id', encryption'.drawnId = some id' → id ≠ id' :=
    ⟨fun _ _ hne id hid id' hid' heq => hne id' hid' id hid heq.symm⟩
  by_contra hne
  exact hpairs.forall hleft hright hne versionId hdrawn versionId hdrawn' rfl

section

variable {suite : CryptoSuite}

/-- What a log says of a version row: the encryption it holds was made, and while it is active
its version was inserted with these metadata and bytes. -/
structure StoredAs (steps : List (Step suite)) (row : VersionRow) (metadata : SecretMetadata)
    (encryption : Encryption) : Prop where
  seals : Seals suite encryption row metadata
  made : ∃ step ∈ steps, encryption ∈ step.output.encryptions
  inserted : metadata.status = .active →
    findLast insertionKey (insertedIn steps) row.key = some (metadata, encryption.plaintext)

def AllStored (steps : List (Step suite)) (tables : Tables) : Prop :=
  ∀ row ∈ tables.versions, ∃ metadata encryption, StoredAs steps row metadata encryption

/-- A call that returned leaves every row as the log says. -/
theorem Performs.allStored {env : Env suite} {master : MasterKey} {before after : Tables}
    {operation : Operation} {reply : Reply} {log : List Encryption}
    {steps : List (Step suite)} {step : Step suite}
    (hperforms : Performs env master before operation reply after log)
    (hconsistent : Consistent before) (hstored : AllStored steps before)
    (hlog : step.output.encryptions = log)
    (hinsertions : insertedIn (steps ++ [step]) =
      insertedIn steps ++ (inserted env operation reply).toList) :
    AllStored (steps ++ [step]) after := by
  have heffect := hperforms.versionsEffect hconsistent.versionKeys
  obtain ⟨change, added, hrows, hsteps, hadded⟩ := heffect.rows
  have hmade : ∀ {encryption : Encryption}, encryption ∈ log →
      ∃ found ∈ steps ++ [step], encryption ∈ found.output.encryptions := by
    intro encryption hmem
    exact ⟨step, List.mem_append_right _ (List.mem_singleton_self _), hlog ▸ hmem⟩
  intro row' hrow'
  rw [hrows, List.mem_append] at hrow'
  rcases hrow' with hold | hnew
  · obtain ⟨row, hrow, rfl⟩ := List.mem_map.mp hold
    obtain ⟨metadata, encryption, hsays⟩ := hstored row hrow
    have hsame := heffect.insertions_eq steps hrow
    have hstep := hsteps row hrow
    generalize change row = row' at hstep
    cases hstep with
    | same =>
        obtain ⟨found, hfound, hencryption⟩ := hsays.made
        refine ⟨metadata, encryption, hsays.seals,
          ⟨found, List.mem_append_left _ hfound, hencryption⟩, fun hactive => ?_⟩
        rw [hinsertions, hsame]
        exact hsays.inserted hactive
    | @resealed found encryption' _ _ _ hseals _ hmem =>
        exact ⟨_, encryption', hseals, hmade hmem, fun hactive => nomatch hactive⟩
  · cases hadded with
    | none => cases hnew
    | @one clean workspaceId secretId versionNumber metadata encryption hinserted _ _ _ hseals
        _ hmem =>
        rw [List.mem_singleton] at hnew
        subst hnew
        refine ⟨metadata, encryption, hseals, hmade hmem, fun _ => ?_⟩
        rw [hinsertions, hinserted]
        apply findLast_append_eq
        · intro found hfound _
          exact List.mem_singleton.mp hfound
        · exact .inr ⟨_, List.mem_singleton_self _, rfl⟩

/-- Every run leaves every row as its log says. -/
theorem allStored_trace (calls : List (Call suite)) :
    Consistent (final perform Tables.empty calls) ∧
      AllStored (trace perform Tables.empty calls) (final perform Tables.empty calls) := by
  refine @invariant_trace _ _ _ _ (fun steps tables =>
    Consistent tables ∧ AllStored steps tables) _ _ ?_ ?_
  · exact ⟨consistent_empty, fun row hrow => by cases hrow⟩
  · rintro steps tables call _ ⟨hconsistent, hstored⟩
    refine ⟨perform_consistent call hconsistent, ?_⟩
    rcases perform_cases tables call with
      ⟨reply, hresult, hperforms⟩ | ⟨raised, hresult, _, hsame⟩
    · exact hperforms.allStored hconsistent hstored rfl (insertions_append_of_ok steps hresult)
    · obtain ⟨_, _, hinsertions⟩ := append_of_error steps hresult
      rw [hsame]
      intro row hrow
      obtain ⟨metadata, encryption, hsays⟩ := hstored row hrow
      obtain ⟨found, hfound, hencryption⟩ := hsays.made
      refine ⟨metadata, encryption, hsays.seals,
        ⟨found, List.mem_append_left _ hfound, hencryption⟩, fun hactive => ?_⟩
      rw [hinsertions]
      exact hsays.inserted hactive

/-! ### Rows written over -/

/-- A row whose labels, status, algorithm, fingerprint, nonce and ciphertext were replaced. -/
structure Rewritten (row row' : VersionRow) : Prop where
  workspaceId : row'.workspaceId = row.workspaceId
  secretId : row'.secretId = row.secretId
  versionId : row'.versionId = row.versionId
  versionNumber : row'.versionNumber = row.versionNumber
  keyVersion : row'.keyVersion = row.keyVersion
  createdAt : row'.createdAt = row.createdAt
  revokedAt : row'.revokedAt = row.revokedAt

theorem Rewritten.key {row row' : VersionRow} (hrewritten : Rewritten row row') :
    row'.key = row.key := by
  rw [VersionRow.key, hrewritten.workspaceId, hrewritten.secretId, hrewritten.versionId]
  rfl

theorem Rewritten.address {row row' : VersionRow} (hrewritten : Rewritten row row') :
    row'.address = row.address := by
  rw [VersionRow.address, hrewritten.workspaceId, hrewritten.secretId]
  rfl

theorem Rewritten.numberKey {row row' : VersionRow} (hrewritten : Rewritten row row') :
    row'.numberKey = row.numberKey := by
  rw [VersionRow.numberKey, hrewritten.workspaceId, hrewritten.secretId,
    hrewritten.versionNumber]
  rfl

/-- What an honest execution leaves, and the cipher it ran on: the encryptions it made are the
only ones that decrypt, with custody witnesses, and its new versions have ids of their own. -/
structure Unforgeable (performed : List Encryption) (events : List (Event (Call suite))) :
    Prop where
  made : ∀ encryption ∈ performed, encryption ∈ encryptionsMade events ∨
    ∃ providerId, encryption.associated = .custody providerId
  ideal : IdealFor suite performed
  fresh : DrawsFresh (encryptionsMade events)

section

variable {performed : List Encryption} {events : List (Event (Call suite))}
variable {master : MasterKey} {row row' : VersionRow} {metadata : SecretMetadata} {value : Bytes}

theorem allStored_committed (events : List (Event (Call suite))) :
    Consistent (runClients events).committed ∧
      AllStored (runClients events).log (runClients events).committed := by
  obtain ⟨calls, hlog, hcommitted⟩ := runClients_serial events
  rw [hlog, hcommitted]
  exact allStored_trace calls

/-- The encryption a row holds was made. -/
theorem StoredAs.mem_encryptionsMade {encryption : Encryption}
    (hstored : StoredAs (runClients events).log row metadata encryption) :
    encryption ∈ encryptionsMade events := by
  obtain ⟨step, hstep, hencryption⟩ := hstored.made
  exact List.mem_flatMap.mpr ⟨step, System.mem_attempts_of_log hstep, hencryption⟩

/-- A row that was written over and opens as active is the row of its version: it was active,
with the same metadata and the same bytes, which are those inserted. -/
theorem Unforgeable.opens (hunforgeable : Unforgeable performed events)
    (hrow : row ∈ (runClients events).committed.versions) (hrewritten : Rewritten row row')
    (hreads : metadataFromRow row' = .ok metadata) (hactive : metadata.status ≠ .revoked)
    (hdecrypt : decryptRow suite master row' = .ok value) :
    metadataFromRow row = .ok metadata ∧ decryptRow suite master row = .ok value ∧
      findLast insertionKey (insertedIn (runClients events).log) row.key =
        some (metadata, value) := by
  obtain ⟨stored, own, hstored⟩ := (allStored_committed events).2 row hrow
  obtain ⟨found, nonce, ciphertext, hfound, halgorithm, hfingerprint, _, _, _, hplaintext⟩ :=
    decryptRow_eq_ok.mp hdecrypt
  rw [hreads] at hfound
  cases hfound
  obtain ⟨encryption, hmem, hkey, hnonce, hciphertext, hdata, hvalue⟩ :=
    hunforgeable.ideal _ _ _ _ _ hplaintext
  have hstatus := SecretStatus.eq_active hactive
  -- What decrypted was encrypted for the version, as active metadata.
  have hmade : encryption ∈ encryptionsMade events := by
    rcases hunforgeable.made encryption hmem with hmade | ⟨providerId, hcustody⟩
    · exact hmade
    · rw [hcustody] at hdata
      exact absurd hdata.symm (aad_ne_context metadata providerId)
  obtain ⟨bound, hassociated, htext, hunrevoked⟩ :=
    encryptionsMade_bind events encryption hmade
  rw [hassociated] at hdata
  have hsame : bound = metadata :=
    aad_injective_of_readable htext (metadataFromRow_isReadable hreads) hdata
  subst hsame
  have hdescribes := metadataFromRow_describes hreads
  have hdescribes' := metadataFromRow_describes hstored.seals.reads
  -- So the version is not revoked, and its own encryption is the one that was found.
  have hrevokedAt : stored.revokedAt = none := by
    rw [hdescribes'.revokedAt, ← hrewritten.revokedAt, ← hdescribes.revokedAt]
    exact hunrevoked hstatus
  have hstoredActive : stored.status = .active := by
    apply SecretStatus.eq_active
    intro hrevoked
    have hset := ((tables_coherent events).revokedAt row hrow).mpr
      (hdescribes'.status.trans (congrArg SecretStatus.value hrevoked))
    rw [← hdescribes'.revokedAt, hrevokedAt] at hset
    cases hset
  have hversion : stored.versionId = bound.versionId := by
    rw [hdescribes'.versionId, ← hrewritten.versionId, hdescribes.versionId]
  have hdrawn : own.drawnId = some bound.versionId := by
    rw [Encryption.drawnId, hstored.seals.associated]
    simp only [hstoredActive, if_true, hversion]
  have hdrawn' : encryption.drawnId = some bound.versionId := by
    rw [Encryption.drawnId, hassociated]
    simp only [hstatus, if_true]
  have hown : own = encryption :=
    hunforgeable.fresh.eq_of_drawnId hstored.mem_encryptionsMade hmade hdrawn hdrawn'
  subst hown
  have hmetadata : stored = bound :=
    Associated.version.inj (hstored.seals.associated.symm.trans hassociated)
  subst hmetadata
  rw [← hnonce, ← hciphertext] at hplaintext
  refine ⟨hstored.seals.reads, ?_, ?_⟩
  · exact decryptRow_eq_ok.mpr ⟨stored, own.nonce, own.ciphertext, hstored.seals.reads, halgorithm,
      hfingerprint, by rw [hstored.seals.nonce]; rfl, by rw [hstored.seals.ciphertext]; rfl,
      hstored.seals.shallow, hplaintext⟩
  · rw [hstored.inserted hstoredActive, hvalue]

end

end

end SecretsCustody
