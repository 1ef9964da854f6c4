/-
Coherence of the tables.  Revocations, generations and selections repeat what
the version rows say, and every call keeps the four tables in agreement.
-/
import SecretsCustody.Generations

namespace SecretsCustody

open JsonText History KeyedRows

/-! ### Labels as texts -/

/-- The label map of some texts. -/
def Labels.ofTexts (texts : List (String × String)) : Labels :=
  Labels.ofPairs (texts.map fun text => (codes text.1, .str (codes text.2)))

theorem lookup_texts {texts : List (String × String)} (hnodup : (texts.map Prod.fst).Nodup)
    {text : String × String} (htext : text ∈ texts) :
    (texts.map fun text => (codes text.1, Json.str (codes text.2))).lookup (codes text.1) =
      some (.str (codes text.2)) := by
  have hcodes : ((texts.map fun text => (codes text.1, Json.str (codes text.2))).map
      Prod.fst).Nodup := by
    have hmapped := hnodup.map codes_injective
    rwa [List.map_map] at hmapped ⊢
  rw [lookup_eq_some_iff_mem hcodes]
  exact List.mem_map_of_mem htext

/-- Labels match texts with distinct keys exactly when they are their map. -/
theorem Labels.matchesTexts_iff {labels : Labels} {texts : List (String × String)}
    (hnodup : (texts.map Prod.fst).Nodup) :
    labels.matchesTexts texts = true ↔ labels = Labels.ofTexts texts := by
  have hpairs : ((texts.map fun text => (codes text.1, Json.str (codes text.2))).map
      Prod.fst) = (texts.map Prod.fst).map codes := by
    rw [List.map_map, List.map_map]
    rfl
  have hcodes := hnodup.map codes_injective
  rw [← hpairs] at hcodes
  have hkeys : (Labels.ofTexts texts).keys = ((texts.map Prod.fst).map codes).toFinset := by
    ext key
    rw [Finmap.mem_keys, ← Finmap.lookup_isSome, Labels.ofTexts, Labels.lookup_ofPairs hcodes,
      List.mem_toFinset, ← hpairs, List.lookup_isSome_iff, List.mem_map]
    constructor
    · rintro ⟨pair, hpair, hkey⟩
      exact ⟨pair, hpair, (beq_iff_eq.mp hkey).symm⟩
    · rintro ⟨pair, hpair, rfl⟩
      exact ⟨pair, hpair, beq_self_eq_true _⟩
  constructor
  · intro hmatches
    simp only [matchesTexts, Bool.and_eq_true, decide_eq_true_eq, List.all_eq_true,
      Labels.has_iff] at hmatches
    obtain ⟨hcard, hhas⟩ := hmatches
    have hsubset : (Labels.ofTexts texts).keys ⊆ labels.keys := by
      intro key hkey
      rw [hkeys, List.mem_toFinset, List.map_map, List.mem_map] at hkey
      obtain ⟨text, htext, rfl⟩ := hkey
      rw [Finmap.mem_keys, ← Finmap.lookup_isSome]
      exact Option.isSome_iff_exists.mpr ⟨_, hhas text htext⟩
    have hsame : (Labels.ofTexts texts).keys = labels.keys := by
      apply Finset.eq_of_subset_of_card_le hsubset
      rw [hcard, hkeys, List.toFinset_card_of_nodup (hnodup.map codes_injective),
        List.length_map, List.length_map]
    apply Finmap.ext_lookup
    intro key
    by_cases hkey : key ∈ (Labels.ofTexts texts).keys
    · have htext := hkey
      rw [hkeys, List.mem_toFinset, List.map_map, List.mem_map] at htext
      obtain ⟨text, htext, rfl⟩ := htext
      change labels.lookup (codes text.1) = (Labels.ofTexts texts).lookup (codes text.1)
      rw [hhas text htext, Labels.ofTexts, Labels.lookup_ofPairs hcodes,
        lookup_texts hnodup htext]
    · have hother := hkey
      rw [hsame] at hother
      rw [Finmap.mem_keys, ← Finmap.lookup_eq_none] at hkey hother
      rw [hkey, hother]
  · rintro rfl
    simp only [matchesTexts, Bool.and_eq_true, decide_eq_true_eq, List.all_eq_true,
      Labels.has_iff]
    constructor
    · rw [hkeys, List.toFinset_card_of_nodup (hnodup.map codes_injective), List.length_map,
        List.length_map]
    · intro text htext
      rw [Labels.ofTexts, Labels.lookup_ofPairs hcodes, lookup_texts hnodup htext]

/-! ### What the tables say of each other -/

/-- The row reads, with the given labels. -/
def Labelled (row : VersionRow) (labels : Labels) : Prop :=
  ∃ metadata, metadataFromRow row = .ok metadata ∧ metadata.labels = labels

/-- The version a revocation names is revoked, and since then. -/
def RevokedAs (tables : Tables) (revocation : RevocationRow) : Prop :=
  ∃ row ∈ tables.versions, row.key = revocation.target ∧
    row.versionNumber = revocation.versionNumber ∧
    row.status = SecretStatus.revoked.value ∧ row.revokedAt = some revocation.revokedAt

/-- The version a generation names is the first of its secret, made with it and
labelled as its family. -/
def GeneratedAs (tables : Tables) (generation : GenerationRow) : Prop :=
  ∃ row ∈ tables.versions, ∃ intent keyId, row.key = generation.target ∧
    row.versionNumber = 1 ∧ row.createdAt = generation.generatedAt ∧
    AdmittedFamily generation.purpose intent ∧ generation.keyId = .text keyId ∧
    Labelled row (Labels.ofTexts
      (generationTexts intent generation.purpose generation.issuer keyId))

/-- The version a selection names has its intent. -/
def SelectedAs (tables : Tables) (selection : SelectionRow) : Prop :=
  ∃ row ∈ tables.versions, ∃ labels, row.key = selection.target ∧ Labelled row labels ∧
    labels.has "intent" selection.intent = true

structure Coherent (tables : Tables) : Prop where
  /-- A version has a revocation time exactly when it is revoked. -/
  revokedAt : ∀ row ∈ tables.versions,
    row.revokedAt.isSome ↔ row.status = SecretStatus.revoked.value
  revocations : ∀ revocation ∈ tables.revocations, RevokedAs tables revocation
  generations : ∀ generation ∈ tables.generations, GeneratedAs tables generation
  selections : ∀ selection ∈ tables.selections, SelectedAs tables selection
  generationAddresses : Unique GenerationRow.address tables.generations
  revocationTargets : Unique RevocationRow.target tables.revocations

theorem coherent_empty : Coherent Tables.empty where
  revokedAt := fun row hrow => by cases hrow
  revocations := fun revocation hrevocation => by cases hrevocation
  generations := fun generation hgeneration => by cases hgeneration
  selections := fun selection hselection => by cases hselection
  generationAddresses := unique_nil
  revocationTargets := unique_nil

section

variable {suite : CryptoSuite} {env : Env suite} {master : MasterKey} {before after : Tables}
variable {operation : Operation} {reply : Reply} {log : List Encryption}
variable {row row' : VersionRow} {labels : Labels}

/-! ### Later databases -/

/-- Labels stay as they are when a row is revoked. -/
theorem Labelled.later (hlabelled : Labelled row labels) (hversion : SameVersion row row')
    (hsame : SameOrRevoked row row') : Labelled row' labels := by
  rcases hsame with rfl | ⟨_, hrevoked⟩
  · exact hlabelled
  · obtain ⟨metadata, hmetadata, rfl⟩ := hlabelled
    have hreads := metadataFromRow_eq_ok.mp hmetadata
    have hlabels : row'.loadLabels = .ok metadata.labels := by
      rw [VersionRow.loadLabels, hversion.labelsJson, hversion.limits]
      exact hreads.labels
    refine ⟨{ metadata with status := .revoked, revokedAt := row'.revokedAt }, ?_, rfl⟩
    exact metadataFromRow_eq_ok.mpr
      { workspaceId := hreads.workspaceId.trans hversion.workspaceId.symm
        secretId := hreads.secretId.trans hversion.secretId.symm
        versionId := hreads.versionId.trans hversion.versionId.symm
        versionNumber := hreads.versionNumber.trans hversion.versionNumber.symm
        status := hrevoked
        algorithm := hreads.algorithm.trans hversion.algorithm.symm
        keyFingerprint := hreads.keyFingerprint.trans hversion.keyFingerprint.symm
        keyVersion := hreads.keyVersion.trans hversion.keyVersion.symm
        createdAt := hreads.createdAt.trans hversion.createdAt.symm
        revokedAt := rfl
        decodable := by rw [hversion.limits, hreads.decodable]
        labels := hlabels }

theorem RevokedAs.later {revocation : RevocationRow} (hrevoked : RevokedAs before revocation)
    (hextends : Extends before after) : RevokedAs after revocation := by
  obtain ⟨row, hrow, hkey, hnumber, hstatus, hat⟩ := hrevoked
  obtain ⟨row', hrow', _, hsame⟩ := hextends.versions row hrow
  rw [hsame.eq_of_revoked hstatus] at hrow'
  exact ⟨row, hrow', hkey, hnumber, hstatus, hat⟩

theorem GeneratedAs.later {generation : GenerationRow}
    (hgenerated : GeneratedAs before generation) (hextends : Extends before after) :
    GeneratedAs after generation := by
  obtain ⟨row, hrow, intent, keyId, hkey, hnumber, hcreated, hadmitted, hid, hlabelled⟩ :=
    hgenerated
  obtain ⟨row', hrow', hversion, hsame⟩ := hextends.versions row hrow
  exact ⟨row', hrow', intent, keyId, hversion.key.trans hkey,
    hversion.versionNumber.trans hnumber, hversion.createdAt.trans hcreated, hadmitted, hid,
    hlabelled.later hversion hsame⟩

theorem SelectedAs.later {selection : SelectionRow} (hselected : SelectedAs before selection)
    (hextends : Extends before after) : SelectedAs after selection := by
  obtain ⟨row, hrow, labels, hkey, hlabelled, hintent⟩ := hselected
  obtain ⟨row', hrow', hversion, hsame⟩ := hextends.versions row hrow
  exact ⟨row', hrow', labels, hversion.key.trans hkey, hlabelled.later hversion hsame, hintent⟩

/-! ### What one call adds -/

/-- A call that returned keeps the status and the revocation time of every
version together. -/
theorem VersionsEffect.revokedAt
    (heffect : VersionsEffect env master before operation reply after log)
    (hcoherent : ∀ row ∈ before.versions,
      row.revokedAt.isSome ↔ row.status = SecretStatus.revoked.value) :
    ∀ row ∈ after.versions,
      row.revokedAt.isSome ↔ row.status = SecretStatus.revoked.value := by
  rcases heffect.rows with ⟨change, added, hrows, hsteps, hadded⟩
  intro row' hrow'
  rw [hrows, List.mem_append] at hrow'
  rcases hrow' with hrow' | hrow'
  · obtain ⟨row, hrow, rfl⟩ := List.mem_map.mp hrow'
    have hstep := hsteps row hrow
    generalize change row = row' at hstep
    cases hstep with
    | same => exact hcoherent row hrow
    | resealed => simp [VersionRow.resealed]
  · cases hadded with
    | none => cases hrow'
    | one _ _ hmetadata =>
        rw [List.mem_singleton] at hrow'
        subst hrow'
        subst hmetadata
        simp [versionRow, freshMetadata, SecretStatus.value]

/-- Every row of the other tables was there, or agrees with its version. -/
structure RowsCoherent (before after : Tables) : Prop where
  revocations : ∀ revocation ∈ after.revocations,
    revocation ∈ before.revocations ∨ RevokedAs after revocation
  generations : ∀ generation ∈ after.generations,
    generation ∈ before.generations ∨ GeneratedAs after generation
  selections : ∀ selection ∈ after.selections,
    selection ∈ before.selections ∨ SelectedAs after selection

theorem kept_rows {ρ : Type} {rows rows' : List ρ} {agrees : ρ → Prop} (hsame : rows' = rows) :
    ∀ row ∈ rows', row ∈ rows ∨ agrees row := by
  rw [hsame]
  exact fun _ => .inl

theorem added_row {ρ : Type} {rows rows' : List ρ} {agrees : ρ → Prop} {added : ρ}
    (hrows : rows' = rows ++ [added]) (hagrees : agrees added) :
    ∀ row ∈ rows', row ∈ rows ∨ agrees row := by
  intro row hrow
  rw [hrows, List.mem_append, List.mem_singleton] at hrow
  rcases hrow with hold | rfl
  · exact .inl hold
  · exact .inr hagrees

theorem rowsCoherent_same (hselections : after.selections = before.selections)
    (hgenerations : after.generations = before.generations)
    (hrevocations : after.revocations = before.revocations) : RowsCoherent before after :=
  ⟨kept_rows hrevocations, kept_rows hgenerations, kept_rows hselections⟩

/-- The version an exact revocation resealed is revoked as its row says. -/
theorem Revokes.revokedAs {args : RevokeSecretVersion} {metadata revoked : SecretMetadata}
    {middle : Tables}
    (hrevokes : Revokes env master row env.now before [] revoked middle log)
    (hrow : before.selectVersion args.workspaceId args.secretId args.versionId = some row)
    (hmetadata : metadataFromRow row = .ok metadata)
    (hnumber : metadata.versionNumber = args.versionNumber)
    (hversions : after.versions = middle.versions) :
    RevokedAs after (revocationRow args env.now) := by
  obtain ⟨hstored, hkey⟩ := Tables.selectVersion_eq_some hrow
  cases hrevokes with
  | @intro _ plaintext ciphertext =>
      refine ⟨row.resealed (env.urandom 0) ciphertext env.now, ?_, hkey, ?_, rfl, rfl⟩
      · rw [hversions]
        refine List.mem_map.mpr ⟨row, hstored, ?_⟩
        rw [if_pos rfl]
        rfl
      · exact (metadataFromRow_describes hmetadata).versionNumber.symm.trans hnumber

theorem generationTexts_nodup (intent purpose issuer keyId : String) :
    ((generationTexts intent purpose issuer keyId).map Prod.fst).Nodup := by
  change ["intent", "purpose", "issuer", "key_id"].Nodup
  decide

/-- The version a generation inserted is made as its row says. -/
theorem Inserts.generatedAs {args : GenerateDelegationKey} {keyId publicKeyPem : String}
    {value : Bytes} {metadata : SecretMetadata} {middle : Tables}
    (hinsert : Inserts env master args.workspaceId args.secretId value
      (generationLabels args.intent args.purpose args.issuer keyId) 1 before [] metadata middle
      log)
    (hadmitted : AdmittedFamily args.purpose args.intent)
    (hversions : after.versions = middle.versions) :
    GeneratedAs after (generationRow args metadata keyId publicKeyPem) := by
  have hlabels : metadata.labels.matchesTexts
      (generationTexts args.intent args.purpose args.issuer keyId) = true :=
    hinsert.matchesTexts.1
  rw [Labels.matchesTexts_iff (generationTexts_nodup _ _ _ _)] at hlabels
  cases hinsert with
  | @intro clean ciphertext hclean =>
      refine ⟨versionRow (freshMetadata suite env master args.workspaceId args.secretId clean 1)
        (env.urandom 0) ciphertext, ?_, args.intent, keyId, rfl, rfl, rfl, hadmitted, rfl, _,
        metadataFromRow_versionRow (cleanLabels_isText hclean) _ _, hlabels⟩
      rw [hversions]
      exact List.mem_append_right _ (List.mem_singleton_self _)

/-- What a call that returned adds to the other tables agrees with its version. -/
theorem Performs.rowsCoherent
    (hperforms : Performs env master before operation reply after log) :
    RowsCoherent before after := by
  cases hperforms with
  | created hinsert =>
      exact rowsCoherent_same hinsert.others.1 hinsert.others.2.1 hinsert.others.2.2.1
  | rotated _ _ _ hinsert =>
      exact rowsCoherent_same hinsert.others.1 hinsert.others.2.1 hinsert.others.2.2.1
  | revoked _ hrevokes =>
      exact rowsCoherent_same hrevokes.others.1 hrevokes.others.2.1 hrevokes.others.2.2.1
  | revokedVersion hfresh htarget hrow hmetadata hnumber hstatus hrevokes hevent =>
      obtain ⟨hselections, hgenerations, hrevocations, _⟩ := hrevokes.others
      exact ⟨added_row (by rw [hrevocations]) (hrevokes.revokedAs hrow hmetadata hnumber rfl),
        kept_rows hgenerations, kept_rows hselections⟩
  | generated hadmitted hfresh hkeyId hinsert haddress hevent =>
      obtain ⟨hselections, hgenerations, hrevocations, _⟩ := hinsert.others
      exact ⟨kept_rows hrevocations, added_row (by rw [hgenerations])
        (hinsert.generatedAs hadmitted rfl), kept_rows hselections⟩
  | @selected args selected row selectedMetadata secret hfresh hselected hmetadata hstatus
      hintent hrow hresolve =>
      obtain ⟨hstored, hkey⟩ := Tables.selectVersion_eq_some hrow
      obtain ⟨hreads, _, hlacks, _⟩ := resolveRow_eq_ok.mp hresolve
      refine ⟨kept_rows rfl, kept_rows rfl, added_row rfl
        ⟨row, hstored, secret.metadata.labels, hkey, ⟨_, hreads, rfl⟩, ?_⟩⟩
      by_contra hother
      exact hlacks ⟨args.intent, rfl, Bool.eq_false_iff.mpr hother⟩
  | revocationReplayed => exact rowsCoherent_same rfl rfl rfl
  | generationReplayed => exact rowsCoherent_same rfl rfl rfl
  | resolved => exact rowsCoherent_same rfl rfl rfl
  | reselected => exact rowsCoherent_same rfl rfl rfl
  | described => exact rowsCoherent_same rfl rfl rfl

/-- A call that returned keeps the tables coherent. -/
theorem Performs.coherent (hperforms : Performs env master before operation reply after log)
    (hconsistent : Consistent before) (hcoherent : Coherent before) : Coherent after := by
  have hextends := hperforms.extends hconsistent
  have hafter := hperforms.consistent hconsistent
  have hrows := hperforms.rowsCoherent
  constructor
  · exact (hperforms.versionsEffect hconsistent.versionKeys).revokedAt hcoherent.revokedAt
  · intro revocation hrevocation
    rcases hrows.revocations revocation hrevocation with hold | hnew
    · exact (hcoherent.revocations revocation hold).later hextends
    · exact hnew
  · intro generation hgeneration
    rcases hrows.generations generation hgeneration with hold | hnew
    · exact (hcoherent.generations generation hold).later hextends
    · exact hnew
  · intro selection hselection
    rcases hrows.selections selection hselection with hold | hnew
    · exact (hcoherent.selections selection hold).later hextends
    · exact hnew
  · exact hafter.generationAddresses
  · exact hafter.revocationTargets

end

/-! ### Executions -/

variable {suite : CryptoSuite}

/-- Every call keeps the tables coherent. -/
theorem perform_coherent {tables : Tables} (hconsistent : Consistent tables)
    (hcoherent : Coherent tables) (call : Call suite) : Coherent (perform tables call).2 := by
  rcases perform_cases tables call with ⟨reply, _, hperforms⟩ | ⟨raised, _, _, hsame⟩
  · exact hperforms.coherent hconsistent hcoherent
  · rwa [hsame]

/-- Every run leaves the tables coherent. -/
theorem final_coherent (calls : List (Call suite)) :
    Coherent (final perform Tables.empty calls) := by
  have hboth : Consistent (final perform Tables.empty calls) ∧
      Coherent (final perform Tables.empty calls) := by
    refine @invariant_final _ _ _ _ (fun tables => Consistent tables ∧ Coherent tables) _ _
      ⟨consistent_empty, coherent_empty⟩ ?_
    rintro tables call _ ⟨hconsistent, hcoherent⟩
    exact ⟨perform_consistent call hconsistent, perform_coherent hconsistent hcoherent call⟩
  exact hboth.2

/-- The tables are coherent whatever the clients do. -/
theorem tables_coherent (events : List (Event (Call suite))) :
    Coherent (runClients events).committed := by
  obtain ⟨calls, _, hcommitted⟩ := runClients_serial events
  rw [hcommitted]
  exact final_coherent calls

end SecretsCustody
