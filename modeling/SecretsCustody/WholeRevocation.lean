/-
Revocation of a whole reference.  Every version of the secret is revoked and no row beside them
changes, or nothing changes at all; the call that is made again answers the same and writes
nothing.
-/
import SecretsCustody.FailsClosed

namespace SecretsCustody

open Effect History

section

variable {suite : CryptoSuite} {env : Env suite} {master : MasterKey} {before after : Tables}
variable {log log' : List Encryption} {row row' : VersionRow} {metadata : SecretMetadata}
variable {workspaceId secretId : String} {revoked written : List SecretMetadata}

/-! ### Rows -/

/-- A row reads, its nonce and ciphertext are bytes, and its labels are as shallow as a map of
texts. -/
structure VersionRow.Decodes (row : VersionRow) : Prop where
  reads : ∃ metadata, metadataFromRow row = .ok metadata
  prepared : ¬ row.Unprepared

/-- The row decrypts under its own metadata and the key it names. -/
def VersionRow.Intact (suite : CryptoSuite) (master : MasterKey) (row : VersionRow) : Prop :=
  ∃ plaintext, decryptRow suite master row = .ok plaintext

/-- AES-GCM encrypts again what it decrypted. -/
def Reseals (suite : CryptoSuite) (master : MasterKey) : Prop :=
  ∀ nonce ciphertext associated plaintext,
    master.decrypt suite nonce ciphertext associated = some plaintext →
      master.Takes suite plaintext

/-- The row is sealed again as revoked, around the bytes it held. -/
structure Resealed (suite : CryptoSuite) (master : MasterKey) (revokedAt : String)
    (row row' : VersionRow) : Prop where
  resealed : ∃ nonce ciphertext, row' = row.resealed nonce ciphertext revokedAt
  decrypts : ∃ plaintext, decryptRow suite master row = .ok plaintext ∧
    decryptRow suite master row' = .ok plaintext

/-- A row of the revoked secret afterwards: an active one is sealed again, a revoked one stays. -/
inductive RevokedRow (suite : CryptoSuite) (master : MasterKey) (revokedAt : String)
    (row : VersionRow) : VersionRow → Prop
  | kept (hstatus : row.status = SecretStatus.revoked.value) :
      RevokedRow suite master revokedAt row row
  | changed {row' : VersionRow} (hstatus : row.status = SecretStatus.active.value)
      (hresealed : Resealed suite master revokedAt row row') :
      RevokedRow suite master revokedAt row row'

/-- What a step of a call that revoked the row made of it. -/
theorem RowStep.revokedRow (hsuite : suite.DecryptsOwn)
    (hstep : RowStep env master written log row row')
    (hrevoked : ∃ metadata, metadataFromRow row' = .ok metadata ∧ metadata.status = .revoked) :
    RevokedRow suite master env.now row row' := by
  cases hstep with
  | same =>
      obtain ⟨metadata, hreads, hstatus⟩ := hrevoked
      apply RevokedRow.kept
      rw [(metadataFromRow_describes hreads).status, hstatus]
  | @resealed metadata encryption hmetadata hactive hdecrypt hseals hkey =>
      obtain ⟨found, _, _, hfound, halgorithm, hfingerprint, _⟩ := decryptRow_eq_ok.mp hdecrypt
      rw [hmetadata] at hfound
      cases hfound
      apply RevokedRow.changed
      · rw [(metadataFromRow_describes hmetadata).status, hactive]
      · exact ⟨⟨_, _, rfl⟩, _, hdecrypt, hseals.decrypts hsuite hkey halgorithm hfingerprint⟩

theorem RevokedRow.status {revokedAt : String}
    (hrevoked : RevokedRow suite master revokedAt row row') :
    row'.status = SecretStatus.revoked.value := by
  cases hrevoked with
  | kept hstatus => exact hstatus
  | changed _ hresealed =>
      obtain ⟨nonce, ciphertext, rfl⟩ := hresealed.resealed
      rfl

/-! ### The list -/

/-- What the loop lists for a row: its metadata, as revoked now unless it was already. -/
inductive Lists (revokedAt : String) (row : VersionRow) : SecretMetadata → Prop
  | kept {metadata : SecretMetadata} (hreads : metadataFromRow row = .ok metadata)
      (hstatus : metadata.status = .revoked) : Lists revokedAt row metadata
  | changed {metadata : SecretMetadata} (hreads : metadataFromRow row = .ok metadata)
      (hstatus : metadata.status = .active) :
      Lists revokedAt row (revokedMetadata metadata revokedAt)

theorem RevokesEach.lists {revokedAt : String} {rows : List VersionRow}
    (heach : RevokesEach env master revokedAt rows before log revoked after log') :
    List.Forall₂ (Lists revokedAt) rows revoked := by
  induction heach with
  | nil => exact .nil
  | kept hmetadata hstatus _ ih => exact .cons (.kept hmetadata hstatus) ih
  | changed hmetadata hstatus hrevokes _ ih =>
      refine .cons ?_ ih
      cases hrevokes with
      | intro hfound _ _ =>
          rw [hmetadata] at hfound
          cases hfound
          exact .changed hmetadata (SecretStatus.eq_active hstatus)

/-- What is listed for a row is what the row reads as afterwards. -/
theorem Lists.reads {revokedAt : String} (hlists : Lists revokedAt row metadata)
    (hrevoked : RevokedRow suite master revokedAt row row') :
    metadataFromRow row' = .ok metadata ∧ metadata.status = .revoked := by
  cases hlists with
  | kept hreads hstatus =>
      cases hrevoked with
      | kept => exact ⟨hreads, hstatus⟩
      | changed hactive =>
          rw [(metadataFromRow_describes hreads).status] at hactive
          rw [SecretStatus.value_injective hactive] at hstatus
          cases hstatus
  | @changed metadata hreads hstatus =>
      cases hrevoked with
      | kept hkept =>
          rw [(metadataFromRow_describes hreads).status] at hkept
          rw [SecretStatus.value_injective hkept] at hstatus
          cases hstatus
      | changed _ hresealed =>
          obtain ⟨nonce, ciphertext, rfl⟩ := hresealed.resealed
          exact ⟨metadataFromRow_resealed hreads _ _ _, rfl⟩

theorem lists_reads {revokedAt : String} {change : VersionRow → VersionRow}
    {rows : List VersionRow} (hlists : List.Forall₂ (Lists revokedAt) rows revoked)
    (hchange : ∀ row ∈ rows, RevokedRow suite master revokedAt row (change row)) :
    List.Forall₂
      (fun row metadata => metadataFromRow row = .ok metadata ∧ metadata.status = .revoked)
      (rows.map change) revoked := by
  induction hlists with
  | nil => exact .nil
  | @cons row metadata rows revoked hrow hrows ih =>
      simp only [List.forall_mem_cons] at hchange
      exact .cons (hrow.reads hchange.1) (ih hchange.2)

theorem lists_numbers {revokedAt : String} {rows : List VersionRow}
    (hlists : List.Forall₂ (Lists revokedAt) rows revoked) :
    revoked.map SecretMetadata.versionNumber = rows.map VersionRow.versionNumber := by
  induction hlists with
  | nil => rfl
  | @cons row metadata rows revoked hrow hrows ih =>
      have hnumber : metadata.versionNumber = row.versionNumber := by
        cases hrow with
        | kept hreads => exact (metadataFromRow_describes hreads).versionNumber
        | changed hreads => exact (metadataFromRow_describes hreads).versionNumber
      rw [List.map_cons, List.map_cons, hnumber, ih]

/-- A change of the rows that keeps their version keeps their order. -/
theorem allVersions_map {change : VersionRow → VersionRow} {tables : Tables}
    (hchange : ∀ row ∈ tables.versions, SameVersion row (change row)) :
    { tables with versions := tables.versions.map change }.allVersions workspaceId secretId =
      (tables.allVersions workspaceId secretId).map change := by
  let keep : VersionRow → Bool := fun row => row.address = (workspaceId, secretId)
  let le : VersionRow → VersionRow → Prop :=
    fun left right => left.versionNumber ≤ right.versionNumber
  have hkept : (tables.versions.map change).filter keep = (tables.versions.filter keep).map change := by
    rw [List.filter_map]
    congr 1
    apply List.filter_congr
    intro row hrow
    change decide ((change row).address = _) = decide (row.address = _)
    rw [(hchange row hrow).address]
  have hsorted : ((tables.versions.filter keep).insertionSort le).map change =
      ((tables.versions.filter keep).map change).insertionSort le := by
    apply List.map_insertionSort
    intro left hleft right hright
    change left.versionNumber ≤ _ ↔ (change left).versionNumber ≤ _
    rw [(hchange left (List.mem_filter.mp hleft).1).versionNumber,
      (hchange right (List.mem_filter.mp hright).1).versionNumber]
  change ((tables.versions.map change).filter keep).insertionSort le = _
  rw [hkept]
  exact hsorted.symm

/-- The query lists the versions of a secret in increasing order of their numbers. -/
theorem allVersions_increasing {tables : Tables}
    (hunique : KeyedRows.Unique VersionRow.numberKey tables.versions) :
    ((tables.allVersions workspaceId secretId).map VersionRow.versionNumber).Pairwise (· < ·) := by
  have hsorted : (tables.allVersions workspaceId secretId).Pairwise
      fun left right => left.versionNumber ≤ right.versionNumber :=
    List.pairwise_insertionSort _ _
  have hnumbers : ((tables.allVersions workspaceId secretId).map VersionRow.numberKey).Nodup := by
    rw [Tables.allVersions, ((List.perm_insertionSort _ _).map _).nodup_iff]
    exact List.Nodup.sublist (List.filter_sublist.map _) hunique
  have hdistinct : (tables.allVersions workspaceId secretId).Pairwise
      fun left right => left.numberKey ≠ right.numberKey := List.pairwise_map.mp hnumbers
  rw [List.pairwise_map]
  apply (hsorted.and hdistinct).imp_of_mem
  rintro left right hleft hright ⟨hle, hne⟩
  apply lt_of_le_of_ne hle
  intro hnumber
  apply hne
  have haddress : left.address = right.address :=
    (Tables.mem_allVersions.mp hleft).2.trans (Tables.mem_allVersions.mp hright).2.symm
  simp only [VersionRow.address, Prod.mk.injEq] at haddress
  rw [VersionRow.numberKey, VersionRow.numberKey, haddress.1, haddress.2, hnumber]

/-! ### One call -/

/-- The whole secret is revoked, and the list is what its versions read as. -/
structure RevokedWhole (suite : CryptoSuite) (master : MasterKey) (revokedAt : String)
    (workspaceId secretId : String) (before after : Tables) (revoked : List SecretMetadata) :
    Prop where
  rows : ∃ change, after = { before with versions := before.versions.map change } ∧
    (∀ row ∈ before.versions, row.address ≠ (workspaceId, secretId) → change row = row) ∧
    ∀ row ∈ before.versions, row.address = (workspaceId, secretId) →
      RevokedRow suite master revokedAt row (change row)
  some : after.allVersions workspaceId secretId ≠ []
  all : ∀ row ∈ after.versions, row.address = (workspaceId, secretId) →
    row.status = SecretStatus.revoked.value
  listed : List.Forall₂
    (fun row metadata => metadataFromRow row = .ok metadata ∧ metadata.status = .revoked)
    (after.allVersions workspaceId secretId) revoked
  increasing : (revoked.map SecretMetadata.versionNumber).Pairwise (· < ·)

theorem Performs.revokedWhole {reply : Reply} (hsuite : suite.DecryptsOwn)
    (hkeys : KeyedRows.Unique VersionRow.key before.versions)
    (hnumbers : KeyedRows.Unique VersionRow.numberKey before.versions)
    (hperforms : Performs env master before (.revokeSecret workspaceId secretId) reply after log) :
    ∃ revoked, reply = .revoked revoked ∧
      RevokedWhole suite master env.now workspaceId secretId before after revoked := by
  cases hperforms with
  | @revoked _ _ revoked _ _ hrows hrevokes =>
      have hmem : ∀ row ∈ before.allVersions workspaceId secretId, row ∈ before.versions :=
        fun row hrow => (Tables.mem_allVersions.mp hrow).1
      have hlists := hrevokes.lists
      obtain ⟨change, rfl, hsame, hsteps, hrevoked, _, _⟩ :=
        hrevokes.effect (allVersions_unique hkeys workspaceId secretId) hkeys hmem
          (fun _ hwritten => hwritten) (fun _ hlater => hlater)
      have hversion : ∀ row ∈ before.versions, SameVersion row (change row) := by
        intro row hrow
        by_cases hselected : row ∈ before.allVersions workspaceId secretId
        · exact (hsteps row hselected).sameVersion
        · rw [hsame row hselected]
          exact SameVersion.refl row
      have hchanged : ∀ row ∈ before.allVersions workspaceId secretId,
          RevokedRow suite master env.now row (change row) :=
        fun row hrow => (hsteps row hrow).revokedRow hsuite (hrevoked row hrow)
      refine ⟨revoked, rfl, ⟨change, rfl, ?_, ?_⟩, ?_, ?_, ?_, ?_⟩
      · intro row hrow hother
        apply hsame
        intro hselected
        exact hother (Tables.mem_allVersions.mp hselected).2
      · intro row hrow haddress
        exact hchanged row (Tables.mem_allVersions.mpr ⟨hrow, haddress⟩)
      · rw [allVersions_map hversion]
        intro hnone
        exact hrows (List.map_eq_nil_iff.mp hnone)
      · intro row' hrow' haddress
        obtain ⟨row, hrow, rfl⟩ := List.mem_map.mp hrow'
        rw [(hversion row hrow).address] at haddress
        exact (hchanged row (Tables.mem_allVersions.mpr ⟨hrow, haddress⟩)).status
      · rw [allVersions_map hversion]
        exact lists_reads hlists hchanged
      · rw [lists_numbers hlists]
        exact allVersions_increasing hnumbers

/-- Rows that are all revoked are listed, and nothing is written. -/
theorem revokeEach_kept {now : String} {rows : List VersionRow}
    (hrows : List.Forall₂
      (fun row metadata => metadataFromRow row = .ok metadata ∧ metadata.status = .revoked)
      rows revoked) : revokeEach suite env master now rows = pure revoked := by
  induction hrows with
  | nil => rfl
  | @cons row metadata rows revoked hrow hrows ih =>
      have hkept : revokeUnlessRevoked suite env master now row = pure metadata := by
        rw [revokeUnlessRevoked, hrow.1]
        change (if metadata.status = .revoked then (pure metadata : Tx Tables SecretMetadata)
          else _) = _
        rw [if_pos hrow.2]
      rw [revokeEach, hkept, ih]
      rfl

/-- A call on a secret that is revoked already lists its versions, unless the database fails. -/
theorem revokeSecret_again {tables : Tables}
    (hsome : tables.allVersions workspaceId secretId ≠ [])
    (hlisted : List.Forall₂
      (fun row metadata => metadataFromRow row = .ok metadata ∧ metadata.status = .revoked)
      (tables.allVersions workspaceId secretId) revoked) :
    Ends (revokeSecret suite env master workspaceId secretId) tables []
      (fun found tables' _ => found = revoked ∧ tables' = tables)
      (fun raised tables' _ => env.Faults raised ∧ tables' = tables) := by
  refine ends_connection (Ends.bind (ends_statement (Ends.bind (ends_query ?_
    fun _ hfault => hfault)) fun _ hfault => hfault)) fun _ hfault => hfault
  refine Ends.bind (ends_raiseIf (fun hnone => absurd hnone hsome) fun _ => ?_)
  rw [revokeEach_kept hlisted]
  exact ends_pure ⟨rfl, rfl⟩

/-! ### The call -/

/-- What a call on a whole secret does. -/
structure RevocationWhole (suite : CryptoSuite) (workspaceId secretId : String) (tables : Tables)
    (call : Call suite) : Prop where
  revoked : ∀ reply, (perform tables call).1.result = .ok reply →
    ∃ revoked, reply = .revoked revoked ∧ RevokedWhole suite call.master call.env.now workspaceId
      secretId tables (perform tables call).2 revoked
  again : ∀ reply (again : Call suite), (perform tables call).1.result = .ok reply →
    again.operation = call.operation →
      (perform (perform tables call).2 again).2 = (perform tables call).2 ∧
        (∀ found, (perform (perform tables call).2 again).1.result = .ok found → found = reply) ∧
          (again.env.Faultless → (perform (perform tables call).2 again).1.result = .ok reply)
  raised : ∀ raised, (perform tables call).1.result = .error raised →
    (perform tables call).2 = tables
  damaged : ∀ row ∈ tables.versions, row.address = (workspaceId, secretId) →
    row.status ≠ SecretStatus.revoked.value → ¬ row.Intact suite call.master →
      (perform tables call).2 = tables ∧ ∃ raised, (perform tables call).1.result = .error raised ∧
        ((∀ row ∈ tables.versions, row.Decodes) → call.env.Faultless →
          Reseals suite call.master → raised = .secretTampered)

/-- A call on a secret that is revoked already changes no row. -/
theorem perform_again {tables : Tables} {again : Call suite}
    (hoperation : again.operation = .revokeSecret workspaceId secretId)
    (hsome : tables.allVersions workspaceId secretId ≠ [])
    (hlisted : List.Forall₂
      (fun row metadata => metadataFromRow row = .ok metadata ∧ metadata.status = .revoked)
      (tables.allVersions workspaceId secretId) revoked) :
    (perform tables again).2 = tables ∧
      ((perform tables again).1.result = .ok (.revoked revoked) ∨
        ∃ raised, (perform tables again).1.result = .error raised ∧ again.env.Faults raised) := by
  have hends : Ends again.program tables []
      (fun reply tables' _ => reply = .revoked revoked ∧ tables' = tables)
      (fun raised tables' _ => again.env.Faults raised ∧ tables' = tables) := by
    rcases again with ⟨operation, master, env⟩
    cases hoperation
    refine Ends.map ((revokeSecret_again hsome hlisted).mono ?_ fun _ _ _ hraises => hraises)
    intro found tables' _ hreturns
    exact ⟨by rw [hreturns.1], hreturns.2⟩
  unfold perform
  cases hrun : again.program.run { db := tables, executed := 0, encryptions := [] } with
  | ok reply finish =>
      obtain ⟨rfl, hsame⟩ := (hends 0).of_ok hrun
      exact ⟨hsame, .inl rfl⟩
  | error raised finish =>
      obtain ⟨hfault, hsame⟩ := (hends 0).of_error hrun
      exact ⟨hsame, .inr ⟨raised, rfl, hfault⟩⟩

/-- Where a row of the secret does not decrypt, the call does not return. -/
theorem Performs.intact {reply : Reply} (hsuite : suite.DecryptsOwn)
    (hkeys : KeyedRows.Unique VersionRow.key before.versions)
    (hnumbers : KeyedRows.Unique VersionRow.numberKey before.versions)
    (hperforms : Performs env master before (.revokeSecret workspaceId secretId) reply after log)
    (hrow : row ∈ before.versions) (haddress : row.address = (workspaceId, secretId))
    (hstatus : row.status ≠ SecretStatus.revoked.value) : row.Intact suite master := by
  obtain ⟨revoked, _, hwhole⟩ := hperforms.revokedWhole hsuite hkeys hnumbers
  obtain ⟨change, _, _, hchange⟩ := hwhole.rows
  have hrevoked := hchange row hrow haddress
  generalize change row = row' at hrevoked
  cases hrevoked with
  | kept hkept => exact absurd hkept hstatus
  | changed _ hresealed =>
      obtain ⟨plaintext, hdecrypt, _⟩ := hresealed.decrypts
      exact ⟨plaintext, hdecrypt⟩

/-- Over rows that decode the loop raises nothing but that a row is tampered with. -/
theorem RevokeRefused.tampered {revokedAt : String} {raised : Raised}
    (hrefused : RevokeRefused env master row revokedAt raised) (hdecodes : row.Decodes)
    (hfaultless : env.Faultless) (hreseals : Reseals suite master) : raised = .secretTampered := by
  obtain ⟨metadata, hreads⟩ := hdecodes.reads
  cases hrefused with
  | unreadable hmetadata =>
      rw [hreads] at hmetadata
      cases hmetadata
  | undecryptable hdecrypt =>
      rcases decryptRow_error hreads hdecrypt with htampered | ⟨_, _, hunprepared⟩
      · exact htampered
      · exact absurd hunprepared hdecodes.prepared
  | cipher hencrypt hnonce hdecrypt =>
      obtain ⟨_, nonce, ciphertext, _, _, _, _, _, _, hplain⟩ := decryptRow_eq_ok.mp hdecrypt
      obtain ⟨found, hfound⟩ := hreseals _ _ _ _ hplain _ (aad _) hnonce
      rw [hfound] at hencrypt
      cases hencrypt
  | fault hfault => exact absurd hfault hfaultless.not_faults

/-- Revocation of a whole reference is all or nothing, idempotent, and touches nothing else. -/
theorem revocation_whole (hsuite : suite.DecryptsOwn) {tables : Tables}
    (hkeys : KeyedRows.Unique VersionRow.key tables.versions)
    (hnumbers : KeyedRows.Unique VersionRow.numberKey tables.versions) {call : Call suite}
    (hoperation : call.operation = .revokeSecret workspaceId secretId) :
    RevocationWhole suite workspaceId secretId tables call where
  revoked := by
    intro reply hresult
    have hperforms := performs_of_ok hresult
    rw [hoperation] at hperforms
    exact hperforms.revokedWhole hsuite hkeys hnumbers
  again := by
    intro reply again hresult hsame
    have hperforms := performs_of_ok hresult
    rw [hoperation] at hperforms hsame
    obtain ⟨revoked, rfl, hwhole⟩ := hperforms.revokedWhole hsuite hkeys hnumbers
    obtain ⟨hkept, hends⟩ := perform_again hsame hwhole.some hwhole.listed
    refine ⟨hkept, ?_, ?_⟩
    · intro found hfound
      rcases hends with hok | ⟨raised, hraised, _⟩
      · rw [hok] at hfound
        cases hfound
        rfl
      · rw [hraised] at hfound
        cases hfound
    · intro hfaultless
      rcases hends with hok | ⟨raised, _, hfault⟩
      · exact hok
      · exact absurd hfault hfaultless.not_faults
  raised := fun raised hresult => (refuses_of_error hresult).2
  damaged := by
    intro row hrow haddress hstatus hdamaged
    rcases perform_cases tables call with ⟨reply, _, hperforms⟩ |
      ⟨raised, hresult, hrefuses, hsame⟩
    · rw [hoperation] at hperforms
      exact absurd (hperforms.intact hsuite hkeys hnumbers hrow haddress hstatus) hdamaged
    · refine ⟨hsame, raised, hresult, ?_⟩
      intro hdecodes hfaultless hreseals
      rw [hoperation] at hrefuses
      cases hrefuses with
      | fault hfault => exact absurd hfault hfaultless.not_faults
      | revokeMissing hnone =>
          have hselected := Tables.mem_allVersions.mpr ⟨hrow, haddress⟩
          rw [hnone] at hselected
          cases hselected
      | @revokeRefused _ _ found _ hfound hrefused =>
          have hstored := (Tables.mem_allVersions.mp hfound).1
          exact hrefused.tampered (hdecodes found hstored) hfaultless hreseals

end

/-! ### A damaged version behind an intact one -/

/-- The second version of the secret. -/
def secondMetadata : SecretMetadata :=
  { sealedMetadata with versionId := "b", versionNumber := 2 }

/-- The second version has lost its ciphertext. -/
def damagedTables : Tables :=
  { Tables.empty with
    versions := [sealedRow, versionRow secondMetadata sealedNonce []] }

def revokingDamaged : Call transparentSuite where
  operation := .revokeSecret "workspace" "secret"
  master := ⟨[], "local"⟩
  env := {
    uuid4 := "c"
    eventId := "c"
    now := "c"
    occurredAt := "c"
    urandom := fun _ => sealedNonce
    urandom_length := sealedNonce_length
    privateKey := true
    fails := fun _ => none }

/-- The intact version is not revoked either. -/
theorem revocation_whole_damaged :
    (perform damagedTables revokingDamaged).2 = damagedTables ∧
      (perform damagedTables revokingDamaged).1.result = .error .secretTampered := by
  have hkeys : (damagedTables.versions.map VersionRow.key).Nodup := by decide
  have hnumbers : (damagedTables.versions.map VersionRow.numberKey).Nodup := by decide
  have hwhole : RevocationWhole transparentSuite "workspace" "secret" damagedTables
      revokingDamaged :=
    revocation_whole transparentSuite_decryptsOwn hkeys hnumbers rfl
  have hdecodes : ∀ row ∈ damagedTables.versions, row.Decodes := by
    intro row hrow
    simp only [damagedTables, List.mem_cons, List.not_mem_nil, or_false] at hrow
    rcases hrow with rfl | rfl
    · exact ⟨⟨_, metadataFromRow_versionRow Labels.isText_empty _ _⟩, prepared_versionRow _ _ _⟩
    · exact ⟨⟨_, metadataFromRow_versionRow Labels.isText_empty _ _⟩, prepared_versionRow _ _ _⟩
  have hdamaged : ¬ (versionRow secondMetadata sealedNonce []).Intact transparentSuite
      revokingDamaged.master := by
    intro ⟨plaintext, hdecrypt⟩
    obtain ⟨metadata, nonce, ciphertext, _, _, _, _, hciphertext, _, hplain⟩ :=
      decryptRow_eq_ok.mp hdecrypt
    cases hciphertext
    cases hplain
  obtain ⟨hsame, raised, hresult, htampered⟩ := hwhole.damaged
    (versionRow secondMetadata sealedNonce []) (by simp [damagedTables]) rfl (by decide) hdamaged
  refine ⟨hsame, ?_⟩
  rw [hresult, htampered hdecodes (fun _ => rfl) (fun _ _ _ _ _ _ _ _ => ⟨_, rfl⟩)]

end SecretsCustody
