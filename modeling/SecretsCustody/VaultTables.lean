/-
Tables that hold a vault.  A row of `secret_versions` is that of one version in its place, sealed;
the rows of the other tables are the records of their correlations.
-/
import SecretsCustody.Coherence
import SecretsCustody.Generations
import SecretsCustody.Tabulation
import SecretsCustody.Vault

namespace SecretsCustody

open Effect History KeyedRows Timelines

/-! ### Rows and versions -/

/-- The row reads as the version in its place, and decrypts to its value. -/
structure RowOf (suite : CryptoSuite) (home : String × String) (place : Version × Nat)
    (row : VersionRow) : Prop where
  reads : metadataFromRow row = .ok (place.1.metadata suite home place.2)
  decrypts : ∀ master : MasterKey, master.key = place.1.sealedBy.key →
    decryptRow suite master row = .ok place.1.value

theorem RowOf.name_eq {suite : CryptoSuite} (home : String × String) (place : Version × Nat)
    (row : VersionRow) (hrowOf : RowOf suite home place row) :
    row.versionId = place.1.versionId :=
  (metadataFromRow_describes hrowOf.reads).versionId.symm

theorem RowOf.number_eq {suite : CryptoSuite} (home : String × String) (place : Version × Nat)
    (row : VersionRow) (hrowOf : RowOf suite home place row) : row.versionNumber = place.2 :=
  (metadataFromRow_describes hrowOf.reads).versionNumber.symm

/-- The version rows as rows of a table of timelines. -/
def versionReading (suite : CryptoSuite) :
    Reading Version.versionId VersionRow (String × String) where
  address := VersionRow.address
  name := VersionRow.versionId
  number := VersionRow.versionNumber
  Tells := RowOf suite
  name_eq := RowOf.name_eq
  number_eq := RowOf.number_eq

section

variable {suite : CryptoSuite} {home : String × String} {place : Version × Nat}
variable {row : VersionRow} {master : MasterKey}

theorem Version.status_metadata {version : Version} {number : Nat} :
    (version.metadata suite home number).status = .revoked ↔ version.revokedAt ≠ none := by
  cases hrevoked : version.revokedAt with
  | none => simp [Version.metadata, hrevoked]
  | some revokedAt => simp [Version.metadata, hrevoked]

theorem Version.active_metadata {version : Version} {number : Nat} :
    (version.metadata suite home number).status = .active ↔ version.revokedAt = none := by
  cases hrevoked : version.revokedAt with
  | none => simp [Version.metadata, hrevoked]
  | some revokedAt => simp [Version.metadata, hrevoked]

/-- A row decrypts under a key of the version's fingerprint, which is the version's key. -/
theorem RowOf.decryptRow_eq (hrowOf : RowOf suite home place row)
    (htells : place.1.OpensTo suite master → master.key = place.1.sealedBy.key) :
    decryptRow suite master row = place.1.opened suite master := by
  unfold Version.opened
  by_cases hopens : place.1.OpensTo suite master
  · rw [if_pos hopens, hrowOf.decrypts master (htells hopens)]
  · rw [if_neg hopens]
    have hother : (place.1.metadata suite home place.2).keyFingerprint ≠
        master.fingerprint suite := hopens
    refine bind_eq_error.mpr (.inr ⟨_, hrowOf.reads, bind_eq_error.mpr (.inr
      ⟨(), raiseIf_eq_ok.mpr (not_not.mpr rfl), bind_eq_error.mpr (.inl ?_)⟩)⟩)
    exact raiseIf_eq_error.mpr ⟨hother, rfl⟩

/-- The row a write leaves is that of the version it wrote. -/
theorem rowOf_written (hsuite : suite.DecryptsOwn) {env : Env suite} {labels : Labels}
    (htext : labels.IsText) {value nonce ciphertext : Bytes} {number : Nat}
    (hencrypt : master.encrypt suite nonce value
      (aad (freshMetadata suite env master home.1 home.2 labels number)) = .ok ciphertext) :
    RowOf suite home (Vault.written suite env.draws master labels value, number)
      (versionRow (freshMetadata suite env master home.1 home.2 labels number) nonce
        ciphertext) where
  reads := metadataFromRow_versionRow htext nonce ciphertext
  decrypts := fun _ hkey =>
    have hmetadata : (freshMetadata suite env master home.1 home.2 labels number).labels.IsText :=
      htext
    decryptRow_versionRow hsuite hkey hmetadata rfl rfl hencrypt

theorem Version.revoked_metadata {version : Version} {number : Nat} {now : String}
    (hactive : version.revokedAt = none) :
    (version.revoked now).metadata suite home number =
      revokedMetadata (version.metadata suite home number) now := by
  simp [Version.metadata, Version.revoked, revokedMetadata, hactive]

/-- The row a revocation leaves is that of the version as revoked. -/
theorem RowOf.resealed (hsuite : suite.DecryptsOwn) (hrowOf : RowOf suite home place row)
    (hactive : place.1.revokedAt = none) {nonce ciphertext : Bytes} {now : String}
    (hencrypt : suite.encrypt place.1.sealedBy.key nonce place.1.value
      (aad (revokedMetadata (place.1.metadata suite home place.2) now)) = .ok ciphertext) :
    RowOf suite home (place.1.revoked now, place.2) (row.resealed nonce ciphertext now) := by
  have hreads := metadataFromRow_resealed hrowOf.reads nonce ciphertext now
  constructor
  · rw [hreads, Version.revoked_metadata hactive]
  · intro master hkey
    have hshallow := decryptRow_shallow (hrowOf.decrypts _ rfl)
    refine decryptRow_eq_ok.mpr ⟨_, nonce, ciphertext, hreads, rfl, ?_, rfl, rfl, hshallow, ?_⟩
    · change MasterKey.fingerprint suite _ = MasterKey.fingerprint suite _
      rw [MasterKey.fingerprint, MasterKey.fingerprint, hkey]
      rfl
    · apply hsuite
      rw [hkey]
      exact hencrypt

end

/-! ### Tables and vaults -/

def Use.row (workspaceId correlationId : String) (use : Use) : SelectionRow :=
  { workspaceId := workspaceId
    correlationId := correlationId
    secretId := use.secretId
    intent := use.intent
    callerSubject := use.callerSubject
    versionId := use.versionId
    selectedAt := use.selectedAt }

def Issue.row (workspaceId correlationId : String) (issue : Issue) : GenerationRow :=
  { workspaceId := workspaceId
    correlationId := correlationId
    secretId := issue.secretId
    secretReference := issue.secretReference
    purpose := issue.purpose
    issuer := issue.issuer
    callerSubject := issue.callerSubject
    versionId := issue.versionId
    keyId := .text issue.keyId
    algorithm := delegationKeyAlgorithm
    publicKeyPem := .text issue.publicKeyPem
    generatedAt := issue.generatedAt }

def Withdrawal.row (workspaceId correlationId : String) (withdrawal : Withdrawal) :
    RevocationRow :=
  { workspaceId := workspaceId
    correlationId := correlationId
    secretId := withdrawal.secretId
    versionId := withdrawal.versionId
    versionNumber := withdrawal.versionNumber
    callerSubject := withdrawal.callerSubject
    revokedAt := withdrawal.revokedAt }

/-- The history has the private half of the key pair an issue names, labelled for it. -/
structure Genuine (suite : CryptoSuite) (history : Timeline Version.versionId) (issue : Issue)
    (place : Version × Nat) (intent : String) (privateKey : suite.PrivateKey) : Prop where
  named : history.named issue.versionId = some place
  admitted : AdmittedFamily issue.purpose intent
  labels : place.1.labels.matchesTexts
    (generationTexts intent issue.purpose issue.issuer issue.keyId) = true
  value : place.1.value = suite.privateBytes privateKey
  publicKeyPem : issue.publicKeyPem = suite.publicPem privateKey
  keyId : delegationKeyId suite issue.publicKeyPem = some issue.keyId

/-- The tables hold the vault, encrypted. -/
structure Represents (suite : CryptoSuite) (vault : Vault) (tables : Tables) : Prop where
  versions : Tabulates (versionReading suite) tables.versions vault.history
  uses : ∀ workspaceId correlationId, tables.selection workspaceId correlationId =
    (vault.uses (workspaceId, correlationId)).map (Use.row workspaceId correlationId)
  issues : ∀ workspaceId correlationId, tables.generation workspaceId correlationId =
    (vault.issues (workspaceId, correlationId)).map (Issue.row workspaceId correlationId)
  withdrawals : ∀ workspaceId correlationId, tables.revocation workspaceId correlationId =
    (vault.withdrawals (workspaceId, correlationId)).map (Withdrawal.row workspaceId correlationId)
  genuine : ∀ workspaceId correlationId issue,
    vault.issues (workspaceId, correlationId) = some issue →
      ∃ place intent privateKey,
        Genuine suite (vault.history (workspaceId, issue.secretId)) issue place intent privateKey

theorem represents_empty (suite : CryptoSuite) : Represents suite Vault.empty Tables.empty where
  versions := tabulates_empty
  uses := fun _ _ => rfl
  issues := fun _ _ => rfl
  withdrawals := fun _ _ => rfl
  genuine := fun _ _ _ hissue => by cases hissue

/-- The versions of the vault that open to the master key are sealed under it. -/
def Vault.KeysTell (suite : CryptoSuite) (vault : Vault) (master : MasterKey) : Prop :=
  ∀ home, ∀ version ∈ (vault.history home).items,
    version.OpensTo suite master → master.key = version.sealedBy.key

section

variable {suite : CryptoSuite} {vault : Vault} {tables : Tables} {home : String × String}
variable {workspaceId secretId versionId : String}

theorem selectVersion_eq_find (suite : CryptoSuite) :
    tables.selectVersion workspaceId secretId versionId =
      KeyedRows.find (versionReading suite).key tables.versions ((workspaceId, secretId), versionId) := by
  unfold Tables.selectVersion KeyedRows.find
  congr 1
  funext row
  simp [VersionRow.key, Reading.key, versionReading, VersionRow.address, and_assoc]

/-- A version is selected in the tables as in the vault. -/
theorem Represents.select (hrepresents : Represents suite vault tables)
    (workspaceId secretId : String) (wanted : Option String) :
    (vault.select (workspaceId, secretId) wanted = none ∧
        selectRow tables workspaceId secretId wanted = none) ∨
      ∃ place row, vault.select (workspaceId, secretId) wanted = some place ∧
        selectRow tables workspaceId secretId wanted = some row ∧ row ∈ tables.versions ∧
        place ∈ (vault.history (workspaceId, secretId)).placed ∧
        RowOf suite (workspaceId, secretId) place row := by
  cases wanted with
  | none =>
      rcases hrepresents.versions.latest (workspaceId, secretId) with
        hnone | ⟨place, row, hplace, hrow, hmem, hrowOf⟩
      · exact .inl hnone
      · exact .inr ⟨place, row, hplace, hrow, hmem,
          Timeline.latest_mem hplace, hrowOf⟩
  | some versionId =>
      rw [selectRow, selectVersion_eq_find suite]
      rcases hrepresents.versions.find versionId with hnone | ⟨place, row, hplace, hrow, hrowOf⟩
      · exact .inl hnone
      · exact .inr ⟨place, row, hplace, hrow, mem_of_find hrow,
          (Timeline.named_eq_some_iff.mp hplace).1, hrowOf⟩

/-- The place or the identifier of a new version is taken in the tables as in the vault. -/
theorem Represents.taken_iff (hrepresents : Represents suite vault tables)
    (home : String × String) (versionId : String) {number : Nat} (hpositive : 1 ≤ number) :
    ((home.1, home.2, versionId) ∈ tables.versions.map VersionRow.key ∨
        (home.1, home.2, (number : Int)) ∈ tables.versions.map VersionRow.numberKey) ↔
      number ≤ (vault.history home).items.length ∨ (vault.history home).Has versionId := by
  have hplace : ∀ row ∈ tables.versions, row.address = home →
      ∃ place ∈ (vault.history home).placed, RowOf suite home place row :=
    fun row hrow haddress => hrepresents.versions.place_of_mem hrow haddress
  have hstored : ∀ place ∈ (vault.history home).placed, ∃ row ∈ tables.versions,
      row.address = home ∧ RowOf suite home place row := hrepresents.versions.stored home
  constructor
  · rintro (hkey | hnumber)
    · obtain ⟨row, hrow, hkey⟩ := List.mem_map.mp hkey
      simp only [VersionRow.key, Prod.mk.injEq] at hkey
      obtain ⟨place, hmem, hrowOf⟩ := hplace row hrow (Prod.ext hkey.1 hkey.2.1)
      right
      rw [← hkey.2.2, hrowOf.name_eq]
      exact List.mem_map_of_mem (Timeline.mem_items_of_placed hmem)
    · obtain ⟨row, hrow, hkey⟩ := List.mem_map.mp hnumber
      simp only [VersionRow.numberKey, Prod.mk.injEq] at hkey
      obtain ⟨place, hmem, hrowOf⟩ := hplace row hrow (Prod.ext hkey.1 hkey.2.1)
      have hsame := hrowOf.number_eq.symm.trans hkey.2.2
      have hbound := Timeline.place_le hmem
      left
      omega
  · rintro (hnumber | hhas)
    · obtain ⟨place, hmem, hsame⟩ := Timeline.exists_place hpositive hnumber
      obtain ⟨row, hrow, haddress, hrowOf⟩ := hstored place hmem
      right
      refine List.mem_map.mpr ⟨row, hrow, ?_⟩
      subst haddress
      rw [← hsame, ← hrowOf.number_eq]
      rfl
    · rw [Timeline.Has, ← Timeline.map_fst_placed, List.map_map] at hhas
      obtain ⟨place, hmem, hsame⟩ := List.mem_map.mp hhas
      obtain ⟨row, hrow, haddress, hrowOf⟩ := hstored place hmem
      left
      refine List.mem_map.mpr ⟨row, hrow, ?_⟩
      subst haddress
      rw [← hsame, Function.comp, ← hrowOf.name_eq]
      rfl

/-! ### Changes of the history -/

theorem Genuine.push {history : Timeline Version.versionId} {issue : Issue}
    {place : Version × Nat} {intent : String} {privateKey : suite.PrivateKey}
    (hgenuine : Genuine suite history issue place intent privateKey) {version : Version}
    (hfresh : ¬ history.Has version.versionId) :
    Genuine suite (history.push version hfresh) issue place intent privateKey :=
  { hgenuine with named := Timeline.named_push_of_has hfresh hgenuine.named }

theorem Genuine.alter {history : Timeline Version.versionId} {issue : Issue}
    {place : Version × Nat} {intent : String} {privateKey : suite.PrivateKey}
    (hgenuine : Genuine suite history issue place intent privateKey) (chosen : String → Bool)
    (now : String) :
    Genuine suite (history.alter (Version.revokedIf chosen now)
      (Version.revokedIf_versionId chosen now)) issue (place.1.revokedIf chosen now, place.2)
      intent privateKey := by
  obtain ⟨hlabels, hvalue, _⟩ := Version.revokedIf_same chosen now place.1
  refine { hgenuine with named := ?_, labels := ?_, value := ?_ }
  · rw [Timeline.named_alter, hgenuine.named]
    rfl
  · rw [hlabels]
    exact hgenuine.labels
  · rw [hvalue]
    exact hgenuine.value

/-- A change of one history that keeps its issues genuine. -/
theorem Represents.genuine_update (hrepresents : Represents suite vault tables)
    {history : Timeline Version.versionId}
    (hkept : ∀ issue place intent privateKey,
      Genuine suite (vault.history home) issue place intent privateKey →
        ∃ place', Genuine suite history issue place' intent privateKey)
    {workspaceId correlationId : String} {issue : Issue}
    (hissue : vault.issues (workspaceId, correlationId) = some issue) :
    ∃ place intent privateKey, Genuine suite
      (Function.update vault.history home history (workspaceId, issue.secretId)) issue place
        intent privateKey := by
  obtain ⟨place, intent, privateKey, hgenuine⟩ :=
    hrepresents.genuine workspaceId correlationId issue hissue
  by_cases hhome : (workspaceId, issue.secretId) = home
  · subst hhome
    rw [Function.update_self]
    obtain ⟨place', hgenuine'⟩ := hkept issue place intent privateKey hgenuine
    exact ⟨place', intent, privateKey, hgenuine'⟩
  · rw [Function.update_of_ne hhome]
    exact ⟨place, intent, privateKey, hgenuine⟩

/-- The tables with a row for a new version represent the vault with the version. -/
theorem Represents.push (hrepresents : Represents suite vault tables) {version : Version}
    {row : VersionRow} (hfresh : ¬ (vault.history home).Has version.versionId)
    (haddress : row.address = home)
    (hrowOf : RowOf suite home (version, (vault.history home).items.length + 1) row) :
    Represents suite
      { vault with
        history := Function.update vault.history home
          ((vault.history home).push version hfresh) }
      { tables with versions := tables.versions ++ [row] } where
  versions := hrepresents.versions.append hfresh haddress hrowOf
  uses := hrepresents.uses
  issues := hrepresents.issues
  withdrawals := hrepresents.withdrawals
  genuine := fun _ _ _ hissue => hrepresents.genuine_update
    (fun _ place _ _ hgenuine => ⟨place, hgenuine.push hfresh⟩) hissue

/-- The tables with the chosen versions sealed again represent the vault with these revoked. -/
theorem Represents.revoking (hrepresents : Represents suite vault tables)
    (home : String × String) (chosen : String → Bool) (now : String)
    {change : VersionRow → VersionRow}
    (haddress : ∀ row ∈ tables.versions, (change row).address = row.address)
    (hother : ∀ row ∈ tables.versions, row.address ≠ home → change row = row)
    (hrowOf : ∀ row ∈ tables.versions, ∀ place ∈ (vault.history home).placed,
      row.address = home → RowOf suite home place row →
        RowOf suite home (place.1.revokedIf chosen now, place.2) (change row)) :
    Represents suite (vault.revoking home chosen now)
      { tables with versions := tables.versions.map change } where
  versions := hrepresents.versions.alter _ haddress hother hrowOf
  uses := hrepresents.uses
  issues := hrepresents.issues
  withdrawals := hrepresents.withdrawals
  genuine := fun _ _ _ hissue => hrepresents.genuine_update
    (fun _ _ _ _ hgenuine => ⟨_, hgenuine.alter chosen now⟩) hissue

/-! ### Correlations -/

/-- A record added under a fresh correlation. -/
theorem find_record {σ τ : Type} {key : τ → String × String} {rows : List τ}
    {held : String × String → Option σ} {record : String → String → σ → τ}
    (hrows : ∀ workspaceId correlationId, KeyedRows.find key rows (workspaceId, correlationId) =
      (held (workspaceId, correlationId)).map (record workspaceId correlationId))
    {workspaceId correlationId : String} {item : σ}
    (hkey : key (record workspaceId correlationId item) = (workspaceId, correlationId))
    (hfresh : held (workspaceId, correlationId) = none) (workspaceId' correlationId' : String) :
    KeyedRows.find key (rows ++ [record workspaceId correlationId item])
        (workspaceId', correlationId') =
      (Function.update held (workspaceId, correlationId) (some item)
        (workspaceId', correlationId')).map (record workspaceId' correlationId') := by
  rw [find_append_singleton, hkey, hrows]
  by_cases hsame : (workspaceId', correlationId') = (workspaceId, correlationId)
  · cases hsame
    rw [hfresh, Function.update_self, if_pos rfl]
    rfl
  · rw [Function.update_of_ne hsame, if_neg (Ne.symm hsame), Option.or_none]

variable {correlationId : String}

theorem Represents.withdrawn (hrepresents : Represents suite vault tables)
    (hfresh : vault.withdrawals (workspaceId, correlationId) = none) (withdrawal : Withdrawal) :
    Represents suite
      { vault with
        withdrawals :=
          Function.update vault.withdrawals (workspaceId, correlationId) (some withdrawal) }
      { tables with
        revocations := tables.revocations ++ [withdrawal.row workspaceId correlationId] } :=
  { versions := hrepresents.versions
    uses := hrepresents.uses
    issues := hrepresents.issues
    withdrawals := find_record hrepresents.withdrawals rfl hfresh
    genuine := hrepresents.genuine }

theorem Represents.used (hrepresents : Represents suite vault tables)
    (hfresh : vault.uses (workspaceId, correlationId) = none) (use : Use) :
    Represents suite
      { vault with
        uses := Function.update vault.uses (workspaceId, correlationId) (some use) }
      { tables with selections := tables.selections ++ [use.row workspaceId correlationId] } :=
  { versions := hrepresents.versions
    uses := find_record hrepresents.uses rfl hfresh
    issues := hrepresents.issues
    withdrawals := hrepresents.withdrawals
    genuine := hrepresents.genuine }

theorem Represents.issued (hrepresents : Represents suite vault tables)
    (hfresh : vault.issues (workspaceId, correlationId) = none) {issue : Issue}
    {place : Version × Nat} {intent : String} {privateKey : suite.PrivateKey}
    (hgenuine : Genuine suite (vault.history (workspaceId, issue.secretId)) issue place intent
      privateKey) :
    Represents suite
      { vault with
        issues := Function.update vault.issues (workspaceId, correlationId) (some issue) }
      { tables with generations := tables.generations ++ [issue.row workspaceId correlationId] } :=
  { versions := hrepresents.versions
    uses := hrepresents.uses
    issues := find_record hrepresents.issues rfl hfresh
    withdrawals := hrepresents.withdrawals
    genuine := by
      intro workspaceId' correlationId' issue' hissue
      change Function.update _ _ _ _ = _ at hissue
      by_cases hsame : (workspaceId', correlationId') = (workspaceId, correlationId)
      · cases hsame
        rw [Function.update_self] at hissue
        cases hissue
        exact ⟨place, intent, privateKey, hgenuine⟩
      · rw [Function.update_of_ne hsame] at hissue
        exact hrepresents.genuine workspaceId' correlationId' issue' hissue }

/-- Audit records are nothing to the vault. -/
theorem Represents.audited (hrepresents : Represents suite vault tables)
    (records : List AuditRecord) :
    Represents suite vault { tables with auditRecords := records } :=
  { versions := hrepresents.versions
    uses := hrepresents.uses
    issues := hrepresents.issues
    withdrawals := hrepresents.withdrawals
    genuine := hrepresents.genuine }

/-- A correlation has a revocation in the tables as in the vault, on a version that is revoked. -/
theorem Represents.withdrawal (hrepresents : Represents suite vault tables)
    (hcoherent : Coherent tables) {withdrawal : Withdrawal}
    (hwithdrawal : vault.withdrawals (workspaceId, correlationId) = some withdrawal) :
    ∃ row ∈ tables.versions,
      row.key = (workspaceId, withdrawal.secretId, withdrawal.versionId) ∧
        row.versionNumber = withdrawal.versionNumber ∧
        row.status = SecretStatus.revoked.value := by
  have hfound := hrepresents.withdrawals workspaceId correlationId
  rw [hwithdrawal] at hfound
  obtain ⟨row, hrow, hkey, hnumber, hstatus, _⟩ := hcoherent.revocations _ (mem_of_find hfound)
  exact ⟨row, hrow, hkey, hnumber, hstatus⟩

theorem Represents.withdrawn_iff (hrepresents : Represents suite vault tables)
    (hconsistent : Consistent tables) (workspaceId secretId versionId : String) :
    tables.revocationOf workspaceId secretId versionId ≠ none ↔
      vault.Withdrawn (workspaceId, secretId) versionId := by
  rw [Tables.revocationOf, Ne, find_eq_none_iff, not_not, List.mem_map]
  constructor
  · rintro ⟨row, hrow, htarget⟩
    have hfound := hconsistent.revocationKeys.find_of_mem hrow
    simp only [RevocationRow.target, Prod.mk.injEq] at htarget
    obtain ⟨rfl, hsecret, hversion⟩ := htarget
    have hheld := (hrepresents.withdrawals row.workspaceId row.correlationId).symm.trans hfound
    obtain ⟨withdrawal, hwithdrawal, hrow⟩ := Option.map_eq_some_iff.mp hheld
    refine ⟨row.correlationId, withdrawal, hwithdrawal, ?_, ?_⟩
    · rw [← hsecret, ← hrow]
      rfl
    · rw [← hversion, ← hrow]
      rfl
  · rintro ⟨correlationId, withdrawal, hwithdrawal, rfl, rfl⟩
    have hfound := hrepresents.withdrawals workspaceId correlationId
    rw [hwithdrawal] at hfound
    exact ⟨_, mem_of_find hfound, rfl⟩

end

end SecretsCustody
