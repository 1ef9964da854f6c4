/-
The store answers as the vault.  On tables that represent a vault every operation ends as the
vault answers, on tables that represent the vault of the answer, or it is hindered.
-/
import SecretsCustody.VaultTables
import SecretsCustody.WholeRevocation

namespace SecretsCustody

open Effect History KeyedRows Timelines

/-! ### Answers -/

/-- What keeps a call from its answer: a failed statement, bytes it has to seal that the cipher
does not take, or an audit record that cannot be added. -/
inductive Hindered {suite : CryptoSuite} (env : Env suite) (master : MasterKey) (tables : Tables)
    (seals : Bytes → Prop) : Raised → Prop
  | fault {raised : Raised} (hfault : env.Faults raised) :
      Hindered env master tables seals raised
  | cipher {nonce plaintext associated : Bytes} {raised : Raised} (hseals : seals plaintext)
      (hnonce : nonce.length = nonceBytes)
      (hencrypt : master.encrypt suite nonce plaintext associated = .error raised) :
      Hindered env master tables seals raised
  | audit (hblocked : AuditBlocked env tables) :
      Hindered env master tables seals .auditUnavailable

section

variable {suite : CryptoSuite} {env : Env suite} {master : MasterKey} {vault : Vault}
variable {tables : Tables} {seals : Bytes → Prop} {log : List Encryption}
variable {home : String × String} {workspaceId secretId : String}

theorem Hindered.mono {seals' : Bytes → Prop} {raised : Raised}
    (hhindered : Hindered env master tables seals raised)
    (hseals : ∀ value, seals value → seals' value) :
    Hindered env master tables seals' raised := by
  cases hhindered with
  | fault hfault => exact .fault hfault
  | cipher hseal hnonce hencrypt => exact .cipher (hseals _ hseal) hnonce hencrypt
  | audit hblocked => exact .audit hblocked

/-- The program ends as the answer says, on tables that represent the vault of the answer, or
it is hindered. -/
def Answers {α : Type} (env : Env suite) (master : MasterKey) (tables : Tables)
    (seals : Bytes → Prop) (log : List Encryption) (program : Tx Tables α)
    (answer : Except Raised (α × Vault)) : Prop :=
  Ends program tables log
    (fun value tables' _ => ∃ vault', answer = .ok (value, vault') ∧
      Represents suite vault' tables')
    (fun raised _ _ => answer = .error raised ∨ Hindered env master tables seals raised)

theorem answers_connection {α : Type} {body : Tx Tables α} {answer : Except Raised (α × Vault)}
    (hbody : Answers env master tables seals log body answer) :
    Answers env master tables seals log (connection suite env body) answer :=
  (ends_connection hbody fun _ hfault => .inr (.fault hfault)).mono (fun _ _ _ hreturns => hreturns)
    fun _ _ _ hraises => hraises.1

/-- An answer that is audited at the end of its transaction. -/
theorem answers_audited {α : Type} {value : α} {answer : Except Raised (α × Vault)}
    {vault' : Vault} {tables' : Tables} {record : AuditRecord}
    (hevent : record.eventId = env.eventId)
    (hrecords : tables'.auditRecords = tables.auditRecords)
    (hanswer : answer = .ok (value, vault')) (hrepresents : Represents suite vault' tables') :
    Ends (appendInTransaction env record >>= fun _ => pure value) tables' log
      (fun value tables' _ => ∃ vault', answer = .ok (value, vault') ∧
        Represents suite vault' tables')
      (fun raised _ _ => answer = .error raised ∨ Hindered env master tables seals raised) := by
  refine Ends.bind ((appendInTransaction_ends hevent).mono ?_ ?_)
  · rintro _ _ _ ⟨⟨rfl, _⟩, rfl⟩
    exact ends_pure ⟨vault', hanswer, hrepresents.audited _⟩
  · rintro raised _ _ ⟨rfl, hblocked, _⟩
    rw [AuditBlocked, hrecords] at hblocked
    exact .inr (.audit hblocked)

theorem insertVersion_answers (hsuite : suite.DecryptsOwn) (home : String × String)
    (hrepresents : Represents suite vault tables) {value : Bytes} {labels : TextDict}
    {number : Nat} (hpositive : 1 ≤ number)
    (hnext : number ≤ (vault.history home).items.length + 1) :
    Answers env master tables (· = value) log
      (insertVersion suite env master home.1 home.2 value labels number)
      (vault.insert suite env.draws master home value labels number) := by
  unfold insertVersion Vault.insert
  refine Ends.bind (ends_ofExcept (fun clean hclean => ?_) fun raised hclean => ?_)
  · rw [hclean]
    refine Ends.bind (ends_urandom (Ends.bind (ends_encrypt (fun ciphertext hencrypt => ?_)
      fun raised hencrypt => .inr (.cipher rfl (env.urandom_length _) hencrypt))))
    refine Ends.bind (ends_raiseIf (fun hnumber => ?_) fun hnumber => ?_)
    · exact .inl (if_pos hnumber)
    have htaken := hrepresents.taken_iff home env.uuid4 hpositive
    refine Ends.bind (ends_mapRaised (ends_execute (fun tables' hinsert => ?_)
      (fun raised hinsert => ?_) fun raised hfault => ?_))
    · unfold Tables.insertVersion at hinsert
      split at hinsert
      · cases hinsert
      · next hfree =>
          cases hinsert
          have hopen := mt htaken.mpr hfree
          have hlast : number = (vault.history home).items.length + 1 := by omega
          refine ends_pure ⟨_, (if_neg hnumber).trans (dif_neg hopen), hrepresents.push _ rfl ?_⟩
          rw [← hlast]
          exact rowOf_written hsuite (cleanLabels_isText hclean) hencrypt
    · unfold Tables.insertVersion at hinsert
      split at hinsert
      · next hkeys =>
          cases hinsert
          exact .inl ((if_neg hnumber).trans (dif_pos (htaken.mp hkeys)))
      · cases hinsert
    · obtain ⟨index, fault, hfails, rfl⟩ := hfault
      exact .inr (.fault ⟨index, fault, hfails, rfl⟩)
  · rw [hclean]
    exact .inl rfl

theorem createSecret_answers (hsuite : suite.DecryptsOwn)
    (hrepresents : Represents suite vault tables) {value : Bytes} {labels : TextDict} :
    Answers env master tables (· = value) log
      (createSecret suite env master workspaceId secretId value labels)
      (vault.insert suite env.draws master (workspaceId, secretId) value labels 1) :=
  answers_connection (Ends.bind (ends_statement
    (insertVersion_answers hsuite (workspaceId, secretId) hrepresents le_rfl
      (Nat.le_add_left 1 _))
    fun _ hfault => .inr (.fault hfault)))

theorem rotateSecret_answers (hsuite : suite.DecryptsOwn)
    (hrepresents : Represents suite vault tables) {value : Bytes} {labels : TextDict}
    {expectedIntent : Option String} :
    Answers env master tables (· = value) log
      (rotateSecret suite env master workspaceId secretId value labels expectedIntent)
      (vault.rotate suite env.draws master (workspaceId, secretId) value labels expectedIntent) := by
  refine answers_connection (Ends.bind (ends_statement (Ends.bind (ends_query ?_
    fun _ hfault => .inr (.fault hfault))) fun _ hfault => .inr (.fault hfault)))
  unfold Vault.rotate
  rcases hrepresents.versions.latest (workspaceId, secretId) with
    ⟨hplace, hrow⟩ | ⟨⟨version, number⟩, row, hplace, hrow, _, hrowOf⟩
  · have hlatest : tables.latestVersion workspaceId secretId = none := hrow
    rw [hlatest, hplace]
    exact ends_throw (.inl rfl)
  · have hlatest : tables.latestVersion workspaceId secretId = some row := hrow
    rw [hlatest, hplace]
    refine Ends.bind (ends_ofExcept_ok hrowOf.reads ?_)
    refine Ends.bind (ends_raiseIf (fun hintent => .inl (if_pos hintent)) fun hintent => ?_)
    have hnumber : row.versionNumber + 1 = ((number + 1 : Nat) : Int) := by
      rw [hrowOf.number_eq]
      rfl
    have hlast : number = (vault.history (workspaceId, secretId)).items.length :=
      Timeline.latest_place hplace
    simp only [if_neg hintent]
    rw [hnumber]
    exact insertVersion_answers hsuite (workspaceId, secretId) hrepresents (by omega) (by omega)

/-! ### Revocations -/

/-- A row of an active version is sealed again as revoked, if the version opens. -/
theorem revokeRow_answers (hsuite : suite.DecryptsOwn) {place : Version × Nat} {row : VersionRow}
    {now : String} (before : Tables) (hrowOf : RowOf suite home place row)
    (hactive : place.1.revokedAt = none)
    (htells : place.1.OpensTo suite master → master.key = place.1.sealedBy.key) :
    Ends (revokeRow suite env master row now) tables log
      (fun revoked tables' _ => place.1.OpensTo suite master ∧
        revoked = (place.1.revoked now).metadata suite home place.2 ∧
        ∃ nonce ciphertext,
          tables' = tables.updateVersion row.key SecretStatus.revoked.value (.blob nonce)
            (.blob ciphertext) (some now) ∧
          RowOf suite home (place.1.revoked now, place.2) (row.resealed nonce ciphertext now))
      (fun raised _ _ => ¬ place.1.OpensTo suite master ∧ raised = .secretTampered ∨
        Hindered env master before (· = place.1.value) raised) := by
  unfold revokeRow
  refine Ends.bind (ends_ofExcept_ok hrowOf.reads ?_)
  rw [hrowOf.decryptRow_eq htells, Version.opened]
  by_cases hopens : place.1.OpensTo suite master
  · rw [if_pos hopens]
    refine Ends.bind (ends_ofExcept_ok rfl (Ends.bind (ends_urandom (Ends.bind (ends_encrypt
      (fun ciphertext hencrypt => ?_)
      fun raised hencrypt => .inr (.cipher rfl (env.urandom_length _) hencrypt))))))
    refine Ends.bind (ends_execute_ok rfl ?_ fun raised hfault => .inr (.fault hfault))
    refine ends_pure ⟨hopens, (Version.revoked_metadata hactive).symm, env.urandom log.length,
      ciphertext, ?_, hrowOf.resealed hsuite hactive ?_⟩
    · rw [← (metadataFromRow_describes hrowOf.reads).key]
    · rw [← htells hopens]
      exact MasterKey.encrypt_eq_ok hencrypt
  · rw [if_neg hopens]
    refine Ends.bind (ends_ofExcept (fun _ hplaintext => ?_) fun raised hraised => ?_)
    · cases hplaintext
    · cases hraised
      exact .inl ⟨hopens, rfl⟩

/-- The loop of `revoke_secret` raises over an active version that does not open, or hindered. -/
theorem revokeEach_raises (hsuite : suite.DecryptsOwn) {places : List (Version × Nat)}
    {rows : List VersionRow} {now : String} (before : Tables)
    (hplaces : List.Forall₂ (RowOf suite home) places rows)
    (htells : ∀ place ∈ places, place.1.OpensTo suite master →
      master.key = place.1.sealedBy.key) :
    Ends (revokeEach suite env master now rows) tables log (fun _ _ _ => True)
      (fun raised _ _ =>
        (∃ place ∈ places, place.1.revokedAt = none ∧ ¬ place.1.OpensTo suite master) ∧
            raised = .secretTampered ∨
          Hindered env master before (fun value => ∃ place ∈ places, value = place.1.value)
            raised) := by
  induction hplaces generalizing tables log with
  | nil => exact ends_pure trivial
  | @cons place row places rows hrowOf hrest ih =>
      have hhead : ∀ raised, ¬ place.1.OpensTo suite master ∧ raised = .secretTampered ∨
          Hindered env master before (· = place.1.value) raised →
          place.1.revokedAt = none →
          (∃ found ∈ place :: places,
              found.1.revokedAt = none ∧ ¬ found.1.OpensTo suite master) ∧
              raised = .secretTampered ∨
            Hindered env master before
              (fun value => ∃ found ∈ place :: places, value = found.1.value) raised := by
        rintro raised (⟨hopens, rfl⟩ | hhindered) hactive
        · exact .inl ⟨⟨place, List.mem_cons_self, hactive, hopens⟩, rfl⟩
        · exact .inr (hhindered.mono fun value hvalue => ⟨place, List.mem_cons_self, hvalue⟩)
      have hfirst : Ends (revokeUnlessRevoked suite env master now row) tables log
          (fun _ _ _ => True) fun raised _ _ =>
            (∃ found ∈ place :: places,
                found.1.revokedAt = none ∧ ¬ found.1.OpensTo suite master) ∧
                raised = .secretTampered ∨
              Hindered env master before
                (fun value => ∃ found ∈ place :: places, value = found.1.value) raised := by
        unfold revokeUnlessRevoked
        refine Ends.bind (ends_ofExcept_ok hrowOf.reads (ends_ite (fun _ => ends_pure trivial)
          fun hstatus => ?_))
        rw [Version.status_metadata, not_not] at hstatus
        exact (revokeRow_answers hsuite before hrowOf hstatus
          (htells place List.mem_cons_self)).mono (fun _ _ _ _ => trivial)
          fun raised _ _ hraises => hhead raised hraises hstatus
      refine Ends.bind (hfirst.mono (fun _ _ _ _ => ?_) fun _ _ _ hraises => hraises)
      refine Ends.bind ((ih fun found hfound => htells found (List.mem_cons_of_mem _ hfound)).mono
        (fun _ _ _ _ => ends_pure trivial) ?_)
      rintro raised _ _ (⟨⟨found, hfound, hactive⟩, rfl⟩ | hhindered)
      · exact .inl ⟨⟨found, List.mem_cons_of_mem _ hfound, hactive⟩, rfl⟩
      · refine .inr (hhindered.mono ?_)
        rintro value ⟨found, hfound, hvalue⟩
        exact ⟨found, List.mem_cons_of_mem _ hfound, hvalue⟩

/-- A loop that returned found every version it revoked open. -/
theorem RevokesEach.opens {places : List (Version × Nat)} {rows : List VersionRow} {now : String}
    {revoked : List SecretMetadata} {tables' : Tables} {log' : List Encryption}
    (heach : RevokesEach env master now rows tables log revoked tables' log')
    (hplaces : List.Forall₂ (RowOf suite home) places rows) :
    ∀ place ∈ places, place.1.revokedAt = none → place.1.OpensTo suite master := by
  induction heach generalizing places with
  | nil =>
      cases hplaces
      simp
  | kept hmetadata hstatus _ ih =>
      cases hplaces with
      | cons hrowOf hrest =>
          rw [hrowOf.reads] at hmetadata
          cases hmetadata
          rw [Version.status_metadata] at hstatus
          exact List.forall_mem_cons.mpr ⟨fun hactive => absurd hactive hstatus, ih hrest⟩
  | changed hmetadata _ hrevokes _ ih =>
      cases hplaces with
      | cons hrowOf hrest =>
          refine List.forall_mem_cons.mpr ⟨fun _ => ?_, ih hrest⟩
          cases hrevokes with
          | intro _ hdecrypt _ =>
              obtain ⟨found, _, _, hfound, _, hfingerprint, _⟩ := decryptRow_eq_ok.mp hdecrypt
              rw [hrowOf.reads] at hfound
              cases hfound
              exact hfingerprint

/-- The loop lists the versions as they are afterwards. -/
theorem lists_places {places : List (Version × Nat)} {rows : List VersionRow} {now : String}
    {revoked : List SecretMetadata} (hplaces : List.Forall₂ (RowOf suite home) places rows)
    (hlists : List.Forall₂ (Lists now) rows revoked) :
    revoked = places.map fun place =>
      (place.1.revokedIf (fun _ => true) now).metadata suite home place.2 := by
  induction hplaces generalizing revoked with
  | nil =>
      cases hlists
      rfl
  | @cons place row places rows hrowOf hrest ih =>
      cases hlists with
      | cons hlisted hlists =>
          rw [List.map_cons, ← ih hlists]
          congr 1
          change _ = (place.1.revoked now).metadata suite home place.2
          cases hlisted with
          | kept hreads hstatus =>
              rw [hrowOf.reads] at hreads
              cases hreads
              rw [Version.status_metadata] at hstatus
              obtain ⟨at', hrevoked⟩ := Option.ne_none_iff_exists'.mp hstatus
              simp [Version.metadata, Version.revoked, hrevoked]
          | changed hreads hstatus =>
              rw [hrowOf.reads] at hreads
              cases hreads
              exact (Version.revoked_metadata (Version.active_metadata.mp hstatus)).symm

/-- The row the loop left is that of the version as revoked. -/
theorem RowOf.revised (hsuite : suite.DecryptsOwn) {place : Version × Nat} {row row' : VersionRow}
    {written : List SecretMetadata} (hrowOf : RowOf suite home place row)
    (htells : place.1.OpensTo suite master → master.key = place.1.sealedBy.key)
    (hstep : RowStep env master written log row row')
    (hreads : ∃ metadata, metadataFromRow row' = .ok metadata ∧ metadata.status = .revoked) :
    RowOf suite home (place.1.revoked env.now, place.2) row' := by
  cases hstep with
  | same =>
      obtain ⟨metadata, hmetadata, hstatus⟩ := hreads
      rw [hrowOf.reads] at hmetadata
      cases hmetadata
      rw [Version.status_metadata] at hstatus
      obtain ⟨revokedAt, hrevoked⟩ := Option.ne_none_iff_exists'.mp hstatus
      have hsame : place.1.revoked env.now = place.1 := by
        rw [Version.revoked, hrevoked, Option.some_or, ← hrevoked]
      rwa [hsame]
  | @resealed metadata encryption hmetadata hactive hdecrypt hseals hkey =>
      rw [hrowOf.reads] at hmetadata
      cases hmetadata
      rw [hrowOf.decryptRow_eq htells, Version.opened] at hdecrypt
      split at hdecrypt
      · next hopens =>
          apply hrowOf.resealed hsuite (Version.active_metadata.mp hactive)
          rw [← htells hopens, ← hkey, Except.ok.inj hdecrypt]
          exact hseals.encrypted
      · cases hdecrypt

theorem revokeSecret_answers (hsuite : suite.DecryptsOwn) (hconsistent : Consistent tables)
    (hrepresents : Represents suite vault tables) (htells : vault.KeysTell suite master) :
    Answers env master tables
      (fun value => ∃ version ∈ (vault.history (workspaceId, secretId)).items,
        value = version.value) log
      (revokeSecret suite env master workspaceId secretId)
      (vault.revoke suite env.draws master (workspaceId, secretId)) := by
  have hplaces : List.Forall₂ (RowOf suite (workspaceId, secretId))
      (vault.history (workspaceId, secretId)).placed (tables.allVersions workspaceId secretId) :=
    hrepresents.versions.ordered (workspaceId, secretId)
  have hitems : ∀ place ∈ (vault.history (workspaceId, secretId)).placed,
      place.1 ∈ (vault.history (workspaceId, secretId)).items :=
    fun _ hplace => Timeline.mem_items_of_placed hplace
  refine answers_connection (Ends.bind (ends_statement (Ends.bind (ends_query ?_
    fun _ hfault => .inr (.fault hfault))) fun _ hfault => .inr (.fault hfault)))
  unfold Vault.revoke
  refine Ends.bind (ends_raiseIf (fun hnone => ?_) fun hsome => ?_)
  · rw [hnone, List.forall₂_nil_right_iff, Timeline.placed_eq_nil_iff] at hplaces
    rw [hplaces]
    exact .inl rfl
  · have hnonempty : (vault.history (workspaceId, secretId)).items.isEmpty = false := by
      rw [List.isEmpty_eq_false_iff]
      intro hnil
      rw [Timeline.placed_eq_nil_iff.mpr hnil, List.forall₂_nil_left_iff] at hplaces
      exact hsome hplaces
    simp only [hnonempty, Bool.false_eq_true, if_false]
    refine ((revokeEach_ends _).and (revokeEach_raises hsuite tables hplaces
      fun place hplace => htells _ _ (hitems place hplace))).mono ?_ ?_
    · rintro revoked tables' log' ⟨heach, _⟩
      have hopens := heach.opens hplaces
      have hlists := lists_places hplaces heach.lists
      have hstored : ∀ row, row ∈ tables.allVersions workspaceId secretId ↔
          row ∈ tables.versions ∧ row.address = (workspaceId, secretId) :=
        fun _ => Tables.mem_allVersions
      obtain ⟨change, rfl, hsame, hsteps, hreads, _, _⟩ :=
        heach.effect (allVersions_unique hconsistent.versionKeys workspaceId secretId)
          hconsistent.versionKeys (fun row hrow => ((hstored row).mp hrow).1)
          (fun _ hwritten => hwritten) (fun _ hlater => hlater)
      have hother : ∀ row ∈ tables.versions, row.address ≠ (workspaceId, secretId) →
          change row = row :=
        fun row _ haddress => hsame row fun hrow => haddress ((hstored row).mp hrow).2
      refine ⟨_, ?_, hrepresents.revoking (workspaceId, secretId) (fun _ => true) env.now
        ?_ hother ?_⟩
      · rw [if_pos, hlists, Vault.history_revoking, Timeline.placed_alter, List.map_map]
        · rfl
        · intro version hversion hactive
          rw [← Timeline.map_fst_placed] at hversion
          obtain ⟨place, hplace, rfl⟩ := List.mem_map.mp hversion
          exact hopens place hplace hactive
      · intro row hrow
        by_cases haddress : row.address = (workspaceId, secretId)
        · exact (hsteps row ((hstored row).mpr ⟨hrow, haddress⟩)).sameVersion.address
        · rw [hother row hrow haddress]
      · intro row hrow place hplace haddress hrowOf
        have hmem := (hstored row).mpr ⟨hrow, haddress⟩
        exact hrowOf.revised hsuite (htells _ _ (hitems place hplace)) (hsteps row hmem)
          (hreads row hmem)
    · rintro raised _ _ ⟨_, ⟨⟨place, hplace, hactive, hopens⟩, rfl⟩ | hhindered⟩
      · left
        rw [if_neg]
        intro hall
        exact hopens (hall _ (hitems place hplace) hactive)
      · refine .inr (hhindered.mono ?_)
        rintro value ⟨place, hplace, hvalue⟩
        exact ⟨place.1, hitems place hplace, hvalue⟩

/-! ### Reads -/

/-- What is read from the row found. -/
def readRow {α : Type} (read : VersionRow → Except Raised α) :
    Option VersionRow → Except Raised α
  | none => .error .secretMissing
  | some row => read row

theorem answers_ofExcept {α : Type} (hrepresents : Represents suite vault tables)
    (result : Except Raised α) :
    Answers env master tables seals log (ofExcept result) (result.map fun value => (value, vault)) := by
  refine ends_ofExcept (fun value hvalue => ?_) fun raised hraised => ?_
  · rw [hvalue]
    exact ⟨vault, rfl, hrepresents⟩
  · rw [hraised]
    exact .inl rfl

/-- A row read on a connection of its own. -/
theorem answers_read {α : Type} (hrepresents : Represents suite vault tables)
    (read : VersionRow → Except Raised α) (versionId : Option String)
    {next : Option VersionRow → Tx Tables α} (hnone : next none = throw .secretMissing)
    (hsome : ∀ row, next (some row) = ofExcept (read row)) :
    Answers env master tables seals []
      (selectRowAlone suite env workspaceId secretId versionId >>= next)
      ((readRow read (selectRow tables workspaceId secretId versionId)).map
        fun value => (value, vault)) := by
  refine Ends.bind (selectRowAlone_ends.mono ?_ fun _ _ _ hraises => .inr (.fault hraises.1))
  rintro found tables' _ ⟨rfl, hsame, _⟩
  rw [hsame]
  cases selectRow tables workspaceId secretId versionId with
  | none =>
      rw [hnone]
      exact ends_throw (.inl rfl)
  | some row =>
      rw [hsome]
      exact answers_ofExcept hrepresents (read row)

theorem Represents.describe (hrepresents : Represents suite vault tables)
    {versionId : Option String} :
    vault.describe suite (workspaceId, secretId) versionId =
      readRow metadataFromRow (selectRow tables workspaceId secretId versionId) := by
  unfold Vault.describe
  rcases hrepresents.select workspaceId secretId versionId with
    ⟨hplace, hrow⟩ | ⟨place, row, hplace, hrow, _, _, hrowOf⟩
  · rw [hplace, hrow]
    rfl
  · rw [hplace, hrow]
    exact hrowOf.reads.symm

theorem metadata_answers (hrepresents : Represents suite vault tables)
    {versionId : Option String} :
    Answers env master tables seals [] (metadata suite env workspaceId secretId versionId)
      ((vault.describe suite (workspaceId, secretId) versionId).map
        fun metadata => (metadata, vault)) := by
  rw [hrepresents.describe]
  exact answers_read hrepresents metadataFromRow versionId rfl fun _ => rfl

/-- A row resolves as the version it is of. -/
theorem RowOf.resolveRow_eq {place : Version × Nat} {row : VersionRow} {intent : Option String}
    (hrowOf : RowOf suite home place row)
    (htells : place.1.OpensTo suite master → master.key = place.1.sealedBy.key) :
    resolveRow suite master row intent =
      if place.1.revokedAt ≠ none then .error .secretRevoked
      else if LacksIntent (place.1.metadata suite home place.2) intent then
        .error .secretIntentMismatch
      else (place.1.opened suite master).map fun value =>
        { metadata := place.1.metadata suite home place.2, value := value } := by
  have hstatus : (place.1.metadata suite home place.2).status = .revoked ↔
      place.1.revokedAt ≠ none := Version.status_metadata
  by_cases hrevoked : place.1.revokedAt ≠ none
  · rw [if_pos hrevoked]
    exact resolveRow_eq_error.mpr (.inr ⟨_, hrowOf.reads, .inl ⟨hstatus.mpr hrevoked, rfl⟩⟩)
  rw [if_neg hrevoked]
  rw [← hstatus] at hrevoked
  by_cases hlacks : LacksIntent (place.1.metadata suite home place.2) intent
  · rw [if_pos hlacks]
    exact resolveRow_eq_error.mpr (.inr ⟨_, hrowOf.reads, .inr ⟨hrevoked, .inl ⟨hlacks, rfl⟩⟩⟩)
  rw [if_neg hlacks, ← hrowOf.decryptRow_eq htells]
  cases hdecrypt : decryptRow suite master row with
  | error raised =>
      exact resolveRow_eq_error.mpr
        (.inr ⟨_, hrowOf.reads, .inr ⟨hrevoked, .inr ⟨hlacks, hdecrypt⟩⟩⟩)
  | ok value => exact resolveRow_eq_ok.mpr ⟨hrowOf.reads, hrevoked, hlacks, hdecrypt⟩

theorem Represents.resolve (hrepresents : Represents suite vault tables)
    (htells : vault.KeysTell suite master) {versionId intent : Option String} :
    vault.resolve suite master (workspaceId, secretId) versionId intent =
      readRow (fun row => resolveRow suite master row intent)
        (selectRow tables workspaceId secretId versionId) := by
  unfold Vault.resolve
  rcases hrepresents.select workspaceId secretId versionId with
    ⟨hplace, hrow⟩ | ⟨place, row, hplace, hrow, _, hmem, hrowOf⟩
  · rw [hplace, hrow]
    rfl
  · rw [hplace, hrow]
    exact (hrowOf.resolveRow_eq (htells _ _ (Timeline.mem_items_of_placed hmem))).symm

theorem resolveSecret_answers (hrepresents : Represents suite vault tables)
    (htells : vault.KeysTell suite master) {versionId : Option String} :
    Answers env master tables seals []
      (resolveSecret suite env master workspaceId secretId versionId)
      ((vault.resolve suite master (workspaceId, secretId) versionId none).map
        fun secret => (secret, vault)) := by
  rw [hrepresents.resolve htells]
  exact answers_read hrepresents (fun row => resolveRow suite master row none) versionId rfl
    fun _ => rfl

/-- A revocation asked for again shows the version as it is. -/
theorem replayRevocation_answers (hconsistent : Consistent tables) (hcoherent : Coherent tables)
    (hrepresents : Represents suite vault tables) {args : RevokeSecretVersion}
    {withdrawal : Withdrawal}
    (hheld : vault.withdrawals (args.workspaceId, args.correlationId) = some withdrawal) :
    Answers env master tables seals []
      (replayRevocation suite env args
        (withdrawal.row args.workspaceId args.correlationId))
      (vault.withdraw suite env.draws master args) := by
  unfold replayRevocation
  simp only [Vault.withdraw, hheld]
  refine Ends.bind (ends_raiseIf (fun hagrees => .inl (if_neg hagrees)) fun hagrees => ?_)
  have hrepeats : args.Repeats withdrawal := not_not.mp hagrees
  rw [if_pos hrepeats, hrepresents.describe]
  refine Ends.bind (ends_query ?_ fun _ hfault => .inr (.fault hfault))
  rcases hrepresents.select args.workspaceId args.secretId (some args.versionId) with
    ⟨_, hrow⟩ | ⟨place, row, _, hrow, hmem, _, hrowOf⟩
  · rw [hrow]
    exact ends_throw (.inl rfl)
  · obtain ⟨found, hfound, hkey, hnumber, hstatus⟩ := hrepresents.withdrawal hcoherent hheld
    have hsame : found = row := by
      apply hconsistent.versionKeys.eq_of_key hfound hmem
      obtain ⟨_, hrowKey⟩ := Tables.selectVersion_eq_some hrow
      rw [hkey, hrowKey, hrepeats.1, hrepeats.2.1]
    subst hsame
    have hdescribes := metadataFromRow_describes hrowOf.reads
    rw [hrow]
    refine Ends.bind (ends_ofExcept_ok hrowOf.reads (Ends.bind (ends_raiseIf
      (fun hconflict => ?_) fun _ => ?_)))
    · rcases hconflict with hother | hactive
      · exact absurd (hdescribes.versionNumber.trans (hnumber.trans hrepeats.2.2.1)) hother
      · rw [hdescribes.status] at hstatus
        exact absurd (SecretStatus.value_injective hstatus) hactive
    · refine answers_audited rfl rfl ?_ hrepresents
      rw [readRow, hrowOf.reads]
      rfl

/-- The tables with one version sealed again represent the vault with it revoked. -/
theorem Represents.revokeOne (hrepresents : Represents suite vault tables)
    (hconsistent : Consistent tables) {place : Version × Nat} {row : VersionRow}
    {nonce ciphertext : Bytes} {now : String}
    (hplace : place ∈ (vault.history home).placed) (hrow : row ∈ tables.versions)
    (haddress : row.address = home) (hrowOf : RowOf suite home place row)
    (hresealed : RowOf suite home (place.1.revoked now, place.2)
      (row.resealed nonce ciphertext now)) :
    Represents suite
      (vault.revoking home (fun versionId => versionId = place.1.versionId) now)
      (tables.updateVersion row.key SecretStatus.revoked.value (.blob nonce) (.blob ciphertext)
        (some now)) := by
  rw [updateVersion_eq hconsistent.versionKeys hrow]
  have hchange : ∀ other, (resealAt row (row.resealed nonce ciphertext now) other).address =
      other.address := by
    intro other
    unfold resealAt
    split
    · next hsame =>
        subst hsame
        rfl
    · rfl
  apply hrepresents.revoking home
  · exact fun other _ => hchange other
  · intro other _ hother
    refine if_neg fun hsame => hother ?_
    rw [hsame, haddress]
  · intro other hmem found hfound hhome hother
    by_cases hsame : other = row
    · subst hsame
      have hsame : found = place :=
        Timeline.place_of_ident hfound hplace (hother.name_eq.symm.trans hrowOf.name_eq)
      subst hsame
      rw [Version.revokedIf, decide_eq_true rfl, if_pos rfl, resealAt, if_pos rfl]
      exact hresealed
    · have hname : found.1.versionId ≠ place.1.versionId := by
        intro hversion
        apply hsame
        apply hconsistent.versionKeys.eq_of_key hmem hrow
        have hsecret := hhome.trans haddress.symm
        simp only [VersionRow.address, Prod.mk.injEq] at hsecret
        rw [VersionRow.key, VersionRow.key, hsecret.1, hsecret.2, hother.name_eq, hrowOf.name_eq,
          hversion]
      rw [Version.revokedIf, if_neg (by simpa using hname), resealAt, if_neg hsame]
      exact hother

theorem freshRevocation_answers (hsuite : suite.DecryptsOwn) (hconsistent : Consistent tables)
    (hrepresents : Represents suite vault tables) (htells : vault.KeysTell suite master)
    {args : RevokeSecretVersion}
    (hheld : vault.withdrawals (args.workspaceId, args.correlationId) = none) :
    Answers env master tables
      (fun value => ∃ version ∈ (vault.history (args.workspaceId, args.secretId)).items,
        value = version.value) []
      (freshRevocation suite env master args) (vault.withdraw suite env.draws master args) := by
  unfold freshRevocation
  simp only [Vault.withdraw, hheld]
  have hwithdrawn := hrepresents.withdrawn_iff hconsistent args.workspaceId args.secretId
    args.versionId
  refine Ends.bind (ends_query ?_ fun _ hfault => .inr (.fault hfault))
  refine Ends.bind (ends_raiseIf (fun htarget => .inl (if_pos (hwithdrawn.mp htarget)))
    fun htarget => ?_)
  rw [if_neg fun hother => htarget (hwithdrawn.mpr hother)]
  refine Ends.bind (ends_query ?_ fun _ hfault => .inr (.fault hfault))
  rcases hrepresents.select args.workspaceId args.secretId (some args.versionId) with
    ⟨hplace, hrow⟩ | ⟨⟨version, number⟩, row, hplace, hrow, hmem, hplaced, hrowOf⟩
  · have hnamed : (vault.history (args.workspaceId, args.secretId)).named args.versionId = none :=
      hplace
    rw [hrow, hnamed]
    exact ends_throw (.inl rfl)
  have hnamed : (vault.history (args.workspaceId, args.secretId)).named args.versionId =
      some (version, number) := hplace
  rw [hrow, hnamed]
  have hitem := Timeline.mem_items_of_placed hplaced
  have hversion : version.versionId = args.versionId := (Timeline.named_eq_some_iff.mp hnamed).2
  obtain ⟨_, hkey⟩ := Tables.selectVersion_eq_some hrow
  have haddress : row.address = (args.workspaceId, args.secretId) := by
    simp only [VersionRow.key, Prod.mk.injEq] at hkey
    rw [VersionRow.address, hkey.1, hkey.2.1]
  refine Ends.bind (ends_ofExcept_ok hrowOf.reads ?_)
  refine Ends.bind (ends_raiseIf (fun hnumber => .inl (if_pos hnumber)) fun hnumber => ?_)
  have hsame : ¬ (number : Int) ≠ args.versionNumber := hnumber
  simp only [if_neg hsame]
  refine Ends.bind (ends_raiseIf (fun hstatus => ?_) fun hstatus => ?_)
  · rw [Version.status_metadata] at hstatus
    exact .inl (if_pos hstatus)
  rw [Version.status_metadata] at hstatus
  simp only [if_neg hstatus]
  refine Ends.bind ((revokeRow_answers hsuite tables hrowOf (not_not.mp hstatus)
    (htells _ _ hitem)).mono ?_ ?_)
  · rintro revoked middle log' ⟨hopens, rfl, nonce, ciphertext, rfl, hresealed⟩
    simp only [if_pos hopens]
    have hrevoked := hrepresents.revokeOne hconsistent hplaced hmem haddress hrowOf hresealed
    rw [show version.versionId = args.versionId from hversion] at hrevoked
    have hfresh : tables.revocation args.workspaceId args.correlationId = none := by
      rw [hrepresents.withdrawals, hheld]
      rfl
    refine Ends.bind (ends_execute_ok (Tables.insertRevocation_eq_ok hfresh (not_not.mp htarget) ?_)
      ?_ fun _ hfault => .inr (.fault hfault))
    · rw [Tables.updateVersion_keys]
      exact Tables.mem_keys_of_selectVersion hrow
    · exact answers_audited rfl rfl rfl (hrevoked.withdrawn hheld _)
  · rintro raised _ _ (⟨hopens, rfl⟩ | hhindered)
    · exact .inl (if_neg hopens)
    · exact .inr (hhindered.mono fun _ hvalue => ⟨version, hitem, hvalue⟩)

theorem revokeSecretVersion_answers (hsuite : suite.DecryptsOwn)
    (hconsistent : Consistent tables) (hcoherent : Coherent tables)
    (hrepresents : Represents suite vault tables) (htells : vault.KeysTell suite master)
    {args : RevokeSecretVersion} :
    Answers env master tables
      (fun value => ∃ version ∈ (vault.history (args.workspaceId, args.secretId)).items,
        value = version.value) []
      (revokeSecretVersion suite env master args) (vault.withdraw suite env.draws master args) := by
  refine answers_connection (Ends.bind (ends_statement (Ends.bind (ends_query ?_
    fun _ hfault => .inr (.fault hfault))) fun _ hfault => .inr (.fault hfault)))
  rw [hrepresents.withdrawals]
  cases hheld : vault.withdrawals (args.workspaceId, args.correlationId) with
  | none => exact freshRevocation_answers hsuite hconsistent hrepresents htells hheld
  | some withdrawal =>
      exact replayRevocation_answers hconsistent hcoherent hrepresents hheld

/-! ### Uses -/

/-- The version of a first use, selected and pinned. -/
theorem selectedVersion_answers (hrepresents : Represents suite vault tables)
    (htells : vault.KeysTell suite master) {args : ResolveSecretForUse}
    (hheld : vault.uses (args.workspaceId, args.correlationId) = none) :
    Ends (selectedVersion suite env args) tables log
      (fun versionId tables' _ => ∃ row ∈ tables.versions,
        row.key = (args.workspaceId, args.secretId, versionId) ∧
        vault.use suite env.draws master args = (resolveRow suite master row (some args.intent)).map
          (fun secret => (secret, { vault with
            uses := Function.update vault.uses (args.workspaceId, args.correlationId) (some {
              secretId := args.secretId
              intent := args.intent
              callerSubject := args.callerSubject
              versionId := versionId
              selectedAt := env.now }) })) ∧
        tables' = { tables with
          selections := tables.selections ++ [selectionRow suite env args versionId] })
      (fun raised _ _ => vault.use suite env.draws master args = .error raised ∨
        Hindered env master tables seals raised) := by
  have hfresh : tables.selection args.workspaceId args.correlationId = none := by
    rw [hrepresents.uses, hheld]
    rfl
  unfold selectedVersion
  simp only [Vault.use, hheld, hrepresents.resolve htells]
  refine Ends.bind (ends_query ?_ fun _ hfault => .inr (.fault hfault))
  rw [hfresh]
  refine Ends.bind (ends_query ?_ fun _ hfault => .inr (.fault hfault))
  rcases hrepresents.select args.workspaceId args.secretId args.versionId with
    ⟨_, hrow⟩ | ⟨place, row, _, hrow, hmem, hplaced, hrowOf⟩
  · rw [hrow]
    exact ends_throw (.inl rfl)
  have hkey := (metadataFromRow_describes hrowOf.reads).key
  have htell := htells _ _ (Timeline.mem_items_of_placed hplaced)
  simp only [hrow, readRow]
  refine Ends.bind (ends_ofExcept_ok hrowOf.reads ?_)
  refine Ends.bind (ends_raiseIf (fun hstatus => ?_) fun hstatus => ?_)
  · rw [resolveRow_eq_error.mpr (.inr ⟨_, hrowOf.reads, .inl ⟨hstatus, rfl⟩⟩)]
    exact .inl rfl
  refine Ends.bind (ends_raiseIf (fun hlacks => ?_) fun hlacks => ?_)
  · rw [resolveRow_eq_error.mpr
      (.inr ⟨_, hrowOf.reads, .inr ⟨hstatus, .inl ⟨hlacks, rfl⟩⟩⟩)]
    exact .inl rfl
  refine Ends.bind (ends_execute_ok (Tables.insertSelection_eq_ok hfresh
    (List.mem_map.mpr ⟨row, hmem, hkey.symm⟩)) ?_ fun _ hfault => .inr (.fault hfault))
  refine ends_pure ⟨row, hmem, hkey.symm, ?_, rfl⟩
  cases hresolve : resolveRow suite master row (some args.intent) with
  | error raised => rfl
  | ok secret =>
      obtain ⟨hreads, _⟩ := resolveRow_eq_ok.mp hresolve
      rw [hrowOf.reads] at hreads
      rw [Except.ok.inj hreads]
      rfl

theorem resolveSecretForUse_answers (hconsistent : Consistent tables)
    (hrepresents : Represents suite vault tables) (htells : vault.KeysTell suite master)
    {args : ResolveSecretForUse} :
    Answers env master tables seals log (resolveSecretForUse suite env master args)
      (vault.use suite env.draws master args) := by
  refine answers_connection (Ends.bind (ends_statement ?_ fun _ hfault => .inr (.fault hfault)))
  cases hheld : vault.uses (args.workspaceId, args.correlationId) with
  | none =>
      refine Ends.bind ((selectedVersion_answers hrepresents htells hheld).mono ?_
        fun _ _ _ hraises => hraises)
      rintro versionId _ log' ⟨row, hmem, hkey, huse, rfl⟩
      have hfound := hconsistent.versionKeys.find_of_mem hmem
      rw [hkey] at hfound
      have hselected : selectRow { tables with
          selections := tables.selections ++ [selectionRow suite env args versionId] }
          args.workspaceId args.secretId (some versionId) = some row := hfound
      refine Ends.bind (ends_query ?_ fun _ hfault => .inr (.fault hfault))
      rw [hselected, huse]
      refine ends_ofExcept (fun secret hresolve => ?_) fun raised hresolve => ?_
      · rw [hresolve]
        exact ⟨_, rfl, hrepresents.used hheld _⟩
      · rw [hresolve]
        exact .inl rfl
  | some use =>
      unfold selectedVersion
      simp only [Vault.use, hheld]
      refine Ends.bind (Ends.bind (ends_query ?_ fun _ hfault => .inr (.fault hfault)))
      rw [hrepresents.uses, hheld]
      refine Ends.bind (ends_raiseIf (fun hagrees => .inl (if_neg hagrees)) fun hagrees => ?_)
      have hrepeats : args.Repeats use := not_not.mp hagrees
      rw [if_pos hrepeats, hrepresents.resolve htells]
      refine ends_pure (Ends.bind (ends_query ?_ fun _ hfault => .inr (.fault hfault)))
      have hversion : (use.row args.workspaceId args.correlationId).versionId = use.versionId :=
        rfl
      rw [hversion]
      cases selectRow tables args.workspaceId args.secretId (some use.versionId) with
      | none => exact ends_throw (.inl rfl)
      | some row =>
          exact answers_ofExcept hrepresents (resolveRow suite master row (some args.intent))

/-! ### Generated keys -/

/-- What a replay returns for the row of a genuine issue. -/
theorem Genuine.regenerated_eq {history : Timeline Version.versionId} {issue : Issue}
    {place : Version × Nat} {intent : String} {privateKey : suite.PrivateKey} {row : VersionRow}
    (hgenuine : Genuine suite history issue place intent privateKey)
    (workspaceId correlationId : String) (hmaterial : suite.KeyMaterial)
    (hrowOf : RowOf suite home place row)
    (htells : place.1.OpensTo suite master → master.key = place.1.sealedBy.key) :
    regenerated suite master (issue.row workspaceId correlationId) row intent true =
      if place.1.revokedAt ≠ none then .error .secretRevoked
      else (place.1.opened suite master).map fun _ =>
        { metadata := place.1.metadata suite home place.2
          secretReference := issue.secretReference
          purpose := issue.purpose
          issuer := issue.issuer
          correlationId := correlationId
          keyId := issue.keyId
          algorithm := delegationKeyAlgorithm
          publicKeyPem := issue.publicKeyPem
          replayed := true } := by
  have hstatus : (place.1.metadata suite home place.2).status = .revoked ↔
      place.1.revokedAt ≠ none := Version.status_metadata
  by_cases hrevoked : place.1.revokedAt ≠ none
  · rw [if_pos hrevoked]
    exact regenerated_of_revoked hrowOf.reads (hstatus.mpr hrevoked)
  rw [if_neg hrevoked]
  rw [← hstatus] at hrevoked
  have hpem : issue.publicKeyPem.length ≤ maxDelegationPublicKeyPemChars := by
    rw [hgenuine.publicKeyPem]
    exact hmaterial.public_length privateKey
  have hid : issue.keyId.length ≤ maxDelegationKeyIdChars := by
    rw [delegationKeyId_length hmaterial hgenuine.keyId]
    decide
  have hlabels : (place.1.metadata suite home place.2).labels.matchesTexts
      (generationTexts intent issue.purpose issue.issuer issue.keyId) = true := hgenuine.labels
  rw [← hrowOf.decryptRow_eq htells]
  cases hdecrypt : decryptRow suite master row with
  | error raised =>
      refine bind_eq_error.mpr (.inr ⟨_, mapError_eq_ok.mpr hrowOf.reads, bind_eq_error.mpr (.inr
        ⟨(), raiseIf_eq_ok.mpr hrevoked, bind_eq_error.mpr (.inr
          ⟨(issue.publicKeyPem, issue.keyId), requireBounded_eq_ok.mpr ⟨rfl, rfl, hpem, hid⟩,
            bind_eq_error.mpr (.inr ⟨(), raiseIf_eq_ok.mpr ?_, bind_eq_error.mpr
              (.inl hdecrypt)⟩)⟩)⟩)⟩)
      rintro (hother | hother)
      · cases hlabels.symm.trans hother
      · exact hother rfl
  | ok value =>
      have hvalue := hrowOf.decryptRow_eq htells
      rw [hdecrypt, Version.opened] at hvalue
      split at hvalue
      · refine regenerated_eq_ok.mpr ⟨{
          reads := hrowOf.reads
          active := hrevoked
          publicKeyPem := rfl
          keyId := rfl
          pemLength := hpem
          idLength := hid
          labels := hlabels
          rowAlgorithm := rfl
          material := ⟨value, hdecrypt, ?_⟩
          secretReference := rfl
          purpose := rfl
          issuer := rfl
          correlationId := rfl
          algorithm := rfl }, rfl⟩
        have hkeyId := hgenuine.keyId
        rw [hgenuine.publicKeyPem] at hkeyId
        rw [Except.ok.inj hvalue, hgenuine.value, hgenuine.publicKeyPem]
        exact delegationMaterialMatches_own hmaterial hkeyId
      · cases hvalue

theorem replayGeneration_answers (hmaterial : suite.KeyMaterial)
    (hrepresents : Represents suite vault tables) (htells : vault.KeysTell suite master)
    {args : GenerateDelegationKey} {issue : Issue}
    (hadmitted : AdmittedFamily args.purpose args.intent)
    (hheld : vault.issues (args.workspaceId, args.correlationId) = some issue) :
    Answers env master tables seals []
      (replayGeneration suite env master args args.intent
        (issue.row args.workspaceId args.correlationId))
      (vault.generate suite env.draws master args) := by
  unfold replayGeneration
  simp only [Vault.generate, requireDelegationSigningFamily_eq_ok_iff.mpr ⟨hadmitted, rfl⟩, hheld]
  refine Ends.bind (ends_raiseIf (fun hagrees => .inl (if_neg hagrees)) fun hagrees => ?_)
  have hrepeats : args.Repeats issue := not_not.mp hagrees
  obtain ⟨place, intent, privateKey, hgenuine⟩ := hrepresents.genuine _ _ issue hheld
  have hintent : args.intent = intent :=
    AdmittedFamily.intent_eq hgenuine.admitted (hrepeats.2.2.1 ▸ hadmitted)
  rw [if_pos hrepeats]
  refine Ends.bind (Ends.bind (ends_query ?_ fun _ hfault => .inr (.fault hfault)))
  rcases hrepresents.select args.workspaceId issue.secretId (some issue.versionId) with
    ⟨hnone, _⟩ | ⟨found, row, hplace, hrow, hmem, hplaced, hrowOf⟩
  · exact absurd (hnone.symm.trans hgenuine.named) (by simp)
  have hfound : found = place := Option.some.inj (hplace.symm.trans hgenuine.named)
  subst hfound
  have hregenerated := hgenuine.regenerated_eq args.workspaceId args.correlationId hmaterial
    hrowOf
    (htells _ _ (Timeline.mem_items_of_placed hplaced))
  have hreissue : vault.reissue suite master args issue = regenerated suite master
      (issue.row args.workspaceId args.correlationId) row args.intent true := by
    rw [hintent, hregenerated, Vault.reissue]
    simp only [hgenuine.named]
  have hselected : selectRow tables (issue.row args.workspaceId args.correlationId).workspaceId
      (issue.row args.workspaceId args.correlationId).secretId
      (some (issue.row args.workspaceId args.correlationId).versionId) = some row := hrow
  rw [hreissue, hselected]
  refine ends_ofExcept (fun key hkey => ?_) fun raised hkey => ?_
  · rw [hkey]
    exact answers_audited rfl rfl rfl hrepresents
  · rw [hkey]
    exact .inl rfl

/-- An issue is genuine once the version it names is pushed. -/
theorem genuine_written {args : GenerateDelegationKey} {keyId : String} {clean : Labels}
    {issue : Issue} (hfresh : ¬ (vault.history home).Has env.uuid4)
    (hadmitted : AdmittedFamily args.purpose args.intent)
    (hkeyId : delegationKeyId suite (suite.publicPem env.privateKey) = some keyId)
    (hlabels : clean.matchesTexts (generationTexts args.intent args.purpose args.issuer keyId) = true)
    (hissue : issue.versionId = env.uuid4 ∧ issue.purpose = args.purpose ∧
      issue.issuer = args.issuer ∧ issue.keyId = keyId ∧
      issue.publicKeyPem = suite.publicPem env.privateKey) :
    Genuine suite
      (Function.update vault.history home ((vault.history home).push
        (Vault.written suite env.draws master clean (suite.privateBytes env.privateKey)) hfresh) home)
      issue
      (Vault.written suite env.draws master clean (suite.privateBytes env.privateKey),
        (vault.history home).items.length + 1)
      args.intent env.privateKey := by
  obtain ⟨hversion, hpurpose, hissuer, hid, hpem⟩ := hissue
  constructor
  · rw [Function.update_self, hversion]
    exact Timeline.named_push_self hfresh
  · rwa [hpurpose]
  · rw [hpurpose, hissuer, hid]
    exact hlabels
  · rfl
  · exact hpem
  · rw [hpem, hid]
    exact hkeyId

/-- The key a fresh correlation generates, once its version is in. -/
theorem freshGeneration_answers (hsuite : suite.DecryptsOwn) (hcoherent : Coherent tables)
    (hrepresents : Represents suite vault tables) {args : GenerateDelegationKey}
    (hadmitted : AdmittedFamily args.purpose args.intent)
    (hheld : vault.issues (args.workspaceId, args.correlationId) = none) :
    Answers env master tables (· = suite.privateBytes env.privateKey) []
      (freshGeneration suite env master args args.intent)
      (vault.generate suite env.draws master args) := by
  unfold freshGeneration
  simp only [Vault.generate, requireDelegationSigningFamily_eq_ok_iff.mpr ⟨hadmitted, rfl⟩, hheld]
  cases hkeyId : delegationKeyId suite (suite.publicPem env.privateKey) with
  | none => exact ends_throw (.inl rfl)
  | some keyId =>
      refine Ends.bind ((insertVersion_ends.and (insertVersion_answers hsuite
        (args.workspaceId, args.secretId) hrepresents le_rfl
        (Nat.le_add_left 1 _))).mono ?_ ?_)
      · rintro metadata middle log' ⟨hinserts, vault', hinsert, hmiddle⟩
        simp only [hinsert]
        obtain ⟨clean, hfresh, hclean, rfl, rfl⟩ := Vault.insert_eq_ok hinsert
        have hlabels := hinserts.matchesTexts.1
        have hnumber : (args.workspaceId, args.secretId, 1) ∉
            tables.versions.map VersionRow.numberKey := by
          cases hinserts
          assumption
        have haddress : (args.workspaceId, args.secretId) ∉
            middle.generations.map GenerationRow.address := by
          rw [hinserts.others.2.1]
          intro hmem
          obtain ⟨generation, hgeneration, hat⟩ := List.mem_map.mp hmem
          obtain ⟨row, hrow, _, _, hkey, hfirst, _⟩ := hcoherent.generations generation hgeneration
          refine hnumber (List.mem_map.mpr ⟨row, hrow, ?_⟩)
          simp only [GenerationRow.address, Prod.mk.injEq] at hat
          simp only [VersionRow.key, GenerationRow.target, Prod.mk.injEq] at hkey
          rw [VersionRow.numberKey, hfirst, hkey.1, hkey.2.1, hat.1, hat.2]
        have hunissued : middle.generation args.workspaceId args.correlationId = none := by
          rw [hmiddle.issues]
          change Option.map _ (vault.issues _) = _
          rw [hheld]
          rfl
        refine Ends.bind (ends_execute_ok (Tables.insertGeneration_eq_ok hunissued haddress
          hinserts.mem_keys) ?_ fun _ hfault => .inr (.fault hfault))
        exact answers_audited rfl hinserts.others.2.2.2 rfl (hmiddle.issued hheld
          (genuine_written hfresh hadmitted hkeyId hlabels ⟨rfl, rfl, rfl, rfl, rfl⟩))
      · rintro raised _ _ ⟨_, hanswer | hhindered⟩
        · simp only [hanswer]
          exact .inl rfl
        · exact .inr hhindered

theorem generateDelegationKey_answers (hsuite : suite.DecryptsOwn)
    (hmaterial : suite.KeyMaterial) (hcoherent : Coherent tables)
    (hrepresents : Represents suite vault tables) (htells : vault.KeysTell suite master)
    {args : GenerateDelegationKey} :
    Answers env master tables (· = suite.privateBytes env.privateKey) []
      (generateDelegationKey suite env master args) (vault.generate suite env.draws master args) := by
  refine Ends.bind (ends_ofExcept (fun admitted hfamily => ?_) fun raised hraised => ?_)
  · obtain ⟨hadmitted, rfl⟩ := requireDelegationSigningFamily_eq_ok_iff.mp hfamily
    refine answers_connection (Ends.bind (ends_statement (Ends.bind (ends_query ?_
      fun _ hfault => .inr (.fault hfault))) fun _ hfault => .inr (.fault hfault)))
    rw [hrepresents.issues]
    cases hheld : vault.issues (args.workspaceId, args.correlationId) with
    | none => exact freshGeneration_answers hsuite hcoherent hrepresents hadmitted hheld
    | some issue => exact replayGeneration_answers hmaterial hrepresents htells hadmitted hheld
  · rw [Vault.generate, hraised]
    exact .inl rfl

end

end SecretsCustody
