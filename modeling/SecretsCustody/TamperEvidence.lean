/-
Tamper evidence.  Every encryption of the store binds metadata with text labels,
so under an ideal cipher a row that decrypts, whatever was written into it,
reads as metadata under which that plaintext was encrypted.
-/
import SecretsCustody.Executions

namespace SecretsCustody

open History JsonText

/-- The encryption authenticates version metadata with text labels, and an active version
was never revoked. -/
def BindsVersion (encryption : Encryption) : Prop :=
  ∃ metadata, encryption.associated = .version metadata ∧ metadata.labels.IsText ∧
    (metadata.status = .active → metadata.revokedAt = none)

def AllBind (log : List Encryption) : Prop :=
  ∀ encryption ∈ log, BindsVersion encryption

theorem AllBind.append {log : List Encryption} (hlog : AllBind log) {encryption : Encryption}
    (hbinds : BindsVersion encryption) : AllBind (log ++ [encryption]) := by
  intro found hfound
  rcases List.mem_append.mp hfound with hfound | hfound
  · exact hlog found hfound
  · rwa [List.mem_singleton.mp hfound]

theorem allBind_nil : AllBind [] := by
  intro encryption hmem
  cases hmem

/-- Every version row reads as metadata with text labels, if at all. -/
def TextRows (rows : List VersionRow) : Prop :=
  ∀ row ∈ rows, ∀ metadata, metadataFromRow row = .ok metadata → metadata.labels.IsText

section

variable {suite : CryptoSuite} {env : Env suite} {master : MasterKey} {tables : Tables}
variable {log : List Encryption} {α : Type}

/-- However the program ends, it has made such encryptions only. -/
def Binds (program : Tx Tables α) (tables : Tables) (log : List Encryption) : Prop :=
  Ends program tables log (fun _ _ log' => AllBind log') (fun _ _ log' => AllBind log')

theorem binds_connection {body : Tx Tables α} (hlog : AllBind log)
    (hbody : Binds body tables log) : Binds (connection suite env body) tables log := by
  apply ends_withConnection
  refine Ends.bind (ends_statement (Ends.bind (ends_statement (ends_statement ?_ ?_) ?_)) ?_)
  · exact hbody.mono (fun _ _ _ hafter => ⟨hafter, fun _ _ => hafter⟩) fun _ _ _ hafter => hafter
  all_goals exact fun _ _ => hlog

/-- An encryption under text labels keeps to it. -/
theorem binds_encrypt {nonce plaintext : Bytes} {metadata : SecretMetadata}
    {next : Bytes → Tx Tables α} (htext : metadata.labels.IsText)
    (hactive : metadata.status = .active → metadata.revokedAt = none) (hlog : AllBind log)
    (hnext : ∀ ciphertext log', AllBind log' → Binds (next ciphertext) tables log') :
    Binds (encrypt suite master nonce plaintext (.version metadata) >>= next) tables log := by
  refine Ends.bind (ends_encrypt (fun ciphertext _ => ?_) fun _ _ => hlog)
  apply hnext
  apply hlog.append
  exact ⟨metadata, rfl, htext, hactive⟩

theorem insertVersion_binds {workspaceId secretId : String} {value : Bytes} {labels : TextDict}
    {versionNumber : Int} (hlog : AllBind log) :
    Binds (insertVersion suite env master workspaceId secretId value labels versionNumber)
      tables log := by
  unfold insertVersion
  refine Ends.bind (ends_ofExcept (fun clean hclean => ?_) fun _ _ => hlog)
  refine Ends.bind (ends_urandom ?_)
  refine binds_encrypt (cleanLabels_isText hclean) (fun _ => rfl) hlog
    fun ciphertext log' hafter => ?_
  refine Ends.bind (ends_raiseIf (fun _ => hafter) fun _ => ?_)
  exact Ends.bind (ends_mapRaised (ends_execute (fun _ _ => ends_pure hafter) (fun _ _ => hafter)
    fun _ _ => hafter))

theorem revokeRow_binds {row : VersionRow} {revokedAt : String}
    (htext : ∀ metadata, metadataFromRow row = .ok metadata → metadata.labels.IsText)
    (hlog : AllBind log) : Binds (revokeRow suite env master row revokedAt) tables log := by
  unfold revokeRow
  refine Ends.bind (ends_ofExcept (fun metadata hmetadata => ?_) fun _ _ => hlog)
  refine Ends.bind (ends_ofExcept (fun plaintext _ => ?_) fun _ _ => hlog)
  refine Ends.bind (ends_urandom ?_)
  refine binds_encrypt (htext metadata hmetadata) (fun hactive => nomatch hactive) hlog
    fun ciphertext log' hafter => ?_
  exact Ends.bind (ends_execute (fun _ _ => ends_pure hafter) (fun _ _ => hafter)
    fun _ _ => hafter)

theorem revokeEach_binds {revokedAt : String} {rows : List VersionRow} (htext : TextRows rows)
    (hlog : AllBind log) : Binds (revokeEach suite env master revokedAt rows) tables log := by
  induction rows generalizing tables log with
  | nil => exact ends_pure hlog
  | cons row rows ih =>
      have hrow : Binds (revokeUnlessRevoked suite env master revokedAt row) tables log := by
        refine Ends.bind (ends_ofExcept (fun metadata hmetadata => ?_) fun _ _ => hlog)
        exact ends_ite (fun _ => ends_pure hlog)
          fun _ => revokeRow_binds (htext row List.mem_cons_self) hlog
      refine Ends.bind (hrow.mono (fun _ middle log' hafter => ?_) fun _ _ _ hafter => hafter)
      have hrest : Binds (revokeEach suite env master revokedAt rows) middle log' :=
        ih (fun other hother => htext other (List.mem_cons_of_mem row hother)) hafter
      exact Ends.bind (hrest.mono (fun _ _ _ hdone => ends_pure hdone) fun _ _ _ hdone => hdone)

theorem appendInTransaction_binds {record : AuditRecord} (hlog : AllBind log) :
    Binds (appendInTransaction env record) tables log :=
  ends_mapRaised (ends_execute (fun _ _ => hlog) (fun _ _ => hlog) fun _ _ => hlog)

/-! ### Operations -/

theorem createSecret_binds {workspaceId secretId : String} {value : Bytes} {labels : TextDict}
    (hlog : AllBind log) :
    Binds (createSecret suite env master workspaceId secretId value labels) tables log :=
  binds_connection hlog (Ends.bind (ends_statement (insertVersion_binds hlog) fun _ _ => hlog))

theorem rotateSecret_binds {workspaceId secretId : String} {value : Bytes} {labels : TextDict}
    {expectedIntent : Option String} (hlog : AllBind log) :
    Binds (rotateSecret suite env master workspaceId secretId value labels expectedIntent)
      tables log := by
  apply binds_connection hlog
  refine Ends.bind (ends_statement ?_ fun _ _ => hlog)
  refine Ends.bind (ends_query ?_ fun _ _ => hlog)
  cases tables.latestVersion workspaceId secretId with
  | none => exact ends_throw hlog
  | some latest =>
      refine Ends.bind (ends_ofExcept (fun latestMetadata _ => ?_) fun _ _ => hlog)
      exact Ends.bind (ends_raiseIf (fun _ => hlog) fun _ => insertVersion_binds hlog)

theorem revokeSecret_binds {workspaceId secretId : String} (htext : TextRows tables.versions)
    (hlog : AllBind log) :
    Binds (revokeSecret suite env master workspaceId secretId) tables log := by
  apply binds_connection hlog
  refine Ends.bind (ends_statement ?_ fun _ _ => hlog)
  refine Ends.bind (ends_query ?_ fun _ _ => hlog)
  refine Ends.bind (ends_raiseIf (fun _ => hlog) fun _ => ?_)
  exact revokeEach_binds (fun row hrow => htext row (Tables.mem_allVersions.mp hrow).1) hlog

theorem revokeSecretVersion_binds {args : RevokeSecretVersion} (htext : TextRows tables.versions)
    (hlog : AllBind log) :
    Binds (revokeSecretVersion suite env master args) tables log := by
  apply binds_connection hlog
  refine Ends.bind (ends_statement ?_ fun _ _ => hlog)
  refine Ends.bind (ends_query ?_ fun _ _ => hlog)
  cases tables.revocation args.workspaceId args.correlationId with
  | some existing =>
      refine Ends.bind (ends_raiseIf (fun _ => hlog) fun _ => ?_)
      refine Ends.bind (ends_query ?_ fun _ _ => hlog)
      cases selectRow tables args.workspaceId args.secretId (some args.versionId) with
      | none => exact ends_throw hlog
      | some row =>
          refine Ends.bind (ends_ofExcept (fun metadata _ => ?_) fun _ _ => hlog)
          refine Ends.bind (ends_raiseIf (fun _ => hlog) fun _ => ?_)
          exact Ends.bind ((appendInTransaction_binds hlog).mono
            (fun _ _ _ hafter => ends_pure hafter) fun _ _ _ hafter => hafter)
  | none =>
      refine Ends.bind (ends_query ?_ fun _ _ => hlog)
      refine Ends.bind (ends_raiseIf (fun _ => hlog) fun _ => ?_)
      refine Ends.bind (ends_query ?_ fun _ _ => hlog)
      cases hrow : selectRow tables args.workspaceId args.secretId (some args.versionId) with
      | none => exact ends_throw hlog
      | some row =>
          refine Ends.bind (ends_ofExcept (fun metadata _ => ?_) fun _ _ => hlog)
          refine Ends.bind (ends_raiseIf (fun _ => hlog) fun _ => ?_)
          refine Ends.bind (ends_raiseIf (fun _ => hlog) fun _ => ?_)
          have hrevoke : Binds (revokeRow suite env master row env.now) tables log :=
            revokeRow_binds (htext row (selectRow_eq_some hrow).1) hlog
          refine Ends.bind (hrevoke.mono (fun _ _ _ hafter => ?_) fun _ _ _ hafter => hafter)
          refine Ends.bind (ends_execute (fun _ _ => ?_) (fun _ _ => hafter) fun _ _ => hafter)
          exact Ends.bind ((appendInTransaction_binds hafter).mono
            (fun _ _ _ hdone => ends_pure hdone) fun _ _ _ hdone => hdone)

theorem generateDelegationKey_binds {args : GenerateDelegationKey} (hlog : AllBind log) :
    Binds (generateDelegationKey suite env master args) tables log := by
  refine Ends.bind (ends_ofExcept (fun admittedIntent _ => ?_) fun _ _ => hlog)
  apply binds_connection hlog
  refine Ends.bind (ends_statement ?_ fun _ _ => hlog)
  refine Ends.bind (ends_query ?_ fun _ _ => hlog)
  cases tables.generation args.workspaceId args.correlationId with
  | some existing =>
      refine Ends.bind (ends_raiseIf (fun _ => hlog) fun _ => ?_)
      refine Ends.bind (Ends.bind (ends_query ?_ fun _ _ => hlog))
      cases selectRow tables existing.workspaceId existing.secretId (some existing.versionId) with
      | none => exact ends_throw hlog
      | some secretRow =>
          refine ends_ofExcept (fun key _ => ?_) fun _ _ => hlog
          exact Ends.bind ((appendInTransaction_binds hlog).mono
            (fun _ _ _ hafter => ends_pure hafter) fun _ _ _ hafter => hafter)
  | none =>
      change Ends (freshGeneration suite env master args admittedIntent) _ _ _ _
      unfold freshGeneration
      dsimp only
      cases delegationKeyId suite (suite.publicPem env.privateKey) with
      | none => exact ends_throw hlog
      | some keyId =>
          refine Ends.bind ((insertVersion_binds hlog).mono (fun _ _ _ hafter => ?_)
            fun _ _ _ hafter => hafter)
          refine Ends.bind (ends_execute (fun _ _ => ?_) (fun _ _ => hafter) fun _ _ => hafter)
          exact Ends.bind ((appendInTransaction_binds hafter).mono
            (fun _ _ _ hdone => ends_pure hdone) fun _ _ _ hdone => hdone)

theorem selectRowAlone_binds {workspaceId secretId : String} {versionId : Option String}
    (hlog : AllBind log) :
    Binds (selectRowAlone suite env workspaceId secretId versionId) tables log :=
  binds_connection hlog (ends_query hlog fun _ _ => hlog)

theorem describe_binds {workspaceId secretId : String} {versionId : Option String}
    {read : VersionRow → Except Raised α} (hlog : AllBind log) :
    Binds (do
      match ← selectRowAlone suite env workspaceId secretId versionId with
      | none => throw .secretMissing
      | some row => ofExcept (read row)) tables log := by
  refine Ends.bind ((selectRowAlone_binds hlog).mono (fun found _ _ hafter => ?_)
    fun _ _ _ hafter => hafter)
  cases found with
  | none => exact ends_throw hafter
  | some row => exact ends_ofExcept (fun _ _ => hafter) fun _ _ => hafter

theorem resolveSecretForUse_binds {args : ResolveSecretForUse} (hlog : AllBind log) :
    Binds (resolveSecretForUse suite env master args) tables log := by
  apply binds_connection hlog
  refine Ends.bind (ends_statement ?_ fun _ _ => hlog)
  have hselected : Binds (selectedVersion suite env args) tables log := by
    refine Ends.bind (ends_query ?_ fun _ _ => hlog)
    cases tables.selection args.workspaceId args.correlationId with
    | some selection => exact Ends.bind (ends_raiseIf (fun _ => hlog) fun _ => ends_pure hlog)
    | none =>
        refine Ends.bind (ends_query ?_ fun _ _ => hlog)
        cases selectRow tables args.workspaceId args.secretId args.versionId with
        | none => exact ends_throw hlog
        | some selected =>
            refine Ends.bind (ends_ofExcept (fun selectedMetadata _ => ?_) fun _ _ => hlog)
            refine Ends.bind (ends_raiseIf (fun _ => hlog) fun _ => ?_)
            refine Ends.bind (ends_raiseIf (fun _ => hlog) fun _ => ?_)
            exact Ends.bind (ends_execute (fun _ _ => ends_pure hlog) (fun _ _ => hlog)
              fun _ _ => hlog)
  refine Ends.bind (hselected.mono (fun versionId middle _ hafter => ?_)
    fun _ _ _ hafter => hafter)
  refine Ends.bind (ends_query ?_ fun _ _ => hafter)
  cases selectRow middle args.workspaceId args.secretId (some versionId) with
  | none => exact ends_throw hafter
  | some row => exact ends_ofExcept (fun _ _ => hafter) fun _ _ => hafter

end

section

variable {suite : CryptoSuite}

/-- Every encryption a call makes on readable tables, whether it returns or
raises, binds version metadata. -/
theorem perform_binds {tables : Tables} (htext : TextRows tables.versions) (call : Call suite) :
    AllBind (perform tables call).1.encryptions := by
  have hends : Binds call.program tables [] := by
    rcases call with ⟨operation, master, env⟩
    cases operation with
    | createSecret => exact Ends.map (createSecret_binds allBind_nil)
    | rotateSecret => exact Ends.map (rotateSecret_binds allBind_nil)
    | revokeSecret => exact Ends.map (revokeSecret_binds htext allBind_nil)
    | revokeSecretVersion => exact Ends.map (revokeSecretVersion_binds htext allBind_nil)
    | generateDelegationKey => exact Ends.map (generateDelegationKey_binds allBind_nil)
    | resolveSecret => exact Ends.map (describe_binds allBind_nil)
    | resolveSecretForUse => exact Ends.map (resolveSecretForUse_binds allBind_nil)
    | metadata => exact Ends.map (describe_binds allBind_nil)
  unfold perform
  cases hrun : call.program.run { db := tables, executed := 0, encryptions := [] } with
  | ok reply finish => exact (hends 0).of_ok hrun
  | error raised finish => exact (hends 0).of_error hrun

/-- Text labels stay text labels. -/
theorem perform_textRows {tables : Tables} (hconsistent : Consistent tables)
    (htext : TextRows tables.versions) (call : Call suite) :
    TextRows (perform tables call).2.versions := by
  rcases perform_cases tables call with ⟨reply, _, hperforms⟩ | ⟨raised, _, _, hsame⟩
  · rcases (hperforms.versionsEffect hconsistent.versionKeys).rows with
      ⟨change, added, hrows, hsteps, hadded⟩
    rw [hrows]
    intro row' hrow' metadata hreads
    rcases List.mem_append.mp hrow' with hrow' | hrow'
    · obtain ⟨row, hrow, rfl⟩ := List.mem_map.mp hrow'
      have hstep := hsteps row hrow
      generalize change row = row' at hstep hreads
      cases hstep with
      | same => exact htext row hrow metadata hreads
      | resealed hmetadata _ _ hseals =>
          rw [hseals.reads] at hreads
          cases hreads
          have hlabels := htext row hrow _ hmetadata
          exact hlabels
    · cases hadded with
      | none => cases hrow'
      | one _ _ hmetadata hclean hseals =>
          rw [List.mem_singleton] at hrow'
          subst hrow'
          rw [hseals.reads] at hreads
          cases hreads
          rw [hmetadata]
          exact hclean
  · rwa [hsame]

theorem final_textRows (calls : List (Call suite)) :
    Consistent (final perform Tables.empty calls) ∧
      TextRows (final perform Tables.empty calls).versions := by
  refine @invariant_final _ _ _ _ (fun tables => Consistent tables ∧ TextRows tables.versions)
    _ _ ?_ ?_
  · exact ⟨consistent_empty, fun row hrow => by cases hrow⟩
  · rintro tables call _ ⟨hconsistent, htext⟩
    exact ⟨perform_consistent call hconsistent, perform_textRows hconsistent htext call⟩

/-! ### An ideal cipher -/

/-- The encryptions an execution makes, those of writes that raised or crashed
included. -/
def encryptionsMade (events : List (Event (Call suite))) : List Encryption :=
  (System.attempts perform (fun call => call.operation.readsOnly)
    (System.initial Tables.empty) events).flatMap fun step => step.output.encryptions

theorem encryptionsMade_bind (events : List (Event (Call suite))) :
    AllBind (encryptionsMade events) := by
  intro encryption hmem
  obtain ⟨step, hstep, hencryption⟩ := List.mem_flatMap.mp hmem
  obtain ⟨calls, hentry⟩ := System.mem_attempts perform_readsOnly
    (System.serial_initial Tables.empty) hstep
  rw [hentry] at hencryption
  exact perform_binds (final_textRows calls).2 step.input encryption hencryption

/-- Only what was encrypted decrypts, and only as it was encrypted. -/
def IdealFor (suite : CryptoSuite) (performed : List Encryption) : Prop :=
  ∀ key nonce ciphertext associated plaintext,
    suite.decrypt key nonce ciphertext associated = some plaintext →
      ∃ encryption ∈ performed, encryption.key = key ∧ encryption.nonce = nonce ∧
        encryption.ciphertext = ciphertext ∧ encryption.associated.data = associated ∧
        encryption.plaintext = plaintext

/-- What an ideal cipher gives: whatever was written into a row, if it decrypts
then its plaintext was encrypted under the metadata it reads as. -/
structure TamperEvident (suite : CryptoSuite) (performed : List Encryption) : Prop where
  /-- The associated data determines the metadata, and is no custody witness's. -/
  injective : ∀ left right : SecretMetadata, left.labels.IsText → right.labels.IsText →
    aad left = aad right → left = right
  disjoint : ∀ metadata : SecretMetadata, metadata.labels.IsText →
    ∀ providerId, aad metadata ≠ context providerId
  evident : ∀ (master : MasterKey) (row : VersionRow) metadata plaintext,
    metadataFromRow row = .ok metadata → metadata.labels.IsText →
    decryptRow suite master row = .ok plaintext →
      ∃ encryption ∈ performed, encryption.key = master.key ∧
        encryption.plaintext = plaintext ∧ encryption.associated = .version metadata

/-- Tampering is evident after any execution, with the custody witnesses at hand. -/
theorem tamper_evident (events : List (Event (Call suite))) (performed : List Encryption)
    (hperformed : ∀ encryption ∈ performed, encryption ∈ encryptionsMade events ∨
      ∃ providerId, encryption.associated = .custody providerId)
    (hideal : IdealFor suite performed) : TamperEvident suite performed := by
  refine ⟨fun _ _ => aad_injective, fun _ _ => aad_ne_context _, ?_⟩
  intro master row metadata plaintext hreads htext hdecrypt
  obtain ⟨found, nonce, ciphertext, hfound, _, _, _, _, _, hplaintext⟩ :=
    decryptRow_eq_ok.mp hdecrypt
  rw [hreads] at hfound
  cases hfound
  obtain ⟨encryption, hmem, hkey, _, _, hdata, hsame⟩ := hideal _ _ _ _ _ hplaintext
  refine ⟨encryption, hmem, hkey, hsame, ?_⟩
  rcases hperformed encryption hmem with hmade | ⟨providerId, hcustody⟩
  · obtain ⟨bound, hassociated, hbound, _⟩ := encryptionsMade_bind events encryption hmade
    rw [hassociated] at hdata ⊢
    rw [aad_injective hbound htext hdata]
  · rw [hcustody] at hdata
    exact absurd hdata.symm (aad_ne_context _ providerId)

end

/-! ### A cipher that is ideal for one encryption -/

/-- The metadata of the one version of the execution below. -/
def sealedMetadata : SecretMetadata :=
  { workspaceId := "workspace"
    secretId := "secret"
    versionId := "a"
    versionNumber := 1
    status := .active
    algorithm := algorithm
    keyFingerprint := String.ofList (List.replicate 24 '0')
    keyVersion := "local"
    labels := ∅
    createdAt := "a"
    revokedAt := none }

def sealedNonce : Bytes := List.replicate nonceBytes 0

theorem sealedNonce_length (_draw : Nat) : sealedNonce.length = nonceBytes :=
  List.length_replicate

/-- A suite that decrypts one ciphertext and no other. -/
def sealedSuite : CryptoSuite :=
  { transparentSuite with
    decrypt := fun key nonce ciphertext associated =>
      if key = [] ∧ nonce = sealedNonce ∧ ciphertext = [1] ++ transparentTag [] ∧
          associated = aad sealedMetadata then
        some [1]
      else none }

def sealedEncryption : Encryption :=
  ⟨[], sealedNonce, [1], .version sealedMetadata, [1] ++ transparentTag []⟩

/-- One version is created. -/
def sealing : List (Event (Call sealedSuite)) :=
  [.begin 0 {
      operation := .createSecret "workspace" "secret" [1] ⟨[], List.nodup_nil⟩
      master := ⟨[], "local"⟩
      env := {
        uuid4 := "a"
        eventId := "a"
        now := "a"
        occurredAt := "a"
        urandom := fun _ => sealedNonce
        urandom_length := sealedNonce_length
        privateKey := true
        fails := fun _ => none } },
    .commit 0]

theorem encryptionsMade_sealing : encryptionsMade sealing = [sealedEncryption] := by
  rfl

theorem idealFor_sealing : IdealFor sealedSuite [sealedEncryption] := by
  intro key nonce ciphertext associated plaintext hdecrypt
  change (if _ then _ else _) = _ at hdecrypt
  split at hdecrypt
  · next hexact =>
      obtain ⟨hkey, hnonce, hciphertext, hassociated⟩ := hexact
      exact ⟨sealedEncryption, List.mem_singleton_self _, hkey.symm, hnonce.symm,
        hciphertext.symm, hassociated.symm, Option.some.inj hdecrypt⟩
  · cases hdecrypt

theorem tamper_evident_sealing : TamperEvident sealedSuite [sealedEncryption] :=
  tamper_evident sealing [sealedEncryption]
    (fun encryption hmem => .inl (by rwa [encryptionsMade_sealing])) idealFor_sealing

end SecretsCustody
