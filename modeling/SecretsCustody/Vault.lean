/-
What the store is for.  A vault keeps every secret as the timeline of its versions, the values
in the clear beside the master key each is sealed under, and remembers under each correlation
the use, the generated key or the revocation that was made.  There are no rows, nonces,
ciphertexts or statements here.
-/
import SecretsCustody.Store
import SecretsCustody.Timelines

namespace SecretsCustody

open Timelines

/-- One version of a secret. -/
structure Version where
  versionId : String
  labels : Labels
  value : Bytes
  sealedBy : MasterKey
  createdAt : String
  revokedAt : Option String

/-- The first use of a correlation. -/
structure Use where
  secretId : String
  intent : String
  callerSubject : String
  versionId : String
  selectedAt : String

/-- The key a correlation generated. -/
structure Issue where
  secretId : String
  secretReference : String
  purpose : String
  issuer : String
  callerSubject : String
  versionId : String
  keyId : String
  publicKeyPem : String
  generatedAt : String

/-- The revocation of one version a correlation made. -/
structure Withdrawal where
  secretId : String
  versionId : String
  versionNumber : Int
  callerSubject : String
  revokedAt : String

/-- Histories by workspace and secret, the rest by workspace and correlation. -/
structure Vault where
  history : String × String → Timeline Version.versionId
  uses : String × String → Option Use
  issues : String × String → Option Issue
  withdrawals : String × String → Option Withdrawal

/-- What a vault needs drawn for a call: an identifier, a clock reading and a key pair. -/
structure Draws (suite : CryptoSuite) where
  versionId : String
  now : String
  privateKey : suite.PrivateKey

abbrev Env.draws {suite : CryptoSuite} (env : Env suite) : Draws suite :=
  ⟨env.uuid4, env.now, env.privateKey⟩

/-! ### Versions -/

/-- Revoked, unless it was already. -/
def Version.revoked (version : Version) (now : String) : Version :=
  { version with revokedAt := version.revokedAt.or (some now) }

/-- Revoked if it is one of the chosen. -/
def Version.revokedIf (chosen : String → Bool) (now : String) (version : Version) : Version :=
  if chosen version.versionId then version.revoked now else version

@[simp] theorem Version.revokedIf_versionId (chosen : String → Bool) (now : String)
    (version : Version) : (version.revokedIf chosen now).versionId = version.versionId := by
  unfold revokedIf
  split <;> rfl

theorem Version.revokedIf_same (chosen : String → Bool) (now : String) (version : Version) :
    (version.revokedIf chosen now).labels = version.labels ∧
      (version.revokedIf chosen now).value = version.value ∧
      (version.revokedIf chosen now).sealedBy = version.sealedBy := by
  unfold Version.revokedIf
  split <;> exact ⟨rfl, rfl, rfl⟩

section

variable (suite : CryptoSuite)

/-- What callers are shown of a version. -/
def Version.metadata (version : Version) (home : String × String) (number : Nat) :
    SecretMetadata :=
  { workspaceId := home.1
    secretId := home.2
    versionId := version.versionId
    versionNumber := number
    status := if version.revokedAt.isSome then .revoked else .active
    algorithm := algorithm
    keyFingerprint := version.sealedBy.fingerprint suite
    keyVersion := version.sealedBy.version
    labels := version.labels
    createdAt := version.createdAt
    revokedAt := version.revokedAt }

/-- The master key has the fingerprint of the key that sealed the version. -/
def Version.OpensTo (version : Version) (master : MasterKey) : Prop :=
  version.sealedBy.fingerprint suite = master.fingerprint suite

instance (version : Version) (master : MasterKey) : Decidable (version.OpensTo suite master) :=
  inferInstanceAs (Decidable (_ = _))

def Version.opened (version : Version) (master : MasterKey) : Except Raised Bytes :=
  if version.OpensTo suite master then .ok version.value else .error .secretTampered

/-! ### Calls that repeat a correlation -/

def ResolveSecretForUse.Repeats (args : ResolveSecretForUse) (use : Use) : Prop :=
  use.secretId = args.secretId ∧ use.intent = args.intent ∧
    use.callerSubject = args.callerSubject ∧
    (args.versionId = none ∨ args.versionId = some use.versionId)

instance (args : ResolveSecretForUse) (use : Use) : Decidable (args.Repeats use) :=
  inferInstanceAs (Decidable (_ ∧ _))

def GenerateDelegationKey.Repeats (args : GenerateDelegationKey) (issue : Issue) : Prop :=
  issue.secretId = args.secretId ∧ issue.secretReference = args.secretReference ∧
    issue.purpose = args.purpose ∧ issue.issuer = args.issuer ∧
    issue.callerSubject = args.callerSubject

instance (args : GenerateDelegationKey) (issue : Issue) : Decidable (args.Repeats issue) :=
  inferInstanceAs (Decidable (_ ∧ _))

def RevokeSecretVersion.Repeats (args : RevokeSecretVersion) (withdrawal : Withdrawal) : Prop :=
  withdrawal.secretId = args.secretId ∧ withdrawal.versionId = args.versionId ∧
    withdrawal.versionNumber = args.versionNumber ∧
    withdrawal.callerSubject = args.callerSubject

instance (args : RevokeSecretVersion) (withdrawal : Withdrawal) :
    Decidable (args.Repeats withdrawal) :=
  inferInstanceAs (Decidable (_ ∧ _))

/-! ### Answers -/

namespace Vault

def empty : Vault :=
  ⟨fun _ => .empty, fun _ => none, fun _ => none, fun _ => none⟩

variable (vault : Vault)

/-- The latest version, or the one named. -/
def select (home : String × String) : Option String → Option (Version × Nat)
  | none => (vault.history home).latest
  | some versionId => (vault.history home).named versionId

/-- The chosen versions of a secret revoked. -/
def revoking (home : String × String) (chosen : String → Bool) (now : String) : Vault :=
  { vault with
    history := Function.update vault.history home
      ((vault.history home).alter (Version.revokedIf chosen now)
        (Version.revokedIf_versionId chosen now)) }

theorem history_revoking (home : String × String) (chosen : String → Bool) (now : String) :
    (vault.revoking home chosen now).history home =
      (vault.history home).alter (Version.revokedIf chosen now)
        (Version.revokedIf_versionId chosen now) :=
  Function.update_self ..

/-- Some correlation of the workspace has revoked the version. -/
def Withdrawn (home : String × String) (versionId : String) : Prop :=
  ∃ correlationId withdrawal, vault.withdrawals (home.1, correlationId) = some withdrawal ∧
    withdrawal.secretId = home.2 ∧ withdrawal.versionId = versionId

/-- The version a write adds, its labels cleaned. -/
def written (draws : Draws suite) (master : MasterKey) (labels : Labels) (value : Bytes) : Version :=
  { versionId := draws.versionId
    labels := labels
    value := value
    sealedBy := master
    createdAt := draws.now
    revokedAt := none }

/-- A version takes the place of its number, unless the place or the identifier is taken. -/
def insert (draws : Draws suite) (master : MasterKey) (home : String × String) (value : Bytes)
    (labels : TextDict) (number : Nat) : Except Raised (SecretMetadata × Vault) :=
  match cleanLabels labels with
  | .error raised => .error raised
  | .ok labels =>
      if (number : Int) > maxSqliteInteger then .error .overflowError
      else if htaken : number ≤ (vault.history home).items.length ∨
          (vault.history home).Has draws.versionId then .error .secretAlreadyExists
      else
        let version := written suite draws master labels value
        .ok (version.metadata suite home number, { vault with
          history := Function.update vault.history home
            ((vault.history home).push version fun hhas => htaken (.inr hhas)) })

variable {suite} in
theorem insert_eq_ok {vault vault' : Vault} {draws : Draws suite} {master : MasterKey}
    {home : String × String} {value : Bytes} {labels : TextDict} {number : Nat}
    {metadata : SecretMetadata}
    (hinsert : vault.insert suite draws master home value labels number = .ok (metadata, vault')) :
    ∃ (clean : Labels) (hfresh : ¬ (vault.history home).Has draws.versionId),
      cleanLabels labels = .ok clean ∧
      metadata = (written suite draws master clean value).metadata suite home number ∧
      vault' = { vault with
        history := Function.update vault.history home
          ((vault.history home).push (written suite draws master clean value) hfresh) } := by
  unfold insert at hinsert
  split at hinsert
  · cases hinsert
  · next clean hclean =>
      split at hinsert
      · cases hinsert
      · split at hinsert
        · cases hinsert
        · next htaken =>
            cases hinsert
            exact ⟨clean, fun hhas => htaken (.inr hhas), hclean, rfl, rfl⟩

def rotate (draws : Draws suite) (master : MasterKey) (home : String × String) (value : Bytes)
    (labels : TextDict) (expectedIntent : Option String) :
    Except Raised (SecretMetadata × Vault) :=
  match (vault.history home).latest with
  | none => .error .secretMissing
  | some (latest, number) =>
      if LacksIntent (latest.metadata suite home number) expectedIntent then
        .error .secretIntentMismatch
      else vault.insert suite draws master home value labels (number + 1)

/-- Every version revoked, if those that are not yet open to the master key. -/
def revoke (draws : Draws suite) (master : MasterKey) (home : String × String) :
    Except Raised (List SecretMetadata × Vault) :=
  let revoked := vault.revoking home (fun _ => true) draws.now
  if (vault.history home).items.isEmpty then .error .secretMissing
  else if ∀ version ∈ (vault.history home).items,
      version.revokedAt = none → version.OpensTo suite master then
    .ok ((revoked.history home).placed.map fun place => place.1.metadata suite home place.2,
      revoked)
  else .error .secretTampered

def describe (home : String × String) (versionId : Option String) :
    Except Raised SecretMetadata :=
  match vault.select home versionId with
  | none => .error .secretMissing
  | some (version, number) => .ok (version.metadata suite home number)

open Classical in
/-- A version is revoked by one correlation at most, which may ask again. -/
noncomputable def withdraw (draws : Draws suite) (master : MasterKey) (args : RevokeSecretVersion) :
    Except Raised (SecretMetadata × Vault) :=
  let home := (args.workspaceId, args.secretId)
  match vault.withdrawals (args.workspaceId, args.correlationId) with
  | some withdrawal =>
      if args.Repeats withdrawal then
        (vault.describe suite home (some args.versionId)).map fun metadata => (metadata, vault)
      else .error .secretVersionRevocationConflict
  | none =>
      if vault.Withdrawn home args.versionId then .error .secretVersionRevocationConflict
      else
        match (vault.history home).named args.versionId with
        | none => .error .secretMissing
        | some (version, number) =>
            if (number : Int) ≠ args.versionNumber then .error .secretVersionRevocationConflict
            else if version.revokedAt ≠ none then .error .secretRevoked
            else if version.OpensTo suite master then
              .ok ((version.revoked draws.now).metadata suite home number,
                { vault.revoking home (fun versionId => versionId = args.versionId) draws.now with
                  withdrawals := Function.update vault.withdrawals
                    (args.workspaceId, args.correlationId) (some {
                      secretId := args.secretId
                      versionId := args.versionId
                      versionNumber := args.versionNumber
                      callerSubject := args.callerSubject
                      revokedAt := draws.now }) })
            else .error .secretTampered

/-- An active version that has the intent, opened. -/
def resolve (master : MasterKey) (home : String × String) (versionId intent : Option String) :
    Except Raised ResolvedSecret :=
  match vault.select home versionId with
  | none => .error .secretMissing
  | some (version, number) =>
      let metadata := version.metadata suite home number
      if version.revokedAt ≠ none then .error .secretRevoked
      else if LacksIntent metadata intent then .error .secretIntentMismatch
      else (version.opened suite master).map fun value => { metadata := metadata, value := value }

/-- The first use of a correlation chooses its version, and the later ones keep to it. -/
def use (draws : Draws suite) (master : MasterKey) (args : ResolveSecretForUse) :
    Except Raised (ResolvedSecret × Vault) :=
  let home := (args.workspaceId, args.secretId)
  match vault.uses (args.workspaceId, args.correlationId) with
  | some use =>
      if args.Repeats use then
        (vault.resolve suite master home (some use.versionId) (some args.intent)).map
          fun secret => (secret, vault)
      else .error .secretResolutionConflict
  | none =>
      (vault.resolve suite master home args.versionId (some args.intent)).map fun secret =>
        (secret, { vault with
          uses := Function.update vault.uses (args.workspaceId, args.correlationId) (some {
            secretId := args.secretId
            intent := args.intent
            callerSubject := args.callerSubject
            versionId := secret.metadata.versionId
            selectedAt := draws.now }) })

/-- The key a correlation has, if its version is active and opens. -/
def reissue (master : MasterKey) (args : GenerateDelegationKey) (issue : Issue) :
    Except Raised GeneratedDelegationKey :=
  let home := (args.workspaceId, issue.secretId)
  match (vault.history home).named issue.versionId with
  | none => .error .secretMissing
  | some (version, number) =>
      if version.revokedAt ≠ none then .error .secretRevoked
      else
        (version.opened suite master).map fun _ =>
          { metadata := version.metadata suite home number
            secretReference := issue.secretReference
            purpose := issue.purpose
            issuer := issue.issuer
            correlationId := args.correlationId
            keyId := issue.keyId
            algorithm := delegationKeyAlgorithm
            publicKeyPem := issue.publicKeyPem
            replayed := true }

/-- A correlation generates one key, the first version of its secret. -/
def generate (draws : Draws suite) (master : MasterKey) (args : GenerateDelegationKey) :
    Except Raised (GeneratedDelegationKey × Vault) :=
  match requireDelegationSigningFamily args.purpose args.intent with
  | .error raised => .error raised
  | .ok _ =>
      match vault.issues (args.workspaceId, args.correlationId) with
      | some issue =>
          if args.Repeats issue then
            (vault.reissue suite master args issue).map fun key => (key, vault)
          else .error .delegationKeyGenerationConflict
      | none =>
          let publicPem := suite.publicPem draws.privateKey
          match delegationKeyId suite publicPem with
          | none => .error .valueError
          | some keyId =>
              (vault.insert suite draws master (args.workspaceId, args.secretId)
                  (suite.privateBytes draws.privateKey)
                  (generationLabels args.intent args.purpose args.issuer keyId) 1).map
                fun added =>
                  ({ metadata := added.1
                     secretReference := args.secretReference
                     purpose := args.purpose
                     issuer := args.issuer
                     correlationId := args.correlationId
                     keyId := keyId
                     algorithm := delegationKeyAlgorithm
                     publicKeyPem := publicPem
                     replayed := false },
                   { added.2 with
                     issues := Function.update vault.issues
                       (args.workspaceId, args.correlationId) (some {
                         secretId := args.secretId
                         secretReference := args.secretReference
                         purpose := args.purpose
                         issuer := args.issuer
                         callerSubject := args.callerSubject
                         versionId := added.1.versionId
                         keyId := keyId
                         publicKeyPem := publicPem
                         generatedAt := added.1.createdAt }) })

variable {suite}

/-- The answer to a call, and the vault after it. -/
noncomputable def answer (call : Call suite) : Except Raised (Reply × Vault) :=
  match call.operation with
  | .createSecret workspaceId secretId value labels =>
      (vault.insert suite call.env.draws call.master (workspaceId, secretId) value labels 1).map
        fun added => (.metadata added.1, added.2)
  | .rotateSecret workspaceId secretId value labels expectedIntent =>
      (vault.rotate suite call.env.draws call.master (workspaceId, secretId) value labels
        expectedIntent).map fun added => (.metadata added.1, added.2)
  | .revokeSecret workspaceId secretId =>
      (vault.revoke suite call.env.draws call.master (workspaceId, secretId)).map
        fun revoked => (.revoked revoked.1, revoked.2)
  | .revokeSecretVersion args =>
      (vault.withdraw suite call.env.draws call.master args).map
        fun revoked => (.metadata revoked.1, revoked.2)
  | .generateDelegationKey args =>
      (vault.generate suite call.env.draws call.master args).map
        fun generated => (.generated generated.1, generated.2)
  | .resolveSecret workspaceId secretId versionId =>
      (vault.resolve suite call.master (workspaceId, secretId) versionId none).map
        fun secret => (.resolved secret, vault)
  | .resolveSecretForUse args =>
      (vault.use suite call.env.draws call.master args).map
        fun resolved => (.resolved resolved.1, resolved.2)
  | .metadata workspaceId secretId versionId =>
      (vault.describe suite (workspaceId, secretId) versionId).map
        fun metadata => (.metadata metadata, vault)

/-- What the call answers. -/
noncomputable def result (call : Call suite) : Except Raised Reply :=
  (vault.answer call).map Prod.fst

/-- The vault after a call that was answered. -/
noncomputable def after (call : Call suite) : Vault :=
  match vault.answer call with
  | .ok answered => answered.2
  | .error _ => vault

/-- The bytes a call has to seal. -/
def Seals (call : Call suite) (value : Bytes) : Prop :=
  match call.operation with
  | .createSecret _ _ given _ => value = given
  | .rotateSecret _ _ given _ _ => value = given
  | .generateDelegationKey _ => value = suite.privateBytes call.env.privateKey
  | .revokeSecret workspaceId secretId =>
      ∃ version ∈ (vault.history (workspaceId, secretId)).items, value = version.value
  | .revokeSecretVersion args =>
      ∃ version ∈ (vault.history (args.workspaceId, args.secretId)).items, value = version.value
  | _ => False

/-! ### What an answer does to the histories -/

/-- A history gets one version at its end, or some of its versions are revoked. -/
inductive Evolves (master : MasterKey) : (String × String → Timeline Version.versionId) → Prop
  | same : Evolves master vault.history
  | pushed {home : String × String} {version : Version}
      (hfresh : ¬ (vault.history home).Has version.versionId)
      (hsealed : version.sealedBy = master) :
      Evolves master
        (Function.update vault.history home ((vault.history home).push version hfresh))
  | revoked (home : String × String) (chosen : String → Bool) (now : String) :
      Evolves master (vault.revoking home chosen now).history

variable {vault} {vault' : Vault} {draws : Draws suite} {master : MasterKey}

theorem insert_evolves {home : String × String} {value : Bytes} {labels : TextDict}
    {number : Nat} {metadata : SecretMetadata}
    (hinsert : vault.insert suite draws master home value labels number = .ok (metadata, vault')) :
    vault.Evolves master vault'.history := by
  obtain ⟨clean, hfresh, _, _, rfl⟩ := insert_eq_ok hinsert
  exact .pushed hfresh rfl

theorem rotate_evolves {home : String × String} {value : Bytes} {labels : TextDict}
    {expectedIntent : Option String} {metadata : SecretMetadata}
    (hrotate : vault.rotate suite draws master home value labels expectedIntent =
      .ok (metadata, vault')) : vault.Evolves master vault'.history := by
  unfold rotate at hrotate
  split at hrotate
  · cases hrotate
  · split at hrotate
    · cases hrotate
    · exact insert_evolves hrotate

theorem revoke_evolves {home : String × String} {revoked : List SecretMetadata}
    (hrevoke : vault.revoke suite draws master home = .ok (revoked, vault')) :
    vault.Evolves master vault'.history := by
  unfold revoke at hrevoke
  simp only at hrevoke
  split at hrevoke
  · cases hrevoke
  · split at hrevoke
    · cases hrevoke
      exact .revoked _ _ _
    · cases hrevoke

theorem withdraw_evolves {args : RevokeSecretVersion} {metadata : SecretMetadata}
    (hwithdraw : vault.withdraw suite draws master args = .ok (metadata, vault')) :
    vault.Evolves master vault'.history := by
  unfold withdraw at hwithdraw
  simp only at hwithdraw
  split at hwithdraw
  · split at hwithdraw
    · obtain ⟨_, _, hsame⟩ := Effect.map_eq_ok.mp hwithdraw
      cases hsame
      exact .same
    · cases hwithdraw
  · split at hwithdraw
    · cases hwithdraw
    split at hwithdraw
    · cases hwithdraw
    split at hwithdraw
    · cases hwithdraw
    split at hwithdraw
    · cases hwithdraw
    split at hwithdraw
    · cases hwithdraw
      exact .revoked _ _ _
    · cases hwithdraw

theorem generate_evolves {args : GenerateDelegationKey} {key : GeneratedDelegationKey}
    (hgenerate : vault.generate suite draws master args = .ok (key, vault')) :
    vault.Evolves master vault'.history := by
  unfold generate at hgenerate
  simp only at hgenerate
  split at hgenerate
  · cases hgenerate
  split at hgenerate
  · split at hgenerate
    · obtain ⟨_, _, hsame⟩ := Effect.map_eq_ok.mp hgenerate
      cases hsame
      exact .same
    · cases hgenerate
  · split at hgenerate
    · cases hgenerate
    · obtain ⟨⟨metadata, added⟩, hinsert, hsame⟩ := Effect.map_eq_ok.mp hgenerate
      cases hsame
      have hadded : vault.Evolves master added.history := insert_evolves hinsert
      exact hadded

theorem use_evolves {args : ResolveSecretForUse} {secret : ResolvedSecret}
    (huse : vault.use suite draws master args = .ok (secret, vault')) :
    vault.Evolves master vault'.history := by
  unfold use at huse
  simp only at huse
  split at huse
  · split at huse
    · obtain ⟨_, _, hsame⟩ := Effect.map_eq_ok.mp huse
      cases hsame
      exact .same
    · cases huse
  · obtain ⟨_, _, hsame⟩ := Effect.map_eq_ok.mp huse
    cases hsame
    exact .same

/-- Every answer changes the histories in one of these ways. -/
theorem after_evolves (vault : Vault) (call : Call suite) :
    vault.Evolves call.master (vault.after call).history := by
  unfold after
  split
  · next answered hanswer =>
      rcases call with ⟨operation, master, env⟩
      cases operation <;> obtain ⟨value, hvalue, rfl⟩ := Effect.map_eq_ok.mp hanswer
      · exact insert_evolves hvalue
      · exact rotate_evolves hvalue
      · exact revoke_evolves hvalue
      · exact withdraw_evolves hvalue
      · exact generate_evolves hvalue
      · exact .same
      · exact use_evolves hvalue
      · exact .same
  · exact .same

/-- Every version is sealed under the key of the call that wrote it. -/
theorem Evolves.sealedBy {history : String × String → Timeline Version.versionId}
    (hevolves : vault.Evolves master history) {home : String × String} {version : Version}
    (hversion : version ∈ (history home).items) :
    version.sealedBy = master ∨
      ∃ old ∈ (vault.history home).items, version.sealedBy = old.sealedBy := by
  cases hevolves with
  | same => exact .inr ⟨version, hversion, rfl⟩
  | @pushed at' added hfresh hsealed =>
      by_cases hhome : home = at'
      · subst hhome
        rw [Function.update_self] at hversion
        rcases List.mem_append.mp hversion with hold | hnew
        · exact .inr ⟨version, hold, rfl⟩
        · rw [List.mem_singleton.mp hnew]
          exact .inl hsealed
      · rw [Function.update_of_ne hhome] at hversion
        exact .inr ⟨version, hversion, rfl⟩
  | revoked at' chosen now =>
      by_cases hhome : home = at'
      · subst hhome
        rw [history_revoking] at hversion
        obtain ⟨old, hold, rfl⟩ := List.mem_map.mp hversion
        exact .inr ⟨old, hold, (Version.revokedIf_same chosen now old).2.2⟩
      · have hsame : (vault.revoking at' chosen now).history home = vault.history home :=
          Function.update_of_ne hhome ..
        rw [hsame] at hversion
        exact .inr ⟨version, hversion, rfl⟩

end Vault

end

end SecretsCustody
