/-
The provider's data: bytes, label maps, secret metadata, results, and the
exceptions the store raises.
-/
import Mathlib.Data.Finmap
import SecretsCustody.JsonRoundTrip

namespace SecretsCustody

open JsonText

abbrev Bytes := List UInt8

/-- `text.encode("utf-8")`. -/
def encodeUtf8 (text : String) : Bytes :=
  text.toByteArray.data.toList

theorem encodeUtf8_injective : Function.Injective encodeUtf8 := by
  intro left right hsame
  apply String.toByteArray_inj.mp
  exact ByteArray.ext (Array.toList_inj.mp hsame)

/-- `text.encode("ascii")`; `none` is `UnicodeEncodeError`. -/
def encodeAscii (text : String) : Option Bytes :=
  if text.toList.all fun c => c.toNat < 128 then
    some (text.toList.map fun c => UInt8.ofNat c.toNat)
  else none

instance (code : Nat) : Decidable (IsScalar code) :=
  inferInstanceAs (Decidable (_ ∨ _))

/-- A text that holds no unpaired surrogate. -/
def scalarText (text : PyStr) : Option String :=
  if ∀ code ∈ text, IsScalar code then some (String.ofList (text.map Char.ofNat)) else none

theorem scalarText_codes (text : String) : scalarText (codes text) = some text := by
  have hplain : ∀ code ∈ codes text, IsScalar code := codes_plain text
  rw [scalarText, if_pos hplain]
  have hchars : (codes text).map Char.ofNat = text.toList := by
    rw [codes, List.map_map]
    exact List.map_id'' (fun c => Char.ofNat_toNat c) text.toList
  rw [hchars, String.ofList_toList]

/-! ### Labels -/

/-- A decoded label map.  No writer keeps the order of a `dict`: both pass
`sort_keys`. -/
abbrev Labels := Finmap fun _ : PyStr => Json

/-- A `dict[str, str]` argument, in the order of its items. -/
abbrev TextDict := AList fun _ : String => String

namespace Labels

/-- `labels.get(key) == value` for two texts. -/
def has (labels : Labels) (key value : String) : Bool :=
  (labels.lookup (codes key)).any fun found => found.isText (codes value)

theorem has_iff {labels : Labels} {key value : String} :
    labels.has key value = true ↔
      labels.lookup (codes key) = some (.str (codes value)) := by
  cases hfound : labels.lookup (codes key) <;> simp [has, hfound]

/-- `dict(labels) == {…}` for a literal with distinct keys. -/
def matchesTexts (labels : Labels) (texts : List (String × String)) : Bool :=
  labels.keys.card = texts.length && texts.all fun text => labels.has text.1 text.2

end Labels

/-! ### Metadata and results -/

inductive SecretStatus where
  | active
  | revoked
  deriving DecidableEq

def SecretStatus.value : SecretStatus → String
  | .active => "active"
  | .revoked => "revoked"

/-- `SecretStatus(value)`; `none` is `ValueError`. -/
def SecretStatus.ofValue (value : String) : Option SecretStatus :=
  if value = "active" then some .active
  else if value = "revoked" then some .revoked
  else none

@[simp] theorem SecretStatus.ofValue_value (status : SecretStatus) :
    SecretStatus.ofValue status.value = some status := by
  cases status <;> decide

theorem SecretStatus.value_injective : Function.Injective SecretStatus.value := by
  intro left right hvalue
  have hread := SecretStatus.ofValue_value left
  rw [hvalue, SecretStatus.ofValue_value] at hread
  exact (Option.some.inj hread).symm

theorem SecretStatus.value_of_ofValue {value : String} {status : SecretStatus}
    (hvalue : SecretStatus.ofValue value = some status) : value = status.value := by
  unfold SecretStatus.ofValue at hvalue
  split at hvalue
  · next hactive => cases hvalue; exact hactive
  split at hvalue
  · next hrevoked => cases hvalue; exact hrevoked
  · cases hvalue

structure SecretMetadata where
  workspaceId : String
  secretId : String
  versionId : String
  versionNumber : Int
  status : SecretStatus
  algorithm : String
  keyFingerprint : String
  keyVersion : String
  labels : Labels
  createdAt : String
  revokedAt : Option String

structure ResolvedSecret where
  metadata : SecretMetadata
  value : Bytes

structure GeneratedDelegationKey where
  metadata : SecretMetadata
  secretReference : String
  purpose : String
  issuer : String
  correlationId : String
  keyId : String
  algorithm : String
  publicKeyPem : String
  replayed : Bool

/-! ### Exceptions -/

/-- A statement the database could not run, by the part of `sqlite_errorcode`
the code reads. -/
inductive SqliteFault where
  | notADatabase
  | corrupt
  | operational
  deriving DecidableEq

inductive Raised where
  | secretMissing
  | secretAlreadyExists
  | secretResolutionConflict
  | secretVersionRevocationConflict
  | delegationKeyGenerationConflict
  | secretIntentMismatch
  | secretRevoked
  | secretTampered
  | secretMetadataInvalid
  | auditUnavailable
  | integrityError
  | sqlite (fault : SqliteFault)
  | overflowError
  | jsonDecodeError
  | valueError
  | typeError
  | recursionError
  | memoryError
  | unsupportedAlgorithm
  | osError
  | unicodeEncodeError
  | custodyRejected
  | custodyUnavailable
  | providerAuthenticationError
  | secretUseDenied
  deriving DecidableEq

/-- `if condition: raise raised`. -/
def raiseIf {m : Type → Type} [Monad m] [MonadExcept Raised m] (condition : Prop)
    [Decidable condition] (raised : Raised) : m Unit :=
  if condition then throw raised else pure ()

theorem raiseIf_eq_ok {condition : Prop} [Decidable condition] {raised : Raised} {done : Unit} :
    (raiseIf condition raised : Except Raised Unit) = .ok done ↔ ¬ condition := by
  by_cases hcondition : condition
  · simp [raiseIf, hcondition, throw, throwThe, MonadExceptOf.throw]
  · simp [raiseIf, hcondition, pure, Except.pure]

theorem raiseIf_eq_error {condition : Prop} [Decidable condition] {raised found : Raised} :
    (raiseIf condition raised : Except Raised Unit) = .error found ↔
      condition ∧ found = raised := by
  by_cases hcondition : condition
  · simp [raiseIf, hcondition, throw, throwThe, MonadExceptOf.throw, eq_comm]
  · simp [raiseIf, hcondition, pure, Except.pure]

end SecretsCustody
