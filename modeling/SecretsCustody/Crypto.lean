/-
The cryptography the store calls: SHA-256, AES-GCM and Ed25519 keys come from
libraries and are taken as parameters; the master key and the documented
behaviour of the libraries are stated over them.
-/
import SecretsCustody.AssociatedData

namespace SecretsCustody

open JsonText

/-- Why `AESGCM(key).encrypt(…)` raises: the key has no AES length, or the data
exceeds `2^31 - 1` bytes. -/
inductive CipherFault where
  | valueError
  | overflowError

def CipherFault.raised : CipherFault → Raised
  | .valueError => .valueError
  | .overflowError => .overflowError

/-- How `load_pem_private_key(data, password=None)` ends. -/
inductive LoadedKey (PrivateKey : Type) where
  | ed25519 (privateKey : PrivateKey)
  | other
  | malformed
  | unsupported

/-- The library functions the provider calls.  Encryption takes the key, the
nonce, the plaintext and the associated data; decryption takes the ciphertext
in place of the plaintext and has no result when it raises. -/
structure CryptoSuite where
  sha256 : Bytes → String
  encrypt : Bytes → Bytes → Bytes → Bytes → Except CipherFault Bytes
  decrypt : Bytes → Bytes → Bytes → Bytes → Option Bytes
  PrivateKey : Type
  /-- `private_bytes` in unencrypted PKCS8 PEM. -/
  privateBytes : PrivateKey → Bytes
  /-- `public_key().public_bytes` in PEM, decoded from ASCII. -/
  publicPem : PrivateKey → String
  loadPemPrivateKey : Bytes → LoadedKey PrivateKey

namespace CryptoSuite

variable (suite : CryptoSuite)

/-- Authenticated encryption is correct: what was encrypted decrypts to itself. -/
def DecryptsOwn : Prop :=
  ∀ key nonce plaintext associated ciphertext,
    suite.encrypt key nonce plaintext associated = .ok ciphertext →
      suite.decrypt key nonce ciphertext associated = some plaintext

/-- Documented behaviour of the Ed25519 and SHA-256 libraries. -/
structure KeyMaterial : Prop where
  load_private : ∀ privateKey,
    suite.loadPemPrivateKey (suite.privateBytes privateKey) = .ed25519 privateKey
  public_length : ∀ privateKey, (suite.publicPem privateKey).length ≤ 8192
  hexdigest_length : ∀ data, (suite.sha256 data).length = 64

end CryptoSuite

/-- The tag of the suite below: the start of the key. -/
def transparentTag (key : Bytes) : Bytes :=
  (key ++ List.replicate 16 0).take 16

theorem transparentTag_length (key : Bytes) : (transparentTag key).length = 16 := by
  simp [transparentTag]

/-- A suite that hides nothing and behaves as documented. -/
def transparentSuite : CryptoSuite where
  sha256 _ := String.ofList (List.replicate 64 '0')
  encrypt key _ plaintext _ := .ok (plaintext ++ transparentTag key)
  decrypt key _ ciphertext _ :=
    if ciphertext.drop (ciphertext.length - 16) = transparentTag key then
      some (ciphertext.take (ciphertext.length - 16))
    else none
  PrivateKey := Bool
  privateBytes privateKey := [if privateKey then 1 else 0]
  publicPem privateKey := if privateKey then "public-1" else "public-0"
  loadPemPrivateKey data := .ed25519 (data = [1])

theorem transparentSuite_decryptsOwn : transparentSuite.DecryptsOwn := by
  intro key nonce plaintext associated ciphertext hencrypt
  have hciphertext : plaintext ++ transparentTag key = ciphertext := Except.ok.inj hencrypt
  have hlength : (plaintext ++ transparentTag key).length - 16 = plaintext.length := by
    rw [List.length_append, transparentTag_length, Nat.add_sub_cancel]
  subst hciphertext
  unfold transparentSuite
  dsimp only
  rw [hlength, List.drop_left, if_pos rfl, List.take_left]

theorem transparentSuite_keyMaterial : transparentSuite.KeyMaterial where
  load_private privateKey := by cases privateKey <;> rfl
  public_length privateKey := by cases privateKey <;> decide
  hexdigest_length _ := by
    change (String.ofList (List.replicate 64 '0')).length = 64
    rw [String.length_ofList, List.length_replicate]

def algorithm : String := "AES-256-GCM"

/-- `MasterKey`: any bytes, as the constructor takes them. -/
structure MasterKey where
  key : Bytes
  version : String
  deriving DecidableEq

namespace MasterKey

variable (suite : CryptoSuite)

def fingerprint (master : MasterKey) : String :=
  String.ofList ((suite.sha256 master.key).toList.take 24)

def encrypt (master : MasterKey) (nonce plaintext associated : Bytes) : Except Raised Bytes :=
  (suite.encrypt master.key nonce plaintext associated).mapError CipherFault.raised

/-- `none` is `SecretCryptoError`, which both callers replace. -/
def decrypt (master : MasterKey) (nonce ciphertext associated : Bytes) : Option Bytes :=
  suite.decrypt master.key nonce ciphertext associated

theorem decrypt_of_encrypt {suite : CryptoSuite} (hsuite : suite.DecryptsOwn)
    {master master' : MasterKey} (hkey : master'.key = master.key)
    {nonce plaintext associated ciphertext : Bytes}
    (hencrypt : master.encrypt suite nonce plaintext associated = .ok ciphertext) :
    master'.decrypt suite nonce ciphertext associated = some plaintext := by
  unfold decrypt
  rw [hkey]
  apply hsuite
  unfold encrypt at hencrypt
  cases hcipher : suite.encrypt master.key nonce plaintext associated with
  | error fault => rw [hcipher] at hencrypt; cases hencrypt
  | ok found => rw [hcipher] at hencrypt; cases hencrypt; rfl

theorem encrypt_error {suite : CryptoSuite} {master : MasterKey}
    {nonce plaintext associated : Bytes} {raised : Raised}
    (hencrypt : master.encrypt suite nonce plaintext associated = .error raised) :
    raised = .valueError ∨ raised = .overflowError := by
  unfold encrypt at hencrypt
  cases hcipher : suite.encrypt master.key nonce plaintext associated with
  | error fault =>
      rw [hcipher] at hencrypt
      cases fault <;> cases hencrypt
      · exact .inl rfl
      · exact .inr rfl
  | ok found => rw [hcipher] at hencrypt; cases hencrypt

end MasterKey

/-! ### The record of what was encrypted -/

/-- What an encryption authenticated. -/
inductive Associated where
  | version (metadata : SecretMetadata)
  | custody (providerId : String)

def Associated.data : Associated → Bytes
  | .version metadata => aad metadata
  | .custody providerId => context providerId

/-- One call of `AESGCM.encrypt`. -/
structure Encryption where
  key : Bytes
  nonce : Bytes
  plaintext : Bytes
  associated : Associated
  ciphertext : Bytes

/-! ### Delegation keys -/

/-- `_delegation_key_id`; `none` is the `UnicodeEncodeError` of a key that is
not ASCII. -/
def delegationKeyId (suite : CryptoSuite) (publicKeyPem : String) : Option String :=
  (encodeAscii publicKeyPem).map fun data => "gateway-" ++ suite.sha256 data

/-- `_delegation_material_matches`. -/
def delegationMaterialMatches (suite : CryptoSuite) (privatePem : Bytes)
    (publicKeyPem keyId : String) : Except Raised Bool :=
  match suite.loadPemPrivateKey privatePem with
  | .unsupported => .error .unsupportedAlgorithm
  | .malformed => .ok false
  | .other => .ok false
  | .ed25519 privateKey =>
      .ok (suite.publicPem privateKey = publicKeyPem &&
        delegationKeyId suite publicKeyPem = some keyId)

theorem delegationMaterialMatches_own {suite : CryptoSuite} (hsuite : suite.KeyMaterial)
    {privateKey : suite.PrivateKey} {keyId : String}
    (hkeyId : delegationKeyId suite (suite.publicPem privateKey) = some keyId) :
    delegationMaterialMatches suite (suite.privateBytes privateKey)
      (suite.publicPem privateKey) keyId = .ok true := by
  simp [delegationMaterialMatches, hsuite.load_private, hkeyId]

theorem delegationKeyId_length {suite : CryptoSuite} (hsuite : suite.KeyMaterial)
    {publicKeyPem keyId : String} (hkeyId : delegationKeyId suite publicKeyPem = some keyId) :
    keyId.length = 72 := by
  simp only [delegationKeyId, Option.map_eq_some_iff] at hkeyId
  obtain ⟨data, _, rfl⟩ := hkeyId
  rw [String.length_append, hsuite.hexdigest_length]
  rfl

end SecretsCustody
