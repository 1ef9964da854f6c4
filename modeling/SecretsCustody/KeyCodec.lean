/-
The text of a master key file.  What is written for a key is read back, and the reader takes
more than what is written: it looks at the length of the key alone, and its decoder passes over
foreign characters, unused bits and whatever stands behind the padding.
-/
import SecretsCustody.Crypto
import SecretsCustody.LenientBase64

namespace SecretsCustody

open JsonText

def masterKeyBytes : Nat := 32

/-- `SecretCryptoError`, with its message. -/
inductive CryptoRaised where
  | secretCryptoError (message : String)
  deriving DecidableEq

/-- `text.encode("ascii")`, as the characters of the bytes; `none` is `UnicodeEncodeError`. -/
def asciiChars (text : PyStr) : Option (List Char) :=
  if ∀ code ∈ text, code < 128 then some (text.map Char.ofNat) else none

/-- `_master_key_from_encoded`. -/
def masterKeyFromEncoded (encoded : PyStr) (version : String) : Except CryptoRaised MasterKey :=
  match (asciiChars encoded).bind Base64.urlsafeDecode with
  | none => .error (.secretCryptoError "invalid master key file")
  | some key =>
      if key.length ≠ masterKeyBytes then .error (.secretCryptoError "invalid master key file")
      else .ok { key := key, version := version }

/-- `encode_master_key_for_file`. -/
def encodeMasterKeyForFile (key : Bytes) : Except CryptoRaised PyStr :=
  if key.length ≠ masterKeyBytes then .error (.secretCryptoError "invalid master key")
  else .ok ((Base64.urlsafeEncode key).map Char.toNat)

/-! ### What is written is read -/

theorem asciiChars_codes {text : List Char} (hascii : ∀ c ∈ text, c.toNat < 128) :
    asciiChars (text.map Char.toNat) = some text := by
  have hcodes : ∀ code ∈ text.map Char.toNat, code < 128 := by
    intro code hcode
    obtain ⟨c, hc, rfl⟩ := List.mem_map.mp hcode
    exact hascii c hc
  rw [asciiChars, if_pos hcodes, List.map_map]
  exact congrArg some (List.map_id'' (fun c => Char.ofNat_toNat c) text)

theorem urlsafeEncode_ascii {bytes : Bytes} : ∀ c ∈ Base64.urlsafeEncode bytes, c.toNat < 128 := by
  have hdigits : ∀ bits < 64,
      (Base64.toUrlSafe (Base64.alphabet.getD bits 'A')).toNat < 128 := by decide +kernel
  intro c hc
  obtain ⟨plain, hplain, rfl⟩ := List.mem_map.mp hc
  rcases Base64.mem_encode hplain with rfl | ⟨bits, rfl⟩
  · decide
  · exact hdigits (bits % 64) (Nat.mod_lt bits (by decide))

theorem encodeMasterKeyForFile_eq_ok {key : Bytes} {encoded : PyStr} :
    encodeMasterKeyForFile key = .ok encoded ↔
      key.length = masterKeyBytes ∧ (Base64.urlsafeEncode key).map Char.toNat = encoded := by
  rw [encodeMasterKeyForFile]
  by_cases hlength : key.length = masterKeyBytes
  · rw [if_neg (not_not.mpr hlength)]
    simp [hlength]
  · rw [if_pos hlength]
    simp [hlength]

theorem masterKeyFromEncoded_eq_ok {encoded : PyStr} {version : String} {master : MasterKey} :
    masterKeyFromEncoded encoded version = .ok master ↔
      master.version = version ∧ master.key.length = masterKeyBytes ∧
        (asciiChars encoded).bind Base64.urlsafeDecode = some master.key := by
  obtain ⟨key, keyVersion⟩ := master
  rw [masterKeyFromEncoded]
  cases hdecode : (asciiChars encoded).bind Base64.urlsafeDecode with
  | none => simp
  | some found =>
      dsimp only
      by_cases hlength : found.length = masterKeyBytes
      · rw [if_neg (not_not.mpr hlength)]
        constructor
        · intro hread
          cases hread
          exact ⟨rfl, hlength, rfl⟩
        · intro ⟨hversion, _, hkey⟩
          cases hversion
          cases hkey
          rfl
      · rw [if_pos hlength]
        constructor
        · intro hread
          cases hread
        · intro ⟨_, hkey, hfound⟩
          cases hfound
          exact absurd hkey hlength

theorem masterKeyFromEncoded_eq_error {encoded : PyStr} {version : String} {raised : CryptoRaised}
    (hraised : masterKeyFromEncoded encoded version = .error raised) :
    raised = .secretCryptoError "invalid master key file" := by
  rw [masterKeyFromEncoded] at hraised
  split at hraised
  · cases hraised
    rfl
  · split at hraised
    · cases hraised
      rfl
    · cases hraised

/-- A key file reads as the key it was written for. -/
theorem masterKeyFromEncoded_encode {key : Bytes} {encoded : PyStr} (version : String)
    (hencode : encodeMasterKeyForFile key = .ok encoded) :
    masterKeyFromEncoded encoded version = .ok { key := key, version := version } := by
  obtain ⟨hlength, hencoded⟩ := encodeMasterKeyForFile_eq_ok.mp hencode
  refine masterKeyFromEncoded_eq_ok.mpr ⟨rfl, hlength, ?_⟩
  rw [← hencoded, asciiChars_codes urlsafeEncode_ascii]
  exact Base64.urlsafeDecode_urlsafeEncode key

/-! ### What else is read -/

/-- Whatever ASCII text stands behind a written key, another key for one, it is not seen. -/
theorem masterKeyFromEncoded_append {key : Bytes} {encoded rest : PyStr} (version : String)
    (hencode : encodeMasterKeyForFile key = .ok encoded) (hascii : ∀ code ∈ rest, code < 128) :
    masterKeyFromEncoded (encoded ++ rest) version = .ok { key := key, version := version } := by
  obtain ⟨hlength, hencoded⟩ := encodeMasterKeyForFile_eq_ok.mp hencode
  have hpadding : key.length % 3 ≠ 0 := by
    rw [hlength]
    decide
  have hfirst : asciiChars encoded = some (Base64.urlsafeEncode key) := by
    rw [← hencoded]
    exact asciiChars_codes urlsafeEncode_ascii
  have htext : asciiChars (encoded ++ rest) =
      some (Base64.urlsafeEncode key ++ rest.map Char.ofNat) := by
    rw [asciiChars] at hfirst ⊢
    split at hfirst
    · next hcodes =>
        rw [if_pos, List.map_append, Option.some.inj hfirst]
        intro code hcode
        rcases List.mem_append.mp hcode with hmem | hmem
        · exact hcodes code hmem
        · exact hascii code hmem
    · cases hfirst
  refine masterKeyFromEncoded_eq_ok.mpr ⟨rfl, hlength, ?_⟩
  rw [htext]
  exact Base64.urlsafeDecode_append key _ hpadding

/-- Forty-three characters of the URL-safe alphabet, the last of them with nothing in its two
lowest bits, and one padding character. -/
def Spelled (encoded : PyStr) : Prop :=
  ∃ text, Base64.Canonical 10 text ∧ encoded = (text.map Base64.toUrlSafe).map Char.toNat

/-- An ASCII text with forty-three characters of either alphabet before its first padding
character that completes a padding. -/
def YieldsKey (encoded : PyStr) : Prop :=
  ∃ text, asciiChars encoded = some text ∧
    ∃ before after, text.map Base64.ofUrlSafe = before ++ '=' :: after ∧
      Base64.Unended before ∧ (Base64.digits before).length = 43

theorem spelled_iff {encoded : PyStr} :
    Spelled encoded ↔ ∃ key, encodeMasterKeyForFile key = .ok encoded := by
  constructor
  · intro ⟨text, hcanonical, hencoded⟩
    obtain ⟨key, hlength, htext⟩ := Base64.canonical_iff.mp hcanonical
    refine ⟨key, encodeMasterKeyForFile_eq_ok.mpr ⟨hlength, ?_⟩⟩
    rw [hencoded, ← htext]
    rfl
  · intro ⟨key, hencode⟩
    obtain ⟨hlength, hencoded⟩ := encodeMasterKeyForFile_eq_ok.mp hencode
    exact ⟨Base64.encode key, Base64.canonical_iff.mpr ⟨key, hlength, rfl⟩, hencoded.symm⟩

/-- The readable texts are the ones a key is read from. -/
theorem yieldsKey_iff {encoded : PyStr} (version : String) :
    YieldsKey encoded ↔ ∃ master, masterKeyFromEncoded encoded version = .ok master := by
  constructor
  · intro ⟨text, htext, hends⟩
    obtain ⟨key, hdecode, hlength⟩ := (Base64.lenientDecode_length_iff _ 10).mpr hends
    refine ⟨⟨key, version⟩, masterKeyFromEncoded_eq_ok.mpr ⟨rfl, hlength, ?_⟩⟩
    rw [htext]
    exact hdecode
  · intro ⟨master, hread⟩
    obtain ⟨_, hlength, hdecode⟩ := masterKeyFromEncoded_eq_ok.mp hread
    obtain ⟨text, htext, hdecode⟩ := Option.bind_eq_some_iff.mp hdecode
    exact ⟨text, htext, (Base64.lenientDecode_length_iff _ 10).mp ⟨master.key, hdecode, hlength⟩⟩

/-- The codec is exact on a text: the reader returns the key the text is written for, and refuses
a text that is written for none. -/
structure CodecExact (encoded : PyStr) (version : String) : Prop where
  read : ∀ master, masterKeyFromEncoded encoded version = .ok master ↔
    master.version = version ∧ encodeMasterKeyForFile master.key = .ok encoded
  refused : (∀ key, encodeMasterKeyForFile key ≠ .ok encoded) →
    masterKeyFromEncoded encoded version = .error (.secretCryptoError "invalid master key file")

/-- The codec is exact on what it writes and on what it cannot read. -/
theorem codecExact_iff (encoded : PyStr) (version : String) :
    CodecExact encoded version ↔ Spelled encoded ∨ ¬ YieldsKey encoded := by
  constructor
  · intro hexact
    by_cases hyields : YieldsKey encoded
    · obtain ⟨master, hread⟩ := (yieldsKey_iff version).mp hyields
      exact .inl (spelled_iff.mpr ⟨master.key, ((hexact.read master).mp hread).2⟩)
    · exact .inr hyields
  · intro hcondition
    have hspelled : YieldsKey encoded → Spelled encoded := fun hyields =>
      hcondition.resolve_right (not_not.mpr hyields)
    constructor
    · intro master
      constructor
      · intro hread
        have hversion := (masterKeyFromEncoded_eq_ok.mp hread).1
        obtain ⟨key, hencode⟩ := spelled_iff.mp (hspelled ((yieldsKey_iff version).mpr ⟨master, hread⟩))
        rw [masterKeyFromEncoded_encode version hencode] at hread
        cases hread
        exact ⟨hversion, hencode⟩
      · intro ⟨hversion, hencode⟩
        rw [masterKeyFromEncoded_encode version hencode, ← hversion]
    · intro hnone
      cases hread : masterKeyFromEncoded encoded version with
      | ok master =>
          obtain ⟨key, hencode⟩ :=
            spelled_iff.mp (hspelled ((yieldsKey_iff version).mpr ⟨master, hread⟩))
          exact absurd hencode (hnone key)
      | error raised => rw [masterKeyFromEncoded_eq_error hread]

/-- A file of one key behind another is read as the first. -/
theorem two_keys_are_read : ¬ ∀ encoded version, CodecExact encoded version := by
  intro hexact
  let key : Bytes := List.replicate 32 0
  let encoded : PyStr := (Base64.urlsafeEncode key).map Char.toNat
  have hencode : encodeMasterKeyForFile key = .ok encoded :=
    encodeMasterKeyForFile_eq_ok.mpr ⟨rfl, rfl⟩
  have hascii : ∀ code ∈ encoded, code < 128 := by
    intro code hcode
    obtain ⟨c, hc, rfl⟩ := List.mem_map.mp hcode
    exact urlsafeEncode_ascii c hc
  have hread := masterKeyFromEncoded_append "local" hencode hascii
  have htwice := (((hexact (encoded ++ encoded) "local").read ⟨key, "local"⟩).mp hread).2
  rw [hencode] at htwice
  have hlength := congrArg List.length (Except.ok.inj htwice)
  have hsome : encoded.length = 44 := by decide +kernel
  rw [List.length_append] at hlength
  omega

end SecretsCustody
