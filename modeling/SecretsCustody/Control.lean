/-
The control configuration of a provider.  It is read once from a public file that does not change
under the read, and admitted when it carries the declaration of the provider; what was admitted
is admitted again, and written and read back.
-/
import SecretsCustody.Bootstrap

namespace SecretsCustody

open JsonText

/-- What a process looks its settings up in. -/
abbrev Environment := String → Option PyStr

/-- The codec of receiver configurations and the declaration of the provider, which are made
elsewhere.  `none` is an exception. -/
structure ControlCodec where
  Configuration : Type
  Declaration : Type
  decidable : DecidableEq Declaration
  declaration : Configuration → Declaration
  encodeBytes : Configuration → Option Bytes
  decodeBytes : Bytes → Option Configuration
  secretsDeclaration : Declaration
  maximumBytes : Nat

instance (codec : ControlCodec) : DecidableEq codec.Declaration := codec.decidable

/-- The codec takes no document above its bound, and reads back what it writes of a
configuration it read. -/
structure ControlCodec.Lawful (codec : ControlCodec) : Prop where
  bounded : ∀ raw decoded, codec.decodeBytes raw = some decoded → raw.length ≤ codec.maximumBytes
  rereads : ∀ raw decoded, codec.decodeBytes raw = some decoded →
    (codec.encodeBytes decoded).bind codec.decodeBytes = some decoded

inductive ControlRaised where
  | secretsControlConfigurationError
  deriving DecidableEq

/-- What `fstat` says of a file before the read and after it. -/
structure FileStat where
  size : Nat
  modified : Nat
  changed : Nat
  deriving DecidableEq

/-- What the system shows of the control file once it is opened.  `none` is an exception. -/
structure ControlFile where
  regular : Bool
  mode : Nat
  before : FileStat
  content : Option Bytes
  after : Option FileStat
  closes : Bool

section

variable (codec : ControlCodec)

/-- `require_secrets_control_configuration`. -/
def requireSecretsControlConfiguration (value : codec.Configuration) :
    Except ControlRaised codec.Configuration :=
  match (codec.encodeBytes value).bind codec.decodeBytes with
  | none => .error .secretsControlConfigurationError
  | some admitted =>
      if codec.declaration admitted ≠ codec.secretsDeclaration then
        .error .secretsControlConfigurationError
      else .ok admitted

/-- `decode_secrets_control_configuration`. -/
def decodeSecretsControlConfiguration (raw : Bytes) : Except ControlRaised codec.Configuration :=
  match codec.decodeBytes raw with
  | none => .error .secretsControlConfigurationError
  | some decoded => requireSecretsControlConfiguration codec decoded

/-- `encode_secrets_control_configuration`. -/
def encodeSecretsControlConfiguration (configuration : codec.Configuration) :
    Except ControlRaised Bytes :=
  match requireSecretsControlConfiguration codec configuration with
  | .error raised => .error raised
  | .ok admitted =>
      match codec.encodeBytes admitted with
      | none => .error .secretsControlConfigurationError
      | some raw => .ok raw

/-- `CONTROL_CONFIGURATION_ENVIRONMENT`. -/
def controlConfigurationEnvironment : String := "CPK_WRAPPER_CONFIGURATION_FILE"

/-- A path that is opened: absolute, without NUL, and of at most 4096 bytes in UTF-8. -/
def ControlPath (path : PyStr) : Prop :=
  isAbsolute path = true ∧ 0 ∉ path ∧
    ∃ text, scalarText path = some text ∧ (encodeUtf8 text).length ≤ 4096

instance (path : PyStr) : Decidable (ControlPath path) :=
  match htext : scalarText path with
  | none => .isFalse fun ⟨_, _, text, hsome, _⟩ => by rw [htext] at hsome; cases hsome
  | some text =>
      if hpath : isAbsolute path = true ∧ 0 ∉ path ∧ (encodeUtf8 text).length ≤ 4096 then
        .isTrue ⟨hpath.1, hpath.2.1, text, htext, hpath.2.2⟩
      else
        .isFalse fun ⟨habsolute, hnul, other, hsome, hlength⟩ => hpath ⟨habsolute, hnul, by
          rw [htext] at hsome
          cases hsome
          exact hlength⟩

/-- What the read of an opened control file gives before the file is closed. -/
def ControlFile.read (file : ControlFile) : Option Bytes :=
  if file.regular = false ∨ file.mode ≠ 0o444 ∨ file.before.size > codec.maximumBytes then none
  else
    match file.content, file.after with
    | some content, some after =>
        if file.before ≠ after then none else some (content.take (codec.maximumBytes + 1))
    | _, _ => none

/-- `read_secrets_control_configuration`. -/
def readSecretsControlConfiguration (opened : PyStr → Option ControlFile)
    (environment : Environment) : Except ControlRaised codec.Configuration :=
  match environment controlConfigurationEnvironment with
  | none => .error .secretsControlConfigurationError
  | some path =>
      if ¬ ControlPath path then .error .secretsControlConfigurationError
      else
        match opened path with
        | none => .error .secretsControlConfigurationError
        | some file =>
            if file.closes = false then .error .secretsControlConfigurationError
            else
              match file.read codec with
              | none => .error .secretsControlConfigurationError
              | some raw => decodeSecretsControlConfiguration codec raw

end

/-! ### What is admitted -/

/-- The configuration is what the codec makes of the value, and declares the provider. -/
structure Admissible (codec : ControlCodec) (value admitted : codec.Configuration) : Prop where
  recoded : (codec.encodeBytes value).bind codec.decodeBytes = some admitted
  declares : codec.declaration admitted = codec.secretsDeclaration

/-- The public file a provider is configured by, and its content. -/
structure PublicFile (codec : ControlCodec) (file : ControlFile) (content : Bytes) : Prop where
  regular : file.regular = true
  mode : file.mode = 0o444
  bounded : file.before.size ≤ codec.maximumBytes
  content_eq : file.content = some content
  unchanged : file.after = some file.before
  closes : file.closes = true

section

variable {codec : ControlCodec} {value admitted : codec.Configuration}

theorem requireSecretsControlConfiguration_eq_ok :
    requireSecretsControlConfiguration codec value = .ok admitted ↔
      Admissible codec value admitted := by
  rw [requireSecretsControlConfiguration]
  constructor
  · intro hrequire
    split at hrequire
    · cases hrequire
    · next found hrecoded =>
        split at hrequire
        · cases hrequire
        · next hdeclares =>
            cases hrequire
            exact ⟨hrecoded, Decidable.not_not.mp hdeclares⟩
  · rintro ⟨hrecoded, hdeclares⟩
    rw [hrecoded]
    exact if_neg (not_not.mpr hdeclares)

/-- Under the laws of the codec, what it decoded is admitted as it is. -/
theorem Admissible.of_decoded (hlawful : codec.Lawful) {raw : Bytes}
    (hdecoded : codec.decodeBytes raw = some value) :
    Admissible codec value admitted ↔
      admitted = value ∧ codec.declaration value = codec.secretsDeclaration := by
  have hrereads := hlawful.rereads raw value hdecoded
  constructor
  · rintro ⟨hrecoded, hdeclares⟩
    rw [hrereads] at hrecoded
    cases hrecoded
    exact ⟨rfl, hdeclares⟩
  · rintro ⟨rfl, hdeclares⟩
    exact ⟨hrereads, hdeclares⟩

/-- What was admitted is admitted again, as it is. -/
theorem Admissible.again (hlawful : codec.Lawful) (hadmissible : Admissible codec value admitted) :
    Admissible codec admitted admitted := by
  obtain ⟨raw, _, hdecoded⟩ := Option.bind_eq_some_iff.mp hadmissible.recoded
  exact (Admissible.of_decoded hlawful hdecoded).mpr ⟨rfl, hadmissible.declares⟩

theorem decodeSecretsControlConfiguration_eq_ok (hlawful : codec.Lawful) {raw : Bytes} :
    decodeSecretsControlConfiguration codec raw = .ok admitted ↔
      codec.decodeBytes raw = some admitted ∧
        codec.declaration admitted = codec.secretsDeclaration := by
  rw [decodeSecretsControlConfiguration]
  cases hdecoded : codec.decodeBytes raw with
  | none =>
      constructor
      · intro hdecode
        cases hdecode
      · rintro ⟨hnone, _⟩
        cases hnone
  | some decoded =>
      dsimp only
      rw [requireSecretsControlConfiguration_eq_ok, Admissible.of_decoded hlawful hdecoded]
      constructor
      · rintro ⟨rfl, hdeclares⟩
        exact ⟨rfl, hdeclares⟩
      · rintro ⟨hsame, hdeclares⟩
        cases hsame
        exact ⟨rfl, hdeclares⟩

/-- What is written of a configuration is read back as it was admitted. -/
theorem decode_encode_control (hlawful : codec.Lawful) {raw : Bytes}
    (hencode : encodeSecretsControlConfiguration codec value = .ok raw) :
    decodeSecretsControlConfiguration codec raw =
      requireSecretsControlConfiguration codec value := by
  rw [encodeSecretsControlConfiguration] at hencode
  split at hencode
  · cases hencode
  · next admitted hrequire =>
      split at hencode
      · cases hencode
      · next found hencoded =>
          cases hencode
          have hagain := (requireSecretsControlConfiguration_eq_ok.mp hrequire).again hlawful
          have hdecoded : codec.decodeBytes raw = some admitted := by
            have hrecoded := hagain.recoded
            rwa [hencoded, Option.bind_some] at hrecoded
          rw [hrequire]
          exact (decodeSecretsControlConfiguration_eq_ok hlawful).mpr ⟨hdecoded, hagain.declares⟩

theorem controlFile_read {file : ControlFile} {raw : Bytes} :
    file.closes = true ∧ file.read codec = some raw ↔
      ∃ content, PublicFile codec file content ∧ content.take (codec.maximumBytes + 1) = raw := by
  rw [ControlFile.read]
  constructor
  · rintro ⟨hcloses, hread⟩
    split at hread
    · cases hread
    · next hfile =>
        simp only [not_or, Bool.not_eq_false, Decidable.not_not, Nat.not_lt] at hfile
        obtain ⟨hregular, hmode, hbounded⟩ := hfile
        split at hread
        · next content after hcontent hafter =>
            split at hread
            · cases hread
            · next hunchanged =>
                cases hread
                rw [Decidable.not_not] at hunchanged
                exact ⟨content, ⟨hregular, hmode, hbounded, hcontent, hunchanged ▸ hafter,
                  hcloses⟩, rfl⟩
        · cases hread
  · rintro ⟨content, hpublic, rfl⟩
    refine ⟨hpublic.closes, ?_⟩
    rw [if_neg, hpublic.content_eq, hpublic.unchanged]
    · exact if_neg (not_not.mpr rfl)
    · simp [hpublic.regular, hpublic.mode, hpublic.bounded]

/-- A provider is configured exactly by a public file that stays as it is under the read, whose
whole content is a document with the declaration of the provider. -/
theorem readSecretsControlConfiguration_eq_ok (hlawful : codec.Lawful)
    {opened : PyStr → Option ControlFile} {environment : Environment} :
    readSecretsControlConfiguration codec opened environment = .ok admitted ↔
      ∃ path file content, environment controlConfigurationEnvironment = some path ∧
        ControlPath path ∧ opened path = some file ∧ PublicFile codec file content ∧
        codec.decodeBytes content = some admitted ∧
        codec.declaration admitted = codec.secretsDeclaration := by
  rw [readSecretsControlConfiguration]
  constructor
  · intro hread
    split at hread
    · cases hread
    next path hpath =>
    split at hread
    · cases hread
    next hcontrol =>
    split at hread
    · cases hread
    next file hfile =>
    split at hread
    · cases hread
    next hcloses =>
    split at hread
    · cases hread
    next raw hraw =>
    obtain ⟨content, hpublic, rfl⟩ := controlFile_read.mp ⟨Bool.of_not_eq_false hcloses, hraw⟩
    obtain ⟨hdecoded, hdeclares⟩ := (decodeSecretsControlConfiguration_eq_ok hlawful).mp hread
    -- One byte more than the bound is read, so a document that decodes is all there is.
    have hbounded := hlawful.bounded _ _ hdecoded
    rw [List.length_take] at hbounded
    have hwhole : content.length ≤ codec.maximumBytes + 1 := by omega
    rw [List.take_of_length_le hwhole] at hdecoded
    exact ⟨path, file, content, hpath, Decidable.not_not.mp hcontrol, hfile, hpublic, hdecoded,
      hdeclares⟩
  · rintro ⟨path, file, content, hpath, hcontrol, hfile, hpublic, hdecoded, hdeclares⟩
    have hwhole : content.length ≤ codec.maximumBytes + 1 :=
      Nat.le_succ_of_le (hlawful.bounded _ _ hdecoded)
    obtain ⟨hcloses, hread⟩ := controlFile_read.mpr ⟨content, hpublic, rfl⟩
    rw [hpath]
    dsimp only
    rw [if_neg (not_not.mpr hcontrol), hfile]
    dsimp only
    rw [if_neg (by rw [hcloses]; decide), hread, List.take_of_length_le hwhole]
    exact (decodeSecretsControlConfiguration_eq_ok hlawful).mpr ⟨hdecoded, hdeclares⟩

/-- The control configuration a provider starts with, is written and is read. -/
structure ControlExact (codec : ControlCodec) : Prop where
  /-- A provider is configured exactly by a public file that stays as it is under the read,
  whose whole content is a document with the declaration of the provider. -/
  reads : ∀ opened environment admitted,
    readSecretsControlConfiguration codec opened environment = .ok admitted ↔
      ∃ path file content, environment controlConfigurationEnvironment = some path ∧
        ControlPath path ∧ opened path = some file ∧ PublicFile codec file content ∧
        codec.decodeBytes content = some admitted ∧
        codec.declaration admitted = codec.secretsDeclaration
  /-- What was admitted is admitted again, as it is. -/
  again : ∀ value admitted, requireSecretsControlConfiguration codec value = .ok admitted →
    requireSecretsControlConfiguration codec admitted = .ok admitted
  /-- What is written of a configuration is read back as it was admitted. -/
  written : ∀ value raw, encodeSecretsControlConfiguration codec value = .ok raw →
    decodeSecretsControlConfiguration codec raw = requireSecretsControlConfiguration codec value

theorem control_exact (hlawful : codec.Lawful) : ControlExact codec where
  reads := fun _ _ _ => readSecretsControlConfiguration_eq_ok hlawful
  again := fun _ _ hrequire => requireSecretsControlConfiguration_eq_ok.mpr
    ((requireSecretsControlConfiguration_eq_ok.mp hrequire).again hlawful)
  written := fun _ _ => decode_encode_control hlawful

end

/-! ### A codec of two documents -/

def decodeByte (raw : Bytes) : Option Bool :=
  if raw = [1] then some true else if raw = [0] then some false else none

theorem decodeByte_length {raw : Bytes} {decoded : Bool} (hdecoded : decodeByte raw = some decoded) :
    raw.length ≤ 1 := by
  unfold decodeByte at hdecoded
  split at hdecoded
  · next hraw => exact hraw ▸ Nat.le_refl 1
  · split at hdecoded
    · next hraw => exact hraw ▸ Nat.le_refl 1
    · cases hdecoded

/-- Its documents are one byte, and the provider's is 1. -/
def byteCodec : ControlCodec where
  Configuration := Bool
  Declaration := Bool
  decidable := inferInstance
  declaration := id
  encodeBytes := fun configuration => some [if configuration then 1 else 0]
  decodeBytes := decodeByte
  secretsDeclaration := true
  maximumBytes := 1

theorem byteCodec_lawful : byteCodec.Lawful where
  bounded := fun _ _ hdecoded => decodeByte_length hdecoded
  rereads := by
    intro raw decoded _
    cases decoded <;> rfl

theorem control_exact_byte : ControlExact byteCodec :=
  control_exact byteCodec_lawful

end SecretsCustody
