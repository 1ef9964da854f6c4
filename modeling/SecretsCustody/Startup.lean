/-
The start of a provider process: its settings are read and checked in turn, and only then is the
database admitted to its custody.
-/
import SecretsCustody.BootstrapRead
import SecretsCustody.Control
import SecretsCustody.CustodyRuns
import SecretsCustody.KeyCodec

namespace SecretsCustody

open Effect JsonText

/-- What stops a process that starts. -/
inductive StartRaised where
  | providerConfigurationError
  | secretsControlConfigurationError
  | secretCryptoError (message : String)
  | bootstrap (raised : BootstrapRaised)
  | wrapper
  | custody (raised : Raised)
  deriving DecidableEq

def maximumMasterKeyFileBytes : Nat := 4096

/-- `load_master_key_from_environment`. -/
def loadMasterKeyFromEnvironment (system : FileSystem) (environment : Environment)
    (name version : String) : Except StartRaised MasterKey :=
  match environment name with
  | none => .error (.secretCryptoError "master key file is not configured")
  | some [] => .error (.secretCryptoError "master key file is not configured")
  | some path =>
      match readProtectedBootstrapFile system path maximumMasterKeyFileBytes with
      | .error .protectedBootstrapFileError =>
          .error (.secretCryptoError "invalid master key file")
      | .error raised => .error (.bootstrap raised)
      | .ok payload =>
          match decodeUtf8 payload with
          | none => .error (.secretCryptoError "invalid master key file")
          | some text =>
              (masterKeyFromEncoded (Words.trim Words.isSpaceCode (codes text)) version).mapError
                fun
                | .secretCryptoError message => .secretCryptoError message

/-- The settings `load_provider_credentials` looks up. -/
def credentialSettings (environment : Environment) : CredentialSettings :=
  { credentialsFile := environment "CPK_SECRETS_CREDENTIALS_FILE"
    developmentJson := environment "CPK_SECRETS_DEVELOPMENT_CREDENTIALS_JSON" }

/-- The `except` clause of `initialize_provider`. -/
def initializeRaised : StartRaised → StartRaised
  | .secretCryptoError _ => .providerConfigurationError
  | .bootstrap .providerConfigurationError => .providerConfigurationError
  | raised => raised

/-- What a process starts with: its settings, the files they name, whether the control wrapper
installs, what the checks of the database path find, and what the admission draws. -/
structure Launch (suite : CryptoSuite) (codec : ControlCodec) where
  environment : Environment
  controlFiles : PyStr → Option ControlFile
  files : FileSystem
  installs : codec.Configuration → Bool
  path : DatabasePath
  env : Env suite

/-- What a process is configured with. -/
structure Settings (codec : ControlCodec) where
  control : codec.Configuration
  providerId : PyStr
  master : MasterKey
  credentials : List LoadedCredential

/-- What a process serves with. -/
structure App (codec : ControlCodec) where
  control : codec.Configuration
  providerId : String
  master : MasterKey
  credentials : List LoadedCredential

/-- The identity a process serves under. -/
def App.identity {codec : ControlCodec} (app : App codec) : Bytes × String :=
  (app.master.key, app.providerId)

section

variable {suite : CryptoSuite} {codec : ControlCodec}

/-- `app_from_environment` and `create_app` up to the admission. -/
def Launch.configure (launch : Launch suite codec) : Except StartRaised (Settings codec) := do
  if ¬ isSet (launch.environment "CPK_SECRETS_DATABASE_PATH") then
    .error .providerConfigurationError
  else
    let control ← (readSecretsControlConfiguration codec launch.controlFiles
      launch.environment).mapError fun _ => .secretsControlConfigurationError
    let control ← (requireSecretsControlConfiguration codec control).mapError
      fun _ => .secretsControlConfigurationError
    if launch.installs control = false then .error .wrapper
    else
      let master ← (loadMasterKeyFromEnvironment launch.files launch.environment
        "CPK_SECRETS_MASTER_KEY_FILE" "local").mapError initializeRaised
      let credentials ← ((loadProviderCredentials launch.files
        (credentialSettings launch.environment)).mapError StartRaised.bootstrap).mapError
          initializeRaised
      return { control := control
               providerId := (launch.environment "CPK_SECRETS_PROVIDER_ID").getD
                 (codes "local-dev-provider")
               master := master
               credentials := credentials }

/-- What settings serve with, if the provider id is a text that SQLite takes. -/
def Settings.app (settings : Settings codec) : Option (App codec) :=
  (scalarText settings.providerId).map fun providerId =>
    { control := settings.control
      providerId := providerId
      master := settings.master
      credentials := settings.credentials }

/-- What a launch serves with, if it is admitted. -/
def Launch.app (launch : Launch suite codec) : Option (App codec) :=
  launch.configure.toOption.bind Settings.app

/-- The admission a configured process asks for. -/
def Launch.admission (launch : Launch suite codec) (app : App codec) : Admission suite :=
  { path := launch.path
    master := app.master
    providerId := app.providerId
    env := launch.env }

/-- `admit_provider_custody` with a provider id that holds an unpaired surrogate.  On a database
without objects the statement that binds it raises; in a binding that is there it is not. -/
def admitUnencodable {α : Type} (path : DatabasePath) (master : MasterKey) (providerId : PyStr)
    (env : Env suite) : Tx Database α :=
  mapRaised custodyRaised do
    ofExcept (requirePath path)
    withConnection env (do statement env; statement env) do
      statement env
      let observed ← query env fun db => observedSchema db.schema
      if observed = [] then
        initializeInTransaction suite env storeSchema
        initializeInTransaction suite env auditSchema
        execute env fun db => db.create bindingSchema
        let nonce ← urandom env
        let _ ← ofExcept (master.encrypt suite nonce custodyWitness (contextOf providerId))
        throw .unicodeEncodeError
      else
        let declared ← query env fun db => observedSchema db.schema
        raiseIf (declared ≠ expectedSchema) .custodyRejected
        let _ ← query env Database.binding
        throw .custodyRejected

/-- The admission of a configured process, which then serves. -/
def Launch.enter (launch : Launch suite codec) (settings : Settings codec) :
    Tx Database (App codec) :=
  match settings.app with
  | some app => do
      admitProviderCustody (launch.admission app)
      return app
  | none => admitUnencodable launch.path settings.master settings.providerId launch.env

/-- `app_from_environment` on a database. -/
def Launch.start (launch : Launch suite codec) (db : Database) :
    Except StartRaised (App codec) × Database :=
  match launch.configure with
  | .error raised => (.error raised, db)
  | .ok settings =>
      match (launch.enter settings).run { db := db, executed := 0, encryptions := [] } with
      | .ok app finish => (.ok app, finish.db)
      | .error raised finish => (.error (.custody raised), finish.db)

end

/-! ### What a process starts from -/

/-- The setting names a protected file whose text, without the spaces around it, spells the key. -/
structure KeyFile (system : FileSystem) (setting : Option PyStr) (key : Bytes) : Prop where
  length : key.length = masterKeyBytes
  spelled : ∃ path payload text, setting = some path ∧
    readProtectedBootstrapFile system path maximumMasterKeyFileBytes = .ok payload ∧
    decodeUtf8 payload = some text ∧
    (asciiChars (Words.trim Words.isSpaceCode (codes text))).bind Base64.urlsafeDecode = some key

/-- The credentials come from one of two settings while the other is unset.  A file that is
named by the empty path keeps a process from its development document. -/
inductive CredentialSource (system : FileSystem) (settings : CredentialSettings)
    (credentials : List LoadedCredential) : Prop
  | development {payload : PyStr} (hfile : settings.credentialsFile = none)
      (hpayload : settings.developmentJson = some payload)
      (hdocument : IsDocument payload credentials)
  | file {path : PyStr} {payload : Bytes} {text : String}
      (hfile : settings.credentialsFile = some path)
      (hpayload : isSet settings.developmentJson = false)
      (hread : readProtectedBootstrapFile system path maximumCredentialFileBytes = .ok payload)
      (htext : decodeUtf8 payload = some text) (hdocument : IsDocument (codes text) credentials)

/-- A public file that stays as it is under the read, whose whole content is a document with the
declaration of the provider. -/
def Controlled (codec : ControlCodec) (opened : PyStr → Option ControlFile)
    (environment : Environment) (admitted : codec.Configuration) : Prop :=
  ∃ path file content, environment controlConfigurationEnvironment = some path ∧
    ControlPath path ∧ opened path = some file ∧ PublicFile codec file content ∧
    codec.decodeBytes content = some admitted ∧
    codec.declaration admitted = codec.secretsDeclaration

/-- What a process needs to be configured, and what it is configured with. -/
structure Configured {suite : CryptoSuite} {codec : ControlCodec} (launch : Launch suite codec)
    (settings : Settings codec) : Prop where
  database : isSet (launch.environment "CPK_SECRETS_DATABASE_PATH") = true
  control : Controlled codec launch.controlFiles launch.environment settings.control
  installs : launch.installs settings.control = true
  key : KeyFile launch.files (launch.environment "CPK_SECRETS_MASTER_KEY_FILE") settings.master.key
  version : settings.master.version = "local"
  credentials :
    CredentialSource launch.files (credentialSettings launch.environment) settings.credentials
  providerId : settings.providerId =
    (launch.environment "CPK_SECRETS_PROVIDER_ID").getD (codes "local-dev-provider")

theorem decodeUtf8_encodeUtf8 (text : String) : decodeUtf8 (encodeUtf8 text) = some text := by
  rw [decodeUtf8, encodeUtf8, Array.toArray_toList, String.fromUTF8?]
  exact dif_pos text.isValidUTF8

theorem readProtectedBootstrapFile_nil (system : FileSystem) (maximumBytes : Nat) :
    readProtectedBootstrapFile system [] maximumBytes = .error .protectedBootstrapFileError :=
  if_pos (.inl rfl)

theorem loadMasterKeyFromEnvironment_eq_ok {system : FileSystem} {environment : Environment}
    {name version : String} {master : MasterKey} :
    loadMasterKeyFromEnvironment system environment name version = .ok master ↔
      KeyFile system (environment name) master.key ∧ master.version = version := by
  rw [loadMasterKeyFromEnvironment]
  constructor
  · intro hload
    split at hload
    · cases hload
    · cases hload
    next path _ hpath =>
    split at hload
    · cases hload
    · cases hload
    next payload hread =>
    split at hload
    · cases hload
    next text htext =>
    obtain ⟨hversion, hlength, hdecode⟩ :=
      masterKeyFromEncoded_eq_ok.mp (mapError_eq_ok.mp hload)
    exact ⟨⟨hlength, path, payload, text, hpath, hread, htext, hdecode⟩, hversion⟩
  · rintro ⟨⟨hlength, path, payload, text, hpath, hread, htext, hdecode⟩, hversion⟩
    cases path with
    | nil =>
        rw [readProtectedBootstrapFile_nil] at hread
        cases hread
    | cons code path =>
        rw [hpath]
        dsimp only
        rw [hread]
        dsimp only
        rw [htext]
        exact mapError_eq_ok.mpr (masterKeyFromEncoded_eq_ok.mpr ⟨hversion, hlength, hdecode⟩)

/-- What is written for a key, in a protected file and with any spaces around it, is its file. -/
theorem KeyFile.written {system : FileSystem} {path : PyStr} {file : OpenedFile} {text : String}
    {key : Bytes} (hpath : isAbsolute path = true) (hopen : system path = some file)
    (hfile : Protected file (encodeUtf8 text))
    (hbounded : (encodeUtf8 text).length ≤ maximumMasterKeyFileBytes)
    (hencode : encodeMasterKeyForFile key = .ok (Words.trim Words.isSpaceCode (codes text))) :
    KeyFile system (some path) key := by
  have hmaster := masterKeyFromEncoded_eq_ok.mp (masterKeyFromEncoded_encode "local" hencode)
  obtain ⟨_, hlength, hdecode⟩ := hmaster
  refine ⟨hlength, path, encodeUtf8 text, text, rfl, ?_, decodeUtf8_encodeUtf8 text, hdecode⟩
  have hempty : encodeUtf8 text ≠ [] := by
    intro hnil
    have htext : text = "" := encodeUtf8_injective hnil
    rw [htext] at hdecode
    have hkey : key = [] := (Option.some.inj hdecode).symm
    rw [hkey] at hlength
    cases hlength
  rw [readProtectedBootstrapFile, hopen, hpath, if_neg (by decide)]
  dsimp only
  rw [hfile.closes, if_neg (by decide), readOpened_eq_ok hfile hempty hbounded]
  rfl

theorem loadProviderCredentials_eq_ok {system : FileSystem} {settings : CredentialSettings}
    {credentials : List LoadedCredential} :
    loadProviderCredentials system settings = .ok credentials ↔
      CredentialSource system settings credentials := by
  obtain ⟨credentialsFile, developmentJson⟩ := settings
  cases credentialsFile with
  | none =>
      cases developmentJson with
      | none =>
          constructor
          · intro hload
            cases hload
          · rintro (⟨_, ⟨⟩, _⟩ | ⟨⟨⟩, _⟩)
      | some payload =>
          rw [loadProviderCredentials_development, credentialsFromJson_eq_ok]
          constructor
          · exact fun hdocument => .development rfl rfl hdocument
          · rintro (⟨_, ⟨⟩, hdocument⟩ | ⟨⟨⟩, _⟩)
            exact hdocument
  | some path =>
      rw [loadProviderCredentials]
      constructor
      · intro hload
        split at hload
        · cases hload
        next hone =>
        dsimp only at hload
        rw [credentialsFromFile] at hload
        split at hload
        · cases hload
        · cases hload
        next payload hread =>
        split at hload
        · cases hload
        next text htext =>
        have hset : isSet (some path) = true := by
          cases path with
          | nil =>
              rw [readProtectedBootstrapFile_nil] at hread
              cases hread
          | cons code path => rfl
        rw [hset] at hone
        refine .file rfl ?_ hread htext (credentialsFromJson_eq_ok.mp hload)
        exact Bool.eq_false_iff.mpr fun hdevelopment => hone hdevelopment.symm
      · rintro (⟨⟨⟩, _⟩ | ⟨⟨⟩, hpayload, hread, htext, hdocument⟩)
        have hset : isSet (some path) = true := by
          cases path with
          | nil =>
              rw [readProtectedBootstrapFile_nil] at hread
              cases hread
          | cons code path => rfl
        rw [if_neg (by rw [hset, hpayload]; decide)]
        dsimp only
        rw [credentialsFromFile, hread]
        dsimp only
        rw [htext]
        exact credentialsFromJson_eq_ok.mpr hdocument

section

variable {suite : CryptoSuite} {codec : ControlCodec} {launch : Launch suite codec}
  {settings : Settings codec} {app : App codec}

/-- A process is configured exactly from its files, and `create_app` admits the control
configuration again as it is. -/
theorem configure_eq_ok (hlawful : codec.Lawful) :
    launch.configure = .ok settings ↔ Configured launch settings := by
  have hcontrolled : ∀ {admitted}, readSecretsControlConfiguration codec launch.controlFiles
      launch.environment = .ok admitted ↔
        Controlled codec launch.controlFiles launch.environment admitted :=
    readSecretsControlConfiguration_eq_ok hlawful
  have hagain : ∀ {control}, Controlled codec launch.controlFiles launch.environment control →
      ∀ {admitted}, requireSecretsControlConfiguration codec control = .ok admitted ↔
        admitted = control := by
    rintro control ⟨_, _, content, _, _, _, _, hdecoded, hdeclares⟩ admitted
    rw [requireSecretsControlConfiguration_eq_ok, Admissible.of_decoded hlawful hdecoded]
    exact and_iff_left hdeclares
  rw [Launch.configure]
  constructor
  · intro hconfigure
    split at hconfigure
    · cases hconfigure
    next hdatabase =>
    obtain ⟨control, hread, hchecks⟩ := bind_eq_ok.mp hconfigure
    obtain ⟨admitted, hrequire, hinstall⟩ := bind_eq_ok.mp hchecks
    have hcontrol := hcontrolled.mp (mapError_eq_ok.mp hread)
    rw [(hagain hcontrol).mp (mapError_eq_ok.mp hrequire)] at hinstall
    by_cases hinstalls : launch.installs control = false
    · rw [if_pos hinstalls] at hinstall
      cases hinstall
    rw [if_neg hinstalls] at hinstall
    obtain ⟨master, hmaster, hload⟩ := bind_eq_ok.mp hinstall
    obtain ⟨credentials, hcredentials, hprovides⟩ := bind_eq_ok.mp hload
    obtain ⟨hkey, hversion⟩ :=
      loadMasterKeyFromEnvironment_eq_ok.mp (mapError_eq_ok.mp hmaster)
    have hsource := loadProviderCredentials_eq_ok.mp (mapError_eq_ok.mp (mapError_eq_ok.mp
      hcredentials))
    cases hprovides
    exact ⟨Decidable.not_not.mp hdatabase, hcontrol, Bool.of_not_eq_false hinstalls, hkey,
      hversion, hsource, rfl⟩
  · intro hconfigured
    have hmaster := loadMasterKeyFromEnvironment_eq_ok.mpr ⟨hconfigured.key, hconfigured.version⟩
    rw [if_neg (not_not.mpr hconfigured.database)]
    refine bind_eq_ok.mpr ⟨_, mapError_eq_ok.mpr (hcontrolled.mpr hconfigured.control), ?_⟩
    refine bind_eq_ok.mpr ⟨_, mapError_eq_ok.mpr ((hagain hconfigured.control).mpr rfl), ?_⟩
    rw [if_neg (by rw [hconfigured.installs]; decide)]
    refine bind_eq_ok.mpr ⟨_, mapError_eq_ok.mpr hmaster, ?_⟩
    refine bind_eq_ok.mpr ⟨_, mapError_eq_ok.mpr (mapError_eq_ok.mpr
      (loadProviderCredentials_eq_ok.mpr hconfigured.credentials)), ?_⟩
    rw [← hconfigured.providerId]
    rfl

/-- Every file the system opens also closes. -/
def Closing (system : FileSystem) : Prop :=
  ∀ path file, system path = some file → file.closes = true

theorem loadMasterKeyFromEnvironment_eq_error {system : FileSystem} (hcloses : Closing system)
    {environment : Environment} {name version : String} {raised : StartRaised}
    (hraised : loadMasterKeyFromEnvironment system environment name version = .error raised) :
    ∃ message, raised = .secretCryptoError message := by
  rw [loadMasterKeyFromEnvironment] at hraised
  split at hraised
  · cases hraised
    exact ⟨_, rfl⟩
  · cases hraised
    exact ⟨_, rfl⟩
  next path _ _ =>
  split at hraised
  · cases hraised
    exact ⟨_, rfl⟩
  · next found hother hread =>
      exact absurd (readProtectedBootstrapFile_eq_error (hcloses path) hread) hother
  split at hraised
  · cases hraised
    exact ⟨_, rfl⟩
  obtain ⟨⟨message⟩, _, hchange⟩ := mapError_eq_error.mp hraised
  exact ⟨message, hchange.symm⟩

/-- What the key or the credentials raise does not leave the process. -/
theorem configure_eq_error (hcloses : Closing launch.files) {raised : StartRaised}
    (hraised : launch.configure = .error raised) :
    raised = .providerConfigurationError ∨ raised = .secretsControlConfigurationError ∨
      raised = .wrapper := by
  rw [Launch.configure] at hraised
  split at hraised
  · cases hraised
    exact .inl rfl
  rcases bind_eq_error.mp hraised with hread | ⟨_, _, hraised⟩
  · obtain ⟨_, _, hchange⟩ := mapError_eq_error.mp hread
    exact .inr (.inl hchange.symm)
  rcases bind_eq_error.mp hraised with hrequire | ⟨control, _, hraised⟩
  · obtain ⟨_, _, hchange⟩ := mapError_eq_error.mp hrequire
    exact .inr (.inl hchange.symm)
  by_cases hinstalls : launch.installs control = false
  · rw [if_pos hinstalls] at hraised
    cases hraised
    exact .inr (.inr rfl)
  rw [if_neg hinstalls] at hraised
  rcases bind_eq_error.mp hraised with hmaster | ⟨_, _, hraised⟩
  · obtain ⟨found, hload, hchange⟩ := mapError_eq_error.mp hmaster
    obtain ⟨message, rfl⟩ := loadMasterKeyFromEnvironment_eq_error hcloses hload
    exact .inl hchange.symm
  rcases bind_eq_error.mp hraised with hcredentials | ⟨_, _, hraised⟩
  · obtain ⟨found, hfound, hchange⟩ := mapError_eq_error.mp hcredentials
    obtain ⟨inner, hload, hinner⟩ := mapError_eq_error.mp hfound
    rw [loadProviderCredentials_eq_error hcloses hload] at hinner
    subst hinner
    exact .inl hchange.symm
  cases hraised

theorem app_eq_some : launch.app = some app ↔
    ∃ settings, launch.configure = .ok settings ∧ settings.app = some app := by
  rw [Launch.app]
  cases launch.configure with
  | error raised => simp [Except.toOption]
  | ok settings => simp [Except.toOption]

/-- With a provider id that SQLite does not take a process is not admitted. -/
theorem admitUnencodable_ends {α : Type} {path : DatabasePath} {master : MasterKey}
    {providerId : PyStr} {env : Env suite} {db : Database} :
    Ends (admitUnencodable path master providerId env : Tx Database α) db []
      (fun _ _ _ => False) (fun _ db' _ => db' = db) := by
  apply ends_mapRaised
  apply Ends.bind
  refine ends_ofExcept ?_ fun _ _ => rfl
  intro _ _
  apply ends_withConnection
  refine Ends.bind (ends_statement ?_ fun _ _ => rfl)
  refine ends_statement ?_ fun _ _ => rfl
  refine Ends.bind (ends_statement ?_ fun _ _ => rfl)
  refine Ends.bind (ends_query ?_ fun _ _ => rfl)
  split
  · refine Ends.bind (initializeInTransaction_ends.mono ?_ fun _ _ _ _ => rfl)
    rintro _ db₁ _ _
    refine Ends.bind (initializeInTransaction_ends.mono ?_ fun _ _ _ _ => rfl)
    rintro _ db₂ _ _
    refine Ends.bind (ends_execute ?_ (fun _ _ => rfl) fun _ _ => rfl)
    intro db₃ _
    refine Ends.bind (ends_urandom ?_)
    refine Ends.bind (ends_ofExcept ?_ fun _ _ => rfl)
    intro _ _
    exact ends_throw rfl
  · refine Ends.bind (ends_query ?_ fun _ _ => rfl)
    refine Ends.bind (ends_raiseIf (fun _ => rfl) fun _ => ?_)
    refine Ends.bind (ends_query ?_ fun _ _ => rfl)
    exact ends_throw rfl

/-- A process with such a provider id does not come up, and leaves the database as it was. -/
theorem start_unencodable (db : Database) (hconfigure : launch.configure = .ok settings)
    (happ : settings.app = none) :
    ∃ raised, launch.start db = (.error (.custody raised), db) := by
  rw [Launch.start, hconfigure]
  dsimp only
  rw [Launch.enter, happ]
  dsimp only
  have hends := @admitUnencodable_ends suite (App codec) launch.path settings.master
    settings.providerId launch.env db 0
  unfold Exits at hends
  split at hends
  · exact hends.elim
  · next raised finish hrun =>
      rw [hrun]
      exact ⟨raised, congrArg (Prod.mk _) hends⟩

/-- A process with another starts as its admission ends. -/
theorem start_app {db : Database} (hconfigure : launch.configure = .ok settings)
    (happ : settings.app = some app) :
    launch.start db =
      ((act db (.admitCustody (launch.admission app))).1.result.map (fun _ => app) |>.mapError
        StartRaised.custody, (act db (.admitCustody (launch.admission app))).2) := by
  rw [Launch.start, hconfigure]
  dsimp only
  rw [Launch.enter, happ]
  dsimp only
  rw [act, runOn]
  simp only [EStateM.run, bind, EStateM.bind, pure, EStateM.pure]
  cases admitProviderCustody (launch.admission app) ⟨db, 0, []⟩ <;> rfl

theorem start_eq_ok {db db' : Database} :
    launch.start db = (.ok app, db') ↔
      launch.app = some app ∧
        (act db (.admitCustody (launch.admission app))).1.result = .ok () ∧
        (act db (.admitCustody (launch.admission app))).2 = db' := by
  rw [app_eq_some]
  cases hconfigure : launch.configure with
  | error raised =>
      rw [Launch.start, hconfigure]
      simp
  | ok settings =>
      cases happ : settings.app with
      | none =>
          obtain ⟨raised, hstart⟩ := start_unencodable db hconfigure happ
          rw [hstart]
          simp [happ]
      | some found =>
          rw [start_app hconfigure happ, Prod.mk.injEq, mapError_eq_ok, map_eq_ok]
          constructor
          · rintro ⟨⟨_, hresult, rfl⟩, hdb⟩
            exact ⟨⟨settings, rfl, happ⟩, hresult, hdb⟩
          · rintro ⟨⟨_, ⟨⟩, hsame⟩, hresult, hdb⟩
            rw [happ] at hsame
            cases hsame
            exact ⟨⟨(), hresult, rfl⟩, hdb⟩

/-- A start that is refused leaves the database as it was. -/
theorem start_refused {db : Database} {raised : StartRaised}
    (hstart : (launch.start db).1 = .error raised) : (launch.start db).2 = db := by
  cases hconfigure : launch.configure with
  | error found => rw [Launch.start, hconfigure]
  | ok settings =>
      cases happ : settings.app with
      | none =>
          obtain ⟨raised, hunencodable⟩ := start_unencodable db hconfigure happ
          rw [hunencodable]
      | some app =>
          rw [start_app hconfigure happ] at hstart ⊢
          rcases admit_cases db (launch.admission app) with ⟨hresult, _⟩ | ⟨_, _, _, hsame⟩
          · rw [hresult] at hstart
            cases hstart
          · exact hsame

end

/-- How a process starts. -/
structure StartExact (suite : CryptoSuite) (codec : ControlCodec) : Prop where
  /-- It is configured exactly from its settings and the files they name. -/
  configures : ∀ (launch : Launch suite codec) settings,
    launch.configure = .ok settings ↔ Configured launch settings
  /-- The file that is written for a key is a file of that key. -/
  written : ∀ system path (file : OpenedFile) text key, isAbsolute path = true →
    system path = some file → Protected file (encodeUtf8 text) →
      (encodeUtf8 text).length ≤ maximumMasterKeyFileBytes →
        encodeMasterKeyForFile key = .ok (Words.trim Words.isSpaceCode (codes text)) →
          KeyFile system (some path) key
  /-- While files close, what raises says nothing of the key and the credentials. -/
  raises : ∀ (launch : Launch suite codec) raised, Closing launch.files →
    launch.configure = .error raised →
      raised = .providerConfigurationError ∨ raised = .secretsControlConfigurationError ∨
        raised = .wrapper
  /-- What comes up is configured, and has the database in its custody. -/
  comesUp : ∀ (launch : Launch suite codec) db app db', launch.start db = (.ok app, db') →
    (∃ settings, Configured launch settings ∧ settings.app = some app) ∧
      InCustody suite db' app.master app.providerId ∧ (observedSchema db.schema ≠ [] → db' = db)
  /-- What is refused leaves the database as it was. -/
  refused : ∀ (launch : Launch suite codec) db raised,
    (launch.start db).1 = .error raised → (launch.start db).2 = db
  /-- With a provider id that SQLite does not take nothing comes up. -/
  unencodable : ∀ (launch : Launch suite codec) settings db, Configured launch settings →
    settings.app = none → ∃ raised, launch.start db = (.error (.custody raised), db)

theorem start_exact {codec : ControlCodec} (hlawful : codec.Lawful) (suite : CryptoSuite) :
    StartExact suite codec where
  configures := fun _ _ => configure_eq_ok hlawful
  written := fun _ _ _ _ _ hpath hopen hfile hbounded hencode =>
    KeyFile.written hpath hopen hfile hbounded hencode
  raises := fun _ _ hcloses hraised => configure_eq_error hcloses hraised
  comesUp := by
    intro launch db app db' hstart
    obtain ⟨happ, hresult, hdb⟩ := start_eq_ok.mp hstart
    obtain ⟨settings, hconfigure, hserves⟩ := app_eq_some.mp happ
    rcases admit_cases db (launch.admission app) with ⟨_, hadmitted⟩ | ⟨_, herror, _⟩
    · rw [hdb] at hadmitted
      exact ⟨⟨settings, (configure_eq_ok hlawful).mp hconfigure, hserves⟩, hadmitted.inCustody,
        fun hobserved => (hadmitted.kept hobserved).1⟩
    · rw [hresult] at herror
      cases herror
  refused := fun _ _ _ hstart => start_refused hstart
  unencodable := fun _ _ _ hconfigured happ =>
    start_unencodable _ ((configure_eq_ok hlawful).mpr hconfigured) happ

theorem start_exact_byte : StartExact transparentSuite byteCodec :=
  start_exact byteCodec_lawful transparentSuite

end SecretsCustody
