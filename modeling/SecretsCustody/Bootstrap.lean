/-
The credential document of a provider: the protected file it is read from, and
the JSON it must be.  A document is accepted exactly when it is one of its
grammar, and then as it reads.
-/
import SecretsCustody.Auth

namespace SecretsCustody

open Effect JsonText

/-! ### Documents -/

/-- A grant as a document gives it.  Its texts can hold the unpaired surrogates of the
document's escapes. -/
structure LoadedGrant where
  action : PyStr
  workspaceId : PyStr
  intents : List PyStr

structure LoadedCredential where
  subject : PyStr
  token : PyStr
  grants : List LoadedGrant

/-- What the loaders raise. -/
inductive BootstrapRaised where
  | valueError
  | keyError
  | unicodeEncodeError
  | unicodeDecodeError
  | osError
  | protectedBootstrapFileError
  | providerConfigurationError
  deriving DecidableEq

def maximumCredentialFileBytes : Nat := 64 * 1024

mutual

/-- `_unique_object` on every object of a value: no key is there twice. -/
def uniqueObjects : Json → Bool
  | .arr items => uniqueItems items
  | .obj entries => (entries.map Prod.fst).Nodup && uniqueEntries entries
  | _ => true

def uniqueItems : List Json → Bool
  | [] => true
  | item :: items => uniqueObjects item && uniqueItems items

def uniqueEntries : List (PyStr × Json) → Bool
  | [] => true
  | (_, value) :: entries => uniqueObjects value && uniqueEntries entries

end

/-- `json.loads(payload, object_pairs_hook=_unique_object)`. -/
def loadsUnique (payload : String) : Except BootstrapRaised Json :=
  match parse payload.toList with
  | none => .error .valueError
  | some decoded => if uniqueObjects decoded then .ok decoded else .error .valueError

/-- A C0 control or DEL. -/
def isControl (code : Nat) : Bool :=
  code < 0x20 || code = 0x7F

/-- `_text`. -/
def requireText : Json → Except BootstrapRaised PyStr
  | .str text =>
      if Words.trim Words.isSpaceCode text = [] then .error .valueError
      else if text.any isControl then .error .valueError
      else .ok text
  | _ => .error .valueError

/-- `item[key]`. -/
def requireItem (entries : List (PyStr × Json)) (key : String) : Except BootstrapRaised Json :=
  match entries.lookup (codes key) with
  | none => .error .keyError
  | some value => .ok value

/-- `item.keys() - {…}`, which must be empty. -/
def requireKeys (entries : List (PyStr × Json)) (keys : List String) :
    Except BootstrapRaised Unit :=
  if ∀ entry ∈ entries, entry.1 ∈ keys.map codes then .ok () else .error .valueError

/-- `item.get(key, default)`, which must be a list. -/
def listItem (entries : List (PyStr × Json)) (key : String) (default : List Json) :
    Except BootstrapRaised (List Json) :=
  match entries.lookup (codes key) with
  | none => .ok default
  | some (.arr items) => .ok items
  | some _ => .error .valueError

/-- `_grant_from_mapping`. -/
def grantFromMapping : Json → Except BootstrapRaised LoadedGrant
  | .obj entries => do
      requireKeys entries ["action", "workspace_id", "intents"]
      let intents ← listItem entries "intents" [.str (codes "*")]
      let action ← requireText (← requireItem entries "action")
      let workspaceId ← requireText (← requireItem entries "workspace_id")
      let intents ← intents.mapM requireText
      return { action := action, workspaceId := workspaceId, intents := intents }
  | _ => .error .valueError

/-- `not token.isascii() or token != token.strip()`, which must not hold. -/
def requireToken (token : PyStr) : Except BootstrapRaised Unit :=
  if (∀ code ∈ token, code < 128) ∧ token = Words.trim Words.isSpaceCode token then .ok ()
  else .error .valueError

/-- `_credential_from_mapping`. -/
def credentialFromMapping : Json → Except BootstrapRaised LoadedCredential
  | .obj entries => do
      requireKeys entries ["subject", "token", "grants"]
      let grants ← listItem entries "grants" []
      let token ← requireText (← requireItem entries "token")
      requireToken token
      let subject ← requireText (← requireItem entries "subject")
      let grants ← grants.mapM grantFromMapping
      return { subject := subject, token := token, grants := grants }
  | _ => .error .valueError

/-- The body of the `try` of `_credentials_from_json`. -/
def parseCredentials (payload : PyStr) : Except BootstrapRaised (List LoadedCredential) := do
  match scalarText payload with
  | none => .error .unicodeEncodeError
  | some text =>
      if (encodeUtf8 text).length > maximumCredentialFileBytes then .error .valueError
      else
        match ← loadsUnique text with
        | .arr items =>
            let credentials ← items.mapM credentialFromMapping
            if (credentials.map LoadedCredential.token).Nodup then return credentials
            else .error .valueError
        | _ => .error .valueError

/-- `_credentials_from_json`; every exception becomes a `ProviderConfigurationError`. -/
def credentialsFromJson (payload : PyStr) : Except BootstrapRaised (List LoadedCredential) :=
  (parseCredentials payload).mapError fun _ => .providerConfigurationError

/-! ### Sources -/

/-- What the system shows of an opened file: what `fstat` says of it, its bytes, how many of
them a read at a position can get at once unless it raises, and whether it closes. -/
structure OpenedFile where
  regular : Bool
  mode : Nat
  size : Nat
  content : Bytes
  available : Nat → Option Nat
  closes : Bool

/-- `os.open` by path; `none` is an exception. -/
abbrev FileSystem := PyStr → Option OpenedFile

/-- `os.read(descriptor, remaining)` at a position. -/
def OpenedFile.read (file : OpenedFile) (position remaining : Nat) : Except BootstrapRaised Bytes :=
  match file.available position with
  | none => .error .osError
  | some count => .ok ((file.content.drop position).take (min remaining (max 1 count)))

/-- The loop of `read_protected_bootstrap_file`. -/
def readChunks (file : OpenedFile) (position remaining : Nat) : Except BootstrapRaised Bytes :=
  if remaining = 0 then .ok []
  else
    match file.read position remaining with
    | .error raised => .error raised
    | .ok chunk =>
        if hempty : chunk = [] then .ok []
        else do
          let rest ← readChunks file (position + chunk.length) (remaining - chunk.length)
          return chunk ++ rest
termination_by remaining
decreasing_by
  have hlength : 0 < chunk.length := List.length_pos_iff.mpr hempty
  omega

/-- `fstat` describes a regular file of its owner alone, within the bound. -/
def OpenedFile.Admitted (file : OpenedFile) (maximumBytes : Nat) : Prop :=
  file.regular = true ∧ file.mode &&& 0o077 = 0 ∧ 0 < file.size ∧ file.size ≤ maximumBytes

instance (file : OpenedFile) (maximumBytes : Nat) : Decidable (file.Admitted maximumBytes) :=
  inferInstanceAs (Decidable (_ ∧ _))

/-- `Path(path).is_absolute()`. -/
def isAbsolute (path : PyStr) : Bool :=
  path.head? = some 0x2F

/-- What `read_protected_bootstrap_file` does with an opened file before it closes it. -/
def readOpened (file : OpenedFile) (maximumBytes : Nat) : Except BootstrapRaised Bytes := do
  if ¬ file.Admitted maximumBytes then .error .valueError
  else
    let payload ← readChunks file 0 (maximumBytes + 1)
    if payload.length ≠ file.size then .error .valueError else return payload

/-- `read_protected_bootstrap_file`: every exception but that of `os.close` becomes a
`ProtectedBootstrapFileError`. -/
def readProtectedBootstrapFile (system : FileSystem) (path : PyStr) (maximumBytes : Nat) :
    Except BootstrapRaised Bytes :=
  if isAbsolute path = false ∨ maximumBytes < 1 then .error .protectedBootstrapFileError
  else
    match system path with
    | none => .error .protectedBootstrapFileError
    | some file =>
        if file.closes = false then .error .osError
        else (readOpened file maximumBytes).mapError fun _ => .protectedBootstrapFileError

/-- `data.decode("utf-8")`. -/
def decodeUtf8 (data : Bytes) : Option String :=
  String.fromUTF8? ⟨data.toArray⟩

/-- `_credentials_from_file`. -/
def credentialsFromFile (system : FileSystem) (path : PyStr) :
    Except BootstrapRaised (List LoadedCredential) :=
  match readProtectedBootstrapFile system path maximumCredentialFileBytes with
  | .error .protectedBootstrapFileError => .error .providerConfigurationError
  | .error raised => .error raised
  | .ok payload =>
      match decodeUtf8 payload with
      | none => .error .providerConfigurationError
      | some text => credentialsFromJson (codes text)

/-- The two settings `load_provider_credentials` looks up. -/
structure CredentialSettings where
  credentialsFile : Option PyStr
  developmentJson : Option PyStr

/-- `bool(setting)`. -/
def isSet (setting : Option PyStr) : Bool :=
  setting.getD [] ≠ []

/-- `load_provider_credentials`. -/
def loadProviderCredentials (system : FileSystem) (settings : CredentialSettings) :
    Except BootstrapRaised (List LoadedCredential) :=
  if isSet settings.credentialsFile = isSet settings.developmentJson then
    .error .providerConfigurationError
  else
    match settings.credentialsFile, settings.developmentJson with
    | some path, _ => credentialsFromFile system path
    | none, some payload => credentialsFromJson payload
    | none, none => .error .providerConfigurationError

/-! ### The grammar -/

/-- One value is a part of another, or is it. -/
inductive Within (found : Json) : Json → Prop
  | whole : Within found found
  | item {items : List Json} {item : Json} (hitem : item ∈ items) (hwithin : Within found item) :
      Within found (.arr items)
  | entry {entries : List (PyStr × Json)} {entry : PyStr × Json} (hentry : entry ∈ entries)
      (hwithin : Within found entry.2) : Within found (.obj entries)

/-- No object at any depth repeats a key. -/
def NoRepeats (value : Json) : Prop :=
  ∀ entries, Within (.obj entries) value → (entries.map Prod.fst).Nodup

/-- A text that shows something and holds no control character. -/
structure IsText (value : Json) (text : PyStr) : Prop where
  value : value = .str text
  visible : ∃ code ∈ text, Words.isSpaceCode code = false
  plain : ∀ code ∈ text, 0x20 ≤ code ∧ code ≠ 0x7F

/-- A field that must be there. -/
def Field {α : Type} (entries : List (PyStr × Json)) (key : String) (is : Json → α → Prop)
    (value : α) : Prop :=
  ∃ found, entries.lookup (codes key) = some found ∧ is found value

/-- A field that is a list when it is there. -/
inductive ListField {α : Type} (is : Json → α → Prop) (default : List α) :
    Option Json → List α → Prop
  | absent : ListField is default none default
  | present {items : List Json} {values : List α} (hitems : List.Forall₂ is items values) :
      ListField is default (some (.arr items)) values

structure IsGrant (entries : List (PyStr × Json)) (grant : LoadedGrant) : Prop where
  keys : ∀ entry ∈ entries, entry.1 ∈ ["action", "workspace_id", "intents"].map codes
  action : Field entries "action" IsText grant.action
  workspaceId : Field entries "workspace_id" IsText grant.workspaceId
  intents : ListField IsText [codes "*"] (entries.lookup (codes "intents")) grant.intents

structure IsCredential (entries : List (PyStr × Json)) (credential : LoadedCredential) : Prop where
  keys : ∀ entry ∈ entries, entry.1 ∈ ["subject", "token", "grants"].map codes
  subject : Field entries "subject" IsText credential.subject
  token : Field entries "token" IsText credential.token
  ascii : ∀ code ∈ credential.token, code < 128
  starts : ∀ code ∈ credential.token.head?, Words.isSpaceCode code = false
  ends : ∀ code ∈ credential.token.getLast?, Words.isSpaceCode code = false
  grants : ListField (fun value grant => ∃ entries, value = .obj entries ∧ IsGrant entries grant) []
    (entries.lookup (codes "grants")) credential.grants

/-- The payload is a document, and the credentials are what it lists. -/
structure IsDocument (payload : PyStr) (credentials : List LoadedCredential) : Prop where
  document : ∃ text items, scalarText payload = some text ∧
    (encodeUtf8 text).length ≤ 65536 ∧ parse text.toList = some (.arr items) ∧
    NoRepeats (.arr items) ∧
    List.Forall₂ (fun value credential => ∃ entries, value = .obj entries ∧
      IsCredential entries credential) items credentials
  distinct : (credentials.map LoadedCredential.token).Nodup

/-! ### Repeated keys -/

theorem noRepeats_arr {items : List Json} :
    NoRepeats (.arr items) ↔ ∀ item ∈ items, NoRepeats item := by
  constructor
  · intro hnone item hitem entries hwithin
    exact hnone entries (.item hitem hwithin)
  · intro hitems entries hwithin
    cases hwithin with
    | item hitem hwithin => exact hitems _ hitem entries hwithin

theorem noRepeats_obj {entries : List (PyStr × Json)} :
    NoRepeats (.obj entries) ↔
      (entries.map Prod.fst).Nodup ∧ ∀ entry ∈ entries, NoRepeats entry.2 := by
  constructor
  · intro hnone
    refine ⟨hnone entries .whole, ?_⟩
    intro entry hentry found hwithin
    exact hnone found (.entry hentry hwithin)
  · rintro ⟨hnodup, hentries⟩ found hwithin
    cases hwithin with
    | whole => exact hnodup
    | entry hentry hwithin => exact hentries _ hentry found hwithin

theorem uniqueObjects_atom {value : Json} (hunique : uniqueObjects value = true)
    (hatom : ∀ entries, ¬ Within (.obj entries) value) :
    uniqueObjects value = true ↔ NoRepeats value :=
  iff_of_true hunique fun entries hwithin => absurd hwithin (hatom entries)

mutual

theorem uniqueObjects_iff : ∀ value : Json, uniqueObjects value = true ↔ NoRepeats value
  | .arr items => by
      rw [uniqueObjects, noRepeats_arr]
      exact uniqueItems_iff items
  | .obj entries => by
      rw [uniqueObjects, noRepeats_obj, Bool.and_eq_true, decide_eq_true_eq]
      exact and_congr_right fun _ => uniqueEntries_iff entries
  | .null => uniqueObjects_atom rfl fun _ hwithin => nomatch hwithin
  | .bool _ => uniqueObjects_atom rfl fun _ hwithin => nomatch hwithin
  | .int _ => uniqueObjects_atom rfl fun _ hwithin => nomatch hwithin
  | .float _ => uniqueObjects_atom rfl fun _ hwithin => nomatch hwithin
  | .str _ => uniqueObjects_atom rfl fun _ hwithin => nomatch hwithin

theorem uniqueItems_iff : ∀ items : List Json,
    uniqueItems items = true ↔ ∀ item ∈ items, NoRepeats item
  | [] => by simp [uniqueItems]
  | item :: items => by
      rw [uniqueItems, Bool.and_eq_true, uniqueObjects_iff item, uniqueItems_iff items,
        List.forall_mem_cons]

theorem uniqueEntries_iff : ∀ entries : List (PyStr × Json),
    uniqueEntries entries = true ↔ ∀ entry ∈ entries, NoRepeats entry.2
  | [] => by simp [uniqueEntries]
  | (key, value) :: entries => by
      rw [uniqueEntries, Bool.and_eq_true, uniqueObjects_iff value, uniqueEntries_iff entries,
        List.forall_mem_cons]

end

theorem loadsUnique_eq_ok {payload : String} {decoded : Json} :
    loadsUnique payload = .ok decoded ↔ parse payload.toList = some decoded ∧ NoRepeats decoded := by
  rw [← uniqueObjects_iff, loadsUnique]
  cases parse payload.toList with
  | none => simp
  | some found =>
      dsimp only
      by_cases hunique : uniqueObjects found = true
      · rw [if_pos hunique]
        constructor
        · rintro ⟨⟩
          exact ⟨rfl, hunique⟩
        · rintro ⟨⟨⟩, _⟩
          rfl
      · rw [if_neg hunique]
        constructor
        · rintro ⟨⟩
        · rintro ⟨⟨⟩, hdecoded⟩
          exact absurd hdecoded hunique

/-! ### Fields -/

theorem isControl_eq_false {code : Nat} : isControl code = false ↔ 0x20 ≤ code ∧ code ≠ 0x7F := by
  simp [isControl]

/-- `_text` returns the texts of the grammar, as they are. -/
theorem requireText_eq_ok {value : Json} {text : PyStr} :
    requireText value = .ok text ↔ IsText value text := by
  constructor
  · intro htext
    cases value with
    | str found =>
        rw [requireText] at htext
        by_cases hblank : Words.trim Words.isSpaceCode found = []
        · rw [if_pos hblank] at htext
          cases htext
        · rw [if_neg hblank] at htext
          by_cases hcontrol : found.any isControl = true
          · rw [if_pos hcontrol] at htext
            cases htext
          · rw [if_neg hcontrol] at htext
            cases htext
            rw [Words.trim_eq_nil_iff] at hblank
            push Not at hblank
            obtain ⟨code, hcode, hshown⟩ := hblank
            refine ⟨rfl, ⟨code, hcode, Bool.eq_false_iff.mpr hshown⟩, ?_⟩
            intro code hcode
            rw [List.any_eq_true] at hcontrol
            push Not at hcontrol
            exact isControl_eq_false.mp (Bool.eq_false_iff.mpr (hcontrol code hcode))
    | null => cases htext
    | bool value => cases htext
    | int value => cases htext
    | float literal => cases htext
    | arr items => cases htext
    | obj entries => cases htext
  · rintro ⟨rfl, ⟨code, hcode, hshown⟩, hplain⟩
    have hblank : Words.trim Words.isSpaceCode text ≠ [] := by
      intro hblank
      rw [Words.trim_eq_nil_iff.mp hblank code hcode] at hshown
      cases hshown
    have hcontrol : ¬ text.any isControl = true := by
      rw [List.any_eq_true]
      rintro ⟨found, hfound, hcontrol⟩
      rw [isControl_eq_false.mpr (hplain found hfound)] at hcontrol
      cases hcontrol
    rw [requireText, if_neg hblank, if_neg hcontrol]

theorem requireItem_eq_ok {entries : List (PyStr × Json)} {key : String} {value : Json} :
    requireItem entries key = .ok value ↔ entries.lookup (codes key) = some value := by
  rw [requireItem]
  cases entries.lookup (codes key) with
  | none => simp
  | some found => simp

/-- `_text(item[key])`. -/
theorem textField_eq_ok {entries : List (PyStr × Json)} {key : String} {text : PyStr} :
    (requireItem entries key >>= requireText) = .ok text ↔ Field entries key IsText text := by
  rw [bind_eq_ok, Field]
  simp only [requireItem_eq_ok, requireText_eq_ok]

theorem requireKeys_eq_ok {entries : List (PyStr × Json)} {keys : List String} :
    requireKeys entries keys = .ok () ↔ ∀ entry ∈ entries, entry.1 ∈ keys.map codes := by
  rw [requireKeys]
  split
  · next hkeys => exact iff_of_true rfl hkeys
  · next hkeys => exact iff_of_false (by rintro ⟨⟩) hkeys

/-- A list field whose items are read one by one. -/
theorem listField_eq_ok {α : Type} (standard : List Json) {entries : List (PyStr × Json)}
    {key : String} {read : Json → Except BootstrapRaised α} {is : Json → α → Prop}
    (hread : ∀ value found, read value = .ok found ↔ is value found) {default : List α}
    (hdefault : standard.mapM read = .ok default) {values : List α} :
    (∃ items, listItem entries key standard = .ok items ∧ items.mapM read = .ok values) ↔
      ListField is default (entries.lookup (codes key)) values := by
  have hpresent : ∀ {items : List Json}, items.mapM read = .ok values ↔
      List.Forall₂ is items values := by
    intro items
    rw [mapM_eq_ok]
    simp only [hread]
  rw [listItem]
  constructor
  · rintro ⟨items, hitems, hvalues⟩
    split at hitems
    · next habsent =>
        cases hitems
        rw [hdefault] at hvalues
        cases hvalues
        rw [habsent]
        exact .absent
    · next found hfound =>
        cases hitems
        rw [hfound]
        exact .present (hpresent.mp hvalues)
    · cases hitems
  · intro hfield
    cases hlookup : entries.lookup (codes key) with
    | none =>
        rw [hlookup] at hfield
        cases hfield
        exact ⟨standard, rfl, hdefault⟩
    | some found =>
        rw [hlookup] at hfield
        cases hfield with
        | present hitems => exact ⟨_, rfl, hpresent.mpr hitems⟩

/-! ### Grants and credentials -/

theorem grantFromMapping_eq_ok {value : Json} {grant : LoadedGrant} :
    grantFromMapping value = .ok grant ↔
      ∃ entries, value = .obj entries ∧ IsGrant entries grant := by
  constructor
  · intro hgrant
    cases value with
    | obj entries =>
        obtain ⟨_, hkeys, hgrant⟩ := bind_eq_ok.mp hgrant
        obtain ⟨items, hitems, hgrant⟩ := bind_eq_ok.mp hgrant
        obtain ⟨found, hfound, hgrant⟩ := bind_eq_ok.mp hgrant
        obtain ⟨action, haction, hgrant⟩ := bind_eq_ok.mp hgrant
        obtain ⟨held, hheld, hgrant⟩ := bind_eq_ok.mp hgrant
        obtain ⟨workspaceId, hworkspace, hgrant⟩ := bind_eq_ok.mp hgrant
        obtain ⟨intents, hintents, ⟨⟩⟩ := bind_eq_ok.mp hgrant
        refine ⟨entries, rfl, requireKeys_eq_ok.mp hkeys, ?_, ?_, ?_⟩
        · exact textField_eq_ok.mp (bind_eq_ok.mpr ⟨found, hfound, haction⟩)
        · exact textField_eq_ok.mp (bind_eq_ok.mpr ⟨held, hheld, hworkspace⟩)
        · exact (listField_eq_ok [.str (codes "*")] (fun _ _ => requireText_eq_ok) rfl).mp
            ⟨items, hitems, hintents⟩
    | null => cases hgrant
    | bool value => cases hgrant
    | int value => cases hgrant
    | float literal => cases hgrant
    | str text => cases hgrant
    | arr items => cases hgrant
  · rintro ⟨entries, rfl, hkeys, haction, hworkspace, hintents⟩
    obtain ⟨found, hfound, haction⟩ := bind_eq_ok.mp (textField_eq_ok.mpr haction)
    obtain ⟨held, hheld, hworkspace⟩ := bind_eq_ok.mp (textField_eq_ok.mpr hworkspace)
    obtain ⟨items, hitems, hintents⟩ :=
      (listField_eq_ok [.str (codes "*")] (fun _ _ => requireText_eq_ok) rfl).mpr hintents
    rw [grantFromMapping]
    refine bind_eq_ok.mpr ⟨(), requireKeys_eq_ok.mpr hkeys, ?_⟩
    refine bind_eq_ok.mpr ⟨items, hitems, ?_⟩
    refine bind_eq_ok.mpr ⟨found, hfound, ?_⟩
    refine bind_eq_ok.mpr ⟨grant.action, haction, ?_⟩
    refine bind_eq_ok.mpr ⟨held, hheld, ?_⟩
    refine bind_eq_ok.mpr ⟨grant.workspaceId, hworkspace, ?_⟩
    exact bind_eq_ok.mpr ⟨grant.intents, hintents, rfl⟩

theorem requireToken_eq_ok {token : PyStr} :
    requireToken token = .ok () ↔ (∀ code ∈ token, code < 128) ∧
      (∀ code ∈ token.head?, Words.isSpaceCode code = false) ∧
        ∀ code ∈ token.getLast?, Words.isSpaceCode code = false := by
  rw [requireToken, ← Words.trim_eq_self_iff]
  split
  · next hexact => exact iff_of_true rfl ⟨hexact.1, hexact.2.symm⟩
  · next hexact => exact iff_of_false (by rintro ⟨⟩) fun held => hexact ⟨held.1, held.2.symm⟩

theorem credentialFromMapping_eq_ok {value : Json} {credential : LoadedCredential} :
    credentialFromMapping value = .ok credential ↔
      ∃ entries, value = .obj entries ∧ IsCredential entries credential := by
  constructor
  · intro hcredential
    cases value with
    | obj entries =>
        obtain ⟨_, hkeys, hcredential⟩ := bind_eq_ok.mp hcredential
        obtain ⟨items, hitems, hcredential⟩ := bind_eq_ok.mp hcredential
        obtain ⟨found, hfound, hcredential⟩ := bind_eq_ok.mp hcredential
        obtain ⟨token, htoken, hcredential⟩ := bind_eq_ok.mp hcredential
        obtain ⟨_, hexact, hcredential⟩ := bind_eq_ok.mp hcredential
        obtain ⟨held, hheld, hcredential⟩ := bind_eq_ok.mp hcredential
        obtain ⟨subject, hsubject, hcredential⟩ := bind_eq_ok.mp hcredential
        obtain ⟨grants, hgrants, ⟨⟩⟩ := bind_eq_ok.mp hcredential
        obtain ⟨hascii, hstarts, hends⟩ := requireToken_eq_ok.mp hexact
        refine ⟨entries, rfl, requireKeys_eq_ok.mp hkeys, ?_, ?_, hascii, hstarts, hends, ?_⟩
        · exact textField_eq_ok.mp (bind_eq_ok.mpr ⟨held, hheld, hsubject⟩)
        · exact textField_eq_ok.mp (bind_eq_ok.mpr ⟨found, hfound, htoken⟩)
        · exact (listField_eq_ok [] (fun _ _ => grantFromMapping_eq_ok) rfl).mp
            ⟨items, hitems, hgrants⟩
    | null => cases hcredential
    | bool value => cases hcredential
    | int value => cases hcredential
    | float literal => cases hcredential
    | str text => cases hcredential
    | arr items => cases hcredential
  · rintro ⟨entries, rfl, hkeys, hsubject, htoken, hascii, hstarts, hends, hgrants⟩
    obtain ⟨found, hfound, htoken⟩ := bind_eq_ok.mp (textField_eq_ok.mpr htoken)
    obtain ⟨held, hheld, hsubject⟩ := bind_eq_ok.mp (textField_eq_ok.mpr hsubject)
    obtain ⟨items, hitems, hgrants⟩ :=
      (listField_eq_ok [] (fun _ _ => grantFromMapping_eq_ok) rfl).mpr hgrants
    have hexact := requireToken_eq_ok.mpr ⟨hascii, hstarts, hends⟩
    rw [credentialFromMapping]
    refine bind_eq_ok.mpr ⟨(), requireKeys_eq_ok.mpr hkeys, ?_⟩
    refine bind_eq_ok.mpr ⟨items, hitems, ?_⟩
    refine bind_eq_ok.mpr ⟨found, hfound, ?_⟩
    refine bind_eq_ok.mpr ⟨credential.token, htoken, ?_⟩
    refine bind_eq_ok.mpr ⟨(), hexact, ?_⟩
    refine bind_eq_ok.mpr ⟨held, hheld, ?_⟩
    refine bind_eq_ok.mpr ⟨credential.subject, hsubject, ?_⟩
    exact bind_eq_ok.mpr ⟨credential.grants, hgrants, rfl⟩

/-! ### Documents -/

/-- The body of `_credentials_from_json` accepts the documents of the grammar. -/
theorem parseCredentials_eq_ok {payload : PyStr} {credentials : List LoadedCredential} :
    parseCredentials payload = .ok credentials ↔ IsDocument payload credentials := by
  have hitems : ∀ {items : List Json}, items.mapM credentialFromMapping = .ok credentials ↔
      List.Forall₂ (fun value credential => ∃ entries, value = .obj entries ∧
        IsCredential entries credential) items credentials := by
    intro items
    rw [mapM_eq_ok]
    simp only [credentialFromMapping_eq_ok]
  rw [parseCredentials]
  constructor
  · intro hparse
    cases htext : scalarText payload with
    | none =>
        rw [htext] at hparse
        cases hparse
    | some text =>
        rw [htext] at hparse
        dsimp only at hparse
        by_cases hlong : (encodeUtf8 text).length > maximumCredentialFileBytes
        · rw [if_pos hlong] at hparse
          cases hparse
        · rw [if_neg hlong] at hparse
          obtain ⟨decoded, hloads, hparse⟩ := bind_eq_ok.mp hparse
          obtain ⟨hdecoded, hnone⟩ := loadsUnique_eq_ok.mp hloads
          split at hparse
          · next items =>
              obtain ⟨found, hfound, hparse⟩ := bind_eq_ok.mp hparse
              split at hparse
              · next hdistinct =>
                  cases hparse
                  exact ⟨⟨text, items, htext, Nat.le_of_not_gt hlong, hdecoded, hnone,
                    hitems.mp hfound⟩, hdistinct⟩
              · cases hparse
          · cases hparse
  · rintro ⟨⟨text, items, htext, hlength, hdecoded, hnone, hall⟩, hdistinct⟩
    rw [htext]
    dsimp only
    have hshort : ¬ (encodeUtf8 text).length > maximumCredentialFileBytes := Nat.not_lt.mpr hlength
    rw [if_neg hshort]
    refine bind_eq_ok.mpr ⟨.arr items, loadsUnique_eq_ok.mpr ⟨hdecoded, hnone⟩, ?_⟩
    refine bind_eq_ok.mpr ⟨credentials, hitems.mpr hall, ?_⟩
    rw [if_pos hdistinct]
    rfl

theorem credentialsFromJson_eq_ok {payload : PyStr} {credentials : List LoadedCredential} :
    credentialsFromJson payload = .ok credentials ↔ IsDocument payload credentials := by
  rw [← parseCredentials_eq_ok, credentialsFromJson, mapError_eq_ok]

theorem credentialsFromJson_eq_error {payload : PyStr} {raised : BootstrapRaised}
    (hraised : credentialsFromJson payload = .error raised) :
    raised = .providerConfigurationError := by
  rw [credentialsFromJson] at hraised
  cases hparse : parseCredentials payload with
  | ok found =>
      rw [hparse] at hraised
      cases hraised
  | error found =>
      rw [hparse] at hraised
      cases hraised
      rfl

/-! ### Files -/

/-- A regular file of its owner alone that holds these bytes, gives some of them at every
read short of its end, and closes. -/
structure Protected (file : OpenedFile) (content : Bytes) : Prop where
  regular : file.regular = true
  ownerOnly : file.mode &&& 0o077 = 0
  holds : file.content = content
  size : file.size = content.length
  readable : ∀ position, (file.available position).isSome
  closes : file.closes = true

theorem encodeUtf8_of_decodeUtf8 {data : Bytes} {text : String}
    (hdecode : decodeUtf8 data = some text) : encodeUtf8 text = data := by
  rw [decodeUtf8, String.fromUTF8?] at hdecode
  split at hdecode
  · cases hdecode
    rw [encodeUtf8]
    rfl
  · cases hdecode

theorem OpenedFile.read_eq {file : OpenedFile} {position : Nat}
    (hreadable : (file.available position).isSome) (remaining : Nat) :
    ∃ count, file.read position remaining =
      .ok ((file.content.drop position).take (min remaining (max 1 count))) := by
  obtain ⟨count, hcount⟩ := Option.isSome_iff_exists.mp hreadable
  exact ⟨count, by rw [OpenedFile.read, hcount]⟩

/-- Reading on to the end of a file, or to the bound. -/
theorem readChunks_eq {file : OpenedFile} (hreadable : ∀ position, (file.available position).isSome)
    (position remaining : Nat) :
    readChunks file position remaining =
      .ok ((file.content.drop position).take remaining) := by
  induction remaining using Nat.strong_induction_on generalizing position with
  | h remaining ih =>
      rw [readChunks]
      by_cases hdone : remaining = 0
      · rw [if_pos hdone, hdone, List.take_zero]
      · obtain ⟨count, hread⟩ := OpenedFile.read_eq (hreadable position) remaining
        rw [if_neg hdone, hread]
        dsimp only
        generalize hchunk : (file.content.drop position).take (min remaining (max 1 count)) = chunk
        by_cases hempty : chunk = []
        · rw [dif_pos hempty]
          rw [hempty, List.take_eq_nil_iff] at hchunk
          have hend : file.content.drop position = [] := hchunk.resolve_left (by omega)
          rw [hend, List.take_nil]
        · have hlength : 0 < chunk.length := List.length_pos_iff.mpr hempty
          have hbound : chunk.length ≤ remaining := by
            rw [← hchunk, List.length_take]
            omega
          have htaken : chunk = (file.content.drop position).take chunk.length := by
            rw [← hchunk, List.length_take, ← List.take_eq_take_min]
          have hrest : chunk ++ (file.content.drop (position + chunk.length)).take
              (remaining - chunk.length) = (file.content.drop position).take remaining := by
            calc chunk ++ (file.content.drop (position + chunk.length)).take
                  (remaining - chunk.length)
                = (file.content.drop position).take chunk.length ++
                    ((file.content.drop position).drop chunk.length).take
                      (remaining - chunk.length) := by rw [← htaken, List.drop_drop]
              _ = (file.content.drop position).take (chunk.length + (remaining - chunk.length)) :=
                  List.take_add.symm
              _ = (file.content.drop position).take remaining := by
                  rw [Nat.add_sub_cancel' hbound]
          rw [dif_neg hempty, ih _ (by omega), ← hrest]
          rfl

theorem readOpened_eq_ok {file : OpenedFile} {content : Bytes} {maximumBytes : Nat}
    (hfile : Protected file content) (hempty : content ≠ [])
    (hlength : content.length ≤ maximumBytes) : readOpened file maximumBytes = .ok content := by
  have hpositive : 0 < content.length := List.length_pos_iff.mpr hempty
  have hadmitted : file.Admitted maximumBytes := by
    refine ⟨hfile.regular, hfile.ownerOnly, ?_, ?_⟩
    · rw [hfile.size]
      exact hpositive
    · rw [hfile.size]
      exact hlength
  have hchunks : readChunks file 0 (maximumBytes + 1) = .ok content := by
    rw [readChunks_eq hfile.readable, hfile.holds, List.drop_zero,
      List.take_of_length_le (by omega)]
  rw [readOpened, if_neg (not_not.mpr hadmitted), hchunks]
  change (if content.length ≠ file.size then _ else _) = _
  rw [if_neg (not_not.mpr hfile.size.symm)]
  rfl

theorem readOpened_eq_error {file : OpenedFile} {content : Bytes} {maximumBytes : Nat}
    (hfile : Protected file content) (hbounds : content = [] ∨ maximumBytes < content.length) :
    readOpened file maximumBytes = .error .valueError := by
  have hrefused : ¬ file.Admitted maximumBytes := by
    rintro ⟨_, _, hpositive, hlength⟩
    rw [hfile.size] at hpositive hlength
    rcases hbounds with rfl | hlong
    · exact absurd hpositive (by simp)
    · omega
  rw [readOpened, if_pos hrefused]

/-- What the grammar does not have is refused. -/
theorem credentialsFromJson_refused {payload : PyStr}
    (hnone : ∀ credentials, ¬ IsDocument payload credentials) :
    credentialsFromJson payload = .error .providerConfigurationError := by
  cases hload : credentialsFromJson payload with
  | ok credentials => exact absurd (credentialsFromJson_eq_ok.mp hload) (hnone credentials)
  | error raised => rw [credentialsFromJson_eq_error hload]

theorem not_isDocument_of_bounds {text : String} {credentials : List LoadedCredential}
    (hbounds : encodeUtf8 text = [] ∨ maximumCredentialFileBytes < (encodeUtf8 text).length) :
    ¬ IsDocument (codes text) credentials := by
  rintro ⟨⟨found, items, hfound, hlength, hparse, _, _⟩, _⟩
  rw [scalarText_codes] at hfound
  cases hfound
  rcases hbounds with hempty | hlong
  · have htext : text = "" := encodeUtf8_injective hempty
    rw [htext] at hparse
    cases hparse
  · exact absurd hlong (Nat.not_lt.mpr hlength)

/-- A protected file loads as the text of its bytes does, if they are a text. -/
theorem credentialsFromFile_eq {system : FileSystem} {path : PyStr} {file : OpenedFile}
    {content : Bytes} (hpath : isAbsolute path = true) (hopen : system path = some file)
    (hfile : Protected file content) :
    credentialsFromFile system path =
      match decodeUtf8 content with
      | none => .error .providerConfigurationError
      | some text => credentialsFromJson (codes text) := by
  have hread : readProtectedBootstrapFile system path maximumCredentialFileBytes =
      (readOpened file maximumCredentialFileBytes).mapError
        fun _ => .protectedBootstrapFileError := by
    rw [readProtectedBootstrapFile, hopen, hpath, if_neg (by decide)]
    dsimp only
    rw [hfile.closes, if_neg (by decide)]
  by_cases hbounds : content = [] ∨ maximumCredentialFileBytes < content.length
  · rw [credentialsFromFile, hread, readOpened_eq_error hfile hbounds]
    change Except.error BootstrapRaised.providerConfigurationError = _
    cases hdecode : decodeUtf8 content with
    | none => rfl
    | some text =>
        rw [← encodeUtf8_of_decodeUtf8 hdecode] at hbounds
        exact (credentialsFromJson_refused fun _ => not_isDocument_of_bounds hbounds).symm
  · push Not at hbounds
    rw [credentialsFromFile, hread, readOpened_eq_ok hfile hbounds.1 hbounds.2]
    rfl

theorem readProtectedBootstrapFile_eq_error {system : FileSystem} {path : PyStr}
    {maximumBytes : Nat} {raised : BootstrapRaised}
    (hcloses : ∀ file, system path = some file → file.closes = true)
    (hraised : readProtectedBootstrapFile system path maximumBytes = .error raised) :
    raised = .protectedBootstrapFileError := by
  rw [readProtectedBootstrapFile] at hraised
  split at hraised
  · cases hraised
    rfl
  · split at hraised
    · cases hraised
      rfl
    · next file hopen =>
        rw [hcloses file hopen, if_neg (by decide)] at hraised
        cases hread : readOpened file maximumBytes with
        | ok content =>
            rw [hread] at hraised
            cases hraised
        | error found =>
            rw [hread] at hraised
            cases hraised
            rfl

theorem credentialsFromFile_eq_error {system : FileSystem} {path : PyStr}
    {raised : BootstrapRaised} (hcloses : ∀ file, system path = some file → file.closes = true)
    (hraised : credentialsFromFile system path = .error raised) :
    raised = .providerConfigurationError := by
  rw [credentialsFromFile] at hraised
  split at hraised
  · cases hraised
    rfl
  · next found hother hread =>
      exact absurd (readProtectedBootstrapFile_eq_error hcloses hread) hother
  · split at hraised
    · cases hraised
      rfl
    · exact credentialsFromJson_eq_error hraised

/-! ### Settings -/

/-- What the loaders accept, and from where. -/
structure SourcesExact : Prop where
  accepted : ∀ payload credentials,
    credentialsFromJson payload = .ok credentials ↔ IsDocument payload credentials
  refused : ∀ payload raised,
    credentialsFromJson payload = .error raised → raised = .providerConfigurationError
  development : ∀ system payload,
    loadProviderCredentials system ⟨none, some payload⟩ = credentialsFromJson payload
  file : ∀ system path file content, isAbsolute path = true → system path = some file →
    Protected file content →
      loadProviderCredentials system ⟨some path, none⟩ =
        match decodeUtf8 content with
        | none => .error .providerConfigurationError
        | some text => loadProviderCredentials system ⟨none, some (codes text)⟩
  raised : ∀ system settings raised,
    (∀ path file, system path = some file → file.closes = true) →
      loadProviderCredentials system settings = .error raised →
        raised = .providerConfigurationError

theorem loadProviderCredentials_development (system : FileSystem) (payload : PyStr) :
    loadProviderCredentials system ⟨none, some payload⟩ = credentialsFromJson payload := by
  cases payload with
  | nil =>
      have hempty : ∀ credentials, ¬ IsDocument (codes "") credentials :=
        fun _ => not_isDocument_of_bounds (.inl rfl)
      exact (credentialsFromJson_refused hempty).symm
  | cons code payload => rfl

theorem loadProviderCredentials_file {system : FileSystem} {path : PyStr}
    (hpath : isAbsolute path = true) :
    loadProviderCredentials system ⟨some path, none⟩ = credentialsFromFile system path := by
  cases path with
  | nil => cases hpath
  | cons code path => rfl

theorem loadProviderCredentials_eq_error {system : FileSystem} {settings : CredentialSettings}
    {raised : BootstrapRaised}
    (hcloses : ∀ path file, system path = some file → file.closes = true)
    (hraised : loadProviderCredentials system settings = .error raised) :
    raised = .providerConfigurationError := by
  rw [loadProviderCredentials] at hraised
  split at hraised
  · cases hraised
    rfl
  · split at hraised
    · exact credentialsFromFile_eq_error (hcloses _) hraised
    · exact credentialsFromJson_eq_error hraised
    · cases hraised
      rfl

/-- The document parser accepts exactly its grammar, from either source. -/
theorem sources_exact : SourcesExact where
  accepted := fun _ _ => credentialsFromJson_eq_ok
  refused := fun _ _ => credentialsFromJson_eq_error
  development := loadProviderCredentials_development
  file := by
    intro system path file content hpath hopen hfile
    rw [loadProviderCredentials_file hpath, credentialsFromFile_eq hpath hopen hfile]
    cases decodeUtf8 content with
    | none => rfl
    | some text => exact (loadProviderCredentials_development system (codes text)).symm
  raised := fun _ _ _ => loadProviderCredentials_eq_error

end SecretsCustody
