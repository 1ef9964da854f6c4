/-
Bearer tokens against the loaded credentials.  The text a header presents
selects the credential that has it as its token, whatever the order of the
credentials, as long as that text can be compared at all.
-/
import SecretsCustody.Bootstrap

namespace SecretsCustody

open Effect JsonText

/-- A header presents the text after its prefix, without the white space around it. -/
def Presents (authorization : Option String) (text : String) : Prop :=
  ∃ value, authorization = some ("Bearer " ++ value) ∧
    String.ofList (Words.strip value.toList) = text

/-- `text.isascii()`. -/
def IsAscii (text : String) : Prop :=
  ∀ c ∈ text.toList, c.toNat < 128

instance (text : String) : Decidable (IsAscii text) :=
  List.decidableBAll (fun c : Char => c.toNat < 128) text.toList

/-- Authentication of one header is exact and total, in every order of the credentials. -/
structure BearerExact (credentials : List ProviderCredential) (authorization : Option String) :
    Prop where
  selected : ∀ credential, authenticate credentials authorization = .ok credential ↔
    credential ∈ credentials ∧ Presents authorization credential.token
  refused : authenticate credentials authorization = .error .providerAuthenticationError ↔
    ∀ credential ∈ credentials, ¬ Presents authorization credential.token
  ordered : ∀ other, other.Perm credentials →
    authenticate other authorization = authenticate credentials authorization
  own : ∀ credential ∈ credentials,
    authenticate credentials (some ("Bearer " ++ credential.token)) = .ok credential

/-- What the header presents can be compared with the tokens, if there are any. -/
def Comparable (credentials : List ProviderCredential) (authorization : Option String) : Prop :=
  credentials ≠ [] → ∀ text, Presents authorization text → IsAscii text

/-- The tokens the loader accepts: ASCII, stripped and each of one credential. -/
structure DistinctTokens (credentials : List ProviderCredential) : Prop where
  ascii : ∀ credential ∈ credentials, IsAscii credential.token
  stripped : ∀ credential ∈ credentials,
    Words.strip credential.token.toList = credential.token.toList
  distinct : (credentials.map ProviderCredential.token).Nodup

/-- Credentials with the tokens of a loaded tuple.  Their other texts are not read here, and
can be ones no `String` holds. -/
def Provided (loaded : List LoadedCredential) (credentials : List ProviderCredential) : Prop :=
  credentials.map (fun credential => codes credential.token) = loaded.map LoadedCredential.token

/-! ### Comparing -/

theorem encodeAscii_isSome {text : String} : (encodeAscii text).isSome ↔ IsAscii text := by
  rw [encodeAscii]
  split
  · next hall => simpa [IsAscii] using hall
  · next hall => simpa [IsAscii] using hall

theorem compareDigest_eq {left right : String} (hleft : IsAscii left) (hright : IsAscii right) :
    compareDigest left right = .ok (left = right) := by
  rw [compareDigest, if_pos ⟨encodeAscii_isSome.mpr hleft, encodeAscii_isSome.mpr hright⟩]

theorem compareDigest_eq_error {left right : String} (hright : ¬ IsAscii right) :
    compareDigest left right = .error .typeError := by
  rw [compareDigest, if_neg]
  exact fun hboth => hright (encodeAscii_isSome.mp hboth.2)

/-! ### Selecting -/

theorem selectCredential_cons {presented : String} {credential : ProviderCredential}
    {credentials : List ProviderCredential} (htoken : IsAscii credential.token)
    (hpresented : IsAscii presented) :
    selectCredential presented (credential :: credentials) =
      if credential.token = presented then .ok credential
      else selectCredential presented credentials := by
  rw [selectCredential, compareDigest_eq htoken hpresented]
  by_cases hsame : credential.token = presented
  · rw [if_pos hsame]
    simp [hsame, bind, Except.bind, pure, Except.pure]
  · rw [if_neg hsame]
    simp [hsame, bind, Except.bind]

/-- A text that cannot be compared selects nothing, and is not refused either. -/
theorem selectCredential_typeError {presented : String} {credentials : List ProviderCredential}
    (hsome : credentials ≠ []) (hpresented : ¬ IsAscii presented) :
    selectCredential presented credentials = .error .typeError := by
  cases credentials with
  | nil => exact absurd rfl hsome
  | cons credential credentials =>
      rw [selectCredential, compareDigest_eq_error hpresented]
      rfl

section

variable {presented : String} {credentials : List ProviderCredential}

theorem selectCredential_eq_ok (hascii : ∀ credential ∈ credentials, IsAscii credential.token)
    (hdistinct : (credentials.map ProviderCredential.token).Nodup) (hpresented : IsAscii presented)
    {client : ProviderCredential} :
    selectCredential presented credentials = .ok client ↔
      client ∈ credentials ∧ client.token = presented := by
  induction credentials with
  | nil =>
      constructor
      · intro hselect
        cases hselect
      · rintro ⟨hclient, _⟩
        cases hclient
  | cons credential credentials ih =>
      rw [List.map_cons, List.nodup_cons] at hdistinct
      rw [List.forall_mem_cons] at hascii
      rw [selectCredential_cons hascii.1 hpresented, List.mem_cons]
      by_cases hsame : credential.token = presented
      · rw [if_pos hsame]
        constructor
        · rintro ⟨⟩
          exact ⟨.inl rfl, hsame⟩
        · rintro ⟨rfl | hclient, htoken⟩
          · rfl
          · exact absurd (htoken.trans hsame.symm ▸ List.mem_map_of_mem hclient) hdistinct.1
      · rw [if_neg hsame, ih hascii.2 hdistinct.2]
        constructor
        · rintro ⟨hclient, htoken⟩
          exact ⟨.inr hclient, htoken⟩
        · rintro ⟨rfl | hclient, htoken⟩
          · exact absurd htoken hsame
          · exact ⟨hclient, htoken⟩

theorem selectCredential_eq_error (hascii : ∀ credential ∈ credentials, IsAscii credential.token)
    (hpresented : IsAscii presented) (hnone : ∀ credential ∈ credentials,
      credential.token ≠ presented) :
    selectCredential presented credentials = .error .providerAuthenticationError := by
  induction credentials with
  | nil => rfl
  | cons credential credentials ih =>
      rw [List.forall_mem_cons] at hascii hnone
      rw [selectCredential_cons hascii.1 hpresented, if_neg hnone.1]
      exact ih hascii.2 hnone.2

end

/-! ### Headers -/

theorem authenticate_presents {credentials : List ProviderCredential}
    {authorization : Option String} {text : String} (hpresents : Presents authorization text) :
    authenticate credentials authorization = selectCredential text credentials := by
  obtain ⟨value, rfl, rfl⟩ := hpresents
  rw [authenticate, String.toList_append]
  have hprefix : "Bearer ".toList.isPrefixOf ("Bearer ".toList ++ value.toList) = true :=
    List.isPrefixOf_iff_prefix.mpr (List.prefix_append _ _)
  rw [if_pos hprefix, List.drop_left]

theorem authenticate_absent {credentials : List ProviderCredential}
    {authorization : Option String} (hnone : ∀ text, ¬ Presents authorization text) :
    authenticate credentials authorization = .error .providerAuthenticationError := by
  cases authorization with
  | none => rfl
  | some authorization =>
      rw [authenticate]
      split
      · next hprefix =>
          obtain ⟨value, hvalue⟩ := List.isPrefixOf_iff_prefix.mp hprefix
          have hshown : (String.ofList value).toList = value := String.toList_ofList
          have hheader : authorization = "Bearer " ++ String.ofList value := by
            apply String.toList_injective
            rw [String.toList_append, hshown, hvalue]
          exact absurd ⟨String.ofList value, congrArg some hheader, rfl⟩ (hnone _)
      · rfl

theorem Presents.unique {authorization : Option String} {text other : String}
    (htext : Presents authorization text) (hother : Presents authorization other) :
    text = other := by
  obtain ⟨value, rfl, rfl⟩ := htext
  obtain ⟨found, hfound, rfl⟩ := hother
  rw [Option.some_inj, String.append_right_inj] at hfound
  rw [hfound]

section

variable {credentials : List ProviderCredential} {authorization : Option String}

theorem DistinctTokens.perm {other : List ProviderCredential}
    (htokens : DistinctTokens credentials) (hperm : other.Perm credentials) :
    DistinctTokens other where
  ascii := fun credential hcredential => htokens.ascii credential (hperm.subset hcredential)
  stripped := fun credential hcredential => htokens.stripped credential (hperm.subset hcredential)
  distinct := (hperm.map _).nodup_iff.mpr htokens.distinct

theorem Comparable.perm {other : List ProviderCredential}
    (hcomparable : Comparable credentials authorization) (hperm : other.Perm credentials) :
    Comparable other authorization := by
  intro hsome
  apply hcomparable
  rintro rfl
  exact hsome hperm.eq_nil

/-- A header that can be compared selects the credential it presents the token of. -/
theorem authenticate_eq_ok (htokens : DistinctTokens credentials)
    (hcomparable : Comparable credentials authorization) {client : ProviderCredential} :
    authenticate credentials authorization = .ok client ↔
      client ∈ credentials ∧ Presents authorization client.token := by
  by_cases hempty : credentials = []
  · subst hempty
    refine iff_of_false (fun hclient => ?_) (fun hclient => by cases hclient.1)
    exact absurd (authenticate_mem hclient) List.not_mem_nil
  · by_cases hsome : ∃ text, Presents authorization text
    · obtain ⟨text, hpresents⟩ := hsome
      rw [authenticate_presents hpresents, selectCredential_eq_ok htokens.ascii htokens.distinct
        (hcomparable hempty text hpresents)]
      constructor
      · rintro ⟨hclient, rfl⟩
        exact ⟨hclient, hpresents⟩
      · rintro ⟨hclient, htoken⟩
        exact ⟨hclient, htoken.unique hpresents⟩
    · have hnone : ∀ text, ¬ Presents authorization text := not_exists.mp hsome
      rw [authenticate_absent hnone]
      exact iff_of_false (fun hclient => by cases hclient) fun hclient => hnone _ hclient.2

theorem authenticate_eq_error (htokens : DistinctTokens credentials)
    (hcomparable : Comparable credentials authorization)
    (hnone : ∀ credential ∈ credentials, ¬ Presents authorization credential.token) :
    authenticate credentials authorization = .error .providerAuthenticationError := by
  by_cases hsome : ∃ text, Presents authorization text
  · obtain ⟨text, hpresents⟩ := hsome
    rw [authenticate_presents hpresents]
    by_cases hempty : credentials = []
    · rw [hempty]
      rfl
    · apply selectCredential_eq_error htokens.ascii (hcomparable hempty text hpresents)
      rintro credential hcredential rfl
      exact hnone credential hcredential hpresents
  · exact authenticate_absent (not_exists.mp hsome)

/-- Whatever the order, the same credential is selected, or none. -/
theorem authenticate_perm (htokens : DistinctTokens credentials)
    (hcomparable : Comparable credentials authorization) {other : List ProviderCredential}
    (hperm : other.Perm credentials) :
    authenticate other authorization = authenticate credentials authorization := by
  by_cases hsome : ∃ client ∈ credentials, Presents authorization client.token
  · obtain ⟨client, hclient, hpresents⟩ := hsome
    rw [(authenticate_eq_ok htokens hcomparable).mpr ⟨hclient, hpresents⟩]
    apply (authenticate_eq_ok (htokens.perm hperm) (hcomparable.perm hperm)).mpr
    exact ⟨hperm.symm.subset hclient, hpresents⟩
  · push Not at hsome
    rw [authenticate_eq_error htokens hcomparable hsome]
    apply authenticate_eq_error (htokens.perm hperm) (hcomparable.perm hperm)
    exact fun credential hcredential => hsome credential (hperm.subset hcredential)

theorem authenticate_own (htokens : DistinctTokens credentials) {client : ProviderCredential}
    (hclient : client ∈ credentials) :
    authenticate credentials (some ("Bearer " ++ client.token)) = .ok client := by
  have hpresents : Presents (some ("Bearer " ++ client.token)) client.token := by
    refine ⟨client.token, rfl, ?_⟩
    rw [htokens.stripped client hclient, String.ofList_toList]
  have hcomparable : Comparable credentials (some ("Bearer " ++ client.token)) := by
    intro _ text htext
    rw [htext.unique hpresents]
    exact htokens.ascii client hclient
  exact (authenticate_eq_ok htokens hcomparable).mpr ⟨hclient, hpresents⟩

/-- Authentication is exact on a header exactly when it can compare what the header presents. -/
theorem bearerExact_iff (htokens : DistinctTokens credentials) :
    BearerExact credentials authorization ↔ Comparable credentials authorization := by
  constructor
  · intro hexact hsome text hpresents
    by_contra hascii
    have hraised : authenticate credentials authorization = .error .typeError := by
      rw [authenticate_presents hpresents]
      exact selectCredential_typeError hsome hascii
    have hnone : ∀ credential ∈ credentials, ¬ Presents authorization credential.token := by
      intro credential hcredential htoken
      rw [hpresents.unique htoken] at hascii
      exact hascii (htokens.ascii credential hcredential)
    rw [hexact.refused.mpr hnone] at hraised
    cases hraised
  · intro hcomparable
    refine ⟨fun _ => authenticate_eq_ok htokens hcomparable, ?_, ?_, ?_⟩
    · constructor
      · intro hrefused credential hcredential hpresents
        have hselected := (authenticate_eq_ok htokens hcomparable).mpr ⟨hcredential, hpresents⟩
        rw [hrefused] at hselected
        cases hselected
      · exact authenticate_eq_error htokens hcomparable
    · exact fun _ hperm => authenticate_perm htokens hcomparable hperm
    · exact fun _ hcredential => authenticate_own htokens hcredential

end

/-! ### Loaded credentials -/

theorem isDocument_of_load {system : FileSystem} {settings : CredentialSettings}
    {loaded : List LoadedCredential}
    (hload : loadProviderCredentials system settings = .ok loaded) :
    ∃ payload, IsDocument payload loaded := by
  rw [loadProviderCredentials] at hload
  split at hload
  · cases hload
  · split at hload
    · rw [credentialsFromFile] at hload
      split at hload
      · cases hload
      · cases hload
      · split at hload
        · cases hload
        · exact ⟨_, credentialsFromJson_eq_ok.mp hload⟩
    · exact ⟨_, credentialsFromJson_eq_ok.mp hload⟩
    · cases hload

/-- The credentials of a document, each with what it was read from. -/
theorem IsDocument.credential {payload : PyStr} {loaded : List LoadedCredential}
    (hdocument : IsDocument payload loaded) {credential : LoadedCredential}
    (hcredential : credential ∈ loaded) : ∃ entries, IsCredential entries credential := by
  obtain ⟨_, items, -, -, -, -, hitems⟩ := hdocument.document
  clear hdocument
  induction hitems with
  | nil => cases hcredential
  | cons hitem _ ih =>
      rcases List.mem_cons.mp hcredential with rfl | hcredential
      · obtain ⟨entries, _, hentries⟩ := hitem
        exact ⟨entries, hentries⟩
      · exact ih hcredential

theorem distinctTokens_of_document {payload : PyStr} {loaded : List LoadedCredential}
    {credentials : List ProviderCredential} (hdocument : IsDocument payload loaded)
    (hprovided : Provided loaded credentials) : DistinctTokens credentials := by
  have hread : ∀ credential ∈ credentials, ∃ entries found, IsCredential entries found ∧
      found.token = codes credential.token := by
    intro credential hcredential
    have htoken : codes credential.token ∈ loaded.map LoadedCredential.token := by
      rw [← hprovided]
      exact List.mem_map_of_mem hcredential
    obtain ⟨found, hfound, htoken⟩ := List.mem_map.mp htoken
    obtain ⟨entries, hentries⟩ := hdocument.credential hfound
    exact ⟨entries, found, hentries, htoken⟩
  constructor
  · intro credential hcredential c hc
    obtain ⟨entries, found, hentries, htoken⟩ := hread credential hcredential
    apply hentries.ascii
    rw [htoken]
    exact List.mem_map_of_mem hc
  · intro credential hcredential
    obtain ⟨entries, found, hentries, htoken⟩ := hread credential hcredential
    have htrim := Words.trim_eq_self_iff.mpr ⟨hentries.starts, hentries.ends⟩
    rw [htoken, codes, Words.trim_map] at htrim
    exact List.map_injective_iff.mpr (fun _ _ hsame => Char.ext (UInt32.toNat_inj.mp hsame)) htrim
  · have hdistinct : ((credentials.map ProviderCredential.token).map codes).Nodup := by
      rw [List.map_map]
      exact hprovided ▸ hdocument.distinct
    exact hdistinct.of_map

/-- For the credentials a provider loads, a header is answered exactly, in any order of theirs,
if and only if what it presents can be compared with their tokens. -/
theorem authenticate_exact_iff {system : FileSystem} {settings : CredentialSettings}
    {loaded : List LoadedCredential} {credentials : List ProviderCredential}
    (hload : loadProviderCredentials system settings = .ok loaded)
    (hprovided : Provided loaded credentials) (authorization : Option String) :
    BearerExact credentials authorization ↔ Comparable credentials authorization := by
  obtain ⟨payload, hdocument⟩ := isDocument_of_load hload
  exact bearerExact_iff (distinctTokens_of_document hdocument hprovided)

/-- A document of one client. -/
def clientDocument : String :=
  "[\x7b\"subject\":\"client\",\"token\":\"fixture\"\x7d]"

def clientFields : List (PyStr × Json) :=
  [(codes "subject", .str (codes "client")), (codes "token", .str (codes "fixture"))]

def loadedClient : LoadedCredential :=
  { subject := codes "client", token := codes "fixture", grants := [] }

def providedClient : ProviderCredential :=
  { subject := "client", token := "fixture", grants := [] }

theorem clientDocument_isDocument : IsDocument (codes clientDocument) [loadedClient] := by
  have hplain : Plain (.arr [.obj clientFields]) := by
    simp [Plain, PlainItems, PlainEntries, clientFields, codes_plain]
  have htext : clientDocument.toList = render .compact (.arr [.obj clientFields]) := by decide
  refine ⟨⟨clientDocument, [.obj clientFields], scalarText_codes _, by decide, ?_, ?_, ?_⟩,
    by decide⟩
  · rw [htext]
    exact parse_render .compact hplain
  · exact (uniqueObjects_iff _).mp rfl
  · exact .cons (credentialFromMapping_eq_ok.mp rfl) .nil

theorem clientDocument_loads :
    loadProviderCredentials (fun _ => none) ⟨none, some (codes clientDocument)⟩ =
      .ok [loadedClient] := by
  rw [loadProviderCredentials_development]
  exact credentialsFromJson_eq_ok.mpr clientDocument_isDocument

theorem authenticate_exact_client :
    BearerExact [providedClient] (some "Bearer fixture ") := by
  have hprovided : Provided [loadedClient] [providedClient] := rfl
  apply (authenticate_exact_iff clientDocument_loads hprovided _).mpr
  intro _ text hpresents
  have htext : Presents (some "Bearer fixture ") "fixture" := ⟨"fixture ", rfl, rfl⟩
  rw [hpresents.unique htext]
  decide

/-- A header that is not ASCII leaves authentication with an exception nobody declared. -/
theorem authenticate_not_exact :
    loadProviderCredentials (fun _ => none) ⟨none, some (codes clientDocument)⟩ =
        .ok [loadedClient] ∧
      Provided [loadedClient] [providedClient] ∧
      authenticate [providedClient] (some "Bearer é") = .error .typeError ∧
      ¬ BearerExact [providedClient] (some "Bearer é") := by
  have hraised : authenticate [providedClient] (some "Bearer é") = .error .typeError := rfl
  refine ⟨clientDocument_loads, rfl, hraised, ?_⟩
  intro hexact
  have hnone : ∀ credential ∈ [providedClient],
      ¬ Presents (some "Bearer é") credential.token := by
    intro credential hcredential hpresents
    have htext : Presents (some "Bearer é") "é" := ⟨"é", rfl, rfl⟩
    rw [List.mem_singleton.mp hcredential] at hpresents
    exact absurd (hpresents.unique htext) (by decide)
  rw [hexact.refused.mpr hnone] at hraised
  cases hraised

end SecretsCustody
