/-
Secret references and the strings taken for them.  The check reads the parts of
a split URL, so it accepts every other spelling that is split alike, and it
raises where splitting does.
-/
import SecretsCustody.Api
import SecretsCustody.Url

namespace SecretsCustody

/-- `urlsplit` of a text. -/
def urlsplit (tables : Url.Tables) (url : String) : Option SplitResult :=
  (Url.split tables url.toList).map fun parts =>
    { scheme := String.ofList parts.scheme, netloc := String.ofList parts.netloc,
      path := String.ofList parts.path, query := String.ofList parts.query,
      fragment := String.ofList parts.fragment }

/-- A segment of a reference. -/
def IsSegment (segment : String) : Prop :=
  segment ≠ "." ∧ segment ≠ ".." ∧ isReferenceSegment segment = true

/-- A provider and at least one segment. -/
structure SecretReference where
  provider : String
  segments : List String
  provider_form : isReferenceProvider provider = true
  nonempty : segments ≠ []
  segment_form : ∀ segment ∈ segments, IsSegment segment

def pathText (segments : List String) : List Char :=
  segments.flatMap fun segment => '/' :: segment.toList

def SecretReference.text (reference : SecretReference) : List Char :=
  "secret://".toList ++ (reference.provider.toList ++ pathText reference.segments)

/-- The string is literally a reference. -/
def IsSecretReference (value : String) : Prop :=
  ∃ reference : SecretReference, value.toList = reference.text

/-- The string is split as a reference is. -/
def SplitAs (value : String) (reference : SecretReference) : Prop :=
  ∃ scheme, scheme.map Char.toLower = "secret".toList ∧
    Url.Locates value.toList scheme reference.provider.toList (pathText reference.segments)

/-- A reference in another spelling: after controls or spaces, around tabs or line breaks, with
capitals in its scheme, or before an empty query or fragment. -/
def Respelt (value : String) : Prop :=
  ∃ reference, SplitAs value reference ∧ value.toList ≠ reference.text

/-- The check answers, and its answer is whether the string is a reference. -/
def ExactlyChecked (tables : Url.Tables) (value : String) : Prop :=
  ∃ accepted, validSecretReference (urlsplit tables) value = .ok accepted ∧
    (accepted = true ↔ IsSecretReference value)

/-! ### Characters -/

/-- The characters of providers and segments. -/
def isWordChar (c : Char) : Bool :=
  c.isAlphanum || c ∈ ['.', '_', '-']

theorem isLower_iff (c : Char) : c.isLower = true ↔ 97 ≤ c.toNat ∧ c.toNat ≤ 122 := by
  change (decide (97 ≤ c.val) && decide (c.val ≤ 122)) = true ↔ _
  simp [UInt32.le_iff_toNat_le, ← Char.toNat_val]

theorem isUpper_iff (c : Char) : c.isUpper = true ↔ 65 ≤ c.toNat ∧ c.toNat ≤ 90 := by
  change decide (65 ≤ c.val ∧ c.val ≤ 90) = true ↔ _
  simp [UInt32.le_iff_toNat_le, ← Char.toNat_val]

theorem isDigit_iff (c : Char) : c.isDigit = true ↔ 48 ≤ c.toNat ∧ c.toNat ≤ 57 := by
  simp [Char.isDigit, UInt32.le_iff_toNat_le, ← Char.toNat_val]

theorem isAlphanum_iff (c : Char) : c.isAlphanum = true ↔
    c.isUpper = true ∨ c.isLower = true ∨ c.isDigit = true := by
  change ((c.isUpper || c.isLower) || c.isDigit) = true ↔ _
  simp only [Bool.or_eq_true, or_assoc]

theorem toNat_of_isWordChar {c : Char} (hword : isWordChar c = true) :
    0x20 < c.toNat ∧ c.toNat < 128 := by
  simp only [isWordChar, Bool.or_eq_true, isAlphanum_iff, isUpper_iff, isLower_iff, isDigit_iff,
    decide_eq_true_eq, List.mem_cons, List.not_mem_nil, or_false] at hword
  rcases hword with (hupper | hlower | hdigit) | rfl | rfl | rfl
  · omega
  · omega
  · omega
  · decide
  · decide
  · decide

theorem isDelimiter_of_isWordChar {c : Char} (hword : isWordChar c = true) :
    Url.isDelimiter c = false := by
  by_contra hdelimiter
  rw [Bool.not_eq_false, Url.isDelimiter] at hdelimiter
  simp only [Bool.or_eq_true, decide_eq_true_eq] at hdelimiter
  rcases hdelimiter with (rfl | rfl) | rfl
  · exact absurd hword (by decide)
  · exact absurd hword (by decide)
  · exact absurd hword (by decide)

theorem provider_chars {provider : String} (hprovider : isReferenceProvider provider = true) :
    provider.toList ≠ [] ∧ ∀ c ∈ provider.toList, isWordChar c = true := by
  rw [isReferenceProvider] at hprovider
  cases hlist : provider.toList with
  | nil =>
      rw [hlist] at hprovider
      cases hprovider
  | cons first rest =>
      rw [hlist] at hprovider
      simp only [Bool.and_eq_true, List.all_eq_true] at hprovider
      refine ⟨List.cons_ne_nil _ _, ?_⟩
      intro c hc
      rcases List.mem_cons.mp hc with rfl | hc
      · simp [isWordChar, isAlphanum_iff, hprovider.1.1]
      · have hkind := hprovider.2 c hc
        simp only [Bool.or_eq_true, decide_eq_true_eq] at hkind
        rcases hkind with (hlower | hdigit) | rfl
        · simp [isWordChar, isAlphanum_iff, hlower]
        · simp [isWordChar, isAlphanum_iff, hdigit]
        · rfl

theorem segment_chars {segment : String} (hsegment : IsSegment segment) :
    segment ≠ "" ∧ ∀ c ∈ segment.toList, isWordChar c = true := by
  have hform := hsegment.2.2
  simp only [isReferenceSegment, Bool.and_eq_true, decide_eq_true_eq, List.all_eq_true] at hform
  refine ⟨?_, hform.2⟩
  rintro rfl
  exact absurd hform.1.1 (by decide)

theorem pathText_chars {segments : List String} (hsegments : ∀ segment ∈ segments, IsSegment segment)
    {c : Char} (hc : c ∈ pathText segments) : c = '/' ∨ isWordChar c = true := by
  obtain ⟨segment, hsegment, hc⟩ := List.mem_flatMap.mp hc
  rcases List.mem_cons.mp hc with rfl | hc
  · exact .inl rfl
  · exact .inr ((segment_chars (hsegments segment hsegment)).2 c hc)

/-- A character that is in no reference is not in this one. -/
theorem not_mem_pathText {segments : List String}
    (hsegments : ∀ segment ∈ segments, IsSegment segment) {c : Char} (hslash : c ≠ '/')
    (hword : isWordChar c = false) : c ∉ pathText segments := by
  intro hc
  rcases pathText_chars hsegments hc with rfl | hother
  · exact hslash rfl
  · rw [hword] at hother
    cases hother

/-! ### Paths -/

theorem pathText_eq {segments : List String} (hsome : segments ≠ []) :
    pathText segments = '/' :: List.intercalate ['/'] (segments.map String.toList) := by
  induction segments with
  | nil => exact absurd rfl hsome
  | cons segment segments ih =>
      rw [pathText, List.flatMap_cons, ← pathText]
      cases segments with
      | nil => simp [pathText]
      | cons next segments =>
          rw [ih (List.cons_ne_nil _ _)]
          simp only [List.map_cons, List.intercalate_cons_cons, List.append_assoc,
            List.cons_append, List.nil_append]

/-- The parts a path joins are read back from it. -/
theorem splitOn_pathText {segments : List String} (hsome : segments ≠ [])
    (hsegments : ∀ segment ∈ segments, IsSegment segment) :
    ((String.ofList (pathText segments)).splitOn "/").filter (fun part => part ≠ "") =
      segments := by
  have hplain : ∀ part ∈ [] :: segments.map String.toList, '/' ∉ part := by
    intro part hpart hslash
    rcases List.mem_cons.mp hpart with rfl | hpart
    · cases hslash
    · obtain ⟨segment, hsegment, rfl⟩ := List.mem_map.mp hpart
      exact absurd ((segment_chars (hsegments segment hsegment)).2 _ hslash) (by decide)
  have hjoined : pathText segments = List.intercalate ['/'] ([] :: segments.map String.toList) := by
    rw [pathText_eq hsome]
    cases segments with
    | nil => exact absurd rfl hsome
    | cons segment segments => simp [List.intercalate_cons_cons]
  have htexts : ([] :: segments.map String.toList).map String.ofList = "" :: segments := by
    rw [List.map_cons, List.map_map]
    congr 1
    exact List.map_id'' (fun segment => String.ofList_toList) segments
  rw [Url.splitOn_slash, String.toList_ofList, hjoined,
    List.splitOn_intercalate '/' hplain (List.cons_ne_nil _ _), htexts]
  rw [List.filter_cons_of_neg (by decide)]
  exact List.filter_eq_self.mpr fun segment hsegment =>
    decide_eq_true (segment_chars (hsegments segment hsegment)).1

theorem pathText_of_join {path : String} {segments : List String} (hsome : segments ≠ [])
    (hpath : path = "/" ++ "/".intercalate segments) : path.toList = pathText segments := by
  rw [hpath, pathText_eq hsome, String.toList_append, String.toList_intercalate]
  rfl

/-! ### The check -/

/-- The check accepts the parts of a reference. -/
theorem validSecretReference_eq_true {split : String → Option SplitResult} {value : String} :
    validSecretReference split value = .ok true ↔
      ∃ parsed, split value = some parsed ∧ parsed.scheme = "secret" ∧ parsed.query = "" ∧
        parsed.fragment = "" ∧ ∃ reference : SecretReference,
          parsed.netloc = reference.provider ∧ parsed.path.toList = pathText reference.segments := by
  rw [validSecretReference]
  cases hsplit : split value with
  | none => simp
  | some parsed =>
      simp only [Except.ok.injEq, Bool.and_eq_true, decide_eq_true_eq, Bool.not_eq_true',
        List.isEmpty_eq_false_iff, List.all_eq_true, Option.some.injEq]
      constructor
      · rintro ⟨⟨⟨⟨⟨⟨hscheme, hprovider⟩, hquery⟩, hfragment⟩, hsome⟩, hpath⟩, hparts⟩
        refine ⟨parsed, rfl, hscheme, hquery, hfragment, ⟨⟨parsed.netloc, _, hprovider, hsome, ?_⟩,
          rfl, pathText_of_join hsome hpath⟩⟩
        intro segment hsegment
        have hform := hparts segment hsegment
        exact ⟨hform.1.1, hform.1.2, hform.2⟩
      · rintro ⟨_, rfl, hscheme, hquery, hfragment, reference, hprovider, hpath⟩
        have hparts := splitOn_pathText reference.nonempty reference.segment_form
        rw [← hpath, String.ofList_toList] at hparts
        rw [hparts, hprovider]
        refine ⟨⟨⟨⟨⟨⟨hscheme, reference.provider_form⟩, hquery⟩, hfragment⟩, reference.nonempty⟩,
          ?_⟩, ?_⟩
        · apply String.toList_injective
          rw [hpath, pathText_eq reference.nonempty, String.toList_append,
            String.toList_intercalate]
          rfl
        · intro segment hsegment
          have hform := reference.segment_form segment hsegment
          exact ⟨⟨hform.1, hform.2.1⟩, hform.2.2⟩

theorem refuses_provider {tables : Url.Tables} {provider : String}
    (hprovider : isReferenceProvider provider = true) :
    tables.refuses provider.toList = false := by
  have hchars := (provider_chars hprovider).2
  have hopen : '[' ∉ provider.toList := fun hc => absurd (hchars _ hc) (by decide)
  have hclose : ']' ∉ provider.toList := fun hc => absurd (hchars _ hc) (by decide)
  have hascii : provider.toList.all (fun c => c.toNat < 128) = true :=
    List.all_eq_true.mpr fun c hc => decide_eq_true (toNat_of_isWordChar (hchars c hc)).2
  simp [Url.Tables.refuses, Url.Tables.expands, hopen, hclose, hascii]

/-- A letter of the scheme, in either case. -/
theorem isAlpha_of_toLower {c : Char} (hc : c.toLower ∈ "secret".toList) : c.isAlpha = true := by
  by_cases hupper : 'A'.val ≤ c.val ∧ c.val ≤ 'Z'.val
  · exact Bool.or_eq_true_iff.mpr (.inl (decide_eq_true hupper))
  · have hsame : c.toLower = c := dif_neg hupper
    have hletter : c ∈ ['s', 'e', 'c', 'r', 'e', 't'] := hsame ▸ hc
    simp only [List.mem_cons, List.not_mem_nil, or_false] at hletter
    rcases hletter with rfl | rfl | rfl | rfl | rfl | rfl <;> rfl

theorem scheme_chars {scheme : List Char} (hscheme : scheme.map Char.toLower = "secret".toList) :
    scheme.head?.any Char.isAlpha = true ∧ ∀ c ∈ scheme, Url.isSchemeChar c = true := by
  have hletters : ∀ c ∈ scheme, c.isAlpha = true := by
    intro c hc
    apply isAlpha_of_toLower
    rw [← hscheme]
    exact List.mem_map_of_mem hc
  constructor
  · cases scheme with
    | nil => cases hscheme
    | cons c scheme => simpa using hletters c List.mem_cons_self
  · intro c hc
    simp [Url.isSchemeChar, Char.isAlphanum, hletters c hc]

/-- The check accepts exactly the strings that are split as a reference is. -/
theorem checked_iff {tables : Url.Tables} {value : String} :
    validSecretReference (urlsplit tables) value = .ok true ↔
      ∃ reference, SplitAs value reference := by
  rw [validSecretReference_eq_true]
  constructor
  · rintro ⟨parsed, hsplit, hscheme, hquery, hfragment, reference, hprovider, hpath⟩
    obtain ⟨parts, hparts, rfl⟩ := Option.map_eq_some_iff.mp hsplit
    have hlower : parts.scheme = "secret".toList := by
      rw [← hscheme, String.toList_ofList]
    have hlocation : parts.netloc = reference.provider.toList := by
      rw [← hprovider, String.toList_ofList]
    have hroute : parts.path = pathText reference.segments := by
      rw [← hpath, String.toList_ofList]
    have hnetloc : parts.netloc ≠ [] := by
      rw [hlocation]
      exact (provider_chars reference.provider_form).1
    have hletters : parts.scheme ≠ [] := by
      rw [hlower]
      decide
    obtain ⟨scheme, hlocates, hmap⟩ := Url.locates_of_split hparts hletters hnetloc
      (String.ofList_eq_empty_iff.mp hquery) (String.ofList_eq_empty_iff.mp hfragment)
    rw [hlocation, hroute] at hlocates
    exact ⟨reference, scheme, hmap.trans hlower, hlocates⟩
  · rintro ⟨reference, scheme, hscheme, hlocates⟩
    obtain ⟨hhead, hchars⟩ := scheme_chars hscheme
    have hprovider := provider_chars reference.provider_form
    have hlocation : ∀ c ∈ reference.provider.toList, Url.isDelimiter c = false :=
      fun c hc => isDelimiter_of_isWordChar (hprovider.2 c hc)
    have hpath := pathText_eq reference.nonempty
    have hrefuses : tables.refuses reference.provider.toList = false :=
      refuses_provider reference.provider_form
    rw [hpath] at hlocates
    refine ⟨_, congrArg (Option.map _) (hlocates.split hhead hchars hlocation hrefuses), ?_, rfl,
      rfl, reference, String.ofList_toList, ?_⟩
    · dsimp only
      rw [hscheme, String.ofList_toList]
    · dsimp only
      rw [hpath, String.toList_ofList]

/-! ### References -/

theorem SecretReference.text_eq (reference : SecretReference) :
    reference.text = "secret".toList ++ ':' :: '/' :: '/' ::
      (reference.provider.toList ++ (pathText reference.segments ++ [])) := by
  rw [List.append_nil]
  rfl

theorem SecretReference.text_chars (reference : SecretReference) {c : Char}
    (hc : c ∈ reference.text) : Url.isControlOrSpace c = false := by
  have hword : ∀ {found : Char}, isWordChar found = true → Url.isControlOrSpace found = false := by
    intro found hfound
    rw [Url.isControlOrSpace, decide_eq_false_iff_not, Nat.not_le]
    exact (toNat_of_isWordChar hfound).1
  have hfront : ∀ found ∈ "secret://".toList, Url.isControlOrSpace found = false := by
    have hall : ("secret://".toList.all fun found => !Url.isControlOrSpace found) = true := rfl
    simpa using hall
  change c ∈ "secret://".toList ++ _ at hc
  rcases List.mem_append.mp hc with hc | hc
  · exact hfront c hc
  · rcases List.mem_append.mp hc with hc | hc
    · exact hword ((provider_chars reference.provider_form).2 c hc)
    · rcases pathText_chars reference.segment_form hc with rfl | hc
      · rfl
      · exact hword hc

/-- What comes after a reference's scheme has no mark of a query or a fragment. -/
theorem SecretReference.not_mem_rest (reference : SecretReference) {c : Char} (hslash : c ≠ '/')
    (hword : isWordChar c = false) :
    c ∉ '/' :: '/' :: (reference.provider.toList ++ (pathText reference.segments ++ [])) := by
  intro hc
  rw [List.append_nil] at hc
  rcases List.mem_cons.mp hc with hc | hc
  · exact hslash hc
  · rcases List.mem_cons.mp hc with hc | hc
    · exact hslash hc
    · rcases List.mem_append.mp hc with hc | hc
      · rw [(provider_chars reference.provider_form).2 c hc] at hword
        cases hword
      · exact not_mem_pathText reference.segment_form hslash hword hc

/-- A reference is split as it is. -/
theorem splitAs_text {value : String} {reference : SecretReference}
    (hvalue : value.toList = reference.text) : SplitAs value reference := by
  have hclean : Url.clean value.toList = value.toList := by
    apply Url.clean_eq_self
    intro c hc
    exact reference.text_chars (hvalue ▸ hc)
  refine ⟨"secret".toList, by decide, ⟨[], by decide, ?_⟩, ?_, ?_⟩
  · rw [hclean, hvalue, reference.text_eq]
  · exact not_mem_pathText reference.segment_form (by decide) (by decide)
  · exact not_mem_pathText reference.segment_form (by decide) (by decide)

theorem text_of_splitAs {value : String} (hvalue : IsSecretReference value)
    {reference : SecretReference} (hsplit : SplitAs value reference) :
    value.toList = reference.text := by
  obtain ⟨own, hown⟩ := hvalue
  obtain ⟨scheme, hscheme, ⟨tail, htail, hwritten⟩, _, _⟩ := hsplit
  have hclean : Url.clean value.toList = value.toList :=
    Url.clean_eq_self fun c hc => own.text_chars (hown ▸ hc)
  obtain ⟨hhead, hchars⟩ := scheme_chars hscheme
  have hlower : "secret".toList.map Char.toLower = "secret".toList := by decide
  obtain ⟨hsecret, hletters⟩ := scheme_chars hlower
  rw [hclean, hown, own.text_eq] at hwritten
  have hsame := (Url.splitScheme_found hsecret hletters _).symm.trans
    ((congrArg Url.splitScheme hwritten).trans (Url.splitScheme_found hhead hchars _))
  have hrest : '/' :: '/' :: (own.provider.toList ++ (pathText own.segments ++ [])) =
      '/' :: '/' :: (reference.provider.toList ++ (pathText reference.segments ++ tail)) :=
    congrArg Prod.snd hsame
  have htail : tail = [] := by
    have hquery := own.not_mem_rest (c := '?') (by decide) (by decide)
    have hfragment := own.not_mem_rest (c := '#') (by decide) (by decide)
    rw [hrest] at hquery hfragment
    simp only [Url.emptyTails, List.mem_cons, List.not_mem_nil, or_false] at htail
    rcases htail with rfl | rfl | rfl | rfl
    · rfl
    · simp at hquery
    · simp at hfragment
    · simp at hquery
  rw [htail] at hrest
  rw [hown, own.text_eq, reference.text_eq, hrest]

/-- The check is exact on a string exactly when the string can be split and is not a reference in
another spelling. -/
theorem exactlyChecked_iff (tables : Url.Tables) (value : String) :
    ExactlyChecked tables value ↔
      tables.refuses (Url.netloc value.toList) = false ∧ ¬ Respelt value := by
  constructor
  · rintro ⟨accepted, hchecked, hexact⟩
    constructor
    · by_contra hrefuses
      have hnone := Url.split_eq_none_iff.mpr (Bool.not_eq_false _ ▸ hrefuses)
      rw [validSecretReference, urlsplit, hnone] at hchecked
      cases hchecked
    · rintro ⟨reference, hsplit, hother⟩
      rw [checked_iff.mpr ⟨reference, hsplit⟩] at hchecked
      cases hchecked
      exact hother (text_of_splitAs (hexact.mp rfl) hsplit)
  · rintro ⟨haccepts, hliteral⟩
    cases hchecked : validSecretReference (urlsplit tables) value with
    | error raised =>
        have hnone : Url.split tables value.toList = none := by
          rw [validSecretReference, urlsplit] at hchecked
          cases hsplit : Url.split tables value.toList with
          | none => rfl
          | some parts =>
              rw [hsplit] at hchecked
              cases hchecked
        rw [Url.split_eq_none_iff, haccepts] at hnone
        cases hnone
    | ok accepted =>
        refine ⟨accepted, hchecked, ?_⟩
        constructor
        · rintro rfl
          obtain ⟨reference, hsplit⟩ := checked_iff.mp hchecked
          by_contra hother
          exact hliteral ⟨reference, hsplit, fun hvalue => hother ⟨reference, hvalue⟩⟩
        · rintro ⟨reference, hvalue⟩
          rw [checked_iff.mpr ⟨reference, splitAs_text hvalue⟩] at hchecked
          cases hchecked
          rfl

/-- Tables that no ASCII text without brackets consults. -/
def asciiTables : Url.Tables :=
  { bracketed := fun _ => false, nfkc := id }

def localKey : SecretReference where
  provider := "local"
  segments := ["key"]
  provider_form := by decide
  nonempty := by decide
  segment_form := by
    intro segment hsegment
    rw [List.mem_singleton.mp hsegment]
    exact ⟨by decide, by decide, by decide⟩

/-- A capital scheme is accepted, and an open bracket raises. -/
theorem respelt_and_raised :
    (validSecretReference (urlsplit asciiTables) "SECRET://local/key" = .ok true ∧
      ¬ ExactlyChecked asciiTables "SECRET://local/key") ∧
    validSecretReference (urlsplit asciiTables) "secret://[/key" = .error .valueError ∧
      ¬ ExactlyChecked asciiTables "secret://[/key" := by
  have haccepted : validSecretReference (urlsplit asciiTables) "SECRET://local/key" = .ok true := by
    apply checked_iff.mpr
    refine ⟨localKey, "SECRET".toList, by decide, ⟨[], by decide, by decide⟩, ?_, ?_⟩
    · decide
    · decide
  have hraised : validSecretReference (urlsplit asciiTables) "secret://[/key" =
      .error .valueError := by
    have hnone : Url.split asciiTables "secret://[/key".toList = none :=
      Url.split_eq_none_iff.mpr (by decide)
    rw [validSecretReference, urlsplit, hnone]
    rfl
  refine ⟨⟨haccepted, ?_⟩, hraised, ?_⟩
  · rintro ⟨accepted, hchecked, hexact⟩
    rw [haccepted] at hchecked
    cases hchecked
    obtain ⟨reference, hvalue⟩ := hexact.mp rfl
    have hfirst : some 'S' = some 's' := congrArg List.head? hvalue
    exact absurd hfirst (by decide)
  · rintro ⟨accepted, hchecked, _⟩
    rw [hraised] at hchecked
    cases hchecked

end SecretsCustody
