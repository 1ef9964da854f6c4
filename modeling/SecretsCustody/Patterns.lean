/-
The regular expressions of the provider and of the package check.  The model says what they come
to; here they are written as they stand and run as the matcher runs them, and come to that.
-/
import SecretsCustody.PackageIntegrity
import SecretsCustody.References
import SecretsCustody.Regexes

namespace SecretsCustody

open JsonText PackageIntegrity Regexes

/-! ### The expressions -/

/-- A character class, by its ranges. -/
def among (ranges : List (Char × Char)) (code : Nat) : Bool :=
  ranges.any fun range => decide (range.1.toNat ≤ code ∧ code ≤ range.2.toNat)

/-- `^…$`; the end is that of the text, or a line feed that ends it. -/
def anchored (pattern : Pattern Nat) : Pattern Nat :=
  .seq (.place fun before _ => before.isEmpty)
    (.seq pattern (.place fun _ after => after.isEmpty || after = [10]))

/-- `\b`: a word character on one side alone. -/
def wordBoundary (alnum : Nat → Bool) : Pattern Nat :=
  .place fun before after =>
    before.getLast?.any (isWordCode alnum) != after.head?.any (isWordCode alnum)

/-- `_IDENTIFIER`. -/
def identifierPattern : Pattern Nat :=
  anchored (.seq (.one (among [('A', 'Z'), ('a', 'z'), ('0', '9')]))
    (.run (among [('A', 'Z'), ('a', 'z'), ('0', '9'), ('.', '.'), ('_', '_'), (':', ':'),
      ('-', '-')]) 0 (some 199)))

/-- `_REFERENCE_PROVIDER`. -/
def referenceProviderPattern : Pattern Nat :=
  anchored (.seq (.one (among [('a', 'z')]))
    (.run (among [('a', 'z'), ('0', '9'), ('-', '-')]) 0 (some 62)))

/-- `_REFERENCE_SEGMENT`. -/
def referenceSegmentPattern : Pattern Nat :=
  anchored (.run (among [('A', 'Z'), ('a', 'z'), ('0', '9'), ('.', '.'), ('_', '_'), ('-', '-')])
    1 (some 128))

/-- `TEST_FILE_PATTERN`. -/
def testFilePattern : Pattern Nat :=
  anchored (.seq (.literal (codes "test"))
    (.seq (.run (fun code => decide (code ≠ 10)) 0 none) (.literal (codes ".py"))))

/-- `PROOF_CHANGING_NAME`. -/
def proofChangingName (alnum : Nat → Bool) : Pattern Nat :=
  .seq (wordBoundary alnum) (.seq (.one (among [('A', 'Z')]))
    (.seq (.run (among [('A', 'Z'), ('0', '9'), ('_', '_')]) 0 none)
      (.seq (.either (.literal (codes "SKIP")) (.either (.literal (codes "OPTIONAL"))
          (.either (.literal (codes "NO_BUILD")) (.either (.literal (codes "LOCAL_REBUILD"))
            (.literal (codes "NO_TEST"))))))
        (.seq (.run (among [('A', 'Z'), ('0', '9'), ('_', '_')]) 0 none) (wordBoundary alnum)))))

/-! ### Whole texts -/

theorem fullmatch_anchored {pattern : Pattern Nat} {text : PyStr} :
    (anchored pattern).fullmatch text = true ↔ pattern.Spans [] text [] := by
  rw [Pattern.fullmatch_eq_true, anchored]
  simp only [Pattern.Spans]
  constructor
  · rintro ⟨_, _, rfl, ⟨rfl, _⟩, found, _, rfl, hspans, rfl, _⟩
    rw [List.append_nil] at hspans ⊢
    exact hspans
  · intro hspans
    exact ⟨[], text, rfl, ⟨rfl, rfl⟩, text, [], (List.append_nil _).symm, hspans, rfl, rfl⟩

/-- A range of characters is the range of their codes. -/
theorem among_iff {ranges : List (Char × Char)} {code : Nat} :
    among ranges code = true ↔
      ∃ range ∈ ranges, range.1.toNat ≤ code ∧ code ≤ range.2.toNat := by
  simp only [among, List.any_eq_true, decide_eq_true_eq]

/-- A range of one character is that character. -/
theorem code_between (c other : Char) :
    other.toNat ≤ c.toNat ∧ c.toNat ≤ other.toNat ↔ c = other := by
  rw [← Char.toNat_inj]
  omega

/-- A character of one class and then a bounded run of another. -/
theorem spans_headed {first inside : Nat → Bool} {bound : Nat} {text : PyStr} :
    (Pattern.seq (.one first) (.run inside 0 (some bound))).Spans [] text [] ↔
      ∃ c rest, text = c :: rest ∧ first c = true ∧ rest.length ≤ bound ∧
        ∀ other ∈ rest, inside other = true := by
  simp only [Pattern.Spans, Nat.zero_le, true_and, Option.mem_some_iff, forall_eq']
  constructor
  · rintro ⟨_, rest, rfl, ⟨c, rfl, hfirst⟩, hinside, hbound⟩
    exact ⟨c, rest, rfl, hfirst, hbound, hinside⟩
  · rintro ⟨c, rest, rfl, hfirst, hbound, hinside⟩
    exact ⟨[c], rest, rfl, ⟨c, rfl, hfirst⟩, hinside, hbound⟩

/-- The same of the characters of a `String`. -/
theorem headed_codes {first inside : Nat → Bool} {first' inside' : Char → Bool} {bound : Nat}
    (hfirst : ∀ c : Char, first c.toNat = first' c)
    (hinside : ∀ c : Char, inside c.toNat = inside' c) (text : String) :
    (anchored (.seq (.one first) (.run inside 0 (some bound)))).fullmatch (codes text) =
      match text.toList with
      | [] => false
      | c :: rest => first' c && rest.length ≤ bound && rest.all inside' := by
  rw [Bool.eq_iff_iff, fullmatch_anchored, spans_headed, codes]
  cases text.toList with
  | nil => simp
  | cons c rest =>
      simp only [List.map_cons, List.cons.injEq, Bool.and_eq_true, decide_eq_true_eq,
        List.all_eq_true]
      constructor
      · rintro ⟨_, _, ⟨rfl, rfl⟩, hc, hlength, hrest⟩
        rw [List.length_map] at hlength
        refine ⟨⟨hfirst c ▸ hc, hlength⟩, ?_⟩
        intro other hother
        rw [← hinside]
        exact hrest _ (List.mem_map_of_mem hother)
      · rintro ⟨⟨hc, hlength⟩, hrest⟩
        refine ⟨_, _, ⟨rfl, rfl⟩, (hfirst c).trans hc, ?_, ?_⟩
        · rwa [List.length_map]
        · intro code hcode
          obtain ⟨other, hother, rfl⟩ := List.mem_map.mp hcode
          exact (hinside other).trans (hrest other hother)

theorem identifierPattern_eq (text : String) :
    identifierPattern.fullmatch (codes text) = isIdentifier text := by
  apply headed_codes
  · intro c
    rw [Bool.eq_iff_iff, among_iff, isAlphanum_iff, isUpper_iff, isLower_iff, isDigit_iff]
    simp
  · intro c
    rw [Bool.eq_iff_iff, among_iff, Bool.or_eq_true, isAlphanum_iff, isUpper_iff, isLower_iff,
      isDigit_iff]
    simp only [List.mem_cons, List.not_mem_nil, or_false, exists_eq_or_imp, exists_eq_left,
      code_between, decide_eq_true_eq]
    simp [or_assoc]

theorem referenceProviderPattern_eq (text : String) :
    referenceProviderPattern.fullmatch (codes text) = isReferenceProvider text := by
  apply headed_codes
  · intro c
    rw [Bool.eq_iff_iff, among_iff, isLower_iff]
    simp
  · intro c
    rw [Bool.eq_iff_iff, among_iff, Bool.or_eq_true, Bool.or_eq_true, isLower_iff, isDigit_iff]
    simp only [List.mem_cons, List.not_mem_nil, or_false, exists_eq_or_imp, exists_eq_left,
      code_between, decide_eq_true_eq]
    simp [or_assoc]

theorem referenceSegmentPattern_eq (text : String) :
    referenceSegmentPattern.fullmatch (codes text) = isReferenceSegment text := by
  have hinside : ∀ c : Char, among [('A', 'Z'), ('a', 'z'), ('0', '9'), ('.', '.'), ('_', '_'),
      ('-', '-')] c.toNat = (c.isAlphanum || c ∈ ['.', '_', '-']) := by
    intro c
    rw [Bool.eq_iff_iff, among_iff, Bool.or_eq_true, isAlphanum_iff, isUpper_iff, isLower_iff,
      isDigit_iff]
    simp only [List.mem_cons, List.not_mem_nil, or_false, exists_eq_or_imp, exists_eq_left,
      code_between, decide_eq_true_eq]
    simp [or_assoc]
  rw [Bool.eq_iff_iff, referenceSegmentPattern, fullmatch_anchored, isReferenceSegment, codes]
  simp only [Pattern.Spans, List.mem_map, forall_exists_index, and_imp, forall_apply_eq_imp_iff₂,
    hinside, List.length_map, String.length_toList, Option.mem_some_iff, forall_eq',
    Bool.and_eq_true, decide_eq_true_eq, List.all_eq_true]
  exact and_comm

/-! ### Names of test files -/

theorem matchStart_anchored {pattern : Pattern Nat} {text : PyStr} :
    (anchored pattern).matchStart text = true ↔ ∃ found rest, text = found ++ rest ∧
      pattern.Spans [] found rest ∧ (rest = [] ∨ rest = [10]) := by
  rw [Pattern.matchStart_eq_true, anchored]
  simp only [Pattern.Spans, Bool.or_eq_true, List.isEmpty_iff, decide_eq_true_eq]
  constructor
  · rintro ⟨_, rest, rfl, _, _, rfl, ⟨rfl, _⟩, found, _, rfl, hspans, rfl, hrest⟩
    rw [List.append_nil, List.nil_append]
    exact ⟨found, rest, rfl, hspans, hrest⟩
  · rintro ⟨found, rest, rfl, hspans, hrest⟩
    exact ⟨found, rest, rfl, [], found, rfl, ⟨rfl, trivial⟩, found, [], (List.append_nil found).symm,
      hspans, rfl, hrest⟩

/-- The name of a test file: on one line, between its prefix and its suffix. -/
def TestName (found : PyStr) : Prop :=
  ∃ middle, found = codes "test" ++ (middle ++ codes ".py") ∧ ∀ code ∈ middle, code ≠ 10

theorem testName_iff {found : PyStr} : TestName found ↔
    ((codes "test").isPrefixOf found && (codes ".py").isSuffixOf (found.drop 4) &&
      found.all (· ≠ 10)) = true := by
  rw [Bool.and_eq_true, Bool.and_eq_true, List.isPrefixOf_iff_prefix, List.isSuffixOf_iff_suffix,
    List.all_eq_true]
  simp only [decide_eq_true_eq]
  constructor
  · rintro ⟨middle, rfl, hmiddle⟩
    refine ⟨⟨List.prefix_append _ _, List.suffix_append middle _⟩, ?_⟩
    intro code hcode
    rw [List.mem_append, List.mem_append] at hcode
    rcases hcode with htest | hinner | hpy
    · rintro rfl
      exact absurd htest (by decide)
    · exact hmiddle code hinner
    · rintro rfl
      exact absurd hpy (by decide)
  · rintro ⟨⟨⟨rest, rfl⟩, hsuffix⟩, hall⟩
    obtain ⟨middle, hmiddle⟩ := hsuffix
    have hrest : rest = middle ++ codes ".py" := hmiddle.symm
    subst hrest
    refine ⟨middle, rfl, ?_⟩
    intro code hcode
    exact hall code (List.mem_append_right _ (List.mem_append_left _ hcode))

theorem testFilePattern_spans {found rest : PyStr} :
    (Pattern.seq (.literal (codes "test")) (.seq (.run (fun code => decide (code ≠ 10)) 0 none)
      (.literal (codes ".py")))).Spans [] found rest ↔ TestName found := by
  simp only [Pattern.Spans, Pattern.spans_literal, decide_eq_true_eq, TestName]
  constructor
  · rintro ⟨_, _, rfl, rfl, middle, _, rfl, ⟨hmiddle, _⟩, rfl⟩
    exact ⟨middle, rfl, hmiddle⟩
  · rintro ⟨middle, rfl, hmiddle⟩
    refine ⟨_, _, rfl, rfl, middle, _, rfl, ⟨hmiddle, Nat.zero_le _, ?_⟩, rfl⟩
    rintro bound ⟨⟩

/-- A test name ends in a letter. -/
theorem TestName.getLast? {found : PyStr} (hname : TestName found) :
    found.getLast? = some 121 := by
  obtain ⟨middle, rfl, _⟩ := hname
  have hpy : codes ".py" = [46, 112] ++ [121] := rfl
  rw [hpy, ← List.append_assoc, ← List.append_assoc, List.getLast?_concat]

theorem testFilePattern_eq (name : PyStr) :
    testFilePattern.matchStart name = isDiscoverable name := by
  rw [Bool.eq_iff_iff, testFilePattern, matchStart_anchored]
  simp only [testFilePattern_spans]
  rw [isDiscoverable, ← testName_iff]
  constructor
  · rintro ⟨found, rest, rfl, hname, rfl | rfl⟩
    · rw [List.append_nil, if_neg (by rw [hname.getLast?]; decide)]
      exact hname
    · rw [List.getLast?_concat, if_pos rfl, List.dropLast_concat]
      exact hname
  · intro hname
    by_cases hlast : name.getLast? = some 10
    · rw [if_pos hlast] at hname
      obtain ⟨front, rfl⟩ := List.getLast?_eq_some_iff.mp hlast
      rw [List.dropLast_concat] at hname
      exact ⟨front, [10], rfl, hname, .inr rfl⟩
    · rw [if_neg hlast] at hname
      exact ⟨name, [], (List.append_nil name).symm, hname, .inl rfl⟩

/-! ### Names that change a proof -/

theorem lineWords_eq (alnum : Nat → Bool) (begun line : PyStr) :
    lineWords alnum begun line = wordsFrom (isWordCode alnum) begun line := by
  induction line generalizing begun with
  | nil => simp [lineWords, wordsFrom, List.isEmpty_iff]
  | cons code line ih => simp [lineWords, wordsFrom, List.isEmpty_iff, ih]

theorem isConstantCode_eq (code : Nat) :
    among [('A', 'Z'), ('0', '9'), ('_', '_')] code = isConstantCode code := by
  rw [Bool.eq_iff_iff, among_iff]
  simp only [isConstantCode, List.mem_cons, List.not_mem_nil, or_false, exists_eq_or_imp,
    exists_eq_left, Bool.or_eq_true, Bool.and_eq_true, decide_eq_true_eq]
  change (65 ≤ code ∧ code ≤ 90) ∨ (48 ≤ code ∧ code ≤ 57) ∨ (95 ≤ code ∧ code ≤ 95) ↔ _
  omega

theorem isWordCode_of_constant {alnum : Nat → Bool} {code : Nat}
    (hconstant : isConstantCode code = true) : isWordCode alnum code = true := by
  rw [isWordCode, hconstant]
  rfl

/-- The words of the expression, without the boundaries around them. -/
theorem isProofChanging_iff {found : PyStr} : isProofChanging found = true ↔
    ∃ first left phrase right, found = first :: (left ++ (codes phrase ++ right)) ∧
      among [('A', 'Z')] first = true ∧
      phrase ∈ ["SKIP", "OPTIONAL", "NO_BUILD", "LOCAL_REBUILD", "NO_TEST"] ∧
      (∀ code ∈ left, among [('A', 'Z'), ('0', '9'), ('_', '_')] code = true) ∧
      ∀ code ∈ right, among [('A', 'Z'), ('0', '9'), ('_', '_')] code = true := by
  have hphrases : ∀ phrase ∈ ["SKIP", "OPTIONAL", "NO_BUILD", "LOCAL_REBUILD", "NO_TEST"],
      ∀ code ∈ codes phrase, isConstantCode code = true := by decide
  have hfirst : ∀ code, among [('A', 'Z')] code = (65 ≤ code && code ≤ 90) := by
    intro code
    rw [Bool.eq_iff_iff, among_iff]
    simp
  simp only [isConstantCode_eq, hfirst]
  cases found with
  | nil => simp [isProofChanging]
  | cons first rest =>
      simp only [isProofChanging, Bool.and_eq_true, List.any_eq_true, List.all_eq_true,
        decide_eq_true_eq, List.cons.injEq]
      constructor
      · rintro ⟨⟨hletter, hall⟩, phrase, hphrase, left, right, hsplit⟩
        rw [List.append_assoc] at hsplit
        subst hsplit
        refine ⟨first, left, phrase, right, ⟨rfl, rfl⟩, hletter, hphrase, ?_, ?_⟩
        · exact fun code hcode => hall code (List.mem_append_left _ hcode)
        · exact fun code hcode =>
            hall code (List.mem_append_right _ (List.mem_append_right _ hcode))
      · rintro ⟨_, left, phrase, right, ⟨rfl, rfl⟩, hletter, hphrase, hleft, hright⟩
        refine ⟨⟨hletter, ?_⟩, phrase, hphrase, left, right, List.append_assoc _ _ _⟩
        intro code hcode
        rw [List.mem_append, List.mem_append] at hcode
        rcases hcode with hinner | hmiddle | hinner
        · exact hleft code hinner
        · exact hphrases phrase hphrase code hmiddle
        · exact hright code hinner

/-- The boundaries around characters of a word leave no word character next to them. -/
theorem boundaries_iff {word : Nat → Bool} {before found after : PyStr} (hfound : found ≠ [])
    (hinside : ∀ code ∈ found, word code = true) :
    ((before.getLast?.any word != (found ++ after).head?.any word) = true ∧
        ((before ++ found).getLast?.any word != after.head?.any word) = true) ↔
      IsWord word before found after := by
  have hnone : ∀ {found : Option Nat}, found.any word = false ↔
      ∀ code ∈ found, word code = false := by
    intro found
    cases found <;> simp
  have hhead : (found ++ after).head?.any word = true := by
    obtain ⟨first, rest, rfl⟩ := List.exists_cons_of_ne_nil hfound
    exact hinside first List.mem_cons_self
  have hlast : (before ++ found).getLast?.any word = true := by
    rw [List.getLast?_append_of_ne_nil before hfound, List.getLast?_eq_some_getLast hfound]
    exact hinside _ (List.getLast_mem hfound)
  rw [hhead, hlast, Bool.bne_true, Bool.true_bne, Bool.not_eq_true', Bool.not_eq_true', hnone,
    hnone]
  constructor
  · rintro ⟨hstarts, hends⟩
    exact ⟨hfound, hinside, hstarts, hends⟩
  · intro hword
    exact ⟨hword.starts, hword.ends⟩

theorem word_of_isProofChanging {alnum : Nat → Bool} {found : PyStr}
    (hfound : isProofChanging found = true) :
    found ≠ [] ∧ ∀ code ∈ found, isWordCode alnum code = true := by
  cases found with
  | nil => cases hfound
  | cons first rest =>
      simp only [isProofChanging, Bool.and_eq_true, List.all_eq_true, decide_eq_true_eq] at hfound
      refine ⟨List.cons_ne_nil first rest, ?_⟩
      intro code hcode
      apply isWordCode_of_constant
      rcases List.mem_cons.mp hcode with rfl | hrest
      · simp [isConstantCode, hfound.1.1.1, hfound.1.1.2]
      · exact hfound.1.2 code hrest

theorem proofChangingName_spans {alnum : Nat → Bool} {before found after : PyStr} :
    (proofChangingName alnum).Spans before found after ↔
      ((before.getLast?.any (isWordCode alnum) !=
          (found ++ after).head?.any (isWordCode alnum)) = true ∧
        ((before ++ found).getLast?.any (isWordCode alnum) !=
          after.head?.any (isWordCode alnum)) = true) ∧ isProofChanging found = true := by
  have hphrases : ∀ {middle : PyStr}, (middle = codes "SKIP" ∨ middle = codes "OPTIONAL" ∨
      middle = codes "NO_BUILD" ∨ middle = codes "LOCAL_REBUILD" ∨ middle = codes "NO_TEST") ↔
        ∃ phrase ∈ ["SKIP", "OPTIONAL", "NO_BUILD", "LOCAL_REBUILD", "NO_TEST"],
          codes phrase = middle := by
    intro middle
    simp [eq_comm]
  have hunbounded : ∀ run : PyStr, ∀ bound ∈ (none : Option Nat), run.length ≤ bound := by
    rintro run bound ⟨⟩
  rw [isProofChanging_iff]
  simp only [proofChangingName, wordBoundary, Pattern.Spans, Pattern.spans_literal]
  constructor
  · rintro ⟨_, _, rfl, ⟨rfl, hstarts⟩, _, _, rfl, ⟨first, rfl, hfirst⟩, left, _, rfl,
      ⟨hleft, _⟩, middle, _, rfl, hmiddle, right, _, rfl, ⟨hright, _⟩, rfl, hends⟩
    obtain ⟨phrase, hphrase, rfl⟩ := hphrases.mp hmiddle
    simp only [List.append_nil, List.nil_append, List.cons_append, List.append_assoc]
      at hstarts hends ⊢
    exact ⟨⟨hstarts, hends⟩, first, left, phrase, right, rfl, hfirst, hphrase, hleft, hright⟩
  · rintro ⟨⟨hstarts, hends⟩, first, left, phrase, right, rfl, hfirst, hphrase, hleft, hright⟩
    refine ⟨[], _, rfl, ⟨rfl, hstarts⟩, [first], _, rfl, ⟨first, rfl, hfirst⟩, left, _, rfl,
      ⟨hleft, Nat.zero_le _, hunbounded left⟩, codes phrase, _, rfl,
      hphrases.mpr ⟨phrase, hphrase, rfl⟩, right, [], (List.append_nil right).symm,
      ⟨hright, Nat.zero_le _, hunbounded right⟩, rfl, ?_⟩
    simp only [List.append_nil, List.singleton_append, List.append_assoc] at hends ⊢
    exact hends

/-- The expression spans whole words, for its own characters are word characters. -/
theorem proofChangingName_wholeWords (alnum : Nat → Bool) :
    (proofChangingName alnum).WholeWords (isWordCode alnum) isProofChanging := by
  intro before found after
  rw [proofChangingName_spans]
  constructor
  · rintro ⟨hboundaries, hfound⟩
    obtain ⟨hne, hword⟩ := word_of_isProofChanging hfound
    exact ⟨(boundaries_iff hne hword).mp hboundaries, hfound⟩
  · rintro ⟨hword, hfound⟩
    exact ⟨(boundaries_iff hword.nonempty hword.inside).mpr hword, hfound⟩

/-- Every expression, run by the matcher, comes to what the model says it does. -/
structure PatternsExact : Prop where
  identifier : ∀ text, identifierPattern.fullmatch (codes text) = isIdentifier text
  referenceProvider : ∀ text,
    referenceProviderPattern.fullmatch (codes text) = isReferenceProvider text
  referenceSegment : ∀ text,
    referenceSegmentPattern.fullmatch (codes text) = isReferenceSegment text
  testFile : ∀ name, testFilePattern.matchStart name = isDiscoverable name
  proofChanging : ∀ alnum line,
    (proofChangingName alnum).findAll line = (lineWords alnum [] line).filter isProofChanging

theorem patterns_exact : PatternsExact where
  identifier := identifierPattern_eq
  referenceProvider := referenceProviderPattern_eq
  referenceSegment := referenceSegmentPattern_eq
  testFile := testFilePattern_eq
  proofChanging := by
    intro alnum line
    rw [lineWords_eq]
    exact findAll_words (proofChangingName_wholeWords alnum) line

-- A phrase needs a letter before it, and the word its end.
example : (proofChangingName fun _ => false).findAll (codes "SKIP A_SKIP=B_SKIPs") =
    [codes "A_SKIP"] := by
  decide

end SecretsCustody
