/-
Splitting URLs as `urlsplit` of the language does.  The text is cleaned first:
controls and spaces in front of it go, and so do tabs and line breaks anywhere
in it.
-/
import Mathlib.Data.List.TakeWhile
import Mathlib.Data.String.Basic

namespace Url

/-- `_WHATWG_C0_CONTROL_OR_SPACE`. -/
def isControlOrSpace (c : Char) : Bool :=
  c.toNat ≤ 0x20

/-- `_UNSAFE_URL_BYTES_TO_REMOVE`. -/
def isUnsafe (c : Char) : Bool :=
  c = '\t' || c = '\r' || c = '\n'

/-- The text that is split. -/
def clean (url : List Char) : List Char :=
  (url.dropWhile isControlOrSpace).filter fun c => !isUnsafe c

/-- `scheme_chars`. -/
def isSchemeChar (c : Char) : Bool :=
  c.isAlphanum || c = '+' || c = '-' || c = '.'

/-- A text up to the first character of a kind, and from it on. -/
def breakAt (kind : Char → Bool) (text : List Char) : List Char × List Char :=
  (text.takeWhile fun c => !kind c, text.dropWhile fun c => !kind c)

/-- The scheme in lower case, when the text starts with one, and the rest. -/
def splitScheme (url : List Char) : List Char × List Char :=
  match breakAt (· = ':') url with
  | (_, []) => ([], url)
  | (scheme, _ :: rest) =>
      if scheme.head?.any Char.isAlpha && scheme.all isSchemeChar then
        (scheme.map Char.toLower, rest)
      else ([], url)

/-- The characters a network location ends before. -/
def isDelimiter (c : Char) : Bool :=
  c = '/' || c = '?' || c = '#'

/-- `_splitnetloc`, where there is a network location. -/
def splitNetloc : List Char → List Char × List Char
  | '/' :: '/' :: rest => breakAt isDelimiter rest
  | url => ([], url)

/-- `text.split(c, 1)`, where the text has the character. -/
def cutAt (c : Char) (text : List Char) : List Char × List Char :=
  ((breakAt (· = c) text).1, (breakAt (· = c) text).2.drop 1)

/-- What is decided by tables of addresses and of Unicode. -/
structure Tables where
  bracketed : List Char → Bool
  nfkc : List Char → List Char

/-- `_checknetloc` raises. -/
def Tables.expands (tables : Tables) (netloc : List Char) : Bool :=
  let kept := netloc.filter fun c => c ∉ ['@', ':', '#', '?']
  !netloc.all (fun c => c.toNat < 128) && tables.nfkc kept ≠ kept &&
    (tables.nfkc kept).any fun c => c ∈ ['/', '?', '#', '@', ':']

/-- A network location is refused: its brackets are not those of an address, or it
expands to one with delimiters. -/
def Tables.refuses (tables : Tables) (netloc : List Char) : Bool :=
  ('[' ∈ netloc && !(']' ∈ netloc)) || (']' ∈ netloc && !('[' ∈ netloc)) ||
    ('[' ∈ netloc && ']' ∈ netloc && !tables.bracketed netloc) || tables.expands netloc

structure Parts where
  scheme : List Char
  netloc : List Char
  path : List Char
  query : List Char
  fragment : List Char

/-- The network location of a URL, empty where it has none. -/
def netloc (url : List Char) : List Char :=
  (splitNetloc (splitScheme (clean url)).2).1

/-- `urlsplit`; `none` is `ValueError`. -/
def split (tables : Tables) (url : List Char) : Option Parts :=
  if tables.refuses (netloc url) then none
  else
    let located := splitNetloc (splitScheme (clean url)).2
    let (rest, fragment) := cutAt '#' located.2
    let (path, query) := cutAt '?' rest
    some
      { scheme := (splitScheme (clean url)).1, netloc := located.1, path := path,
        query := query, fragment := fragment }

/-! ### Breaking -/

section

variable {kind : Char → Bool} {before : List Char}

/-- A text without the characters looked for is read up to its end. -/
theorem breakAt_absent (hbefore : ∀ c ∈ before, kind c = false) :
    breakAt kind before = (before, []) := by
  have htake : before.takeWhile (fun c => !kind c) = before :=
    List.takeWhile_eq_self_iff.mpr fun c hc => by simp [hbefore c hc]
  have hdrop : before.dropWhile (fun c => !kind c) = [] :=
    List.dropWhile_eq_nil_iff.mpr fun c hc => by simp [hbefore c hc]
  rw [breakAt, htake, hdrop]

theorem breakAt_found (hbefore : ∀ c ∈ before, kind c = false) {mark : Char}
    (hmark : kind mark = true) (after : List Char) :
    breakAt kind (before ++ mark :: after) = (before, mark :: after) := by
  have hkept : ∀ c ∈ before, (!kind c) = true := fun c hc => by simp [hbefore c hc]
  have hstop : ¬ (!kind mark) = true := by simp [hmark]
  rw [breakAt, List.takeWhile_append_of_pos hkept, List.dropWhile_append_of_pos hkept,
    List.takeWhile_cons_of_neg (p := fun c => !kind c) hstop,
    List.dropWhile_cons_of_neg (p := fun c => !kind c) hstop, List.append_nil]

/-- Where a text is broken. -/
theorem breakAt_eq (kind : Char → Bool) (text : List Char) :
    text = (breakAt kind text).1 ++ (breakAt kind text).2 ∧
      (∀ c ∈ (breakAt kind text).1, kind c = false) ∧
        ((breakAt kind text).2 = [] ∨
          ∃ mark after, (breakAt kind text).2 = mark :: after ∧ kind mark = true) := by
  refine ⟨List.takeWhile_append_dropWhile.symm, ?_, ?_⟩
  · intro c hc
    simpa using List.mem_takeWhile_imp hc
  · have hhead := List.head?_dropWhile_not (fun c => !kind c) text
    cases hrest : text.dropWhile fun c => !kind c with
    | nil => exact .inl hrest
    | cons mark after =>
        rw [hrest] at hhead
        exact .inr ⟨mark, after, hrest, by simpa using hhead⟩

end

theorem cutAt_absent {c : Char} {text : List Char} (habsent : c ∉ text) :
    cutAt c text = (text, []) := by
  have hbreak : breakAt (· = c) text = (text, []) := by
    apply breakAt_absent
    rintro d hd
    simpa using fun hsame : d = c => habsent (hsame ▸ hd)
  rw [cutAt, hbreak]
  rfl

theorem cutAt_found {c : Char} {before : List Char} (hbefore : c ∉ before) (after : List Char) :
    cutAt c (before ++ c :: after) = (before, after) := by
  have hbreak : breakAt (· = c) (before ++ c :: after) = (before, c :: after) := by
    apply breakAt_found
    · rintro d hd
      simpa using fun hsame : d = c => hbefore (hsame ▸ hd)
    · simp
  rw [cutAt, hbreak]
  rfl

/-- A text cut with nothing after the cut. -/
theorem cutAt_empty {c : Char} {text before : List Char} (hcut : cutAt c text = (before, [])) :
    c ∉ before ∧ (text = before ∨ text = before ++ [c]) := by
  obtain ⟨htext, hkept, hmark⟩ := breakAt_eq (· = c) text
  obtain ⟨rfl, hafter⟩ := Prod.mk.inj hcut
  refine ⟨fun hc => by simpa using hkept c hc, ?_⟩
  rcases hmark with hnone | ⟨mark, after, hrest, hmark⟩
  · rw [hnone, List.append_nil] at htext
    exact .inl htext
  · rw [hrest] at hafter htext
    rw [List.drop_one, List.tail_cons] at hafter
    rw [hafter, of_decide_eq_true hmark] at htext
    exact .inr htext

/-- A text without controls and spaces is split as it is. -/
theorem clean_eq_self {url : List Char} (hurl : ∀ c ∈ url, isControlOrSpace c = false) :
    clean url = url := by
  have hdrop : url.dropWhile isControlOrSpace = url := by
    cases url with
    | nil => rfl
    | cons c url =>
        apply List.dropWhile_cons_of_neg
        rw [hurl c List.mem_cons_self]
        decide
  rw [clean, hdrop]
  apply List.filter_eq_self.mpr
  intro c hc
  have hshown := hurl c hc
  rw [Bool.not_eq_true']
  by_contra hunsafe
  rw [Bool.not_eq_false, isUnsafe] at hunsafe
  simp only [Bool.or_eq_true, decide_eq_true_eq] at hunsafe
  rcases hunsafe with (rfl | rfl) | rfl
  · cases hshown
  · cases hshown
  · cases hshown

/-! ### Schemes and locations -/

theorem splitScheme_found {scheme : List Char} (hhead : scheme.head?.any Char.isAlpha = true)
    (hscheme : ∀ c ∈ scheme, isSchemeChar c = true) (rest : List Char) :
    splitScheme (scheme ++ ':' :: rest) = (scheme.map Char.toLower, rest) := by
  have hbreak : breakAt (· = ':') (scheme ++ ':' :: rest) = (scheme, ':' :: rest) := by
    apply breakAt_found
    · intro c hc
      apply decide_eq_false
      rintro rfl
      exact absurd (hscheme _ hc) (by decide)
    · rfl
  rw [splitScheme, hbreak]
  have hboth : (scheme.head?.any Char.isAlpha && scheme.all isSchemeChar) = true := by
    rw [hhead, List.all_eq_true.mpr hscheme]
    rfl
  dsimp only
  rw [if_pos hboth]

/-- Where a scheme came from. -/
theorem splitScheme_eq {url : List Char} (hsome : (splitScheme url).1 ≠ []) :
    ∃ scheme, url = scheme ++ ':' :: (splitScheme url).2 ∧
      scheme.map Char.toLower = (splitScheme url).1 := by
  obtain ⟨hurl, _, hmark⟩ := breakAt_eq (· = ':') url
  rcases hmark with hnone | ⟨mark, rest, hrest, hmark⟩
  · have habsent : splitScheme url = ([], url) := by
      rw [splitScheme, ← Prod.mk.eta (p := breakAt (· = ':') url), hnone]
    rw [habsent] at hsome
    exact absurd rfl hsome
  · rw [hrest, of_decide_eq_true hmark] at hurl
    have hfound : splitScheme url =
        if (breakAt (· = ':') url).1.head?.any Char.isAlpha &&
            (breakAt (· = ':') url).1.all isSchemeChar then
          ((breakAt (· = ':') url).1.map Char.toLower, rest)
        else ([], url) := by
      rw [splitScheme, ← Prod.mk.eta (p := breakAt (· = ':') url), hrest]
    rw [hfound] at hsome ⊢
    by_cases hboth : ((breakAt (· = ':') url).1.head?.any Char.isAlpha &&
        (breakAt (· = ':') url).1.all isSchemeChar) = true
    · rw [if_pos hboth]
      exact ⟨(breakAt (· = ':') url).1, hurl, rfl⟩
    · rw [if_neg hboth] at hsome
      exact absurd rfl hsome

theorem splitNetloc_found {netloc rest : List Char} (hnetloc : ∀ c ∈ netloc, isDelimiter c = false)
    {mark : Char} (hmark : isDelimiter mark = true) :
    splitNetloc ('/' :: '/' :: (netloc ++ mark :: rest)) = (netloc, mark :: rest) :=
  breakAt_found hnetloc hmark rest

theorem splitNetloc_eq {url : List Char} (hsome : (splitNetloc url).1 ≠ []) :
    url = '/' :: '/' :: ((splitNetloc url).1 ++ (splitNetloc url).2) := by
  unfold splitNetloc at hsome ⊢
  split at hsome
  · next rest => exact congrArg (fun text => '/' :: '/' :: text) (breakAt_eq isDelimiter rest).1
  · exact absurd rfl hsome

/-! ### Whole URLs -/

/-- What an empty query and an empty fragment can look like. -/
def emptyTails : List (List Char) :=
  [[], ['?'], ['#'], ['?', '#']]

theorem cut_emptyTail {path tail : List Char} (hquery : '?' ∉ path) (hfragment : '#' ∉ path)
    (htail : tail ∈ emptyTails) :
    (cutAt '#' (path ++ tail)).2 = [] ∧ cutAt '?' (cutAt '#' (path ++ tail)).1 = (path, []) := by
  have hmarked : '#' ∉ path ++ ['?'] := by
    rw [List.mem_append, List.mem_singleton]
    rintro (hpath | hsame)
    · exact hfragment hpath
    · exact absurd hsame (by decide)
  simp only [emptyTails, List.mem_cons, List.not_mem_nil, or_false] at htail
  rcases htail with rfl | rfl | rfl | rfl
  · rw [List.append_nil, cutAt_absent hfragment]
    exact ⟨rfl, cutAt_absent hquery⟩
  · rw [cutAt_absent hmarked]
    exact ⟨rfl, cutAt_found hquery []⟩
  · rw [cutAt_found hfragment]
    exact ⟨rfl, cutAt_absent hquery⟩
  · have hcut := cutAt_found hmarked []
    rw [List.append_assoc, List.singleton_append] at hcut
    rw [hcut]
    exact ⟨rfl, cutAt_found hquery []⟩

/-- A path with nothing in its query or its fragment. -/
theorem emptyTail_of_cut {rest before path : List Char} (hfragment : cutAt '#' rest = (before, []))
    (hquery : cutAt '?' before = (path, [])) :
    '?' ∉ path ∧ '#' ∉ path ∧ ∃ tail ∈ emptyTails, rest = path ++ tail := by
  obtain ⟨hmarked, hrest⟩ := cutAt_empty hfragment
  obtain ⟨hpath, hbefore⟩ := cutAt_empty hquery
  rcases hbefore with rfl | rfl
  · rcases hrest with rfl | rfl
    · exact ⟨hpath, hmarked, [], by decide, (List.append_nil _).symm⟩
    · exact ⟨hpath, hmarked, ['#'], by decide, rfl⟩
  · have hplain : '#' ∉ path := fun hmem => hmarked (List.mem_append_left _ hmem)
    rcases hrest with rfl | rfl
    · exact ⟨hpath, hplain, ['?'], by decide, rfl⟩
    · exact ⟨hpath, hplain, ['?', '#'], by decide, List.append_assoc _ _ _⟩

/-- A URL with a scheme, a location and a path, whose query and fragment are empty. -/
structure Locates (url scheme netloc path : List Char) : Prop where
  written : ∃ tail ∈ emptyTails, clean url = scheme ++ ':' :: '/' :: '/' :: (netloc ++ (path ++ tail))
  query : '?' ∉ path
  fragment : '#' ∉ path

variable {tables : Tables} {url : List Char}

theorem split_eq_none_iff : split tables url = none ↔ tables.refuses (netloc url) = true := by
  rw [split]
  split
  · next hrefuses => exact iff_of_true rfl hrefuses
  · next hrefuses => exact iff_of_false (by rintro ⟨⟩) hrefuses

/-- How a URL that locates something is split. -/
theorem Locates.split {scheme location path : List Char}
    (hlocates : Locates url scheme location ('/' :: path))
    (hhead : scheme.head?.any Char.isAlpha = true) (hscheme : ∀ c ∈ scheme, isSchemeChar c = true)
    (hlocation : ∀ c ∈ location, isDelimiter c = false)
    (hrefuses : tables.refuses location = false) :
    split tables url =
      some { scheme := scheme.map Char.toLower, netloc := location, path := '/' :: path,
             query := [], fragment := [] } := by
  obtain ⟨tail, htail, hwritten⟩ := hlocates.written
  have hfound := splitScheme_found hhead hscheme
    ('/' :: '/' :: (location ++ ('/' :: path ++ tail)))
  rw [← hwritten] at hfound
  have hlocated : splitNetloc (splitScheme (clean url)).2 = (location, '/' :: path ++ tail) := by
    rw [hfound]
    exact splitNetloc_found hlocation rfl
  obtain ⟨hempty, hcut⟩ := cut_emptyTail hlocates.query hlocates.fragment htail
  have haccepts : ¬ tables.refuses (netloc url) = true := by
    rw [netloc, hlocated, hrefuses]
    decide
  rw [Url.split, if_neg haccepts, hlocated]
  dsimp only
  rw [hfound, hempty, hcut]

/-- What a split URL with a scheme and a location, and nothing after its path, was. -/
theorem locates_of_split {parts : Parts} (hsplit : split tables url = some parts)
    (hscheme : parts.scheme ≠ []) (hlocation : parts.netloc ≠ []) (hquery : parts.query = [])
    (hfragment : parts.fragment = []) :
    ∃ scheme, Locates url scheme parts.netloc parts.path ∧
      scheme.map Char.toLower = parts.scheme := by
  rw [Url.split] at hsplit
  split at hsplit
  · cases hsplit
  · cases hsplit
    obtain ⟨scheme, hclean, hlower⟩ := splitScheme_eq hscheme
    have hlocated := splitNetloc_eq hlocation
    obtain ⟨hnoquery, hnofragment, tail, htail, hrest⟩ :=
      emptyTail_of_cut (Prod.ext rfl hfragment) (Prod.ext rfl hquery)
    refine ⟨scheme, ⟨⟨tail, htail, ?_⟩, hnoquery, hnofragment⟩, hlower⟩
    rw [hrest] at hlocated
    exact hclean.trans (congrArg (fun rest => scheme ++ ':' :: rest) hlocated)

/-! ### Splitting texts at slashes -/

open String in
theorem splitOnAux_slash (l m r : List Char) (acc : List String) :
    splitOnAux (ofList (l ++ m ++ r)) "/" ⟨utf8Len l⟩ ⟨utf8Len l + utf8Len m⟩ 0 acc =
      acc.reverse ++ (List.splitOnPPrepend (· == '/') r m.reverse).map ofList := by
  have hget : Pos.Raw.get "/" 0 = '/' := by decide
  have hnext : Pos.Raw.next "/" 0 = ⟨1⟩ := by decide
  have hend : Pos.Raw.atEnd "/" ⟨1⟩ = true := by decide
  induction r generalizing l m acc with
  | nil =>
      have hdone : Pos.Raw.atEnd (ofList (l ++ m ++ [])) ⟨utf8Len l + utf8Len m⟩ = true := by
        simp only [atEnd_iff, rawEndPos_ofList, utf8Len_append, utf8Len_nil, Nat.add_zero,
          Pos.Raw.mk_le_mk, Nat.le_refl]
      unfold splitOnAux
      rw [if_pos hdone]
      simpa using extract_of_valid l m []
  | cons c r ih =>
      have hmore : ¬ Pos.Raw.atEnd (ofList (l ++ m ++ c :: r)) ⟨utf8Len l + utf8Len m⟩ = true := by
        have hsize := Char.utf8Size_pos c
        simp only [atEnd_iff, rawEndPos_ofList, utf8Len_append, utf8Len_cons, Pos.Raw.mk_le_mk]
        omega
      have hc := get_of_valid (l ++ m) (c :: r)
      have hstep := next_of_valid (l ++ m) c r
      rw [utf8Len_append] at hc hstep
      unfold splitOnAux
      rw [hget, hnext, if_neg hmore, hc, List.headD_cons, if_pos hend]
      by_cases hslash : c = '/'
      · subst hslash
        have hpiece : Pos.Raw.extract (ofList (l ++ m ++ '/' :: r)) ⟨utf8Len l⟩
            ((⟨utf8Len l + utf8Len m + 1⟩ : Pos.Raw).unoffsetBy ⟨1⟩) = ofList m :=
          extract_of_valid l m ('/' :: r)
        have hrest := ih (l ++ m ++ ['/']) [] (ofList m :: acc)
        rw [if_pos (beq_self_eq_true '/'), hstep]
        rw [List.splitOnPPrepend_cons_eq_if, if_pos (beq_self_eq_true '/')]
        simp only [utf8Len_append, utf8Len_cons, utf8Len_nil, Nat.zero_add, Nat.add_zero,
          List.append_assoc, List.singleton_append] at hrest hpiece ⊢
        have hone : '/'.utf8Size = 1 := by decide
        rw [hone] at hrest ⊢
        rw [hpiece]
        simpa [Nat.add_assoc] using hrest
      · have hrest := ih l (m ++ [c]) acc
        have hne : ¬ (c == '/') = true := by simpa using hslash
        rw [if_neg hne, List.splitOnPPrepend_cons_eq_if, if_neg hne]
        change splitOnAux _ _ _ (Pos.Raw.next _ ⟨utf8Len l + utf8Len m⟩) _ _ = _
        rw [hstep]
        simp only [utf8Len_append, utf8Len_cons, utf8Len_nil, Nat.zero_add, ← Nat.add_assoc,
          List.append_assoc, List.singleton_append, List.reverse_append, List.reverse_singleton]
          at hrest ⊢
        exact hrest

theorem splitOn_slash (text : String) :
    text.splitOn "/" = (text.toList.splitOn '/').map String.ofList := by
  have hsplit := splitOnAux_slash [] [] text.toList []
  rw [List.nil_append, List.nil_append, String.ofList_toList] at hsplit
  exact hsplit

end Url
