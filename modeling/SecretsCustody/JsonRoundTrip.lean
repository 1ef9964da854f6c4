/-
The reader inverts the writer.  Every value without floats, whose strings are
Unicode text and whose objects have unique keys, is read back from the text
written for it; so that text determines the value up to the order of keys.
-/
import SecretsCustody.JsonText
import Mathlib.Tactic.Ring
import Mathlib.Tactic.IntervalCases

namespace JsonText

theorem codes_injective : Function.Injective codes := by
  intro left right heq
  have hlists : left.toList = right.toList :=
    List.map_injective_iff.mpr (fun _ _ h => Char.ext (UInt32.toNat_inj.mp h)) heq
  exact String.toList_injective hlists

@[simp] theorem codes_inj {left right : String} : codes left = codes right ↔ left = right :=
  codes_injective.eq_iff

/-- A string without unpaired surrogates: the code points of some text. -/
def PlainText (text : PyStr) : Prop :=
  ∀ code ∈ text, IsScalar code

theorem codes_plain (text : String) : PlainText (codes text) := by
  intro code hcode
  simp only [codes, List.mem_map] at hcode
  obtain ⟨c, _, rfl⟩ := hcode
  have hvalid := c.valid
  simp only [UInt32.isValidChar, Nat.isValidChar] at hvalid
  simp only [IsScalar, Char.toNat]
  omega

mutual

/-- The values the program writes. -/
def Plain : Json → Prop
  | .null => True
  | .bool _ => True
  | .int _ => True
  | .float _ => False
  | .str text => PlainText text
  | .arr items => PlainItems items
  | .obj entries => (entries.map Prod.fst).Nodup ∧ PlainEntries entries

def PlainItems : List Json → Prop
  | [] => True
  | item :: items => Plain item ∧ PlainItems items

def PlainEntries : List (PyStr × Json) → Prop
  | [] => True
  | (key, value) :: entries => PlainText key ∧ Plain value ∧ PlainEntries entries

end

theorem plainEntries_iff (entries : List (PyStr × Json)) :
    PlainEntries entries ↔ ∀ entry ∈ entries, PlainText entry.1 ∧ Plain entry.2 := by
  induction entries with
  | nil => simp [PlainEntries]
  | cons entry entries ih =>
      obtain ⟨key, value⟩ := entry
      simp [PlainEntries, ih, and_assoc]

/-! ### Strings -/

theorem hexValue_hexDigit {digit : Nat} (hdigit : digit < 16) :
    hexValue (hexDigit digit) = some digit := by
  interval_cases digit <;> decide

theorem scanHex4_hex4 {code : Nat} (hcode : code < 0x10000) (rest : List Char) :
    scanHex4 (hex4 code ++ rest) = some (code, rest) := by
  have hmod (n : Nat) : hexValue (hexDigit (n % 16)) = some (n % 16) :=
    hexValue_hexDigit (Nat.mod_lt n (by decide))
  simp only [hex4, List.cons_append, List.nil_append, scanHex4, hmod, Option.bind_eq_bind,
    Option.bind_some, Option.some.injEq, Prod.mk.injEq, and_true]
  omega

theorem scanUnicode_scalar {code : Nat} (hscalar : IsScalar code)
    (hcode : code < 0x10000) (rest : List Char) :
    scanUnicode (hex4 code ++ rest) = some (code, rest) := by
  have hlone : ¬ (0xD800 ≤ code ∧ code < 0xDC00) := by
    simp only [IsScalar] at hscalar
    omega
  simp [scanUnicode, scanHex4_hex4 hcode, hlone]

theorem scanUnicode_pair {lead trail : Nat} (hlead : 0xD800 ≤ lead ∧ lead < 0xDC00)
    (htrail : 0xDC00 ≤ trail ∧ trail < 0xE000) (rest : List Char) :
    scanUnicode (hex4 lead ++ (unicodeEscape trail ++ rest)) =
      some (0x10000 + (lead - 0xD800) * 0x400 + (trail - 0xDC00), rest) := by
  have hleadScan := scanHex4_hex4 (show lead < 0x10000 by omega) (unicodeEscape trail ++ rest)
  have htrailScan := scanHex4_hex4 (show trail < 0x10000 by omega) rest
  unfold scanUnicode
  rw [hleadScan]
  simp only [unicodeEscape, List.cons_append, htrailScan, if_pos hlead, if_pos htrail]

theorem scanString_backslash {code : Nat} {text rest : List Char}
    (hscan : scanEscape text = some (code, rest)) (fuel : Nat) :
    scanString (fuel + 1) ('\\' :: text) =
      (scanString fuel rest).map fun found => (code :: found.1, found.2) := by
  simp [scanString, hscan]

theorem scanString_unicodeEscape {code : Nat} {text rest : List Char}
    (hscan : scanUnicode text = some (code, rest)) (fuel : Nat) :
    scanString (fuel + 1) ('\\' :: 'u' :: text) =
      (scanString fuel rest).map fun found => (code :: found.1, found.2) :=
  scanString_backslash (by simp [scanEscape, hscan]) fuel

/-- One code point is read back from what the writer emits for it. -/
theorem scanString_escapeCode {code : Nat} (hscalar : IsScalar code)
    (fuel : Nat) (rest : List Char) :
    scanString (fuel + 1) (escapeCode code ++ rest) =
      (scanString fuel rest).map fun found => (code :: found.1, found.2) := by
  unfold escapeCode
  split_ifs with hquote hslash hnewline hreturn htab hfeed hback hprint hbmp
  case pos => subst hquote; exact scanString_backslash rfl fuel
  case pos => subst hslash; exact scanString_backslash rfl fuel
  case pos => subst hnewline; exact scanString_backslash rfl fuel
  case pos => subst hreturn; exact scanString_backslash rfl fuel
  case pos => subst htab; exact scanString_backslash rfl fuel
  case pos => subst hfeed; exact scanString_backslash rfl fuel
  case pos => subst hback; exact scanString_backslash rfl fuel
  case pos =>
    have hnat : (Char.ofNat code).toNat = code := by
      rw [Char.ofNat, dif_pos (Or.inl (by omega))]
      rfl
    have hne (c : Char) (hc : code ≠ c.toNat) : Char.ofNat code ≠ c := by
      rintro rfl
      exact hc hnat.symm
    have hlarge : ¬ code < 0x20 := by omega
    simp [scanString, hne '"' (by simpa using hquote), hne '\\' (by simpa using hslash), hnat,
      hlarge]
  case pos =>
    simpa [unicodeEscape] using
      scanString_unicodeEscape (scanUnicode_scalar hscalar hbmp rest) fuel
  case neg =>
    have hbound : code < 0x110000 := by
      simp only [IsScalar] at hscalar
      omega
    have hlead : 0xD800 ≤ 0xD800 + (code - 0x10000) / 0x400 ∧
        0xD800 + (code - 0x10000) / 0x400 < 0xDC00 := by omega
    have htrail : 0xDC00 ≤ 0xDC00 + (code - 0x10000) % 0x400 ∧
        0xDC00 + (code - 0x10000) % 0x400 < 0xE000 := by omega
    have hpair := scanUnicode_pair hlead htrail rest
    have hjoin : 0x10000 + (0xD800 + (code - 0x10000) / 0x400 - 0xD800) * 0x400 +
        (0xDC00 + (code - 0x10000) % 0x400 - 0xDC00) = code := by omega
    rw [hjoin] at hpair
    rw [List.append_assoc]
    exact scanString_unicodeEscape hpair fuel

theorem scanString_escape {text : PyStr} (hplain : PlainText text) (rest : List Char) :
    ∀ fuel, text.length < fuel →
      scanString fuel (escape text ++ '"' :: rest) = some (text, rest) := by
  induction text with
  | nil =>
      intro fuel hfuel
      obtain ⟨fuel, rfl⟩ := Nat.exists_eq_succ_of_ne_zero (Nat.ne_of_gt hfuel)
      simp [escape, scanString]
  | cons code text ih =>
      intro fuel hfuel
      obtain ⟨fuel, rfl⟩ := Nat.exists_eq_succ_of_ne_zero (Nat.ne_zero_of_lt hfuel)
      have htail := ih (fun code hcode => hplain code (List.mem_cons_of_mem _ hcode)) fuel
        (by simpa using hfuel)
      have hcode : IsScalar code := hplain code List.mem_cons_self
      simp only [escape, List.flatMap_cons, List.append_assoc] at htail ⊢
      rw [scanString_escapeCode hcode, htail]
      rfl

theorem escapeCode_ne_nil (code : Nat) : 0 < (escapeCode code).length := by
  unfold escapeCode
  split_ifs <;> simp [unicodeEscape]

theorem length_le_escape (text : PyStr) : text.length ≤ (escape text).length := by
  induction text with
  | nil => simp
  | cons code text ih =>
      have hcode := escapeCode_ne_nil code
      simp only [escape, List.flatMap_cons, List.length_append, List.length_cons] at ih ⊢
      omega

theorem scanQuoted_escape {text : PyStr} (hplain : PlainText text) (rest : List Char) :
    scanQuoted (escape text ++ '"' :: rest) = some (text, rest) := by
  apply scanString_escape hplain
  have hlength := length_le_escape text
  simp only [List.length_append, List.length_cons]
  omega

/-! ### Numbers -/

/-- What may follow a value: nothing that would continue a number. -/
def Stops (rest : List Char) : Prop :=
  ∀ c tail, rest = c :: tail →
    c.isDigit = false ∧ c ≠ '.' ∧ c ≠ 'e' ∧ c ≠ 'E'

theorem stops_nil : Stops [] := by
  intro c tail heq
  cases heq

theorem stops_cons {c : Char} {tail : List Char}
    (hc : c.isDigit = false ∧ c ≠ '.' ∧ c ≠ 'e' ∧ c ≠ 'E') : Stops (c :: tail) := by
  intro c' tail' heq
  obtain ⟨rfl, _⟩ := List.cons.inj heq
  exact hc

theorem takeWhile_digits {digits rest : List Char} (hdigits : ∀ c ∈ digits, c.isDigit)
    (hstops : Stops rest) : (digits ++ rest).takeWhile Char.isDigit = digits := by
  rw [List.takeWhile_append_of_pos hdigits]
  cases rest with
  | nil => simp
  | cons c tail => simp [(hstops c tail rfl).1]

theorem dropWhile_digits {digits rest : List Char} (hdigits : ∀ c ∈ digits, c.isDigit)
    (hstops : Stops rest) : (digits ++ rest).dropWhile Char.isDigit = rest := by
  rw [List.dropWhile_append_of_pos hdigits]
  cases rest with
  | nil => simp
  | cons c tail => simp [(hstops c tail rfl).1]

/-- A positive number is not written with a leading zero. -/
theorem toDigits_head (n : Nat) :
    ∃ c tail, Nat.toDigits 10 n = c :: tail ∧ c.isDigit ∧ (c = '0' → tail = []) := by
  induction n using Nat.strong_induction_on with
  | h n ih =>
      by_cases hsmall : n < 10
      · refine ⟨n.digitChar, [], Nat.toDigits_of_lt_base hsmall, ?_, fun _ => rfl⟩
        simpa using hsmall
      · obtain ⟨c, tail, heq, hdigit, hzero⟩ := ih (n / 10) (by omega)
        refine ⟨c, tail ++ [(n % 10).digitChar], ?_, hdigit, ?_⟩
        · rw [Nat.toDigits_of_base_le (by decide) (by omega), heq]
          rfl
        · intro hc
          have hnil := hzero hc
          subst hc hnil
          have hvalue := Nat.ofDigitChars_ten_toDigits (n := n / 10)
          rw [heq] at hvalue
          simp [Nat.ofDigitChars] at hvalue
          omega

theorem scanDigits_toDigits (n : Nat) {rest : List Char} (hstops : Stops rest) :
    scanDigits (Nat.toDigits 10 n ++ rest) = some (Nat.toDigits 10 n, rest) := by
  have hall : ∀ c ∈ Nat.toDigits 10 n, c.isDigit := fun c hc =>
    Nat.isDigit_of_mem_toDigits (by decide) (by decide) hc
  obtain ⟨c, tail, heq, hdigit, hzero⟩ := toDigits_head n
  rw [heq] at hall ⊢
  by_cases hc : c = '0'
  · rw [hzero hc, hc]
    simp [scanDigits]
  · have htake := takeWhile_digits hall hstops
    have hdrop := dropWhile_digits hall hstops
    simp only [List.cons_append] at htake hdrop
    simp only [scanDigits, List.cons_append, if_neg hc, hdigit, if_true, htake, hdrop]

theorem scanFraction_stops {rest : List Char} (hstops : Stops rest) :
    scanFraction rest = ([], rest) := by
  cases rest with
  | nil => rfl
  | cons c tail =>
      have hdot := (hstops c tail rfl).2.1
      unfold scanFraction
      split
      · rename_i heq
        exact absurd (List.cons.inj heq).1 hdot
      · rfl

theorem scanExponent_stops {rest : List Char} (hstops : Stops rest) :
    scanExponent rest = ([], rest) := by
  cases rest with
  | nil => rfl
  | cons c tail =>
      have hexp := (hstops c tail rfl).2.2
      simp [scanExponent, hexp]

theorem scanNumber_toDigits (negative : Bool) (n : Nat) {rest : List Char}
    (hstops : Stops rest) :
    scanNumber negative (Nat.toDigits 10 n ++ rest) =
      some (.int (if negative then -(n : Int) else n), rest) := by
  simp [scanNumber, scanDigits_toDigits n hstops, scanFraction_stops hstops,
    scanExponent_stops hstops, Nat.ofDigitChars_ten_toDigits]

theorem not_isPrefixOf_of_head {c d : Char} {word text : List Char} (hne : c ≠ d) :
    (c :: word).isPrefixOf (d :: text) = false := by
  simp [List.isPrefixOf, hne]

theorem isDigit_ne {c d : Char} (hc : c.isDigit = true) (hd : d.isDigit = false) : d ≠ c := by
  rintro rfl
  rw [hc] at hd
  cases hd

/-- No constant starts with a character that starts none of the words. -/
theorem scanConstant_eq_none {c : Char} (text : List Char) :
    ∀ {table : List (List Char × Json)},
      (∀ entry ∈ table, ∃ d word, entry.1 = d :: word ∧ d ≠ c) →
      scanConstant (c :: text) table = none := by
  intro table
  induction table with
  | nil => intro _; rfl
  | cons entry table ih =>
      intro hwords
      obtain ⟨d, word, hword, hne⟩ := hwords entry List.mem_cons_self
      obtain ⟨found, value⟩ := entry
      simp only at hword
      subst hword
      rw [scanConstant, not_isPrefixOf_of_head hne]
      exact ih fun entry hentry => hwords entry (List.mem_cons_of_mem _ hentry)

theorem scanConstant_of_digit {c : Char} (hc : c.isDigit = true) (text : List Char) :
    scanConstant (c :: text) constants = none := by
  apply scanConstant_eq_none
  intro entry hentry
  simp only [constants, List.mem_cons, List.not_mem_nil, or_false] at hentry
  rcases hentry with rfl | rfl | rfl | rfl | rfl | rfl <;>
    exact ⟨_, _, rfl, isDigit_ne hc (by decide)⟩

theorem scanAtom_toDigits (n : Nat) {rest : List Char} (hstops : Stops rest) :
    scanAtom (Nat.toDigits 10 n ++ rest) = some (.int n, rest) := by
  have hnumber := scanNumber_toDigits false n hstops
  obtain ⟨c, tail, heq, hdigit, _⟩ := toDigits_head n
  rw [heq, List.cons_append] at hnumber ⊢
  unfold scanAtom
  rw [scanConstant_of_digit hdigit]
  dsimp only
  split
  · rename_i hcons
    exact absurd (List.cons.inj hcons).1.symm (isDigit_ne hdigit (by decide))
  · simpa using hnumber

theorem scanAtom_negative (n : Nat) {rest : List Char} (hstops : Stops rest) :
    scanAtom ('-' :: (Nat.toDigits 10 (n + 1) ++ rest)) = some (.int (Int.negSucc n), rest) := by
  have hnumber := scanNumber_toDigits true (n + 1) hstops
  obtain ⟨c, tail, heq, hdigit, _⟩ := toDigits_head (n + 1)
  have hne : 'I' ≠ c := isDigit_ne hdigit (by decide)
  have hconstant : scanConstant ('-' :: (Nat.toDigits 10 (n + 1) ++ rest)) constants = none := by
    rw [heq]
    simp [constants, scanConstant, hne]
  rw [scanAtom, hconstant]
  simp only [hnumber, if_true, Int.negSucc_eq]
  norm_cast

theorem scanAtom_intText (value : Int) {rest : List Char} (hstops : Stops rest) :
    scanAtom (intText value ++ rest) = some (.int value, rest) := by
  cases value with
  | ofNat n => exact scanAtom_toDigits n hstops
  | negSucc n => exact scanAtom_negative n hstops

/-! ### Values -/

theorem skipSpace_cons {c : Char} (hc : isSpace c = false) (rest : List Char) :
    skipSpace (c :: rest) = c :: rest := by
  simp [skipSpace, hc]

theorem skipSpace_pad (sep : Separators) (rest : List Char) :
    skipSpace (sep.pad ++ rest) = skipSpace rest := by
  cases sep <;> rfl

/-- A value never starts with space, a closing bracket or a byte order mark. -/
theorem render_head (sep : Separators) {value : Json} (hplain : Plain value) :
    ∃ c tail, render sep value = c :: tail ∧ isSpace c = false ∧ c ≠ ']' ∧
      c ≠ Char.ofNat 0xFEFF := by
  cases value with
  | null => exact ⟨'n', _, rfl, by decide⟩
  | bool value => cases value <;> exact ⟨_, _, rfl, by decide⟩
  | int value =>
      cases value with
      | ofNat n =>
          obtain ⟨c, tail, heq, hdigit, _⟩ := toDigits_head n
          refine ⟨c, tail, heq, ?_, (isDigit_ne hdigit (by decide)).symm,
            (isDigit_ne hdigit (by decide)).symm⟩
          have hspace (d : Char) (hd : d.isDigit = false) : c ≠ d :=
            (isDigit_ne hdigit hd).symm
          simp [isSpace, hspace ' ' (by decide), hspace '\t' (by decide),
            hspace '\n' (by decide), hspace '\r' (by decide)]
      | negSucc n => exact ⟨'-', _, rfl, by decide⟩
  | float literal => simp [Plain] at hplain
  | str text => exact ⟨'"', _, rfl, by decide⟩
  | arr items => cases items <;> exact ⟨'[', _, by rw [render], by decide⟩
  | obj entries => cases entries <;> exact ⟨'{', _, by rw [render], by decide⟩

/-- Outside strings and brackets a value is read by `scanAtom`. -/
theorem parseValue_atom {fuel : Nat} {c : Char} {rest : List Char}
    (hquote : c ≠ '"') (hbrace : c ≠ '{') (hbracket : c ≠ '[') :
    parseValue (fuel + 1) (c :: rest) = scanAtom (c :: rest) := by
  simp [parseValue, hquote, hbrace, hbracket]

theorem parseValue_intText (value : Int) (fuel : Nat) {rest : List Char}
    (hstops : Stops rest) :
    parseValue (fuel + 1) (intText value ++ rest) = some (.int value, rest) := by
  have hatom := scanAtom_intText value hstops
  cases value with
  | ofNat n =>
      obtain ⟨c, tail, heq, hdigit, _⟩ := toDigits_head n
      simp only [intText, heq, List.cons_append] at hatom ⊢
      rw [parseValue_atom (isDigit_ne hdigit (by decide)).symm
        (isDigit_ne hdigit (by decide)).symm (isDigit_ne hdigit (by decide)).symm]
      exact hatom
  | negSucc n =>
      simp only [intText, List.cons_append] at hatom ⊢
      rw [parseValue_atom (by decide) (by decide) (by decide)]
      exact hatom

theorem stops_renderItems (sep : Separators) (items : List Json) (rest : List Char) :
    Stops (renderItems sep items ++ rest) := by
  cases items <;> exact stops_cons (by decide)

theorem stops_renderEntries (sep : Separators) (entries : List (PyStr × Json))
    (rest : List Char) : Stops (renderEntries sep entries ++ rest) := by
  cases entries with
  | nil => exact stops_cons (by decide)
  | cons entry entries => exact stops_cons (by decide)

/-- Space in front of a rendered value is only the separator's padding. -/
theorem skipSpace_pad_render (sep : Separators) {value : Json} (hplain : Plain value)
    (rest : List Char) :
    skipSpace (sep.pad ++ (render sep value ++ rest)) = render sep value ++ rest := by
  obtain ⟨c, tail, heq, hspace, _⟩ := render_head sep hplain
  rw [skipSpace_pad, heq, List.cons_append, skipSpace_cons hspace]

theorem render_length_pos (sep : Separators) {value : Json} (hplain : Plain value) :
    0 < (render sep value).length := by
  obtain ⟨c, tail, heq, _⟩ := render_head sep hplain
  simp [heq]

/-- The three readers invert the writer on every text of at most `fuel`
characters. -/
def ReadsValue (sep : Separators) (fuel : Nat) : Prop :=
  ∀ value rest, Plain value → (render sep value).length ≤ fuel → Stops rest →
    parseValue fuel (render sep value ++ rest) = some (value, rest)

def ReadsItems (sep : Separators) (fuel : Nat) : Prop :=
  ∀ item items rest, Plain item → PlainItems items →
    (render sep item ++ renderItems sep items).length ≤ fuel →
    parseItems fuel (render sep item ++ (renderItems sep items ++ rest)) =
      some (item :: items, rest)

def ReadsMembers (sep : Separators) (fuel : Nat) : Prop :=
  ∀ key value entries rest, PlainText key → Plain value → PlainEntries entries →
    (escape key ++ render sep value ++ renderEntries sep entries).length ≤ fuel →
    parseMembers fuel (escape key ++ '"' :: ':' :: (sep.pad ++ (render sep value ++
      (renderEntries sep entries ++ rest)))) = some ((key, value) :: entries, rest)

theorem readsValue_succ {sep : Separators} {fuel : Nat} (hitems : ReadsItems sep fuel)
    (hmembers : ReadsMembers sep fuel) : ReadsValue sep (fuel + 1) := by
  intro value rest hplain hfuel hstops
  cases value with
  | null => simp [render, parseValue, scanAtom, scanConstant, constants]
  | bool value =>
      cases value <;> simp [render, parseValue, scanAtom, scanConstant, constants]
  | int value =>
      rw [render]
      exact parseValue_intText value fuel hstops
  | float literal => simp [Plain] at hplain
  | str text =>
      have hscan := scanQuoted_escape (by simpa [Plain] using hplain) rest
      simp [render, quoted, parseValue, hscan]
  | arr items =>
      cases items with
      | nil => simp [render, parseValue, skipSpace, isSpace]
      | cons item items =>
          simp only [Plain, PlainItems] at hplain
          simp only [render, List.length_cons] at hfuel
          obtain ⟨c, tail, hhead, hspace, hclose, _⟩ := render_head sep hplain.1
          have hread := hitems item items rest hplain.1 hplain.2 (by omega)
          rw [hhead, List.cons_append] at hread
          simp [render, parseValue, hhead, skipSpace_cons hspace, hclose, hread]
  | obj entries =>
      cases entries with
      | nil => simp [render, parseValue, skipSpace, isSpace]
      | cons entry entries =>
          obtain ⟨key, value⟩ := entry
          simp only [Plain, PlainEntries] at hplain
          simp only [render, quoted, List.length_append, List.length_cons, List.length_nil]
            at hfuel
          have hread := hmembers key value entries rest hplain.2.1 hplain.2.2.1
            hplain.2.2.2 (by
              simp only [List.length_append]
              omega)
          have hopen (text : List Char) : skipSpace ('"' :: text) = '"' :: text :=
            skipSpace_cons (by decide) text
          simp [render, quoted, parseValue, hopen, hread]

theorem readsItems_succ {sep : Separators} {fuel : Nat} (hvalue : ReadsValue sep fuel)
    (hitems : ReadsItems sep fuel) : ReadsItems sep (fuel + 1) := by
  intro item items rest hitem hplain hfuel
  have hread := hvalue item (renderItems sep items ++ rest) hitem (by
    have hpos : 0 < (renderItems sep items).length := by
      cases items <;> simp [renderItems]
    simp only [List.length_append] at hfuel
    omega) (stops_renderItems sep items rest)
  rw [parseItems, hread]
  cases items with
  | nil => simp [renderItems, skipSpace, isSpace]
  | cons next items =>
      simp only [PlainItems] at hplain
      have hpos := render_length_pos sep hitem
      simp only [renderItems, List.length_append, List.length_cons] at hfuel
      have hrest := hitems next items rest hplain.1 hplain.2 (by
        simp only [List.length_append]
        omega)
      simp only [renderItems, List.cons_append, List.append_assoc,
        skipSpace_cons (show isSpace ',' = false by decide),
        skipSpace_pad_render sep hplain.1, hrest, Option.map_some]

theorem readsMembers_succ {sep : Separators} {fuel : Nat} (hvalue : ReadsValue sep fuel)
    (hmembers : ReadsMembers sep fuel) : ReadsMembers sep (fuel + 1) := by
  intro key value entries rest hkey hplain hentries hfuel
  have hread := hvalue value (renderEntries sep entries ++ rest) hplain (by
    have hpos : 0 < (renderEntries sep entries).length := by
      cases entries with
      | nil => simp [renderEntries]
      | cons entry entries => simp [renderEntries]
    simp only [List.length_append] at hfuel
    omega) (stops_renderEntries sep entries rest)
  have hcolon (text : List Char) : skipSpace (':' :: text) = ':' :: text :=
    skipSpace_cons (by decide) text
  simp only [parseMembers, scanQuoted_escape hkey, hcolon, skipSpace_pad_render sep hplain,
    hread]
  cases entries with
  | nil => simp [renderEntries, skipSpace, isSpace]
  | cons entry entries =>
      obtain ⟨next, nextValue⟩ := entry
      simp only [PlainEntries] at hentries
      have hpos := render_length_pos sep hplain
      simp only [renderEntries, quoted, List.length_append, List.length_cons] at hfuel
      have hrest := hmembers next nextValue entries rest hentries.1 hentries.2.1
        hentries.2.2 (by
          simp only [List.length_append]
          omega)
      have hcomma (text : List Char) : skipSpace (',' :: text) = ',' :: text :=
        skipSpace_cons (by decide) text
      have hquote (text : List Char) : skipSpace ('"' :: text) = '"' :: text :=
        skipSpace_cons (by decide) text
      simp only [renderEntries, quoted, List.cons_append, List.append_assoc, List.nil_append,
        hcomma, skipSpace_pad, hquote, hrest, Option.map_some]

/-- The induction is on the fuel, which every nested reader has one less of. -/
theorem reads (sep : Separators) (fuel : Nat) :
    ReadsValue sep fuel ∧ ReadsItems sep fuel ∧ ReadsMembers sep fuel := by
  induction fuel with
  | zero =>
      refine ⟨?_, ?_, ?_⟩
      · intro value rest hplain hfuel
        have hpos := render_length_pos sep hplain
        omega
      · intro item items rest hitem _ hfuel
        have hpos := render_length_pos sep hitem
        simp only [List.length_append] at hfuel
        omega
      · intro key value entries rest _ hplain _ hfuel
        have hpos := render_length_pos sep hplain
        simp only [List.length_append] at hfuel
        omega
  | succ fuel ih =>
      obtain ⟨hvalue, hitems, hmembers⟩ := ih
      exact ⟨readsValue_succ hitems hmembers, readsItems_succ hvalue hitems,
        readsMembers_succ hvalue hmembers⟩

/-- `parse` inverts `render` on the values the program writes. -/
theorem parse_render (sep : Separators) {value : Json} (hplain : Plain value) :
    parse (render sep value) = some value := by
  obtain ⟨c, tail, hhead, hspace, _, hmark⟩ := render_head sep hplain
  have hread := (reads sep ((render sep value).length + 1)).1 value [] hplain (by omega)
    stops_nil
  rw [List.append_nil] at hread
  have hbom : (render sep value).head? ≠ some (Char.ofNat 0xFEFF) := by
    rw [hhead]
    simpa using hmark
  have hskip : skipSpace (render sep value) = render sep value := by
    rw [hhead]
    exact skipSpace_cons hspace tail
  rw [parse, if_neg hbom, hskip, hread]
  rfl

/-! ### Keys -/

theorem lookup_eq_some_iff_mem {κ ν : Type} [BEq κ] [LawfulBEq κ] {entries : List (κ × ν)}
    (hnodup : (entries.map Prod.fst).Nodup) {key : κ} {value : ν} :
    entries.lookup key = some value ↔ (key, value) ∈ entries := by
  induction entries with
  | nil => simp
  | cons entry entries ih =>
      obtain ⟨k, v⟩ := entry
      simp only [List.map_cons, List.nodup_cons] at hnodup
      by_cases hkey : key = k
      · subst hkey
        have hfresh : ∀ v', (key, v') ∉ entries := fun v' hmem =>
          hnodup.1 (List.mem_map_of_mem (f := Prod.fst) hmem)
        simp [hfresh, eq_comm]
      · have hbeq : (key == k) = false := by simpa using hkey
        simp [List.lookup_cons, hbeq, ih hnodup.2, hkey]

/-- Looking a key up does not depend on the order of the entries. -/
theorem lookup_perm {κ ν : Type} [BEq κ] [LawfulBEq κ] {left right : List (κ × ν)}
    (hnodup : (left.map Prod.fst).Nodup) (hperm : left.Perm right) (key : κ) :
    left.lookup key = right.lookup key := by
  have hright : (right.map Prod.fst).Nodup :=
    (hperm.map Prod.fst).nodup_iff.mp hnodup
  apply Option.ext
  intro value
  rw [lookup_eq_some_iff_mem hnodup, lookup_eq_some_iff_mem hright, hperm.mem_iff]

theorem sortEntries_eq_map (entries : List (PyStr × Json)) :
    sortEntries entries = entries.map fun entry => (entry.1, sortKeys entry.2) := by
  induction entries with
  | nil => rfl
  | cons entry entries ih => simp [sortEntries, ih]

theorem sortEntries_keys (entries : List (PyStr × Json)) :
    (sortEntries entries).map Prod.fst = entries.map Prod.fst := by
  simp [sortEntries_eq_map]

theorem lookup_sortEntries (entries : List (PyStr × Json)) (key : PyStr) :
    (sortEntries entries).lookup key = (entries.lookup key).map sortKeys := by
  induction entries with
  | nil => rfl
  | cons entry entries ih =>
      obtain ⟨k, v⟩ := entry
      simp only [sortEntries, List.lookup_cons, ih]
      cases key == k <;> rfl

mutual

theorem plain_sortKeys : ∀ value, Plain value → Plain (sortKeys value)
  | .null, _ => by simp [sortKeys, Plain]
  | .bool _, _ => by simp [sortKeys, Plain]
  | .int _, _ => by simp [sortKeys, Plain]
  | .float _, hplain => by simp [Plain] at hplain
  | .str _, hplain => by simpa [sortKeys, Plain] using hplain
  | .arr items, hplain => by
      simp only [sortKeys, Plain] at hplain ⊢
      exact plainItems_sortItems items hplain
  | .obj entries, hplain => by
      simp only [sortKeys, Plain] at hplain ⊢
      have hperm := List.perm_insertionSort keyLe (sortEntries entries)
      refine ⟨?_, ?_⟩
      · rw [(hperm.map Prod.fst).nodup_iff, sortEntries_keys]
        exact hplain.1
      · rw [plainEntries_iff]
        intro entry hentry
        exact (plainEntries_iff _).mp (plainEntries_sortEntries entries hplain.2) entry
          (hperm.mem_iff.mp hentry)

theorem plainItems_sortItems : ∀ items, PlainItems items → PlainItems (sortItems items)
  | [], _ => by simp [sortItems, PlainItems]
  | item :: items, hplain => by
      simp only [sortItems, PlainItems] at hplain ⊢
      exact ⟨plain_sortKeys item hplain.1, plainItems_sortItems items hplain.2⟩

theorem plainEntries_sortEntries :
    ∀ entries, PlainEntries entries → PlainEntries (sortEntries entries)
  | [], _ => by simp [sortEntries, PlainEntries]
  | (_, value) :: entries, hplain => by
      simp only [sortEntries, PlainEntries] at hplain ⊢
      exact ⟨hplain.1, plain_sortKeys value hplain.2.1,
        plainEntries_sortEntries entries hplain.2.2⟩

end

theorem mergePairs_eq_self {pairs : List (PyStr × Json)}
    (hnodup : (pairs.map Prod.fst).Nodup) : mergePairs pairs = pairs := by
  induction pairs with
  | nil => rfl
  | cons pair pairs ih =>
      obtain ⟨key, value⟩ := pair
      simp only [List.map_cons, List.nodup_cons] at hnodup
      have hfresh : ∀ entry ∈ pairs, entry.1 ≠ key := fun entry hentry heq =>
        hnodup.1 (heq ▸ List.mem_map_of_mem (f := Prod.fst) hentry)
      have hlookup : pairs.lookup key = none :=
        List.lookup_eq_none_iff.mpr fun entry hentry => by
          simpa using (hfresh entry hentry).symm
      have hfilter : pairs.filter (fun entry => decide (entry.1 ≠ key)) = pairs :=
        List.filter_eq_self.mpr fun entry hentry => by simpa using hfresh entry hentry
      simp only [mergePairs, ih hnodup.2, hlookup, Option.getD_none, hfilter]

mutual

/-- Unique keys leave nothing to merge. -/
theorem mergeKeys_eq_self : ∀ value, Plain value → mergeKeys value = value
  | .null, _ => by simp [mergeKeys]
  | .bool _, _ => by simp [mergeKeys]
  | .int _, _ => by simp [mergeKeys]
  | .float _, _ => by simp [mergeKeys]
  | .str _, _ => by simp [mergeKeys]
  | .arr items, hplain => by
      simp only [mergeKeys, Plain] at hplain ⊢
      rw [mergeItems_eq_self items hplain]
  | .obj entries, hplain => by
      simp only [mergeKeys, Plain] at hplain ⊢
      rw [mergeEntries_eq_self entries hplain.2, mergePairs_eq_self hplain.1]

theorem mergeItems_eq_self : ∀ items, PlainItems items → mergeItems items = items
  | [], _ => by simp [mergeItems]
  | item :: items, hplain => by
      simp only [mergeItems, PlainItems] at hplain ⊢
      rw [mergeKeys_eq_self item hplain.1, mergeItems_eq_self items hplain.2]

theorem mergeEntries_eq_self :
    ∀ entries, PlainEntries entries → mergeEntries entries = entries
  | [], _ => by simp [mergeEntries]
  | (key, value) :: entries, hplain => by
      simp only [mergeEntries, PlainEntries] at hplain ⊢
      rw [mergeKeys_eq_self value hplain.2.1, mergeEntries_eq_self entries hplain.2.2]

end

theorem parse_dumps (sep : Separators) {value : Json} (hplain : Plain value) :
    parse (dumps sep value).toList = some (sortKeys value) := by
  rw [dumps, String.toList_ofList, parse_render sep (plain_sortKeys value hplain)]

/-- `json.loads` returns what `json.dumps` was given, its keys sorted. -/
theorem loads_dumps (sep : Separators) {value : Json} (hplain : Plain value)
    (hshort : longInteger (sortKeys value) = false) :
    loads false (dumps sep value) = .ok (sortKeys value) := by
  simp only [loads, parse_dumps sep hplain, hshort, Bool.false_eq_true, if_false,
    mergeKeys_eq_self _ (plain_sortKeys value hplain)]

/-- The text determines the value up to the order of its keys. -/
theorem sortKeys_eq_of_dumps_eq {sep : Separators} {left right : Json}
    (hleft : Plain left) (hright : Plain right) (heq : dumps sep left = dumps sep right) :
    sortKeys left = sortKeys right := by
  have hread := parse_dumps sep hleft
  rw [heq, parse_dumps sep hright] at hread
  exact (Option.some.inj hread).symm

/-- A member of an object. -/
def Json.field (key : PyStr) : Json → Option Json
  | .obj entries => entries.lookup key
  | _ => none

/-- Equal values up to the order of keys have equal members. -/
theorem field_eq_of_sortKeys_eq {left right : Json} (hleft : Plain left)
    (heq : sortKeys left = sortKeys right) (key : PyStr) :
    (left.field key).map sortKeys = (right.field key).map sortKeys := by
  cases left <;> cases right <;>
    simp only [sortKeys, reduceCtorEq, Json.obj.injEq, Json.field, Option.map_none] at heq ⊢
  rename_i left right
  have hperm : (sortEntries left).Perm (sortEntries right) :=
    (List.perm_insertionSort keyLe _).symm.trans
      (heq ▸ List.perm_insertionSort keyLe (sortEntries right))
  have hnodup : ((sortEntries left).map Prod.fst).Nodup := by
    simp only [Plain] at hleft
    rw [sortEntries_keys]
    exact hleft.1
  rw [← lookup_sortEntries, ← lookup_sortEntries]
  exact lookup_perm hnodup hperm key

instance : Std.Total keyLe :=
  ⟨fun left right => le_total left.1 right.1⟩

instance : IsTrans (PyStr × Json) keyLe :=
  ⟨fun _ _ _ hleft hright => le_trans hleft hright⟩

/-- Sorting forgets the order of entries with unique keys. -/
theorem insertionSort_perm {left right : List (PyStr × Json)}
    (hnodup : (left.map Prod.fst).Nodup) (hperm : left.Perm right) :
    left.insertionSort keyLe = right.insertionSort keyLe := by
  have hsorted : (left.insertionSort keyLe).Perm (right.insertionSort keyLe) :=
    (List.perm_insertionSort keyLe _).trans
      (hperm.trans (List.perm_insertionSort keyLe _).symm)
  have hkeys : ((left.insertionSort keyLe).map Prod.fst).Nodup := by
    rw [((List.perm_insertionSort keyLe _).map Prod.fst).nodup_iff]
    exact hnodup
  have hantisymm : ∀ a b, a ∈ left.insertionSort keyLe → b ∈ right.insertionSort keyLe →
      keyLe a b → keyLe b a → a = b :=
    fun a b ha hb hle hge =>
      List.inj_on_of_nodup_map hkeys ha (hsorted.mem_iff.mpr hb) (le_antisymm hle hge)
  exact hsorted.eq_of_pairwise hantisymm (List.pairwise_insertionSort keyLe _)
    (List.pairwise_insertionSort keyLe _)

end JsonText
