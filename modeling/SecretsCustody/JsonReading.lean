/-
What the reader returns.  Its strings have no high surrogate in front of a low
one, so the text written for them is read back, and an object that is written
like an object of texts is that object.
-/
import SecretsCustody.JsonRoundTrip

namespace JsonText

def IsHigh (code : Nat) : Prop :=
  0xD800 ≤ code ∧ code < 0xDC00

def IsLow (code : Nat) : Prop :=
  0xDC00 ≤ code ∧ code < 0xE000

/-- A string whose surrogates all stand alone. -/
def Unpaired : PyStr → Prop
  | [] => True
  | code :: rest =>
      code < 0x110000 ∧ (IsHigh code → ∀ low ∈ rest.head?, ¬ IsLow low) ∧ Unpaired rest

theorem PlainText.unpaired {text : PyStr} (hplain : PlainText text) : Unpaired text := by
  induction text with
  | nil => trivial
  | cons code text ih =>
      have hscalar : IsScalar code := hplain code List.mem_cons_self
      simp only [IsScalar] at hscalar
      refine ⟨by omega, ?_, ih fun other hother => hplain other (List.mem_cons_of_mem code hother)⟩
      rintro ⟨hlower, hupper⟩
      omega

/-! ### Strings as they are read -/

theorem hexValue_lt {c : Char} {value : Nat} (hvalue : hexValue c = some value) : value < 16 := by
  unfold hexValue at hvalue
  split_ifs at hvalue <;> simp only [Option.some.injEq] at hvalue <;> omega

theorem scanHex4_lt {text rest : List Char} {code : Nat}
    (hscan : scanHex4 text = some (code, rest)) : code < 0x10000 := by
  unfold scanHex4 at hscan
  split at hscan
  · next a b c d _ =>
      simp only [Option.bind_eq_bind, Option.bind_eq_some_iff, Option.some.injEq,
        Prod.mk.injEq] at hscan
      obtain ⟨first, hfirst, second, hsecond, third, hthird, fourth, hfourth, rfl, _⟩ := hscan
      have hfirst' := hexValue_lt hfirst
      have hsecond' := hexValue_lt hsecond
      have hthird' := hexValue_lt hthird
      have hfourth' := hexValue_lt hfourth
      omega
  · cases hscan

/-- The text goes on with an escaped low surrogate. -/
def EscapesLow (text : List Char) : Prop :=
  ∃ tail low after, text = '\\' :: 'u' :: tail ∧ scanHex4 tail = some (low, after) ∧ IsLow low

/-- An escape that is read as a surrogate stands for itself; a high one is not followed by an
escaped low one. -/
theorem scanUnicode_spec {text rest : List Char} {code : Nat}
    (hscan : scanUnicode text = some (code, rest)) :
    code < 0x110000 ∧ (IsHigh code → ¬ EscapesLow rest) ∧
      (IsLow code → scanHex4 text = some (code, rest)) := by
  unfold scanUnicode at hscan
  split at hscan
  · cases hscan
  · next unit middle hunit =>
      have hbound := scanHex4_lt hunit
      split at hscan
      · next hhigh =>
          split at hscan
          · next tail =>
              split at hscan
              · cases hscan
              · next low after hlow =>
                  split at hscan
                  · next hpair =>
                      simp only [Option.some.injEq, Prod.mk.injEq] at hscan
                      obtain ⟨hcode, _⟩ := hscan
                      unfold IsHigh IsLow
                      refine ⟨by omega, ?_, ?_⟩
                      · rintro ⟨hlower, hupper⟩
                        omega
                      · rintro ⟨hlower, hupper⟩
                        omega
                  · next hlone =>
                      cases hscan
                      refine ⟨by omega, ?_, ?_⟩
                      · rintro _ ⟨_, found, _, ⟨rfl⟩, hfound, hislow⟩
                        rw [hlow] at hfound
                        cases hfound
                        exact hlone hislow
                      · unfold IsLow
                        omega
          · next hother =>
              cases hscan
              refine ⟨by omega, ?_, ?_⟩
              · rintro _ ⟨tail, _, _, hescape, _⟩
                exact hother tail hescape
              · unfold IsLow
                omega
      · next hlone =>
          cases hscan
          refine ⟨by omega, fun hhigh => absurd hhigh hlone, fun _ => hunit⟩

theorem simpleEscape_lt {c : Char} {code : Nat} (hcode : simpleEscape c = some code) :
    code < 0x80 := by
  unfold simpleEscape at hcode
  split_ifs at hcode <;> simp only [Option.some.injEq] at hcode <;> omega

theorem toNat_scalar (c : Char) : IsScalar c.toNat := by
  have hvalid := c.valid
  simp only [UInt32.isValidChar, Nat.isValidChar] at hvalid
  simp only [IsScalar, Char.toNat]
  omega

/-- What stands after a backslash: a high surrogate is not followed by an escaped low one, and
a low one is escaped. -/
theorem scanEscape_spec {text rest : List Char} {code : Nat}
    (hscan : scanEscape text = some (code, rest)) :
    code < 0x110000 ∧ (IsHigh code → ¬ EscapesLow rest) ∧
      (IsLow code → EscapesLow ('\\' :: text)) := by
  cases text with
  | nil => cases hscan
  | cons c text =>
      simp only [scanEscape] at hscan
      split at hscan
      · next hunicode =>
          subst hunicode
          obtain ⟨hbound, hhigh, hlow⟩ := scanUnicode_spec hscan
          exact ⟨hbound, hhigh, fun hislow => ⟨text, code, rest, rfl, hlow hislow, hislow⟩⟩
      · simp only [Option.map_eq_some_iff, Prod.mk.injEq] at hscan
        obtain ⟨found, hfound, rfl, _⟩ := hscan
        have hsmall := simpleEscape_lt hfound
        unfold IsHigh IsLow
        refine ⟨by omega, ?_, ?_⟩ <;> rintro ⟨hlower, hupper⟩ <;> omega

/-- The reader joins every pair of surrogates, so those it returns stand alone. -/
theorem scanString_unpaired {fuel : Nat} {text rest : List Char} {found : PyStr}
    (hscan : scanString fuel text = some (found, rest)) :
    Unpaired found ∧ (¬ EscapesLow text → ∀ low ∈ found.head?, ¬ IsLow low) := by
  induction fuel generalizing text found with
  | zero => cases hscan
  | succ fuel ih =>
      cases text with
      | nil => cases hscan
      | cons c text =>
          unfold scanString at hscan
          split at hscan
          · cases hscan
            refine ⟨trivial, ?_⟩
            intro _ low hlow
            cases hlow
          · split at hscan
            · next hbackslash =>
                subst hbackslash
                split at hscan
                · cases hscan
                · next code after hescape =>
                    simp only [Option.map_eq_some_iff, Prod.mk.injEq] at hscan
                    obtain ⟨⟨tail, rest'⟩, htail, rfl, rfl⟩ := hscan
                    obtain ⟨hbound, hhigh, hlow⟩ := scanEscape_spec hescape
                    obtain ⟨hunpaired, hhead⟩ := ih htail
                    refine ⟨⟨hbound, fun hishigh => hhead (hhigh hishigh), hunpaired⟩, ?_⟩
                    rintro hnot _ ⟨⟩ hislow
                    exact hnot (hlow hislow)
            · split at hscan
              · cases hscan
              · simp only [Option.map_eq_some_iff, Prod.mk.injEq] at hscan
                obtain ⟨⟨tail, rest'⟩, htail, rfl, rfl⟩ := hscan
                have hscalar := toNat_scalar c
                simp only [IsScalar] at hscalar
                refine ⟨⟨by omega, ?_, (ih htail).1⟩, ?_⟩
                · rintro ⟨hlower, hupper⟩
                  omega
                · rintro _ _ ⟨⟩ ⟨hlower, hupper⟩
                  omega

/-! ### Strings as they are written -/

/-- What follows is no escape of a low surrogate, and no broken escape. -/
def GoesOn (rest : List Char) : Prop :=
  ∀ tail, rest = '\\' :: 'u' :: tail →
    ∃ unit after, scanHex4 tail = some (unit, after) ∧ ¬ IsLow unit

theorem scanUnicode_high {code : Nat} (hhigh : IsHigh code) {rest : List Char}
    (hrest : GoesOn rest) : scanUnicode (hex4 code ++ rest) = some (code, rest) := by
  have hbound : code < 0x10000 := by
    unfold IsHigh at hhigh
    omega
  have hcondition : 0xD800 ≤ code ∧ code < 0xDC00 := hhigh
  unfold scanUnicode
  simp only [scanHex4_hex4 hbound, if_pos hcondition]
  split
  · next tail =>
      obtain ⟨unit, after, hunit, hlow⟩ := hrest tail rfl
      have hlone : ¬ (0xDC00 ≤ unit ∧ unit < 0xE000) := hlow
      simp only [hunit, if_neg hlone]
  · rfl

theorem scanUnicode_low {code : Nat} (hlow : IsLow code) (rest : List Char) :
    scanUnicode (hex4 code ++ rest) = some (code, rest) := by
  unfold IsLow at hlow
  have hlone : ¬ (0xD800 ≤ code ∧ code < 0xDC00) := by omega
  simp [scanUnicode, scanHex4_hex4 (show code < 0x10000 by omega), hlone]

theorem escapeCode_surrogate {code : Nat} (hsurrogate : IsHigh code ∨ IsLow code) :
    escapeCode code = unicodeEscape code := by
  unfold IsHigh IsLow at hsurrogate
  unfold escapeCode
  split_ifs <;> first | rfl | omega

theorem goesOn_escapeCode {code : Nat} (hbound : code < 0x110000) (hlow : ¬ IsLow code)
    (rest : List Char) : GoesOn (escapeCode code ++ rest) := by
  intro tail htail
  unfold escapeCode at htail
  split_ifs at htail with hquote hslash hnewline hreturn htab hfeed hback hprint hbmp
  case pos => simp at htail
  case pos => simp at htail
  case pos => simp at htail
  case pos => simp at htail
  case pos => simp at htail
  case pos => simp at htail
  case pos => simp at htail
  case pos =>
    have hnat : (Char.ofNat code).toNat = code := by
      rw [Char.ofNat, dif_pos (Or.inl (by omega))]
      rfl
    simp only [List.cons_append, List.nil_append, List.cons.injEq] at htail
    rw [htail.1] at hnat
    exact absurd hnat.symm hslash
  case pos =>
    simp only [unicodeEscape, List.cons_append, List.cons.injEq, true_and] at htail
    exact ⟨code, rest, htail ▸ scanHex4_hex4 hbmp rest, hlow⟩
  case neg =>
    simp only [unicodeEscape, List.cons_append, List.append_assoc, List.cons.injEq,
      true_and] at htail
    rw [← htail]
    refine ⟨_, _, scanHex4_hex4 (by omega) _, ?_⟩
    rintro ⟨hlower, hupper⟩
    omega

theorem goesOn_escape {text : PyStr} (hunpaired : Unpaired text)
    (hhead : ∀ low ∈ text.head?, ¬ IsLow low) (rest : List Char) :
    GoesOn (escape text ++ '"' :: rest) := by
  cases text with
  | nil =>
      intro tail htail
      cases htail
  | cons code text =>
      simp only [escape, List.flatMap_cons, List.append_assoc]
      exact goesOn_escapeCode hunpaired.1 (hhead code rfl) _

theorem scanString_escape_unpaired {text : PyStr} (hunpaired : Unpaired text)
    (rest : List Char) :
    ∀ fuel, text.length < fuel →
      scanString fuel (escape text ++ '"' :: rest) = some (text, rest) := by
  induction text with
  | nil =>
      apply scanString_escape
      intro code hcode
      cases hcode
  | cons code text ih =>
      intro fuel hfuel
      obtain ⟨fuel, rfl⟩ := Nat.exists_eq_succ_of_ne_zero (Nat.ne_zero_of_lt hfuel)
      obtain ⟨hbound, hnext, htext⟩ := hunpaired
      have htail := ih htext fuel (by simpa using hfuel)
      have hcode : scanString (fuel + 1) (escapeCode code ++ (escape text ++ '"' :: rest)) =
          (scanString fuel (escape text ++ '"' :: rest)).map
            fun found => (code :: found.1, found.2) := by
        by_cases hhigh : IsHigh code
        · rw [escapeCode_surrogate (.inl hhigh)]
          exact scanString_unicodeEscape
            (scanUnicode_high hhigh (goesOn_escape htext (hnext hhigh) rest)) fuel
        by_cases hlow : IsLow code
        · rw [escapeCode_surrogate (.inr hlow)]
          exact scanString_unicodeEscape (scanUnicode_low hlow _) fuel
        · apply scanString_escapeCode
          unfold IsHigh at hhigh
          unfold IsLow at hlow
          unfold IsScalar
          omega
      simp only [escape, List.flatMap_cons, List.append_assoc] at hcode htail ⊢
      rw [hcode, htail]
      rfl

theorem scanQuoted_escape_unpaired {text : PyStr} (hunpaired : Unpaired text)
    (rest : List Char) : scanQuoted (escape text ++ '"' :: rest) = some (text, rest) := by
  apply scanString_escape_unpaired hunpaired
  have hlength := length_le_escape text
  simp only [List.length_append, List.length_cons]
  omega

/-- The text of a string determines it, whatever follows. -/
theorem quoted_append_inj {left right : PyStr} (hleft : Unpaired left) (hright : Unpaired right)
    {rest rest' : List Char} (hsame : quoted left ++ rest = quoted right ++ rest') :
    left = right ∧ rest = rest' := by
  simp only [quoted, List.cons_append, List.append_assoc, List.nil_append, List.cons.injEq,
    true_and] at hsame
  have hread := scanQuoted_escape_unpaired hleft rest
  rw [hsame, scanQuoted_escape_unpaired hright rest'] at hread
  cases hread
  exact ⟨rfl, rfl⟩

/-! ### Values -/

mutual

/-- The values the reader returns, as far as their text goes: no surrogate is paired, and no
float starts like a string. -/
def Readable : Json → Prop
  | .null => True
  | .bool _ => True
  | .int _ => True
  | .float literal => literal.head? ≠ some '"'
  | .str text => Unpaired text
  | .arr items => ReadableItems items
  | .obj entries => ReadableEntries entries

def ReadableItems : List Json → Prop
  | [] => True
  | item :: items => Readable item ∧ ReadableItems items

def ReadableEntries : List (PyStr × Json) → Prop
  | [] => True
  | (key, value) :: entries => Unpaired key ∧ Readable value ∧ ReadableEntries entries

end

theorem readableEntries_iff (entries : List (PyStr × Json)) :
    ReadableEntries entries ↔ ∀ entry ∈ entries, Unpaired entry.1 ∧ Readable entry.2 := by
  induction entries with
  | nil => simp [ReadableEntries]
  | cons entry entries ih =>
      obtain ⟨key, value⟩ := entry
      simp [ReadableEntries, ih, and_assoc]

theorem scanDigits_head {text digits rest : List Char}
    (hscan : scanDigits text = some (digits, rest)) :
    ∃ c tail, digits = c :: tail ∧ c.isDigit = true := by
  unfold scanDigits at hscan
  split at hscan
  · cases hscan
  · next c text =>
      split at hscan
      · cases hscan
        exact ⟨'0', [], rfl, rfl⟩
      · split at hscan
        · next hdigit =>
            cases hscan
            exact ⟨c, text.takeWhile Char.isDigit, List.takeWhile_cons_of_pos hdigit, hdigit⟩
        · cases hscan

theorem scanNumber_readable {negative : Bool} {text rest : List Char} {value : Json}
    (hscan : scanNumber negative text = some (value, rest)) : Readable value := by
  unfold scanNumber at hscan
  split at hscan
  · cases hscan
  · next digits after hdigits =>
      obtain ⟨c, tail, rfl, hdigit⟩ := scanDigits_head hdigits
      have hquote : c ≠ '"' := by
        rintro rfl
        cases hdigit
      dsimp only at hscan
      split at hscan
      · cases hscan
        trivial
      · cases hscan
        cases negative with
        | false => simpa [Readable] using hquote
        | true => simp [Readable]

theorem scanConstant_readable {text rest : List Char} {value : Json}
    {words : List (List Char × Json)} (hwords : ∀ word ∈ words, Readable word.2)
    (hscan : scanConstant text words = some (value, rest)) : Readable value := by
  induction words with
  | nil => cases hscan
  | cons word words ih =>
      obtain ⟨letters, constant⟩ := word
      unfold scanConstant at hscan
      split at hscan
      · cases hscan
        exact hwords _ List.mem_cons_self
      · exact ih (fun other hother => hwords other (List.mem_cons_of_mem _ hother)) hscan

theorem scanAtom_readable {text rest : List Char} {value : Json}
    (hscan : scanAtom text = some (value, rest)) : Readable value := by
  have hconstants : ∀ word ∈ constants, Readable word.2 := by
    simp [constants, Readable]
  unfold scanAtom at hscan
  split at hscan
  · next hfound =>
      cases hscan
      exact scanConstant_readable hconstants hfound
  · split at hscan
    · exact scanNumber_readable hscan
    · exact scanNumber_readable hscan

theorem scanQuoted_unpaired {text rest : List Char} {found : PyStr}
    (hscan : scanQuoted text = some (found, rest)) : Unpaired found :=
  (scanString_unpaired hscan).1

section

variable {fuel : Nat} {text rest : List Char}

theorem parseValue_readable {value : Json}
    (hitems : ∀ text items rest, parseItems fuel text = some (items, rest) → ReadableItems items)
    (hmembers : ∀ text entries rest, parseMembers fuel text = some (entries, rest) →
      ReadableEntries entries)
    (hparse : parseValue (fuel + 1) text = some (value, rest)) : Readable value := by
  cases text with
  | nil => cases hparse
  | cons c text =>
      simp only [parseValue] at hparse
      split at hparse
      · simp only [Option.map_eq_some_iff, Prod.mk.injEq] at hparse
        obtain ⟨⟨found, after⟩, hfound, rfl, _⟩ := hparse
        exact scanQuoted_unpaired hfound
      split at hparse
      · split at hparse
        · cases hparse
          trivial
        · simp only [Option.map_eq_some_iff, Prod.mk.injEq] at hparse
          obtain ⟨⟨found, after⟩, hfound, rfl, _⟩ := hparse
          exact hmembers _ _ _ hfound
        · cases hparse
      split at hparse
      · split at hparse
        · cases hparse
          trivial
        · simp only [Option.map_eq_some_iff, Prod.mk.injEq] at hparse
          obtain ⟨⟨found, after⟩, hfound, rfl, _⟩ := hparse
          exact hitems _ _ _ hfound
      · exact scanAtom_readable hparse

theorem parseItems_readable {items : List Json}
    (hvalue : ∀ text value rest, parseValue fuel text = some (value, rest) → Readable value)
    (hitems : ∀ text items rest, parseItems fuel text = some (items, rest) → ReadableItems items)
    (hparse : parseItems (fuel + 1) text = some (items, rest)) : ReadableItems items := by
  simp only [parseItems] at hparse
  split at hparse
  · cases hparse
  · next item after hitem =>
      split at hparse
      · cases hparse
        exact ⟨hvalue _ _ _ hitem, trivial⟩
      · simp only [Option.map_eq_some_iff, Prod.mk.injEq] at hparse
        obtain ⟨⟨found, _⟩, hfound, rfl, _⟩ := hparse
        exact ⟨hvalue _ _ _ hitem, hitems _ _ _ hfound⟩
      · cases hparse

theorem parseMembers_readable {entries : List (PyStr × Json)}
    (hvalue : ∀ text value rest, parseValue fuel text = some (value, rest) → Readable value)
    (hmembers : ∀ text entries rest, parseMembers fuel text = some (entries, rest) →
      ReadableEntries entries)
    (hparse : parseMembers (fuel + 1) text = some (entries, rest)) : ReadableEntries entries := by
  simp only [parseMembers] at hparse
  split at hparse
  · cases hparse
  · next key after hkey =>
      split at hparse
      · split at hparse
        · cases hparse
        · next value _ hmember =>
            have hname := scanQuoted_unpaired hkey
            have hread := hvalue _ _ _ hmember
            split at hparse
            · cases hparse
              exact ⟨hname, hread, trivial⟩
            · split at hparse
              · simp only [Option.map_eq_some_iff, Prod.mk.injEq] at hparse
                obtain ⟨⟨found, _⟩, hfound, rfl, _⟩ := hparse
                exact ⟨hname, hread, hmembers _ _ _ hfound⟩
              · cases hparse
            · cases hparse
      · cases hparse

end

/-- The three readers return readable values; the induction is on their fuel. -/
theorem parse_readable_fuel (fuel : Nat) :
    (∀ text value rest, parseValue fuel text = some (value, rest) → Readable value) ∧
      (∀ text items rest, parseItems fuel text = some (items, rest) → ReadableItems items) ∧
      ∀ text entries rest, parseMembers fuel text = some (entries, rest) →
        ReadableEntries entries := by
  induction fuel with
  | zero =>
      refine ⟨?_, ?_, ?_⟩
      · intro text value rest hparse
        cases hparse
      · intro text items rest hparse
        cases hparse
      · intro text entries rest hparse
        cases hparse
  | succ fuel ih =>
      obtain ⟨hvalue, hitems, hmembers⟩ := ih
      refine ⟨?_, ?_, ?_⟩
      · intro text value rest hparse
        exact parseValue_readable hitems hmembers hparse
      · intro text items rest hparse
        exact parseItems_readable hvalue hitems hparse
      · intro text entries rest hparse
        exact parseMembers_readable hvalue hmembers hparse

/-- A key of merged pairs stands with a value it had. -/
theorem mem_mergePairs {pairs : List (PyStr × Json)} {entry : PyStr × Json}
    (hentry : entry ∈ mergePairs pairs) : entry ∈ pairs := by
  induction pairs generalizing entry with
  | nil => cases hentry
  | cons pair pairs ih =>
      obtain ⟨key, value⟩ := pair
      simp only [mergePairs, List.mem_cons, List.mem_filter] at hentry
      rcases hentry with rfl | ⟨hrest, _⟩
      · cases hfound : (mergePairs pairs).lookup key with
        | none => exact List.mem_cons_self
        | some found =>
            obtain ⟨before, after, heq, _⟩ := List.lookup_eq_some_iff.mp hfound
            apply List.mem_cons_of_mem
            apply ih
            rw [heq]
            exact List.mem_append_right before List.mem_cons_self
      · exact List.mem_cons_of_mem _ (ih hrest)

mutual

theorem readable_mergeKeys : ∀ value, Readable value → Readable (mergeKeys value)
  | .null, hreadable => hreadable
  | .bool _, hreadable => hreadable
  | .int _, hreadable => hreadable
  | .float _, hreadable => hreadable
  | .str _, hreadable => hreadable
  | .arr items, hreadable => readable_mergeItems items hreadable
  | .obj entries, hreadable => by
      have hmerged := (readableEntries_iff _).mp (readable_mergeEntries entries hreadable)
      exact (readableEntries_iff _).mpr fun entry hentry => hmerged entry (mem_mergePairs hentry)

theorem readable_mergeItems : ∀ items, ReadableItems items → ReadableItems (mergeItems items)
  | [], _ => trivial
  | item :: items, hreadable =>
      ⟨readable_mergeKeys item hreadable.1, readable_mergeItems items hreadable.2⟩

theorem readable_mergeEntries :
    ∀ entries, ReadableEntries entries → ReadableEntries (mergeEntries entries)
  | [], _ => trivial
  | (_, value) :: entries, hreadable =>
      ⟨hreadable.1, readable_mergeKeys value hreadable.2.1,
        readable_mergeEntries entries hreadable.2.2⟩

end

theorem parse_readable {text : List Char} {value : Json} (hparse : parse text = some value) :
    Readable value := by
  unfold parse at hparse
  split at hparse
  · cases hparse
  · split at hparse
    · cases hparse
    · next hvalue =>
        split at hparse
        · cases hparse
          exact (parse_readable_fuel _).1 _ _ _ hvalue
        · cases hparse

theorem loads_readable {deep : Bool} {text : String} {value : Json}
    (hloads : loads deep text = .ok value) : Readable value := by
  unfold loads at hloads
  split at hloads
  · cases hloads
  · split at hloads
    · cases hloads
    · next found hparse =>
        split at hloads
        · cases hloads
        · cases hloads
          exact readable_mergeKeys _ (parse_readable hparse)

mutual

theorem readable_sortKeys : ∀ value, Readable value → Readable (sortKeys value)
  | .null, hreadable => hreadable
  | .bool _, hreadable => hreadable
  | .int _, hreadable => hreadable
  | .float _, hreadable => hreadable
  | .str _, hreadable => hreadable
  | .arr items, hreadable => readable_sortItems items hreadable
  | .obj entries, hreadable => by
      have hsorted := (readableEntries_iff _).mp (readable_sortEntries entries hreadable)
      exact (readableEntries_iff _).mpr fun entry hentry =>
        hsorted entry ((List.perm_insertionSort keyLe _).mem_iff.mp hentry)

theorem readable_sortItems : ∀ items, ReadableItems items → ReadableItems (sortItems items)
  | [], _ => trivial
  | item :: items, hreadable =>
      ⟨readable_sortKeys item hreadable.1, readable_sortItems items hreadable.2⟩

theorem readable_sortEntries :
    ∀ entries, ReadableEntries entries → ReadableEntries (sortEntries entries)
  | [], _ => trivial
  | (_, value) :: entries, hreadable =>
      ⟨hreadable.1, readable_sortKeys value hreadable.2.1,
        readable_sortEntries entries hreadable.2.2⟩

end

/-! ### Objects of strings -/

/-- Only a string is written with a quote at its start. -/
theorem render_head_ne_quote (sep : Separators) {value : Json} (hreadable : Readable value)
    (hvalue : ∀ text, value ≠ .str text) : (render sep value).head? ≠ some '"' := by
  cases value with
  | null => simp [render]
  | bool value => cases value <;> simp [render]
  | int value =>
      cases value with
      | ofNat n =>
          obtain ⟨c, tail, heq, hdigit, _⟩ := toDigits_head n
          have hquote : c ≠ '"' := (isDigit_ne hdigit (by decide)).symm
          simpa [render, intText, heq] using hquote
      | negSucc n => simp [render, intText]
  | float literal =>
      rw [render]
      exact hreadable
  | str text => exact absurd rfl (hvalue text)
  | arr items => cases items <;> simp [render]
  | obj entries => cases entries <;> simp [render]

/-- A value that is written like a string is that string. -/
theorem render_eq_quoted {sep : Separators} {text : PyStr} {value : Json}
    (htext : Unpaired text) (hreadable : Readable value) {rest rest' : List Char}
    (hrest : rest'.head? ≠ some '"') (hsame : quoted text ++ rest = render sep value ++ rest') :
    value = .str text ∧ rest = rest' := by
  by_cases hvalue : ∃ found, value = .str found
  · obtain ⟨found, rfl⟩ := hvalue
    rw [render] at hsame
    obtain ⟨rfl, hends⟩ := quoted_append_inj htext hreadable hsame
    exact ⟨rfl, hends⟩
  · have hhead := render_head_ne_quote sep hreadable fun found heq => hvalue ⟨found, heq⟩
    have hfirst : (render sep value ++ rest').head? = some '"' := by
      rw [← hsame]
      rfl
    rw [List.head?_append] at hfirst
    cases hrender : (render sep value).head? with
    | none =>
        rw [hrender] at hfirst
        exact absurd hfirst hrest
    | some c =>
        rw [hrender] at hfirst hhead
        exact absurd hfirst hhead

/-- Every member is a string. -/
def TextEntries (entries : List (PyStr × Json)) : Prop :=
  ∀ entry ∈ entries, Unpaired entry.1 ∧ ∃ text, Unpaired text ∧ entry.2 = .str text

theorem renderEntries_head (sep : Separators) (entries : List (PyStr × Json))
    (rest : List Char) : (renderEntries sep entries ++ rest).head? ≠ some '"' := by
  cases entries with
  | nil => simp [renderEntries]
  | cons entry entries => simp [renderEntries]

/-- Members written alike are the same, if those on the left are strings. -/
theorem renderEntries_inj {sep : Separators} {left right : List (PyStr × Json)}
    (hleft : TextEntries left) (hright : ReadableEntries right) {rest rest' : List Char}
    (hsame : renderEntries sep left ++ rest = renderEntries sep right ++ rest') :
    left = right ∧ rest = rest' := by
  induction left generalizing right with
  | nil =>
      cases right with
      | nil =>
          simp only [renderEntries, List.cons_append, List.nil_append, List.cons.injEq,
            true_and] at hsame
          exact ⟨rfl, hsame⟩
      | cons entry right => simp [renderEntries] at hsame
  | cons entry left ih =>
      obtain ⟨key, value⟩ := entry
      obtain ⟨hkey, text, htext, rfl⟩ := hleft (key, value) List.mem_cons_self
      cases right with
      | nil => simp [renderEntries] at hsame
      | cons entry' right =>
          obtain ⟨key', value'⟩ := entry'
          obtain ⟨hkey', hvalue', hright⟩ := hright
          simp only [renderEntries, render, List.cons_append, List.append_assoc, List.cons.injEq,
            true_and, List.append_cancel_left_eq] at hsame
          obtain ⟨rfl, hcolon⟩ := quoted_append_inj hkey hkey' hsame
          simp only [List.cons.injEq, true_and, List.append_cancel_left_eq] at hcolon
          obtain ⟨rfl, hrest⟩ :=
            render_eq_quoted htext hvalue' (renderEntries_head sep right rest') hcolon
          obtain ⟨rfl, hends⟩ := ih
            (fun entry hentry => hleft entry (List.mem_cons_of_mem _ hentry)) hright hrest
          exact ⟨rfl, hends⟩

/-- An object that is written like an object of strings is that object. -/
theorem render_obj_inj {sep : Separators} {left right : List (PyStr × Json)}
    (hleft : TextEntries left) (hright : ReadableEntries right) {rest rest' : List Char}
    (hsame : render sep (.obj left) ++ rest = render sep (.obj right) ++ rest') :
    left = right ∧ rest = rest' := by
  cases left with
  | nil =>
      cases right with
      | nil =>
          simp only [render, List.cons_append, List.nil_append, List.cons.injEq,
            true_and] at hsame
          exact ⟨rfl, hsame⟩
      | cons entry right => simp [render, quoted] at hsame
  | cons entry left =>
      cases right with
      | nil => simp [render, quoted] at hsame
      | cons entry' right =>
          apply @renderEntries_inj sep _ _ hleft hright
          simp only [render, List.cons_append, List.append_assoc, List.cons.injEq,
            true_and] at hsame
          simp only [renderEntries, List.cons_append, List.append_assoc, hsame]

end JsonText
