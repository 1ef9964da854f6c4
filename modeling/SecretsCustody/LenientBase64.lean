/-
Base64 as a decoder reads it that validates nothing: it passes over what is not of the
alphabet, and a complete padding ends the text whatever stands behind it.  What such a decoder
gives a length to is told by the characters before that padding alone.
-/
import SecretsCustody.Base64
import Mathlib.Data.List.Basic

namespace Base64

/-! ### The URL-safe alphabet -/

def toUrlSafe (c : Char) : Char :=
  if c = '+' then '-' else if c = '/' then '_' else c

def ofUrlSafe (c : Char) : Char :=
  if c = '-' then '+' else if c = '_' then '/' else c

/-- `urlsafe_b64encode`. -/
def urlsafeEncode (bytes : List UInt8) : List Char :=
  (encode bytes).map toUrlSafe

/-! ### The decoder -/

/-- Where the decoder stands: the characters it has of the next four, the bits of them it has
not written, the padding since the last of them, and what it wrote. -/
structure Quad where
  position : Nat
  left : Nat
  pads : Nat
  out : List UInt8

def Quad.first : Quad :=
  ⟨0, 0, 0, []⟩

/-- A character of the alphabet. -/
def Quad.digit (quad : Quad) (value : Nat) : Quad :=
  match quad.position with
  | 0 => ⟨1, value, 0, quad.out⟩
  | 1 => ⟨2, value % 16, 0, quad.out ++ [UInt8.ofNat (quad.left * 4 + value / 16)]⟩
  | 2 => ⟨3, value % 4, 0, quad.out ++ [UInt8.ofNat (quad.left * 16 + value / 4)]⟩
  | _ => ⟨0, 0, 0, quad.out ++ [UInt8.ofNat (quad.left * 64 + value)]⟩

/-- One more padding character completes the padding. -/
def Quad.Completes (quad : Quad) : Prop :=
  2 ≤ quad.position ∧ 4 ≤ quad.position + (quad.pads + 1)

instance (quad : Quad) : Decidable quad.Completes :=
  inferInstanceAs (Decidable (_ ∧ _))

/-- A padding character that does not complete the padding. -/
def Quad.pad (quad : Quad) : Quad :=
  if 2 ≤ quad.position then { quad with pads := quad.pads + 1 } else quad

/-- The loop of `a2b_base64` when it is not strict; `none` is `binascii.Error`. -/
def Quad.scan (quad : Quad) : List Char → Option (List UInt8)
  | [] => if quad.position = 0 then some quad.out else none
  | c :: text =>
      if c = '=' then
        if quad.Completes then some quad.out else quad.pad.scan text
      else
        match value c with
        | none => quad.scan text
        | some value => (quad.digit value).scan text

/-- `b64decode`. -/
def lenientDecode (text : List Char) : Option (List UInt8) :=
  Quad.first.scan text

/-- `urlsafe_b64decode`. -/
def urlsafeDecode (text : List Char) : Option (List UInt8) :=
  lenientDecode (text.map ofUrlSafe)

/-! ### What was encoded -/

theorem value_digit (bits : Nat) : value (digit bits) = some (bits % 64) := by
  have hvalues : ∀ bits < 64, value (alphabet.getD bits 'A') = some bits := by decide +kernel
  exact hvalues (bits % 64) (Nat.mod_lt bits (by decide))

theorem value_pad : value '=' = none := by decide +kernel

theorem digit_ne_pad (bits : Nat) : digit bits ≠ '=' := by
  intro hpad
  have hvalue := value_digit bits
  rw [hpad, value_pad] at hvalue
  cases hvalue

theorem ofNat_eq {bits : Nat} {byte : UInt8} (hbits : bits % 256 = byte.toNat) :
    UInt8.ofNat bits = byte := by
  apply UInt8.toNat_inj.mp
  rw [UInt8.toNat_ofNat', ← hbits]

/-- What was encoded is what the validating decoder reads. -/
theorem decode_encode (bytes : List UInt8) : decode (encode bytes) = some bytes := by
  induction bytes using encode.induct with
  | case1 => rfl
  | case2 a =>
      have ha := a.toNat_lt
      have hfirst : (a.toNat / 4 % 64 * 4 + a.toNat * 16 % 64 / 16) % 256 = a.toNat := by omega
      rw [encode, decode, value_digit, value_digit]
      simp only [Option.bind_eq_bind, Option.bind_some, Option.pure_def, ofNat_eq hfirst]
  | case3 a b =>
      have ha := a.toNat_lt
      have hb := b.toNat_lt
      have hfirst : (a.toNat / 4 % 64 * 4 + (a.toNat * 16 + b.toNat / 16) % 64 / 16) % 256 =
          a.toNat := by omega
      have hsecond : ((a.toNat * 16 + b.toNat / 16) % 64 * 16 + b.toNat * 4 % 64 / 4) % 256 =
          b.toNat := by omega
      rw [encode, decode, value_digit, value_digit, value_digit]
      · simp only [Option.bind_eq_bind, Option.bind_some, Option.pure_def, ofNat_eq hfirst,
          ofNat_eq hsecond]
      · exact digit_ne_pad _
  | case4 a b c bytes ih =>
      have ha := a.toNat_lt
      have hb := b.toNat_lt
      have hc := c.toNat_lt
      have hfirst : (a.toNat / 4 % 64 * 4 + (a.toNat * 16 + b.toNat / 16) % 64 / 16) % 256 =
          a.toNat := by omega
      have hsecond : ((a.toNat * 16 + b.toNat / 16) % 64 * 16 +
          (b.toNat * 4 + c.toNat / 64) % 64 / 4) % 256 = b.toNat := by omega
      have hthird : ((b.toNat * 4 + c.toNat / 64) % 64 * 64 + c.toNat % 64) % 256 = c.toNat := by
        omega
      rw [encode, decode, value_digit, value_digit, value_digit, value_digit, ih]
      · simp only [Option.bind_eq_bind, Option.bind_some, Option.pure_def, ofNat_eq hfirst,
          ofNat_eq hsecond, ofNat_eq hthird]
      · exact fun hpad => absurd hpad (digit_ne_pad _)
      · exact fun hpad => absurd hpad (digit_ne_pad _)

theorem ofUrlSafe_toUrlSafe_digit (bits : Nat) : ofUrlSafe (toUrlSafe (digit bits)) = digit bits := by
  have hdigits : ∀ bits < 64, ofUrlSafe (toUrlSafe (alphabet.getD bits 'A')) =
      alphabet.getD bits 'A' := by decide +kernel
  exact hdigits (bits % 64) (Nat.mod_lt bits (by decide))

theorem Quad.scan_digit (quad : Quad) (bits : Nat) (text : List Char) :
    quad.scan (Base64.digit bits :: text) = (quad.digit (bits % 64)).scan text := by
  rw [Quad.scan, if_neg (digit_ne_pad bits), value_digit]

/-- Four characters and the three bytes they stand for. -/
theorem scan_three (pads : Nat) (out : List UInt8) (a b c : UInt8) (text : List Char) :
    Quad.scan ⟨0, 0, pads, out⟩ (digit (a.toNat / 4) :: digit (a.toNat * 16 + b.toNat / 16) ::
      digit (b.toNat * 4 + c.toNat / 64) :: digit c.toNat :: text) =
        Quad.scan ⟨0, 0, 0, out ++ [a, b, c]⟩ text := by
  have ha := a.toNat_lt
  have hb := b.toNat_lt
  have hc := c.toNat_lt
  simp only [Quad.scan_digit, Quad.digit, List.append_assoc, List.cons_append, List.nil_append]
  have hfirst : a.toNat / 4 % 64 * 4 + (a.toNat * 16 + b.toNat / 16) % 64 / 16 = a.toNat := by omega
  have hsecond : (a.toNat * 16 + b.toNat / 16) % 64 % 16 * 16 +
      (b.toNat * 4 + c.toNat / 64) % 64 / 4 = b.toNat := by omega
  have hthird : (b.toNat * 4 + c.toNat / 64) % 64 % 4 * 64 + c.toNat % 64 = c.toNat := by omega
  rw [hfirst, hsecond, hthird, UInt8.ofNat_toNat, UInt8.ofNat_toNat, UInt8.ofNat_toNat]

/-- A text that was encoded with padding is read as if nothing stood behind it. -/
theorem scan_encode_append (pads : Nat) (out bytes : List UInt8) (rest : List Char)
    (hpadding : bytes.length % 3 ≠ 0) :
    Quad.scan ⟨0, 0, pads, out⟩ (encode bytes ++ rest) = some (out ++ bytes) := by
  induction bytes using encode.induct generalizing pads out with
  | case1 => exact absurd rfl hpadding
  | case2 a =>
      have ha := a.toNat_lt
      have hfirst : a.toNat / 4 % 64 * 4 + a.toNat * 16 % 64 / 16 = a.toNat := by omega
      simp only [encode, List.cons_append, Quad.scan_digit, Quad.digit]
      rw [hfirst, UInt8.ofNat_toNat]
      rfl
  | case3 a b =>
      have ha := a.toNat_lt
      have hb := b.toNat_lt
      have hfirst : a.toNat / 4 % 64 * 4 + (a.toNat * 16 + b.toNat / 16) % 64 / 16 = a.toNat := by
        omega
      have hsecond : (a.toNat * 16 + b.toNat / 16) % 64 % 16 * 16 + b.toNat * 4 % 64 / 4 =
          b.toNat := by omega
      simp only [encode, List.cons_append, Quad.scan_digit, Quad.digit, List.append_assoc]
      rw [hfirst, hsecond, UInt8.ofNat_toNat, UInt8.ofNat_toNat]
      rfl
  | case4 a b c bytes ih =>
      have hrest : bytes.length % 3 ≠ 0 := by
        simp only [List.length_cons] at hpadding
        omega
      rw [encode, List.cons_append, List.cons_append, List.cons_append, List.cons_append,
        scan_three, ih _ _ hrest, List.append_assoc]
      rfl

theorem mem_encode {bytes : List UInt8} {c : Char} (hc : c ∈ encode bytes) :
    c = '=' ∨ ∃ bits, c = digit bits := by
  induction bytes using encode.induct with
  | case1 => simp [encode] at hc
  | case2 a =>
      simp only [encode, List.mem_cons, List.not_mem_nil, or_false] at hc
      rcases hc with hdigit | hdigit | hpad | hpad
      · exact .inr ⟨_, hdigit⟩
      · exact .inr ⟨_, hdigit⟩
      · exact .inl hpad
      · exact .inl hpad
  | case3 a b =>
      simp only [encode, List.mem_cons, List.not_mem_nil, or_false] at hc
      rcases hc with hdigit | hdigit | hdigit | hpad
      · exact .inr ⟨_, hdigit⟩
      · exact .inr ⟨_, hdigit⟩
      · exact .inr ⟨_, hdigit⟩
      · exact .inl hpad
  | case4 a b c bytes ih =>
      simp only [encode, List.mem_cons] at hc
      rcases hc with hdigit | hdigit | hdigit | hdigit | hrest
      · exact .inr ⟨_, hdigit⟩
      · exact .inr ⟨_, hdigit⟩
      · exact .inr ⟨_, hdigit⟩
      · exact .inr ⟨_, hdigit⟩
      · exact ih hrest

theorem scan_encode (pads : Nat) (out bytes : List UInt8) :
    Quad.scan ⟨0, 0, pads, out⟩ (encode bytes) = some (out ++ bytes) := by
  induction bytes using encode.induct generalizing pads out with
  | case1 => simp [encode, Quad.scan]
  | case2 a =>
      rw [← List.append_nil (encode [a])]
      exact scan_encode_append pads out [a] [] (by simp)
  | case3 a b =>
      rw [← List.append_nil (encode [a, b])]
      exact scan_encode_append pads out [a, b] [] (by simp)
  | case4 a b c bytes ih =>
      rw [encode, scan_three, ih, List.append_assoc]
      rfl

theorem map_ofUrlSafe_urlsafeEncode (bytes : List UInt8) :
    (urlsafeEncode bytes).map ofUrlSafe = encode bytes := by
  have hback : ∀ c ∈ encode bytes, ofUrlSafe (toUrlSafe c) = c := by
    intro c hc
    rcases mem_encode hc with rfl | ⟨bits, rfl⟩
    · rfl
    · exact ofUrlSafe_toUrlSafe_digit bits
  rw [urlsafeEncode, List.map_map]
  exact (List.map_congr_left hback).trans (List.map_id _)

/-- The decoder reads back what was encoded. -/
theorem urlsafeDecode_urlsafeEncode (bytes : List UInt8) :
    urlsafeDecode (urlsafeEncode bytes) = some bytes := by
  rw [urlsafeDecode, map_ofUrlSafe_urlsafeEncode, lenientDecode, Quad.first, scan_encode,
    List.nil_append]

/-- A text that was encoded with padding hides whatever stands behind it. -/
theorem urlsafeDecode_append (bytes : List UInt8) (rest : List Char)
    (hpadding : bytes.length % 3 ≠ 0) :
    urlsafeDecode (urlsafeEncode bytes ++ rest) = some bytes := by
  rw [urlsafeDecode, List.map_append, map_ofUrlSafe_urlsafeEncode, lenientDecode, Quad.first,
    scan_encode_append 0 [] bytes _ hpadding, List.nil_append]

/-! ### Where a text ends -/

/-- The bits of the characters of the alphabet. -/
def digits (text : List Char) : List Nat :=
  text.filterMap value

@[simp] theorem digits_append (left right : List Char) :
    digits (left ++ right) = digits left ++ digits right :=
  List.filterMap_append

/-- There is padding behind the last character of the alphabet. -/
def Padded (text : List Char) : Prop :=
  ∃ earlier later, text = earlier ++ '=' :: later ∧ digits later = []

/-- A padding character right behind a text completes its padding: three characters of four are
there, or two and padding. -/
def CompletesAfter (text : List Char) : Prop :=
  (digits text).length % 4 = 3 ∨ (digits text).length % 4 = 2 ∧ Padded text

/-- No padding character of a text completes its padding. -/
def Unended (text : List Char) : Prop :=
  ∀ earlier later, text = earlier ++ '=' :: later → ¬ CompletesAfter earlier

/-- Splitting behind a last character, at it or before it. -/
theorem append_singleton_eq_split {text earlier later : List Char} {c : Char} :
    text ++ [c] = earlier ++ '=' :: later ↔
      (c = '=' ∧ text = earlier ∧ later = []) ∨
        ∃ rest, later = rest ++ [c] ∧ text = earlier ++ '=' :: rest := by
  induction later using List.reverseRec with
  | nil => 
      constructor
      · intro hsplit
        obtain ⟨htext, hc⟩ := List.append_inj' hsplit rfl
        cases hc
        exact .inl ⟨rfl, htext, rfl⟩
      · rintro (⟨rfl, rfl, _⟩ | ⟨rest, hrest, _⟩)
        · rfl
        · simp at hrest
  | append_singleton later last ih =>
      constructor
      · intro hsplit
        have hshape : text ++ [c] = (earlier ++ '=' :: later) ++ [last] := by simpa using hsplit
        obtain ⟨htext, hc⟩ := List.append_inj' hshape rfl
        cases hc
        exact .inr ⟨later, rfl, htext⟩
      · rintro (⟨_, _, hnone⟩ | ⟨rest, hrest, htext⟩)
        · simp at hnone
        · rw [htext, hrest]
          simp

theorem padded_append_pad (text : List Char) : Padded (text ++ ['=']) :=
  ⟨text, [], rfl, rfl⟩

theorem padded_append_digit {text : List Char} {c : Char} {bits : Nat} (hvalue : value c = some bits) :
    ¬ Padded (text ++ [c]) := by
  intro ⟨earlier, later, hsplit, hnone⟩
  rcases append_singleton_eq_split.mp hsplit with ⟨rfl, _, _⟩ | ⟨rest, rfl, _⟩
  · cases hvalue
  · simp [digits, hvalue] at hnone

theorem padded_append_other {text : List Char} {c : Char} (hvalue : value c = none)
    (hother : c ≠ '=') : Padded (text ++ [c]) ↔ Padded text := by
  constructor
  · intro ⟨earlier, later, hsplit, hnone⟩
    rcases append_singleton_eq_split.mp hsplit with ⟨hpad, _, _⟩ | ⟨rest, rfl, htext⟩
    · exact absurd hpad hother
    · refine ⟨earlier, rest, htext, ?_⟩
      simpa [digits, hvalue] using hnone
  · intro ⟨earlier, later, htext, hnone⟩
    refine ⟨earlier, later ++ [c], by rw [htext]; simp, ?_⟩
    simpa [digits, hvalue] using hnone

theorem unended_append {text : List Char} {c : Char} (hunended : Unended text)
    (hgoes : c = '=' → ¬ CompletesAfter text) : Unended (text ++ [c]) := by
  intro earlier later hsplit
  rcases append_singleton_eq_split.mp hsplit with ⟨hpad, htext, _⟩ | ⟨rest, _, htext⟩
  · rw [← htext]
    exact hgoes hpad
  · exact hunended earlier rest htext

theorem Unended.of_append {text : List Char} {c : Char} (hunended : Unended (text ++ [c])) :
    Unended text := by
  intro earlier later htext
  apply hunended earlier (later ++ [c])
  rw [htext]
  simp

/-- A text has no end in it, or it has a first. -/
theorem unended_or_ends (text : List Char) :
    Unended text ∨ ∃ before after, text = before ++ '=' :: after ∧ CompletesAfter before ∧
      Unended before := by
  induction text using List.reverseRec with
  | nil =>
      left
      intro earlier later hsplit
      simp at hsplit
  | append_singleton text c ih =>
      rcases ih with hunended | ⟨before, after, htext, hcompletes, hunended⟩
      · by_cases hends : c = '=' ∧ CompletesAfter text
        · obtain ⟨rfl, hcompletes⟩ := hends
          exact .inr ⟨text, [], rfl, hcompletes, hunended⟩
        · exact .inl (unended_append hunended fun hpad hcompletes => hends ⟨hpad, hcompletes⟩)
      · refine .inr ⟨before, after ++ [c], ?_, hcompletes, hunended⟩
        rw [htext]
        simp

/-! ### Where the decoder stands -/

/-- The decoder has read a text. -/
structure Stands (text : List Char) (quad : Quad) : Prop where
  position : quad.position = (digits text).length % 4
  written : quad.out.length = (digits text).length * 3 / 4
  padded : 2 ≤ quad.position → (0 < quad.pads ↔ Padded text)

theorem stands_first : Stands [] Quad.first where
  position := rfl
  written := rfl
  padded := fun hposition => absurd hposition (by decide)

/-- The decoder sees a padding complete where it is complete. -/
theorem Stands.completes_iff {text : List Char} {quad : Quad} (hstands : Stands text quad) :
    quad.Completes ↔ CompletesAfter text := by
  have hposition := hstands.position
  have hsmall : (digits text).length % 4 < 4 := Nat.mod_lt _ (by decide)
  rw [CompletesAfter, Quad.Completes]
  constructor
  · intro ⟨htwo, hfour⟩
    by_cases hthree : (digits text).length % 4 = 3
    · exact .inl hthree
    · exact .inr ⟨by omega, (hstands.padded htwo).mp (by omega)⟩
  · rintro (hthree | ⟨htwo, hpadded⟩)
    · omega
    · have hpads : 0 < quad.pads := (hstands.padded (by omega)).mpr hpadded
      omega

theorem Stands.digit {text : List Char} {quad : Quad} {c : Char} {bits : Nat}
    (hstands : Stands text quad) (hvalue : value c = some bits) :
    Stands (text ++ [c]) (quad.digit bits) := by
  have hdigits : (digits (text ++ [c])).length = (digits text).length + 1 := by
    simp [digits, hvalue]
  have hposition := hstands.position
  have hwritten := hstands.written
  have hsmall : (digits text).length % 4 < 4 := Nat.mod_lt _ (by decide)
  have hnone : ¬ Padded (text ++ [c]) := padded_append_digit hvalue
  have hcases : quad.position = 0 ∨ quad.position = 1 ∨ quad.position = 2 ∨ quad.position = 3 := by
    omega
  rcases hcases with hzero | hone | htwo | hthree
  · rw [Quad.digit, hzero]
    constructor
    · change 1 = _
      omega
    · change quad.out.length = _
      omega
    · intro hlate
      change 2 ≤ 1 at hlate
      omega
  · rw [Quad.digit, hone]
    constructor
    · change 2 = _
      omega
    · change (quad.out ++ [_]).length = _
      rw [List.length_append, List.length_singleton]
      omega
    · exact fun _ => iff_of_false (Nat.lt_irrefl 0) hnone
  · rw [Quad.digit, htwo]
    constructor
    · change 3 = _
      omega
    · change (quad.out ++ [_]).length = _
      rw [List.length_append, List.length_singleton]
      omega
    · exact fun _ => iff_of_false (Nat.lt_irrefl 0) hnone
  · rw [Quad.digit, hthree]
    constructor
    · change 0 = _
      omega
    · change (quad.out ++ [_]).length = _
      rw [List.length_append, List.length_singleton]
      omega
    · intro hlate
      change 2 ≤ 0 at hlate
      omega

theorem Stands.other {text : List Char} {quad : Quad} {c : Char} (hstands : Stands text quad)
    (hvalue : value c = none) (hother : c ≠ '=') : Stands (text ++ [c]) quad := by
  have hdigits : digits (text ++ [c]) = digits text := by simp [digits, hvalue]
  constructor
  · rw [hdigits]
    exact hstands.position
  · rw [hdigits]
    exact hstands.written
  · intro hlate
    rw [padded_append_other hvalue hother]
    exact hstands.padded hlate

theorem Stands.pad {text : List Char} {quad : Quad} (hstands : Stands text quad) :
    Stands (text ++ ['=']) quad.pad := by
  have hdigits : digits (text ++ ['=']) = digits text := by simp [digits, value_pad]
  by_cases hlate : 2 ≤ quad.position
  · rw [Quad.pad, if_pos hlate]
    constructor
    · rw [hdigits]
      exact hstands.position
    · rw [hdigits]
      exact hstands.written
    · exact fun _ => iff_of_true (Nat.succ_pos _) (padded_append_pad text)
  · rw [Quad.pad, if_neg hlate]
    constructor
    · rw [hdigits]
      exact hstands.position
    · rw [hdigits]
      exact hstands.written
    · intro hposition
      exact absurd hposition hlate

/-- The decoder reads on to wherever no padding completes. -/
theorem lenientDecode_append {text : List Char} (hunended : Unended text) :
    ∃ quad, Stands text quad ∧ ∀ rest, lenientDecode (text ++ rest) = quad.scan rest := by
  induction text using List.reverseRec with
  | nil => exact ⟨Quad.first, stands_first, fun rest => rfl⟩
  | append_singleton text c ih =>
      obtain ⟨quad, hstands, hscan⟩ := ih hunended.of_append
      by_cases hpad : c = '='
      · have hgoes : ¬ quad.Completes := by
          rw [hstands.completes_iff]
          exact hunended text [] (by rw [hpad])
        rw [hpad]
        refine ⟨quad.pad, hstands.pad, ?_⟩
        intro rest
        rw [List.append_assoc, hscan, List.singleton_append, Quad.scan, if_pos rfl, if_neg hgoes]
      · cases hvalue : value c with
        | none =>
            refine ⟨quad, hstands.other hvalue hpad, ?_⟩
            intro rest
            rw [List.append_assoc, hscan, List.singleton_append, Quad.scan, if_neg hpad, hvalue]
        | some bits =>
            refine ⟨quad.digit bits, hstands.digit hvalue, ?_⟩
            intro rest
            rw [List.append_assoc, hscan, List.singleton_append, Quad.scan, if_neg hpad, hvalue]

/-- A text gives two bytes over a multiple of three exactly when three characters over a multiple
of four stand before the padding that ends it, whatever is between them and behind. -/
theorem lenientDecode_length_iff (text : List Char) (threes : Nat) :
    (∃ bytes, lenientDecode text = some bytes ∧ bytes.length = threes * 3 + 2) ↔
      ∃ before after, text = before ++ '=' :: after ∧ Unended before ∧
        (digits before).length = threes * 4 + 3 := by
  constructor
  · intro ⟨bytes, hdecode, hlength⟩
    rcases unended_or_ends text with hunended | ⟨before, after, htext, hcompletes, hunended⟩
    · obtain ⟨quad, hstands, hscan⟩ := lenientDecode_append hunended
      have hend := hscan []
      rw [List.append_nil, hdecode, Quad.scan] at hend
      have hposition := hstands.position
      have hwritten := hstands.written
      split at hend
      · cases hend
        omega
      · cases hend
    · obtain ⟨quad, hstands, hscan⟩ := lenientDecode_append hunended
      have hwritten := hstands.written
      have hend := hscan ('=' :: after)
      rw [← htext, hdecode, Quad.scan, if_pos rfl, if_pos (hstands.completes_iff.mpr hcompletes)]
        at hend
      cases hend
      refine ⟨before, after, htext, hunended, ?_⟩
      rcases hcompletes with hthree | ⟨htwo, _⟩
      · omega
      · omega
  · intro ⟨before, after, htext, hunended, hdigits⟩
    obtain ⟨quad, hstands, hscan⟩ := lenientDecode_append hunended
    have hcompletes : CompletesAfter before := .inl (by omega)
    have hwritten := hstands.written
    refine ⟨quad.out, ?_, by omega⟩
    rw [htext, hscan, Quad.scan, if_pos rfl, if_pos (hstands.completes_iff.mpr hcompletes)]

/-! ### The one spelling -/

/-- A text of four characters for every three bytes and three characters and a padding character
for two more; the last of the three has nothing in the bits no byte uses. -/
def Canonical (threes : Nat) (text : List Char) : Prop :=
  ∃ (bits : List Nat) (last : Nat), bits.length = threes * 4 + 2 ∧
    text = bits.map digit ++ [digit (last * 4), '=']

theorem digit_congr {left right : Nat} (hsame : left % 64 = right % 64) :
    digit left = digit right := by
  rw [digit, digit, hsame]

theorem canonical_encode {threes : Nat} {bytes : List UInt8} (hlength : bytes.length = threes * 3 + 2) :
    Canonical threes (encode bytes) := by
  induction threes generalizing bytes with
  | zero =>
      obtain ⟨a, b, rfl⟩ := List.length_eq_two.mp hlength
      exact ⟨[a.toNat / 4, a.toNat * 16 + b.toNat / 16], b.toNat, rfl, rfl⟩
  | succ threes ih =>
      match bytes, hlength with
      | a :: b :: c :: bytes, hlength =>
          have hrest : bytes.length = threes * 3 + 2 := by
            simp only [List.length_cons] at hlength
            omega
          obtain ⟨bits, last, hbits, htext⟩ := ih hrest
          refine ⟨a.toNat / 4 :: (a.toNat * 16 + b.toNat / 16) :: (b.toNat * 4 + c.toNat / 64) ::
            c.toNat :: bits, last, ?_, ?_⟩
          · simp only [List.length_cons]
            omega
          · rw [encode, htext]
            rfl

theorem toNat_ofNat {bits : Nat} (hbits : bits < 256) : (UInt8.ofNat bits).toNat = bits :=
  UInt8.toNat_ofNat_of_lt hbits

theorem encode_of_canonical {threes : Nat} {text : List Char} (htext : Canonical threes text) :
    ∃ bytes, bytes.length = threes * 3 + 2 ∧ encode bytes = text := by
  obtain ⟨bits, last, hbits, rfl⟩ := htext
  induction threes generalizing bits with
  | zero =>
      obtain ⟨first, second, rfl⟩ := List.length_eq_two.mp hbits
      have ha : (UInt8.ofNat (first % 64 * 4 + second % 64 / 16)).toNat =
          first % 64 * 4 + second % 64 / 16 := toNat_ofNat (by omega)
      have hb : (UInt8.ofNat (second % 16 * 16 + last % 16)).toNat =
          second % 16 * 16 + last % 16 := toNat_ofNat (by omega)
      refine ⟨[UInt8.ofNat (first % 64 * 4 + second % 64 / 16),
        UInt8.ofNat (second % 16 * 16 + last % 16)], rfl, ?_⟩
      rw [encode, ha, hb]
      simp only [List.map_cons, List.map_nil, List.cons_append, List.nil_append, List.cons.injEq,
        and_true]
      refine ⟨digit_congr ?_, digit_congr ?_, digit_congr ?_⟩
      · omega
      · omega
      · omega
  | succ threes ih =>
      match bits, hbits with
      | [_, _, _], hbits =>
          simp only [List.length_cons, List.length_nil] at hbits
          omega
      | first :: second :: third :: fourth :: bits, hbits =>
          have hrest : bits.length = threes * 4 + 2 := by
            simp only [List.length_cons] at hbits
            omega
          obtain ⟨bytes, hlength, htext⟩ := ih bits hrest
          have ha : (UInt8.ofNat (first % 64 * 4 + second % 64 / 16)).toNat =
              first % 64 * 4 + second % 64 / 16 := toNat_ofNat (by omega)
          have hb : (UInt8.ofNat (second % 16 * 16 + third % 64 / 4)).toNat =
              second % 16 * 16 + third % 64 / 4 := toNat_ofNat (by omega)
          have hc : (UInt8.ofNat (third % 4 * 64 + fourth % 64)).toNat =
              third % 4 * 64 + fourth % 64 := toNat_ofNat (by omega)
          refine ⟨UInt8.ofNat (first % 64 * 4 + second % 64 / 16) ::
            UInt8.ofNat (second % 16 * 16 + third % 64 / 4) ::
              UInt8.ofNat (third % 4 * 64 + fourth % 64) :: bytes, ?_, ?_⟩
          · simp only [List.length_cons]
            omega
          · rw [encode, ha, hb, hc, htext]
            simp only [List.map_cons, List.cons_append, List.cons.injEq, and_true]
            refine ⟨digit_congr ?_, digit_congr ?_, digit_congr ?_, digit_congr ?_⟩
            · omega
            · omega
            · omega
            · omega

/-- The canonical texts are the encodings. -/
theorem canonical_iff {threes : Nat} {text : List Char} :
    Canonical threes text ↔ ∃ bytes, bytes.length = threes * 3 + 2 ∧ encode bytes = text := by
  constructor
  · exact encode_of_canonical
  · intro ⟨bytes, hlength, htext⟩
    rw [← htext]
    exact canonical_encode hlength

end Base64
