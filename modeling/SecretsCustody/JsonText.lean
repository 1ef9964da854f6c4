/-
JSON text as Python's `json` module writes and reads it.  The writer follows
`json.dumps` with `ensure_ascii` and `sort_keys`; the reader follows
`json.loads`, escapes, surrogate pairs and its limits included.
-/
import Mathlib.Data.List.Sort
import Mathlib.Data.List.AList
import Mathlib.Data.String.Basic
import Mathlib.Data.List.Lex

namespace JsonText

/-- A Python string as its code points.  A reader can produce unpaired
surrogates, which no `String` holds. -/
abbrev PyStr := List Nat

/-- The code points of a text. -/
def codes (text : String) : PyStr :=
  text.toList.map Char.toNat

/-- A code point that is a Unicode scalar value. -/
def IsScalar (code : Nat) : Prop :=
  code < 0xD800 ∨ 0xE000 ≤ code ∧ code < 0x110000

/-- What `json.loads` can return.  A float keeps its literal; an object keeps
its pairs in the order of the text. -/
inductive Json where
  | null
  | bool (value : Bool)
  | int (value : Int)
  | float (literal : List Char)
  | str (text : PyStr)
  | arr (items : List Json)
  | obj (entries : List (PyStr × Json))

/-- Executable test for one exact string value. -/
def Json.isText (text : PyStr) : Json → Bool
  | .str found => found = text
  | _ => false

@[simp] theorem Json.isText_iff {text : PyStr} {value : Json} :
    value.isText text = true ↔ value = .str text := by
  cases value <;> simp [Json.isText]

/-- The two separator pairs the program passes: the default and `(",", ":")`. -/
inductive Separators where
  | standard
  | compact

def Separators.pad : Separators → List Char
  | .standard => [' ']
  | .compact => []

/-! ### Writing -/

def hexDigit (digit : Nat) : Char :=
  if digit < 10 then Char.ofNat (48 + digit) else Char.ofNat (87 + digit)

def hex4 (code : Nat) : List Char :=
  [hexDigit (code / 4096 % 16), hexDigit (code / 256 % 16),
    hexDigit (code / 16 % 16), hexDigit (code % 16)]

def unicodeEscape (code : Nat) : List Char :=
  '\\' :: 'u' :: hex4 code

/-- One code point as `py_encode_basestring_ascii` writes it. -/
def escapeCode (code : Nat) : List Char :=
  if code = 0x22 then ['\\', '"']
  else if code = 0x5C then ['\\', '\\']
  else if code = 0x0A then ['\\', 'n']
  else if code = 0x0D then ['\\', 'r']
  else if code = 0x09 then ['\\', 't']
  else if code = 0x0C then ['\\', 'f']
  else if code = 0x08 then ['\\', 'b']
  else if 0x20 ≤ code ∧ code ≤ 0x7E then [Char.ofNat code]
  else if code < 0x10000 then unicodeEscape code
  else
    unicodeEscape (0xD800 + (code - 0x10000) / 0x400) ++
      unicodeEscape (0xDC00 + (code - 0x10000) % 0x400)

def escape (text : PyStr) : List Char :=
  text.flatMap escapeCode

def quoted (text : PyStr) : List Char :=
  '"' :: (escape text ++ ['"'])

def intText : Int → List Char
  | .ofNat n => Nat.toDigits 10 n
  | .negSucc n => '-' :: Nat.toDigits 10 (n + 1)

mutual

/-- The text of a value, members in their stored order. -/
def render (sep : Separators) : Json → List Char
  | .null => ['n', 'u', 'l', 'l']
  | .bool true => ['t', 'r', 'u', 'e']
  | .bool false => ['f', 'a', 'l', 's', 'e']
  | .int value => intText value
  | .float literal => literal
  | .str text => quoted text
  | .arr [] => ['[', ']']
  | .arr (item :: items) => '[' :: (render sep item ++ renderItems sep items)
  | .obj [] => ['{', '}']
  | .obj ((key, value) :: entries) =>
      '{' :: (quoted key ++ ':' :: sep.pad ++ render sep value ++
        renderEntries sep entries)

def renderItems (sep : Separators) : List Json → List Char
  | [] => [']']
  | item :: items => ',' :: (sep.pad ++ render sep item ++ renderItems sep items)

def renderEntries (sep : Separators) : List (PyStr × Json) → List Char
  | [] => ['}']
  | (key, value) :: entries =>
      ',' :: (sep.pad ++ quoted key ++ ':' :: sep.pad ++ render sep value ++
        renderEntries sep entries)

end

/-- `sort_keys` compares entries by key alone, since keys are unique. -/
def keyLe (left right : PyStr × Json) : Prop :=
  left.1 ≤ right.1

instance : DecidableRel keyLe :=
  fun left right => inferInstanceAs (Decidable (left.1 ≤ right.1))

mutual

/-- The value with the members of every object sorted by key. -/
def sortKeys : Json → Json
  | .arr items => .arr (sortItems items)
  | .obj entries => .obj ((sortEntries entries).insertionSort keyLe)
  | .null => .null
  | .bool value => .bool value
  | .int value => .int value
  | .float literal => .float literal
  | .str text => .str text

def sortItems : List Json → List Json
  | [] => []
  | item :: items => sortKeys item :: sortItems items

def sortEntries : List (PyStr × Json) → List (PyStr × Json)
  | [] => []
  | (key, value) :: entries => (key, sortKeys value) :: sortEntries entries

end

/-- `json.dumps(value, sort_keys=True)` with the given separators. -/
def dumps (sep : Separators) (value : Json) : String :=
  String.ofList (render sep (sortKeys value))

/-! ### Reading -/

def hexValue (c : Char) : Option Nat :=
  if 48 ≤ c.toNat ∧ c.toNat ≤ 57 then some (c.toNat - 48)
  else if 97 ≤ c.toNat ∧ c.toNat ≤ 102 then some (c.toNat - 87)
  else if 65 ≤ c.toNat ∧ c.toNat ≤ 70 then some (c.toNat - 55)
  else none

def scanHex4 : List Char → Option (Nat × List Char)
  | a :: b :: c :: d :: rest => do
      let a ← hexValue a
      let b ← hexValue b
      let c ← hexValue c
      let d ← hexValue d
      some (a * 4096 + b * 256 + c * 16 + d, rest)
  | _ => none

/-- The text after `\u`.  A high surrogate joins with an escaped low surrogate
that follows it and stands alone otherwise. -/
def scanUnicode (text : List Char) : Option (Nat × List Char) :=
  match scanHex4 text with
  | none => none
  | some (unit, rest) =>
      if 0xD800 ≤ unit ∧ unit < 0xDC00 then
        match rest with
        | '\\' :: 'u' :: tail =>
            match scanHex4 tail with
            | none => none
            | some (low, after) =>
                if 0xDC00 ≤ low ∧ low < 0xE000 then
                  some (0x10000 + (unit - 0xD800) * 0x400 + (low - 0xDC00), after)
                else some (unit, rest)
        | _ => some (unit, rest)
      else some (unit, rest)

/-- The one-character escapes. -/
def simpleEscape (c : Char) : Option Nat :=
  if c = '"' then some 0x22
  else if c = '\\' then some 0x5C
  else if c = '/' then some 0x2F
  else if c = 'b' then some 0x08
  else if c = 'f' then some 0x0C
  else if c = 'n' then some 0x0A
  else if c = 'r' then some 0x0D
  else if c = 't' then some 0x09
  else none

/-- The text after a backslash. -/
def scanEscape : List Char → Option (Nat × List Char)
  | [] => none
  | c :: rest =>
      if c = 'u' then scanUnicode rest
      else (simpleEscape c).map fun code => (code, rest)

/-- The text after an opening quote, up to the closing one.  Control characters
are refused, as the default `strict` does. -/
def scanString : Nat → List Char → Option (PyStr × List Char)
  | 0, _ => none
  | _ + 1, [] => none
  | fuel + 1, c :: rest =>
      if c = '"' then some ([], rest)
      else if c = '\\' then
        match scanEscape rest with
        | none => none
        | some (code, after) =>
            (scanString fuel after).map fun found => (code :: found.1, found.2)
      else if c.toNat < 0x20 then none
      else (scanString fuel rest).map fun found => (c.toNat :: found.1, found.2)

/-- The text after the opening quote with enough steps for all of it. -/
def scanQuoted (text : List Char) : Option (PyStr × List Char) :=
  scanString (text.length + 1) text

def isSpace (c : Char) : Bool :=
  c = ' ' || c = '\t' || c = '\n' || c = '\r'

def skipSpace (text : List Char) : List Char :=
  text.dropWhile isSpace

/-- `0` alone, or digits that do not start with `0`. -/
def scanDigits (text : List Char) : Option (List Char × List Char) :=
  match text with
  | [] => none
  | c :: rest =>
      if c = '0' then some (['0'], rest)
      else if c.isDigit then
        some (text.takeWhile Char.isDigit, text.dropWhile Char.isDigit)
      else none

/-- `.` and digits, when both are there. -/
def scanFraction (text : List Char) : List Char × List Char :=
  match text with
  | '.' :: rest =>
      if (rest.takeWhile Char.isDigit).isEmpty then ([], text)
      else ('.' :: rest.takeWhile Char.isDigit, rest.dropWhile Char.isDigit)
  | _ => ([], text)

def scanSign (text : List Char) : List Char × List Char :=
  match text with
  | '+' :: rest => (['+'], rest)
  | '-' :: rest => (['-'], rest)
  | _ => ([], text)

/-- `e` or `E`, a sign if any, and digits, when the digits are there. -/
def scanExponent (text : List Char) : List Char × List Char :=
  match text with
  | [] => ([], text)
  | c :: rest =>
      if c = 'e' ∨ c = 'E' then
        let (sign, digits) := scanSign rest
        if (digits.takeWhile Char.isDigit).isEmpty then ([], text)
        else (c :: sign ++ digits.takeWhile Char.isDigit, digits.dropWhile Char.isDigit)
      else ([], text)

/-- A number after its minus sign, if any. -/
def scanNumber (negative : Bool) (text : List Char) : Option (Json × List Char) :=
  match scanDigits text with
  | none => none
  | some (digits, rest) =>
      let (fraction, rest) := scanFraction rest
      let (exponent, rest) := scanExponent rest
      if fraction.isEmpty ∧ exponent.isEmpty then
        let magnitude : Int := Nat.ofDigitChars 10 digits 0
        some (.int (if negative then -magnitude else magnitude), rest)
      else
        some (.float ((if negative then ['-'] else []) ++ digits ++ fraction ++ exponent), rest)

/-- The words that stand for a value by themselves. -/
def constants : List (List Char × Json) :=
  [(['n', 'u', 'l', 'l'], .null), (['t', 'r', 'u', 'e'], .bool true),
    (['f', 'a', 'l', 's', 'e'], .bool false), (['N', 'a', 'N'], .float ['N', 'a', 'N']),
    (['I', 'n', 'f', 'i', 'n', 'i', 't', 'y'],
      .float ['I', 'n', 'f', 'i', 'n', 'i', 't', 'y']),
    (['-', 'I', 'n', 'f', 'i', 'n', 'i', 't', 'y'],
      .float ['-', 'I', 'n', 'f', 'i', 'n', 'i', 't', 'y'])]

def scanConstant (text : List Char) :
    List (List Char × Json) → Option (Json × List Char)
  | [] => none
  | (word, value) :: rest =>
      if word.isPrefixOf text then some (value, text.drop word.length)
      else scanConstant text rest

/-- Everything that is not quoted or bracketed. -/
def scanAtom (text : List Char) : Option (Json × List Char) :=
  match scanConstant text constants with
  | some found => some found
  | none =>
      match text with
      | '-' :: rest => scanNumber true rest
      | _ => scanNumber false text

mutual

/-- One value at the head of the text. -/
def parseValue : Nat → List Char → Option (Json × List Char)
  | 0, _ => none
  | _ + 1, [] => none
  | fuel + 1, c :: rest =>
      if c = '"' then (scanQuoted rest).map fun found => (.str found.1, found.2)
      else if c = '{' then
        match skipSpace rest with
        | '}' :: after => some (.obj [], after)
        | '"' :: after =>
            (parseMembers fuel after).map fun found => (.obj found.1, found.2)
        | _ => none
      else if c = '[' then
        match skipSpace rest with
        | ']' :: after => some (.arr [], after)
        | after => (parseItems fuel after).map fun found => (.arr found.1, found.2)
      else scanAtom (c :: rest)

/-- The items of a non-empty array, from the first one on. -/
def parseItems : Nat → List Char → Option (List Json × List Char)
  | 0, _ => none
  | fuel + 1, text =>
      match parseValue fuel text with
      | none => none
      | some (item, rest) =>
          match skipSpace rest with
          | ']' :: after => some ([item], after)
          | ',' :: after =>
              (parseItems fuel (skipSpace after)).map fun found =>
                (item :: found.1, found.2)
          | _ => none

/-- The members of a non-empty object, from inside the first key on. -/
def parseMembers : Nat → List Char → Option (List (PyStr × Json) × List Char)
  | 0, _ => none
  | fuel + 1, text =>
      match scanQuoted text with
      | none => none
      | some (key, rest) =>
          match skipSpace rest with
          | ':' :: rest =>
              match parseValue fuel (skipSpace rest) with
              | none => none
              | some (value, rest) =>
                  match skipSpace rest with
                  | '}' :: after => some ([(key, value)], after)
                  | ',' :: after =>
                      match skipSpace after with
                      | '"' :: after =>
                          (parseMembers fuel after).map fun found =>
                            ((key, value) :: found.1, found.2)
                      | _ => none
                  | _ => none
          | _ => none

end

/-- The whole text as one value with nothing after it, repeated keys kept. -/
def parse (text : List Char) : Option Json :=
  if text.head? = some (Char.ofNat 0xFEFF) then none
  else
    match parseValue (text.length + 1) (skipSpace text) with
    | none => none
    | some (value, rest) => if (skipSpace rest).isEmpty then some value else none

/-- The pairs as `dict` keeps them: the last value at the place of the first. -/
def mergePairs : List (PyStr × Json) → List (PyStr × Json)
  | [] => []
  | (key, value) :: rest =>
      let merged := mergePairs rest
      (key, (merged.lookup key).getD value) :: merged.filter fun entry => entry.1 ≠ key

mutual

/-- Every object of the value as a `dict`. -/
def mergeKeys : Json → Json
  | .arr items => .arr (mergeItems items)
  | .obj entries => .obj (mergePairs (mergeEntries entries))
  | .null => .null
  | .bool value => .bool value
  | .int value => .int value
  | .float literal => .float literal
  | .str text => .str text

def mergeItems : List Json → List Json
  | [] => []
  | item :: items => mergeKeys item :: mergeItems items

def mergeEntries : List (PyStr × Json) → List (PyStr × Json)
  | [] => []
  | (key, value) :: entries => (key, mergeKeys value) :: mergeEntries entries

end

/-- The digits `int(text)` reads at most. -/
def maxStrDigits : Nat := 4300

mutual

/-- An integer of the value was written with more digits than `int` reads. -/
def longInteger : Json → Bool
  | .int value => maxStrDigits < (intText value.natAbs).length
  | .arr items => longItems items
  | .obj entries => longEntries entries
  | .null => false
  | .bool _ => false
  | .float _ => false
  | .str _ => false

def longItems : List Json → Bool
  | [] => false
  | item :: items => longInteger item || longItems items

def longEntries : List (PyStr × Json) → Bool
  | [] => false
  | (_, value) :: entries => longInteger value || longEntries entries

end

theorem longEntries_eq_false_iff (entries : List (PyStr × Json)) :
    longEntries entries = false ↔ ∀ entry ∈ entries, longInteger entry.2 = false := by
  induction entries with
  | nil => simp [longEntries]
  | cons entry entries ih => simp [longEntries, ih]

/-- Why `json.loads` raises: `JSONDecodeError`, the `ValueError` of a long integer, or
`RecursionError`. -/
inductive LoadFault where
  | malformed
  | longInteger
  | recursion
  deriving DecidableEq

/-- `json.loads(text)`.  Whether the nesting of the text exhausts the recursion before anything else
stops the reader is up to the interpreter.  A text that is no JSON counts as such even where a long
integer comes first. -/
def loads (deep : Bool) (text : String) : Except LoadFault Json :=
  if deep then .error .recursion
  else
    match parse text.toList with
    | none => .error .malformed
    | some value => if longInteger value then .error .longInteger else .ok (mergeKeys value)

theorem loads_eq_recursion {deep : Bool} {text : String} :
    loads deep text = .error .recursion ↔ deep = true := by
  cases deep with
  | true => simp [loads]
  | false =>
      unfold loads
      cases parse text.toList with
      | none => simp
      | some value =>
          by_cases hlong : longInteger value = true
          · simp [hlong]
          · simp [hlong]

end JsonText
