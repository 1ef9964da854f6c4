/-
White space and phrases in texts, as `split`, `join` and `replace` of the
language treat them: splitting into words keeps every character that is not a
space, and taking out a phrase keeps every character the phrase does not have.
-/
import Mathlib.Data.List.Infix
import Mathlib.Data.List.TakeWhile

namespace Words

/-- `str.isspace` for one code point. -/
def isSpaceCode (code : Nat) : Bool :=
  (9 ≤ code && code ≤ 13) || (28 ≤ code && code ≤ 32) || code = 133 || code = 160 ||
    code = 5760 || (8192 ≤ code && code ≤ 8202) || code = 8232 || code = 8233 || code = 8239 ||
    code = 8287 || code = 12288

/-- `str.isspace` for one character. -/
def isSpace (c : Char) : Bool :=
  isSpaceCode c.toNat

/-- A text without what counts as space at its ends. -/
def trim {α : Type} (space : α → Bool) (text : List α) : List α :=
  ((text.dropWhile space).reverse.dropWhile space).reverse

/-- `text.strip()`. -/
def strip (text : List Char) : List Char :=
  trim isSpace text

/-- The words of a text, after a word begun. -/
def wordsFrom (word : List Char) : List Char → List (List Char)
  | [] => if word = [] then [] else [word]
  | c :: text =>
      if isSpace c then
        if word = [] then wordsFrom [] text else word :: wordsFrom [] text
      else wordsFrom (word ++ [c]) text

/-- `text.split()`. -/
def words (text : List Char) : List (List Char) :=
  wordsFrom [] text

/-- `" ".join(…)`. -/
def join : List (List Char) → List Char
  | [] => []
  | [word] => word
  | word :: other :: rest => word ++ ' ' :: join (other :: rest)

/-- `" ".join(text.split())`. -/
def squeeze (text : List Char) : List Char :=
  join (words text)

/-- `text.replace(phrase, "")` once `skip` characters are passed over. -/
def removeFrom (phrase : List Char) : Nat → List Char → List Char
  | _, [] => []
  | skip + 1, _ :: text => removeFrom phrase skip text
  | 0, c :: text =>
      if phrase <+: c :: text then removeFrom phrase (phrase.length - 1) text
      else c :: removeFrom phrase 0 text

/-- `text.replace(phrase, "")`, for a phrase that is not empty. -/
def remove (phrase text : List Char) : List Char :=
  removeFrom phrase 0 text

section

variable {α β : Type} {space : α → Bool} {text : List α}

theorem trim_eq_nil_iff : trim space text = [] ↔ ∀ c ∈ text, space c = true := by
  rw [trim, List.reverse_eq_nil_iff, List.dropWhile_eq_nil_iff]
  constructor
  · intro hall c hc
    by_contra hother
    have hkept : text.dropWhile space ≠ [] := by
      rw [ne_eq, List.dropWhile_eq_nil_iff]
      exact fun hspaces => hother (hspaces c hc)
    have hhead := List.head_dropWhile_not space hkept
    rw [hall _ (List.mem_reverse.mpr (List.head_mem hkept))] at hhead
    cases hhead
  · intro hall c hc
    exact hall c ((List.dropWhile_sublist space).subset (List.mem_reverse.mp hc))

/-- A text is trimmed exactly when it neither starts nor ends with a space. -/
theorem trim_eq_self_iff : trim space text = text ↔
    (∀ c ∈ text.head?, space c = false) ∧ ∀ c ∈ text.getLast?, space c = false := by
  have hfront : ∀ {found : List α}, found.dropWhile space = found ↔
      ∀ c ∈ found.head?, space c = false := by
    intro found
    cases found with
    | nil => simp
    | cons c found =>
        rw [List.head?_cons]
        by_cases hspace : space c = true
        · rw [List.dropWhile_cons_of_pos hspace]
          constructor
          · intro heq
            have hlength := (List.dropWhile_sublist space (l := found)).length_le
            rw [heq, List.length_cons] at hlength
            omega
          · intro hnone
            rw [hnone c rfl] at hspace
            cases hspace
        · rw [List.dropWhile_cons_of_neg hspace]
          simpa using hspace
  rw [List.getLast?_eq_head?_reverse, ← hfront, ← hfront, trim]
  constructor
  · intro htrim
    have hlast : (text.dropWhile space).reverse.dropWhile space = text.reverse := by
      rw [← htrim, List.reverse_reverse, htrim]
    have hsub := List.dropWhile_sublist space (l := (text.dropWhile space).reverse)
    rw [hlast] at hsub
    have hlength := hsub.length_le
    rw [List.length_reverse, List.length_reverse] at hlength
    have hsame := (List.dropWhile_sublist space (l := text)).eq_of_length_le hlength
    rw [hsame] at hlast
    exact ⟨hsame, hlast⟩
  · rintro ⟨hhead, hlast⟩
    rw [hhead, hlast, List.reverse_reverse]

theorem trim_map (f : β → α) (words : List β) :
    trim space (words.map f) = (trim (fun c => space (f c)) words).map f := by
  simp only [trim, List.dropWhile_map, ← List.map_reverse]
  rfl

end

theorem mem_wordsFrom {c : Char} (hspace : isSpace c = false) {word text : List Char}
    (hmem : c ∈ word ∨ c ∈ text) : ∃ found ∈ wordsFrom word text, c ∈ found := by
  induction text generalizing word with
  | nil =>
      rcases hmem with hmem | hmem
      · have hword : word ≠ [] := List.ne_nil_of_mem hmem
        rw [wordsFrom, if_neg hword]
        exact ⟨word, List.mem_singleton_self word, hmem⟩
      · cases hmem
  | cons d text ih =>
      by_cases hd : isSpace d = true
      · have htext : c ∈ word ∨ c ∈ text := by
          rcases hmem with hmem | hmem
          · exact .inl hmem
          · rcases List.mem_cons.mp hmem with rfl | hmem
            · rw [hspace] at hd
              cases hd
            · exact .inr hmem
        rw [wordsFrom, if_pos hd]
        by_cases hword : word = []
        · subst hword
          rw [if_pos rfl]
          exact ih htext
        · rw [if_neg hword]
          rcases htext with hmem | hmem
          · exact ⟨word, List.mem_cons_self, hmem⟩
          · obtain ⟨found, hfound, hc⟩ := ih (.inr hmem)
            exact ⟨found, List.mem_cons_of_mem word hfound, hc⟩
      · rw [wordsFrom, if_neg hd]
        apply ih
        rcases hmem with hmem | hmem
        · exact .inl (List.mem_append_left _ hmem)
        · rcases List.mem_cons.mp hmem with rfl | hmem
          · exact .inl (List.mem_append_right _ (List.mem_singleton_self c))
          · exact .inr hmem

theorem mem_join {c : Char} {word : List Char} {all : List (List Char)} (hword : word ∈ all)
    (hc : c ∈ word) : c ∈ join all := by
  induction all with
  | nil => cases hword
  | cons first rest ih =>
      cases rest with
      | nil =>
          rw [List.mem_singleton] at hword
          rwa [join, ← hword]
      | cons other rest =>
          rw [join, List.mem_append, List.mem_cons]
          rcases List.mem_cons.mp hword with rfl | hword
          · exact .inl hc
          · exact .inr (.inr (ih hword))

/-- Squeezing white space keeps every other character. -/
theorem mem_squeeze {c : Char} (hspace : isSpace c = false) {text : List Char}
    (hmem : c ∈ text) : c ∈ squeeze text := by
  have hwords : ∃ word ∈ wordsFrom [] text, c ∈ word := mem_wordsFrom hspace (.inr hmem)
  obtain ⟨word, hword, hc⟩ := hwords
  exact mem_join hword hc

theorem removeFrom_eq_self {phrase text : List Char} (habsent : ¬ phrase <:+: text) :
    removeFrom phrase 0 text = text := by
  induction text with
  | nil => rfl
  | cons c text ih =>
      have hhead : ¬ phrase <+: c :: text := fun hstarts => habsent hstarts.isInfix
      have htail : ¬ phrase <:+: text := fun hwithin =>
        habsent (hwithin.trans (List.suffix_cons c text).isInfix)
      rw [removeFrom, if_neg hhead, ih htail]

theorem mem_removeFrom {first : Char} {phrase : List Char} {c : Char}
    (hphrase : c ∉ first :: phrase) {skip : Nat} {text : List Char}
    (hmem : c ∈ text.drop skip) : c ∈ removeFrom (first :: phrase) skip text := by
  induction text generalizing skip with
  | nil =>
      rw [List.drop_nil] at hmem
      cases hmem
  | cons d text ih =>
      cases skip with
      | succ skip => exact ih hmem
      | zero =>
          rw [removeFrom]
          by_cases hstarts : first :: phrase <+: d :: text
          · rw [if_pos hstarts]
            apply ih
            obtain ⟨rest, hrest⟩ := hstarts
            have hc : c ∈ rest := by
              rw [List.drop_zero, ← hrest] at hmem
              exact (List.mem_append.mp hmem).resolve_left hphrase
            have htext : text = phrase ++ rest := (List.cons.inj hrest).2.symm
            rw [htext, List.length_cons, Nat.add_sub_cancel, List.drop_left]
            exact hc
          · rw [if_neg hstarts]
            rcases List.mem_cons.mp hmem with rfl | hmem
            · exact List.mem_cons_self
            · exact List.mem_cons_of_mem d (ih hmem)

/-- Taking out a phrase keeps every character the phrase does not have. -/
theorem mem_remove {first : Char} {phrase : List Char} {c : Char}
    (hphrase : c ∉ first :: phrase) {text : List Char} (hmem : c ∈ text) :
    c ∈ remove (first :: phrase) text :=
  mem_removeFrom hphrase hmem

/-- A text without the phrase is left as it is. -/
theorem remove_eq_self {phrase text : List Char} (habsent : ¬ phrase <:+: text) :
    remove phrase text = text :=
  removeFrom_eq_self habsent

end Words
