/-
Regular expressions as a backtracking matcher runs them.  A pattern spans a part of a text between
what stands before it and what stands after it; the matcher finds exactly these spans, the one it
prefers first, and a search takes them from the left.
-/
import Mathlib.Data.List.Basic
import Mathlib.Data.List.TakeWhile

namespace Regexes

variable {α : Type}

/-- A condition on a place, a character of a class, a run of such characters between two lengths,
one pattern after another, or one or another. -/
inductive Pattern (α : Type) where
  | place (holds : List α → List α → Bool)
  | one (inside : α → Bool)
  | run (inside : α → Bool) (least : Nat) (most : Option Nat)
  | seq (first second : Pattern α)
  | either (first second : Pattern α)

namespace Pattern

/-- The pattern spans the text between what is before and what is after. -/
def Spans : Pattern α → List α → List α → List α → Prop
  | .place holds, before, found, after => found = [] ∧ holds before after = true
  | .one inside, _, found, _ => ∃ c, found = [c] ∧ inside c = true
  | .run inside least most, _, found, _ =>
      (∀ c ∈ found, inside c = true) ∧ least ≤ found.length ∧ ∀ bound ∈ most, found.length ≤ bound
  | .seq first second, before, found, after => ∃ left right, found = left ++ right ∧
      first.Spans before left (right ++ after) ∧ second.Spans (before ++ left) right after
  | .either first second, before, found, after =>
      first.Spans before found after ∨ second.Spans before found after

/-! ### The matcher -/

/-- The starts of a text that a run can take, the longest first, each with what it leaves. -/
def runs (inside : α → Bool) : Option Nat → List α → List (List α × List α)
  | _, [] => [([], [])]
  | most, c :: text =>
      if inside c = true ∧ most ≠ some 0 then
        (runs inside (most.map Nat.pred) text).map (fun found => (c :: found.1, found.2)) ++
          [([], c :: text)]
      else [([], c :: text)]

/-- The ways to match at a place, in the order of the matcher: what is taken, and what it leaves. -/
def ends : Pattern α → List α → List α → List (List α × List α)
  | .place holds, before, text => if holds before text then [([], text)] else []
  | .one _, _, [] => []
  | .one inside, _, c :: text => if inside c then [([c], text)] else []
  | .run inside least most, _, text =>
      (runs inside most text).filter fun found => decide (least ≤ found.1.length)
  | .seq first second, before, text =>
      (ends first before text).flatMap fun left =>
        (ends second (before ++ left.1) left.2).map fun right => (left.1 ++ right.1, right.2)
  | .either first second, before, text => ends first before text ++ ends second before text

/-- A match of the whole text. -/
def fullmatch (pattern : Pattern α) (text : List α) : Bool :=
  (pattern.ends [] text).any fun found => found.2.isEmpty

/-- A match at the start of the text. -/
def matchStart (pattern : Pattern α) (text : List α) : Bool :=
  !(pattern.ends [] text).isEmpty

/-- The matches in a text from the left, none in another, for a pattern that spans nothing
empty; the first so many characters are passed over. -/
def findFrom (pattern : Pattern α) : List α → Nat → List α → List (List α)
  | _, _, [] => []
  | before, skip + 1, c :: text => findFrom pattern (before ++ [c]) skip text
  | before, 0, c :: text =>
      match (pattern.ends before (c :: text)).head? with
      | some (first :: found, _) =>
          (first :: found) :: findFrom pattern (before ++ [c]) found.length text
      | _ => findFrom pattern (before ++ [c]) 0 text

def findAll (pattern : Pattern α) (text : List α) : List (List α) :=
  pattern.findFrom [] 0 text

theorem mem_runs {inside : α → Bool} {most : Option Nat} {text found rest : List α} :
    (found, rest) ∈ runs inside most text ↔
      text = found ++ rest ∧ (∀ c ∈ found, inside c = true) ∧
        ∀ bound ∈ most, found.length ≤ bound := by
  induction text generalizing most found with
  | nil =>
      rw [runs, List.mem_singleton, Prod.mk.injEq]
      constructor
      · rintro ⟨rfl, rfl⟩
        exact ⟨rfl, fun _ hc => (nomatch hc), fun bound _ => Nat.zero_le bound⟩
      · rintro ⟨htext, _⟩
        exact List.append_eq_nil_iff.mp htext.symm
  | cons c text ih =>
      rw [runs]
      cases found with
      | nil =>
          have hstop : ([], rest) ∈ [(([] : List α), c :: text)] ↔ c :: text = [] ++ rest := by
            rw [List.mem_singleton, Prod.mk.injEq, List.nil_append, eq_comm (a := rest)]
            exact and_iff_right rfl
          simp only [List.not_mem_nil, List.length_nil, Nat.zero_le, implies_true, and_true,
            IsEmpty.forall_iff]
          split
          · rw [List.mem_append, hstop]
            simp
          · exact hstop
      | cons first found =>
          have hbound : (∀ bound ∈ most, (first :: found).length ≤ bound) ↔
              most ≠ some 0 ∧ ∀ bound ∈ most.map Nat.pred, found.length ≤ bound := by
            cases most with
            | none => simp
            | some bound =>
                simp only [Option.mem_some_iff, forall_eq', List.length_cons, Option.map_some,
                  ne_eq, Option.some.injEq]
                constructor
                · intro hlength
                  exact ⟨by omega, Nat.le_pred_of_lt hlength⟩
                · rintro ⟨hpositive, hlength⟩
                  rw [Nat.pred_eq_sub_one] at hlength
                  omega
          rw [hbound]
          split
          · next hopen =>
              simp only [List.mem_append, List.mem_map, Prod.mk.injEq, List.cons.injEq,
                List.mem_singleton, reduceCtorEq, false_and, or_false, Prod.exists]
              constructor
              · rintro ⟨found', rest', hmem, ⟨rfl, rfl⟩, rfl⟩
                obtain ⟨htext, hinside, hlength⟩ := ih.mp hmem
                refine ⟨by rw [htext]; rfl, ?_, hopen.2, hlength⟩
                intro c' hc'
                rcases List.mem_cons.mp hc' with rfl | htail
                · exact hopen.1
                · exact hinside c' htail
              · rintro ⟨htext, hinside, _, hlength⟩
                obtain ⟨rfl, htail⟩ := List.cons.inj htext
                refine ⟨found, rest, ih.mpr ⟨htail, ?_, hlength⟩, ⟨rfl, rfl⟩, rfl⟩
                exact fun c' hc' => hinside c' (List.mem_cons_of_mem c hc')
          · next hclosed =>
              simp only [List.mem_singleton, Prod.mk.injEq, reduceCtorEq, false_and, false_iff]
              rintro ⟨htext, hinside, hfree, _⟩
              obtain ⟨rfl, _⟩ := List.cons.inj htext
              exact hclosed ⟨hinside c List.mem_cons_self, hfree⟩

/-- The matcher finds the spans of the pattern, and nothing else. -/
theorem mem_ends {pattern : Pattern α} {before text found rest : List α} :
    (found, rest) ∈ pattern.ends before text ↔
      text = found ++ rest ∧ pattern.Spans before found rest := by
  induction pattern generalizing before text found rest with
  | place holds =>
      rw [ends, Spans]
      split
      · next hholds =>
          rw [List.mem_singleton, Prod.mk.injEq]
          constructor
          · rintro ⟨rfl, rfl⟩
            exact ⟨rfl, rfl, hholds⟩
          · rintro ⟨rfl, rfl, _⟩
            exact ⟨rfl, rfl⟩
      · next hnot =>
          simp only [List.not_mem_nil, false_iff]
          rintro ⟨rfl, rfl, hholds⟩
          exact hnot hholds
  | one inside =>
      cases text with
      | nil =>
          simp only [ends, List.not_mem_nil, Spans, false_iff]
          rintro ⟨htext, c, rfl, _⟩
          cases htext
      | cons c text =>
          rw [ends, Spans]
          split
          · next hinside =>
              rw [List.mem_singleton, Prod.mk.injEq]
              constructor
              · rintro ⟨rfl, rfl⟩
                exact ⟨rfl, c, rfl, hinside⟩
              · rintro ⟨htext, first, rfl, _⟩
                obtain ⟨rfl, rfl⟩ := List.cons.inj htext
                exact ⟨rfl, rfl⟩
          · next hnot =>
              simp only [List.not_mem_nil, false_iff]
              rintro ⟨htext, first, rfl, hinside⟩
              obtain ⟨rfl, rfl⟩ := List.cons.inj htext
              exact hnot hinside
  | run inside least most =>
      rw [ends, List.mem_filter, mem_runs, Spans, decide_eq_true_eq, and_assoc, and_assoc]
      exact and_congr_right fun _ => and_congr_right fun _ => and_comm
  | seq first second ihFirst ihSecond =>
      simp only [ends, List.mem_flatMap, List.mem_map, Prod.exists, Prod.mk.injEq, Spans]
      constructor
      · rintro ⟨left, middle, hleft, right, rest', hright, rfl, rfl⟩
        obtain ⟨rfl, hspans⟩ := ihFirst.mp hleft
        obtain ⟨rfl, hspans'⟩ := ihSecond.mp hright
        exact ⟨(List.append_assoc _ _ _).symm, left, right, rfl, hspans, hspans'⟩
      · rintro ⟨rfl, left, right, rfl, hspans, hspans'⟩
        refine ⟨left, right ++ rest, ihFirst.mpr ⟨List.append_assoc _ _ _, hspans⟩, right, rest,
          ihSecond.mpr ⟨rfl, hspans'⟩, rfl, rfl⟩
  | either first second ihFirst ihSecond =>
      rw [ends, List.mem_append, ihFirst, ihSecond, Spans]
      exact and_or_left.symm

theorem fullmatch_eq_true {pattern : Pattern α} {text : List α} :
    pattern.fullmatch text = true ↔ pattern.Spans [] text [] := by
  simp only [fullmatch, List.any_eq_true, Prod.exists, List.isEmpty_iff, exists_eq_right,
    mem_ends, List.append_nil]
  constructor
  · rintro ⟨found, rfl, hspans⟩
    exact hspans
  · exact fun hspans => ⟨text, rfl, hspans⟩

theorem matchStart_eq_true {pattern : Pattern α} {text : List α} :
    pattern.matchStart text = true ↔
      ∃ found rest, text = found ++ rest ∧ pattern.Spans [] found rest := by
  rw [matchStart, Bool.not_eq_true', List.isEmpty_eq_false_iff_exists_mem]
  simp only [Prod.exists, mem_ends]

/-! ### Literals -/

/-- The characters of a text, one after another. -/
def literal [DecidableEq α] : List α → Pattern α
  | [] => .place fun _ _ => true
  | c :: text => .seq (.one fun other => decide (other = c)) (literal text)

theorem spans_literal [DecidableEq α] {text before found after : List α} :
    (literal text).Spans before found after ↔ found = text := by
  induction text generalizing before found with
  | nil =>
      rw [literal, Spans]
      exact and_iff_left rfl
  | cons c text ih =>
      simp only [literal, Spans, decide_eq_true_eq, ih]
      constructor
      · rintro ⟨left, right, rfl, ⟨_, rfl, rfl⟩, rfl⟩
        rfl
      · rintro rfl
        exact ⟨[c], text, rfl, ⟨c, rfl, rfl⟩, rfl⟩

end Pattern

/-! ### Words -/

/-- The runs of word characters of a text, after a run begun. -/
def wordsFrom (word : α → Bool) (begun : List α) : List α → List (List α)
  | [] => if begun.isEmpty then [] else [begun]
  | c :: text =>
      if word c then wordsFrom word (begun ++ [c]) text
      else if begun.isEmpty then wordsFrom word [] text
      else begun :: wordsFrom word [] text

/-- A word that is whole where it stands. -/
structure IsWord (word : α → Bool) (before found after : List α) : Prop where
  nonempty : found ≠ []
  inside : ∀ c ∈ found, word c = true
  starts : ∀ c ∈ before.getLast?, word c = false
  ends : ∀ c ∈ after.head?, word c = false

/-- The pattern spans the whole words it accepts. -/
def Pattern.WholeWords (pattern : Pattern α) (word : α → Bool) (accepts : List α → Bool) : Prop :=
  ∀ before found after, pattern.Spans before found after ↔
    IsWord word before found after ∧ accepts found = true

section

variable {word : α → Bool} {accepts : List α → Bool} {pattern : Pattern α}

theorem wordsFrom_append {begun found after : List α} (hinside : ∀ c ∈ found, word c = true)
    (hends : ∀ c ∈ after.head?, word c = false) (hbegun : begun ++ found ≠ []) :
    wordsFrom word begun (found ++ after) = (begun ++ found) :: wordsFrom word [] after := by
  induction found generalizing begun with
  | nil =>
      rw [List.append_nil] at hbegun
      rw [List.nil_append, List.append_nil]
      have hopen : begun.isEmpty = false := List.isEmpty_eq_false_iff.mpr hbegun
      cases after with
      | nil => simp [wordsFrom, hopen]
      | cons c after =>
          have hc : word c = false := hends c rfl
          simp [wordsFrom, hopen, hc]
  | cons c found ih =>
      have hc : word c = true := hinside c List.mem_cons_self
      rw [List.cons_append, wordsFrom, if_pos hc, ih, List.append_assoc, List.singleton_append]
      · exact fun c' hc' => hinside c' (List.mem_cons_of_mem c hc')
      · simp

/-- What is a whole word at the start of a text is all of its word characters there. -/
theorem IsWord.eq_takeWhile {before found after : List α}
    (hword : IsWord word before found after) : found = (found ++ after).takeWhile word := by
  have hnone : after.takeWhile word = [] := by
    cases after with
    | nil => rfl
    | cons c after =>
        have hc : word c = false := hword.ends c rfl
        exact List.takeWhile_cons_of_neg (by rw [hc]; decide)
  rw [List.takeWhile_append_of_pos hword.inside, hnone, List.append_nil]

theorem findFrom_skip (before skipped text : List α) :
    pattern.findFrom before skipped.length (skipped ++ text) =
      pattern.findFrom (before ++ skipped) 0 text := by
  induction skipped generalizing before with
  | nil => rw [List.append_nil]; rfl
  | cons c skipped ih =>
      change pattern.findFrom (before ++ [c]) skipped.length (skipped ++ text) = _
      rw [ih, List.append_assoc, List.singleton_append]

/-- Where nothing ends the search goes on with the next character. -/
theorem findFrom_none {before text : List α} {c : α}
    (hnone : pattern.ends before (c :: text) = []) :
    pattern.findFrom before 0 (c :: text) = pattern.findFrom (before ++ [c]) 0 text := by
  rw [Pattern.findFrom, hnone]
  rfl

theorem ends_eq_nil_iff {before text : List α} :
    pattern.ends before text = [] ↔
      ∀ found rest, text = found ++ rest → ¬ pattern.Spans before found rest := by
  rw [List.eq_nil_iff_forall_not_mem]
  constructor
  · intro hnone found rest htext hspans
    exact hnone (found, rest) (Pattern.mem_ends.mpr ⟨htext, hspans⟩)
  · rintro hnone ⟨found, rest⟩ hmem
    obtain ⟨htext, hspans⟩ := Pattern.mem_ends.mp hmem
    exact hnone found rest htext hspans

/-- Inside a word no whole word starts. -/
theorem findFrom_inside (hwords : pattern.WholeWords word accepts) {before inner text : List α}
    (hbefore : ∃ c ∈ before.getLast?, word c = true) (hinner : ∀ c ∈ inner, word c = true) :
    pattern.findFrom before 0 (inner ++ text) = pattern.findFrom (before ++ inner) 0 text := by
  induction inner generalizing before with
  | nil => rw [List.append_nil]; rfl
  | cons c inner ih =>
      rw [List.cons_append, findFrom_none, ih, List.append_assoc, List.singleton_append]
      · exact ⟨c, by simp, hinner c List.mem_cons_self⟩
      · exact fun c' hc' => hinner c' (List.mem_cons_of_mem c hc')
      · rw [ends_eq_nil_iff]
        intro found rest _ hspans
        obtain ⟨last, hlast, hword⟩ := hbefore
        rw [((hwords before found rest).mp hspans).1.starts last hlast] at hword
        cases hword

/-- A text starts with the word characters before its first other character. -/
theorem exists_word (word : α → Bool) (text : List α) :
    ∃ inner rest, text = inner ++ rest ∧ (∀ c ∈ inner, word c = true) ∧
      ∀ c ∈ rest.head?, word c = false := by
  refine ⟨text.takeWhile word, text.dropWhile word, List.takeWhile_append_dropWhile.symm,
    fun c hc => List.mem_takeWhile_imp hc, ?_⟩
  intro c hc
  have hhead := List.head?_dropWhile_not word text
  rw [hc] at hhead
  exact hhead

/-- Two whole words at one place are the same. -/
theorem IsWord.unique {before found found' after after' : List α}
    (hword : IsWord word before found after) (hword' : IsWord word before found' after')
    (htext : found ++ after = found' ++ after') : found = found' ∧ after = after' := by
  have hsame : found = found' := by
    rw [hword.eq_takeWhile, htext, ← hword'.eq_takeWhile]
  subst hsame
  exact ⟨rfl, List.append_cancel_left htext⟩

/-- A search for a pattern of whole words finds the words of the text that it accepts. -/
theorem findFrom_words (hwords : pattern.WholeWords word accepts) (before text : List α)
    (hplace : (∃ c ∈ before.getLast?, word c = true) → ∀ c ∈ text.head?, word c = false) :
    pattern.findFrom before 0 text = (wordsFrom word [] text).filter accepts := by
  induction hlength : text.length using Nat.strong_induction_on generalizing before text with
  | h length ih =>
      cases text with
      | nil => rfl
      | cons c text =>
          by_cases hc : word c = true
          · obtain ⟨inner, rest, rfl, hinner, hrest⟩ := exists_word word text
            have hword : IsWord word before (c :: inner) rest := by
              refine ⟨List.cons_ne_nil c inner, ?_, ?_, hrest⟩
              · intro c' hc'
                rcases List.mem_cons.mp hc' with rfl | hmem
                · exact hc
                · exact hinner c' hmem
              · intro last hlast
                refine Bool.eq_false_iff.mpr fun hinside => ?_
                rw [hplace ⟨last, hlast, hinside⟩ c rfl] at hc
                cases hc
            have hfirst : wordsFrom word [] (c :: (inner ++ rest)) =
                (c :: inner) :: wordsFrom word [] rest :=
              wordsFrom_append hword.inside hrest hword.nonempty
            have hlater : pattern.findFrom (before ++ [c] ++ inner) 0 rest =
                (wordsFrom word [] rest).filter accepts := by
              refine ih rest.length ?_ _ rest (fun _ => hrest) rfl
              simp only [List.length_cons, List.length_append] at hlength
              omega
            rw [hfirst, List.filter_cons, ← hlater]
            by_cases haccepts : accepts (c :: inner) = true
            · have hmem : (c :: inner, rest) ∈ pattern.ends before (c :: (inner ++ rest)) :=
                Pattern.mem_ends.mpr ⟨rfl, (hwords _ _ _).mpr ⟨hword, haccepts⟩⟩
              have hhead : (pattern.ends before (c :: (inner ++ rest))).head? =
                  some (c :: inner, rest) := by
                obtain ⟨⟨found, after⟩, hfound⟩ :=
                  Option.isSome_iff_exists.mp (List.isSome_head?.mpr (List.ne_nil_of_mem hmem))
                obtain ⟨htext, hspans⟩ := Pattern.mem_ends.mp (List.mem_of_head? hfound)
                obtain ⟨rfl, rfl⟩ := hword.unique ((hwords _ _ _).mp hspans).1 htext
                exact hfound
              rw [if_pos haccepts, Pattern.findFrom, hhead]
              exact congrArg _ (findFrom_skip (before ++ [c]) inner rest)
            · have hnone : pattern.ends before (c :: (inner ++ rest)) = [] := by
                rw [ends_eq_nil_iff]
                intro found after htext hspans
                obtain ⟨hother, hfound⟩ := (hwords _ _ _).mp hspans
                obtain ⟨rfl, rfl⟩ := hword.unique hother htext
                exact haccepts hfound
              have hlast : ∃ last ∈ (before ++ [c]).getLast?, word last = true :=
                ⟨c, by simp, hc⟩
              rw [if_neg haccepts, findFrom_none hnone, findFrom_inside hwords hlast hinner]
          · have hnone : pattern.ends before (c :: text) = [] := by
              rw [ends_eq_nil_iff]
              intro found after htext hspans
              have hword := ((hwords _ _ _).mp hspans).1
              cases found with
              | nil => exact hword.nonempty rfl
              | cons first found =>
                  obtain ⟨rfl, _⟩ := List.cons.inj htext
                  exact hc (hword.inside c List.mem_cons_self)
            rw [findFrom_none hnone, wordsFrom, if_neg hc]
            refine ih text.length ?_ (before ++ [c]) text ?_ rfl
            · rw [← hlength]
              exact Nat.lt_succ_self _
            · rintro ⟨last, hlast, hinside⟩
              rw [List.getLast?_concat, Option.mem_some_iff] at hlast
              subst hlast
              exact absurd hinside hc

theorem findAll_words (hwords : pattern.WholeWords word accepts) (text : List α) :
    pattern.findAll text = (wordsFrom word [] text).filter accepts := by
  apply findFrom_words hwords
  rintro ⟨last, hlast, _⟩
  cases hlast

end

end Regexes
