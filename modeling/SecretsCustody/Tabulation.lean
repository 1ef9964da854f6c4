/-
Tables that hold timelines.  Every row belongs to one timeline and says what stands in one of
its places, and every place has its row.  The queries of such a table, by name, by the highest
number and in the order of the numbers, are those of the timelines.
-/
import SecretsCustody.KeyedRows
import SecretsCustody.Timelines

namespace Timelines

open KeyedRows

variable {α ι ρ κ : Type} {ident : α → ι}

/-- How a row is read: the timeline it belongs to, the name and the number it bears, and what
it says of a place. -/
structure Reading (ident : α → ι) (ρ κ : Type) where
  address : ρ → κ
  name : ρ → ι
  number : ρ → Int
  Tells : κ → α × Nat → ρ → Prop
  name_eq : ∀ home place row, Tells home place row → name row = ident place.1
  number_eq : ∀ home place row, Tells home place row → number row = place.2

namespace Reading

variable (reading : Reading ident ρ κ)

def key (row : ρ) : κ × ι :=
  (reading.address row, reading.name row)

/-- The rows of one timeline, in the order of their numbers. -/
def ordered [DecidableEq κ] (rows : List ρ) (home : κ) : List ρ :=
  (rows.filter fun row => reading.address row = home).insertionSort
    fun left right => reading.number left ≤ reading.number right

end Reading

/-- The rows hold the timelines, and nothing else. -/
structure Tabulates (reading : Reading ident ρ κ) (rows : List ρ) (timelines : κ → Timeline ident) :
    Prop where
  keys : Unique reading.key rows
  placed : ∀ row ∈ rows, ∃ place ∈ (timelines (reading.address row)).placed,
    reading.Tells (reading.address row) place row
  stored : ∀ home, ∀ place ∈ (timelines home).placed,
    ∃ row ∈ rows, reading.address row = home ∧ reading.Tells home place row

section

variable {reading : Reading ident ρ κ} {rows : List ρ} {timelines : κ → Timeline ident}
variable {row : ρ} {home : κ} {place : α × Nat}

theorem tabulates_empty : Tabulates reading [] fun _ => .empty where
  keys := unique_nil
  placed := by simp
  stored := by simp

namespace Tabulates

theorem place_of_mem (htable : Tabulates reading rows timelines) (hrow : row ∈ rows)
    (haddress : reading.address row = home) :
    ∃ place ∈ (timelines home).placed, reading.Tells home place row := by
  subst haddress
  exact htable.placed row hrow

theorem tells_of_number (htable : Tabulates reading rows timelines) (hrow : row ∈ rows)
    (haddress : reading.address row = home) (hplace : place ∈ (timelines home).placed)
    (hnumber : reading.number row = place.2) : reading.Tells home place row := by
  obtain ⟨other, hother, htold⟩ := htable.place_of_mem hrow haddress
  have hsame : other.2 = place.2 := by
    have hother := (reading.number_eq _ _ _ htold).symm.trans hnumber
    exact_mod_cast hother
  rwa [Timeline.place_of_number hother hplace hsame] at htold

/-- No two rows of a timeline bear one number. -/
theorem row_of_number (htable : Tabulates reading rows timelines) {other : ρ} (hrow : row ∈ rows)
    (hother : other ∈ rows) (haddress : reading.address row = reading.address other)
    (hnumber : reading.number row = reading.number other) : row = other := by
  obtain ⟨place, hplace, htold⟩ := htable.place_of_mem hrow haddress
  have htold' := htable.tells_of_number hother rfl hplace
    (hnumber.symm.trans (reading.number_eq _ _ _ htold))
  apply htable.keys.eq_of_key hrow hother
  rw [Reading.key, Reading.key, haddress, reading.name_eq _ _ _ htold,
    reading.name_eq _ _ _ htold']

/-! ### Queries -/

/-- The query by name. -/
theorem find [DecidableEq κ] [DecidableEq ι] (htable : Tabulates reading rows timelines)
    (wanted : ι) :
    ((timelines home).named wanted = none ∧ KeyedRows.find reading.key rows (home, wanted) = none) ∨
      ∃ place row, (timelines home).named wanted = some place ∧
        KeyedRows.find reading.key rows (home, wanted) = some row ∧
        reading.Tells home place row := by
  cases hnamed : (timelines home).named wanted with
  | none =>
      refine .inl ⟨rfl, find_eq_none_iff.mpr fun hmem => ?_⟩
      obtain ⟨row, hrow, hkey⟩ := List.mem_map.mp hmem
      obtain ⟨haddress, hname⟩ := Prod.mk.inj hkey
      obtain ⟨place, hplace, htold⟩ := htable.place_of_mem hrow haddress
      apply Timeline.named_eq_none_iff.mp hnamed
      rw [← hname, reading.name_eq _ _ _ htold]
      exact List.mem_map_of_mem (Timeline.mem_items_of_placed hplace)
  | some place =>
      obtain ⟨hplace, hident⟩ := Timeline.named_eq_some_iff.mp hnamed
      obtain ⟨row, hrow, haddress, htold⟩ := htable.stored home place hplace
      refine .inr ⟨place, row, rfl, htable.keys.find_eq_some_iff.mpr ⟨hrow, ?_⟩, htold⟩
      rw [Reading.key, haddress, reading.name_eq _ _ _ htold, hident]

/-- The query by the highest number. -/
theorem latest [DecidableEq κ] (htable : Tabulates reading rows timelines) (home : κ) :
    ((timelines home).latest = none ∧
        KeyedRows.latest (fun row => reading.address row = home) reading.number rows = none) ∨
      ∃ place row, (timelines home).latest = some place ∧
        KeyedRows.latest (fun row => reading.address row = home) reading.number rows = some row ∧
        row ∈ rows ∧ reading.Tells home place row := by
  cases hlatest : (timelines home).latest with
  | none =>
      refine .inl ⟨rfl, latest_eq_none_iff.mpr fun row hrow => ?_⟩
      by_contra haddress
      rw [Bool.not_eq_false, decide_eq_true_eq] at haddress
      obtain ⟨place, hplace, _⟩ := htable.place_of_mem hrow haddress
      have hitem := Timeline.mem_items_of_placed hplace
      rw [Timeline.latest_eq_none_iff.mp hlatest] at hitem
      cases hitem
  | some place =>
      obtain ⟨row, hrow, haddress, htold⟩ :=
        htable.stored home place (Timeline.latest_mem hlatest)
      cases hfound : KeyedRows.latest (fun row => reading.address row = home) reading.number rows with
      | none =>
          have hother := latest_eq_none_iff.mp hfound row hrow
          rw [decide_eq_false_iff_not] at hother
          exact absurd haddress hother
      | some found =>
          obtain ⟨hmem, hhome⟩ := mem_of_latest hfound
          rw [decide_eq_true_eq] at hhome
          obtain ⟨other, hother, hfoundTold⟩ := htable.place_of_mem hmem hhome
          have hle := number_le_latest hfound hrow (decide_eq_true haddress)
          rw [reading.number_eq _ _ _ htold, reading.number_eq _ _ _ hfoundTold] at hle
          have hlast := Timeline.latest_place hlatest
          have hbound := Timeline.place_le hother
          have hsame : other.2 = place.2 := by omega
          rw [Timeline.place_of_number hother (Timeline.latest_mem hlatest) hsame] at hfoundTold
          exact .inr ⟨place, found, rfl, rfl, hmem, hfoundTold⟩

theorem mem_ordered [DecidableEq κ] :
    row ∈ reading.ordered rows home ↔ row ∈ rows ∧ reading.address row = home := by
  rw [Reading.ordered, (List.perm_insertionSort _ _).mem_iff]
  simp

/-- The query in the order of the numbers: the places, one row for each. -/
theorem ordered [DecidableEq κ] (htable : Tabulates reading rows timelines) (home : κ) :
    List.Forall₂ (reading.Tells home) (timelines home).placed (reading.ordered rows home) := by
  have hsorted : (reading.ordered rows home).Pairwise
      fun left right => reading.number left < reading.number right := by
    have hle : (reading.ordered rows home).Pairwise
        fun left right => reading.number left ≤ reading.number right :=
      List.pairwise_insertionSort _ _
    have hdistinct : (reading.ordered rows home).Pairwise (· ≠ ·) := by
      rw [← List.nodup_iff_pairwise_ne, Reading.ordered, (List.perm_insertionSort _ _).nodup_iff]
      exact (List.Nodup.of_map _ htable.keys).filter _
    apply (hle.and hdistinct).imp_of_mem
    rintro left right hleft hright ⟨hnumber, hne⟩
    obtain ⟨hleft, hhome⟩ := mem_ordered.mp hleft
    obtain ⟨hright, hhome'⟩ := mem_ordered.mp hright
    exact lt_of_le_of_ne hnumber fun hsame =>
      hne (htable.row_of_number hleft hright (hhome.trans hhome'.symm) hsame)
  have hnumbers : (timelines home).placed.map (fun place => (place.2 : Int)) =
      (reading.ordered rows home).map reading.number := by
    apply List.Pairwise.eq_of_mem_iff (r := (· < ·))
    · exact List.pairwise_map.mpr (Timeline.placed_increasing.imp fun hlt => by exact_mod_cast hlt)
    · exact List.pairwise_map.mpr hsorted
    · intro number
      constructor
      · intro hnumber
        obtain ⟨place, hplace, rfl⟩ := List.mem_map.mp hnumber
        obtain ⟨row, hrow, haddress, htold⟩ := htable.stored home place hplace
        exact List.mem_map.mpr ⟨row, mem_ordered.mpr ⟨hrow, haddress⟩,
          reading.number_eq _ _ _ htold⟩
      · intro hnumber
        obtain ⟨row, hrow, rfl⟩ := List.mem_map.mp hnumber
        obtain ⟨hrow, haddress⟩ := mem_ordered.mp hrow
        obtain ⟨place, hplace, htold⟩ := htable.place_of_mem hrow haddress
        exact List.mem_map.mpr ⟨place, hplace, (reading.number_eq _ _ _ htold).symm⟩
  have hpaired : List.Forall₂ (fun place row => (place.2 : Int) = reading.number row)
      (timelines home).placed (reading.ordered rows home) := by
    have hequal : List.Forall₂ Eq ((timelines home).placed.map fun place => (place.2 : Int))
        ((reading.ordered rows home).map reading.number) := by
      rw [List.forall₂_eq_eq_eq]
      exact hnumbers
    exact List.forall₂_map_right_iff.mp (List.forall₂_map_left_iff.mp hequal)
  rw [List.forall₂_iff_zip] at hpaired ⊢
  refine ⟨hpaired.1, fun hzip => ?_⟩
  obtain ⟨hplace, hrow⟩ := List.of_mem_zip hzip
  obtain ⟨hrow, haddress⟩ := mem_ordered.mp hrow
  exact htable.tells_of_number hrow haddress hplace (hpaired.2 hzip).symm

/-! ### Statements -/

/-- A row for the next place of a timeline, under a fresh name. -/
theorem append [DecidableEq κ] (htable : Tabulates reading rows timelines) {item : α}
    (hfresh : ¬ (timelines home).Has (ident item)) (haddress : reading.address row = home)
    (htold : reading.Tells home (item, (timelines home).items.length + 1) row) :
    Tabulates reading (rows ++ [row])
      (Function.update timelines home ((timelines home).push item hfresh)) := by
  have hkept : ∀ other, ∀ place ∈ (timelines other).placed,
      place ∈ (Function.update timelines home ((timelines home).push item hfresh) other).placed := by
    intro other place hplace
    by_cases hother : other = home
    · subst hother
      rw [Function.update_self, Timeline.placed_push]
      exact List.mem_append_left _ hplace
    · rwa [Function.update_of_ne hother]
  constructor
  · apply htable.keys.append
    intro hmem
    obtain ⟨other, hother, hkey⟩ := List.mem_map.mp hmem
    obtain ⟨hhome, hname⟩ := Prod.mk.inj hkey
    obtain ⟨place, hplace, hother⟩ := htable.place_of_mem hother (hhome.trans haddress)
    apply hfresh
    have hident := (reading.name_eq _ _ _ htold).symm.trans
      (hname.symm.trans (reading.name_eq _ _ _ hother))
    change ident item = ident place.1 at hident
    rw [hident]
    exact List.mem_map_of_mem (Timeline.mem_items_of_placed hplace)
  · intro other hother
    rcases List.mem_append.mp hother with hold | hnew
    · obtain ⟨place, hplace, htold⟩ := htable.placed other hold
      exact ⟨place, hkept _ place hplace, htold⟩
    · rw [List.mem_singleton.mp hnew, haddress, Function.update_self, Timeline.placed_push]
      exact ⟨_, List.mem_append_right _ (List.mem_singleton_self _), htold⟩
  · intro other place hplace
    have hstored : place ∈ (timelines other).placed →
        ∃ row' ∈ rows ++ [row], reading.address row' = other ∧ reading.Tells other place row' := by
      intro hold
      obtain ⟨row', hrow', hfound⟩ := htable.stored other place hold
      exact ⟨row', List.mem_append_left _ hrow', hfound⟩
    by_cases hother : other = home
    · subst hother
      rw [Function.update_self, Timeline.placed_push, List.mem_append, List.mem_singleton] at hplace
      rcases hplace with hold | rfl
      · exact hstored hold
      · exact ⟨row, List.mem_append_right _ (List.mem_singleton_self _), haddress, htold⟩
    · rw [Function.update_of_ne hother] at hplace
      exact hstored hplace

/-- The items of one timeline changed, in the rows that say them. -/
theorem alter [DecidableEq κ] (htable : Tabulates reading rows timelines) {change : ρ → ρ}
    {change' : α → α} (hident : ∀ item, ident (change' item) = ident item)
    (haddress : ∀ row ∈ rows, reading.address (change row) = reading.address row)
    (hother : ∀ row ∈ rows, reading.address row ≠ home → change row = row)
    (htold : ∀ row ∈ rows, ∀ place ∈ (timelines home).placed, reading.address row = home →
      reading.Tells home place row → reading.Tells home (change' place.1, place.2) (change row)) :
    Tabulates reading (rows.map change)
      (Function.update timelines home ((timelines home).alter change' hident)) := by
  constructor
  · apply htable.keys.map
    intro row hrow
    rw [Reading.key, Reading.key, haddress row hrow]
    by_cases hhome : reading.address row = home
    · obtain ⟨place, hplace, hfound⟩ := htable.place_of_mem hrow hhome
      rw [reading.name_eq _ _ _ hfound,
        reading.name_eq _ _ _ (htold row hrow place hplace hhome hfound), hident]
    · rw [hother row hrow hhome]
  · intro row' hrow'
    obtain ⟨row, hrow, rfl⟩ := List.mem_map.mp hrow'
    rw [haddress row hrow]
    by_cases hhome : reading.address row = home
    · obtain ⟨place, hplace, hfound⟩ := htable.place_of_mem hrow hhome
      rw [hhome, Function.update_self, Timeline.placed_alter]
      exact ⟨_, List.mem_map_of_mem hplace, htold row hrow place hplace hhome hfound⟩
    · rw [hother row hrow hhome, Function.update_of_ne hhome]
      exact htable.placed row hrow
  · intro other place hplace
    by_cases hhome : other = home
    · subst hhome
      rw [Function.update_self, Timeline.placed_alter] at hplace
      obtain ⟨old, hold, rfl⟩ := List.mem_map.mp hplace
      obtain ⟨row, hrow, hat, hfound⟩ := htable.stored other old hold
      exact ⟨change row, List.mem_map_of_mem hrow, (haddress row hrow).trans hat,
        htold row hrow old hold hat hfound⟩
    · rw [Function.update_of_ne hhome] at hplace
      obtain ⟨row, hrow, hat, hfound⟩ := htable.stored other place hplace
      refine ⟨row, List.mem_map.mpr ⟨row, hrow, hother row hrow (hat ▸ hhome)⟩, hat, hfound⟩

end Tabulates

end

end Timelines
