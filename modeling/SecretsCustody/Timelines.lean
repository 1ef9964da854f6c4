/-
Timelines: items in the order they came, each under an identifier of its own.  An item never
leaves its place, and may change in everything but its identifier.
-/
import Mathlib.Data.List.Nodup

namespace Timelines

variable {α ι : Type} {ident : α → ι}

/-- Items in the order they came, no two of them under one identifier. -/
structure Timeline (ident : α → ι) where
  items : List α
  distinct : (items.map ident).Nodup

namespace Timeline

def empty : Timeline ident :=
  ⟨[], List.nodup_nil⟩

/-- An item has the identifier. -/
def Has (timeline : Timeline ident) (wanted : ι) : Prop :=
  wanted ∈ timeline.items.map ident

instance [DecidableEq ι] (timeline : Timeline ident) (wanted : ι) :
    Decidable (timeline.Has wanted) :=
  inferInstanceAs (Decidable (wanted ∈ _))

/-- A new item behind the others. -/
def push (timeline : Timeline ident) (item : α) (hfresh : ¬ timeline.Has (ident item)) :
    Timeline ident :=
  ⟨timeline.items ++ [item], by
    rw [List.map_append, List.map_cons, List.map_nil, ← List.concat_eq_append]
    exact timeline.distinct.concat hfresh⟩

/-- Every item changed, under the identifier it had. -/
def alter (timeline : Timeline ident) (change : α → α)
    (hident : ∀ item, ident (change item) = ident item) : Timeline ident :=
  ⟨timeline.items.map change, by
    have hkept : ident ∘ change = ident := funext hident
    rw [List.map_map, hkept]
    exact timeline.distinct⟩

/-- The items with their places, from 1 on. -/
def placed (timeline : Timeline ident) : List (α × Nat) :=
  timeline.items.zipIdx 1

def latest (timeline : Timeline ident) : Option (α × Nat) :=
  timeline.placed.getLast?

/-- The item with an identifier. -/
def named [DecidableEq ι] (timeline : Timeline ident) (wanted : ι) : Option (α × Nat) :=
  timeline.placed.find? fun place => ident place.1 = wanted

variable {timeline : Timeline ident}

theorem mem_items_of_placed {place : α × Nat} (hplace : place ∈ timeline.placed) :
    place.1 ∈ timeline.items :=
  List.fst_mem_of_mem_zipIdx hplace

@[simp] theorem placed_empty : (empty : Timeline ident).placed = [] :=
  rfl

@[simp] theorem map_fst_placed : timeline.placed.map Prod.fst = timeline.items :=
  List.zipIdx_map_fst 1 timeline.items

theorem placed_eq_nil_iff : timeline.placed = [] ↔ timeline.items = [] := by
  rw [placed, List.zipIdx_eq_nil_iff]

theorem placed_increasing : timeline.placed.Pairwise fun earlier later => earlier.2 < later.2 := by
  rw [← List.pairwise_map (f := Prod.snd) (R := (· < ·)), placed, List.zipIdx_map_snd]
  exact List.pairwise_lt_range'

theorem place_le {place : α × Nat} (hplace : place ∈ timeline.placed) :
    1 ≤ place.2 ∧ place.2 ≤ timeline.items.length := by
  have hlower := List.le_snd_of_mem_zipIdx hplace
  have hupper := List.snd_lt_of_mem_zipIdx hplace
  omega

theorem exists_place {number : Nat} (hpositive : 1 ≤ number)
    (hle : number ≤ timeline.items.length) : ∃ place ∈ timeline.placed, place.2 = number := by
  have hmem : number ∈ timeline.placed.map Prod.snd := by
    rw [placed, List.zipIdx_map_snd, List.mem_range'_1]
    omega
  exact List.mem_map.mp hmem

theorem place_of_number {place other : α × Nat} (hplace : place ∈ timeline.placed)
    (hother : other ∈ timeline.placed) (hnumber : place.2 = other.2) : place = other := by
  have hdistinct : (timeline.placed.map Prod.snd).Nodup := by
    rw [placed, List.zipIdx_map_snd]
    exact List.nodup_range'
  exact List.inj_on_of_nodup_map hdistinct hplace hother hnumber

theorem place_of_ident {place other : α × Nat} (hplace : place ∈ timeline.placed)
    (hother : other ∈ timeline.placed) (hident : ident place.1 = ident other.1) :
    place = other := by
  have hdistinct : (timeline.placed.map fun found => ident found.1).Nodup := by
    have hmapped := timeline.distinct
    rwa [← map_fst_placed, List.map_map] at hmapped
  exact List.inj_on_of_nodup_map hdistinct hplace hother hident

theorem placed_push {item : α} (hfresh : ¬ timeline.Has (ident item)) :
    (timeline.push item hfresh).placed =
      timeline.placed ++ [(item, timeline.items.length + 1)] := by
  rw [placed, push, List.zipIdx_append, List.zipIdx_singleton, Nat.add_comm 1]
  rfl

theorem placed_alter {change : α → α} (hident : ∀ item, ident (change item) = ident item) :
    (timeline.alter change hident).placed =
      timeline.placed.map fun place => (change place.1, place.2) := by
  rw [placed, alter, List.zipIdx_map]
  rfl

/-- The latest item stands in the last place. -/
theorem latest_place {place : α × Nat} (hlatest : timeline.latest = some place) :
    place.2 = timeline.items.length := by
  have hplaced : timeline.placed.getLast? = some place := hlatest
  rw [List.getLast?_eq_getElem?, placed, List.getElem?_zipIdx] at hplaced
  obtain ⟨item, hitem, hplace⟩ := Option.map_eq_some_iff.mp hplaced
  rw [← hplace, List.length_zipIdx]
  have hlength := (List.getElem?_eq_some_iff.mp hitem).1
  rw [List.length_zipIdx] at hlength
  change 1 + (timeline.items.length - 1) = _
  omega

theorem latest_mem {place : α × Nat} (hlatest : timeline.latest = some place) :
    place ∈ timeline.placed :=
  List.mem_of_getLast? hlatest

theorem latest_eq_none_iff : timeline.latest = none ↔ timeline.items = [] := by
  rw [latest, List.getLast?_eq_none_iff, placed_eq_nil_iff]

section

variable [DecidableEq ι] {wanted : ι} {place : α × Nat}

/-- An item is found by its identifier exactly where it stands. -/
theorem named_eq_some_iff :
    timeline.named wanted = some place ↔ place ∈ timeline.placed ∧ ident place.1 = wanted := by
  constructor
  · intro hnamed
    have hident := List.find?_some hnamed
    exact ⟨List.mem_of_find?_eq_some hnamed, by simpa using hident⟩
  · rintro ⟨hplace, rfl⟩
    cases hfound : timeline.named (ident place.1) with
    | none =>
        have hother := List.find?_eq_none.mp hfound place hplace
        simp at hother
    | some found =>
        have hident := List.find?_some hfound
        rw [decide_eq_true_eq] at hident
        rw [place_of_ident (List.mem_of_find?_eq_some hfound) hplace hident]

theorem named_eq_none_iff : timeline.named wanted = none ↔ ¬ timeline.Has wanted := by
  rw [Has, ← map_fst_placed, List.map_map, named, List.find?_eq_none]
  simp

/-- An item that has come keeps its place under its identifier. -/
theorem named_push_of_has {item : α} (hfresh : ¬ timeline.Has (ident item))
    (hnamed : timeline.named wanted = some place) :
    (timeline.push item hfresh).named wanted = some place := by
  rw [named_eq_some_iff, placed_push] at *
  exact ⟨List.mem_append_left _ hnamed.1, hnamed.2⟩

theorem named_push_self {item : α} (hfresh : ¬ timeline.Has (ident item)) :
    (timeline.push item hfresh).named (ident item) =
      some (item, timeline.items.length + 1) := by
  rw [named_eq_some_iff, placed_push]
  exact ⟨List.mem_append_right _ (List.mem_singleton_self _), rfl⟩

theorem named_alter {change : α → α} (hident : ∀ item, ident (change item) = ident item) :
    (timeline.alter change hident).named wanted =
      (timeline.named wanted).map fun place => (change place.1, place.2) := by
  rw [named, placed_alter, List.find?_map]
  congr 2
  funext place
  simp [hident]

end

end Timeline

end Timelines
