/-
Tables as lists of rows with a unique key.  A row is found by its key; adding a
row with a fresh key and changing rows without their keys keep the keys unique.
-/
import Mathlib.Data.List.Forall2
import Mathlib.Data.List.MinMax
import Mathlib.Data.List.Nodup
import Mathlib.Data.List.Perm.Basic
import Mathlib.Data.List.Sort

namespace KeyedRows

variable {ρ κ : Type} {key : ρ → κ} {rows : List ρ}

/-- No two rows share a key. -/
def Unique (key : ρ → κ) (rows : List ρ) : Prop :=
  (rows.map key).Nodup

theorem unique_nil : Unique key [] :=
  List.nodup_nil

theorem Unique.eq_of_key (hunique : Unique key rows) {left right : ρ} (hleft : left ∈ rows)
    (hright : right ∈ rows) (hkey : key left = key right) : left = right :=
  List.inj_on_of_nodup_map hunique hleft hright hkey

theorem Unique.append (hunique : Unique key rows) {row : ρ} (hfree : key row ∉ rows.map key) :
    Unique key (rows ++ [row]) := by
  unfold Unique
  rw [List.map_append, List.map_cons, List.map_nil, ← List.concat_eq_append]
  exact List.Nodup.concat hfree hunique

/-- Nothing to add, or one row with a fresh key. -/
def Fresh (key : ρ → κ) (rows added : List ρ) : Prop :=
  added = [] ∨ ∃ row, added = [row] ∧ key row ∉ rows.map key

theorem fresh_nil : Fresh key rows [] :=
  .inl rfl

theorem fresh_singleton {row : ρ} (hfree : key row ∉ rows.map key) : Fresh key rows [row] :=
  .inr ⟨row, rfl, hfree⟩

theorem Unique.append_fresh (hunique : Unique key rows) {added : List ρ}
    (hfresh : Fresh key rows added) : Unique key (rows ++ added) := by
  rcases hfresh with rfl | ⟨row, rfl, hfree⟩
  · rwa [List.append_nil]
  · exact hunique.append hfree

/-- Rows changed without their keys, and then perhaps a new one. -/
theorem Unique.map_append_fresh (hunique : Unique key rows) {change : ρ → ρ} {added : List ρ}
    (hkey : ∀ row ∈ rows, key (change row) = key row) (hfresh : Fresh key rows added) :
    Unique key (rows.map change ++ added) := by
  have hkeys : (rows.map change).map key = rows.map key := by
    rw [List.map_map]
    exact List.map_congr_left hkey
  have hmapped : Unique key (rows.map change) := by
    rwa [Unique, hkeys]
  apply hmapped.append_fresh
  rwa [Fresh, hkeys]

theorem Unique.map (hunique : Unique key rows) {change : ρ → ρ}
    (hkey : ∀ row ∈ rows, key (change row) = key row) : Unique key (rows.map change) := by
  have hmapped := hunique.map_append_fresh hkey fresh_nil
  rwa [List.append_nil] at hmapped

variable [DecidableEq κ]

/-- The row with the wanted key. -/
def find (key : ρ → κ) (rows : List ρ) (wanted : κ) : Option ρ :=
  rows.find? fun row => key row = wanted

theorem mem_of_find {wanted : κ} {row : ρ} (hfind : find key rows wanted = some row) :
    row ∈ rows :=
  List.mem_of_find?_eq_some hfind

theorem key_of_find {wanted : κ} {row : ρ} (hfind : find key rows wanted = some row) :
    key row = wanted := by
  have hkey := List.find?_some hfind
  simpa using hkey

theorem find_eq_none_iff {wanted : κ} :
    find key rows wanted = none ↔ wanted ∉ rows.map key := by
  simp [find, List.find?_eq_none]

/-- With unique keys a row is found exactly when it is in the table. -/
theorem Unique.find_eq_some_iff (hunique : Unique key rows) {wanted : κ} {row : ρ} :
    find key rows wanted = some row ↔ row ∈ rows ∧ key row = wanted := by
  constructor
  · intro hfind
    exact ⟨mem_of_find hfind, key_of_find hfind⟩
  · rintro ⟨hmem, hkey⟩
    cases hfound : find key rows wanted with
    | none =>
        rw [find_eq_none_iff] at hfound
        exact absurd (hkey ▸ List.mem_map_of_mem hmem) hfound
    | some found =>
        have heq := hunique.eq_of_key (mem_of_find hfound) hmem
          ((key_of_find hfound).trans hkey.symm)
        rw [heq]

theorem Unique.find_of_mem (hunique : Unique key rows) {row : ρ} (hmem : row ∈ rows) :
    find key rows (key row) = some row :=
  hunique.find_eq_some_iff.mpr ⟨hmem, rfl⟩

theorem find_append_singleton (row : ρ) (wanted : κ) :
    find key (rows ++ [row]) wanted =
      (find key rows wanted).or (if key row = wanted then some row else none) := by
  rw [find, find, List.find?_append, List.find?_cons]
  by_cases hkey : key row = wanted <;> simp [hkey]

/-- Rows added at the end do not hide a row. -/
theorem find_of_prefix {rows' : List ρ} (hinitial : rows <+: rows') {wanted : κ} {row : ρ}
    (hfind : find key rows wanted = some row) : find key rows' wanted = some row := by
  obtain ⟨added, rfl⟩ := hinitial
  unfold find at hfind ⊢
  rw [List.find?_append, hfind]
  rfl

/-- The last of the rows with the wanted key. -/
def findLast (key : ρ → κ) (rows : List ρ) (wanted : κ) : Option ρ :=
  find key rows.reverse wanted

theorem findLast_append (earlier later : List ρ) (wanted : κ) :
    findLast key (earlier ++ later) wanted =
      (findLast key later wanted).or (findLast key earlier wanted) := by
  rw [findLast, find, List.reverse_append, List.find?_append]
  rfl

theorem findLast_eq_some {wanted : κ} {row : ρ} (hfind : findLast key rows wanted = some row) :
    row ∈ rows ∧ key row = wanted :=
  ⟨List.mem_reverse.mp (mem_of_find hfind), key_of_find hfind⟩

theorem findLast_eq_none_iff {wanted : κ} :
    findLast key rows wanted = none ↔ wanted ∉ rows.map key := by
  rw [findLast, find_eq_none_iff, List.map_reverse, List.mem_reverse]

/-- The last of two lists under a key: what the second says, if it is certain of
it, or else what the first says. -/
theorem findLast_append_eq {earlier later : List ρ} {wanted : κ} {row : ρ}
    (hlater : ∀ found ∈ later, key found = wanted → found = row)
    (hearlier : findLast key earlier wanted = some row ∨ ∃ found ∈ later, key found = wanted) :
    findLast key (earlier ++ later) wanted = some row := by
  rw [findLast_append]
  cases hfound : findLast key later wanted with
  | some found =>
      obtain ⟨hmem, hkey⟩ := findLast_eq_some hfound
      rw [hlater found hmem hkey]
      rfl
  | none =>
      rcases hearlier with hearlier | ⟨found, hmem, hkey⟩
      · exact hearlier
      · exact absurd (hkey ▸ List.mem_map_of_mem hmem) (findLast_eq_none_iff.mp hfound)

/-- The row of the highest number, of those the filter keeps. -/
def latest (keep : ρ → Bool) (number : ρ → Int) (rows : List ρ) : Option ρ :=
  letI : Preorder Int := Int.instLinearOrder.toPreorder
  (rows.filter keep).argmax number

theorem latest_eq_none_iff {keep : ρ → Bool} {number : ρ → Int} :
    latest keep number rows = none ↔ ∀ row ∈ rows, keep row = false := by
  simp [latest, List.filter_eq_nil_iff]

theorem mem_of_latest {keep : ρ → Bool} {number : ρ → Int} {row : ρ}
    (hlatest : latest keep number rows = some row) : row ∈ rows ∧ keep row = true := by
  have hmem := List.argmax_mem (Option.mem_def.mpr hlatest)
  simpa using hmem

theorem number_le_latest {keep : ρ → Bool} {number : ρ → Int} {row other : ρ}
    (hlatest : latest keep number rows = some row) (hother : other ∈ rows)
    (hkeep : keep other = true) : number other ≤ number row :=
  List.le_of_mem_argmax (List.mem_filter.mpr ⟨hother, hkeep⟩) (Option.mem_def.mpr hlatest)

/-! ### Two tables, row by row -/

section Related

variable {related : ρ → ρ → Prop} {rows' : List ρ}

/-- Related rows are rows of their tables. -/
theorem related_mem (hrows : List.Forall₂ related rows rows') :
    List.Forall₂ (fun row row' => related row row' ∧ row ∈ rows ∧ row' ∈ rows') rows rows' := by
  induction hrows with
  | nil => exact .nil
  | cons hrow _ ih =>
      refine .cons ⟨hrow, List.mem_cons_self, List.mem_cons_self⟩ (ih.imp ?_)
      rintro other other' ⟨hother, hmem, hmem'⟩
      exact ⟨hother, List.mem_cons_of_mem _ hmem, List.mem_cons_of_mem _ hmem'⟩

/-- A row is related to one of the other table. -/
theorem exists_related {τ : Type} {related : ρ → τ → Prop} {others : List τ}
    (hrows : List.Forall₂ related rows others) {row : ρ} (hrow : row ∈ rows) :
    ∃ other ∈ others, related row other := by
  induction hrows with
  | nil => cases hrow
  | @cons first first' rest rest' hfirst _ ih =>
      rcases List.mem_cons.mp hrow with rfl | hrest
      · exact ⟨first', List.mem_cons_self, hfirst⟩
      · obtain ⟨other, hother, hrelated⟩ := ih hrest
        exact ⟨other, List.mem_cons_of_mem _ hother, hrelated⟩

/-- Related rows have the keys of their tables in common. -/
theorem map_eq_of_related {κ : Type} {key : ρ → κ} (hrows : List.Forall₂ related rows rows')
    (hkey : ∀ row row', related row row' → key row' = key row) :
    rows'.map key = rows.map key := by
  induction hrows with
  | nil => rfl
  | cons hrow _ ih => rw [List.map_cons, List.map_cons, ih, hkey _ _ hrow]

theorem find_related (hrows : List.Forall₂ related rows rows')
    (hkey : ∀ row row', related row row' → key row' = key row) (wanted : κ) :
    Option.Rel related (find key rows wanted) (find key rows' wanted) := by
  induction hrows with
  | nil => exact .none
  | @cons row row' rows rows' hrow _ ih =>
      unfold find at ih ⊢
      rw [List.find?_cons, List.find?_cons, hkey row row' hrow]
      by_cases hwanted : key row = wanted
      · simp only [hwanted, decide_true]
        exact .some hrow
      · simp only [hwanted, decide_false]
        exact ih

theorem filter_related {keep : ρ → Bool} (hrows : List.Forall₂ related rows rows')
    (hkeep : ∀ row row', related row row' → keep row' = keep row) :
    List.Forall₂ related (rows.filter keep) (rows'.filter keep) := by
  induction hrows with
  | nil => exact .nil
  | @cons row row' rows rows' hrow _ ih =>
      rw [List.filter_cons, List.filter_cons, hkeep row row' hrow]
      split
      · exact .cons hrow ih
      · exact ih

theorem argmax_related {ν : Type} [LinearOrder ν] {number : ρ → ν}
    (hrows : List.Forall₂ related rows rows')
    (hnumber : ∀ row row', related row row' → number row' = number row) :
    Option.Rel related (rows.argmax number) (rows'.argmax number) := by
  induction hrows with
  | nil => exact .none
  | @cons row row' rows rows' hrow _ ih =>
      rw [List.argmax_cons, List.argmax_cons]
      generalize rows.argmax number = highest, rows'.argmax number = highest' at ih ⊢
      cases ih with
      | none => exact .some hrow
      | @some best best' hbest =>
          dsimp only
          rw [hnumber row row' hrow, hnumber best best' hbest]
          split
          · exact .some hbest
          · exact .some hrow

theorem latest_related {keep : ρ → Bool} {number : ρ → Int}
    (hrows : List.Forall₂ related rows rows')
    (hkeep : ∀ row row', related row row' → keep row' = keep row)
    (hnumber : ∀ row row', related row row' → number row' = number row) :
    Option.Rel related (latest keep number rows) (latest keep number rows') :=
  argmax_related (filter_related hrows hkeep) hnumber

theorem orderedInsert_related {number : ρ → Int}
    (hnumber : ∀ row row', related row row' → number row' = number row) {row row' : ρ}
    (hrow : related row row') (hrows : List.Forall₂ related rows rows') :
    List.Forall₂ related
      (rows.orderedInsert (fun left right => number left ≤ number right) row)
      (rows'.orderedInsert (fun left right => number left ≤ number right) row') := by
  induction hrows with
  | nil => exact .cons hrow .nil
  | @cons other other' rows rows' hother hrows ih =>
      rw [List.orderedInsert_cons, List.orderedInsert_cons, hnumber row row' hrow,
        hnumber other other' hother]
      split
      · exact .cons hrow (.cons hother hrows)
      · exact .cons hother ih

theorem insertionSort_related {number : ρ → Int}
    (hnumber : ∀ row row', related row row' → number row' = number row)
    (hrows : List.Forall₂ related rows rows') :
    List.Forall₂ related (rows.insertionSort fun left right => number left ≤ number right)
      (rows'.insertionSort fun left right => number left ≤ number right) := by
  induction hrows with
  | nil => exact .nil
  | cons hrow _ ih => exact orderedInsert_related hnumber hrow ih

end Related

/-! ### Two tables that agree on some of their rows -/

/-- The rows a predicate keeps are in both tables or in neither. -/
def AgreeOn (keep : ρ → Prop) (rows rows' : List ρ) : Prop :=
  ∀ row, keep row → (row ∈ rows ↔ row ∈ rows')

section Agreeing

variable {keep : ρ → Prop} {rows' : List ρ}

theorem AgreeOn.refl (keep : ρ → Prop) (rows : List ρ) : AgreeOn keep rows rows :=
  fun _ _ => Iff.rfl

theorem AgreeOn.trans {rows'' : List ρ} (hfirst : AgreeOn keep rows rows')
    (hsecond : AgreeOn keep rows' rows'') : AgreeOn keep rows rows'' :=
  fun row hkeep => (hfirst row hkeep).trans (hsecond row hkeep)

theorem AgreeOn.symm (hagree : AgreeOn keep rows rows') : AgreeOn keep rows' rows :=
  fun row hkeep => (hagree row hkeep).symm

theorem AgreeOn.append (hagree : AgreeOn keep rows rows') (added : List ρ) :
    AgreeOn keep (rows ++ added) (rows' ++ added) := by
  intro row hkeep
  rw [List.mem_append, List.mem_append, hagree row hkeep]

/-- Rows the predicate does not keep make no difference. -/
theorem agreeOn_append_other {added : List ρ} (hother : ∀ row ∈ added, ¬ keep row) :
    AgreeOn keep rows (rows ++ added) := by
  intro row hkeep
  rw [List.mem_append, or_iff_left]
  exact fun hrow => hother row hrow hkeep

theorem AgreeOn.map (hagree : AgreeOn keep rows rows') {change : ρ → ρ}
    (hchange : ∀ row, keep (change row) → keep row) :
    AgreeOn keep (rows.map change) (rows'.map change) := by
  intro row hkeep
  rw [List.mem_map, List.mem_map]
  constructor
  · rintro ⟨other, hother, rfl⟩
    exact ⟨other, (hagree other (hchange other hkeep)).mp hother, rfl⟩
  · rintro ⟨other, hother, rfl⟩
    exact ⟨other, (hagree other (hchange other hkeep)).mpr hother, rfl⟩

/-- Changing rows the predicate does not keep makes no difference. -/
theorem agreeOn_map_other {change : ρ → ρ} (hchange : ∀ row, keep (change row) → keep row)
    (hsame : ∀ row, keep row → change row = row) : AgreeOn keep rows (rows.map change) := by
  intro row hkeep
  rw [List.mem_map]
  constructor
  · exact fun hrow => ⟨row, hrow, hsame row hkeep⟩
  · rintro ⟨other, hother, rfl⟩
    rwa [hsame other (hchange other hkeep)]

omit [DecidableEq κ] in
theorem AgreeOn.mem_keys_iff (hagree : AgreeOn keep rows rows') {wanted : κ}
    (hkeep : ∀ row, key row = wanted → keep row) :
    wanted ∈ rows.map key ↔ wanted ∈ rows'.map key := by
  rw [List.mem_map, List.mem_map]
  constructor
  · rintro ⟨row, hrow, hkey⟩
    exact ⟨row, (hagree row (hkeep row hkey)).mp hrow, hkey⟩
  · rintro ⟨row, hrow, hkey⟩
    exact ⟨row, (hagree row (hkeep row hkey)).mpr hrow, hkey⟩

theorem AgreeOn.find_eq (hagree : AgreeOn keep rows rows') (hunique : Unique key rows)
    (hunique' : Unique key rows') {wanted : κ} (hkeep : ∀ row, key row = wanted → keep row) :
    find key rows' wanted = find key rows wanted := by
  apply Option.ext
  intro row
  rw [hunique.find_eq_some_iff, hunique'.find_eq_some_iff]
  constructor
  · rintro ⟨hrow, hkey⟩
    exact ⟨(hagree row (hkeep row hkey)).mpr hrow, hkey⟩
  · rintro ⟨hrow, hkey⟩
    exact ⟨(hagree row (hkeep row hkey)).mp hrow, hkey⟩

/-- No two rows of the table that a filter keeps share a number. -/
def NumbersTell (number : ρ → Int) (filter : ρ → Bool) (rows : List ρ) : Prop :=
  ∀ left ∈ rows, ∀ right ∈ rows, filter left = true → filter right = true →
    number left = number right → left = right

theorem AgreeOn.latest_eq (hagree : AgreeOn keep rows rows') {filter : ρ → Bool}
    {number : ρ → Int} (hkeep : ∀ row, filter row = true → keep row)
    (htell : NumbersTell number filter rows) :
    latest filter number rows' = latest filter number rows := by
  cases hlatest : latest filter number rows with
  | none =>
      rw [latest_eq_none_iff] at hlatest ⊢
      intro row hrow
      by_contra hfilter
      rw [Bool.not_eq_false] at hfilter
      have hmem := (hagree row (hkeep row hfilter)).mpr hrow
      exact absurd (hlatest row hmem) (by simp [hfilter])
  | some row =>
      obtain ⟨hrow, hfilter⟩ := mem_of_latest hlatest
      have hrow' := (hagree row (hkeep row hfilter)).mp hrow
      cases hlatest' : latest filter number rows' with
      | none =>
          have hnone := latest_eq_none_iff.mp hlatest' row hrow'
          exact absurd hfilter (by simp [hnone])
      | some row' =>
          obtain ⟨hother', hfilter'⟩ := mem_of_latest hlatest'
          have hother := (hagree row' (hkeep row' hfilter')).mpr hother'
          have hle := number_le_latest hlatest hother hfilter'
          have hge := number_le_latest hlatest' hrow' hfilter
          rw [htell row' hother row hrow hfilter' hfilter (by omega)]

theorem AgreeOn.sorted_eq (hagree : AgreeOn keep rows rows') {filter : ρ → Bool}
    {number : ρ → Int} (hkeep : ∀ row, filter row = true → keep row)
    (htell : NumbersTell number filter rows) (hnodup : rows.Nodup) (hnodup' : rows'.Nodup) :
    (rows'.filter filter).insertionSort (fun left right => number left ≤ number right) =
      (rows.filter filter).insertionSort fun left right => number left ≤ number right := by
  have hperm : (rows'.filter filter).Perm (rows.filter filter) := by
    rw [List.perm_ext_iff_of_nodup (hnodup'.filter _) (hnodup.filter _)]
    intro row
    rw [List.mem_filter, List.mem_filter]
    constructor
    · rintro ⟨hrow, hfilter⟩
      exact ⟨(hagree row (hkeep row hfilter)).mpr hrow, hfilter⟩
    · rintro ⟨hrow, hfilter⟩
      exact ⟨(hagree row (hkeep row hfilter)).mp hrow, hfilter⟩
  have hsorts : ∀ list : List ρ, (list.insertionSort fun left right =>
      number left ≤ number right).Pairwise fun left right => number left ≤ number right := by
    intro list
    have htotal : Std.Total fun left right : ρ => number left ≤ number right :=
      ⟨fun left right => Int.le_total (number left) (number right)⟩
    have htrans : IsTrans ρ fun left right => number left ≤ number right :=
      ⟨fun _ _ _ hleft hright => Int.le_trans hleft hright⟩
    exact List.pairwise_insertionSort _ list
  refine List.Perm.eq_of_pairwise ?_ (hsorts _) (hsorts _)
    ((List.perm_insertionSort _ _).trans (hperm.trans (List.perm_insertionSort _ _).symm))
  intro left right hleft hright hle hge
  rw [(List.perm_insertionSort _ _).mem_iff, hperm.mem_iff, List.mem_filter] at hleft
  rw [(List.perm_insertionSort _ _).mem_iff, List.mem_filter] at hright
  exact htell left hleft.1 right hright.1 hleft.2 hright.2 (Int.le_antisymm hle hge)

end Agreeing

end KeyedRows
