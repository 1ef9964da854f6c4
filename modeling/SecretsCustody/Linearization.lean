/-
Linearizable tasks.  A task has one operation to do on an abstract state, and does it all at once,
in one of its actions.  Then the tasks of every interleaving did their operations one after the
other, in the order of those actions.
-/
import Mathlib.Data.List.Nodup
import SecretsCustody.Interleaving

namespace Interleaving

variable {σ α β γ ι ν ρ : Type}

/-! ### One script -/

namespace Script

/-- Whatever state an action finds, and whatever view `rel` relates to it: the action leaves the
view as it is, or it does the operation on the view, if none before it did.  How the script ends,
`ends` says of what the operation answered, of the value, and of the steps in `own` and after. -/
def Linear (rel : σ → ν → Prop) (op : ν → ρ → ν → Prop)
    (ends : Option ρ → α → List (σ × σ) → Prop) :
    Script σ α → Option ρ → List (σ × σ) → Prop
  | .done value, answer, own => ends answer value own
  | .act action next, answer, own => ∀ state view, rel state view →
      rel (action state).2 view ∧
          Linear rel op ends (next (action state).1) answer
            (own ++ [(state, (action state).2)]) ∨
        answer = none ∧ ∃ result view', op view result view' ∧ rel (action state).2 view' ∧
          Linear rel op ends (next (action state).1) (some result)
            (own ++ [(state, (action state).2)])

section

variable {rel : σ → ν → Prop} {op : ν → ρ → ν → Prop} {answer : Option ρ} {own : List (σ × σ)}

theorem Linear.mono {ends ends' : Option ρ → α → List (σ × σ) → Prop} {script : Script σ α}
    (hscript : script.Linear rel op ends answer own)
    (hends : ∀ answer value steps, ends answer value steps → ends' answer value steps) :
    script.Linear rel op ends' answer own := by
  induction script generalizing answer own with
  | done value => exact hends _ _ _ hscript
  | act action rest ih =>
      intro state view hrel
      rcases hscript state view hrel with ⟨hsame, hrest⟩ | ⟨hnone, result, view', hop, hnext, hrest⟩
      · exact .inl ⟨hsame, ih _ hrest⟩
      · exact .inr ⟨hnone, result, view', hop, hnext, ih _ hrest⟩

theorem Linear.bind {ends : Option ρ → β → List (σ × σ) → Prop} {script : Script σ α}
    {next : α → Script σ β}
    (hscript : script.Linear rel op
      (fun answer value steps => (next value).Linear rel op ends answer steps) answer own) :
    (script >>= next).Linear rel op ends answer own := by
  induction script generalizing answer own with
  | done value => exact hscript
  | act action rest ih =>
      intro state view hrel
      rcases hscript state view hrel with ⟨hsame, hrest⟩ | ⟨hnone, result, view', hop, hnext, hrest⟩
      · exact .inl ⟨hsame, ih _ hrest⟩
      · exact .inr ⟨hnone, result, view', hop, hnext, ih _ hrest⟩

end

end Script

/-! ### Operations in their order -/

/-- An operation that was done: by which task, what that was asked, and what came of it. -/
structure Done (ι ρ : Type) where
  task : Nat
  input : ι
  result : ρ

/-- The operations are done one after the other. -/
inductive Sequence (op : ι → ν → ρ → ν → Prop) (start : ν) : List (Done ι ρ) → ν → Prop
  | nil : Sequence op start [] start
  | snoc {order : List (Done ι ρ)} {view view' : ν} {task : Nat} {input : ι} {result : ρ}
      (hsequence : Sequence op start order view) (hop : op input view result view') :
      Sequence op start (order ++ [⟨task, input, result⟩]) view'

/-- What came of the operation of a task, if it was done. -/
def resultOf (order : List (Done ι ρ)) (index : Nat) : Option ρ :=
  (order.find? fun done => done.task = index).map Done.result

section

variable {order : List (Done ι ρ)} {index other : Nat} {input : ι} {result : ρ}

theorem resultOf_eq_none :
    resultOf order index = none ↔ index ∉ order.map Done.task := by
  simp [resultOf, List.find?_eq_none]

theorem resultOf_snoc_self (hnone : resultOf order index = none) :
    resultOf (order ++ [⟨index, input, result⟩]) index = some result := by
  rw [resultOf, Option.map_eq_none_iff] at hnone
  simp [resultOf, List.find?_append, hnone]

theorem resultOf_snoc_ne (hne : index ≠ other) :
    resultOf (order ++ [⟨index, input, result⟩]) other = resultOf order other := by
  simp [resultOf, List.find?_append, hne]

end

/-! ### Systems -/

namespace System

/-- The tasks of a system did their operations in the order, each once at most and in one of its
own steps, which takes the abstract state from the start to one related to the state. -/
structure Linearized (rel : σ → ν → Prop) (op : ι → ν → ρ → ν → Prop)
    (ends : ι → Option ρ → α → List (σ × σ) → Prop) (start : ν) (system : System σ ι α)
    (order : List (Done ι ρ)) (view : ν) : Prop where
  sequence : Sequence op start order view
  related : rel system.state view
  once : (order.map Done.task).Nodup
  inOrder : (order.map Done.task).Sublist (system.steps.map Step.task)
  inputs : ∀ done ∈ order, ∃ task, system.tasks[done.task]? = some task ∧ task.input = done.input
  scripts : ∀ (index : Nat) (task : Task σ ι α), system.tasks[index]? = some task →
    task.script.Linear rel (op task.input) (ends task.input) (resultOf order index)
      (system.own index)
  idle : ∀ index, system.tasks.length ≤ index → system.own index = []

section

variable {rel : σ → ν → Prop} {op : ι → ν → ρ → ν → Prop}
variable {ends : ι → Option ρ → α → List (σ × σ) → Prop} {start view : ν}
variable {system : System σ ι α} {order : List (Done ι ρ)} {script : ι → Script σ α}

/-- A task that is done ended by what came of its operation. -/
theorem Linearized.ended (hlinearized : Linearized rel op ends start system order view)
    {index : Nat} {input : ι} {value : α}
    (htask : system.tasks[index]? = some ⟨input, .done value⟩) :
    ends input (resultOf order index) value (system.own index) :=
  hlinearized.scripts index _ htask

theorem Linearized.arrive (hlinearized : Linearized rel op ends start system order view)
    {input : ι} (hlinear : (script input).Linear rel (op input) (ends input) none []) :
    Linearized rel op ends start (system.next script (.arrive input)) order view where
  sequence := hlinearized.sequence
  related := hlinearized.related
  once := hlinearized.once
  inOrder := hlinearized.inOrder
  inputs := by
    intro done hdone
    obtain ⟨task, htask, hinput⟩ := hlinearized.inputs done hdone
    refine ⟨task, ?_, hinput⟩
    change (system.tasks ++ [_])[done.task]? = some task
    rw [List.getElem?_append_left (List.getElem?_eq_some_iff.mp htask).1]
    exact htask
  scripts := by
    intro index task htask
    change (system.tasks ++ [_])[index]? = some task at htask
    change task.script.Linear rel _ _ _ (system.own index)
    rcases Nat.lt_or_ge index system.tasks.length with hlt | hge
    · rw [List.getElem?_append_left hlt] at htask
      exact hlinearized.scripts index task htask
    · have hnone : resultOf order index = none := by
        rw [resultOf_eq_none]
        intro hmem
        obtain ⟨done, hdone, rfl⟩ := List.mem_map.mp hmem
        obtain ⟨_, hold, _⟩ := hlinearized.inputs done hdone
        have hlt := (List.getElem?_eq_some_iff.mp hold).1
        omega
      rw [List.getElem?_append_right hge] at htask
      obtain ⟨_, rfl⟩ := List.getElem?_eq_some_iff.mp htask
      rw [List.getElem_singleton, hnone, hlinearized.idle index hge]
      exact hlinear
  idle := by
    intro index hindex
    apply hlinearized.idle
    change (system.tasks ++ [_]).length ≤ index at hindex
    rw [List.length_append] at hindex
    omega

/-- A task takes a step; its operation is done in it, or the order is as it was. -/
theorem Linearized.advance (hlinearized : Linearized rel op ends start system order view)
    {index : Nat} {input : ι} {action : σ → γ × σ} {rest : γ → Script σ α}
    (htask : system.tasks[index]? = some ⟨input, .act action rest⟩) {order' : List (Done ι ρ)}
    {view' : ν} (hsequence : Sequence op start order' view')
    (hrelated : rel (action system.state).2 view') (honce : (order'.map Done.task).Nodup)
    (hinOrder : (order'.map Done.task).Sublist (system.steps.map Step.task ++ [index]))
    (hinputs : ∀ done ∈ order', ∃ task, system.tasks[done.task]? = some task ∧
      task.input = done.input)
    (hrest : (rest (action system.state).1).Linear rel (op input) (ends input)
      (resultOf order' index) (system.own index ++ [(system.state, (action system.state).2)]))
    (hothers : ∀ other, index ≠ other → resultOf order' other = resultOf order other) :
    Linearized rel op ends start
      ⟨(action system.state).2, system.tasks.set index ⟨input, rest (action system.state).1⟩,
        system.steps ++ [⟨index, system.state, (action system.state).2⟩]⟩ order' view' where
  sequence := hsequence
  related := hrelated
  once := honce
  inOrder := by
    rw [List.map_append]
    exact hinOrder
  inputs := by
    intro done hdone
    obtain ⟨task, hold, hinput⟩ := hinputs done hdone
    by_cases hsame : index = done.task
    · subst hsame
      rw [htask] at hold
      cases hold
      exact ⟨_, List.getElem?_set_self (List.getElem?_eq_some_iff.mp htask).1, hinput⟩
    · exact ⟨task, (List.getElem?_set_ne hsame).trans hold, hinput⟩
  scripts := by
    intro other task hother
    rw [own_snoc]
    by_cases hsame : index = other
    · subst hsame
      rw [List.getElem?_set_self (List.getElem?_eq_some_iff.mp htask).1] at hother
      cases hother
      rw [if_pos rfl]
      exact hrest
    · rw [List.getElem?_set_ne hsame] at hother
      rw [if_neg hsame, List.append_nil, hothers other hsame]
      exact hlinearized.scripts other task hother
  idle := by
    intro other hother
    have hlt := (List.getElem?_eq_some_iff.mp htask).1
    rw [List.length_set] at hother
    rw [own_snoc, if_neg (by dsimp only; omega), List.append_nil]
    exact hlinearized.idle other hother

/-- Every step keeps the system linearized: it is one of those that leave the view as it is, or
the task does its operation after all the others. -/
theorem Linearized.step (hlinearized : Linearized rel op ends start system order view)
    (index : Nat) : ∃ order' view',
      Linearized rel op ends start (system.next script (.step index)) order' view' := by
  dsimp only [next]
  split
  · next input _ action rest htask =>
      have hscript := hlinearized.scripts index _ htask
      rcases hscript system.state view hlinearized.related with
        ⟨hsame, hrest⟩ | ⟨hnone, result, view', hop, hrelated, hrest⟩
      · refine ⟨order, view, hlinearized.advance htask hlinearized.sequence hsame
          hlinearized.once ?_ hlinearized.inputs hrest fun _ _ => rfl⟩
        exact hlinearized.inOrder.trans (List.sublist_append_left _ _)
      · refine ⟨order ++ [⟨index, input, result⟩], view', hlinearized.advance htask
          (hlinearized.sequence.snoc hop) hrelated ?_ ?_ ?_ ?_ fun _ hne => resultOf_snoc_ne hne⟩
        · rw [List.map_append, List.map_singleton]
          exact List.Nodup.append hlinearized.once (List.nodup_singleton index)
            (List.disjoint_singleton.mpr (resultOf_eq_none.mp hnone))
        · rw [List.map_append]
          exact hlinearized.inOrder.append (List.Sublist.refl _)
        · intro done hdone
          rcases List.mem_append.mp hdone with hold | hnew
          · exact hlinearized.inputs done hold
          · rw [List.mem_singleton.mp hnew]
            exact ⟨_, htask, rfl⟩
        · rw [resultOf_snoc_self hnone]
          exact hrest
  · exact ⟨order, view, hlinearized⟩

/-- In every interleaving, tasks with one operation each did their operations one after the
other. -/
theorem run_linearized {start : σ} {first : ν} (hstart : rel start first)
    (hlinear : ∀ input, (script input).Linear rel (op input) (ends input) none [])
    (events : List (Event ι)) :
    ∃ order view, Linearized rel op ends first (run script start events) order view := by
  refine @run_induction σ α ι script (fun system => ∃ order view,
    Linearized rel op ends first system order view) start ?_ ?_ events
  · refine ⟨[], first, .nil, hstart, List.nodup_nil, List.Sublist.refl _, ?_, ?_, fun _ _ => rfl⟩
    · intro done hdone
      cases hdone
    · intro index task htask
      cases htask
  · rintro system event ⟨order, view, hlinearized⟩
    cases event with
    | arrive input => exact ⟨order, view, hlinearized.arrive (hlinear input)⟩
    | step index => exact hlinearized.step index

end

end System

end Interleaving
