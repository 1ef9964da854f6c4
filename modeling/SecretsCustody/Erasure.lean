/-
Tasks that the others cannot see.  Where the actions of some tasks make no difference to what
the actions of the others read, a run goes on as it did with those actions left out.
-/
import Mathlib.Data.List.Induction
import SecretsCustody.Interleaving

namespace Interleaving

variable {σ ι α : Type}

namespace Script

/-- No action tells states apart that lie beside each other, and they lie so after it. -/
def Blind (beside : σ → σ → Prop) (script : Script σ α) : Prop :=
  script.Within (fun _ action => ∀ state state', beside state state' →
    (action state').1 = (action state).1 ∧ beside (action state).2 (action state').2)
    fun _ => True

/-- No action moves a state away from those it lies beside. -/
def Silent (beside : σ → σ → Prop) (script : Script σ α) : Prop :=
  script.Within (fun _ action => ∀ state state', beside state state' →
    beside (action state).2 state' ∧ beside state (action state').2) fun _ => True

theorem Within.allow {allowed allowed' : ∀ β : Type, (σ → β × σ) → Prop} {ends : α → Prop}
    {script : Script σ α} (hscript : script.Within allowed ends)
    (hallowed : ∀ β action, allowed β action → allowed' β action) :
    script.Within allowed' ends := by
  induction script with
  | done value => exact hscript
  | act action rest ih =>
      exact ⟨hallowed _ action hscript.1, fun result => ih result (hscript.2 result)⟩

section

variable {beside : σ → σ → Prop} {script : Script σ α}

theorem Blind.flip (hblind : script.Blind beside) : script.Blind (flip beside) := by
  apply hblind.allow
  intro β action haction state state' hbeside
  obtain ⟨hresult, hafter⟩ := haction state' state hbeside
  exact ⟨hresult.symm, hafter⟩

theorem Silent.flip (hsilent : script.Silent beside) : script.Silent (flip beside) := by
  apply hsilent.allow
  intro β action haction state state' hbeside
  exact (haction state' state hbeside).symm

end

end Script

namespace System

variable {script : ι → Script σ α} {start : σ}

/-! ### What arrived -/

/-- The inputs that arrive, in order. -/
def arrivals : List (Event ι) → List ι :=
  List.filterMap fun
    | .arrive input => some input
    | .step _ => none

theorem run_append (events later : List (Event ι)) :
    run script start (events ++ later) = later.foldl (next script) (run script start events) :=
  List.foldl_append

theorem next_step_inputs (system : System σ ι α) (index : Nat) :
    (system.next script (.step index)).tasks.map Task.input = system.tasks.map Task.input := by
  dsimp only [next]
  split
  · next input _ action rest htask =>
      apply List.ext_getElem?
      intro other
      rw [List.getElem?_map, List.getElem?_map]
      by_cases hsame : index = other
      · subst hsame
        rw [List.getElem?_set_self (List.getElem?_eq_some_iff.mp htask).1, htask]
        rfl
      · rw [List.getElem?_set_ne hsame]
  · rfl

/-- The tasks of a run are those that arrived. -/
theorem run_inputs (events : List (Event ι)) :
    (run script start events).tasks.map Task.input = arrivals events := by
  induction events using List.reverseRecOn with
  | nil => rfl
  | append_singleton events event ih =>
      rw [run_append, arrivals, List.filterMap_append]
      cases event with
      | arrive input =>
          change ((run script start events).tasks ++ [_]).map Task.input = _
          rw [List.map_append, ih]
          rfl
      | step index =>
          change ((run script start events).next script (.step index)).tasks.map Task.input = _
          rw [next_step_inputs, ih]
          exact (List.append_nil _).symm

/-! ### Two systems side by side -/

/-- Systems with the same tasks on states beside each other: the visible tasks are as far in
both, and see no difference, and the others make none. -/
structure Parallel (beside : σ → σ → Prop) (visible : ι → Prop) (system system' : System σ ι α) :
    Prop where
  state : beside system.state system'.state
  inputs : system'.tasks.map Task.input = system.tasks.map Task.input
  same : ∀ (index : Nat) (task : Task σ ι α), system.tasks[index]? = some task →
    visible task.input → system'.tasks[index]? = some task
  blind : ∀ task ∈ system.tasks, visible task.input → task.script.Blind beside
  silent : ∀ task ∈ system.tasks, ¬ visible task.input → task.script.Silent beside
  silent' : ∀ task ∈ system'.tasks, ¬ visible task.input → task.script.Silent beside

section

variable {beside : σ → σ → Prop} {visible : ι → Prop} {system system' : System σ ι α}

/-- Both systems have a task, or neither has, and it was asked the same. -/
theorem Parallel.task (hparallel : Parallel beside visible system system') {index : Nat}
    {task : Task σ ι α} (htask : system.tasks[index]? = some task) :
    ∃ script', system'.tasks[index]? = some ⟨task.input, script'⟩ := by
  have hinput := congrArg (fun inputs => inputs[index]?) hparallel.inputs
  simp only [List.getElem?_map, htask, Option.map_some, Option.map_eq_some_iff] at hinput
  obtain ⟨⟨input, script'⟩, hfound, rfl⟩ := hinput
  exact ⟨script', hfound⟩

theorem Parallel.symm (hparallel : Parallel beside visible system system') :
    Parallel (flip beside) visible system' system := by
  have hsame : ∀ (index : Nat) (task : Task σ ι α), system'.tasks[index]? = some task →
      visible task.input → system.tasks[index]? = some task := by
    intro index task' htask' hvisible
    have hlength := congrArg List.length hparallel.inputs
    rw [List.length_map, List.length_map] at hlength
    have hlt : index < system.tasks.length := hlength ▸ (List.getElem?_eq_some_iff.mp htask').1
    have htask := List.getElem?_eq_getElem hlt
    generalize system.tasks[index] = task at htask
    obtain ⟨script', hfound⟩ := hparallel.task htask
    obtain rfl : task' = ⟨task.input, script'⟩ := Option.some.inj (htask'.symm.trans hfound)
    have hagain := hparallel.same index task htask hvisible
    rw [Option.some.inj (htask'.symm.trans hagain)]
    exact htask
  refine ⟨hparallel.state, hparallel.inputs.symm, hsame, ?_, ?_, ?_⟩
  · intro task htask hvisible
    obtain ⟨index, hindex⟩ := List.getElem?_of_mem htask
    exact (hparallel.blind task (List.mem_of_getElem? (hsame index task hindex hvisible))
      hvisible).flip
  · exact fun task htask hhidden => (hparallel.silent' task htask hhidden).flip
  · exact fun task htask hhidden => (hparallel.silent task htask hhidden).flip

theorem Parallel.arrive (hparallel : Parallel beside visible system system') {input : ι}
    (hblind : visible input → (script input).Blind beside)
    (hsilent : ¬ visible input → (script input).Silent beside) :
    Parallel beside visible (system.next script (.arrive input))
      (system'.next script (.arrive input)) := by
  have hlength := congrArg List.length hparallel.inputs
  rw [List.length_map, List.length_map] at hlength
  constructor
  · exact hparallel.state
  · change (system'.tasks ++ [_]).map Task.input = (system.tasks ++ [_]).map Task.input
    rw [List.map_append, List.map_append, hparallel.inputs]
  · intro index task htask hvisible
    change (system.tasks ++ [_])[index]? = some task at htask
    change (system'.tasks ++ [_])[index]? = some task
    rcases Nat.lt_or_ge index system.tasks.length with hlt | hge
    · rw [List.getElem?_append_left hlt] at htask
      rw [List.getElem?_append_left (hlength ▸ hlt)]
      exact hparallel.same index task htask hvisible
    · rw [List.getElem?_append_right hge] at htask
      rw [List.getElem?_append_right (hlength ▸ hge), hlength]
      exact htask
  · intro task htask hvisible
    rcases List.mem_append.mp htask with hold | hnew
    · exact hparallel.blind task hold hvisible
    · rw [List.mem_singleton.mp hnew] at hvisible ⊢
      exact hblind hvisible
  · intro task htask hhidden
    rcases List.mem_append.mp htask with hold | hnew
    · exact hparallel.silent task hold hhidden
    · rw [List.mem_singleton.mp hnew] at hhidden ⊢
      exact hsilent hhidden
  · intro task htask hhidden
    rcases List.mem_append.mp htask with hold | hnew
    · exact hparallel.silent' task hold hhidden
    · rw [List.mem_singleton.mp hnew] at hhidden ⊢
      exact hsilent hhidden

/-- A task that is not visible may step in one of the systems alone. -/
theorem Parallel.stepAlone (hparallel : Parallel beside visible system system') {index : Nat}
    (hhidden : ∀ task, system.tasks[index]? = some task → ¬ visible task.input) :
    Parallel beside visible (system.next script (.step index)) system' := by
  have hinputs := @next_step_inputs σ ι α script system index
  dsimp only [next] at hinputs ⊢
  split
  · next input _ action rest htask =>
      have hinput := hhidden _ htask
      have hsilent := hparallel.silent _ (List.mem_of_getElem? htask) hinput
      rw [htask] at hinputs
      constructor
      · exact (hsilent.1 _ _ hparallel.state).1
      · exact hparallel.inputs.trans hinputs.symm
      · intro other task hother hvisible
        by_cases hsame : index = other
        · subst hsame
          rw [List.getElem?_set_self (List.getElem?_eq_some_iff.mp htask).1] at hother
          cases hother
          exact absurd hvisible hinput
        · rw [List.getElem?_set_ne hsame] at hother
          exact hparallel.same other task hother hvisible
      · intro task hmem hvisible
        rcases List.mem_or_eq_of_mem_set hmem with hold | rfl
        · exact hparallel.blind task hold hvisible
        · exact absurd hvisible hinput
      · intro task hmem hhidden'
        rcases List.mem_or_eq_of_mem_set hmem with hold | rfl
        · exact hparallel.silent task hold hhidden'
        · exact hsilent.2 _
      · exact hparallel.silent'
  · exact hparallel

/-- A visible task steps in both systems alike. -/
theorem Parallel.stepBoth (hparallel : Parallel beside visible system system') {index : Nat}
    {task : Task σ ι α} (htask : system.tasks[index]? = some task)
    (hvisible : visible task.input) :
    Parallel beside visible (system.next script (.step index))
      (system'.next script (.step index)) := by
  have htask' := hparallel.same index task htask hvisible
  have hblind := hparallel.blind task (List.mem_of_getElem? htask) hvisible
  have hinputs := @next_step_inputs σ ι α script system index
  have hinputs' := @next_step_inputs σ ι α script system' index
  obtain ⟨input, script'⟩ := task
  cases script' with
  | done value =>
      simp only [next, htask, htask']
      exact hparallel
  | act action rest =>
      simp only [next, htask, htask'] at hinputs hinputs' ⊢
      obtain ⟨hresult, hafter⟩ := hblind.1 _ _ hparallel.state
      rw [hresult] at hinputs' ⊢
      constructor
      · exact hafter
      · exact hinputs'.trans (hparallel.inputs.trans hinputs.symm)
      · intro other found hother hfound
        by_cases hsame : index = other
        · subst hsame
          rw [List.getElem?_set_self (List.getElem?_eq_some_iff.mp htask).1] at hother
          rw [List.getElem?_set_self (List.getElem?_eq_some_iff.mp htask').1]
          exact hother
        · rw [List.getElem?_set_ne hsame] at hother ⊢
          exact hparallel.same other found hother hfound
      · intro found hmem hfound
        rcases List.mem_or_eq_of_mem_set hmem with hold | rfl
        · exact hparallel.blind found hold hfound
        · exact hblind.2 _
      · intro found hmem hhidden
        rcases List.mem_or_eq_of_mem_set hmem with hold | rfl
        · exact hparallel.silent found hold hhidden
        · exact absurd hvisible hhidden
      · intro found hmem hhidden
        rcases List.mem_or_eq_of_mem_set hmem with hold | rfl
        · exact hparallel.silent' found hold hhidden
        · exact absurd hvisible hhidden

/-- Whatever steps next, in both systems. -/
theorem Parallel.step (hparallel : Parallel beside visible system system') (index : Nat) :
    Parallel beside visible (system.next script (.step index))
      (system'.next script (.step index)) := by
  by_cases hseen : ∃ task, system.tasks[index]? = some task ∧ visible task.input
  · obtain ⟨task, htask, hvisible⟩ := hseen
    exact hparallel.stepBoth htask hvisible
  · have hhidden : ∀ task, system.tasks[index]? = some task → ¬ visible task.input :=
      fun task htask hvisible => hseen ⟨task, htask, hvisible⟩
    have hhidden' : ∀ task, system'.tasks[index]? = some task → ¬ visible task.input :=
      fun task htask hvisible => hseen ⟨task, hparallel.symm.same index task htask hvisible, hvisible⟩
    exact ((hparallel.stepAlone hhidden).symm.stepAlone hhidden').symm

end

/-! ### Runs without some steps -/

/-- The events without the steps of the dropped tasks. -/
def erase (dropped : Nat → Bool) : List (Event ι) → List (Event ι) :=
  List.filter fun
    | .arrive _ => true
    | .step task => !dropped task

/-- A run goes on as it did without the steps of tasks that are not visible. -/
theorem run_erased {beside : σ → σ → Prop} {visible : ι → Prop} (hstart : beside start start)
    (dropped : Nat → Bool) (events : List (Event ι))
    (hblind : ∀ input ∈ arrivals events, visible input → (script input).Blind beside)
    (hsilent : ∀ input ∈ arrivals events, ¬ visible input → (script input).Silent beside)
    (hdropped : ∀ (index : Nat) (input : ι), (arrivals events)[index]? = some input →
      dropped index = true → ¬ visible input) :
    Parallel beside visible (run script start events) (run script start (erase dropped events)) := by
  induction events using List.reverseRecOn with
  | nil =>
      refine ⟨hstart, rfl, ?_, ?_, ?_, ?_⟩
      · intro index task htask
        cases htask
      all_goals
        intro task htask
        cases htask
  | append_singleton events event ih =>
      have harrivals : arrivals (events ++ [event]) = arrivals events ++ arrivals [event] :=
        List.filterMap_append
      have herase : erase dropped (events ++ [event]) = erase dropped events ++ erase dropped [event] :=
        List.filter_append _ _
      rw [harrivals] at hblind hsilent hdropped
      have hparallel := ih (fun input hinput => hblind input (List.mem_append_left _ hinput))
        (fun input hinput => hsilent input (List.mem_append_left _ hinput))
        (fun index input hinput => hdropped index input
          (List.getElem?_append_left (List.getElem?_eq_some_iff.mp hinput).1 ▸ hinput))
      rw [herase, run_append, run_append]
      cases event with
      | arrive input =>
          have hlast : input ∈ arrivals events ++ arrivals [Event.arrive input] :=
            List.mem_append_right _ List.mem_cons_self
          exact hparallel.arrive (hblind input hlast) (hsilent input hlast)
      | step index =>
          cases hdrop : dropped index with
          | false =>
              have hkept : erase dropped [(Event.step index : Event ι)] = [.step index] := by
                simp [erase, hdrop]
              rw [hkept]
              exact @Parallel.step σ ι α script beside visible _ _ hparallel index
          | true =>
              have hnone : erase dropped [(Event.step index : Event ι)] = [] := by
                simp [erase, hdrop]
              rw [hnone]
              refine @Parallel.stepAlone σ ι α script beside visible _ _ hparallel index ?_
              intro task htask
              apply hdropped index task.input _ hdrop
              have hinput : (arrivals events)[index]? = some task.input := by
                rw [← @run_inputs σ ι α script start, List.getElem?_map, htask]
                rfl
              rw [List.getElem?_append_left (List.getElem?_eq_some_iff.mp hinput).1]
              exact hinput

end System

end Interleaving
