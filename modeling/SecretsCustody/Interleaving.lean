/-
Tasks on a shared state.  A script acts on the state one atomic action at a
time, and between two actions of one task the others may act.  What the actions
of each script guarantee, one by one, holds in every interleaving.
-/
import Mathlib.Data.List.Basic

namespace Interleaving

variable {σ α β γ ι : Type}

/-- A program that acts on a shared state, action by action. -/
inductive Script (σ α : Type) : Type 1 where
  | done (value : α)
  | act {β : Type} (action : σ → β × σ) (next : β → Script σ α)

namespace Script

def bind : Script σ α → (α → Script σ β) → Script σ β
  | .done value, next => next value
  | .act action rest, next => .act action fun result => (rest result).bind next

instance : Monad (Script σ) where
  pure := .done
  bind := bind

/-- One action. -/
def once (action : σ → α × σ) : Script σ α :=
  .act action .done

/-- The script from one state to its end, with nothing in between. -/
def run : Script σ α → σ → α × σ
  | .done value, state => (value, state)
  | .act action next, state => (next (action state).1).run (action state).2

theorem run_bind (script : Script σ α) (next : α → Script σ β) (state : σ) :
    (script >>= next).run state = (next (script.run state).1).run (script.run state).2 := by
  induction script generalizing state with
  | done value => rfl
  | act action rest ih => exact ih (action state).1 (action state).2

/-! ### What the actions guarantee -/

/-- Every action takes every state to a related one. -/
def Guarantees (related : σ → σ → Prop) : Script σ α → Prop
  | .done _ => True
  | .act action next =>
      (∀ state, related state (action state).2) ∧ ∀ result, Guarantees related (next result)

theorem Guarantees.bind {related : σ → σ → Prop} {script : Script σ α}
    {next : α → Script σ β} (hscript : script.Guarantees related)
    (hnext : ∀ value, (next value).Guarantees related) :
    (script >>= next).Guarantees related := by
  induction script with
  | done value => exact hnext value
  | act action rest ih => exact ⟨hscript.1, fun result => ih result (hscript.2 result)⟩

theorem Guarantees.mono {related related' : σ → σ → Prop} {script : Script σ α}
    (hscript : script.Guarantees related)
    (hrelated : ∀ state after, related state after → related' state after) :
    script.Guarantees related' := by
  induction script with
  | done value => trivial
  | act action rest ih =>
      exact ⟨fun state => hrelated _ _ (hscript.1 state), fun result => ih result (hscript.2 result)⟩

/-- Every action takes every state to a related one, and the script ends with a value of
which `ends` holds. -/
def Acts (related : σ → σ → Prop) (ends : α → Prop) : Script σ α → Prop
  | .done value => ends value
  | .act action next =>
      (∀ state, related state (action state).2) ∧ ∀ result, Acts related ends (next result)

theorem Acts.mono {related : σ → σ → Prop} {ends ends' : α → Prop} {script : Script σ α}
    (hscript : script.Acts related ends) (hends : ∀ value, ends value → ends' value) :
    script.Acts related ends' := by
  induction script with
  | done value => exact hends value hscript
  | act action rest ih => exact ⟨hscript.1, fun result => ih result (hscript.2 result)⟩

theorem Acts.bind {related : σ → σ → Prop} {middle : α → Prop} {ends : β → Prop}
    {script : Script σ α} {next : α → Script σ β} (hscript : script.Acts related middle)
    (hnext : ∀ value, middle value → (next value).Acts related ends) :
    (script >>= next).Acts related ends := by
  induction script with
  | done value => exact hnext value hscript
  | act action rest ih => exact ⟨hscript.1, fun result => ih result (hscript.2 result)⟩

theorem Acts.guarantees {related : σ → σ → Prop} {ends : α → Prop} {script : Script σ α}
    (hscript : script.Acts related ends) : script.Guarantees related := by
  induction script with
  | done value => trivial
  | act action rest ih => exact ⟨hscript.1, fun result => ih result (hscript.2 result)⟩

/-- Every action is one of the allowed, and the script ends with a value of which `ends`
holds. -/
def Within (allowed : ∀ β : Type, (σ → β × σ) → Prop) (ends : α → Prop) : Script σ α → Prop
  | .done value => ends value
  | @act _ _ β action next => allowed β action ∧ ∀ result, Within allowed ends (next result)

section

variable {allowed : ∀ β : Type, (σ → β × σ) → Prop}

theorem Within.mono {ends ends' : α → Prop} {script : Script σ α}
    (hscript : script.Within allowed ends) (hends : ∀ value, ends value → ends' value) :
    script.Within allowed ends' := by
  induction script with
  | done value => exact hends value hscript
  | act action rest ih => exact ⟨hscript.1, fun result => ih result (hscript.2 result)⟩

theorem Within.bind {middle : α → Prop} {ends : β → Prop} {script : Script σ α}
    {next : α → Script σ β} (hscript : script.Within allowed middle)
    (hnext : ∀ value, middle value → (next value).Within allowed ends) :
    (script >>= next).Within allowed ends := by
  induction script with
  | done value => exact hnext value hscript
  | act action rest ih => exact ⟨hscript.1, fun result => ih result (hscript.2 result)⟩

/-- What every allowed action does to every state, the actions of the script do. -/
theorem Within.acts {related : σ → σ → Prop} {ends : α → Prop} {script : Script σ α}
    (hscript : script.Within allowed ends)
    (hallowed : ∀ β action, allowed β action → ∀ state, related state (action state).2) :
    script.Acts related ends := by
  induction script with
  | done value => exact hscript
  | act action rest ih =>
      exact ⟨hallowed _ action hscript.1, fun result => ih result (hscript.2 result)⟩

end

/-- Whatever states within `inv` its actions find, the script ends as `ends` says of its
value and of its own steps, those in `own` included. -/
def Ensures (inv : σ → Prop) (ends : α → List (σ × σ) → Prop) :
    Script σ α → List (σ × σ) → Prop
  | .done value, own => ends value own
  | .act action next, own => ∀ state, inv state →
      Ensures inv ends (next (action state).1) (own ++ [(state, (action state).2)])

section

variable {inv : σ → Prop} {own : List (σ × σ)}

theorem Ensures.mono {ends ends' : α → List (σ × σ) → Prop} {script : Script σ α}
    (hscript : script.Ensures inv ends own)
    (hends : ∀ value steps, ends value steps → ends' value steps) :
    script.Ensures inv ends' own := by
  induction script generalizing own with
  | done value => exact hends _ _ hscript
  | act action rest ih => exact fun state hinv => ih _ (hscript state hinv)

theorem Ensures.bind {ends : β → List (σ × σ) → Prop} {script : Script σ α}
    {next : α → Script σ β}
    (hscript : script.Ensures inv (fun value steps => (next value).Ensures inv ends steps) own) :
    (script >>= next).Ensures inv ends own := by
  induction script generalizing own with
  | done value => exact hscript
  | act action rest ih => exact fun state hinv => ih _ (hscript state hinv)

theorem Ensures.and {ends ends' : α → List (σ × σ) → Prop} {script : Script σ α}
    (hscript : script.Ensures inv ends own) (hscript' : script.Ensures inv ends' own) :
    script.Ensures inv (fun value steps => ends value steps ∧ ends' value steps) own := by
  induction script generalizing own with
  | done value => exact ⟨hscript, hscript'⟩
  | act action rest ih => exact fun state hinv => ih _ (hscript state hinv) (hscript' state hinv)

theorem ensures_true (script : Script σ α) :
    script.Ensures inv (fun _ _ => True) own := by
  induction script generalizing own with
  | done value => trivial
  | act action rest ih => exact fun state _ => ih _

end

end Script

/-! ### Tasks side by side -/

/-- A task: what it was asked, and what it has still to do. -/
structure Task (σ ι α : Type) where
  input : ι
  script : Script σ α

/-- A step of a task, with the states around it. -/
structure Step (σ : Type) where
  task : Nat
  before : σ
  after : σ

/-- The shared state, the tasks that arrived, and the steps they took. -/
structure System (σ ι α : Type) where
  state : σ
  tasks : List (Task σ ι α)
  steps : List (Step σ)

inductive Event (ι : Type) where
  | arrive (input : ι)
  | step (task : Nat)

namespace System

variable (script : ι → Script σ α)

def initial (start : σ) : System σ ι α :=
  { state := start, tasks := [], steps := [] }

/-- A task arrives, or one of those that did takes its next action, if it has one. -/
def next (system : System σ ι α) : Event ι → System σ ι α
  | .arrive input => { system with tasks := system.tasks ++ [⟨input, script input⟩] }
  | .step task =>
      match system.tasks[task]? with
      | some ⟨input, .act action rest⟩ =>
          { state := (action system.state).2
            tasks := system.tasks.set task ⟨input, rest (action system.state).1⟩
            steps := system.steps ++ [⟨task, system.state, (action system.state).2⟩] }
      | _ => system

def run (start : σ) (events : List (Event ι)) : System σ ι α :=
  events.foldl (next script) (initial start)

/-- The steps one task took. -/
def own (system : System σ ι α) (task : Nat) : List (σ × σ) :=
  (system.steps.filter fun step => step.task = task).map fun step => (step.before, step.after)

variable {script}

/-- What holds at the start and survives every event holds of every run. -/
theorem run_induction {holds : System σ ι α → Prop} {start : σ}
    (hstart : holds (initial start))
    (hnext : ∀ system event, holds system → holds (system.next script event))
    (events : List (Event ι)) : holds (run script start events) := by
  unfold run
  generalize initial start = system at hstart
  induction events generalizing system with
  | nil => exact hstart
  | cons event events ih => exact ih _ (hnext system event hstart)

/-- The steps lead from the start to the state, each to a related one. -/
inductive Path (related : σ → σ → Prop) (start : σ) : List (Step σ) → σ → Prop
  | nil : Path related start [] start
  | snoc {steps : List (Step σ)} {before after : σ} {task : Nat}
      (hpath : Path related start steps before) (hstep : related before after) :
      Path related start (steps ++ [⟨task, before, after⟩]) after

theorem Path.inv {related : σ → σ → Prop} {inv : σ → Prop} {start state : σ}
    {steps : List (Step σ)} (hpath : Path related start steps state) (hstart : inv start)
    (hrelated : ∀ state after, inv state → related state after → inv after) : inv state := by
  induction hpath with
  | nil => exact hstart
  | snoc _ hstep ih => exact hrelated _ _ ih hstep

section

variable {related : σ → σ → Prop} {inv holds : σ → Prop} {start state : σ} {steps : List (Step σ)}

/-- What every step keeps, the state has from each of them on. -/
theorem Path.keeps (hpath : Path related start steps state) (hstart : inv start)
    (hrelated : ∀ state after, inv state → related state after → inv after)
    (hkeeps : ∀ state after, inv state → related state after → holds state → holds after)
    {step : Step σ} (hstep : step ∈ steps) :
    inv step.before ∧ (holds step.before → holds state) ∧ (holds step.after → holds state) := by
  induction hpath with
  | nil => cases hstep
  | @snoc steps before after task hpath hlast ih =>
      have hbefore := hpath.inv hstart hrelated
      have hkept := hkeeps before after hbefore hlast
      rcases List.mem_append.mp hstep with hold | hnew
      · obtain ⟨hinv, hfirst, hsecond⟩ := ih hold
        exact ⟨hinv, fun hholds => hkept (hfirst hholds), fun hholds => hkept (hsecond hholds)⟩
      · rw [List.mem_singleton.mp hnew]
        exact ⟨hbefore, hkept, id⟩

/-- What the state has and the start has not, some step brought. -/
theorem Path.brought (holds : σ → Prop) (hpath : Path related start steps state)
    (hstart : ¬ holds start) (hstate : holds state) : ∃ step ∈ steps, ¬ holds step.before ∧ holds step.after := by
  induction hpath with
  | nil => exact absurd hstate hstart
  | @snoc steps before after task _ _ ih =>
      by_cases hbefore : holds before
      · obtain ⟨step, hstep, hbrought⟩ := ih hbefore
        exact ⟨step, List.mem_append_left _ hstep, hbrought⟩
      · exact ⟨_, List.mem_append_right _ (List.mem_singleton_self _), hbefore, hstate⟩

end

/-- The tasks of a system, each with the input it came with, do what their scripts say of
their own steps, and the steps make one path. -/
structure Kept (related : σ → σ → Prop) (inv : σ → Prop)
    (ends : ι → α → List (σ × σ) → Prop) (start : σ) (system : System σ ι α) : Prop where
  path : Path related start system.steps system.state
  holds : inv system.state
  guarantees : ∀ task ∈ system.tasks, task.script.Guarantees related
  ensures : ∀ (index : Nat) (task : Task σ ι α), system.tasks[index]? = some task →
    task.script.Ensures inv (ends task.input) (system.own index)
  idle : ∀ index, system.tasks.length ≤ index → system.own index = []

section

variable {related : σ → σ → Prop} {inv : σ → Prop} {ends : ι → α → List (σ × σ) → Prop}
variable {start : σ} {system : System σ ι α}

theorem own_snoc (state : σ) (tasks : List (Task σ ι α)) (steps : List (Step σ)) (step : Step σ)
    (index : Nat) :
    (⟨state, tasks, steps ++ [step]⟩ : System σ ι α).own index =
      (⟨state, tasks, steps⟩ : System σ ι α).own index ++
        if step.task = index then [(step.before, step.after)] else [] := by
  unfold own
  rw [List.filter_append, List.map_append]
  congr 1
  by_cases htask : step.task = index
  · simp [htask]
  · simp [htask]

theorem Kept.arrive (hkept : Kept related inv ends start system) {input : ι}
    (hguarantees : (script input).Guarantees related)
    (hensures : (script input).Ensures inv (ends input) []) :
    Kept related inv ends start (system.next script (.arrive input)) where
  path := hkept.path
  holds := hkept.holds
  guarantees := by
    intro task htask
    rcases List.mem_append.mp htask with hold | hnew
    · exact hkept.guarantees task hold
    · rw [List.mem_singleton.mp hnew]
      exact hguarantees
  ensures := by
    intro index task htask
    change (system.tasks ++ [_])[index]? = some task at htask
    change task.script.Ensures inv (ends task.input) (system.own index)
    rcases Nat.lt_or_ge index system.tasks.length with hlt | hge
    · rw [List.getElem?_append_left hlt] at htask
      exact hkept.ensures index task htask
    · rw [List.getElem?_append_right hge] at htask
      obtain ⟨_, rfl⟩ := List.getElem?_eq_some_iff.mp htask
      rw [List.getElem_singleton, hkept.idle index hge]
      exact hensures
  idle := by
    intro index hindex
    apply hkept.idle
    change (system.tasks ++ [_]).length ≤ index at hindex
    rw [List.length_append] at hindex
    omega

theorem Kept.step (hkept : Kept related inv ends start system)
    (hinv : ∀ state after, inv state → related state after → inv after) (index : Nat) :
    Kept related inv ends start (system.next script (.step index)) := by
  dsimp only [next]
  split
  · next input _ action rest htask =>
      have hguarantees := hkept.guarantees _ (List.mem_of_getElem? htask)
      have hrelated := hguarantees.1 system.state
      constructor
      · exact hkept.path.snoc hrelated
      · exact hinv _ _ hkept.holds hrelated
      · intro task hmem
        rcases List.mem_or_eq_of_mem_set hmem with hold | rfl
        · exact hkept.guarantees task hold
        · exact hguarantees.2 _
      · intro other task hother
        rw [own_snoc]
        by_cases hsame : index = other
        · subst hsame
          rw [List.getElem?_set_self (List.getElem?_eq_some_iff.mp htask).1] at hother
          cases hother
          rw [if_pos rfl]
          exact hkept.ensures index _ htask system.state hkept.holds
        · rw [List.getElem?_set_ne hsame] at hother
          rw [if_neg hsame, List.append_nil]
          exact hkept.ensures other task hother
      · intro other hother
        have hlt := (List.getElem?_eq_some_iff.mp htask).1
        rw [List.length_set] at hother
        rw [own_snoc, if_neg (by dsimp only; omega), List.append_nil]
        exact hkept.idle other hother
  · exact hkept

/-- In every interleaving of tasks that guarantee `related`, which keeps `inv`, every task
ends as its script ensures within `inv`. -/
theorem run_kept (hstart : inv start)
    (hinv : ∀ state after, inv state → related state after → inv after)
    (hguarantees : ∀ input, (script input).Guarantees related)
    (hensures : ∀ input, (script input).Ensures inv (ends input) [])
    (events : List (Event ι)) : Kept related inv ends start (run script start events) := by
  apply run_induction
  · refine ⟨.nil, hstart, ?_, ?_, fun _ _ => rfl⟩
    · intro task htask
      cases htask
    · intro index task htask
      cases htask
  · intro system event hkept
    cases event with
    | arrive input => exact hkept.arrive (hguarantees input) (hensures input)
    | step index => exact hkept.step hinv index

theorem mem_own {index : Nat} {before after : σ} :
    (before, after) ∈ system.own index ↔
      ∃ step ∈ system.steps, step.task = index ∧ step.before = before ∧ step.after = after := by
  simp only [own, List.mem_map, List.mem_filter, decide_eq_true_eq, Prod.mk.injEq, and_assoc]

/-- Every task took the steps its script promises for its input, and will. -/
def Promised (promises : ι → σ → σ → Prop) (system : System σ ι α) : Prop :=
  ∀ (index : Nat) (task : Task σ ι α), system.tasks[index]? = some task →
    task.script.Guarantees (promises task.input) ∧
      ∀ step ∈ system.own index, promises task.input step.1 step.2

theorem Promised.next {promises : ι → σ → σ → Prop} (hpromised : Promised promises system)
    (hguarantees : ∀ input, (script input).Guarantees (promises input))
    (hidle : ∀ index, system.tasks.length ≤ index → system.own index = []) (event : Event ι) :
    Promised promises (system.next script event) := by
  intro index task htask
  cases event with
  | arrive input =>
      change (system.tasks ++ [_])[index]? = some task at htask
      change _ ∧ ∀ step ∈ system.own index, _
      rcases Nat.lt_or_ge index system.tasks.length with hlt | hge
      · rw [List.getElem?_append_left hlt] at htask
        exact hpromised index task htask
      · rw [List.getElem?_append_right hge] at htask
        obtain ⟨_, rfl⟩ := List.getElem?_eq_some_iff.mp htask
        rw [List.getElem_singleton, hidle index hge]
        exact ⟨hguarantees input, by simp⟩
  | step other =>
      dsimp only [System.next] at htask ⊢
      split at htask
      · next input _ action rest hother =>
          obtain ⟨hscript, hsteps⟩ := hpromised other _ hother
          rw [own_snoc]
          by_cases hsame : other = index
          · subst hsame
            rw [List.getElem?_set_self (List.getElem?_eq_some_iff.mp hother).1] at htask
            cases htask
            refine ⟨hscript.2 _, ?_⟩
            intro step hstep
            rw [if_pos rfl, List.mem_append, List.mem_singleton] at hstep
            rcases hstep with hold | rfl
            · exact hsteps step hold
            · exact hscript.1 system.state
          · rw [List.getElem?_set_ne hsame] at htask
            rw [if_neg hsame, List.append_nil]
            exact hpromised index task htask
      · next hdone => exact hpromised index task htask

/-- What the scripts promise one by one, the tasks of every run did. -/
theorem run_promised {promises : ι → σ → σ → Prop}
    (hguarantees : ∀ input, (script input).Guarantees (promises input)) (start : σ)
    (events : List (Event ι)) : Promised promises (run script start events) := by
  have hboth : Kept (fun _ _ => True) (fun _ => True) (fun _ _ _ => True) start
      (run script start events) ∧ Promised promises (run script start events) := by
    refine @run_induction σ α ι script (fun system => Kept (fun _ _ => True) (fun _ => True)
      (fun _ _ _ => True) start system ∧ Promised promises system) start ?_ ?_ events
    · refine ⟨⟨.nil, trivial, ?_, ?_, fun _ _ => rfl⟩, ?_⟩
      · intro task htask
        cases htask
      · intro index task htask
        cases htask
      · intro index task htask
        cases htask
    · rintro system event ⟨hkept, hpromised⟩
      refine ⟨?_, hpromised.next hguarantees hkept.idle event⟩
      cases event with
      | arrive input =>
          exact hkept.arrive ((hguarantees input).mono fun _ _ _ => trivial)
            (Script.ensures_true (script input))
      | step index => exact hkept.step (fun _ _ _ _ => trivial) index
  exact hboth.2

/-- The state of a run is related to every later one. -/
theorem run_later (hrefl : ∀ state, related state state)
    (htrans : ∀ first second third, related first second → related second third →
      related first third) (hguarantees : ∀ input, (script input).Guarantees related)
    (start : σ) (earlier later : List (Event ι)) :
    related (run script start earlier).state (run script start (earlier ++ later)).state := by
  have htasks : ∀ task ∈ (run script start earlier).tasks, task.script.Guarantees related := by
    have hkept : Kept related (fun _ => True) (fun _ _ _ => True) start (run script start earlier) :=
      run_kept trivial (fun _ _ _ _ => trivial) hguarantees
        (fun input => Script.ensures_true (script input)) earlier
    exact hkept.guarantees
  unfold run at htasks ⊢
  rw [List.foldl_append]
  generalize earlier.foldl (next script) (initial start) = system at htasks
  induction later generalizing system with
  | nil => exact hrefl system.state
  | cons event later ih =>
      cases event with
      | arrive input =>
          have hnext : ∀ task ∈ (system.next script (.arrive input)).tasks,
              task.script.Guarantees related := by
            intro task htask
            rcases List.mem_append.mp htask with hold | hnew
            · exact htasks task hold
            · rw [List.mem_singleton.mp hnew]
              exact hguarantees input
          exact ih (system.next script (.arrive input)) hnext
      | step index =>
          have hnext : related system.state (system.next script (.step index)).state ∧
              ∀ task ∈ (system.next script (.step index)).tasks,
                task.script.Guarantees related := by
            dsimp only [next]
            split
            · next input _ action rest htask =>
                have hfound := htasks _ (List.mem_of_getElem? htask)
                refine ⟨hfound.1 system.state, ?_⟩
                intro task hmem
                rcases List.mem_or_eq_of_mem_set hmem with hold | rfl
                · exact htasks task hold
                · exact hfound.2 _
            · exact ⟨hrefl system.state, htasks⟩
          exact htrans _ _ _ hnext.1 (ih _ hnext.2)

/-- A step was taken by a task of the system. -/
theorem Kept.task_of_own (hkept : Kept related inv ends start system) {index : Nat}
    {step : σ × σ} (hstep : step ∈ system.own index) :
    ∃ task, system.tasks[index]? = some task := by
  have hlt : index < system.tasks.length := by
    by_contra hge
    rw [hkept.idle index (Nat.le_of_not_lt hge)] at hstep
    cases hstep
  exact ⟨_, List.getElem?_eq_getElem hlt⟩

/-- A task that is done ended as its script ensures. -/
theorem Kept.done (hkept : Kept related inv ends start system) {index : Nat} {input : ι}
    {value : α} (htask : system.tasks[index]? = some ⟨input, .done value⟩) :
    ends input value (system.own index) :=
  hkept.ensures index _ htask

end

end System

end Interleaving
