/-
Runs of a state machine, and the concurrent clients they stand for.  A run is a
list of inputs taken one after the other; a system has clients that hold an
exclusive lock on the state from the start of a write to its end.
-/
import Mathlib.Data.List.Basic

namespace History

universe u v w

variable {σ : Type u} {ι : Type v} {ω : Type w}

/-- One input taken, with the states around it. -/
structure Entry (σ : Type u) (ι : Type v) (ω : Type w) where
  before : σ
  input : ι
  output : ω
  after : σ

section Runs

variable (step : σ → ι → ω × σ)

def entry (state : σ) (input : ι) : Entry σ ι ω :=
  ⟨state, input, (step state input).1, (step state input).2⟩

/-- The state after a run. -/
def final (start : σ) (inputs : List ι) : σ :=
  inputs.foldl (fun state input => (step state input).2) start

/-- The entries of a run, oldest first. -/
def trace (start : σ) : List ι → List (Entry σ ι ω)
  | [] => []
  | input :: inputs => entry step start input :: trace (step start input).2 inputs

variable {step}

theorem final_append (start : σ) (earlier later : List ι) :
    final step start (earlier ++ later) = final step (final step start earlier) later :=
  List.foldl_append

theorem trace_append (start : σ) (earlier later : List ι) :
    trace step start (earlier ++ later) =
      trace step start earlier ++ trace step (final step start earlier) later := by
  induction earlier generalizing start with
  | nil => rfl
  | cons input earlier ih =>
      change _ :: trace step _ (earlier ++ later) = _ :: (trace step _ earlier ++ _)
      rw [ih]
      rfl

/-- What holds at the start and survives every step holds after every run. -/
theorem invariant_final {inv : σ → Prop} {start : σ} {inputs : List ι} (hstart : inv start)
    (hstep : ∀ state input, input ∈ inputs → inv state → inv (step state input).2) :
    inv (final step start inputs) := by
  induction inputs generalizing start with
  | nil => exact hstart
  | cons input inputs ih =>
      apply ih (hstep start input List.mem_cons_self hstart)
      intro state later hlater
      exact hstep state later (List.mem_cons_of_mem input hlater)

/-- What holds at the start with nothing logged, and survives every step with
its entry logged, holds after every run with its trace. -/
theorem invariant_trace {inv : List (Entry σ ι ω) → σ → Prop} {start : σ} {inputs : List ι}
    (hstart : inv [] start)
    (hstep : ∀ entries state input, input ∈ inputs → inv entries state →
      inv (entries ++ [entry step state input]) (step state input).2) :
    inv (trace step start inputs) (final step start inputs) := by
  have hfrom : ∀ (rest : List ι) (entries : List (Entry σ ι ω)) (state : σ),
      (∀ input ∈ rest, input ∈ inputs) → inv entries state →
        inv (entries ++ trace step state rest) (final step state rest) := by
    intro rest
    induction rest with
    | nil =>
        intro entries state _ hinv
        rw [trace, List.append_nil]
        exact hinv
    | cons input rest ih =>
        intro entries state hrest hinv
        have hnext := ih (entries ++ [entry step state input]) (step state input).2
          (fun later hlater => hrest later (List.mem_cons_of_mem input hlater))
          (hstep entries state input (hrest input List.mem_cons_self) hinv)
        rw [List.append_assoc] at hnext
        exact hnext
  exact hfrom inputs [] start (fun _ hinput => hinput) hstart

/-- An entry of a trace splits the run at its input. -/
theorem mem_trace {start : σ} {inputs : List ι} {found : Entry σ ι ω}
    (hfound : found ∈ trace step start inputs) :
    ∃ earlier input later, inputs = earlier ++ input :: later ∧
      found = entry step (final step start earlier) input := by
  induction inputs generalizing start with
  | nil => cases hfound
  | cons input inputs ih =>
      simp only [trace, List.mem_cons] at hfound
      rcases hfound with rfl | hfound
      · exact ⟨[], input, inputs, rfl, rfl⟩
      · obtain ⟨earlier, other, later, rfl, rfl⟩ := ih hfound
        exact ⟨input :: earlier, other, later, rfl, rfl⟩

/-- A cut of a trace is a cut of its run. -/
theorem trace_eq_append {start : σ} {inputs : List ι} {earlier later : List (Entry σ ι ω)}
    (htrace : trace step start inputs = earlier ++ later) :
    ∃ first second, inputs = first ++ second ∧ earlier = trace step start first ∧
      later = trace step (final step start first) second := by
  induction earlier generalizing start inputs with
  | nil => exact ⟨[], inputs, rfl, rfl, htrace.symm⟩
  | cons head earlier ih =>
      cases inputs with
      | nil => cases htrace
      | cons input inputs =>
          simp only [trace, List.cons_append, List.cons.injEq] at htrace
          obtain ⟨rfl, htail⟩ := htrace
          obtain ⟨first, second, rfl, rfl, rfl⟩ := ih htail
          exact ⟨input :: first, second, rfl, rfl, rfl⟩

/-- A cut of a trace at one entry. -/
theorem trace_eq_append_cons {start : σ} {inputs : List ι} {earlier later : List (Entry σ ι ω)}
    {found : Entry σ ι ω} (htrace : trace step start inputs = earlier ++ found :: later) :
    ∃ first input second, inputs = first ++ input :: second ∧
      earlier = trace step start first ∧
      found = entry step (final step start first) input ∧
      later = trace step found.after second := by
  obtain ⟨first, second, rfl, rfl, hlater⟩ := trace_eq_append htrace
  cases second with
  | nil => cases hlater
  | cons input second =>
      simp only [trace, List.cons.injEq] at hlater
      obtain ⟨rfl, rfl⟩ := hlater
      exact ⟨first, input, second, rfl, rfl, rfl, rfl⟩

theorem inputs_of_trace (start : σ) (inputs : List ι) :
    (trace step start inputs).map Entry.input = inputs := by
  induction inputs generalizing start with
  | nil => rfl
  | cons input inputs ih => simp [trace, entry, ih]

end Runs

/-! ### Clients under a lock -/

/-- What a client does next.  A crash loses the client's unfinished write. -/
inductive Event (ι : Type v) where
  | begin (client : Nat) (input : ι)
  | commit (client : Nat)
  | crash (client : Nat)
  | read (client : Nat) (input : ι)

/-- A write under way: whose it is, what it was asked, and the state it took
when it got the lock. -/
structure Holder (σ : Type u) (ι : Type v) where
  client : Nat
  input : ι
  snapshot : σ

/-- The committed state, the holder of the lock, and what finished so far. -/
structure System (σ : Type u) (ι : Type v) (ω : Type w) where
  committed : σ
  holder : Option (Holder σ ι)
  log : List (Entry σ ι ω)

namespace System

variable (step : σ → ι → ω × σ) (reads : ι → Bool)

def initial (start : σ) : System σ ι ω :=
  { committed := start, holder := none, log := [] }

/-- One event.  A write that finds the lock taken does not start; only the
holder commits; a read does not need the lock. -/
def next (system : System σ ι ω) : Event ι → System σ ι ω
  | .begin client input =>
      match system.holder with
      | some _ => system
      | none => { system with holder := some ⟨client, input, system.committed⟩ }
  | .commit client =>
      match system.holder with
      | none => system
      | some holder =>
          if holder.client = client then
            { committed := (step holder.snapshot holder.input).2
              holder := none
              log := system.log ++ [entry step holder.snapshot holder.input] }
          else system
  | .crash client =>
      match system.holder with
      | none => system
      | some holder => if holder.client = client then { system with holder := none } else system
  | .read _ input =>
      if reads input then
        { system with log := system.log ++ [entry step system.committed input] }
      else system

def run (start : σ) (events : List (Event ι)) : System σ ι ω :=
  events.foldl (next step reads) (initial start)

/-- The log is a run from the start to the committed state, and a write under
way took the committed state. -/
def Serial (start : σ) (system : System σ ι ω) : Prop :=
  (∃ inputs, system.log = trace step start inputs ∧
      system.committed = final step start inputs) ∧
    ∀ holder, system.holder = some holder → holder.snapshot = system.committed

variable {step reads}

theorem Serial.append {start : σ} {system : System σ ι ω} (hserial : Serial step start system)
    (input : ι) :
    ∃ inputs, system.log ++ [entry step system.committed input] = trace step start inputs ∧
      (step system.committed input).2 = final step start inputs := by
  obtain ⟨⟨inputs, hlog, hcommitted⟩, _⟩ := hserial
  refine ⟨inputs ++ [input], ?_, ?_⟩
  · rw [trace_append, hlog, hcommitted]
    rfl
  · rw [final_append, hcommitted]
    rfl

theorem Serial.next {start : σ} {system : System σ ι ω} (hserial : Serial step start system)
    (hreads : ∀ state input, reads input = true → (step state input).2 = state)
    (event : Event ι) : Serial step start (system.next step reads event) := by
  cases event with
  | begin client input =>
      cases hholder : system.holder with
      | some holder => simpa only [System.next, hholder] using hserial
      | none =>
          simp only [System.next, hholder]
          refine ⟨hserial.1, ?_⟩
          rintro holder ⟨⟩
          rfl
  | commit client =>
      cases hholder : system.holder with
      | none => simpa only [System.next, hholder] using hserial
      | some holder =>
          by_cases hclient : holder.client = client
          · simp only [System.next, hholder, if_pos hclient]
            rw [hserial.2 holder hholder]
            refine ⟨hserial.append holder.input, ?_⟩
            rintro other ⟨⟩
          · simpa only [System.next, hholder, if_neg hclient] using hserial
  | crash client =>
      cases hholder : system.holder with
      | none => simpa only [System.next, hholder] using hserial
      | some holder =>
          by_cases hclient : holder.client = client
          · simp only [System.next, hholder, if_pos hclient]
            refine ⟨hserial.1, ?_⟩
            rintro other ⟨⟩
          · simpa only [System.next, hholder, if_neg hclient] using hserial
  | read client input =>
      by_cases hread : reads input = true
      · simp only [System.next, if_pos hread]
        obtain ⟨inputs, hlog, hfinal⟩ := hserial.append input
        rw [hreads _ input hread] at hfinal
        exact ⟨⟨inputs, hlog, hfinal⟩, hserial.2⟩
      · simpa only [System.next, if_neg hread] using hserial

theorem serial_initial (start : σ) : Serial step start (initial start : System σ ι ω) :=
  ⟨⟨[], rfl, rfl⟩, by rintro holder ⟨⟩⟩

/-- Whatever the interleaving of the clients, what they committed is a run. -/
theorem run_serial (hreads : ∀ state input, reads input = true → (step state input).2 = state)
    (start : σ) (events : List (Event ι)) :
    Serial step start (run step reads start events) := by
  have hinitial : Serial step start (initial start : System σ ι ω) := serial_initial start
  unfold run
  generalize (initial start : System σ ι ω) = system at hinitial
  induction events generalizing system with
  | nil => exact hinitial
  | cons event events ih => exact ih _ (hinitial.next hreads event)

/-- What every step preserves holds between any two committed states. -/
theorem run_related {related : σ → σ → Prop} (hrefl : ∀ state, related state state)
    (htrans : ∀ a b c, related a b → related b c → related a c)
    (hstep : ∀ state input, related state (step state input).2)
    (hreads : ∀ state input, reads input = true → (step state input).2 = state)
    (start : σ) (earlier later : List (Event ι)) :
    related (run step reads start earlier).committed
      (run step reads start (earlier ++ later)).committed := by
  have hserial := run_serial hreads start earlier
  unfold run at hserial ⊢
  rw [List.foldl_append]
  generalize earlier.foldl (System.next step reads) (initial start) = system at hserial
  induction later generalizing system with
  | nil => exact hrefl system.committed
  | cons event later ih =>
      have hnext : related system.committed (system.next step reads event).committed := by
        cases event with
        | commit client =>
            cases hholder : system.holder with
            | none =>
                simp only [System.next, hholder]
                exact hrefl system.committed
            | some holder =>
                simp only [System.next, hholder]
                split
                · rw [hserial.2 holder hholder]
                  exact hstep system.committed holder.input
                · exact hrefl system.committed
        | begin client input =>
            simp only [System.next]
            split <;> exact hrefl system.committed
        | crash client =>
            simp only [System.next]
            split
            · exact hrefl system.committed
            · split <;> exact hrefl system.committed
        | read client input =>
            simp only [System.next]
            split <;> exact hrefl system.committed
      exact htrans _ _ _ hnext (ih _ (hserial.next hreads event))

/-! ### What was attempted -/

section

variable (step : σ → ι → ω × σ) (reads : ι → Bool)

/-- The step an event starts: a write that gets the lock, or a read. -/
def attempt (system : System σ ι ω) : Event ι → List (Entry σ ι ω)
  | .begin _ input =>
      match system.holder with
      | some _ => []
      | none => [entry step system.committed input]
  | .read _ input => if reads input then [entry step system.committed input] else []
  | _ => []

/-- Every step the events start, those a crash cuts short included. -/
def attempts (system : System σ ι ω) : List (Event ι) → List (Entry σ ι ω)
  | [] => []
  | event :: events =>
      attempt step reads system event ++ attempts (system.next step reads event) events

end

theorem mem_attempt {system : System σ ι ω} {event : Event ι} {found : Entry σ ι ω}
    (hfound : found ∈ attempt step reads system event) :
    found = entry step system.committed found.input := by
  cases event with
  | begin client input =>
      cases hholder : system.holder with
      | some holder =>
          simp only [attempt, hholder] at hfound
          cases hfound
      | none =>
          simp only [attempt, hholder, List.mem_singleton] at hfound
          rw [hfound]
          rfl
  | commit client => cases hfound
  | crash client => cases hfound
  | read client input =>
      by_cases hread : reads input = true
      · simp only [attempt, if_pos hread, List.mem_singleton] at hfound
        rw [hfound]
        rfl
      · simp only [attempt, if_neg hread] at hfound
        cases hfound

/-- Every step that was started was started on a state some run reaches. -/
theorem mem_attempts (hreads : ∀ state input, reads input = true → (step state input).2 = state)
    {start : σ} {system : System σ ι ω} (hserial : Serial step start system)
    {events : List (Event ι)} {found : Entry σ ι ω}
    (hfound : found ∈ attempts step reads system events) :
    ∃ inputs, found = entry step (final step start inputs) found.input := by
  induction events generalizing system with
  | nil => cases hfound
  | cons event events ih =>
      rw [attempts, List.mem_append] at hfound
      rcases hfound with hfound | hfound
      · obtain ⟨⟨inputs, _, hcommitted⟩, _⟩ := hserial
        exact ⟨inputs, hcommitted ▸ mem_attempt hfound⟩
      · exact ih (hserial.next hreads event) hfound

/-- A step that finished was in the log, under way, or started since. -/
theorem mem_log_of_foldl {system : System σ ι ω} {events : List (Event ι)}
    {found : Entry σ ι ω} (hfound : found ∈ (events.foldl (System.next step reads) system).log) :
    found ∈ system.log ∨
      (∃ holder, system.holder = some holder ∧
        found = entry step holder.snapshot holder.input) ∨
      found ∈ attempts step reads system events := by
  induction events generalizing system with
  | nil => exact .inl hfound
  | cons event events ih =>
      have hnext := ih hfound
      rw [attempts, List.mem_append]
      cases event with
      | begin client input =>
          cases hholder : system.holder with
          | some holder =>
              simp only [System.next, attempt, hholder] at hnext ⊢
              simpa using hnext
          | none =>
              simp only [System.next, attempt, hholder, Option.some.injEq, exists_eq_left',
                List.mem_singleton] at hnext ⊢
              rcases hnext with hlog | hentry | hlater
              · exact .inl hlog
              · exact .inr (.inr (.inl hentry))
              · exact .inr (.inr (.inr hlater))
      | commit client =>
          cases hholder : system.holder with
          | none =>
              simp only [System.next, attempt, hholder] at hnext ⊢
              simpa using hnext
          | some holder =>
              by_cases hclient : holder.client = client
              · simp only [System.next, attempt, hholder, if_pos hclient, List.mem_append,
                  List.mem_singleton, Option.some.injEq, exists_eq_left', reduceCtorEq,
                  false_and, exists_false, false_or] at hnext ⊢
                rcases hnext with (hlog | hentry) | hlater
                · exact .inl hlog
                · exact .inr (.inl hentry)
                · exact .inr (.inr (.inr hlater))
              · simp only [System.next, attempt, hholder, if_neg hclient] at hnext ⊢
                simpa using hnext
      | crash client =>
          cases hholder : system.holder with
          | none =>
              simp only [System.next, attempt, hholder] at hnext ⊢
              simpa using hnext
          | some holder =>
              by_cases hclient : holder.client = client
              · simp only [System.next, attempt, hholder, if_pos hclient] at hnext ⊢
                rcases hnext with hlog | ⟨_, ⟨⟩, _⟩ | hlater
                · exact .inl hlog
                · exact .inr (.inr (.inr hlater))
              · simp only [System.next, attempt, hholder, if_neg hclient] at hnext ⊢
                simpa using hnext
      | read client input =>
          by_cases hread : reads input = true
          · simp only [System.next, attempt, if_pos hread, List.mem_append,
              List.mem_singleton] at hnext ⊢
            rcases hnext with (hlog | hentry) | hholder | hlater
            · exact .inl hlog
            · exact .inr (.inr (.inl hentry))
            · exact .inr (.inl hholder)
            · exact .inr (.inr (.inr hlater))
          · simp only [System.next, attempt, if_neg hread] at hnext ⊢
            simpa using hnext

/-- Every step that finished was started. -/
theorem mem_attempts_of_log {start : σ} {events : List (Event ι)} {found : Entry σ ι ω}
    (hfound : found ∈ (run step reads start events).log) :
    found ∈ attempts step reads (initial start) events := by
  rcases mem_log_of_foldl hfound with hlog | ⟨holder, hholder, _⟩ | hattempt
  · cases hlog
  · cases hholder
  · exact hattempt

end System

end History
