/-
Rules for programs that keep their state when they raise.  `Exits` describes
every way out of one run, and `ExitsAlike` every way out of two that end alike.
-/
import Mathlib.Data.List.Forall2
import Mathlib.Logic.Basic

namespace Effect

variable {ε σ α β γ δ : Type}

/-- A computation that may raise returns when each of its steps does. -/
theorem bind_eq_ok {result : Except ε α} {next : α → Except ε β} {value : β} :
    result >>= next = .ok value ↔ ∃ middle, result = .ok middle ∧ next middle = .ok value := by
  cases result with
  | error fault =>
      constructor
      · intro hbind
        cases hbind
      · rintro ⟨_, ⟨⟩, _⟩
  | ok middle =>
      constructor
      · intro hbind
        exact ⟨middle, rfl, hbind⟩
      · rintro ⟨_, ⟨⟩, hnext⟩
        exact hnext

theorem map_eq_ok {result : Except ε α} {change : α → β} {value : β} :
    result.map change = .ok value ↔ ∃ found, result = .ok found ∧ change found = value := by
  cases result with
  | error found => simp [Except.map]
  | ok found => simp [Except.map]

theorem map_map {result : Except ε α} {first : α → β} {second : β → γ} :
    (result.map first).map second = result.map (second ∘ first) := by
  cases result <;> rfl

theorem mapError_eq_ok {ε' : Type} {result : Except ε α} {change : ε → ε'} {value : α} :
    result.mapError change = .ok value ↔ result = .ok value := by
  cases result with
  | error found => simp [Except.mapError]
  | ok found => simp [Except.mapError]

theorem mapError_eq_error {ε' : Type} {result : Except ε α} {change : ε → ε'} {fault : ε'} :
    result.mapError change = .error fault ↔
      ∃ found, result = .error found ∧ change found = fault := by
  cases result with
  | error found => simp [Except.mapError]
  | ok found => simp [Except.mapError]

theorem map_eq_error {result : Except ε α} {change : α → β} {fault : ε} :
    result.map change = .error fault ↔ result = .error fault := by
  cases result with
  | error found => simp [Except.map]
  | ok found => simp [Except.map]

/-- Where a computation that raised did so. -/
theorem bind_eq_error {result : Except ε α} {next : α → Except ε β} {fault : ε} :
    result >>= next = .error fault ↔
      result = .error fault ∨ ∃ middle, result = .ok middle ∧ next middle = .error fault := by
  cases result with
  | error found =>
      constructor
      · intro hbind
        cases hbind
        exact .inl rfl
      · rintro (⟨⟨⟩⟩ | ⟨_, ⟨⟩, _⟩)
        rfl
  | ok middle =>
      constructor
      · intro hbind
        exact .inr ⟨middle, rfl, hbind⟩
      · rintro (⟨⟨⟩⟩ | ⟨_, ⟨⟩, hnext⟩)
        exact hnext

/-- What a loop collects, unless one of its rounds raises. -/
def forEach (round : α → Except ε (List β)) : List α → Except ε (List β)
  | [] => .ok []
  | item :: items =>
      match round item with
      | .error fault => .error fault
      | .ok found => (forEach round items).map (found ++ ·)

section

variable {round : α → Except ε (List β)} {item : α} {items : List α} {part found : List β}

theorem forEach_cons_eq_ok : forEach round (item :: items) = .ok found ↔
    ∃ first rest, round item = .ok first ∧ forEach round items = .ok rest ∧
      first ++ rest = found := by
  rw [forEach]
  cases round item with
  | error fault => simp
  | ok first => simp [map_eq_ok]

/-- What a round collects, the loop does. -/
theorem mem_forEach {value : β} (hloop : forEach round items = .ok found) (hitem : item ∈ items)
    (hround : round item = .ok part) (hvalue : value ∈ part) : value ∈ found := by
  induction items generalizing found with
  | nil => cases hitem
  | cons head tail ih =>
      obtain ⟨first, rest, hfirst, hrest, rfl⟩ := forEach_cons_eq_ok.mp hloop
      rcases List.mem_cons.mp hitem with rfl | hitem
      · rw [hround] at hfirst
        cases hfirst
        exact List.mem_append_left _ hvalue
      · exact List.mem_append_right _ (ih hrest hitem)

/-- A loop collects nothing when none of its rounds does. -/
theorem forEach_eq_nil : forEach round items = .ok [] ↔ ∀ item ∈ items, round item = .ok [] := by
  induction items with
  | nil => simp [forEach]
  | cons head tail ih =>
      rw [forEach_cons_eq_ok, List.forall_mem_cons, ← ih]
      constructor
      · rintro ⟨first, rest, hfirst, hrest, happend⟩
        obtain ⟨rfl, rfl⟩ := List.append_eq_nil_iff.mp happend
        exact ⟨hfirst, hrest⟩
      · rintro ⟨hfirst, hrest⟩
        exact ⟨[], [], hfirst, hrest, rfl⟩

/-- In a loop that returns every round does. -/
theorem forEach_returns (hloop : forEach round items = .ok found) (hitem : item ∈ items) :
    ∃ part, round item = .ok part := by
  induction items generalizing found with
  | nil => cases hitem
  | cons head tail ih =>
      obtain ⟨first, rest, hfirst, hrest, rfl⟩ := forEach_cons_eq_ok.mp hloop
      rcases List.mem_cons.mp hitem with rfl | hitem
      · exact ⟨first, hfirst⟩
      · exact ih hrest hitem

/-- A loop raises when one of its rounds would. -/
theorem forEach_raises : (∃ fault, forEach round items = .error fault) ↔
    ∃ item ∈ items, ∃ fault, round item = .error fault := by
  induction items with
  | nil => simp [forEach]
  | cons head tail ih =>
      rw [forEach, List.exists_mem_cons_iff, ← ih]
      cases round head with
      | error fault => simp
      | ok first => cases forEach round tail <;> simp [Except.map]

end

theorem map_raises {result : Except ε α} {change : α → β} :
    (∃ fault, result.map change = .error fault) ↔ ∃ fault, result = .error fault := by
  cases result with
  | error found => simp [Except.map]
  | ok found => simp [Except.map]

theorem bind_raises {result : Except ε α} {next : α → Except ε β} :
    (∃ fault, result >>= next = .error fault) ↔ (∃ fault, result = .error fault) ∨
      ∃ middle, result = .ok middle ∧ ∃ fault, next middle = .error fault := by
  cases result with
  | error found => simp [bind, Except.bind]
  | ok middle => simp [bind, Except.bind]

/-- A list whose items are computed in turn raises what one of them raised. -/
theorem mapM_eq_error {f : α → Except ε β} {items : List α} {fault : ε}
    (hfault : items.mapM f = .error fault) : ∃ item ∈ items, f item = .error fault := by
  induction items with
  | nil => cases hfault
  | cons item items ih =>
      rw [List.mapM_cons] at hfault
      rcases bind_eq_error.mp hfault with hitem | ⟨value, _, hrest⟩
      · exact ⟨item, List.mem_cons_self, hitem⟩
      · rcases bind_eq_error.mp hrest with hitems | ⟨values, _, hpure⟩
        · obtain ⟨other, hmem, hother⟩ := ih hitems
          exact ⟨other, List.mem_cons_of_mem item hmem, hother⟩
        · cases hpure

/-- A list whose items are computed in turn returns what each of them does. -/
theorem mapM_eq_ok {f : α → Except ε β} {items : List α} {values : List β} :
    items.mapM f = .ok values ↔ List.Forall₂ (fun item value => f item = .ok value) items values := by
  induction items generalizing values with
  | nil =>
      rw [List.mapM_nil, List.forall₂_nil_left_iff]
      constructor
      · rintro ⟨⟩
        rfl
      · rintro rfl
        rfl
  | cons item items ih =>
      rw [List.mapM_cons, bind_eq_ok, List.forall₂_cons_left_iff]
      constructor
      · rintro ⟨value, hitem, hrest⟩
        obtain ⟨rest, hitems, ⟨⟩⟩ := bind_eq_ok.mp hrest
        exact ⟨value, rest, hitem, ih.mp hitems, rfl⟩
      · rintro ⟨value, rest, hitem, hitems, rfl⟩
        exact ⟨value, hitem, bind_eq_ok.mpr ⟨rest, ih.mpr hitems, rfl⟩⟩

/-- Every exit of `program` from `start`. -/
def Exits (program : EStateM ε σ α) (start : σ) (returns : α → σ → Prop)
    (raises : ε → σ → Prop) : Prop :=
  match program.run start with
  | .ok value finish => returns value finish
  | .error fault finish => raises fault finish

section Exits

variable {returns : α → σ → Prop} {raises : ε → σ → Prop} {start : σ}

theorem Exits.mono {program : EStateM ε σ α} {returns' : α → σ → Prop}
    {raises' : ε → σ → Prop} (hexits : Exits program start returns raises)
    (hreturns : ∀ value finish, returns value finish → returns' value finish)
    (hraises : ∀ fault finish, raises fault finish → raises' fault finish) :
    Exits program start returns' raises' := by
  unfold Exits at hexits ⊢
  split at hexits
  · exact hreturns _ _ hexits
  · exact hraises _ _ hexits

theorem Exits.and {program : EStateM ε σ α} {returns' : α → σ → Prop} {raises' : ε → σ → Prop}
    (hexits : Exits program start returns raises) (hexits' : Exits program start returns' raises') :
    Exits program start (fun value finish => returns value finish ∧ returns' value finish)
      fun fault finish => raises fault finish ∧ raises' fault finish := by
  unfold Exits at hexits hexits' ⊢
  cases hrun : program.run start with
  | ok value finish =>
      rw [hrun] at hexits hexits'
      exact ⟨hexits, hexits'⟩
  | error fault finish =>
      rw [hrun] at hexits hexits'
      exact ⟨hexits, hexits'⟩

@[simp] theorem exits_pure (value : α) :
    Exits (pure value) start returns raises ↔ returns value start :=
  Iff.rfl

@[simp] theorem exits_throw (fault : ε) :
    Exits (throw fault) start returns raises ↔ raises fault start :=
  Iff.rfl

theorem exits_bind {program : EStateM ε σ α} {next : α → EStateM ε σ β}
    {returns : β → σ → Prop} :
    Exits (program >>= next) start returns raises ↔
      Exits program start
        (fun value middle => Exits (next value) middle returns raises) raises := by
  simp only [Exits, EStateM.run_bind]
  cases program.run start <;> rfl

/-- Sequencing, in the form a proof about a program applies. -/
theorem Exits.bind {program : EStateM ε σ α} {next : α → EStateM ε σ β}
    {returns : β → σ → Prop}
    (hexits : Exits program start
      (fun value middle => Exits (next value) middle returns raises) raises) :
    Exits (program >>= next) start returns raises :=
  exits_bind.mpr hexits

theorem exits_ofExcept {result : Except ε α} :
    Exits (ofExcept result) start returns raises ↔
      (∀ value, result = .ok value → returns value start) ∧
        ∀ fault, result = .error fault → raises fault start := by
  cases result with
  | ok value =>
      change returns value start ↔ _
      simp
  | error fault =>
      change raises fault start ↔ _
      simp

theorem exits_tryCatch {program : EStateM ε σ α} {handle : ε → EStateM ε σ α} :
    Exits (tryCatch program handle) start returns raises ↔
      Exits program start returns
        (fun fault middle => Exits (handle fault) middle returns raises) := by
  simp only [Exits, EStateM.run, tryCatch, tryCatchThe, MonadExceptOf.tryCatch, EStateM.tryCatch]
  cases program start <;> rfl

/-- What a run that returned satisfies. -/
theorem Exits.of_ok {program : EStateM ε σ α} {value : α} {finish : σ}
    (hexits : Exits program start returns raises)
    (hrun : program.run start = .ok value finish) : returns value finish := by
  simpa only [Exits, hrun] using hexits

theorem Exits.of_error {program : EStateM ε σ α} {fault : ε} {finish : σ}
    (hexits : Exits program start returns raises)
    (hrun : program.run start = .error fault finish) : raises fault finish := by
  simpa only [Exits, hrun] using hexits

end Exits

/-- Every way out of two runs that end alike: both return, or both raise the same
fault. -/
def ExitsAlike (left : EStateM ε σ α) (right : EStateM ε σ β) (start start' : σ)
    (returns : α → β → σ → σ → Prop) (raises : ε → σ → σ → Prop) : Prop :=
  match left.run start, right.run start' with
  | .ok value finish, .ok value' finish' => returns value value' finish finish'
  | .error fault finish, .error fault' finish' => fault' = fault ∧ raises fault finish finish'
  | _, _ => False

/-- Two computations that may raise end alike. -/
def Alike (values : α → β → Prop) : Except ε α → Except ε β → Prop
  | .ok value, .ok value' => values value value'
  | .error fault, .error fault' => fault' = fault
  | _, _ => False

theorem alike_ok {values : α → β → Prop} {value : α} {value' : β} (hvalues : values value value') :
    Alike values (.ok value : Except ε α) (.ok value') :=
  hvalues

theorem Alike.refl {values : α → α → Prop} {result : Except ε α}
    (hvalues : ∀ value, result = .ok value → values value value) : Alike values result result := by
  cases result with
  | ok value => exact hvalues value rfl
  | error fault => rfl

/-- What two computations that end alike returned. -/
theorem Alike.known {values : α → β → Prop} {result : Except ε α} {result' : Except ε β}
    (halike : Alike values result result') :
    Alike (fun value value' => result = .ok value ∧ result' = .ok value' ∧ values value value')
      result result' := by
  cases result <;> cases result'
  · exact halike
  · exact halike
  · exact halike
  · exact ⟨rfl, rfl, halike⟩

theorem Alike.mono {values values' : α → β → Prop} {result : Except ε α} {result' : Except ε β}
    (halike : Alike values result result')
    (hvalues : ∀ value value', values value value' → values' value value') :
    Alike values' result result' := by
  cases result <;> cases result'
  · exact halike
  · exact halike
  · exact halike
  · exact hvalues _ _ halike

/-- Two guards on equivalent conditions raise alike, or both return. -/
theorem alike_guarded {values : α → β → Prop} {condition condition' : Prop}
    [Decidable condition] [Decidable condition'] {fault : ε} {value : α} {value' : β}
    (hcondition : condition ↔ condition')
    (hvalues : ¬ condition → ¬ condition' → values value value') :
    Alike values (if condition then .error fault else .ok value)
      (if condition' then .error fault else .ok value') := by
  by_cases hc : condition
  · rw [if_pos hc, if_pos (hcondition.mp hc)]
    rfl
  · have hc' : ¬ condition' := fun hc' => hc (hcondition.mpr hc')
    rw [if_neg hc, if_neg hc']
    exact hvalues hc hc'

section ExitsAlike

variable {left : EStateM ε σ α} {right : EStateM ε σ β} {start start' : σ}
variable {returns : α → β → σ → σ → Prop} {raises : ε → σ → σ → Prop}

theorem ExitsAlike.mono {returns' : α → β → σ → σ → Prop} {raises' : ε → σ → σ → Prop}
    (halike : ExitsAlike left right start start' returns raises)
    (hreturns : ∀ value value' finish finish',
      returns value value' finish finish' → returns' value value' finish finish')
    (hraises : ∀ fault finish finish', raises fault finish finish' →
      raises' fault finish finish') :
    ExitsAlike left right start start' returns' raises' := by
  unfold ExitsAlike at halike ⊢
  split at halike
  · exact hreturns _ _ _ _ halike
  · exact ⟨halike.1, hraises _ _ _ halike.2⟩
  · exact halike

theorem ExitsAlike.bind {next : α → EStateM ε σ γ} {next' : β → EStateM ε σ δ}
    {returns : γ → δ → σ → σ → Prop}
    (halike : ExitsAlike left right start start'
      (fun value value' middle middle' =>
        ExitsAlike (next value) (next' value') middle middle' returns raises) raises) :
    ExitsAlike (left >>= next) (right >>= next') start start' returns raises := by
  unfold ExitsAlike at halike ⊢
  rw [EStateM.run_bind, EStateM.run_bind]
  cases hleft : left.run start <;> cases hright : right.run start' <;>
    simp only [hleft, hright] at halike ⊢
  · exact halike
  · exact halike

theorem exitsAlike_ofExcept {result : Except ε α} {result' : Except ε β}
    (halike : Alike (fun value value' => returns value value' start start') result result')
    (hraises : ∀ fault, result = .error fault → raises fault start start') :
    ExitsAlike (ofExcept result) (ofExcept result') start start' returns raises := by
  cases result <;> cases result'
  · exact ⟨halike, hraises _ rfl⟩
  · exact halike
  · exact halike
  · exact halike

theorem exitsAlike_tryCatch {handle : ε → EStateM ε σ α} {handle' : ε → EStateM ε σ β}
    (halike : ExitsAlike left right start start' returns fun fault middle middle' =>
      ExitsAlike (handle fault) (handle' fault) middle middle' returns raises) :
    ExitsAlike (tryCatch left handle) (tryCatch right handle') start start' returns raises := by
  unfold ExitsAlike at halike ⊢
  simp only [EStateM.run, tryCatch, tryCatchThe, MonadExceptOf.tryCatch,
    EStateM.tryCatch] at halike ⊢
  cases hleft : left start <;> cases hright : right start' <;>
    simp only [hleft, hright] at halike ⊢
  · exact halike
  · obtain ⟨rfl, hhandle⟩ := halike
    exact hhandle

end ExitsAlike

end Effect
