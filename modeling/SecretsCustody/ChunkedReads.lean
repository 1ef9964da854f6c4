/-
Reading from a source that gives what it is asked for in pieces of its own choice, up to a
bound.  The reader asks for what is left of the bound until a read gives nothing, so what it
holds in the end is a prefix of what the source serves and depends on no piece.
-/
import Mathlib.Data.List.Basic
import Mathlib.Order.WellFounded

namespace SecretsCustody.ChunkedReads

variable {σ τ α ε : Type}

/-! ### Sources and readers -/

/-- What reads give.  A read asks for a number of items; it raises, or gives at most so many
and leaves the source in another state. -/
structure Source (σ α ε : Type) where
  read : σ → Nat → Except ε (List α × σ)
  bounded : ∀ {state : σ} {requested : Nat} {chunk : List α} {next : σ},
    read state requested = .ok (chunk, next) → chunk.length ≤ requested

/-- A reader between two reads. -/
structure Reading (σ α : Type) where
  state : σ
  chunks : List (List α)
  remaining : Nat

/-- The items a reader holds. -/
def Reading.payload (reading : Reading σ α) : List α :=
  reading.chunks.flatten

/-- The reader after a read gave it a chunk. -/
def Reading.take (reading : Reading σ α) (chunk : List α) (next : σ) : Reading σ α :=
  ⟨next, reading.chunks ++ [chunk], reading.remaining - chunk.length⟩

@[simp] theorem payload_take (reading : Reading σ α) (chunk : List α) (next : σ) :
    (reading.take chunk next).payload = reading.payload ++ chunk := by
  simp [Reading.payload, Reading.take]

/-- Read until nothing remains of the bound or a read gives nothing. -/
def Source.drain (source : Source σ α ε) (reading : Reading σ α) : Except ε (Reading σ α) :=
  if reading.remaining = 0 then .ok reading
  else
    match source.read reading.state reading.remaining with
    | .error raised => .error raised
    | .ok (chunk, next) =>
        if hempty : chunk = [] then .ok reading
        else source.drain (reading.take chunk next)
termination_by reading.remaining
decreasing_by
  have hlength : 0 < chunk.length := List.length_pos_iff.mpr hempty
  change reading.remaining - chunk.length < reading.remaining
  omega

/-! ### Turns -/

/-- One turn of the reader: it asks for what remains and takes what it gets. -/
structure Turn (source : Source σ α ε) (reading after : Reading σ α) (chunk : List α) : Prop where
  asks : 0 < reading.remaining
  gives : source.read reading.state reading.remaining = .ok (chunk, after.state)
  some : chunk ≠ []
  takes : after = reading.take chunk after.state

/-- Turns one after the other. -/
inductive Turns (source : Source σ α ε) : Nat → Reading σ α → Reading σ α → Prop
  | none (reading : Reading σ α) : Turns source 0 reading reading
  | more {count : Nat} {start reading after : Reading σ α} {chunk : List α}
      (hturns : Turns source count start reading) (hturn : Turn source reading after chunk) :
      Turns source (count + 1) start after

/-- A turn makes the rest of the bound what the chunk takes from it. -/
theorem Turn.remaining_eq {source : Source σ α ε} {reading after : Reading σ α} {chunk : List α}
    (hturn : Turn source reading after chunk) :
    after.remaining + chunk.length = reading.remaining := by
  have hbound : chunk.length ≤ reading.remaining := source.bounded hturn.gives
  have hafter : after.remaining = reading.remaining - chunk.length := by rw [hturn.takes]; rfl
  omega

theorem Turn.payload_eq {source : Source σ α ε} {reading after : Reading σ α} {chunk : List α}
    (hturn : Turn source reading after chunk) : after.payload = reading.payload ++ chunk := by
  rw [hturn.takes, payload_take]

/-- What is held and what remains is the bound at every turn. -/
theorem Turns.held_add_remaining {source : Source σ α ε} {count : Nat}
    {start reading : Reading σ α} (hturns : Turns source count start reading) :
    reading.payload.length + reading.remaining = start.payload.length + start.remaining := by
  induction hturns with
  | none => rfl
  | more hturns hturn ih =>
      rw [← ih, hturn.payload_eq, List.length_append, ← hturn.remaining_eq]
      omega

/-- Every turn uses up some of the bound. -/
theorem Turns.count_add_remaining {source : Source σ α ε} {count : Nat}
    {start reading : Reading σ α} (hturns : Turns source count start reading) :
    count + reading.remaining ≤ start.remaining := by
  induction hturns with
  | none => exact Nat.le_of_eq (Nat.zero_add _)
  | more hturns hturn ih =>
      have hremaining := hturn.remaining_eq
      have hsome : 0 < _ := List.length_pos_iff.mpr hturn.some
      omega

theorem Turns.first {source : Source σ α ε} {count : Nat} {reading after last : Reading σ α}
    {chunk : List α} (hturn : Turn source reading after chunk)
    (hturns : Turns source count after last) : Turns source (count + 1) reading last := by
  induction hturns with
  | none => exact .more (.none reading) hturn
  | more hturns hlast ih => exact .more (ih hturn) hlast

/-- No reader turns forever. -/
theorem turn_wellFounded (source : Source σ α ε) :
    WellFounded fun after reading : Reading σ α => ∃ chunk, Turn source reading after chunk := by
  apply Subrelation.wf (r := InvImage (· < ·) Reading.remaining) _ (InvImage.wf _ Nat.lt_wfRel.wf)
  intro after reading ⟨chunk, hturn⟩
  have hremaining := hturn.remaining_eq
  have hsome : 0 < chunk.length := List.length_pos_iff.mpr hturn.some
  change after.remaining < reading.remaining
  omega

/-! ### How a reader ends -/

/-- The reader has all it asked for, or a read gave it nothing. -/
def AtEnd (source : Source σ α ε) (reading : Reading σ α) : Prop :=
  0 < reading.remaining ∧ ∃ next, source.read reading.state reading.remaining = .ok ([], next)

/-- How reading from a start ends. -/
inductive Drains (source : Source σ α ε) (start : Reading σ α) : Except ε (Reading σ α) → Prop
  | full {count : Nat} {last : Reading σ α} (hturns : Turns source count start last)
      (hfull : last.remaining = 0) : Drains source start (.ok last)
  | atEnd {count : Nat} {last : Reading σ α} (hturns : Turns source count start last)
      (hend : AtEnd source last) : Drains source start (.ok last)
  | raised {count : Nat} {last : Reading σ α} {raised : ε}
      (hturns : Turns source count start last) (hasks : 0 < last.remaining)
      (hraises : source.read last.state last.remaining = .error raised) :
      Drains source start (.error raised)

theorem Drains.first {source : Source σ α ε} {reading after : Reading σ α} {chunk : List α}
    {outcome : Except ε (Reading σ α)} (hturn : Turn source reading after chunk)
    (hdrains : Drains source after outcome) : Drains source reading outcome := by
  cases hdrains with
  | full hturns hfull => exact .full (hturns.first hturn) hfull
  | atEnd hturns hend => exact .atEnd (hturns.first hturn) hend
  | raised hturns hasks hraises => exact .raised (hturns.first hturn) hasks hraises

/-- The loop ends as its turns lead it. -/
theorem drain_drains (source : Source σ α ε) (reading : Reading σ α) :
    Drains source reading (source.drain reading) := by
  induction reading using (turn_wellFounded source).induction with
  | h reading ih =>
      rw [Source.drain]
      by_cases hfull : reading.remaining = 0
      · rw [if_pos hfull]
        exact .full (.none reading) hfull
      · have hasks : 0 < reading.remaining := Nat.pos_of_ne_zero hfull
        rw [if_neg hfull]
        cases hread : source.read reading.state reading.remaining with
        | error raised => exact .raised (.none reading) hasks hread
        | ok given =>
            obtain ⟨chunk, next⟩ := given
            dsimp only
            by_cases hempty : chunk = []
            · rw [dif_pos hempty]
              rw [hempty] at hread
              exact .atEnd (.none reading) ⟨hasks, next, hread⟩
            · have hturn : Turn source reading (reading.take chunk next) chunk :=
                ⟨hasks, hread, hempty, rfl⟩
              rw [dif_neg hempty]
              exact (ih _ ⟨chunk, hturn⟩).first hturn

theorem Turn.drain_eq {source : Source σ α ε} {reading after : Reading σ α} {chunk : List α}
    (hturn : Turn source reading after chunk) : source.drain reading = source.drain after := by
  rw [Source.drain, if_neg (Nat.ne_of_gt hturn.asks), hturn.gives]
  dsimp only
  rw [dif_neg hturn.some, ← hturn.takes]

theorem Turns.drain_eq {source : Source σ α ε} {count : Nat} {start reading : Reading σ α}
    (hturns : Turns source count start reading) :
    source.drain start = source.drain reading := by
  induction hturns with
  | none => rfl
  | more hturns hturn ih => rw [ih, hturn.drain_eq]

/-- Reading ends in one way only. -/
theorem Drains.eq_drain {source : Source σ α ε} {start : Reading σ α}
    {outcome : Except ε (Reading σ α)} (hdrains : Drains source start outcome) :
    source.drain start = outcome := by
  cases hdrains with
  | full hturns hfull => rw [hturns.drain_eq, Source.drain, if_pos hfull]
  | atEnd hturns hend =>
      obtain ⟨hasks, next, hread⟩ := hend
      rw [hturns.drain_eq, Source.drain, if_neg (Nat.ne_of_gt hasks), hread]
      rfl
  | raised hturns hasks hraises =>
      rw [hturns.drain_eq, Source.drain, if_neg (Nat.ne_of_gt hasks), hraises]

/-! ### What a source serves -/

/-- The states that serve a content: a read gives some of it while there is some, and nothing
when there is none. -/
structure Serving (source : Source σ α ε) (serves : σ → List α → Prop) : Prop where
  piece : ∀ {state : σ} {content : List α} {requested : Nat}, serves state content →
    content ≠ [] → 0 < requested → ∃ chunk rest next,
      source.read state requested = .ok (chunk, next) ∧ chunk ≠ [] ∧ content = chunk ++ rest ∧
        serves next rest
  nothing : ∀ {state : σ} {requested : Nat}, serves state [] → 0 < requested →
    ∃ next, source.read state requested = .ok ([], next)

/-- The pieces do not show: the reader ends with what it held and with what it asked for of the
content. -/
theorem Serving.drain {source : Source σ α ε} {serves : σ → List α → Prop}
    (hserving : Serving source serves) {reading : Reading σ α} {content : List α}
    (hserves : serves reading.state content) :
    ∃ last, source.drain reading = .ok last ∧
      last.payload = reading.payload ++ content.take reading.remaining := by
  induction reading using (turn_wellFounded source).induction generalizing content with
  | h reading ih =>
      rw [Source.drain]
      by_cases hfull : reading.remaining = 0
      · rw [if_pos hfull, hfull, List.take_zero, List.append_nil]
        exact ⟨reading, rfl, rfl⟩
      · have hasks : 0 < reading.remaining := Nat.pos_of_ne_zero hfull
        rw [if_neg hfull]
        by_cases hcontent : content = []
        · rw [hcontent] at hserves
          obtain ⟨next, hread⟩ := hserving.nothing hserves hasks
          rw [hread, hcontent, List.take_nil, List.append_nil]
          exact ⟨reading, rfl, rfl⟩
        · obtain ⟨chunk, rest, next, hread, hempty, hsplit, hrest⟩ :=
            hserving.piece hserves hcontent hasks
          have hbound : chunk.length ≤ reading.remaining := source.bounded hread
          have hturn : Turn source reading (reading.take chunk next) chunk :=
            ⟨hasks, hread, hempty, rfl⟩
          obtain ⟨last, hlast, hpayload⟩ := ih _ ⟨chunk, hturn⟩ hrest
          rw [hread]
          dsimp only
          rw [dif_neg hempty]
          refine ⟨last, hlast, ?_⟩
          rw [hpayload, payload_take, hsplit, List.append_assoc, List.take_append,
            List.take_of_length_le hbound]
          rfl

end SecretsCustody.ChunkedReads
