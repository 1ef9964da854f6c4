/-
The read of a protected bootstrap file, whatever its reads give: a file that grows or shrinks
after `fstat`, reads as short as they like, reads that raise.  A payload is returned only when it
is everything up to the end of the file and as long as `fstat` says.
-/
import SecretsCustody.Bootstrap
import SecretsCustody.ChunkedReads

namespace SecretsCustody

open Effect JsonText ChunkedReads

variable {σ τ : Type}

/-! ### Descriptors -/

/-- What the system shows of an opened file: what `fstat` says of it, what reads give from then
on, and whether it closes. -/
structure Descriptor (σ : Type) where
  regular : Bool
  mode : Nat
  size : Nat
  state : σ
  source : Source σ UInt8 BootstrapRaised
  closes : Bool

/-- `fstat` describes a regular file of its owner alone, within the bound. -/
def Descriptor.Admitted (descriptor : Descriptor σ) (maximumBytes : Nat) : Prop :=
  descriptor.regular = true ∧ descriptor.mode &&& 0o077 = 0 ∧
    0 < descriptor.size ∧ descriptor.size ≤ maximumBytes

instance (descriptor : Descriptor σ) (maximumBytes : Nat) :
    Decidable (descriptor.Admitted maximumBytes) :=
  inferInstanceAs (Decidable (_ ∧ _))

/-- The loop before its first read: no chunk, and one byte more than the bound to go. -/
def Descriptor.start (descriptor : Descriptor σ) (maximumBytes : Nat) : Reading σ UInt8 :=
  ⟨descriptor.state, [], maximumBytes + 1⟩

/-- What `read_protected_bootstrap_file` does with a descriptor before it closes it. -/
def Descriptor.read (descriptor : Descriptor σ) (maximumBytes : Nat) :
    Except BootstrapRaised Bytes :=
  if ¬ descriptor.Admitted maximumBytes then .error .valueError
  else do
    let last ← descriptor.source.drain (descriptor.start maximumBytes)
    if last.payload.length ≠ descriptor.size then .error .valueError else return last.payload

/-- `read_protected_bootstrap_file`, with whatever its descriptor may give. -/
def readProtectedDescriptor (system : PyStr → Option (Descriptor σ)) (path : PyStr)
    (maximumBytes : Nat) : Except BootstrapRaised Bytes :=
  if isAbsolute path = false ∨ maximumBytes < 1 then .error .protectedBootstrapFileError
  else
    match system path with
    | none => .error .protectedBootstrapFileError
    | some descriptor =>
        if descriptor.closes = false then .error .osError
        else (descriptor.read maximumBytes).mapError fun _ => .protectedBootstrapFileError

/-! ### Files of a fixed content -/

/-- A read gives no more than was asked for. -/
theorem OpenedFile.read_bounded (file : OpenedFile) {position requested : Nat} {chunk : Bytes}
    {next : Nat} (hread : ((file.read position requested).map fun chunk =>
      (chunk, position + chunk.length)) = .ok (chunk, next)) : chunk.length ≤ requested := by
  cases havailable : file.available position with
  | none =>
      rw [OpenedFile.read, havailable] at hread
      cases hread
  | some count =>
      rw [OpenedFile.read, havailable] at hread
      cases hread
      rw [List.length_take]
      omega

/-- The reads of a file whose content stays as it is. -/
def OpenedFile.source (file : OpenedFile) : Source Nat UInt8 BootstrapRaised where
  read := fun position requested =>
    (file.read position requested).map fun chunk => (chunk, position + chunk.length)
  bounded := file.read_bounded

def OpenedFile.descriptor (file : OpenedFile) : Descriptor Nat where
  regular := file.regular
  mode := file.mode
  size := file.size
  state := 0
  source := file.source
  closes := file.closes

/-- The loop over a fixed content is the loop over its reads. -/
theorem drain_source (file : OpenedFile) (reading : Reading Nat UInt8) :
    (file.source.drain reading).map Reading.payload =
      (readChunks file reading.state reading.remaining).map fun rest => reading.payload ++ rest := by
  induction reading using (turn_wellFounded file.source).induction with
  | h reading ih =>
      rw [Source.drain, readChunks]
      by_cases hfull : reading.remaining = 0
      · rw [if_pos hfull, if_pos hfull]
        simp [Except.map]
      · rw [if_neg hfull, if_neg hfull]
        cases hread : file.read reading.state reading.remaining with
        | error raised =>
            have hsource : file.source.read reading.state reading.remaining = .error raised := by
              change (file.read reading.state reading.remaining).map _ = _
              rw [hread]
              rfl
            rw [hsource]
            rfl
        | ok chunk =>
            have hsource : file.source.read reading.state reading.remaining =
                .ok (chunk, reading.state + chunk.length) := by
              change (file.read reading.state reading.remaining).map _ = _
              rw [hread]
              rfl
            rw [hsource]
            dsimp only
            by_cases hempty : chunk = []
            · rw [dif_pos hempty, dif_pos hempty]
              simp [Except.map]
            · have hturn : Turn file.source reading
                  (reading.take chunk (reading.state + chunk.length)) chunk :=
                ⟨Nat.pos_of_ne_zero hfull, hsource, hempty, rfl⟩
              rw [dif_neg hempty, dif_neg hempty, ih _ ⟨chunk, hturn⟩, payload_take]
              change (readChunks file (reading.state + chunk.length)
                (reading.remaining - chunk.length)).map _ = _
              cases readChunks file (reading.state + chunk.length)
                  (reading.remaining - chunk.length) with
              | error raised => rfl
              | ok rest =>
                  change Except.ok (reading.payload ++ chunk ++ rest) =
                    .ok (reading.payload ++ (chunk ++ rest))
                  rw [List.append_assoc]

/-- A descriptor of a fixed content reads as the file does. -/
theorem descriptor_read (file : OpenedFile) (maximumBytes : Nat) :
    file.descriptor.read maximumBytes = readOpened file maximumBytes := by
  have hdrain : (file.source.drain (file.descriptor.start maximumBytes)).map Reading.payload =
      readChunks file 0 (maximumBytes + 1) := by
    rw [drain_source]
    change (readChunks file 0 (maximumBytes + 1)).map (fun rest => [] ++ rest) = _
    cases readChunks file 0 (maximumBytes + 1) with
    | error raised => rfl
    | ok rest => rfl
  rw [Descriptor.read, readOpened, ← hdrain]
  by_cases hadmitted : file.Admitted maximumBytes
  · have hdescriptor : file.descriptor.Admitted maximumBytes := hadmitted
    rw [if_neg (not_not.mpr hdescriptor), if_neg (not_not.mpr hadmitted)]
    change (file.source.drain (file.descriptor.start maximumBytes)).bind _ = _
    cases file.source.drain (file.descriptor.start maximumBytes) with
    | error raised => rfl
    | ok last => rfl
  · have hdescriptor : ¬ file.descriptor.Admitted maximumBytes := hadmitted
    rw [if_pos hdescriptor, if_pos hadmitted]

/-- The loaders' reader is the reader of descriptors, at files whose content stays as it is. -/
theorem readProtectedBootstrapFile_eq (system : FileSystem) (path : PyStr) (maximumBytes : Nat) :
    readProtectedBootstrapFile system path maximumBytes =
      readProtectedDescriptor (fun path => (system path).map OpenedFile.descriptor) path
        maximumBytes := by
  rw [readProtectedBootstrapFile, readProtectedDescriptor]
  cases system path with
  | none => rfl
  | some file =>
      dsimp only [Option.map_some]
      rw [descriptor_read]
      rfl

/-- A readable file serves what lies behind a position. -/
theorem serving_source {file : OpenedFile}
    (hreadable : ∀ position, (file.available position).isSome) :
    Serving file.source fun position content => content = file.content.drop position where
  piece := by
    intro position content requested hcontent hsome hasks
    obtain ⟨count, hread⟩ := OpenedFile.read_eq (hreadable position) requested
    rw [← hcontent] at hread
    have hnext : file.source.read position requested =
        .ok (content.take (min requested (max 1 count)),
          position + (content.take (min requested (max 1 count))).length) := by
      change (file.read position requested).map _ = _
      rw [hread]
      rfl
    refine ⟨_, content.drop (min requested (max 1 count)), _, hnext, ?_,
      (List.take_append_drop _ content).symm, ?_⟩
    · rw [Ne, List.take_eq_nil_iff]
      rintro (hzero | hnone)
      · omega
      · exact hsome hnone
    · rw [hcontent, List.drop_drop, List.length_take]
      by_cases hlong : min requested (max 1 count) ≤ (file.content.drop position).length
      · rw [Nat.min_eq_left hlong]
      · rw [List.drop_eq_nil_of_le, List.drop_eq_nil_of_le]
        · rw [List.length_drop] at hlong ⊢
          omega
        · rw [List.length_drop] at hlong
          omega
  nothing := by
    intro position requested hcontent hasks
    obtain ⟨count, hread⟩ := OpenedFile.read_eq (hreadable position) requested
    rw [← hcontent, List.take_nil] at hread
    refine ⟨position, ?_⟩
    change (file.read position requested).map _ = _
    rw [hread]
    rfl

/-! ### What is returned -/

/-- Turns of the loop lead to the end of the file, and the reads up to there gave this. -/
def Descriptor.ReadsToEnd (descriptor : Descriptor σ) (maximumBytes : Nat) (payload : Bytes) :
    Prop :=
  ∃ count last, Turns descriptor.source count (descriptor.start maximumBytes) last ∧
    AtEnd descriptor.source last ∧ last.payload = payload

/-- A payload is the whole file, of the size `fstat` says and within the bound. -/
structure Descriptor.Whole (descriptor : Descriptor σ) (maximumBytes : Nat) (payload : Bytes) :
    Prop where
  admitted : descriptor.Admitted maximumBytes
  some : 0 < payload.length
  bounded : payload.length ≤ maximumBytes
  size : payload.length = descriptor.size
  complete : descriptor.ReadsToEnd maximumBytes payload

/-- What the loop ends with unless a read raises. -/
def Descriptor.Delivers (descriptor : Descriptor σ) (maximumBytes : Nat) (content : Bytes) :
    Prop :=
  ∃ last, Drains descriptor.source (descriptor.start maximumBytes) (.ok last) ∧
    last.payload = content

theorem delivers_iff {descriptor : Descriptor σ} {maximumBytes : Nat} {content : Bytes} :
    descriptor.Delivers maximumBytes content ↔
      (descriptor.source.drain (descriptor.start maximumBytes)).map Reading.payload =
        .ok content := by
  constructor
  · intro ⟨last, hdrains, hcontent⟩
    rw [hdrains.eq_drain, ← hcontent]
    rfl
  · intro hmap
    have hdrains := drain_drains descriptor.source (descriptor.start maximumBytes)
    cases hdrain : descriptor.source.drain (descriptor.start maximumBytes) with
    | error raised =>
        rw [hdrain] at hmap
        cases hmap
    | ok last =>
        rw [hdrain] at hmap hdrains
        cases hmap
        exact ⟨last, hdrains, rfl⟩

/-- A payload of at most the bound was read to the end of the file. -/
theorem readsToEnd_of_delivers {descriptor : Descriptor σ} {maximumBytes : Nat} {content : Bytes}
    (hdelivers : descriptor.Delivers maximumBytes content)
    (hbounded : content.length ≤ maximumBytes) :
    descriptor.ReadsToEnd maximumBytes content := by
  obtain ⟨last, hdrains, hcontent⟩ := hdelivers
  cases hdrains with
  | full hturns hfull =>
      have hheld : last.payload.length + last.remaining = maximumBytes + 1 :=
        hturns.held_add_remaining.trans (Nat.zero_add _)
      rw [hcontent] at hheld
      omega
  | atEnd hturns hend => exact ⟨_, last, hturns, hend, hcontent⟩

/-- What is returned, as an iff. -/
theorem read_eq_ok {descriptor : Descriptor σ} {maximumBytes : Nat} {payload : Bytes} :
    descriptor.read maximumBytes = .ok payload ↔ descriptor.Whole maximumBytes payload := by
  constructor
  · intro hread
    rw [Descriptor.read] at hread
    by_cases hadmitted : descriptor.Admitted maximumBytes
    · rw [if_neg (not_not.mpr hadmitted)] at hread
      obtain ⟨last, hdrain, hread⟩ := bind_eq_ok.mp hread
      by_cases hsize : last.payload.length = descriptor.size
      · rw [if_neg (not_not.mpr hsize)] at hread
        cases hread
        have hdelivers : descriptor.Delivers maximumBytes last.payload := by
          rw [delivers_iff, hdrain]
          rfl
        have hbounded : last.payload.length ≤ maximumBytes := by
          rw [hsize]
          exact hadmitted.2.2.2
        have hsome : 0 < last.payload.length := by
          rw [hsize]
          exact hadmitted.2.2.1
        exact ⟨hadmitted, hsome, hbounded, hsize, readsToEnd_of_delivers hdelivers hbounded⟩
      · rw [if_pos hsize] at hread
        cases hread
    · rw [if_pos hadmitted] at hread
      cases hread
  · intro hwhole
    obtain ⟨count, last, hturns, hend, hpayload⟩ := hwhole.complete
    have hsize : last.payload.length = descriptor.size := by
      rw [hpayload]
      exact hwhole.size
    rw [Descriptor.read, if_neg (not_not.mpr hwhole.admitted)]
    refine bind_eq_ok.mpr ⟨last, (Drains.atEnd hturns hend).eq_drain, ?_⟩
    rw [if_neg (not_not.mpr hsize), hpayload]
    rfl

/-- Descriptors of which `fstat` says the same and that close alike. -/
structure Descriptor.Alike (left : Descriptor σ) (right : Descriptor τ) : Prop where
  regular : left.regular = right.regular
  mode : left.mode = right.mode
  size : left.size = right.size
  closes : left.closes = right.closes

/-- How the reads are cut does not show in what is returned. -/
theorem whole_iff_of_delivers {left : Descriptor σ} {right : Descriptor τ} {maximumBytes : Nat}
    (halike : left.Alike right)
    (hsame : ∀ content, left.Delivers maximumBytes content ↔ right.Delivers maximumBytes content)
    (payload : Bytes) : left.Whole maximumBytes payload ↔ right.Whole maximumBytes payload := by
  have hadmitted : left.Admitted maximumBytes ↔ right.Admitted maximumBytes := by
    rw [Descriptor.Admitted, Descriptor.Admitted, halike.regular, halike.mode, halike.size]
  have delivers : ∀ {ρ : Type} {descriptor : Descriptor ρ},
      descriptor.ReadsToEnd maximumBytes payload → descriptor.Delivers maximumBytes payload := by
    intro ρ descriptor ⟨count, last, hturns, hend, hpayload⟩
    exact ⟨last, .atEnd hturns hend, hpayload⟩
  constructor
  · intro hwhole
    exact ⟨hadmitted.mp hwhole.admitted, hwhole.some, hwhole.bounded, halike.size ▸ hwhole.size,
      readsToEnd_of_delivers ((hsame payload).mp (delivers hwhole.complete)) hwhole.bounded⟩
  · intro hwhole
    exact ⟨hadmitted.mpr hwhole.admitted, hwhole.some, hwhole.bounded,
      halike.size.symm ▸ hwhole.size,
      readsToEnd_of_delivers ((hsame payload).mpr (delivers hwhole.complete)) hwhole.bounded⟩

/-- The payload of a source that serves a content, in pieces of its choice. -/
theorem read_serving {descriptor : Descriptor σ} {maximumBytes : Nat} {serves : σ → Bytes → Prop}
    {content : Bytes} (hserving : Serving descriptor.source serves)
    (hserves : serves descriptor.state content) (payload : Bytes) :
    descriptor.Whole maximumBytes payload ↔
      descriptor.Admitted maximumBytes ∧ content.length = descriptor.size ∧ payload = content := by
  have hstarted : serves (descriptor.start maximumBytes).state content := hserves
  obtain ⟨last, hdrain, hpayload⟩ := hserving.drain hstarted
  have htaken : last.payload = content.take (maximumBytes + 1) := by
    rw [hpayload]
    rfl
  rw [← read_eq_ok, Descriptor.read, hdrain]
  by_cases hadmitted : descriptor.Admitted maximumBytes
  · have hbound : descriptor.size ≤ maximumBytes := hadmitted.2.2.2
    rw [if_neg (not_not.mpr hadmitted)]
    change (if last.payload.length ≠ descriptor.size then _ else _) = _ ↔ _
    rw [htaken]
    by_cases hsize : content.length = descriptor.size
    · have hwhole : content.take (maximumBytes + 1) = content :=
        List.take_of_length_le (by omega)
      rw [hwhole, if_neg (not_not.mpr hsize)]
      constructor
      · intro hreturn
        cases hreturn
        exact ⟨hadmitted, hsize, rfl⟩
      · intro ⟨_, _, heq⟩
        rw [heq]
        rfl
    · have hother : (content.take (maximumBytes + 1)).length ≠ descriptor.size := by
        rw [List.length_take]
        omega
      rw [if_pos hother]
      constructor
      · intro hreturn
        cases hreturn
      · intro ⟨_, heq, _⟩
        exact absurd heq hsize
  · rw [if_pos hadmitted]
    constructor
    · intro hreturn
      cases hreturn
    · intro ⟨heq, _, _⟩
      exact absurd heq hadmitted

/-! ### The whole read -/

theorem readProtectedDescriptor_eq_ok {system : PyStr → Option (Descriptor σ)} {path : PyStr}
    {maximumBytes : Nat} {payload : Bytes} :
    readProtectedDescriptor system path maximumBytes = .ok payload ↔
      isAbsolute path = true ∧ 1 ≤ maximumBytes ∧ ∃ descriptor, system path = some descriptor ∧
        descriptor.closes = true ∧ descriptor.Whole maximumBytes payload := by
  rw [readProtectedDescriptor]
  by_cases hrefused : isAbsolute path = false ∨ maximumBytes < 1
  · rw [if_pos hrefused]
    constructor
    · intro hread
      cases hread
    · intro ⟨hpath, hmaximum, _⟩
      rcases hrefused with hrelative | hnone
      · rw [hpath] at hrelative
        cases hrelative
      · omega
  · rw [if_neg hrefused]
    push Not at hrefused
    obtain ⟨hpath, hmaximum⟩ := hrefused
    cases hopen : system path with
    | none => simp
    | some descriptor =>
        cases hcloses : descriptor.closes with
        | false => simp [hcloses]
        | true =>
            have hread : (descriptor.read maximumBytes).mapError
                (fun _ => BootstrapRaised.protectedBootstrapFileError) = .ok payload ↔
                  descriptor.read maximumBytes = .ok payload := mapError_eq_ok
            have habsolute : isAbsolute path = true := by
              cases hvalue : isAbsolute path with
              | true => rfl
              | false => exact absurd hvalue hpath
            dsimp only
            rw [hcloses, if_neg (by decide), hread, read_eq_ok]
            constructor
            · intro hwhole
              exact ⟨habsolute, hmaximum, descriptor, rfl, hcloses, hwhole⟩
            · intro ⟨_, _, found, hfound, _, hwhole⟩
              cases hfound
              exact hwhole

theorem readProtectedDescriptor_eq_error {system : PyStr → Option (Descriptor σ)} {path : PyStr}
    {maximumBytes : Nat} {raised : BootstrapRaised}
    (hcloses : ∀ descriptor, system path = some descriptor → descriptor.closes = true)
    (hraised : readProtectedDescriptor system path maximumBytes = .error raised) :
    raised = .protectedBootstrapFileError := by
  rw [readProtectedDescriptor] at hraised
  split at hraised
  · cases hraised
    rfl
  · cases hopen : system path with
    | none =>
        rw [hopen] at hraised
        cases hraised
        rfl
    | some descriptor =>
        rw [hopen] at hraised
        dsimp only at hraised
        rw [hcloses descriptor hopen, if_neg (by decide)] at hraised
        cases hread : descriptor.read maximumBytes with
        | ok content =>
            rw [hread] at hraised
            cases hraised
        | error found =>
            rw [hread] at hraised
            cases hraised
            rfl

/-- Readers that return the same payloads, and raise the same, are the same. -/
theorem readProtectedDescriptor_congr {left : PyStr → Option (Descriptor σ)}
    {right : PyStr → Option (Descriptor τ)} {path : PyStr} {maximumBytes : Nat}
    (hleft : ∀ descriptor, left path = some descriptor → descriptor.closes = true)
    (hright : ∀ descriptor, right path = some descriptor → descriptor.closes = true)
    (hsame : ∀ payload, readProtectedDescriptor left path maximumBytes = .ok payload ↔
      readProtectedDescriptor right path maximumBytes = .ok payload) :
    readProtectedDescriptor left path maximumBytes =
      readProtectedDescriptor right path maximumBytes := by
  cases hread : readProtectedDescriptor left path maximumBytes with
  | ok payload => exact ((hsame payload).mp hread).symm
  | error raised =>
      rw [readProtectedDescriptor_eq_error hleft hread]
      cases hother : readProtectedDescriptor right path maximumBytes with
      | ok payload =>
          rw [(hsame payload).mpr hother] at hread
          cases hread
      | error found => rw [readProtectedDescriptor_eq_error hright hother]

/-- What the read of a protected file does, whatever its descriptor gives. -/
structure ReadsWhole (σ τ : Type) : Prop where
  ends : ∀ (descriptor : Descriptor σ) maximumBytes,
    Drains descriptor.source (descriptor.start maximumBytes)
      (descriptor.source.drain (descriptor.start maximumBytes))
  terminates : ∀ (descriptor : Descriptor σ) maximumBytes count reading,
    Turns descriptor.source count (descriptor.start maximumBytes) reading →
      count ≤ maximumBytes + 1
  held : ∀ (descriptor : Descriptor σ) maximumBytes count reading,
    Turns descriptor.source count (descriptor.start maximumBytes) reading →
      reading.payload.length ≤ maximumBytes + 1
  returned : ∀ (system : PyStr → Option (Descriptor σ)) path maximumBytes payload,
    readProtectedDescriptor system path maximumBytes = .ok payload ↔
      isAbsolute path = true ∧ 1 ≤ maximumBytes ∧ ∃ descriptor, system path = some descriptor ∧
        descriptor.closes = true ∧ descriptor.Whole maximumBytes payload
  raised : ∀ (system : PyStr → Option (Descriptor σ)) path maximumBytes raised,
    (∀ descriptor, system path = some descriptor → descriptor.closes = true) →
      readProtectedDescriptor system path maximumBytes = .error raised →
        raised = .protectedBootstrapFileError
  chunking : ∀ (left : PyStr → Option (Descriptor σ)) (right : PyStr → Option (Descriptor τ)) path
    maximumBytes opened other, left path = some opened → right path = some other →
      opened.closes = true → opened.Alike other →
        (∀ content, opened.Delivers maximumBytes content ↔ other.Delivers maximumBytes content) →
          readProtectedDescriptor left path maximumBytes =
            readProtectedDescriptor right path maximumBytes
  served : ∀ (system : PyStr → Option (Descriptor σ)) path maximumBytes descriptor
    (serves : σ → Bytes → Prop) content payload, isAbsolute path = true → 1 ≤ maximumBytes →
      system path = some descriptor → descriptor.closes = true →
        Serving descriptor.source serves → serves descriptor.state content →
          (readProtectedDescriptor system path maximumBytes = .ok payload ↔
            descriptor.Admitted maximumBytes ∧ content.length = descriptor.size ∧
              payload = content)

/-- The protected read is complete, bounded and blind to how its reads are cut. -/
theorem reads_whole (σ τ : Type) : ReadsWhole σ τ where
  ends := fun descriptor maximumBytes =>
    drain_drains descriptor.source (descriptor.start maximumBytes)
  terminates := by
    intro descriptor maximumBytes count reading hturns
    have hcount : count + reading.remaining ≤ maximumBytes + 1 := hturns.count_add_remaining
    omega
  held := by
    intro descriptor maximumBytes count reading hturns
    have hheld : reading.payload.length + reading.remaining = maximumBytes + 1 :=
      hturns.held_add_remaining.trans (Nat.zero_add _)
    omega
  returned := fun _ _ _ _ => readProtectedDescriptor_eq_ok
  raised := fun _ _ _ _ => readProtectedDescriptor_eq_error
  chunking := by
    intro left right path maximumBytes opened other hopened hother hcloses halike hsame
    have hwhole := whole_iff_of_delivers halike hsame
    have hleft : ∀ descriptor, left path = some descriptor → descriptor.closes = true := by
      intro descriptor hdescriptor
      rw [hopened] at hdescriptor
      cases hdescriptor
      exact hcloses
    have hright : ∀ descriptor, right path = some descriptor → descriptor.closes = true := by
      intro descriptor hdescriptor
      rw [hother] at hdescriptor
      cases hdescriptor
      rw [← halike.closes]
      exact hcloses
    apply readProtectedDescriptor_congr hleft hright
    intro payload
    rw [readProtectedDescriptor_eq_ok, readProtectedDescriptor_eq_ok, hopened, hother]
    constructor
    · intro ⟨hpath, hmaximum, found, hfound, _, hreturned⟩
      cases hfound
      exact ⟨hpath, hmaximum, other, rfl, hright other hother, (hwhole payload).mp hreturned⟩
    · intro ⟨hpath, hmaximum, found, hfound, _, hreturned⟩
      cases hfound
      exact ⟨hpath, hmaximum, opened, rfl, hcloses, (hwhole payload).mpr hreturned⟩
  served := by
    intro system path maximumBytes descriptor serves content payload hpath hmaximum hopen hcloses
      hserving hserves
    rw [readProtectedDescriptor_eq_ok, ← read_serving hserving hserves payload]
    constructor
    · intro ⟨_, _, found, hfound, _, hwhole⟩
      rw [hopen] at hfound
      cases hfound
      exact hwhole
    · intro hwhole
      exact ⟨hpath, hmaximum, descriptor, hopen, hcloses, hwhole⟩

end SecretsCustody
