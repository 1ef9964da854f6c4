/-
The rules of the package gate, as conditions on what is inspected: the gate ends with a report
without findings exactly when they all hold.
-/
import SecretsCustody.PackageIntegrity

namespace PackageIntegrity

open Effect JsonText PythonSyntax

/-! ### Sorted sets -/

section

variable {α : Type} [DecidableEq α] {le : α → α → Bool} {items : List α}

theorem mem_sortedSet {item : α} : item ∈ sortedSet le items ↔ item ∈ items := by
  rw [sortedSet, (List.perm_insertionSort _ _).mem_iff, List.mem_dedup]

theorem sortedSet_eq_nil_iff : sortedSet le items = [] ↔ items = [] := by
  rw [List.eq_nil_iff_forall_not_mem, List.eq_nil_iff_forall_not_mem]
  simp only [mem_sortedSet]

end

/-! ### The document -/

/-- The document is not there, or a list of entries that approve one identity each. -/
inductive Approves : SkipDocument → List ApprovedSkip → Prop
  | absent : Approves .absent []
  | entries {name : PyStr} {items : List Json} {approvals : List ApprovedSkip}
      (hentries : List.Forall₂ (fun item approval => readEntry item = .ok approval) items approvals)
      (hunique : (approvals.map ApprovedSkip.identity).Nodup) :
      Approves (.parsed name (.arr items)) approvals

section

variable {relative : PyStr} {index : Nat} {seen : List PyStr} {item : Json}
variable {items : List Json} {approval : ApprovedSkip} {message : PyStr}

theorem readEntries_error (hread : readEntry item = .error message) :
    readEntries relative index seen (item :: items) =
      ((readEntries relative (index + 1) seen items).1,
        ⟨relative, index, codes "invalid-skip-approval", message⟩ ::
          (readEntries relative (index + 1) seen items).2) := by
  rw [readEntries, hread]

theorem readEntries_seen (hread : readEntry item = .ok approval)
    (hseen : approval.identity ∈ seen) :
    readEntries relative index seen (item :: items) =
      ((readEntries relative (index + 1) seen items).1,
        ⟨relative, index, codes "duplicate-skip-approval", approval.identity⟩ ::
          (readEntries relative (index + 1) seen items).2) := by
  rw [readEntries, hread]
  dsimp only
  rw [if_pos (List.contains_iff_mem.mpr hseen)]

theorem readEntries_fresh (hread : readEntry item = .ok approval)
    (hseen : approval.identity ∉ seen) :
    readEntries relative index seen (item :: items) =
      (approval :: (readEntries relative (index + 1) (approval.identity :: seen) items).1,
        (readEntries relative (index + 1) (approval.identity :: seen) items).2) := by
  rw [readEntries, hread]
  dsimp only
  rw [if_neg (mt List.contains_iff_mem.mp hseen)]

end

/-- The identities behind one that is new are new behind it, and none is twice. -/
theorem fresh_cons {approval : ApprovedSkip} {approvals : List ApprovedSkip}
    {seen : List PyStr} :
    (((approval :: approvals).map ApprovedSkip.identity).Nodup ∧
      ∀ other ∈ approval :: approvals, other.identity ∉ seen) ↔
    approval.identity ∉ seen ∧ (approvals.map ApprovedSkip.identity).Nodup ∧
      ∀ other ∈ approvals, other.identity ∉ approval.identity :: seen := by
  rw [List.map_cons, List.nodup_cons, List.forall_mem_cons]
  constructor
  · rintro ⟨⟨honce, hunique⟩, hnew, hfresh⟩
    refine ⟨hnew, hunique, ?_⟩
    intro other hother hold
    rcases List.mem_cons.mp hold with hsame | hold
    · apply honce
      rw [← hsame]
      exact List.mem_map_of_mem hother
    · exact hfresh other hother hold
  · rintro ⟨hnew, hunique, hfresh⟩
    refine ⟨⟨?_, hunique⟩, hnew, ?_⟩
    · intro htwice
      obtain ⟨other, hother, hsame⟩ := List.mem_map.mp htwice
      apply hfresh other hother
      rw [hsame]
      exact List.mem_cons_self
    · intro other hother hold
      exact hfresh other hother (List.mem_cons_of_mem _ hold)

/-- The loop reports nothing when every entry approves an identity it has not seen. -/
theorem readEntries_iff {relative : PyStr} {items : List Json} (index : Nat) (seen : List PyStr)
    (approvals : List ApprovedSkip) :
    readEntries relative index seen items = (approvals, []) ↔
      List.Forall₂ (fun item approval => readEntry item = .ok approval) items approvals ∧
        (approvals.map ApprovedSkip.identity).Nodup ∧
          ∀ approval ∈ approvals, approval.identity ∉ seen := by
  induction items generalizing index seen approvals with
  | nil =>
      rw [readEntries]
      constructor
      · intro hread
        cases hread
        exact ⟨.nil, List.nodup_nil, by simp⟩
      · rintro ⟨hentries, _, _⟩
        cases hentries
        rfl
  | cons item items ih =>
      rw [List.forall₂_cons_left_iff]
      cases hentry : readEntry item with
      | error message =>
          rw [readEntries_error hentry]
          simp
      | ok approval =>
          by_cases hseen : approval.identity ∈ seen
          · rw [readEntries_seen hentry hseen]
            simp only [Prod.mk.injEq, reduceCtorEq, and_false, false_iff]
            rintro ⟨⟨found, rest, hfound, _, rfl⟩, _, hfresh⟩
            cases hfound
            exact hfresh approval List.mem_cons_self hseen
          · rw [readEntries_fresh hentry hseen]
            constructor
            · intro hread
              obtain ⟨rfl, hnone⟩ := Prod.mk.inj hread
              obtain ⟨hrest, hbehind⟩ := (ih (index + 1) (approval.identity :: seen) _).mp
                (Prod.ext rfl hnone)
              exact ⟨⟨_, _, rfl, hrest, rfl⟩, fresh_cons.mpr ⟨hseen, hbehind⟩⟩
            · rintro ⟨⟨found, rest, hfound, hrest, rfl⟩, hunique, hfresh⟩
              cases hfound
              obtain ⟨_, hbehind⟩ := fresh_cons.mp ⟨hunique, hfresh⟩
              rw [(ih (index + 1) (approval.identity :: seen) rest).mpr ⟨hrest, hbehind⟩]

/-- The document is read without a finding exactly when it is a document of approvals. -/
theorem approves_iff {document : SkipDocument} {approvals : List ApprovedSkip} :
    Approves document approvals ↔ readApprovedSkips document = .ok (approvals, []) := by
  constructor
  · intro happroves
    cases happroves with
    | absent => rfl
    | entries hentries hunique =>
        exact congrArg Except.ok
          ((readEntries_iff 1 [] approvals).mpr ⟨hentries, hunique, by simp⟩)
  · intro hread
    cases document with
    | absent =>
        cases hread
        exact .absent
    | unreadable name error => cases hread
    | raising name raised => cases hread
    | parsed name value =>
        cases value with
        | arr items =>
            obtain ⟨hentries, hunique, _⟩ :=
              (readEntries_iff 1 [] approvals).mp (Except.ok.inj hread)
            exact .entries hentries hunique
        | null => cases hread
        | bool value => cases hread
        | int value => cases hread
        | float value => cases hread
        | str value => cases hread
        | obj value => cases hread

theorem Approves.unique {document : SkipDocument} {approvals : List ApprovedSkip}
    (happroves : Approves document approvals) :
    (approvals.map ApprovedSkip.identity).Nodup := by
  cases happroves with
  | absent => exact List.nodup_nil
  | entries _ hunique => exact hunique

/-! ### Decorators -/

/-- A recognised decorator the gate lets through: it is conditional, its condition is neither
`True` nor `False`, and its identity is approved for its reason. -/
structure Approved (approvals : List ApprovedSkip) (identity : PyStr) (use : SkipUse) : Prop where
  conditional : use.kind ≠ .skip
  condition : isBoolCondition use.condition = .ok false
  reason : ∃ reason, use.reason = some reason ∧ ⟨identity, reason⟩ ∈ approvals

/-- With one approval for an identity, the first is the one. -/
theorem find_approval {approvals : List ApprovedSkip} {identity : PyStr} {approval : ApprovedSkip}
    (hunique : (approvals.map ApprovedSkip.identity).Nodup) :
    approvals.find? (fun approval => approval.identity = identity) = some approval ↔
      approval ∈ approvals ∧ approval.identity = identity := by
  constructor
  · intro hfind
    exact ⟨List.mem_of_find?_eq_some hfind, by simpa using List.find?_some hfind⟩
  · intro ⟨hmem, hidentity⟩
    cases hfind : approvals.find? (fun approval => approval.identity = identity) with
    | none =>
        have hnone := List.find?_eq_none.mp hfind approval hmem
        simp [hidentity] at hnone
    | some found =>
        have hsame : found.identity = identity := by simpa using List.find?_some hfind
        have heq := List.inj_on_of_nodup_map hunique (List.mem_of_find?_eq_some hfind) hmem
          (hsame.trans hidentity.symm)
        rw [heq]

section

variable {approvals : List ApprovedSkip} {aliases : List (PyStr × PyStr)} {identity : PyStr}
variable {decorator : Node} {use : SkipUse}

/-- The verdict on an unconditional decorator. -/
theorem judge_skip (huse : skipDecorator decorator aliases = .ok (some use))
    (hkind : use.kind = .skip) :
    judge approvals aliases identity decorator = .ok (.reported (codes "unconditional-skip")) := by
  obtain ⟨kind, condition, reason⟩ := use
  cases hkind
  rw [judge, huse]

/-- The verdict on a conditional decorator. -/
theorem judge_conditional (huse : skipDecorator decorator aliases = .ok (some use))
    (hkind : use.kind ≠ .skip) :
    judge approvals aliases identity decorator =
      match isBoolCondition use.condition with
      | .error raised => .error raised
      | .ok true => .ok (.reported (codes "literal-skip-condition"))
      | .ok false =>
          match approvals.find? fun approval => approval.identity = identity with
          | none => .ok (.reported (codes "unapproved-skip"))
          | some approval =>
              if use.reason ≠ some approval.reason then
                .ok (.reported (codes "skip-reason-mismatch"))
              else .ok .approved := by
  obtain ⟨kind, condition, reason⟩ := use
  rw [judge, huse]
  cases kind with
  | skip => exact absurd rfl hkind
  | skipIf => rfl
  | skipUnless => rfl

/-- A recognised decorator passes when it is approved, and is not ignored. -/
theorem judge_approved (identity : PyStr) (hunique : (approvals.map ApprovedSkip.identity).Nodup)
    (huse : skipDecorator decorator aliases = .ok (some use)) :
    (judge approvals aliases identity decorator = .ok .approved ↔
        Approved approvals identity use) ∧
      judge approvals aliases identity decorator ≠ .ok .ignored := by
  by_cases hkind : use.kind = .skip
  · rw [judge_skip huse hkind]
    refine ⟨?_, nofun⟩
    simp only [Except.ok.injEq, reduceCtorEq, false_iff]
    intro happroved
    exact happroved.conditional hkind
  · rw [judge_conditional huse hkind]
    cases hliteral : isBoolCondition use.condition with
    | error raised =>
        refine ⟨?_, nofun⟩
        simp only [reduceCtorEq, false_iff]
        intro happroved
        rw [happroved.condition] at hliteral
        cases hliteral
    | ok isBool =>
        cases isBool with
        | true =>
            refine ⟨?_, nofun⟩
            simp only [Except.ok.injEq, reduceCtorEq, false_iff]
            intro happroved
            rw [happroved.condition] at hliteral
            cases hliteral
        | false =>
            cases hfind : approvals.find? fun approval => approval.identity = identity with
            | none =>
                refine ⟨?_, nofun⟩
                simp only [Except.ok.injEq, reduceCtorEq, false_iff]
                intro happroved
                obtain ⟨reason, _, hmem⟩ := happroved.reason
                have hother := List.find?_eq_none.mp hfind _ hmem
                simp at hother
            | some approval =>
                obtain ⟨hmem, hidentity⟩ := (find_approval hunique).mp hfind
                dsimp only
                by_cases hreason : use.reason = some approval.reason
                · rw [if_neg (not_not.mpr hreason)]
                  refine ⟨iff_of_true rfl ⟨hkind, hliteral, approval.reason, hreason, ?_⟩, nofun⟩
                  rw [← hidentity]
                  exact hmem
                · rw [if_pos hreason]
                  refine ⟨?_, nofun⟩
                  simp only [Except.ok.injEq, reduceCtorEq, false_iff]
                  intro happroved
                  obtain ⟨reason, hgiven, hlisted⟩ := happroved.reason
                  have hsame := (find_approval hunique).mpr ⟨hlisted, rfl⟩
                  rw [hfind] at hsame
                  cases hsame
                  exact hreason hgiven

/-- The scan reports no decorator that it does not recognise or that is approved. -/
theorem decoratorFindings_eq_nil {file : SourceFile} {candidate : Candidate}
    (hunique : (approvals.map ApprovedSkip.identity).Nodup) :
    decoratorFindings file approvals aliases candidate decorator = .ok [] ↔
      ∃ found, skipDecorator decorator aliases = .ok found ∧
        ∀ use, found = some use → Approved approvals candidate.identity use := by
  rw [decoratorFindings]
  cases hfound : skipDecorator decorator aliases with
  | error raised => simp [judge, hfound]
  | ok found =>
      cases found with
      | none => simp [judge, hfound]
      | some use =>
          obtain ⟨happroved, hseen⟩ := judge_approved candidate.identity hunique hfound
          simp only [Except.ok.injEq, exists_eq_left', Option.some.injEq, forall_eq', ← happroved]
          cases hjudge : judge approvals aliases candidate.identity decorator with
          | error raised => simp
          | ok verdict =>
              cases verdict with
              | ignored => exact absurd hjudge hseen
              | reported code => simp
              | approved => simp

end

/-! ### Modules -/

/-- What the gate asks of a module that parses. -/
structure FileRules (approvals : List ApprovedSkip) (file : SourceFile) (body : List Node) :
    Prop where
  imports : ∀ node ∈ walkAll body,
    codes "control_plane_kit" ∉ importRoots node ∧ codes "pytest" ∉ importRoots node
  handlers : file.inTestRoot = true → ∀ node ∈ walkAll body, swallows node = false
  nested : ∀ lineno name bases decorators classBody others,
    .classDef lineno name bases decorators classBody others ∈ body.flatMap below →
      isTestCase bases (testCaseAliases body) = false
  functions : file.inTestRoot = true → ∀ lineno name decorators functionBody others,
    .functionDef lineno name decorators functionBody others ∈ body →
      (codes "test").isPrefixOf name.text = false
  discovered : file.inTestRoot = true → ∀ testClass ∈ testClasses body,
    isDiscoverable file.name = true
  bodies : ∀ testClass ∈ testClasses body, ∀ method ∈ testMethods testClass.body,
    isPlaceholderBody method.body = false
  skips : ∀ testClass ∈ testClasses body, ∀ candidate ∈ candidates file testClass,
    ∀ decorator ∈ candidate.decorators, ∃ found,
      skipDecorator decorator (skipAliases body) = .ok found ∧
        ∀ use, found = some use → Approved approvals candidate.identity use

theorem findingIf_eq_nil {found : Bool} {finding : IntegrityFinding} :
    findingIf found finding = [] ↔ found = false := by
  cases found <;> simp [findingIf]

theorem nodeFindings_eq_nil {file : SourceFile} {node : Node} :
    nodeFindings file node = [] ↔
      (codes "control_plane_kit" ∉ importRoots node ∧ codes "pytest" ∉ importRoots node) ∧
        (file.inTestRoot = true → swallows node = false) := by
  simp only [nodeFindings, List.append_eq_nil_iff, findingIf_eq_nil, Bool.and_eq_false_imp,
    List.contains_eq_mem, decide_eq_false_iff_not]

theorem hiddenClassFindings_eq_nil {file : SourceFile} {body : List Node} :
    hiddenClassFindings file body = [] ↔
      ∀ lineno name bases decorators classBody others,
        .classDef lineno name bases decorators classBody others ∈ body.flatMap below →
          isTestCase bases (testCaseAliases body) = false := by
  rw [hiddenClassFindings, List.filterMap_eq_nil_iff]
  constructor
  · intro hnone lineno name bases decorators classBody others hmem
    have hclass := hnone _ hmem
    dsimp only at hclass
    by_cases hcase : isTestCase bases (testCaseAliases body) = true
    · rw [if_pos hcase] at hclass
      cases hclass
    · exact Bool.not_eq_true _ ▸ hcase
  · intro hall node hnode
    split
    · next lineno name bases decorators classBody others =>
        rw [if_neg]
        rw [hall lineno name bases decorators classBody others hnode]
        decide
    · rfl

theorem hiddenFunctionFindings_eq_nil {file : SourceFile} {body : List Node} :
    hiddenFunctionFindings file body = [] ↔
      (file.inTestRoot = true → ∀ lineno name decorators functionBody others,
        .functionDef lineno name decorators functionBody others ∈ body →
          (codes "test").isPrefixOf name.text = false) := by
  rw [hiddenFunctionFindings]
  by_cases hroot : file.inTestRoot = true
  · rw [if_pos hroot, List.filterMap_eq_nil_iff]
    constructor
    · intro hnone _ lineno name decorators functionBody others hmem
      have hfunction := hnone _ hmem
      dsimp only at hfunction
      by_cases htest : (codes "test").isPrefixOf name.text = true
      · rw [if_pos htest] at hfunction
        cases hfunction
      · exact Bool.not_eq_true _ ▸ htest
    · intro hall node hnode
      split
      · next lineno name decorators functionBody others =>
          rw [if_neg]
          rw [hall hroot lineno name decorators functionBody others hnode]
          decide
      · rfl
  · rw [if_neg hroot]
    exact iff_of_true rfl fun hin => absurd hin hroot

theorem candidateFindings_eq_nil {file : SourceFile} {approvals : List ApprovedSkip}
    {aliases : List (PyStr × PyStr)} {candidate : Candidate}
    (hunique : (approvals.map ApprovedSkip.identity).Nodup) :
    candidateFindings file approvals aliases candidate = .ok [] ↔
      ∀ decorator ∈ candidate.decorators, ∃ found,
        skipDecorator decorator aliases = .ok found ∧
          ∀ use, found = some use → Approved approvals candidate.identity use := by
  rw [candidateFindings, forEach_eq_nil]
  simp only [decoratorFindings_eq_nil hunique]

theorem classFindings_eq_nil {file : SourceFile} {approvals : List ApprovedSkip}
    {aliases : List (PyStr × PyStr)} {testClass : TestClass}
    (hunique : (approvals.map ApprovedSkip.identity).Nodup) :
    classFindings file approvals aliases testClass = .ok [] ↔
      (file.inTestRoot = true → isDiscoverable file.name = true) ∧
        (∀ method ∈ testMethods testClass.body, isPlaceholderBody method.body = false) ∧
          ∀ candidate ∈ candidates file testClass, ∀ decorator ∈ candidate.decorators,
            ∃ found, skipDecorator decorator aliases = .ok found ∧
              ∀ use, found = some use → Approved approvals candidate.identity use := by
  have hdiscovered : (file.inTestRoot && !isDiscoverable file.name) = false ↔
      (file.inTestRoot = true → isDiscoverable file.name = true) := by
    rw [Bool.and_eq_false_imp]
    simp
  have hskips : forEach (candidateFindings file approvals aliases) (candidates file testClass) =
      .ok [] ↔ ∀ candidate ∈ candidates file testClass, ∀ decorator ∈ candidate.decorators,
        ∃ found, skipDecorator decorator aliases = .ok found ∧
          ∀ use, found = some use → Approved approvals candidate.identity use := by
    simp only [forEach_eq_nil, candidateFindings_eq_nil hunique]
  rw [classFindings, map_eq_ok, ← hskips]
  simp only [List.append_eq_nil_iff, findingIf_eq_nil, List.flatMap_eq_nil_iff, hdiscovered]
  constructor
  · rintro ⟨found, hfound, ⟨hroot, hbodies⟩, rfl⟩
    exact ⟨hroot, hbodies, hfound⟩
  · rintro ⟨hroot, hbodies, hfound⟩
    exact ⟨[], hfound, ⟨hroot, hbodies⟩, rfl⟩

/-- A file is reported on unless it parses and keeps the rules. -/
theorem fileFindings_eq_nil {approvals : List ApprovedSkip} {file : SourceFile}
    (hunique : (approvals.map ApprovedSkip.identity).Nodup) :
    fileFindings approvals file = .ok [] ↔
      ∃ body, file.parsed = .ok body ∧ FileRules approvals file body := by
  rw [fileFindings]
  cases hparsed : file.parsed with
  | error fault => cases fault <;> simp
  | ok body =>
      simp only [map_eq_ok, List.append_eq_nil_iff, List.flatMap_eq_nil_iff, nodeFindings_eq_nil,
        hiddenClassFindings_eq_nil, hiddenFunctionFindings_eq_nil, Except.ok.injEq,
        exists_eq_left']
      constructor
      · rintro ⟨found, hfound, ⟨⟨hnodes, hnested⟩, rfl⟩, hfunctions⟩
        have hclasses := fun testClass hclass =>
          (classFindings_eq_nil hunique).mp (forEach_eq_nil.mp hfound testClass hclass)
        constructor
        · exact fun node hnode => (hnodes node hnode).1
        · exact fun hroot node hnode => (hnodes node hnode).2 hroot
        · exact hnested
        · exact hfunctions
        · exact fun hroot testClass hclass => (hclasses testClass hclass).1 hroot
        · exact fun testClass hclass => (hclasses testClass hclass).2.1
        · exact fun testClass hclass => (hclasses testClass hclass).2.2
      · intro hrules
        refine ⟨[], ?_, ⟨⟨?_, hrules.nested⟩, rfl⟩, hrules.functions⟩
        · apply forEach_eq_nil.mpr
          intro testClass hclass
          apply (classFindings_eq_nil hunique).mpr
          exact ⟨fun hroot => hrules.discovered hroot testClass hclass,
            hrules.bodies testClass hclass, hrules.skips testClass hclass⟩
        · exact fun node hnode => ⟨hrules.imports node hnode, fun hroot =>
            hrules.handlers hroot node hnode⟩

/-! ### The package -/

/-- The package has a class or a test of this identity with a decorator that the gate
recognises. -/
def Carries (package : Package) (identity : PyStr) (use : SkipUse) : Prop :=
  ∃ file ∈ package.files, ∃ testClass ∈ testClasses file.body,
    ∃ candidate ∈ candidates file testClass, candidate.identity = identity ∧
      ∃ decorator ∈ candidate.decorators,
        skipDecorator decorator (skipAliases file.body) = .ok (some use)

/-- What the gate asks of a package. -/
structure Clean (package : Package) : Prop where
  document : Approves package.document package.approvals
  files : ∀ file ∈ package.files, ∃ body, file.parsed = .ok body ∧
    FileRules package.approvals file body
  used : ∀ approval ∈ package.approvals, ∃ use, Carries package approval.identity use ∧
    Approved package.approvals approval.identity use
  gates : ∀ gateFile ∈ package.gateFiles, ∃ content, gateFile.content = .ok (some content) ∧
    ∀ line ∈ splitLines [] content, ∀ word ∈ lineWords package.alnum [] line,
      isProofChanging word = false

/-- In a package that keeps the rules every recognised decorator is approved. -/
theorem Clean.approved {package : Package} {identity : PyStr} {use : SkipUse}
    (hclean : Clean package) (hcarries : Carries package identity use) :
    Approved package.approvals identity use := by
  obtain ⟨file, hfile, testClass, hclass, candidate, hcandidate, rfl, decorator, hdecorator,
    huse⟩ := hcarries
  obtain ⟨body, hparsed, hrules⟩ := hclean.files file hfile
  have hbody : file.body = body := by rw [SourceFile.body, hparsed]
  rw [hbody] at hclass huse
  obtain ⟨found, hfound, happroves⟩ :=
    hrules.skips testClass hclass candidate hcandidate decorator hdecorator
  rw [huse] at hfound
  cases hfound
  exact happroves use rfl

/-- An identity is encountered when an approved decorator carries it. -/
theorem mem_encountered {package : Package} {identity : PyStr}
    (hunique : (package.approvals.map ApprovedSkip.identity).Nodup) :
    identity ∈ package.encountered ↔
      ∃ use, Carries package identity use ∧ Approved package.approvals identity use := by
  simp only [Package.encountered, fileEncountered, encountered, List.mem_flatMap,
    List.mem_filterMap]
  constructor
  · intro ⟨file, hfile, testClass, hclass, candidate, hcandidate, decorator, hdecorator, hfound⟩
    split at hfound
    · next happroved =>
        cases hfound
        cases hread : skipDecorator decorator (skipAliases file.body) with
        | error raised => simp [judge, hread] at happroved
        | ok read =>
            cases read with
            | none => simp [judge, hread] at happroved
            | some use =>
                exact ⟨use, ⟨file, hfile, testClass, hclass, candidate, hcandidate, rfl, decorator,
                  hdecorator, hread⟩, (judge_approved _ hunique hread).1.mp happroved⟩
    · cases hfound
  · rintro ⟨use, ⟨file, hfile, testClass, hclass, candidate, hcandidate, rfl, decorator,
      hdecorator, huse⟩, happroved⟩
    refine ⟨file, hfile, testClass, hclass, candidate, hcandidate, decorator, hdecorator, ?_⟩
    rw [if_pos ((judge_approved _ hunique huse).1.mpr happroved)]

theorem staleFindings_eq_nil {package : Package}
    (hunique : (package.approvals.map ApprovedSkip.identity).Nodup) :
    staleFindings package = [] ↔ ∀ approval ∈ package.approvals,
      ∃ use, Carries package approval.identity use ∧
        Approved package.approvals approval.identity use := by
  simp only [staleFindings, List.map_eq_nil_iff, List.filter_eq_nil_iff, Bool.not_eq_true',
    Bool.not_eq_false, List.contains_iff_mem, mem_encountered hunique]

theorem proofChanging_eq_nil {alnum : Nat → Bool} {content : PyStr} :
    proofChanging alnum content = [] ↔ ∀ line ∈ splitLines [] content,
      ∀ word ∈ lineWords alnum [] line, isProofChanging word = false := by
  have hlines : ((splitLines [] content).zipIdx 1).map Prod.fst = splitLines [] content :=
    List.zipIdx_map_fst 1 _
  simp only [proofChanging, List.flatMap_eq_nil_iff, List.map_eq_nil_iff, List.filter_eq_nil_iff,
    Bool.not_eq_true]
  conv_rhs => rw [← hlines]
  rw [List.forall_mem_map]

theorem gateFindings_eq_nil {alnum : Nat → Bool} {gateFile : GateFile} :
    gateFindings alnum gateFile = .ok [] ↔ ∃ content, gateFile.content = .ok (some content) ∧
      ∀ line ∈ splitLines [] content, ∀ word ∈ lineWords alnum [] line,
        isProofChanging word = false := by
  rw [gateFindings]
  cases gateFile.content with
  | error raised => simp
  | ok text =>
      cases text with
      | none => simp
      | some content =>
          simp only [forEach_eq_nil, Except.ok.injEq, Option.some.injEq, exists_eq_left',
            ← proofChanging_eq_nil]
          rw [List.eq_nil_iff_forall_not_mem]
          apply forall₂_congr
          intro found hfound
          cases gateFile.relative <;> simp

/-- The gate reports nothing. -/
def Silent (package : Package) : Prop :=
  ∃ report, inspectPackage package = .ok report ∧ report.findings = []

/-- The gate reports nothing exactly when its rules are kept. -/
theorem silent_iff {package : Package} : Silent package ↔ Clean package := by
  have hsilent : Silent package ↔ package.findings = .ok [] := by
    rw [Silent]
    simp only [inspectPackage, map_eq_ok]
    constructor
    · rintro ⟨report, ⟨findings, hfindings, rfl⟩, hnone⟩
      rw [sortedSet_eq_nil_iff.mp hnone] at hfindings
      exact hfindings
    · intro hfindings
      exact ⟨_, ⟨[], hfindings, rfl⟩, sortedSet_eq_nil_iff.mpr rfl⟩
  rw [hsilent, Package.findings]
  simp only [bind_eq_ok, Except.ok.injEq, List.append_eq_nil_iff]
  constructor
  · rintro ⟨⟨approvals, documented⟩, hdocument, found, hfiles, gated, hgates,
      ⟨⟨rfl, rfl⟩, hstale⟩, rfl⟩
    have happrovals : package.approvals = approvals := by rw [Package.approvals, hdocument]
    rw [← happrovals] at hdocument hfiles
    have happroves := approves_iff.mpr hdocument
    have hunique := happroves.unique
    exact ⟨happroves, fun file hfile => (fileFindings_eq_nil hunique).mp
        (forEach_eq_nil.mp hfiles file hfile), (staleFindings_eq_nil hunique).mp hstale,
      fun gateFile hgate => gateFindings_eq_nil.mp (forEach_eq_nil.mp hgates gateFile hgate)⟩
  · intro hclean
    have hunique := hclean.document.unique
    refine ⟨_, approves_iff.mp hclean.document, [], ?_, [], ?_, ⟨⟨rfl, rfl⟩, ?_⟩, rfl⟩
    · exact forEach_eq_nil.mpr fun file hfile =>
        (fileFindings_eq_nil hunique).mpr (hclean.files file hfile)
    · exact forEach_eq_nil.mpr fun gateFile hgate =>
        gateFindings_eq_nil.mpr (hclean.gates gateFile hgate)
    · exact (staleFindings_eq_nil hunique).mpr hclean.used

/-! ### A package of one test -/

/-- `unittest.name`. -/
def ofUnittest (name : Ident) : Node :=
  .attribute (.name ⟨codes "unittest", by decide, by decide⟩) name

/-- The method `test_value` of a package of one test, under a decorator. -/
def oneTest (decorator : Node) : Node :=
  .functionDef 5 ⟨codes "test_value", by decide, by decide⟩ [decorator]
    [.expr (.call 6 (.name ⟨codes "check", by decide, by decide⟩) [] [])] []

/-- The class `ExampleTests` in `tests/test_example.py`, a `unittest.TestCase`. -/
def oneTestFile (decorator : Node) : SourceFile where
  relative := codes "tests/test_example.py"
  name := codes "test_example.py"
  inTestRoot := true
  parsed := .ok [
    .importModules 1 [⟨codes "unittest", none⟩],
    .classDef 3 ⟨codes "ExampleTests", by decide, by decide⟩
      [ofUnittest ⟨codes "TestCase", by decide, by decide⟩] [] [oneTest decorator] []]

def oneTestPackage (document : SkipDocument) (decorator : Node) : Package where
  document := document
  files := [oneTestFile decorator]
  gateFiles := []
  alnum := fun _ => false

end PackageIntegrity
