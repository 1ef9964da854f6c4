/-
The approved skips against the decorators: what a report without findings says of both, what is
reported of an entry or a decorator that has no counterpart, what ends the gate without a report,
and the kind of literal condition that the gate lets an approval cover.
-/
import SecretsCustody.SkipApprovals

namespace PackageIntegrity

open Effect JsonText PythonSyntax

/-! ### Exceptions -/

/-- What makes the gate end without a report: a document, a file or a gate file that raises what
no clause catches, an integer in a reason or a condition that is too large to become a float, or
a proof-changing name in a gate file outside of the package. -/
inductive Stops (package : Package) : Prop
  | document {name : PyStr} {raised : Uncaught} (hdocument : package.document = .raising name raised)
  | file {file : SourceFile} {raised : Uncaught} (hfile : file ∈ package.files)
      (hparsed : file.parsed = .error (.uncaught raised))
  | decorator {file : SourceFile} {testClass : TestClass} {candidate : Candidate}
      {decorator : Node} (hfile : file ∈ package.files)
      (hclass : testClass ∈ testClasses file.body)
      (hcandidate : candidate ∈ candidates file testClass)
      (hdecorator : decorator ∈ candidate.decorators)
      (hraises : (∃ raised, skipDecorator decorator (skipAliases file.body) = .error raised) ∨
        ∃ use, skipDecorator decorator (skipAliases file.body) = .ok (some use) ∧
          use.kind ≠ .skip ∧ ∃ raised, isBoolCondition use.condition = .error raised)
      : Stops package
  | gateFile {gateFile : GateFile} {raised : Uncaught} (hgate : gateFile ∈ package.gateFiles)
      (hcontent : gateFile.content = .error raised)
  | gateName {gateFile : GateFile} {content : PyStr} (hgate : gateFile ∈ package.gateFiles)
      (hcontent : gateFile.content = .ok (some content))
      (hnames : proofChanging package.alnum content ≠ []) (houtside : gateFile.relative = none)

theorem judge_raises {approvals : List ApprovedSkip} {aliases : List (PyStr × PyStr)}
    {identity : PyStr} {decorator : Node} :
    (∃ raised, judge approvals aliases identity decorator = .error raised) ↔
      (∃ raised, skipDecorator decorator aliases = .error raised) ∨
        ∃ use, skipDecorator decorator aliases = .ok (some use) ∧ use.kind ≠ .skip ∧
          ∃ raised, isBoolCondition use.condition = .error raised := by
  cases hread : skipDecorator decorator aliases with
  | error raised => simp [judge, hread]
  | ok found =>
      cases found with
      | none => simp [judge, hread]
      | some use =>
          by_cases hkind : use.kind = .skip
          · simp [judge_skip hread hkind, hkind]
          · rw [judge_conditional hread hkind]
            cases hcondition : isBoolCondition use.condition with
            | error raised => simp [hkind, hcondition]
            | ok isBool =>
                cases isBool with
                | true => simp [hcondition]
                | false =>
                    cases approvals.find? fun approval => approval.identity = identity with
                    | none => simp [hcondition]
                    | some approval =>
                        by_cases hreason : use.reason = some approval.reason
                        · simp [hcondition, hreason]
                        · simp [hcondition, hreason]

theorem classFindings_raises {file : SourceFile} {approvals : List ApprovedSkip}
    {aliases : List (PyStr × PyStr)} {testClass : TestClass} :
    (∃ raised, classFindings file approvals aliases testClass = .error raised) ↔
      ∃ candidate ∈ candidates file testClass, ∃ decorator ∈ candidate.decorators,
        ∃ raised, judge approvals aliases candidate.identity decorator = .error raised := by
  have hdecorator : ∀ candidate decorator,
      (∃ raised, decoratorFindings file approvals aliases candidate decorator = .error raised) ↔
        ∃ raised, judge approvals aliases candidate.identity decorator = .error raised := by
    intro candidate decorator
    rw [decoratorFindings]
    cases judge approvals aliases candidate.identity decorator with
    | error raised => simp
    | ok verdict => cases verdict <;> simp
  rw [classFindings, map_raises, forEach_raises]
  simp only [candidateFindings, forEach_raises, hdecorator]

theorem fileFindings_raises {approvals : List ApprovedSkip} {file : SourceFile} :
    (∃ raised, fileFindings approvals file = .error raised) ↔
      (∃ raised, file.parsed = .error (.uncaught raised)) ∨
        ∃ testClass ∈ testClasses file.body, ∃ candidate ∈ candidates file testClass,
          ∃ decorator ∈ candidate.decorators, ∃ raised,
            judge approvals (skipAliases file.body) candidate.identity decorator =
              .error raised := by
  rw [fileFindings, SourceFile.body]
  cases file.parsed with
  | error fault => cases fault <;> simp [testClasses]
  | ok body =>
      dsimp only
      rw [map_raises, forEach_raises]
      simp only [classFindings_raises, reduceCtorEq, exists_false, false_or]

theorem gateFindings_raises {alnum : Nat → Bool} {gateFile : GateFile} :
    (∃ raised, gateFindings alnum gateFile = .error raised) ↔
      (∃ raised, gateFile.content = .error raised) ∨
        ∃ content, gateFile.content = .ok (some content) ∧ proofChanging alnum content ≠ [] ∧
          gateFile.relative = none := by
  rw [gateFindings]
  cases gateFile.content with
  | error raised => simp
  | ok text =>
      cases text with
      | none => simp
      | some content =>
          simp only [forEach_raises, Except.ok.injEq, Option.some.injEq, exists_eq_left',
            reduceCtorEq, exists_false, false_or]
          cases gateFile.relative with
          | none => simp [List.eq_nil_iff_forall_not_mem]
          | some relative => simp

/-- The gate ends without a report exactly when it meets what no clause catches. -/
theorem stops_iff {package : Package} :
    (∃ raised, inspectPackage package = .error raised) ↔ Stops package := by
  rw [inspectPackage, map_raises, Package.findings, bind_raises]
  constructor
  · rintro (⟨raised, hdocument⟩ | ⟨⟨approvals, documented⟩, hdocument, hrest⟩)
    · rcases readApprovedSkips_split package.document with ⟨others, hread⟩ | ⟨name, _, hraising⟩
      · rw [hread] at hdocument
        cases hdocument
      · exact .document hraising
    · rcases bind_raises.mp hrest with hfiles | ⟨found, _, hrest⟩
      · obtain ⟨file, hfile, hraises⟩ := forEach_raises.mp hfiles
        rcases fileFindings_raises.mp hraises with ⟨raised, hparsed⟩ | ⟨testClass, hclass,
          candidate, hcandidate, decorator, hdecorator, hjudge⟩
        · exact .file hfile hparsed
        · exact .decorator hfile hclass hcandidate hdecorator (judge_raises.mp hjudge)
      · rcases bind_raises.mp hrest with hgates | ⟨gated, _, raised, hreturned⟩
        · obtain ⟨gateFile, hgate, hraises⟩ := forEach_raises.mp hgates
          rcases gateFindings_raises.mp hraises with ⟨raised, hcontent⟩ | ⟨content, hcontent,
            hnames, houtside⟩
          · exact .gateFile hgate hcontent
          · exact .gateName hgate hcontent hnames houtside
        · cases hreturned
  · intro hstops
    cases hdocument : readApprovedSkips package.document with
    | error raised => exact Or.inl ⟨raised, rfl⟩
    | ok read =>
        obtain ⟨approvals, documented⟩ := read
        refine Or.inr ⟨_, rfl, bind_raises.mpr ?_⟩
        cases hfound : forEach (fileFindings approvals) package.files with
        | error raised => exact Or.inl ⟨raised, rfl⟩
        | ok found =>
            refine Or.inr ⟨found, rfl, bind_raises.mpr (Or.inl ?_)⟩
            have hfiles : ∀ file ∈ package.files,
                ¬ ∃ raised, fileFindings approvals file = .error raised := by
              intro file hfile hraises
              obtain ⟨raised, hloop⟩ := forEach_raises.mpr ⟨file, hfile, hraises⟩
              rw [hfound] at hloop
              cases hloop
            cases hstops with
            | document hraising =>
                rw [hraising] at hdocument
                cases hdocument
            | file hfile hparsed =>
                exact absurd (fileFindings_raises.mpr (Or.inl ⟨_, hparsed⟩)) (hfiles _ hfile)
            | decorator hfile hclass hcandidate hdecorator hraises =>
                exact absurd (fileFindings_raises.mpr (Or.inr ⟨_, hclass, _, hcandidate, _,
                  hdecorator, judge_raises.mpr hraises⟩)) (hfiles _ hfile)
            | gateFile hgate hcontent =>
                exact forEach_raises.mpr
                  ⟨_, hgate, gateFindings_raises.mpr (Or.inl ⟨_, hcontent⟩)⟩
            | gateName hgate hcontent hnames houtside =>
                exact forEach_raises.mpr
                  ⟨_, hgate, gateFindings_raises.mpr (Or.inr ⟨_, hcontent, hnames, houtside⟩)⟩

/-! ### Findings -/

/-- The gate ends with a report that has a finding. -/
def Reports (package : Package) (finding : IntegrityFinding) : Prop :=
  ∃ report, inspectPackage package = .ok report ∧ finding ∈ report.findings

section

variable {package : Package} {finding : IntegrityFinding}

/-- Without an exception the gate reports what it finds. -/
theorem reports_of_findings (hreturns : ¬ Stops package)
    (hfinding : ∀ findings, package.findings = .ok findings → finding ∈ findings) :
    Reports package finding := by
  cases hfindings : package.findings with
  | error raised =>
      refine absurd (stops_iff.mp ⟨raised, ?_⟩) hreturns
      rw [inspectPackage, hfindings]
      rfl
  | ok findings =>
      refine ⟨_, congrArg (Except.map _) hfindings, ?_⟩
      exact mem_sortedSet.mpr (hfinding findings hfindings)

/-- The parts that the findings are made of. -/
theorem findings_parts {findings : List IntegrityFinding}
    (hfindings : package.findings = .ok findings) :
    ∃ documented found gated,
      readApprovedSkips package.document = .ok (package.approvals, documented) ∧
        forEach (fileFindings package.approvals) package.files = .ok found ∧
          findings = documented ++ found ++ staleFindings package ++ gated := by
  rw [Package.findings] at hfindings
  obtain ⟨⟨approvals, documented⟩, hdocument, hrest⟩ := bind_eq_ok.mp hfindings
  obtain ⟨found, hfiles, hrest⟩ := bind_eq_ok.mp hrest
  obtain ⟨gated, _, hreturned⟩ := bind_eq_ok.mp hrest
  have happrovals : package.approvals = approvals := by rw [Package.approvals, hdocument]
  cases hreturned
  rw [← happrovals] at hdocument hfiles
  exact ⟨documented, found, gated, hdocument, hfiles, rfl⟩

theorem reports_of_document (hreturns : ¬ Stops package)
    (hfinding : ∀ approvals findings,
      readApprovedSkips package.document = .ok (approvals, findings) → finding ∈ findings) :
    Reports package finding := by
  apply reports_of_findings hreturns
  intro findings hfindings
  obtain ⟨documented, found, gated, hdocument, _, rfl⟩ := findings_parts hfindings
  simp only [List.mem_append]
  exact Or.inl (Or.inl (Or.inl (hfinding _ _ hdocument)))

theorem reports_of_entries (hreturns : ¬ Stops package) (hfinding : finding ∈
    (readEntries package.document.name 1 [] (entries package.document)).2) :
    Reports package finding := by
  apply reports_of_document hreturns
  intro approvals findings hdocument
  rcases readApprovedSkips_split package.document with ⟨others, hread⟩ | ⟨name, raised, hraising⟩
  · rw [hread] at hdocument
    cases hdocument
    exact List.mem_append_left _ hfinding
  · exact absurd (.document hraising) hreturns

theorem reports_of_stale (hreturns : ¬ Stops package)
    (hfinding : finding ∈ staleFindings package) : Reports package finding := by
  apply reports_of_findings hreturns
  intro findings hfindings
  obtain ⟨documented, found, gated, _, _, rfl⟩ := findings_parts hfindings
  simp only [List.mem_append]
  exact Or.inl (Or.inr hfinding)

/-- A decorator that is reported gives a finding of its file. -/
theorem reports_of_decorator {file : SourceFile} {testClass : TestClass} {candidate : Candidate}
    {decorator : Node} {code : PyStr} (hreturns : ¬ Stops package) (hfile : file ∈ package.files)
    (hclass : testClass ∈ testClasses file.body) (hcandidate : candidate ∈ candidates file testClass)
    (hdecorator : decorator ∈ candidate.decorators)
    (hjudge : judge package.approvals (skipAliases file.body) candidate.identity decorator =
      .ok (.reported code)) :
    Reports package ⟨file.relative, candidate.lineno, code, candidate.identity⟩ := by
  apply reports_of_findings hreturns
  intro findings hfindings
  obtain ⟨documented, found, gated, _, hfound, rfl⟩ := findings_parts hfindings
  obtain ⟨part, hpart⟩ := forEach_returns hfound hfile
  have hmem : ⟨file.relative, candidate.lineno, code, candidate.identity⟩ ∈ part := by
    rw [fileFindings] at hpart
    rw [SourceFile.body] at hclass hjudge
    cases hparsed : file.parsed with
    | error fault =>
        rw [hparsed] at hclass
        cases hclass
    | ok body =>
        rw [hparsed] at hclass hjudge hpart
        obtain ⟨classes, hclasses, rfl⟩ := map_eq_ok.mp hpart
        obtain ⟨ofClass, hofClass⟩ := forEach_returns hclasses hclass
        have hin := hofClass
        rw [classFindings] at hin
        obtain ⟨skips, hskips, rfl⟩ := map_eq_ok.mp hin
        obtain ⟨ofCandidate, hofCandidate⟩ := forEach_returns hskips hcandidate
        have hfinding := mem_forEach hofCandidate hdecorator
          (by rw [decoratorFindings, hjudge]) (List.mem_singleton_self _)
        have hskip := mem_forEach hskips hcandidate hofCandidate hfinding
        have hfinding := mem_forEach hclasses hclass hofClass (List.mem_append_right _ hskip)
        simp only [List.mem_append]
        exact Or.inl (Or.inr hfinding)
  simp only [List.mem_append]
  exact Or.inl (Or.inl (Or.inr (mem_forEach hfound hfile hpart hmem)))

end

/-- What a recognised decorator that is not approved is reported as. -/
def skipFindingCodes : List PyStr :=
  [codes "unconditional-skip", codes "literal-skip-condition", codes "unapproved-skip",
    codes "skip-reason-mismatch"]

theorem judge_code {approvals : List ApprovedSkip} {aliases : List (PyStr × PyStr)}
    {identity code : PyStr} {decorator : Node}
    (hjudge : judge approvals aliases identity decorator = .ok (.reported code)) :
    code ∈ skipFindingCodes := by
  rw [judge] at hjudge
  split at hjudge
  · cases hjudge
  · cases hjudge
  · cases hjudge
    exact List.mem_cons_self
  · split at hjudge
    · cases hjudge
    · cases hjudge
      simp [skipFindingCodes]
    · split at hjudge
      · cases hjudge
        simp [skipFindingCodes]
      · split at hjudge
        · cases hjudge
          simp [skipFindingCodes]
        · cases hjudge

/-- A recognised decorator that is not approved is reported under its identity. -/
theorem reported_of_not_approved {package : Package} {identity : PyStr} {use : SkipUse}
    (hreturns : ¬ Stops package) (hcarries : Carries package identity use)
    (hnot : ¬ Approved package.approvals identity use) :
    ∃ finding, Reports package finding ∧ finding.message = identity ∧
      finding.code ∈ skipFindingCodes := by
  obtain ⟨file, hfile, testClass, hclass, candidate, hcandidate, rfl, decorator, hdecorator,
    huse⟩ := hcarries
  obtain ⟨happroved, hseen⟩ := judge_approved candidate.identity
    (approvals_unique package) huse
  cases hjudge : judge package.approvals (skipAliases file.body) candidate.identity decorator with
  | error raised =>
      exact absurd (.decorator hfile hclass hcandidate hdecorator
        (judge_raises.mp ⟨raised, hjudge⟩)) hreturns
  | ok verdict =>
      cases verdict with
      | ignored => exact absurd hjudge hseen
      | approved => exact absurd (happroved.mp hjudge) hnot
      | reported code =>
          exact ⟨_, reports_of_decorator hreturns hfile hclass hcandidate hdecorator hjudge, rfl,
            judge_code hjudge⟩

/-! ### The account -/

/-- What a report without findings says: the approved identities are those of the document, each
once and each on a recognised decorator whose condition is no literal and whose reason is the
one approved; and no other class or test has a recognised decorator. -/
structure Matched (package : Package) (report : IntegrityReport) : Prop where
  single : (documentIdentities package.document).Nodup
  approved : ∀ identity, identity ∈ report.approvedSkipIdentities ↔
    identity ∈ documentIdentities package.document
  carried : ∀ identity ∈ report.approvedSkipIdentities,
    ∃ use condition reason, Carries package identity use ∧ use.kind ≠ .skip ∧
      use.condition = some condition ∧ ¬ Literal condition ∧ use.reason = some reason ∧
        Lists package.document identity reason
  owners : ∀ identity use, Carries package identity use →
    identity ∈ report.approvedSkipIdentities

/-- A document that is there and is no list of entries. -/
def Unread : SkipDocument → Prop
  | .absent => False
  | .parsed _ (.arr _) => False
  | _ => True

/-- Two entries of a document are well formed with one identity, the later at this position. -/
def Doubled (document : SkipDocument) (position : Nat) (identity : PyStr) : Prop :=
  ∃ earlier first item left right, earlier < position ∧
    (entries document)[earlier]? = some first ∧ WellFormed first identity left ∧
      (entries document)[position]? = some item ∧ WellFormed item identity right

/-- What is reported: a document that is no list, an entry that is not well formed, the later of
two entries with one identity, an entry that no decorator has with its reason, and a decorator
that no entry has with its reason. -/
structure Reported (package : Package) : Prop where
  unread : Unread package.document →
    ∃ finding, Reports package finding ∧ finding.code = codes "invalid-skip-approval"
  malformed : ∀ position item, (entries package.document)[position]? = some item →
    (∀ identity reason, ¬ WellFormed item identity reason) →
      ∃ message, Reports package
        ⟨package.document.name, position + 1, codes "invalid-skip-approval", message⟩
  duplicate : ∀ position identity, Doubled package.document position identity →
    Reports package
      ⟨package.document.name, position + 1, codes "duplicate-skip-approval", identity⟩
  stale : ∀ item ∈ entries package.document, ∀ identity reason, WellFormed item identity reason →
    (∀ use, Carries package identity use → use.reason ≠ some reason) →
      ∃ finding, Reports package finding ∧ finding.message = identity ∧
        finding.code ∈ [codes "stale-skip-approval", codes "duplicate-skip-approval"]
  unlisted : ∀ identity use, Carries package identity use →
    (∀ reason, use.reason = some reason → ¬ Lists package.document identity reason) →
      ∃ finding, Reports package finding ∧ finding.message = identity ∧
        finding.code ∈ skipFindingCodes

/-- Skips are accounted for. -/
structure SkipsAccounted (package : Package) : Prop where
  matched : ∀ report, inspectPackage package = .ok report → report.findings = [] →
    Matched package report
  reported : Reported package

/-- The entries and the decorators have nothing that is to be reported: the document is a list of
well-formed entries with one identity each, there is a decorator for each entry, and an entry for
each decorator. -/
structure Settled (package : Package) : Prop where
  read : ¬ Unread package.document
  formed : ∀ item ∈ entries package.document, ∃ identity reason, WellFormed item identity reason
  single : ∀ position identity, ¬ Doubled package.document position identity
  used : ∀ item ∈ entries package.document, ∀ identity reason, WellFormed item identity reason →
    ∃ use, Carries package identity use ∧ use.reason = some reason
  listed : ∀ identity use, Carries package identity use →
    ∃ reason, use.reason = some reason ∧ Lists package.document identity reason

/-- Every identity in the document is on a recognised decorator whose condition is no
literal. -/
def Conditioned (package : Package) : Prop :=
  ∀ identity ∈ documentIdentities package.document, ∃ use condition,
    Carries package identity use ∧ use.condition = some condition ∧ ¬ Literal condition

theorem mem_approvedSkipIdentities {package : Package} {report : IntegrityReport}
    {identity : PyStr} (hreport : inspectPackage package = .ok report) :
    identity ∈ report.approvedSkipIdentities ↔
      ∃ use, Carries package identity use ∧ Approved package.approvals identity use := by
  obtain ⟨findings, _, rfl⟩ := map_eq_ok.mp hreport
  exact mem_sortedSet.trans (mem_encountered (approvals_unique package))

/-- In a package that keeps the rules the approved identities are those of the document. -/
theorem Clean.identities {package : Package} {report : IntegrityReport} {identity : PyStr}
    (hclean : Clean package) (hreport : inspectPackage package = .ok report) :
    identity ∈ report.approvedSkipIdentities ↔
      identity ∈ documentIdentities package.document := by
  rw [mem_approvedSkipIdentities hreport, hclean.document.identities]
  constructor
  · intro ⟨use, _, happroved⟩
    obtain ⟨reason, _, hmem⟩ := happroved.reason
    exact List.mem_map_of_mem hmem
  · intro hmem
    obtain ⟨approval, happroval, rfl⟩ := List.mem_map.mp hmem
    exact hclean.used approval happroval

/-- A report without findings matches the document and the decorators when every identity is on
a decorator whose condition is no literal. -/
theorem Clean.matched {package : Package} {report : IntegrityReport} (hclean : Clean package)
    (hreport : inspectPackage package = .ok report) :
    Matched package report ↔ Conditioned package := by
  constructor
  · intro hmatched identity hidentity
    obtain ⟨use, condition, _, hcarries, _, hcondition, hliteral, _⟩ :=
      hmatched.carried identity ((hclean.identities hreport).mpr hidentity)
    exact ⟨use, condition, hcarries, hcondition, hliteral⟩
  · intro hconditioned
    refine ⟨?_, fun identity => hclean.identities hreport, ?_, ?_⟩
    · rw [hclean.document.identities]
      exact hclean.document.unique
    · intro identity hidentity
      obtain ⟨use, condition, hcarries, hcondition, hliteral⟩ :=
        hconditioned identity ((hclean.identities hreport).mp hidentity)
      have happroved := hclean.approved hcarries
      obtain ⟨reason, hreason, hmem⟩ := happroved.reason
      exact ⟨use, condition, reason, hcarries, happroved.conditional, hcondition, hliteral,
        hreason, lists_of_mem hmem⟩
    · intro identity use hcarries
      exact (mem_approvedSkipIdentities hreport).mpr ⟨use, hcarries, hclean.approved hcarries⟩

/-! ### Reports -/

/-- The later of two entries with one identity is reported. -/
theorem reported_duplicate {package : Package} {position : Nat} {identity : PyStr}
    (hreturns : ¬ Stops package) (hdoubled : Doubled package.document position identity) :
    Reports package
      ⟨package.document.name, position + 1, codes "duplicate-skip-approval", identity⟩ := by
  obtain ⟨earlier, first, item, left, right, hbefore, hfirst, hleft, hitem, hright⟩ := hdoubled
  apply reports_of_entries hreturns
  rw [Nat.add_comm]
  have hread : readEntry first = .ok ⟨identity, left⟩ := readEntry_ok_iff.mpr hleft
  have hlater : readEntry item = .ok ⟨identity, right⟩ := readEntry_ok_iff.mpr hright
  exact readEntries_duplicate hbefore hfirst hread hitem hlater rfl

/-- An entry that is read is approved, if not for its reason then for another's. -/
theorem approved_of_entry {package : Package} {item : Json} {identity reason : PyStr}
    (hitem : item ∈ entries package.document) (hentry : WellFormed item identity reason) :
    ∃ kept, ⟨identity, kept⟩ ∈ package.approvals := by
  have hread : readEntry item = .ok ⟨identity, reason⟩ := readEntry_ok_iff.mpr hentry
  have hcovers : identity ∈ ([] : List PyStr) ∨
      ∃ kept ∈ (readEntries package.document.name 1 [] (entries package.document)).1,
        kept.identity = identity := readEntries_covers hitem hread
  rcases hcovers with hseen | ⟨kept, hkept, hsame⟩
  · cases hseen
  · refine ⟨kept.reason, ?_⟩
    rw [← hsame, approvals_eq]
    exact hkept

/-- An approval whose reason no decorator of its identity has is reported. -/
theorem reported_unused {package : Package} {identity reason : PyStr}
    (hreturns : ¬ Stops package) (hmem : ⟨identity, reason⟩ ∈ package.approvals)
    (hunused : ∀ use, Carries package identity use → use.reason ≠ some reason) :
    Reports package ⟨package.document.name, 1, codes "stale-skip-approval", identity⟩ := by
  apply reports_of_stale hreturns
  apply List.mem_map.mpr ⟨_, List.mem_filter.mpr ⟨hmem, ?_⟩, rfl⟩
  rw [Bool.not_eq_true', ← Bool.not_eq_true, List.contains_iff_mem,
    mem_encountered (approvals_unique package)]
  intro ⟨use, hcarries, happroved⟩
  obtain ⟨found, hfound, hlisted⟩ := happroved.reason
  apply hunused use hcarries
  rw [hfound, approval_unique hlisted hmem]

/-- An entry whose reason no decorator of its identity has is reported: as stale, or, where its
identity is approved for the reason of another entry, one of the two as a duplicate. -/
theorem reported_stale {package : Package} {item : Json} {identity reason : PyStr}
    (hreturns : ¬ Stops package) (hitem : item ∈ entries package.document)
    (hentry : WellFormed item identity reason)
    (hunused : ∀ use, Carries package identity use → use.reason ≠ some reason) :
    ∃ finding, Reports package finding ∧ finding.message = identity ∧
      finding.code ∈ [codes "stale-skip-approval", codes "duplicate-skip-approval"] := by
  obtain ⟨kept, hkept⟩ := approved_of_entry hitem hentry
  by_cases hreason : kept = reason
  · rw [hreason] at hkept
    exact ⟨_, reported_unused hreturns hkept hunused, rfl, List.mem_cons_self⟩
  · obtain ⟨other, hother, hgiven⟩ := entry_of_mem hkept
    obtain ⟨place, hplace⟩ := List.mem_iff_getElem?.mp hitem
    obtain ⟨position, hposition⟩ := List.mem_iff_getElem?.mp hother
    have hcode : codes "duplicate-skip-approval" ∈
        [codes "stale-skip-approval", codes "duplicate-skip-approval"] := by
      simp
    rcases Nat.lt_trichotomy place position with hlt | rfl | hgt
    · exact ⟨_, reported_duplicate hreturns
        ⟨_, _, _, _, _, hlt, hplace, hentry, hposition, hgiven⟩, rfl, hcode⟩
    · rw [hplace] at hposition
      cases hposition
      have hsame := hentry.reasonGiven.symm.trans hgiven.reasonGiven
      cases hsame
      exact absurd rfl hreason
    · exact ⟨_, reported_duplicate hreturns
        ⟨_, _, _, _, _, hgt, hposition, hgiven, hplace, hentry⟩, rfl, hcode⟩

/-- A document that is no list of entries is reported. -/
theorem reported_unread {package : Package} (hreturns : ¬ Stops package)
    (hunread : Unread package.document) :
    ∃ finding, Reports package finding ∧ finding.code = codes "invalid-skip-approval" := by
  cases hdocument : package.document with
  | absent =>
      rw [hdocument] at hunread
      cases hunread
  | raising name raised => exact absurd (.document hdocument) hreturns
  | unreadable name error =>
      refine ⟨⟨name, 1, codes "invalid-skip-approval", error⟩, ?_, rfl⟩
      apply reports_of_document hreturns
      intro approvals findings hread
      rw [hdocument] at hread
      cases hread
      exact List.mem_cons_self
  | parsed name value =>
      refine ⟨⟨name, 1, codes "invalid-skip-approval",
        codes "approved skip document must be a JSON list"⟩, ?_, rfl⟩
      apply reports_of_document hreturns
      intro approvals findings hread
      rw [hdocument] at hread hunread
      cases value with
      | arr items => cases hunread
      | null =>
          cases hread
          exact List.mem_cons_self
      | bool value =>
          cases hread
          exact List.mem_cons_self
      | int value =>
          cases hread
          exact List.mem_cons_self
      | float value =>
          cases hread
          exact List.mem_cons_self
      | str value =>
          cases hread
          exact List.mem_cons_self
      | obj value =>
          cases hread
          exact List.mem_cons_self

/-- If the gate ends with a report, what has no counterpart is reported. -/
theorem reported_of_returns {package : Package} (hreturns : ¬ Stops package) :
    Reported package := by
  constructor
  · exact reported_unread hreturns
  · intro position item hitem hmalformed
    obtain ⟨message, hread⟩ := readEntry_malformed hmalformed
    refine ⟨message, reports_of_entries hreturns ?_⟩
    rw [Nat.add_comm]
    exact readEntries_malformed hitem hread
  · exact fun position identity hdoubled => reported_duplicate hreturns hdoubled
  · exact fun item hitem identity reason hentry hunused =>
      reported_stale hreturns hitem hentry hunused
  · intro identity use hcarries hunlisted
    apply reported_of_not_approved hreturns hcarries
    intro happroved
    obtain ⟨reason, hreason, hmem⟩ := happroved.reason
    exact hunlisted reason hreason (lists_of_mem hmem)

/-- If the gate ends without a report, nothing was to be reported. -/
theorem reported_of_stops {package : Package} (hstops : Stops package) :
    Reported package ↔ Settled package := by
  obtain ⟨raised, hraised⟩ := stops_iff.mpr hstops
  have hnone : ∀ finding, ¬ Reports package finding := by
    rintro finding ⟨report, hreport, _⟩
    rw [hraised] at hreport
    cases hreport
  constructor
  · intro hreported
    constructor
    · intro hunread
      obtain ⟨finding, hfinding, _⟩ := hreported.unread hunread
      exact hnone finding hfinding
    · intro item hitem
      by_contra hmalformed
      obtain ⟨position, hposition⟩ := List.mem_iff_getElem?.mp hitem
      obtain ⟨message, hfinding⟩ := hreported.malformed position item hposition
        fun identity reason hentry => hmalformed ⟨identity, reason, hentry⟩
      exact hnone _ hfinding
    · exact fun position identity hdoubled =>
        hnone _ (hreported.duplicate position identity hdoubled)
    · intro item hitem identity reason hentry
      by_contra hunused
      obtain ⟨finding, hfinding, _⟩ := hreported.stale item hitem identity reason hentry
        fun use hcarries hreason => hunused ⟨use, hcarries, hreason⟩
      exact hnone finding hfinding
    · intro identity use hcarries
      by_contra hunlisted
      obtain ⟨finding, hfinding, _⟩ := hreported.unlisted identity use hcarries
        fun reason hreason hlists => hunlisted ⟨reason, hreason, hlists⟩
      exact hnone finding hfinding
  · intro hsettled
    constructor
    · exact fun hunread => absurd hunread hsettled.read
    · intro position item hitem hmalformed
      obtain ⟨identity, reason, hentry⟩ := hsettled.formed item (List.mem_of_getElem? hitem)
      exact absurd hentry (hmalformed identity reason)
    · exact fun position identity hdoubled =>
        absurd hdoubled (hsettled.single position identity)
    · intro item hitem identity reason hentry hunused
      obtain ⟨use, hcarries, hreason⟩ := hsettled.used item hitem identity reason hentry
      exact absurd hreason (hunused use hcarries)
    · intro identity use hcarries hunlisted
      obtain ⟨reason, hreason, hlists⟩ := hsettled.listed identity use hcarries
      exact absurd hlists (hunlisted reason hreason)

/-- Skips are accounted for exactly when a package on which the gate ends without a report has
nothing to be reported, and a package that keeps its rules has every identity of its document on
a decorator whose condition is no literal. -/
theorem skipsAccounted_iff (package : Package) :
    SkipsAccounted package ↔
      (Stops package → Settled package) ∧ (Clean package → Conditioned package) := by
  constructor
  · intro haccounted
    refine ⟨fun hstops => (reported_of_stops hstops).mp haccounted.reported, ?_⟩
    intro hclean
    obtain ⟨report, hreport, hnone⟩ := silent_iff.mpr hclean
    exact (hclean.matched hreport).mp (haccounted.matched report hreport hnone)
  · rintro ⟨hsettled, hconditioned⟩
    refine ⟨?_, ?_⟩
    · intro report hreport hnone
      have hclean := silent_iff.mp ⟨report, hreport, hnone⟩
      exact (hclean.matched hreport).mpr (hconditioned hclean)
    · by_cases hstops : Stops package
      · exact (reported_of_stops hstops).mpr (hsettled hstops)
      · exact reported_of_returns hstops

/-- A test under `@unittest.skipIf(1, "later")`, which the document approves. -/
def numberPackage : Package :=
  oneTestPackage
    (.parsed (codes "approved_skips.json") (.arr [.obj
      [(codes "identity", .str (codes "tests/test_example.py::ExampleTests.test_value")),
        (codes "reason", .str (codes "later"))]]))
    (.call 4 (ofUnittest ⟨codes "skipIf", by decide, by decide⟩)
      [.constant (.int 1), .constant (.str (codes "later"))] [])

/-- The gate lets the approval cover a condition that is the number one. -/
theorem number_is_approved : ¬ SkipsAccounted numberPackage := by
  intro haccounted
  have hfindings : numberPackage.findings = .ok [] := by decide
  have hmatched := haccounted.matched _ (congrArg (Except.map _) hfindings) rfl
  have happroved : codes "tests/test_example.py::ExampleTests.test_value" ∈
      sortedSet (fun left right => decide (left ≤ right)) numberPackage.encountered := by decide
  have hliterals : ∀ file ∈ numberPackage.files, ∀ testClass ∈ testClasses file.body,
      ∀ candidate ∈ candidates file testClass, ∀ decorator ∈ candidate.decorators,
        (skipDecorator decorator (skipAliases file.body)).toOption.join.all
          (fun use => use.condition.all fun condition => decide (Literal condition)) = true := by
    decide
  obtain ⟨use, condition, _, hcarries, _, hcondition, hliteral, _⟩ :=
    hmatched.carried _ happroved
  obtain ⟨file, hfile, testClass, hclass, candidate, hcandidate, _, decorator, hdecorator,
    huse⟩ := hcarries
  have hall := hliterals file hfile testClass hclass candidate hcandidate decorator hdecorator
  rw [huse, Except.toOption, Option.join_some, Option.all_some, hcondition, Option.all_some,
    decide_eq_true_eq] at hall
  exact hliteral hall

end PackageIntegrity
