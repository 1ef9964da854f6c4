/-
The tests behind a report without findings: which of them are discovered, do something and run
unless an approved condition skips them, and what the gate overlooks in a test: spellings of a
skip or of an empty body that it does not read, and classes that it does not take for test cases.
-/
import SecretsCustody.SkipApprovals

namespace PackageIntegrity

open JsonText PythonSyntax

/-! ### What Python makes of a module -/

/-- What the expressions of a module are when Python runs it, whatever was imported, assigned or
defined by then, and in whatever way. -/
structure Runtime where
  /-- The member of unittest that an expression stands for, behind some statements of a file. -/
  member : SourceFile → List Node → Node → Option PyStr
  /-- An expression is a skip that a call elsewhere made, of this condition and this reason. -/
  bound : SourceFile → List Node → Node → SkipUse → Prop

/-- The parameters of a decorator. -/
def SkipKind.parameters : SkipKind → List PyStr
  | .skip => [codes "reason"]
  | .skipIf => [codes "condition", codes "reason"]
  | .skipUnless => [codes "condition", codes "reason"]

/-- What a call of a decorator makes. -/
def SkipKind.made (kind : SkipKind) (args keywords : List Node) : SkipUse where
  kind := kind
  condition := given kind.parameters args keywords (codes "condition")
  reason := (given kind.parameters args keywords (codes "reason")).bind literalText

/-- A decorator is one of unittest's skips, in a form Python takes: `skip` itself, with the class
or function as its one argument; a call, with its arguments by position or by name; or a name
that is bound to a skip. -/
inductive Skips (python : Runtime) (file : SourceFile) (scope : List Node) :
    Node → SkipUse → Prop
  | bare {decorator : Node}
      (hmember : python.member file scope decorator = some SkipKind.skip.text) :
      Skips python file scope decorator ⟨.skip, none, none⟩
  | call {kind : SkipKind} {line : Nat} {func : Node} {args keywords : List Node}
      (hmember : python.member file scope func = some kind.text)
      (hbinds : Binds kind.parameters args keywords) :
      Skips python file scope (.call line func args keywords) (kind.made args keywords)
  | bound {decorator : Node} {use : SkipUse} (hbound : python.bound file scope decorator use) :
      Skips python file scope decorator use

/-- The skip is conditional, its condition is no literal, and its reason is approved for the
identity. -/
structure Excused (document : SkipDocument) (identity : PyStr) (use : SkipUse) : Prop where
  conditional : use.kind ≠ .skip
  condition : ∃ condition, use.condition = some condition ∧ ¬ Literal condition
  reason : ∃ reason, use.reason = some reason ∧ Lists document identity reason

/-- A body of nothing but `pass` and constants. -/
def Hollow (body : List Node) : Prop :=
  ∀ statement ∈ body, statement = .pass ∨ ∃ value, statement = .expr (.constant value)

/-- A base is spelled as an attribute, or as a name that a `from` import gives, wherever in the
module that import stands. -/
inductive Imported (body : List Node) : Node → Prop
  | attribute {value : Node} {attr : Ident} (hattr : attr.text = codes "TestCase") :
      Imported body (.attribute value attr)
  | alias {id : Ident} {line level : Nat} {module : PyStr} {names : List Alias} {imported : Alias}
      (hmodule : isUnittest (some module) = true)
      (hstatement : .importFrom line level (some module) names ∈ walkAll body)
      (himported : imported ∈ names)
      (hname : imported.name = codes "TestCase" ∧ localName imported = id.text ∨
        imported.name = codes "*" ∧ id.text = codes "TestCase") :
      Imported body (.name id)

/-! ### Tests -/

/-- A test of a package: a function with a name in `test`, directly in a class that lists
`TestCase`, among the statements of a module under a test root. -/
structure ListedTest (python : Runtime) (package : Package) where
  file : SourceFile
  before : List Node
  after : List Node
  testClass : TestClass
  bases : List Node
  classOthers : List Node
  earlier : List Node
  later : List Node
  method : TestMethod
  methodOthers : List Node
  scanned : file ∈ package.files
  rooted : file.inTestRoot = true
  parsed : file.parsed = .ok (before ++ .classDef testClass.lineno testClass.name bases
    testClass.decorators testClass.body classOthers :: after)
  listed : ∃ base ∈ bases, python.member file before base = some (codes "TestCase") ∧
    Imported file.body base
  placed : testClass.body = earlier ++ .functionDef method.lineno method.name method.decorators
    method.body methodOthers :: later
  called : (codes "test").isPrefixOf method.name.text = true

section

variable {python : Runtime} {package : Package} (test : ListedTest python package)

/-- A decorator of the class or of the method of a test, with the identity of its owner and what
stands before it. -/
inductive ListedTest.Decorated : PyStr → List Node → Node → Prop
  | onClass {decorator : Node} (hdecorator : decorator ∈ test.testClass.decorators) :
      ListedTest.Decorated (classIdentity test.file test.testClass) test.before decorator
  | onMethod {decorator : Node} (hdecorator : decorator ∈ test.method.decorators) :
      ListedTest.Decorated (methodIdentity test.file test.testClass test.method)
        (test.before ++ test.earlier) decorator

/-- A test that is discovered, does something, and is skipped only as approved. -/
structure Runs : Prop where
  discovered : isDiscoverable test.file.name = true
  statements : ¬ Hollow test.method.body
  skips : ∀ identity scope decorator use, test.Decorated identity scope decorator →
    Skips python test.file scope decorator use → Excused package.document identity use

/-! ### What is overlooked -/

/-- The gate takes the class of a test for a test case. -/
def ListedTest.Seen : Prop :=
  isTestCase test.bases (testCaseAliases test.file.body) = true

/-- The spelling in which the gate reads a skip: a call, of a name that the imports of the module
do not give to another of the three, with its reason or its condition and reason by position, and
a condition that is no literal but `True` or `False`. -/
inductive Plain (aliases : List (PyStr × PyStr)) : Node → SkipUse → Prop
  | skip {line : Nat} {func reason : Node} {args keywords : List Node}
      (hnamed : aliasedName aliases (lastPart ((dottedName func).getD [])) = SkipKind.skip.text) :
      Plain aliases (.call line func (reason :: args) keywords) ⟨.skip, none, literalText reason⟩
  | conditional {kind : SkipKind} {line : Nat} {func condition reason : Node}
      {args keywords : List Node} (hkind : kind ≠ .skip)
      (hnamed : aliasedName aliases (lastPart ((dottedName func).getD [])) = kind.text)
      (hliteral : Literal condition → isLiteralBool condition = true) :
      Plain aliases (.call line func (condition :: reason :: args) keywords)
        ⟨kind, some condition, literalText reason⟩

/-- A conditional skip with no literal for its condition, and with the reason of a decorator that
the gate reads under the same identity. -/
structure Covered (package : Package) (identity : PyStr) (use : SkipUse) : Prop where
  conditional : use.kind ≠ .skip
  condition : ∃ condition, use.condition = some condition ∧ ¬ Literal condition
  shared : ∃ other reason, Carries package identity other ∧ other.reason = some reason ∧
    use.reason = some reason

/-- What the gate overlooks in a test: that its file is not discovered, if the class is not seen;
that its body is hollow, if it is no single `pass` or `...`; and a skip that is not spelled as
the gate reads it and that no decorator covers. -/
inductive Overlooked : Prop
  | file (hunseen : ¬ test.Seen) (hfile : isDiscoverable test.file.name = false)
  | body (hunread : ¬ test.Seen ∨ isPlaceholderBody test.method.body = false)
      (hhollow : Hollow test.method.body)
  | skip {identity : PyStr} {scope : List Node} {decorator : Node} {use : SkipUse}
      (hdecorated : test.Decorated identity scope decorator)
      (hskips : Skips python test.file scope decorator use)
      (hunread : ¬ test.Seen ∨ ¬ Plain (skipAliases test.file.body) decorator use)
      (huncovered : ¬ Covered package identity use)

end

theorem skipKind_text (kind : SkipKind) : skipKind kind.text = some kind := by
  cases kind <;> decide

/-- The gate evaluates the text of a reason, unless it raises. -/
theorem reasonText_eq_ok {reason : Node} {text : Option PyStr}
    (hreason : reasonText reason = .ok text) : text = literalText reason := by
  rw [reasonText, literal] at hreason
  rw [literalText]
  split at hreason
  · next value hvalue =>
      rw [hvalue]
      cases hreason
      rfl
  · next hvalue =>
      rw [hvalue]
      cases hreason
      rfl
  · cases hreason

theorem isBoolCondition_eq_ok {condition : Node} {isBool : Bool}
    (hcondition : isBoolCondition (some condition) = .ok isBool) :
    isBool = isLiteralBool condition := by
  rw [isBoolCondition, literal] at hcondition
  rw [isLiteralBool]
  split at hcondition
  · next value hvalue =>
      rw [hvalue]
      cases hcondition
      rfl
  · next hvalue =>
      rw [hvalue]
      cases hcondition
      rfl
  · cases hcondition

/-- The gate recognises a skip in its spelling, unless it raises. -/
theorem skipDecorator_of_plain {aliases : List (PyStr × PyStr)} {decorator : Node}
    {use : SkipUse} {found : Option SkipUse} (hplain : Plain aliases decorator use)
    (hfound : skipDecorator decorator aliases = .ok found) : found = some use := by
  cases hplain with
  | skip hnamed =>
      rw [skipDecorator.eq_def] at hfound
      dsimp only at hfound
      rw [hnamed, skipKind_text] at hfound
      obtain ⟨text, htext, rfl⟩ := Effect.map_eq_ok.mp hfound
      rw [reasonText_eq_ok htext]
  | @conditional kind _ _ _ _ _ _ hkind hnamed hliteral =>
      rw [skipDecorator.eq_def] at hfound
      dsimp only at hfound
      rw [hnamed, skipKind_text] at hfound
      cases kind with
      | skip => exact absurd rfl hkind
      | skipIf =>
          obtain ⟨text, htext, rfl⟩ := Effect.map_eq_ok.mp hfound
          rw [reasonText_eq_ok htext]
      | skipUnless =>
          obtain ⟨text, htext, rfl⟩ := Effect.map_eq_ok.mp hfound
          rw [reasonText_eq_ok htext]

/-- In its spelling a skip that passes the gate has no literal for its condition. -/
theorem Plain.condition {approvals : List ApprovedSkip} {aliases : List (PyStr × PyStr)}
    {identity : PyStr} {decorator : Node} {use : SkipUse} (hplain : Plain aliases decorator use)
    (happroved : Approved approvals identity use) :
    ∃ condition, use.condition = some condition ∧ ¬ Literal condition := by
  cases hplain with
  | skip hnamed => exact absurd rfl happroved.conditional
  | conditional hkind hnamed hliteral =>
      refine ⟨_, rfl, ?_⟩
      intro hcondition
      have hbool := isBoolCondition_eq_ok happroved.condition
      rw [hliteral hcondition] at hbool
      cases hbool

/-- In a package that keeps the rules, what is approved for a reason is what is covered. -/
theorem Clean.excused_iff {package : Package} {identity : PyStr} {use : SkipUse}
    (hclean : Clean package) :
    Excused package.document identity use ↔ Covered package identity use := by
  constructor
  · intro hexcused
    obtain ⟨reason, hreason, hlists⟩ := hexcused.reason
    have hmem := hclean.document.lists hlists
    obtain ⟨other, hcarries, happroved⟩ := hclean.used _ hmem
    obtain ⟨kept, hkept, hlisted⟩ := happroved.reason
    rw [approval_unique hlisted hmem] at hkept
    exact ⟨hexcused.conditional, hexcused.condition, other, reason, hcarries, hkept, hreason⟩
  · intro hcovered
    obtain ⟨other, reason, hcarries, hother, hreason⟩ := hcovered.shared
    obtain ⟨kept, hkept, hlisted⟩ := (hclean.approved hcarries).reason
    rw [hother] at hkept
    cases hkept
    exact ⟨hcovered.conditional, hcovered.condition, reason, hreason, lists_of_mem hlisted⟩

section

variable {python : Runtime} {package : Package} (test : ListedTest python package)

/-- The gate scans a class that it takes for a test case. -/
theorem ListedTest.class_scanned (hseen : test.Seen) :
    test.testClass ∈ testClasses test.file.body := by
  rw [ListedTest.Seen, SourceFile.body, test.parsed] at hseen
  rw [SourceFile.body, test.parsed]
  apply List.mem_filterMap.mpr ⟨_, List.mem_append_right _ List.mem_cons_self, ?_⟩
  dsimp only
  rw [if_pos hseen]

/-- The gate scans the method of a test. -/
theorem ListedTest.method_scanned : test.method ∈ testMethods test.testClass.body := by
  rw [test.placed]
  apply List.mem_filterMap.mpr ⟨_, List.mem_append_right _ List.mem_cons_self, ?_⟩
  dsimp only
  rw [if_pos test.called]

/-- The gate scans the decorators of a test. -/
theorem ListedTest.decorator_scanned {identity : PyStr} {scope : List Node} {decorator : Node}
    (hdecorated : test.Decorated identity scope decorator) :
    ∃ candidate ∈ candidates test.file test.testClass, candidate.identity = identity ∧
      decorator ∈ candidate.decorators := by
  cases hdecorated with
  | onClass hdecorator => exact ⟨_, List.mem_cons_self, rfl, hdecorator⟩
  | onMethod hdecorator =>
      exact ⟨_, List.mem_cons_of_mem _ (List.mem_map_of_mem test.method_scanned), rfl, hdecorator⟩

/-- In a package that keeps the rules a skip in the spelling of the gate, on a class it sees, is
an approved one. -/
theorem ListedTest.excused_of_plain (hclean : Clean package) (hseen : test.Seen)
    {identity : PyStr} {scope : List Node} {decorator : Node} {use : SkipUse}
    (hdecorated : test.Decorated identity scope decorator)
    (hplain : Plain (skipAliases test.file.body) decorator use) :
    Excused package.document identity use := by
  obtain ⟨body, hparsed, hrules⟩ := hclean.files test.file test.scanned
  have hbody : test.file.body = body := by rw [SourceFile.body, hparsed]
  have hclass := test.class_scanned hseen
  rw [hbody] at hclass hplain
  obtain ⟨candidate, hcandidate, rfl, hdecorator⟩ := test.decorator_scanned hdecorated
  obtain ⟨found, hfound, happroves⟩ :=
    hrules.skips test.testClass hclass candidate hcandidate decorator hdecorator
  have happroved := happroves use (skipDecorator_of_plain hplain hfound)
  obtain ⟨reason, hreason, hmem⟩ := happroved.reason
  exact ⟨happroved.conditional, hplain.condition happroved, reason, hreason, lists_of_mem hmem⟩

/-- In a package that keeps the rules a test runs when nothing in it is overlooked. -/
theorem ListedTest.runs_iff (hclean : Clean package) : Runs test ↔ ¬ Overlooked test := by
  constructor
  · intro hruns hoverlooked
    cases hoverlooked with
    | file hunseen hfile =>
        rw [hruns.discovered] at hfile
        cases hfile
    | body hunread hhollow => exact hruns.statements hhollow
    | skip hdecorated hskips hunread huncovered =>
        exact huncovered (hclean.excused_iff.mp (hruns.skips _ _ _ _ hdecorated hskips))
  · intro hseen
    obtain ⟨body, hparsed, hrules⟩ := hclean.files test.file test.scanned
    have hbody : test.file.body = body := by rw [SourceFile.body, hparsed]
    constructor
    · by_contra hfile
      rw [Bool.not_eq_true] at hfile
      by_cases hclass : test.Seen
      · have hscanned := test.class_scanned hclass
        rw [hbody] at hscanned
        rw [hrules.discovered test.rooted test.testClass hscanned] at hfile
        cases hfile
      · exact hseen (.file hclass hfile)
    · intro hhollow
      apply hseen (.body _ hhollow)
      by_cases hclass : test.Seen
      · have hscanned := test.class_scanned hclass
        rw [hbody] at hscanned
        exact Or.inr (hrules.bodies test.testClass hscanned test.method test.method_scanned)
      · exact Or.inl hclass
    · intro identity scope decorator use hdecorated hskips
      by_contra hexcused
      apply hseen (.skip hdecorated hskips _ (mt hclean.excused_iff.mpr hexcused))
      by_cases hclass : test.Seen
      · exact Or.inr fun hplain =>
          hexcused (test.excused_of_plain hclean hclass hdecorated hplain)
      · exact Or.inl hclass

end

/-- A report without findings leaves only tests that run exactly when nothing is overlooked in
the tests of a package that keeps the rules of the gate. -/
theorem failsClosed_iff (python : Runtime) (package : Package) :
    (Silent package → ∀ test : ListedTest python package, Runs test) ↔
      (Clean package → ∀ test : ListedTest python package, ¬ Overlooked test) := by
  rw [silent_iff]
  apply forall_congr'
  intro hclean
  exact forall_congr' fun test => test.runs_iff hclean

/-- What names stand for in a module that imports unittest and binds no other name. -/
def unittestOnly : Runtime where
  member _ _ node :=
    match node with
    | .attribute (.name id) attr => if id.text = codes "unittest" then some attr.text else none
    | _ => none
  bound _ _ _ _ := False

/-- `@unittest.skip`, without a call. -/
def bareSkip : Node :=
  ofUnittest ⟨codes "skip", by decide, by decide⟩

/-- The package of one test under a bare skip has a test under a skip. -/
theorem bareSkip_skips :
    ∃ (test : ListedTest unittestOnly (oneTestPackage .absent bareSkip)) (identity : PyStr)
      (scope : List Node), test.Decorated identity scope bareSkip ∧
        Skips unittestOnly test.file scope bareSkip ⟨.skip, none, none⟩ := by
  refine ⟨{
    file := oneTestFile bareSkip
    before := [.importModules 1 [⟨codes "unittest", none⟩]]
    after := []
    testClass := ⟨3, ⟨codes "ExampleTests", by decide, by decide⟩, [], [oneTest bareSkip]⟩
    bases := [ofUnittest ⟨codes "TestCase", by decide, by decide⟩]
    classOthers := []
    earlier := []
    later := []
    method := ⟨5, ⟨codes "test_value", by decide, by decide⟩, [bareSkip],
      [.expr (.call 6 (.name ⟨codes "check", by decide, by decide⟩) [] [])]⟩
    methodOthers := []
    scanned := List.mem_singleton_self _
    rooted := rfl
    parsed := rfl
    listed := ⟨_, List.mem_singleton_self _, by decide, .attribute rfl⟩
    placed := rfl
    called := by decide }, _, _, .onMethod (List.mem_singleton_self _), ?_⟩
  exact .bare (by decide)

/-- A bare skip is not reported. -/
theorem bare_skip_is_hidden :
    ¬ (Silent (oneTestPackage .absent bareSkip) →
      ∀ test : ListedTest unittestOnly (oneTestPackage .absent bareSkip), Runs test) := by
  intro hruns
  have hfindings : (oneTestPackage .absent bareSkip).findings = .ok [] := by decide
  have hsilent : Silent (oneTestPackage .absent bareSkip) :=
    ⟨_, congrArg (Except.map _) hfindings, rfl⟩
  obtain ⟨test, identity, scope, hdecorated, hskips⟩ := bareSkip_skips
  have hexcused := (hruns hsilent test).skips identity scope bareSkip _ hdecorated hskips
  exact hexcused.conditional rfl

end PackageIntegrity
