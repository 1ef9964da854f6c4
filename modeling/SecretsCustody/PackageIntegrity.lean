/-
The scanner behind the package gate: what it reports about the approved skips, the modules and
the gate files of a package.  Every loop only appends what it finds, so it is the list of what
its rounds find, unless one of them raises; the report sorts them.
-/
import SecretsCustody.Effect
import SecretsCustody.PythonSyntax
import SecretsCustody.Words
import Mathlib.Data.List.Dedup

namespace PackageIntegrity

open Effect JsonText PythonSyntax

/-! ### Findings -/

structure ApprovedSkip where
  identity : PyStr
  reason : PyStr
  deriving DecidableEq

structure IntegrityFinding where
  path : PyStr
  line : Nat
  code : PyStr
  message : PyStr
  deriving DecidableEq

/-- The order of two findings: by path, line, code and message. -/
def IntegrityFinding.le (left right : IntegrityFinding) : Bool :=
  if left.path ≠ right.path then decide (left.path < right.path)
  else if left.line ≠ right.line then decide (left.line < right.line)
  else if left.code ≠ right.code then decide (left.code < right.code)
  else decide (left.message ≤ right.message)

/-- `sorted(set(…))`. -/
def sortedSet {α : Type} [DecidableEq α] (le : α → α → Bool) (items : List α) : List α :=
  items.dedup.insertionSort fun left right => le left right

structure IntegrityReport where
  findings : List IntegrityFinding
  testIdentities : List PyStr
  mockLocations : List PyStr
  approvedSkipIdentities : List PyStr

/-! ### Exceptions -/

/-- The exceptions that no clause of the gate catches. -/
inductive Uncaught where
  | unicodeDecodeError
  | valueError
  | overflowError
  | recursionError
  | memoryError
  | osError
  deriving DecidableEq

/-! ### Classes, bodies and decorators -/

/-- `_is_test_case`, of the bases of a class. -/
def isTestCase (bases : List Node) (aliases : List PyStr) : Bool :=
  bases.any fun base =>
    (codes "TestCase").isSuffixOf ((dottedName base).getD []) ||
      aliases.contains ((dottedName base).getD [])

/-- A body without its docstring. -/
def withoutDocstring : List Node → List Node
  | .expr (.constant (.str _)) :: statements => statements
  | body => body

/-- `_is_placeholder_body`. -/
def isPlaceholderBody (body : List Node) : Bool :=
  match withoutDocstring body with
  | [.pass] => true
  | [.expr (.constant .ellipsis)] => true
  | _ => false

/-- `_is_swallowed_handler`, of the body of a handler. -/
def isSwallowedHandler : List Node → Bool
  | [.pass] => true
  | _ => false

/-- The three decorators that skip a test. -/
inductive SkipKind where
  | skip
  | skipIf
  | skipUnless
  deriving DecidableEq

def SkipKind.text : SkipKind → PyStr
  | .skip => codes "skip"
  | .skipIf => codes "skipIf"
  | .skipUnless => codes "skipUnless"

/-- The decorator of a name, if it is one of the three. -/
def skipKind (name : PyStr) : Option SkipKind :=
  [SkipKind.skip, .skipIf, .skipUnless].find? fun kind => kind.text = name

/-- `aliases.get(name, name)`; what was put in later comes first. -/
def aliasedName (aliases : List (PyStr × PyStr)) (name : PyStr) : PyStr :=
  (aliases.lookup name).getD name

/-- What `_skip_decorator` returns. -/
structure SkipUse where
  kind : SkipKind
  condition : Option Node
  reason : Option PyStr

/-- `_literal`; `none` is an object of no use. -/
def literal (node : Node) : Except Uncaught (Option Value) :=
  match literalEval node with
  | .ok value => .ok (some value)
  | .error .malformed => .ok none
  | .error .overflow => .error .overflowError

/-- `reason if isinstance(reason, str) else None`, of the `_literal` of a node. -/
def reasonText (reason : Node) : Except Uncaught (Option PyStr) :=
  (literal reason).map fun value => value.bind Value.text

/-- `condition is not None and isinstance(_literal(condition), bool)`. -/
def isBoolCondition : Option Node → Except Uncaught Bool
  | none => .ok false
  | some condition => (literal condition).map fun value => value.any Value.isBool

/-- `_skip_decorator`. -/
def skipDecorator (decorator : Node) (aliases : List (PyStr × PyStr)) :
    Except Uncaught (Option SkipUse) :=
  match decorator with
  | .call _ func args _ =>
      match skipKind (aliasedName aliases (lastPart ((dottedName func).getD []))), args with
      | some .skip, reason :: _ =>
          (reasonText reason).map fun reason => some ⟨.skip, none, reason⟩
      | some .skip, _ => .ok none
      | some kind, condition :: reason :: _ =>
          (reasonText reason).map fun reason => some ⟨kind, some condition, reason⟩
      | _, _ => .ok none
  | _ => .ok none

/-! ### Approved skips -/

/-- The document of approved skips, and its file name: it is not there, an `OSError` or a
`JSONDecodeError` is met, it is a JSON value, or reading it raises something else (on bytes that
are no UTF-8, an integer of too many digits, or values nested too deep). -/
inductive SkipDocument where
  | absent
  | unreadable (name error : PyStr)
  | parsed (name : PyStr) (document : Json)
  | raising (name : PyStr) (raised : Uncaught)

def SkipDocument.name : SkipDocument → PyStr
  | .absent => codes "approved-skips"
  | .unreadable name _ => name
  | .parsed name _ => name
  | .raising name _ => name

/-- `item.get(key)`: the last of the values an object gives for a key. -/
def getItem (entries : List (PyStr × Json)) (key : String) : Option Json :=
  entries.reverse.lookup (codes key)

/-- A text with something in it but white space. -/
def nonBlank : Option Json → Option PyStr
  | some (.str text) => if Words.trim Words.isSpaceCode text = [] then none else some text
  | _ => none

/-- What one entry approves, or the message of its finding. -/
def readEntry : Json → Except PyStr ApprovedSkip
  | .obj entries =>
      match nonBlank (getItem entries "identity") with
      | none => .error (codes "approved skip identity must be non-blank")
      | some identity =>
          match nonBlank (getItem entries "reason") with
          | none => .error (codes "approved skip reason must contain 1-240 characters")
          | some reason =>
              if 240 < reason.length then
                .error (codes "approved skip reason must contain 1-240 characters")
              else .ok ⟨identity, reason⟩
  | _ => .error (codes "approved skip entry must be an object")

/-- The loop of `_read_approved_skips`. -/
def readEntries (relative : PyStr) :
    Nat → List PyStr → List Json → List ApprovedSkip × List IntegrityFinding
  | _, _, [] => ([], [])
  | index, seen, item :: items =>
      match readEntry item with
      | .error message =>
          let (approvals, findings) := readEntries relative (index + 1) seen items
          (approvals, ⟨relative, index, codes "invalid-skip-approval", message⟩ :: findings)
      | .ok approval =>
          if seen.contains approval.identity then
            let (approvals, findings) := readEntries relative (index + 1) seen items
            (approvals,
              ⟨relative, index, codes "duplicate-skip-approval", approval.identity⟩ :: findings)
          else
            let (approvals, findings) :=
              readEntries relative (index + 1) (approval.identity :: seen) items
            (approval :: approvals, findings)

/-- `_read_approved_skips`. -/
def readApprovedSkips :
    SkipDocument → Except Uncaught (List ApprovedSkip × List IntegrityFinding)
  | .absent => .ok ([], [])
  | .unreadable name error => .ok ([], [⟨name, 1, codes "invalid-skip-approval", error⟩])
  | .parsed name (.arr items) => .ok (readEntries name 1 [] items)
  | .parsed name _ =>
      .ok ([], [⟨name, 1, codes "invalid-skip-approval",
        codes "approved skip document must be a JSON list"⟩])
  | .raising _ raised => .error raised

/-! ### Modules -/

/-- Why a file has no statements: an `OSError` or a `SyntaxError`, with its line and text, or an
exception of another kind, that of a tree too deep to walk included. -/
inductive ReadError where
  | reported (line : Nat) (error : PyStr)
  | uncaught (raised : Uncaught)

/-- A Python file of the package: its path in the package, its name, whether it lies under a
test root, and the statements it parses to. -/
structure SourceFile where
  relative : PyStr
  name : PyStr
  inTestRoot : Bool
  parsed : Except ReadError (List Node)

/-- `^test.*\.py$` at the start of a name. -/
def isDiscoverable (name : PyStr) : Bool :=
  let found := if name.getLast? = some 10 then name.dropLast else name
  (codes "test").isPrefixOf found && (codes ".py").isSuffixOf (found.drop 4) &&
    found.all (· ≠ 10)

/-- `statement.module in {"unittest", "unittest.case"}`. -/
def isUnittest (module : Option PyStr) : Bool :=
  module = some (codes "unittest") || module = some (codes "unittest.case")

/-- The aliases a module imports from unittest, in their order. -/
def unittestAliases (body : List Node) : List Alias :=
  body.flatMap fun
    | .importFrom _ _ module names => if isUnittest module then names else []
    | _ => []

/-- `test_case_aliases`. -/
def testCaseAliases (body : List Node) : List PyStr :=
  codes "TestCase" ::
    ((unittestAliases body).filter fun imported => imported.name = codes "TestCase").map localName

/-- `skip_aliases`. -/
def skipAliases (body : List Node) : List (PyStr × PyStr) :=
  (((unittestAliases body).filter fun imported => (skipKind imported.name).isSome).map
    fun imported => (localName imported, imported.name)).reverse

/-- `node.lineno`. -/
def lineno : Node → Nat
  | .call line _ _ _ => line
  | .importModules line _ => line
  | .importFrom line _ _ _ => line
  | .functionDef line _ _ _ _ => line
  | .classDef line _ _ _ _ _ => line
  | .exceptHandler line _ _ => line
  | _ => 1

/-- The packages a node imports from. -/
def importRoots : Node → List PyStr
  | .importModules _ names => names.map fun imported => firstPart imported.name
  | .importFrom _ _ (some module) _ => if module = [] then [] else [firstPart module]
  | _ => []

/-- One finding, if something is so. -/
def findingIf (found : Bool) (finding : IntegrityFinding) : List IntegrityFinding :=
  if found then [finding] else []

/-- A handler that only passes. -/
def swallows : Node → Bool
  | .exceptHandler _ body _ => isSwallowedHandler body
  | _ => false

/-- The findings of one round of the walk over the nodes of a module. -/
def nodeFindings (file : SourceFile) (node : Node) : List IntegrityFinding :=
  findingIf ((importRoots node).contains (codes "control_plane_kit"))
      ⟨file.relative, lineno node, codes "mutable-legacy-import",
        codes "imports mutable control_plane_kit package"⟩ ++
    findingIf ((importRoots node).contains (codes "pytest"))
      ⟨file.relative, lineno node, codes "pytest-import",
        codes "unittest is the only permitted test framework"⟩ ++
    findingIf (file.inTestRoot && swallows node)
      ⟨file.relative, lineno node, codes "swallowed-exception",
        codes "test code swallows an exception with pass"⟩

/-- A node that is evidence of a mock. -/
def isMock : Node → Bool
  | .importFrom _ _ module _ => module = some (codes "unittest.mock")
  | .call _ func _ _ =>
      [codes "Mock", codes "MagicMock", codes "patch"].contains
        (lastPart ((dottedName func).getD []))
  | _ => false

/-- `str(number)`. -/
def decimal (number : Nat) : PyStr :=
  codes (toString number)

def mockLocations (file : SourceFile) (body : List Node) : List PyStr :=
  if file.inTestRoot then
    ((walkAll body).filter isMock).map fun node =>
      file.relative ++ codes ":" ++ decimal (lineno node)
  else []

/-- The test cases below the statements of a module. -/
def hiddenClassFindings (file : SourceFile) (body : List Node) : List IntegrityFinding :=
  (body.flatMap below).filterMap fun
    | .classDef line name bases _ _ _ =>
        if isTestCase bases (testCaseAliases body) then
          some ⟨file.relative, line, codes "hidden-test-class",
            codes "nested TestCase " ++ name.text ++ codes " is not collected by unittest"⟩
        else none
    | _ => none

/-- The test functions among the statements of a module under a test root. -/
def hiddenFunctionFindings (file : SourceFile) (body : List Node) : List IntegrityFinding :=
  if file.inTestRoot then
    body.filterMap fun
      | .functionDef line name _ _ _ =>
          if (codes "test").isPrefixOf name.text then
            some ⟨file.relative, line, codes "hidden-test-function",
              codes "top-level test function " ++ name.text ++
                codes " is not collected by unittest"⟩
          else none
      | _ => none
  else []

/-! ### Test cases -/

/-- A test case among the statements of a module. -/
structure TestClass where
  lineno : Nat
  name : Ident
  decorators : List Node
  body : List Node

/-- A method of a test case. -/
structure TestMethod where
  lineno : Nat
  name : Ident
  decorators : List Node
  body : List Node

/-- The classes among the statements of a module that are test cases. -/
def testClasses (body : List Node) : List TestClass :=
  body.filterMap fun
    | .classDef line name bases decorators classBody _ =>
        if isTestCase bases (testCaseAliases body) then some ⟨line, name, decorators, classBody⟩
        else none
    | _ => none

/-- The methods of a class that are tests by their name. -/
def testMethods (body : List Node) : List TestMethod :=
  body.filterMap fun
    | .functionDef line name decorators methodBody _ =>
        if (codes "test").isPrefixOf name.text then some ⟨line, name, decorators, methodBody⟩
        else none
    | _ => none

def classIdentity (file : SourceFile) (testClass : TestClass) : PyStr :=
  file.relative ++ codes "::" ++ testClass.name.text

def methodIdentity (file : SourceFile) (testClass : TestClass) (method : TestMethod) : PyStr :=
  classIdentity file testClass ++ codes "." ++ method.name.text

/-- What may carry a skip: a class or one of its tests. -/
structure Candidate where
  identity : PyStr
  lineno : Nat
  decorators : List Node

def candidates (file : SourceFile) (testClass : TestClass) : List Candidate :=
  ⟨classIdentity file testClass, testClass.lineno, testClass.decorators⟩ ::
    (testMethods testClass.body).map fun method =>
      ⟨methodIdentity file testClass method, method.lineno, method.decorators⟩

/-- What the scan makes of a decorator: no skip, a finding, or an approved skip. -/
inductive Verdict where
  | ignored
  | reported (code : PyStr)
  | approved
  deriving DecidableEq

/-- One round of the loop over the decorators of a candidate. -/
def judge (approvals : List ApprovedSkip) (aliases : List (PyStr × PyStr)) (identity : PyStr)
    (decorator : Node) : Except Uncaught Verdict :=
  match skipDecorator decorator aliases with
  | .error raised => .error raised
  | .ok none => .ok .ignored
  | .ok (some ⟨.skip, _, _⟩) => .ok (.reported (codes "unconditional-skip"))
  | .ok (some ⟨_, condition, reason⟩) =>
      match isBoolCondition condition with
      | .error raised => .error raised
      | .ok true => .ok (.reported (codes "literal-skip-condition"))
      | .ok false =>
          match approvals.find? fun approval => approval.identity = identity with
          | none => .ok (.reported (codes "unapproved-skip"))
          | some approval =>
              if reason ≠ some approval.reason then .ok (.reported (codes "skip-reason-mismatch"))
              else .ok .approved

def decoratorFindings (file : SourceFile) (approvals : List ApprovedSkip)
    (aliases : List (PyStr × PyStr)) (candidate : Candidate) (decorator : Node) :
    Except Uncaught (List IntegrityFinding) :=
  match judge approvals aliases candidate.identity decorator with
  | .error raised => .error raised
  | .ok (.reported code) => .ok [⟨file.relative, candidate.lineno, code, candidate.identity⟩]
  | .ok _ => .ok []

def candidateFindings (file : SourceFile) (approvals : List ApprovedSkip)
    (aliases : List (PyStr × PyStr)) (candidate : Candidate) :
    Except Uncaught (List IntegrityFinding) :=
  forEach (decoratorFindings file approvals aliases candidate) candidate.decorators

/-- The identities a candidate adds to `encountered_approvals`. -/
def encountered (approvals : List ApprovedSkip) (aliases : List (PyStr × PyStr))
    (candidate : Candidate) : List PyStr :=
  candidate.decorators.filterMap fun decorator =>
    if judge approvals aliases candidate.identity decorator = .ok .approved then
      some candidate.identity
    else none

/-- The findings of one round of the loop over the test cases of a module. -/
def classFindings (file : SourceFile) (approvals : List ApprovedSkip)
    (aliases : List (PyStr × PyStr)) (testClass : TestClass) :
    Except Uncaught (List IntegrityFinding) :=
  (forEach (candidateFindings file approvals aliases) (candidates file testClass)).map fun skips =>
    findingIf (file.inTestRoot && !isDiscoverable file.name)
        ⟨file.relative, testClass.lineno, codes "hidden-test-file",
          codes "TestCase " ++ testClass.name.text ++
            codes " is outside unittest discovery pattern"⟩ ++
      (testMethods testClass.body).flatMap (fun method =>
        findingIf (isPlaceholderBody method.body)
          ⟨file.relative, method.lineno, codes "placeholder-test",
            methodIdentity file testClass method⟩) ++
      skips

/-! ### The package -/

/-- The findings of one round of the loop over the files. -/
def fileFindings (approvals : List ApprovedSkip) (file : SourceFile) :
    Except Uncaught (List IntegrityFinding) :=
  match file.parsed with
  | .error (.uncaught raised) => .error raised
  | .error (.reported line error) =>
      .ok [⟨file.relative, line, codes "unparseable-python", error⟩]
  | .ok body =>
      (forEach (classFindings file approvals (skipAliases body)) (testClasses body)).map
        fun found =>
          (walkAll body).flatMap (nodeFindings file) ++ hiddenClassFindings file body ++ found ++
            hiddenFunctionFindings file body

/-- The statements of a file that parses. -/
def SourceFile.body (file : SourceFile) : List Node :=
  match file.parsed with
  | .error _ => []
  | .ok body => body

/-- `encountered_approvals` after one round of the loop over the files. -/
def fileEncountered (approvals : List ApprovedSkip) (file : SourceFile) : List PyStr :=
  (testClasses file.body).flatMap fun testClass =>
    (candidates file testClass).flatMap (encountered approvals (skipAliases file.body))

def fileTestIdentities (file : SourceFile) : List PyStr :=
  (testClasses file.body).flatMap fun testClass =>
    (testMethods testClass.body).map (methodIdentity file testClass)

/-- A gate file: its path as given, its path in the package if it lies there, and its text, if it
exists and can be read. -/
structure GateFile where
  path : PyStr
  relative : Option PyStr
  content : Except Uncaught (Option PyStr)

/-- `text.splitlines()`, after a line begun. -/
def splitLines (line : PyStr) : PyStr → List PyStr
  | [] => if line = [] then [] else [line]
  | 13 :: 10 :: text => line :: splitLines [] text
  | code :: text =>
      if [10, 11, 12, 13, 28, 29, 30, 133, 8232, 8233].contains code then
        line :: splitLines [] text
      else splitLines (line ++ [code]) text

/-- `[A-Z0-9_]`. -/
def isConstantCode (code : Nat) : Bool :=
  (65 ≤ code && code ≤ 90) || (48 ≤ code && code ≤ 57) || code = 95

/-- `\w`, given the letters and digits beyond ASCII. -/
def isWordCode (alnum : Nat → Bool) (code : Nat) : Bool :=
  isConstantCode code || (97 ≤ code && code ≤ 122) || (128 ≤ code && alnum code)

/-- The runs of word characters of a line, after a run begun. -/
def lineWords (alnum : Nat → Bool) (word : PyStr) : PyStr → List PyStr
  | [] => if word = [] then [] else [word]
  | code :: line =>
      if isWordCode alnum code then lineWords alnum (word ++ [code]) line
      else if word = [] then lineWords alnum [] line
      else word :: lineWords alnum [] line

/-- A word that `PROOF_CHANGING_NAME` matches; it matches whole words only. -/
def isProofChanging : PyStr → Bool
  | [] => false
  | first :: rest =>
      (65 ≤ first && first ≤ 90) && rest.all isConstantCode &&
        ["SKIP", "OPTIONAL", "NO_BUILD", "LOCAL_REBUILD", "NO_TEST"].any fun phrase =>
          decide (codes phrase <:+: rest)

/-- The proof-changing names of a text, with their lines. -/
def proofChanging (alnum : Nat → Bool) (content : PyStr) : List (Nat × PyStr) :=
  ((splitLines [] content).zipIdx 1).flatMap fun (line, lineNumber) =>
    ((lineWords alnum [] line).filter isProofChanging).map fun word => (lineNumber, word)

/-- The findings of one round of the loop over the gate files. -/
def gateFindings (alnum : Nat → Bool) (gateFile : GateFile) :
    Except Uncaught (List IntegrityFinding) :=
  match gateFile.content with
  | .error raised => .error raised
  | .ok none =>
      .ok [⟨gateFile.path, 1, codes "missing-gate-file", codes "gate file does not exist"⟩]
  | .ok (some content) =>
      forEach (fun (lineNumber, word) =>
        match gateFile.relative with
        | none => .error .valueError
        | some relative => .ok [⟨relative, lineNumber, codes "proof-changing-option", word⟩])
        (proofChanging alnum content)

/-- What is inspected: the document of approved skips, the Python files in their order, and the
gate files; and what counts as a letter or digit beyond ASCII. -/
structure Package where
  document : SkipDocument
  files : List SourceFile
  gateFiles : List GateFile
  alnum : Nat → Bool

def Package.approvals (package : Package) : List ApprovedSkip :=
  match readApprovedSkips package.document with
  | .ok (approvals, _) => approvals
  | .error _ => []

/-- `encountered_approvals` in the end. -/
def Package.encountered (package : Package) : List PyStr :=
  package.files.flatMap (fileEncountered package.approvals)

/-- The findings about approvals that no decorator uses. -/
def staleFindings (package : Package) : List IntegrityFinding :=
  (package.approvals.filter fun approval => !package.encountered.contains approval.identity).map
    fun approval => ⟨package.document.name, 1, codes "stale-skip-approval", approval.identity⟩

/-- `findings` in the end. -/
def Package.findings (package : Package) : Except Uncaught (List IntegrityFinding) := do
  let (approvals, documentFindings) ← readApprovedSkips package.document
  let fileFindings ← forEach (fileFindings approvals) package.files
  let gateFindings ← forEach (gateFindings package.alnum) package.gateFiles
  .ok (documentFindings ++ fileFindings ++ staleFindings package ++ gateFindings)

/-- `inspect_package`. -/
def inspectPackage (package : Package) : Except Uncaught IntegrityReport :=
  package.findings.map fun findings =>
    { findings := sortedSet IntegrityFinding.le findings
      testIdentities := sortedSet (fun left right => decide (left ≤ right))
        (package.files.flatMap fileTestIdentities)
      mockLocations := sortedSet (fun left right => decide (left ≤ right))
        (package.files.flatMap fun file => mockLocations file file.body)
      approvedSkipIdentities := sortedSet (fun left right => decide (left ≤ right))
        package.encountered }

end PackageIntegrity
