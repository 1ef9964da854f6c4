/-
The syntax trees `ast.parse` makes, as far as a scanner of test code looks at them: names and
attributes, calls, literals, imports, functions, classes and handlers.  Whatever else there is
keeps its children, so that a walk passes through it.  And what the calls among them evaluate to
and give to parameters.
-/
import SecretsCustody.JsonText

namespace PythonSyntax

open JsonText

/-! ### Trees -/

/-- The full stop. -/
def dot : Nat := 46

/-- An identifier holds something, and no full stop. -/
structure Ident where
  text : PyStr
  named : text ≠ []
  plain : dot ∉ text
  deriving DecidableEq

/-- What a constant is.  The value of an integer is looked at where it becomes a float, that of
another number nowhere. -/
inductive Constant where
  | none
  | bool (value : Bool)
  | int (value : Nat)
  | float
  | complex
  | str (text : PyStr)
  | bytes
  | ellipsis
  deriving DecidableEq

/-- `name as asname` in an import. -/
structure Alias where
  name : PyStr
  asname : Option Ident
  deriving DecidableEq

/-- `alias.asname or alias.name`. -/
def localName (imported : Alias) : PyStr :=
  match imported.asname with
  | some id => id.text
  | none => imported.name

/-- A node.  Functions are plain or `async`; `signed` is a unary plus or minus, `sum` a binary
one; a display of a dict has an `item` or an `unpacked` value for each of its keys. -/
inductive Node where
  | name (id : Ident)
  | attribute (value : Node) (attr : Ident)
  | call (lineno : Nat) (func : Node) (args keywords : List Node)
  | keyword (arg : Option Ident) (value : Node)
  | constant (value : Constant)
  | tuple (elts : List Node)
  | list (elts : List Node)
  | set (elts : List Node)
  | dict (items : List Node)
  | item (key value : Node)
  | unpacked (value : Node)
  | starred (value : Node)
  | signed (operand : Node)
  | sum (left right : Node)
  | expr (value : Node)
  | pass
  | importModules (lineno : Nat) (names : List Alias)
  | importFrom (lineno level : Nat) (module : Option PyStr) (names : List Alias)
  | functionDef (lineno : Nat) (name : Ident) (decorators body others : List Node)
  | classDef (lineno : Nat) (name : Ident) (bases decorators body others : List Node)
  | exceptHandler (lineno : Nat) (body others : List Node)
  | other (children : List Node)

mutual

/-- The nodes below a node. -/
def below : Node → List Node
  | .name _ => []
  | .attribute value _ => value :: below value
  | .call _ func args keywords => func :: below func ++ walkAll args ++ walkAll keywords
  | .keyword _ value => value :: below value
  | .constant _ => []
  | .tuple elts => walkAll elts
  | .list elts => walkAll elts
  | .set elts => walkAll elts
  | .dict items => walkAll items
  | .item key value => key :: below key ++ value :: below value
  | .unpacked value => value :: below value
  | .starred value => value :: below value
  | .signed operand => operand :: below operand
  | .sum left right => left :: below left ++ right :: below right
  | .expr value => value :: below value
  | .pass => []
  | .importModules _ _ => []
  | .importFrom _ _ _ _ => []
  | .functionDef _ _ decorators body others =>
      walkAll decorators ++ walkAll body ++ walkAll others
  | .classDef _ _ bases decorators body others =>
      walkAll bases ++ walkAll decorators ++ walkAll body ++ walkAll others
  | .exceptHandler _ body others => walkAll body ++ walkAll others
  | .other children => walkAll children

/-- `ast.walk` over some nodes, in another order. -/
def walkAll : List Node → List Node
  | [] => []
  | node :: nodes => node :: below node ++ walkAll nodes

end

/-! ### Names -/

/-- A name with its attributes, joined by full stops; what is no name has none. -/
def dottedName : Node → Option PyStr
  | .name id => some id.text
  | .attribute value attr =>
      match dottedName value with
      | some owner => some (owner ++ dot :: attr.text)
      | none => some attr.text
  | _ => none

/-- `text.rsplit(".", 1)[-1]`. -/
def lastPart (text : PyStr) : PyStr :=
  (text.reverse.takeWhile (· ≠ dot)).reverse

/-- `text.split(".", 1)[0]`. -/
def firstPart (text : PyStr) : PyStr :=
  text.takeWhile (· ≠ dot)

/-! ### Literals -/

/-- What `ast.literal_eval` gives: a constant, a number made with signs, or a collection, of
which `set` and `dict` ask whether it has a hash. -/
inductive Value where
  | constant (value : Constant)
  | number
  | collection (hashable : Bool)
  deriving DecidableEq

def Value.hashable : Value → Bool
  | .collection hashable => hashable
  | _ => true

def Node.isReal : Node → Bool
  | .constant (.int _) => true
  | .constant .float => true
  | _ => false

def Node.isImaginary : Node → Bool
  | .constant .complex => true
  | _ => false

def Node.isSignedReal : Node → Bool
  | .signed operand => operand.isReal
  | node => node.isReal

/-- An integer, with a sign or without one, that is too large to become a float. -/
def Node.exceedsFloat : Node → Bool
  | .signed (.constant (.int value)) => 2 ^ 1024 - 2 ^ 970 ≤ value
  | .constant (.int value) => 2 ^ 1024 - 2 ^ 970 ≤ value
  | _ => false

/-- What `ast.literal_eval` raises: a `ValueError` or a `TypeError`, or an `OverflowError`. -/
inductive LiteralError where
  | malformed
  | overflow
  deriving DecidableEq

mutual

/-- `ast.literal_eval`. -/
def literalEval : Node → Except LiteralError Value
  | .constant value => .ok (.constant value)
  | .tuple elts =>
      match literalEach elts with
      | .ok values => .ok (.collection (values.all Value.hashable))
      | .error error => .error error
  | .list elts =>
      match literalEach elts with
      | .ok _ => .ok (.collection false)
      | .error error => .error error
  | .set elts => literalMembers elts
  | .call _ (.name id) [] [] =>
      if id.text = codes "set" then .ok (.collection false) else .error .malformed
  | .dict items => literalItems items
  | .signed operand =>
      if operand.isReal || operand.isImaginary then .ok .number else .error .malformed
  | .sum left right =>
      if left.isSignedReal && right.isImaginary then
        if left.exceedsFloat then .error .overflow else .ok .number
      else .error .malformed
  | _ => .error .malformed

def literalEach : List Node → Except LiteralError (List Value)
  | [] => .ok []
  | node :: nodes =>
      match literalEval node with
      | .error error => .error error
      | .ok value =>
          match literalEach nodes with
          | .error error => .error error
          | .ok values => .ok (value :: values)

/-- The members of a set display, each of which has a hash. -/
def literalMembers : List Node → Except LiteralError Value
  | [] => .ok (.collection false)
  | node :: nodes =>
      match literalEval node with
      | .error error => .error error
      | .ok value => if value.hashable then literalMembers nodes else .error .malformed

/-- The entries of a dict display: keys that have a hash, and values. -/
def literalItems : List Node → Except LiteralError Value
  | [] => .ok (.collection false)
  | .item key value :: items =>
      match literalEval key with
      | .error error => .error error
      | .ok found =>
          match literalEval value with
          | .error error => .error error
          | .ok _ => if found.hashable then literalItems items else .error .malformed
  | _ :: _ => .error .malformed

end

/-- A node that is made of literals, as `ast.literal_eval` takes them. -/
def Literal (node : Node) : Prop :=
  literalEval node ≠ .error .malformed

instance (node : Node) : Decidable (Literal node) :=
  inferInstanceAs (Decidable (_ ≠ _))

def Value.text : Value → Option PyStr
  | .constant (.str text) => some text
  | _ => none

/-- The value is `True` or `False`. -/
def Value.isBool : Value → Bool
  | .constant (.bool _) => true
  | _ => false

/-- The text of a literal string. -/
def literalText (node : Node) : Option PyStr :=
  match literalEval node with
  | .ok value => value.text
  | .error _ => none

/-- The node is `True` or `False`. -/
def isLiteralBool (node : Node) : Bool :=
  match literalEval node with
  | .ok value => value.isBool
  | .error _ => false

/-! ### Arguments -/

def Node.isStarred : Node → Bool
  | .starred _ => true
  | _ => false

/-- A `**` argument. -/
def Node.isUnpacking : Node → Bool
  | .keyword none _ => true
  | _ => false

/-- The names of the keywords of a call. -/
def keywordNames (keywords : List Node) : List PyStr :=
  keywords.filterMap fun
    | .keyword (some id) _ => some id.text
    | _ => none

/-- A call can give each of the parameters once: some of them by position, the others by name.
A starred argument stands for any number of positions, and an unpacked one for any names. -/
def Binds (parameters : List PyStr) (args keywords : List Node) : Prop :=
  ∃ count ≤ parameters.length,
    (args.countP fun arg => !arg.isStarred) ≤ count ∧
      ((∀ arg ∈ args, arg.isStarred = false) → args.length = count) ∧
      (keywordNames keywords).Subperm (parameters.drop count) ∧
      ((∀ keyword ∈ keywords, keyword.isUnpacking = false) →
        (keywordNames keywords).Perm (parameters.drop count))

/-- What a call gives to a parameter by position, behind no starred argument. -/
def givenAt (args : List Node) (position : Nat) : Option Node :=
  if (args.take (position + 1)).any Node.isStarred then none else args[position]?

/-- What a call gives to a parameter by name. -/
def givenAs (keywords : List Node) (parameter : PyStr) : Option Node :=
  keywords.findSome? fun
    | .keyword (some id) value => if id.text = parameter then some value else none
    | _ => none

/-- What a call is seen to give to a parameter: at its position, or by its name. -/
def given (parameters : List PyStr) (args keywords : List Node) (parameter : PyStr) :
    Option Node :=
  ((parameters.idxOf? parameter).bind (givenAt args)).or (givenAs keywords parameter)

end PythonSyntax
