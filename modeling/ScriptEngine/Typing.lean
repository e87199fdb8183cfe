import ScriptEngine.Tree.Basic

/-!
# Types of expressions

The shapes that an analysis finds for expressions, and the common shape of two of them. `unknown`
stands for what only a run can tell, `error` for what has been reported already.
-/

namespace ScriptEngine

/-- The shape of a value. Members of an entity stand in the order of their declaration. -/
inductive TypeExpr
  | number
  | string
  | bool
  | unit
  | null
  | array (item : TypeExpr)
  | tuple (items : List TypeExpr)
  | map (value : TypeExpr)
  | entity (members : List (String × TypeExpr))
  | function (params : List TypeExpr) (result : TypeExpr)
  | promise (value : TypeExpr)
  | error
  | unknown
deriving Repr, Inhabited

namespace TypeExpr

mutual

/-- The text of a type. -/
def text : TypeExpr → String
  | .number => "number"
  | .string => "string"
  | .bool => "bool"
  | .unit => "unit"
  | .null => "null"
  | .array item => "[" ++ item.text ++ "]"
  | .tuple items => "(" ++ ", ".intercalate (texts items) ++ ")"
  | .map value => "[string: " ++ value.text ++ "]"
  | .entity members => "\x7b" ++ ", ".intercalate (memberTexts members) ++ "\x7d"
  | .function params result =>
    "(" ++ ", ".intercalate (texts params) ++ ") -> " ++ result.text
  | .promise value => "promise<" ++ value.text ++ ">"
  | .error => "<error>"
  | .unknown => "?"

/-- The texts of types. -/
def texts : List TypeExpr → List String
  | [] => []
  | type :: types => type.text :: texts types

/-- The texts of the members of an entity. -/
def memberTexts : List (String × TypeExpr) → List String
  | [] => []
  | (name, type) :: members => (name ++ ": " ++ type.text) :: memberTexts members

end

/-- The type of a literal. -/
def ofLiteral : Literal → TypeExpr
  | .number _ => .number
  | .string _ => .string
  | .bool _ => .bool
  | .null => .null
  | .unit => .unit

/-- A function with this many parameters of which nothing is known. -/
def functionOf (arity : Nat) (result : TypeExpr) : TypeExpr :=
  .function (List.replicate arity .unknown) result

/-- Already reported. -/
def isError : TypeExpr → Bool
  | .error => true
  | _ => false

/-- A text. -/
def isString : TypeExpr → Bool
  | .string => true
  | _ => false

/-- A shape that must not raise another warning. -/
def isIndeterminate : TypeExpr → Bool
  | .unknown | .error => true
  | _ => false

/-- A shape that arithmetic may work on. -/
def isNumeric : TypeExpr → Bool
  | .number | .unknown | .error => true
  | _ => false

/-- The type of the first member with this name. -/
def memberOf? (members : List (String × TypeExpr)) (name : String) : Option TypeExpr :=
  (members.find? fun member => member.1 == name).map (·.2)

/-- The type of a member of an entity. -/
def member? (type : TypeExpr) (name : String) : Option TypeExpr :=
  match type with
  | .entity members => memberOf? members name
  | _ => none

/-- What a call with this many arguments gives: fewer than the parameters leave a function of the
others, more are a fault. -/
def callResult? (type : TypeExpr) (count : Nat) : Option TypeExpr :=
  match type with
  | .function params result =>
    if count < params.length then some (.function (params.drop count) result)
    else if count = params.length then some result
    else none
  | .error => some .error
  | _ => some .unknown

/-- What a type test on a value of this type gives, when the type decides it. -/
def satisfies? : TypeExpr → TypeName → Option Bool
  | .unknown, _ => none
  | .error, _ => none
  | .number, name => some (name = .number)
  | .string, name => some (name = .string)
  | .bool, name => some (name = .bool)
  | .unit, name => some (name = .unit)
  | .null, name => some (name = .null)
  | .array _, name => some (name = .array)
  | .tuple _, name => some (name = .tuple)
  | .map _, name => some (name = .map)
  | .entity _, name => some (name = .object)
  | .function .., name => some (name = .function)
  | .promise _, name => some (name = .promise)

end TypeExpr

/-- Two types with no common shape. -/
structure TypeMismatch where
  left : TypeExpr
  right : TypeExpr
deriving Repr, Inhabited

/-- The wording of a mismatch. -/
def TypeMismatch.message (m : TypeMismatch) : String :=
  "cannot unify " ++ m.left.text ++ " with " ++ m.right.text

namespace TypeExpr

/-- The common shape of two types that are not built alike: an error absorbs the other, an unknown
or a null gives way to it, and two equal plain types are that type. -/
def settle : TypeExpr → TypeExpr → Except TypeMismatch TypeExpr
  | .error, _ => .ok .error
  | _, .error => .ok .error
  | .unknown, right => .ok right
  | left, .unknown => .ok left
  | .null, right => .ok right
  | left, .null => .ok left
  | .number, .number => .ok .number
  | .string, .string => .ok .string
  | .bool, .bool => .ok .bool
  | .unit, .unit => .ok .unit
  | left, right => .error ⟨left, right⟩

mutual

/-- The common shape of two types. The members of two entities are joined; members that conflict
become unknown. -/
def unify : TypeExpr → TypeExpr → Except TypeMismatch TypeExpr
  | .array left, .array right => do return .array (← unify left right)
  | .map left, .map right => do return .map (← unify left right)
  | .promise left, .promise right => do return .promise (← unify left right)
  | .tuple left, .tuple right =>
    if left.length = right.length then do return .tuple (← unifyEach left right)
    else .error ⟨.tuple left, .tuple right⟩
  | .entity left, .entity right =>
    .ok (.entity (joinMembers left right ++
      right.filter fun member => (memberOf? left member.1).isNone))
  | .function left leftResult, .function right rightResult =>
    if left.length = right.length then do
      let params ← unifyEach left right
      return .function params (← unify leftResult rightResult)
    else .error ⟨.function left leftResult, .function right rightResult⟩
  | left, right => settle left right

/-- The common shapes of two lists, item by item. -/
def unifyEach : List TypeExpr → List TypeExpr → Except TypeMismatch (List TypeExpr)
  | left :: lefts, right :: rights => do
    let first ← unify left right
    return first :: (← unifyEach lefts rights)
  | _, _ => .ok []

/-- The members of one entity, those that another one has too in their common shape. -/
def joinMembers : List (String × TypeExpr) → List (String × TypeExpr) → List (String × TypeExpr)
  | [], _ => []
  | (name, type) :: members, right =>
    let joined := match memberOf? right name with
      | some other =>
        match unify type other with
        | .ok common => common
        | .error _ => .unknown
      | none => type
    (name, joined) :: joinMembers members right

end

/-- The common shape of types from left to right, unknown if two of them conflict. -/
def unifyAll (types : List TypeExpr) : TypeExpr :=
  match types.foldlM unify .unknown with
  | .ok common => common
  | .error _ => .unknown

end TypeExpr

end ScriptEngine
