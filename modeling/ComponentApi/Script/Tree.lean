import ComponentApi.Item.Basic
import ComponentApi.Text.Position

/-!
# Script trees

The tree of a script: expressions, patterns, functions, classes and statements, each with the
span of its text. Parentheses are kept. Type annotations leave no trace in the tree, since nothing
in a component is documented by them; the expressions that carry one (`x as T`, `x!`) are kept.
-/

namespace ComponentApi.Script

/-- An identifier at a place in a script. -/
structure Ident where
  name : String
  span : Span
  deriving DecidableEq, Repr, Inhabited

/-- What an import takes from its module. -/
inductive ImportName where
  | named (remote : String) (typeOnly : Bool)
  | wholeDefault
  | wholeNamespace
  deriving DecidableEq, Repr, Inhabited

/-- One name of an import. -/
structure ImportSpecifier where
  span : Span
  name : ImportName
  localName : Ident
  deriving DecidableEq, Repr, Inhabited

/-- An import; without specifiers if it only runs the module. -/
structure ImportDeclaration where
  typeOnly : Bool
  specifiers : List ImportSpecifier
  source : String
  deriving DecidableEq, Repr, Inhabited

/-- One name of an export. -/
structure ExportSpecifier where
  span : Span
  typeOnly : Bool
  localName : String
  exported : Ident
  deriving DecidableEq, Repr, Inhabited

mutual

/-- An expression. -/
inductive Expr where
  | ident (id : Ident)
  | string (span : Span) (value : String)
  /-- A number, by the text that the language gives to its value. -/
  | number (span : Span) (name : String)
  | bigInt (span : Span) (name : String)
  | boolean (span : Span)
  | null (span : Span)
  | regExp (span : Span)
  | thisRef (span : Span)
  | superRef (span : Span)
  /-- `import.meta` or `new.target`. -/
  | metaProperty (span : Span)
  /-- A template with the texts between its expressions. -/
  | template (span : Span) (texts : List String) (expressions : List Expr)
  | tagged (span : Span) (tag : Expr) (expressions : List Expr)
  | array (span : Span) (elements : List Expr)
  /-- An element of an array that is left out. -/
  | hole (span : Span)
  /-- A spread element of an array or of a list of arguments. -/
  | spread (span : Span) (argument : Expr)
  | object (span : Span) (properties : List Property)
  | functionExpr (span : Span) (definition : Function)
  | arrow (span : Span) (definition : Function)
  | classExpr (span : Span) (definition : Class)
  | unary (span : Span) (operator : String) (argument : Expr)
  | update (span : Span) (argument : Expr)
  | binary (span : Span) (operator : String) (left right : Expr)
  | logical (span : Span) (operator : String) (left right : Expr)
  /-- `#name in object`. -/
  | privateIn (span : Span) (object : Expr)
  | assign (span : Span) (operator : String) (target value : Expr)
  | conditional (span : Span) (test consequent alternate : Expr)
  | sequence (span : Span) (expressions : List Expr)
  | call (span : Span) (callee : Expr) (arguments : List Expr)
  | newCall (span : Span) (callee : Expr) (arguments : List Expr)
  | member (span : Span) (object : Expr) (property : Ident)
  | index (span : Span) (object key : Expr)
  | privateMember (span : Span) (object : Expr)
  /-- A whole optional chain. -/
  | chain (span : Span) (expression : Expr)
  | importCall (span : Span) (arguments : List Expr)
  | awaiting (span : Span) (argument : Expr)
  | yielding (span : Span) (argument : Option Expr)
  | paren (span : Span) (expression : Expr)
  /-- `x as T`. -/
  | asType (span : Span) (expression : Expr)
  /-- `x satisfies T`. -/
  | satisfies (span : Span) (expression : Expr)
  /-- `x!`. -/
  | nonNull (span : Span) (expression : Expr)
  /-- `<T>x`. -/
  | typeAssertion (span : Span) (expression : Expr)
  /-- `f<T>`. -/
  | instantiation (span : Span) (expression : Expr)

/-- The name of a property, or of a member of a class. -/
inductive Key where
  /-- An identifier, a string or a number, by the name it stands for. -/
  | name (name : String)
  | privateName
  | computed (expression : Expr)

/-- A property of an object. -/
inductive Property where
  /-- A name and a value; `shorthand` if the value is the variable of the same name, or in a target
  the assignment of its default. -/
  | field (key : Key) (shorthand : Bool) (value : Expr)
  /-- A method or an accessor, whose value is a function. -/
  | method (key : Key) (value : Expr)
  | spread (argument : Expr)

/-- A pattern that binds names. -/
inductive Pattern where
  | ident (id : Ident)
  | object (span : Span) (properties : List Pattern)
  | array (span : Span) (elements : List Pattern)
  /-- A property of an object pattern. -/
  | property (key : Key) (value : Pattern)
  /-- An element of an array that is left out. -/
  | hole
  /-- The rest of an array or of an object. -/
  | rest (argument : Pattern)
  | withDefault (span : Span) (pattern : Pattern) (default : Expr)

/-- A parameter of a function. Its default stands beside its pattern. -/
inductive Param where
  | plain (decorators : List Expr) (pattern : Pattern) (default : Option Expr)
  /-- The last parameter, if it takes all further arguments. -/
  | rest (decorators : List Expr) (pattern : Pattern)

/-- A function. A function that is only declared has an empty body. -/
inductive Function where
  | mk (id : Option Ident) (params : List Param) (body : List Stmt)

/-- A class. -/
inductive Class where
  | mk (decorators : List Expr) (id : Option Ident) (parent : Option Expr) (members : List Member)

/-- A member of a class. -/
inductive Member where
  | method (decorators : List Expr) (key : Key) (definition : Function)
  | field (decorators : List Expr) (key : Key) (value : Option Expr)
  /-- A field with accessors of its own. -/
  | accessor (decorators : List Expr) (key : Key) (value : Option Expr)
  | staticBlock (body : List Stmt)

/-- One binding of a variable declaration. -/
inductive Declarator where
  | mk (span : Span) (pattern : Pattern) (init : Option Expr)

/-- A case of a `switch`. -/
inductive Case where
  | mk (test : Option Expr) (body : List Stmt)

/-- A statement. -/
inductive Stmt where
  | expr (span : Span) (expression : Expr)
  | variable (span : Span) (kind : VariableKind) (declarators : List Declarator)
  | function (span : Span) (definition : Function)
  | classDef (span : Span) (definition : Class)
  | returns (span : Span) (argument : Option Expr)
  | throws (span : Span) (argument : Expr)
  | block (span : Span) (body : List Stmt)
  /-- A choice; where there is no `else`, the alternate is inert. -/
  | ifElse (span : Span) (test : Expr) (consequent alternate : Stmt)
  /-- A loop; it starts with a declaration, with an expression or with something inert. -/
  | forLoop (span : Span) (init : Stmt) (test update : Option Expr) (body : Stmt)
  /-- A loop over the keys or the values of an object, into a declaration or a target. -/
  | forEach (span : Span) (left : Stmt) (right : Expr) (body : Stmt)
  | whileLoop (span : Span) (test : Expr) (body : Stmt)
  | doWhile (span : Span) (body : Stmt) (test : Expr)
  | switch (span : Span) (discriminant : Expr) (cases : List Case)
  | tryCatch (span : Span) (block : List Stmt) (param : Pattern) (handler finalizer : List Stmt)
  | labeled (span : Span) (label : Ident) (body : Stmt)
  | withObject (span : Span) (object : Expr) (body : Stmt)
  /-- A statement without parts that run. -/
  | inert (span : Span)
  /-- An enumeration, with the names of its members and the values that are written. -/
  | enumeration (span : Span) (id : Ident) (members : List String) (values : List Expr)
  /-- The body of a namespace, with the names that lead to it. -/
  | namespaceBody (span : Span) (path : List Ident) (body : List Stmt)
  | importFrom (span : Span) (declaration : ImportDeclaration)
  /-- `export` with a declaration. -/
  | exportDeclaration (span : Span) (typeOnly : Bool) (declaration : Stmt)
  /-- `export` with names, and perhaps the module they come from. -/
  | exportNames (span : Span) (typeOnly : Bool) (specifiers : List ExportSpecifier)
      (source : Option String)
  /-- `export` of all names of a module, perhaps as one name. -/
  | exportAll (span : Span) (exported : Option Ident)
  | exportDefault (span : Span) (value : Expr)

end

/-- The span of an expression. -/
def Expr.span : Expr → Span
  | .ident id => id.span
  | .string span _ | .number span _ | .bigInt span _ | .boolean span | .null span | .regExp span
  | .thisRef span | .superRef span | .metaProperty span | .template span _ _ | .tagged span _ _
  | .array span _ | .hole span | .spread span _ | .object span _ | .functionExpr span _
  | .arrow span _ | .classExpr span _ | .unary span _ _ | .update span _ | .binary span _ _ _
  | .logical span _ _ _ | .privateIn span _ | .assign span _ _ _ | .conditional span _ _ _
  | .sequence span _ | .call span _ _ | .newCall span _ _ | .member span _ _ | .index span _ _
  | .privateMember span _ | .chain span _ | .importCall span _ | .awaiting span _
  | .yielding span _ | .paren span _ | .asType span _ | .satisfies span _ | .nonNull span _
  | .typeAssertion span _ | .instantiation span _ => span

/-- An expression without the parentheses around it. -/
def Expr.withoutParens : Expr → Expr
  | .paren _ expression => expression.withoutParens
  | expression => expression

/-- Whether a key is a private name. -/
def Key.isPrivate : Key → Bool
  | .privateName => true
  | _ => false

/-- The span of a statement. -/
def Stmt.span : Stmt → Span
  | .expr span _ | .variable span _ _ | .function span _ | .classDef span _ | .returns span _
  | .throws span _ | .block span _ | .ifElse span _ _ _ | .forLoop span _ _ _ _
  | .forEach span _ _ _ | .whileLoop span _ _ | .doWhile span _ _ | .switch span _ _
  | .tryCatch span _ _ _ _ | .labeled span _ _ | .withObject span _ _ | .inert span
  | .enumeration span _ _ _ | .namespaceBody span _ _ | .importFrom span _
  | .exportDeclaration span _ _ | .exportNames span _ _ _ | .exportAll span _
  | .exportDefault span _ => span

end ComponentApi.Script
