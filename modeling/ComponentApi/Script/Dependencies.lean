import ComponentApi.Script.Scope

/-!
# Dependencies

The names that an expression depends on: those it mentions outside the functions and blocks that
bind them. Only those forms of expressions and statements are looked into that values usually
have.
-/

namespace ComponentApi.Script

mutual

/-- The names that an expression mentions, except for the bound ones. -/
def Expr.mentions (bound : List String) : Expr → List String
  | .ident id => if bound.contains id.name then [] else [id.name]
  | .member _ e _ | .privateMember _ e | .chain _ e | .spread _ e | .unary _ _ e | .assign _ _ _ e
  | .paren _ e | .awaiting _ e | .asType _ e | .satisfies _ e | .nonNull _ e => e.mentions bound
  | .index _ a b | .binary _ _ a b | .logical _ _ a b => a.mentions bound ++ b.mentions bound
  | .conditional _ test a b => test.mentions bound ++ a.mentions bound ++ b.mentions bound
  | .object _ properties => mentionsOfProperties bound properties
  | .array _ es | .sequence _ es | .template _ _ es => mentionsOfExprs bound es
  | .tagged _ e es | .call _ e es | .newCall _ e es => e.mentions bound ++ mentionsOfExprs bound es
  | .arrow _ definition | .functionExpr _ definition => definition.mentions bound
  | _ => []

/-- The names that expressions mention, except for the bound ones. -/
def mentionsOfExprs (bound : List String) : List Expr → List String
  | [] => []
  | e :: rest => e.mentions bound ++ mentionsOfExprs bound rest

/-- The names that the properties of an object mention, except for the bound ones. -/
def mentionsOfProperties (bound : List String) : List Property → List String
  | [] => []
  | .field key _ value :: rest =>
    key.mentions bound ++ value.mentions bound ++ mentionsOfProperties bound rest
  | .method key value :: rest =>
    key.mentions bound ++ value.mentions bound ++ mentionsOfProperties bound rest
  | .spread e :: rest => e.mentions bound ++ mentionsOfProperties bound rest

/-- The names that a computed key mentions, except for the bound ones. -/
def Key.mentions (bound : List String) : Key → List String
  | .computed e => e.mentions bound
  | .name _ | .privateName => []

/-- The names that the body of a function mentions, except for the bound ones and its own. -/
def Function.mentions (bound : List String) : Function → List String
  | .mk id params body =>
    (mentionsOfStmts (bound ++ (Function.mk id params body).paramNames) body).1

/-- The names that a statement mentions, except for the bound ones, and what is bound after it. -/
def Stmt.mentions (bound : List String) : Stmt → List String × List String
  | .expr _ e | .returns _ (some e) => (e.mentions bound, bound)
  | .variable _ _ declarators => mentionsOfDeclarators bound declarators
  | .ifElse _ test consequent alternate =>
    let (first, bound') := consequent.mentions bound
    let (second, bound'') := alternate.mentions bound'
    (test.mentions bound ++ first ++ second, bound'')
  | .block _ body => ((mentionsOfStmts bound body).1, bound)
  | _ => ([], bound)

/-- The names that statements mention, except for the bound ones, and what is bound after them. -/
def mentionsOfStmts (bound : List String) : List Stmt → List String × List String
  | [] => ([], bound)
  | statement :: rest =>
    let (first, bound') := statement.mentions bound
    let (others, bound'') := mentionsOfStmts bound' rest
    (first ++ others, bound'')

/-- The names that bindings mention, except for the bound ones, and what is bound after them. -/
def mentionsOfDeclarators (bound : List String) : List Declarator → List String × List String
  | [] => ([], bound)
  | .mk _ pattern init :: rest =>
    let first := match init with
      | some e => e.mentions bound
      | none => []
    let (others, bound') :=
      mentionsOfDeclarators (bound ++ pattern.boundNames.map (·.name)) rest
    (first ++ others, bound')

end

/-- The names that an expression depends on, each once, in the order of their first mention. -/
def Expr.dependencies (e : Expr) : List String :=
  (e.mentions []).eraseDups

end ComponentApi.Script
