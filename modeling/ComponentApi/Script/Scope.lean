import ComponentApi.Script.Tree

/-!
# Names that a script binds

The names that patterns, parameters and declarations bind, in the order of the text.
-/

namespace ComponentApi.Script

mutual

/-- The names that a pattern binds. -/
def Pattern.boundNames : Pattern → List Ident
  | .ident id => [id]
  | .object _ patterns | .array _ patterns => boundNamesOfPatterns patterns
  | .property _ pattern | .rest pattern | .withDefault _ pattern _ => pattern.boundNames
  | .hole => []

/-- The names that patterns bind. -/
def boundNamesOfPatterns : List Pattern → List Ident
  | [] => []
  | pattern :: rest => pattern.boundNames ++ boundNamesOfPatterns rest

end

/-- The pattern of a parameter. -/
def Param.pattern : Param → Pattern
  | .plain _ pattern _ | .rest _ pattern => pattern

/-- The names that the parameters of a function bind. -/
def Function.paramNames : Function → List String
  | .mk _ params _ => params.flatMap fun param => param.pattern.boundNames.map (·.name)

/-- The names that a declaration binds. -/
def Stmt.boundNames : Stmt → List Ident
  | .variable _ _ declarators => declarators.flatMap fun (.mk _ pattern _) => pattern.boundNames
  | .function _ (.mk id _ _) | .classDef _ (.mk _ id _ _) => id.toList
  | _ => []

/-- The names that a statement exports. -/
def Stmt.exportedNames : Stmt → List String
  | .exportDeclaration _ _ declaration => declaration.boundNames.map (·.name)
  | .exportNames _ _ specifiers _ => specifiers.map (·.exported.name)
  | .exportAll _ exported => (exported.map (·.name)).toList
  | .exportDefault _ _ => ["default"]
  | _ => []

end ComponentApi.Script
