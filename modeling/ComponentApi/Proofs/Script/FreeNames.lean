import Mathlib.Data.List.Basic
import Mathlib.Data.List.Induction
import Mathlib.Tactic.Basic
import ComponentApi.Proofs.Script.Patterns
import ComponentApi.Script.Dependencies

/-!
# Free names

A name is free in an expression if it is read there outside every scope that declares it. Functions
are scopes, which declare their parameters and what stands in their bodies, and so are blocks. A
scope declares a name for all of its text, also for what stands in front of the declaration.

What happens to names in a scope is listed in the order of the text (`Use`). What is declared in a
scope inside it plays no part outside, so of such a scope only the free names are listed. The names
that are free in a scope are then those that are read in it, other than the declared ones.

`Expr.freeNames` is meant for plain expressions (`Expr.isPlain`): they read and declare names in no
other way. Dependencies are found differently, by going through an expression with the names that
are bound so far. `dependencies_list_freeNames` says that this finds the free names, if no scope
reads a name before it declares it. What is bound so far is followed through the uses of a scope
(`follow`), and there it makes no difference whether a name is declared at all or was declared
before (`follow_eq_freeIn`).
-/

namespace ComponentApi.Script

/-! ### Uses of names -/

/-- What happens to a name in a scope. -/
inductive Use where
  | reads (name : String)
  | declares (name : String)
  deriving DecidableEq

/-- The name that is read. -/
def Use.read? : Use → Option String
  | .reads name => some name
  | .declares _ => none

/-- The name that is declared. -/
def Use.declared? : Use → Option String
  | .reads _ => none
  | .declares name => some name

/-- The names that are read, in the order of the text. -/
def readNames (uses : List Use) : List String :=
  uses.filterMap Use.read?

/-- The names that are declared, in the order of the text. -/
def declaredNames (uses : List Use) : List String :=
  uses.filterMap Use.declared?

/-- The names that are free in a scope with such uses, which declares other names as well. -/
def freeIn (own : List String) (uses : List Use) : List String :=
  (readNames uses).filter fun name => !own.contains name && !(declaredNames uses).contains name

mutual

/-- The names that are free in an expression, in the order of the text, as often as they are
read. -/
def Expr.freeNames : Expr → List String
  | .ident id => [id.name]
  | .member _ e _ | .privateMember _ e | .chain _ e | .spread _ e | .unary _ _ e | .assign _ _ _ e
  | .paren _ e | .awaiting _ e | .asType _ e | .satisfies _ e | .nonNull _ e => e.freeNames
  | .index _ a b | .binary _ _ a b | .logical _ _ a b => a.freeNames ++ b.freeNames
  | .conditional _ test a b => test.freeNames ++ a.freeNames ++ b.freeNames
  | .object _ properties => freeNamesOfProperties properties
  | .array _ es | .sequence _ es | .template _ _ es => freeNamesOfExprs es
  | .tagged _ e es | .call _ e es | .newCall _ e es => e.freeNames ++ freeNamesOfExprs es
  | .arrow _ definition | .functionExpr _ definition => definition.freeNames
  | _ => []

/-- The names that are free in expressions. -/
def freeNamesOfExprs : List Expr → List String
  | [] => []
  | e :: rest => e.freeNames ++ freeNamesOfExprs rest

/-- The names that are free in the properties of an object. Only a computed key reads names. -/
def freeNamesOfProperties : List Property → List String
  | [] => []
  | .field key _ value :: rest | .method key value :: rest =>
    key.freeNames ++ value.freeNames ++ freeNamesOfProperties rest
  | .spread e :: rest => e.freeNames ++ freeNamesOfProperties rest

/-- The names that are free in a key. -/
def Key.freeNames : Key → List String
  | .computed e => e.freeNames
  | .name _ | .privateName => []

/-- The names that are free in a function, which declares its own name and its parameters. -/
def Function.freeNames : Function → List String
  | .mk id params body =>
    freeIn (id.toList.map (·.name) ++ (Function.mk id params body).paramNames) (usesOfStmts body)

/-- What a statement does with the names of the scope that it stands in. -/
def Stmt.uses : Stmt → List Use
  | .expr _ e | .returns _ (some e) => e.freeNames.map .reads
  | .variable _ _ declarators => usesOfDeclarators declarators
  | .ifElse _ test consequent alternate =>
    test.freeNames.map .reads ++ consequent.uses ++ alternate.uses
  | .block _ body => (freeIn [] (usesOfStmts body)).map .reads
  | _ => []

/-- What statements do with the names of their scope. -/
def usesOfStmts : List Stmt → List Use
  | [] => []
  | statement :: rest => statement.uses ++ usesOfStmts rest

/-- What bindings do with the names of their scope: the names that paths in a pattern lead to
(`Pattern.boundNames_eq_iff`) are declared behind the initial value. -/
def usesOfDeclarators : List Declarator → List Use
  | [] => []
  | .mk _ pattern (some init) :: rest =>
    init.freeNames.map .reads ++ (pattern.boundNames.map (·.name)).map .declares ++
      usesOfDeclarators rest
  | .mk _ pattern none :: rest =>
    (pattern.boundNames.map (·.name)).map .declares ++ usesOfDeclarators rest

end

/-! ### Plain expressions -/

/-- Whether every name that a scope with such uses declares is declared before it is read. -/
def isTimely (uses : List Use) : Bool :=
  (declaredNames uses).all fun name => uses.idxOf (.declares name) < uses.idxOf (.reads name)

/-- Whether a key is not computed. -/
def Key.isFixed : Key → Bool
  | .computed _ => false
  | .name _ | .privateName => true

mutual

/-- Whether a pattern has neither defaults nor computed keys. -/
def Pattern.isPlain : Pattern → Bool
  | .ident _ | .hole => true
  | .object _ patterns | .array _ patterns => arePlainPatterns patterns
  | .property key pattern => key.isFixed && pattern.isPlain
  | .rest pattern => pattern.isPlain
  | .withDefault _ _ _ => false

/-- Whether patterns have neither defaults nor computed keys. -/
def arePlainPatterns : List Pattern → Bool
  | [] => true
  | pattern :: rest => pattern.isPlain && arePlainPatterns rest

end

/-- Whether a parameter is a plain pattern without a default. -/
def Param.isPlain : Param → Bool
  | .plain decorators pattern default => decorators.isEmpty && pattern.isPlain && default.isNone
  | .rest decorators pattern => decorators.isEmpty && pattern.isPlain

/-- Whether an expression is an identifier. -/
def Expr.isIdent : Expr → Bool
  | .ident _ => true
  | _ => false

/-- Whether a statement is inert, as a missing `else` is. -/
def Stmt.isInert : Stmt → Bool
  | .inert _ => true
  | _ => false

mutual

/-- Whether an expression is plain. Its functions have no name of their own and plain parameters,
and their bodies are made of expressions, `return`, `let` and `const`, choices and blocks, where no
scope reads a name before it declares it. Its assignments are those of a value to an identifier. -/
def Expr.isPlain : Expr → Bool
  | .ident _ | .string _ _ | .number _ _ | .bigInt _ _ | .boolean _ | .null _ | .regExp _
  | .thisRef _ | .superRef _ | .metaProperty _ | .hole _ => true
  | .member _ e _ | .privateMember _ e | .chain _ e | .spread _ e | .unary _ _ e | .paren _ e
  | .awaiting _ e | .asType _ e | .satisfies _ e | .nonNull _ e => e.isPlain
  | .assign _ operator target e => operator == "=" && target.isIdent && e.isPlain
  | .index _ a b | .binary _ _ a b | .logical _ _ a b => a.isPlain && b.isPlain
  | .conditional _ test a b => test.isPlain && a.isPlain && b.isPlain
  | .object _ properties => arePlainProperties properties
  | .array _ es | .sequence _ es | .template _ _ es => arePlainExprs es
  | .tagged _ e es | .call _ e es | .newCall _ e es => e.isPlain && arePlainExprs es
  | .arrow _ definition | .functionExpr _ definition => definition.isPlain
  | _ => false

/-- Whether expressions are plain. -/
def arePlainExprs : List Expr → Bool
  | [] => true
  | e :: rest => e.isPlain && arePlainExprs rest

/-- Whether the properties of an object are plain. -/
def arePlainProperties : List Property → Bool
  | [] => true
  | .field key _ value :: rest | .method key value :: rest =>
    key.isPlain && value.isPlain && arePlainProperties rest
  | .spread e :: rest => e.isPlain && arePlainProperties rest

/-- Whether a key is plain. -/
def Key.isPlain : Key → Bool
  | .computed e => e.isPlain
  | .name _ | .privateName => true

/-- Whether a function is plain. -/
def Function.isPlain : Function → Bool
  | .mk id params body =>
    id.isNone && params.all Param.isPlain && arePlainStmts body && isTimely (usesOfStmts body)

/-- Whether a statement of a function is plain. -/
def Stmt.isPlain : Stmt → Bool
  | .expr _ e | .returns _ (some e) => e.isPlain
  | .returns _ none => true
  | .variable _ kind declarators => kind != .var && arePlainDeclarators declarators
  | .ifElse _ test consequent alternate =>
    test.isPlain && consequent.isPlain && (alternate.isInert || alternate.isPlain)
  | .block _ body => arePlainStmts body && isTimely (usesOfStmts body)
  | _ => false

/-- Whether statements of a function are plain. -/
def arePlainStmts : List Stmt → Bool
  | [] => true
  | statement :: rest => statement.isPlain && arePlainStmts rest

/-- Whether bindings are plain. -/
def arePlainDeclarators : List Declarator → Bool
  | [] => true
  | .mk _ pattern (some init) :: rest =>
    pattern.isPlain && init.isPlain && arePlainDeclarators rest
  | .mk _ pattern none :: rest => pattern.isPlain && arePlainDeclarators rest

end

/-! ### Uses in their order -/

/-- The names that are not bound. -/
def unbound (bound names : List String) : List String :=
  names.filter fun name => !bound.contains name

/-- Names are left over from two lists as from each. -/
lemma unbound_append (bound names names' : List String) :
    unbound bound (names ++ names') = unbound bound names ++ unbound bound names' :=
  List.filter_append ..

/-- The names that are read while they are not bound, and what is bound afterwards. -/
def follow (bound : List String) : List Use → List String × List String
  | [] => ([], bound)
  | .reads name :: rest =>
    (unbound bound [name] ++ (follow bound rest).1, (follow bound rest).2)
  | .declares name :: rest => follow (bound ++ [name]) rest

/-- Uses behind others are followed with the names that those have bound. -/
lemma follow_append (bound : List String) (uses uses' : List Use) :
    follow bound (uses ++ uses') =
      ((follow bound uses).1 ++ (follow (follow bound uses).2 uses').1,
        (follow (follow bound uses).2 uses').2) := by
  induction uses generalizing bound with
  | nil => rfl
  | cons use rest ih =>
    cases use with
    | reads name => simp only [List.cons_append, follow, ih, List.append_assoc]
    | declares name => simp only [List.cons_append, follow, ih]

/-- What is read is mentioned unless it is bound, and binds nothing. -/
lemma follow_reads (bound names : List String) :
    follow bound (names.map .reads) = (unbound bound names, bound) := by
  induction names with
  | nil => rfl
  | cons name rest ih =>
    simp only [List.map_cons, follow, ih, ← unbound_append, List.singleton_append]

/-- What is declared is bound, and mentions nothing. -/
lemma follow_declares (bound names : List String) :
    follow bound (names.map .declares) = ([], bound ++ names) := by
  induction names generalizing bound with
  | nil => simp [follow]
  | cons name rest ih => simp [follow, ih]

/-- The names that uses declare are those that the first declare, and then the others. -/
lemma declaredNames_append (uses uses' : List Use) :
    declaredNames (uses ++ uses') = declaredNames uses ++ declaredNames uses' :=
  List.filterMap_append

/-- A name is declared if one of the uses declares it. -/
lemma mem_declaredNames {uses : List Use} {name : String} :
    name ∈ declaredNames uses ↔ .declares name ∈ uses := by
  rw [declaredNames, List.mem_filterMap]
  constructor
  · rintro ⟨use, hmem, hname⟩
    cases use with
    | reads name' => cases hname
    | declares name' =>
      cases hname
      exact hmem
  · intro hmem
    exact ⟨_, hmem, rfl⟩

/-- In a timely scope, what is read has been declared before, if it is declared at all. -/
lemma declares_mem_of_isTimely {before after : List Use} {name : String}
    (h : isTimely (before ++ .reads name :: after) = true)
    (hdeclares : .declares name ∈ before ++ .reads name :: after) : .declares name ∈ before := by
  have hindex := List.all_eq_true.1 h name (mem_declaredNames.2 hdeclares)
  have hread : (before ++ .reads name :: after).idxOf (.reads name) ≤ before.length := by
    rw [List.idxOf_append]
    split
    · exact List.idxOf_le_length
    · simp
  by_contra hbefore
  rw [decide_eq_true_eq, List.idxOf_append_of_notMem hbefore] at hindex
  omega

/-- To follow the uses of a timely scope finds the names that are free in it. -/
lemma follow_eq_freeIn {uses : List Use} (h : isTimely uses = true) (bound : List String) :
    (follow bound uses).1 = freeIn bound uses := by
  -- Behind `before`, what it declares is bound, and the rest adds what is free in the whole scope.
  suffices key : ∀ rest before, before ++ rest = uses →
      (follow (bound ++ declaredNames before) rest).1 = (readNames rest).filter fun name =>
        !bound.contains name && !(declaredNames uses).contains name by
    simpa [freeIn, declaredNames] using key uses [] rfl
  intro rest
  induction rest with
  | nil =>
    intro before huses
    rfl
  | cons use rest ih =>
    rintro before rfl
    have ih := ih (before ++ [use]) (List.append_cons ..).symm
    rw [declaredNames_append, ← List.append_assoc] at ih
    cases use with
    | reads name =>
      have hbound : name ∈ declaredNames before ↔
          name ∈ declaredNames (before ++ .reads name :: rest) := by
        rw [mem_declaredNames, mem_declaredNames]
        exact ⟨List.mem_append_left _, declares_mem_of_isTimely h⟩
      have hread : readNames (.reads name :: rest) = [name] ++ readNames rest := rfl
      rw [show declaredNames [.reads name] = [] from rfl, List.append_nil] at ih
      rw [follow, ih, hread, List.filter_append]
      simp [unbound, List.filter_cons, hbound]
    | declares name => exact ih

/-- A bound name is not free, as if the scope declared it. -/
lemma unbound_freeIn (bound own : List String) (uses : List Use) :
    unbound bound (freeIn own uses) = freeIn (bound ++ own) uses := by
  rw [unbound, freeIn, freeIn, List.filter_filter]
  congr 1
  funext name
  simp [Bool.and_assoc]

/-! ### Mentions -/

/-- An inert statement mentions nothing and binds nothing, as its uses say. -/
lemma Stmt.mentions_eq_of_isInert {statement : Stmt} (h : statement.isInert = true)
    (bound : List String) : statement.mentions bound = follow bound statement.uses := by
  cases statement with
  | inert span => rfl
  | _ => cases h

mutual

/-- What a plain expression mentions are its free names, except for the bound ones. -/
theorem Expr.mentions_eq (bound : List String) :
    ∀ e : Expr, e.isPlain = true → e.mentions bound = unbound bound e.freeNames
  | .ident id, _ => by
    show (if bound.contains id.name then [] else [id.name]) = unbound bound [id.name]
    rw [unbound, List.filter_singleton]
    cases bound.contains id.name <;> rfl
  | .member _ e _, h | .privateMember _ e, h | .chain _ e, h | .spread _ e, h | .unary _ _ e, h
  | .paren _ e, h | .awaiting _ e, h | .asType _ e, h | .satisfies _ e, h | .nonNull _ e, h =>
    e.mentions_eq bound h
  | .assign _ _ _ e, h => e.mentions_eq bound (Bool.and_eq_true_iff.1 h).2
  | .index _ a b, h | .binary _ _ a b, h | .logical _ _ a b, h => by
    obtain ⟨ha, hb⟩ := Bool.and_eq_true_iff.1 h
    show a.mentions bound ++ b.mentions bound = unbound bound (a.freeNames ++ b.freeNames)
    rw [unbound_append, a.mentions_eq bound ha, b.mentions_eq bound hb]
  | .conditional _ test a b, h => by
    obtain ⟨h, hb⟩ := Bool.and_eq_true_iff.1 h
    obtain ⟨htest, ha⟩ := Bool.and_eq_true_iff.1 h
    show test.mentions bound ++ a.mentions bound ++ b.mentions bound =
      unbound bound (test.freeNames ++ a.freeNames ++ b.freeNames)
    rw [unbound_append, unbound_append, test.mentions_eq bound htest, a.mentions_eq bound ha,
      b.mentions_eq bound hb]
  | .object _ properties, h => mentionsOfProperties_eq bound properties h
  | .array _ es, h | .sequence _ es, h | .template _ _ es, h => mentionsOfExprs_eq bound es h
  | .tagged _ e es, h | .call _ e es, h | .newCall _ e es, h => by
    obtain ⟨he, hes⟩ := Bool.and_eq_true_iff.1 h
    show e.mentions bound ++ mentionsOfExprs bound es =
      unbound bound (e.freeNames ++ freeNamesOfExprs es)
    rw [unbound_append, e.mentions_eq bound he, mentionsOfExprs_eq bound es hes]
  | .arrow _ definition, h | .functionExpr _ definition, h => definition.mentions_eq bound h
  | .string _ _, _ | .number _ _, _ | .bigInt _ _, _ | .boolean _, _ | .null _, _ | .regExp _, _
  | .thisRef _, _ | .superRef _, _ | .metaProperty _, _ | .hole _, _ | .classExpr _ _, _
  | .update _ _, _ | .privateIn _ _, _ | .importCall _ _, _ | .yielding _ _, _
  | .typeAssertion _ _, _ | .instantiation _ _, _ => rfl

/-- Plain expressions mention their free names, except the bound ones. -/
theorem mentionsOfExprs_eq (bound : List String) :
    ∀ es : List Expr, arePlainExprs es = true →
      mentionsOfExprs bound es = unbound bound (freeNamesOfExprs es)
  | [], _ => rfl
  | e :: rest, h => by
    obtain ⟨he, hrest⟩ := Bool.and_eq_true_iff.1 h
    rw [mentionsOfExprs, e.mentions_eq bound he, mentionsOfExprs_eq bound rest hrest,
      ← unbound_append, freeNamesOfExprs]

/-- Plain properties mention their free names, except the bound ones. -/
theorem mentionsOfProperties_eq (bound : List String) :
    ∀ properties : List Property, arePlainProperties properties = true →
      mentionsOfProperties bound properties = unbound bound (freeNamesOfProperties properties)
  | [], _ => rfl
  | .field key _ value :: rest, h | .method key value :: rest, h => by
    obtain ⟨h, hrest⟩ := Bool.and_eq_true_iff.1 h
    obtain ⟨hkey, hvalue⟩ := Bool.and_eq_true_iff.1 h
    rw [mentionsOfProperties, key.mentions_eq bound hkey, value.mentions_eq bound hvalue,
      mentionsOfProperties_eq bound rest hrest, ← unbound_append, ← unbound_append,
      freeNamesOfProperties]
  | .spread e :: rest, h => by
    obtain ⟨he, hrest⟩ := Bool.and_eq_true_iff.1 h
    rw [mentionsOfProperties, e.mentions_eq bound he, mentionsOfProperties_eq bound rest hrest,
      ← unbound_append, freeNamesOfProperties]

/-- A plain key mentions its free names, except the bound ones. -/
theorem Key.mentions_eq (bound : List String) :
    ∀ key : Key, key.isPlain = true → key.mentions bound = unbound bound key.freeNames
  | .computed e, h => e.mentions_eq bound h
  | .name _, _ | .privateName, _ => rfl

/-- A plain function mentions its free names, except the bound ones. -/
theorem Function.mentions_eq (bound : List String) :
    ∀ definition : Function, definition.isPlain = true →
      definition.mentions bound = unbound bound definition.freeNames
  | .mk none params body, h => by
    obtain ⟨h, htimely⟩ := Bool.and_eq_true_iff.1 h
    obtain ⟨_, hbody⟩ := Bool.and_eq_true_iff.1 h
    rw [Function.mentions, mentionsOfStmts_eq _ body hbody, follow_eq_freeIn htimely,
      ← unbound_freeIn, Function.freeNames]
    rfl

/-- A plain statement mentions what following its uses gives. -/
theorem Stmt.mentions_eq (bound : List String) :
    ∀ statement : Stmt, statement.isPlain = true →
      statement.mentions bound = follow bound statement.uses
  | .expr _ e, h | .returns _ (some e), h => by
    show (e.mentions bound, bound) = follow bound (e.freeNames.map .reads)
    rw [follow_reads, e.mentions_eq bound h]
  | .variable _ _ declarators, h =>
    mentionsOfDeclarators_eq bound declarators (Bool.and_eq_true_iff.1 h).2
  | .ifElse _ test consequent alternate, h => by
    obtain ⟨h, halternate⟩ := Bool.and_eq_true_iff.1 h
    obtain ⟨htest, hconsequent⟩ := Bool.and_eq_true_iff.1 h
    have hlast (bound' : List String) :
        alternate.mentions bound' = follow bound' alternate.uses := by
      obtain hinert | hplain := Bool.or_eq_true_iff.1 halternate
      · exact Stmt.mentions_eq_of_isInert hinert bound'
      · exact alternate.mentions_eq bound' hplain
    show (test.mentions bound ++ (consequent.mentions bound).1 ++
        (alternate.mentions (consequent.mentions bound).2).1,
        (alternate.mentions (consequent.mentions bound).2).2) =
      follow bound (test.freeNames.map .reads ++ consequent.uses ++ alternate.uses)
    rw [follow_append, follow_append, follow_reads, test.mentions_eq bound htest,
      consequent.mentions_eq bound hconsequent, hlast]
  | .block _ body, h => by
    obtain ⟨hbody, htimely⟩ := Bool.and_eq_true_iff.1 h
    show ((mentionsOfStmts bound body).1, bound) =
      follow bound ((freeIn [] (usesOfStmts body)).map .reads)
    rw [mentionsOfStmts_eq bound body hbody, follow_eq_freeIn htimely, follow_reads, unbound_freeIn,
      List.append_nil]
  | .returns _ none, _ => rfl

/-- Plain statements mention what following their uses gives. -/
theorem mentionsOfStmts_eq (bound : List String) :
    ∀ statements : List Stmt, arePlainStmts statements = true →
      mentionsOfStmts bound statements = follow bound (usesOfStmts statements)
  | [], _ => rfl
  | statement :: rest, h => by
    obtain ⟨hstatement, hrest⟩ := Bool.and_eq_true_iff.1 h
    rw [usesOfStmts, follow_append, ← statement.mentions_eq bound hstatement,
      ← mentionsOfStmts_eq _ rest hrest, mentionsOfStmts]

/-- Plain bindings mention what following their uses gives. -/
theorem mentionsOfDeclarators_eq (bound : List String) :
    ∀ declarators : List Declarator, arePlainDeclarators declarators = true →
      mentionsOfDeclarators bound declarators = follow bound (usesOfDeclarators declarators)
  | [], _ => rfl
  | .mk _ pattern none :: rest, h => by
    obtain ⟨_, hrest⟩ := Bool.and_eq_true_iff.1 h
    rw [usesOfDeclarators, follow_append, follow_declares, ← mentionsOfDeclarators_eq _ rest hrest,
      mentionsOfDeclarators]
  | .mk _ pattern (some init) :: rest, h => by
    obtain ⟨h, hrest⟩ := Bool.and_eq_true_iff.1 h
    obtain ⟨_, hinit⟩ := Bool.and_eq_true_iff.1 h
    rw [usesOfDeclarators, follow_append, follow_append, follow_reads, follow_declares,
      ← init.mentions_eq bound hinit, ← mentionsOfDeclarators_eq _ rest hrest, List.append_nil,
      mentionsOfDeclarators]

end

/-! ### Dependencies -/

/-- Without repetitions, names stand in the order in which they first appear. -/
lemma pairwise_eraseDups (names : List String) :
    names.eraseDups.Pairwise fun a b => names.idxOf a < names.idxOf b := by
  induction names using List.reverseRecOn with
  | nil => exact List.Pairwise.nil
  | append_singleton names name ih =>
    have hindex {a : String} (ha : a ∈ names) : (names ++ [name]).idxOf a = names.idxOf a :=
      List.idxOf_append_of_mem ha
    have hnames : names.eraseDups.Pairwise fun a b =>
        (names ++ [name]).idxOf a < (names ++ [name]).idxOf b := by
      refine ih.imp_of_mem fun ha hb hlt => ?_
      rwa [hindex (List.mem_eraseDups.1 ha), hindex (List.mem_eraseDups.1 hb)]
    rw [List.eraseDups_append]
    by_cases hname : name ∈ names
    · simpa [List.removeAll, hname] using hnames
    · have hlast {a : String} (ha : a ∈ names) :
          (names ++ [name]).idxOf a < (names ++ [name]).idxOf name := by
        rw [hindex ha, List.idxOf_append_of_notMem hname]
        have := List.idxOf_lt_length_of_mem ha
        omega
      rw [show [name].removeAll names = [name] by simp [List.removeAll, hname],
        List.pairwise_append]
      refine ⟨hnames, List.pairwise_singleton .., fun a ha b hb => ?_⟩
      rw [List.mem_singleton.1 hb]
      exact hlast (List.mem_eraseDups.1 ha)

/-- The dependencies of a plain expression are its free names, each once, in the order in which they
first appear. -/
theorem dependencies_list_freeNames (e : Expr) (h : e.isPlain = true) :
    (∀ name, name ∈ e.dependencies ↔ name ∈ e.freeNames) ∧ e.dependencies.Nodup ∧
      e.dependencies.Pairwise fun a b => e.freeNames.idxOf a < e.freeNames.idxOf b := by
  have heq : e.dependencies = e.freeNames.eraseDups := by
    rw [Expr.dependencies, e.mentions_eq [] h]
    simp [unbound]
  have hpairwise := pairwise_eraseDups e.freeNames
  rw [heq]
  refine ⟨fun name => List.mem_eraseDups, hpairwise.imp ?_, hpairwise⟩
  rintro a b hlt rfl
  exact Nat.lt_irrefl _ hlt

/-- An expression in which names are bound in one scope and free in another:
`[(a, { k: [b] }) => { const c = a.p; if (b) { const d = c; d(e) } return () => d + c },
{ k: a, [k]: (c) => c }, c = e]`. -/
def shadowed : Expr :=
  .array ⟨0, 0⟩
    [.arrow ⟨0, 0⟩ (.mk none
      [.plain [] (.ident ⟨"a", ⟨0, 0⟩⟩) none,
        .plain [] (.object ⟨0, 0⟩
          [.property (.name "k") (.array ⟨0, 0⟩ [.ident ⟨"b", ⟨0, 0⟩⟩])]) none]
      [.variable ⟨0, 0⟩ .const
          [.mk ⟨0, 0⟩ (.ident ⟨"c", ⟨0, 0⟩⟩)
            (some (.member ⟨0, 0⟩ (.ident ⟨"a", ⟨0, 0⟩⟩) ⟨"p", ⟨0, 0⟩⟩))],
        .ifElse ⟨0, 0⟩ (.ident ⟨"b", ⟨0, 0⟩⟩)
          (.block ⟨0, 0⟩
            [.variable ⟨0, 0⟩ .const
              [.mk ⟨0, 0⟩ (.ident ⟨"d", ⟨0, 0⟩⟩) (some (.ident ⟨"c", ⟨0, 0⟩⟩))],
            .expr ⟨0, 0⟩ (.call ⟨0, 0⟩ (.ident ⟨"d", ⟨0, 0⟩⟩) [.ident ⟨"e", ⟨0, 0⟩⟩])])
          (.inert ⟨0, 0⟩),
        .returns ⟨0, 0⟩ (some (.arrow ⟨0, 0⟩ (.mk none []
          [.expr ⟨0, 0⟩ (.binary ⟨0, 0⟩ "+" (.ident ⟨"d", ⟨0, 0⟩⟩) (.ident ⟨"c", ⟨0, 0⟩⟩))])))]),
    .object ⟨0, 0⟩
      [.field (.name "k") false (.ident ⟨"a", ⟨0, 0⟩⟩),
        .field (.computed (.ident ⟨"k", ⟨0, 0⟩⟩)) false
          (.arrow ⟨0, 0⟩ (.mk none [.plain [] (.ident ⟨"c", ⟨0, 0⟩⟩) none]
            [.expr ⟨0, 0⟩ (.ident ⟨"c", ⟨0, 0⟩⟩)]))],
    .assign ⟨0, 0⟩ "=" (.ident ⟨"c", ⟨0, 0⟩⟩) (.ident ⟨"e", ⟨0, 0⟩⟩)]

/-- The dependencies of an expression with a shadowed name are its free names, each once. -/
theorem dependencies_list_freeNames_shadowed :
    shadowed.isPlain = true ∧ shadowed.freeNames = ["e", "d", "a", "k", "e"] ∧
      (∀ name, name ∈ shadowed.dependencies ↔ name ∈ shadowed.freeNames) ∧
      shadowed.dependencies.Nodup ∧ shadowed.dependencies.Pairwise fun a b =>
        shadowed.freeNames.idxOf a < shadowed.freeNames.idxOf b :=
  ⟨by decide, by decide, dependencies_list_freeNames shadowed (by decide)⟩

end ComponentApi.Script
