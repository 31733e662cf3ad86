import ComponentApi.Proofs.Script.Effects
import ComponentApi.Proofs.Script.Patterns
import ComponentApi.Script.Symbols

/-!
# The outline of a script

The names that a script binds at its top level come from declarations of variables and functions,
exported or not, and from imports. `Stmt.bound` lists them in the order of the text, each with what
it is declared as.

Reading a script at its top level is made of few steps: a bound name is announced by an item and
declared, a name that is exported in braces or assigned in a reactive statement is exposed by an
item, names become known as those of dispatchers and factories, and expressions, statements and
functions are searched. `Outline` collects what has to be known of these steps, for a relation
between extractions that also says which names are bound from the one to the other. From that
`Outline.statements` says what the reading of a whole script does.
-/

namespace ComponentApi.Script

/-! ### Bound names -/

/-- A name that a script binds at its top level: where it stands, what it is declared as, and the
category of its item. -/
structure Bound where
  id : Ident
  declaration : Declaration
  category : Category

/-- The names that a binding of a declaration binds. Only a plain variable can be seen through, by
its initial value. -/
def Declarator.bound : Declarator → List Bound
  | .mk _ (.ident id) (some init) => [⟨id, init.declaration, .data⟩]
  | .mk _ pattern _ => pattern.boundNames.map (⟨·, .unknown, .data⟩)

/-- The names that a declaration binds, if it is one of variables or of a function. -/
def Stmt.declares : Stmt → List Bound
  | .variable _ _ declarators => declarators.flatMap Declarator.bound
  | .function _ (.mk id _ _) => id.toList.map (⟨·, .function, .methods⟩)
  | _ => []

/-- The name that an entry of an import binds. -/
def ImportSpecifier.bound (path : String) (specifier : ImportSpecifier) : Bound where
  id := specifier.localName
  declaration := .imported path specifier.remoteName
  category :=
    if specifier.name = .wholeDefault ∧ Text.isComponentName specifier.localName.name.toList = true
    then .components else .data

/-- The names that a statement binds at the top level. -/
def Stmt.bound : Stmt → List Bound
  | .exportDeclaration _ typeOnly declaration => if typeOnly then [] else declaration.declares
  | .importFrom _ ⟨typeOnly, specifiers, source⟩ =>
    if typeOnly then []
    else (specifiers.filter (!·.isTypeOnly)).map (ImportSpecifier.bound source)
  | statement => statement.declares

/-- The names of a pattern are bound as what its value shows, if the pattern takes it as a whole. -/
lemma Declarator.bound_mk (span : Span) (pattern : Pattern) (init : Option Expr) :
    (Declarator.mk span pattern init).bound = pattern.boundNames.map
      (⟨·, ((simpleInit? pattern init).map Expr.declaration).getD .unknown, .data⟩) := by
  cases pattern with
  | ident id => cases init <;> simp [Declarator.bound, Pattern.boundNames, simpleInit?]
  | _ => simp [Declarator.bound, simpleInit?]

/-- A binding binds the names in its pattern, each once, from left to right. -/
lemma Declarator.lists_bound (span : Span) (pattern : Pattern) (init : Option Expr) :
    Lists (fun path id => pattern.Leads path (.ident id))
      ((Declarator.mk span pattern init).bound.map (·.id)) := by
  rw [Declarator.bound_mk, List.map_map]
  simpa [Function.comp_def] using pattern.lists_boundNames

/-- The entries of an import that are no types bind their names, one after the other. -/
lemma flatMap_bound (path : String) (specifiers : List ImportSpecifier) :
    (specifiers.flatMap fun specifier =>
      if specifier.isTypeOnly then [] else [specifier.bound path]) =
    (specifiers.filter (!·.isTypeOnly)).map (ImportSpecifier.bound path) := by
  induction specifiers with
  | nil => rfl
  | cons specifier rest ih => cases h : specifier.isTypeOnly <;> simp [h, ih]

/-! ### What is met -/

/-- The item is that of the bound name. -/
structure Announces (excerpt : Excerpt) (bound : Bound) (item : Item) : Prop where
  name : item.name = bound.id.name
  category : item.category = bound.category
  locations : item.locations = [excerpt.location bound.id.span]

/-- The item of an import has the category of the name that it binds. -/
lemma category_importDetail (excerpt : Excerpt) (path : String) (specifier : ImportSpecifier) :
    (importDetail excerpt path specifier).category = (specifier.bound path).category := by
  unfold importDetail ImportSpecifier.bound
  by_cases h : specifier.name = .wholeDefault ∧
      Text.isComponentName specifier.localName.name.toList = true
  · simp [h, Detail.category]
  · rw [if_neg (by simpa using h), if_neg h]
    rfl

/-- The item is the one that a variable, a function or an import gives to the name that it binds. -/
inductive Introduces (excerpt : Excerpt) : Bound → Item → Prop
  | «variable» (kind : VariableKind) (isExported : Bool) (value? : Option Expr) (starts : Starts)
      (id : Ident) (declaration : Declaration) :
      Introduces excerpt ⟨id, declaration, .data⟩
        (variableItem excerpt kind isExported value? starts id)
  | method (id : Ident) (detail : MethodDetail) (doc : DocComment) :
      Introduces excerpt ⟨id, .function, .methods⟩
        (.documented id.name (.method detail) doc (excerpt.location id.span))
  | imported (path : String) (specifier : ImportSpecifier) (doc : DocComment) :
      Introduces excerpt (specifier.bound path)
        (.documented specifier.localName.name (importDetail excerpt path specifier) doc
          (excerpt.location specifier.localName.span))

/-- The item that a variable, a function or an import gives announces the name that it binds. -/
lemma Introduces.announces {excerpt : Excerpt} {bound : Bound} {item : Item}
    (h : Introduces excerpt bound item) : Announces excerpt bound item := by
  cases h with
  | «variable» => exact ⟨rfl, rfl, rfl⟩
  | method => exact ⟨rfl, rfl, rfl⟩
  | imported path specifier => exact ⟨rfl, category_importDetail excerpt path specifier, rfl⟩

/-- The statement shows the item of a name that it does not bind: it exports the name in braces, or
it is reactive and assigns the name. -/
inductive Stmt.Exposes (excerpt : Excerpt) : Stmt → Item → Prop
  | exported (span : Span) (source? : Option String) {specifiers : List ExportSpecifier}
      {specifier : ExportSpecifier} (h : specifier ∈ specifiers)
      (htype : specifier.typeOnly = false) :
      Exposes excerpt (.exportNames span false specifiers source?)
        (exportItem excerpt span.start source? specifier)
  | assigned (span : Span) {label : Ident} {body : Stmt} {id : Ident} {value : Expr} {item : Item}
      (hlabel : label.name = "$") (h : assignment? body = some (id, value))
      (hname : item.name = id.name) (hcategory : item.category = .computed)
      (hlocations : item.locations = [excerpt.location id.span]) :
      Exposes excerpt (.labeled span label body) item

/-- The calls in a statement, also in one that is exported. -/
def Stmt.sites : Stmt → List Call
  | .exportDeclaration _ _ declaration => declaration.calls
  | statement => statement.calls

/-- The calls of a binding are calls of the declaration. -/
lemma mem_callsOfDeclarators {declarator : Declarator} {declarators : List Declarator} {call : Call}
    (hmem : declarator ∈ declarators) (hcall : call ∈ callsOfDeclarators [declarator]) :
    call ∈ callsOfDeclarators declarators := by
  induction declarators with
  | nil => cases hmem
  | cons first rest ih =>
    obtain ⟨span, pattern, init⟩ := first
    cases hmem with
    | head => cases init <;> simp_all [callsOfDeclarators]
    | tail _ hmem => cases init <;> simp [callsOfDeclarators, ih hmem]

/-- The calls of an assignment are those of its value. -/
lemma calls_of_assignment? {body : Stmt} {pair : Ident × Expr} (h : assignment? body = some pair) :
    body.calls = pair.2.calls := by
  unfold assignment? at h
  split at h
  · split at h
    · cases h
      rfl
    · cases h
  · cases h

/-! ### The steps -/

/-- What the steps of reading a script do, from one extraction to another, between which the listed
names are bound. Calls are known to be among those of `Site`, and exposed items among those of
`Extra`. -/
structure Outline (excerpt : Excerpt) (Site : Call → Prop) (Extra : Item → Prop)
    (R : List Bound → Extraction → Extraction → Prop) : Prop where
  refl : ∀ found, R [] found found
  trans : ∀ {names more first second third}, R names first second → R more second third →
    R (names ++ more) first third
  announce : ∀ {bound item}, Introduces excerpt bound item → ∀ found : Extraction,
    R [bound] found ((found.emit item).declare bound.id.name bound.declaration)
  expose : ∀ {item}, Extra item → ∀ found : Extraction, R [] found (found.emit item)
  know : ∀ (found : Extraction) {names}, found.names.Grows names → R [] found { found with names }
  expr : ∀ {e : Expr}, (∀ call ∈ e.calls, Site call) → ∀ statement? found,
    R [] found (e.searchTop excerpt statement? found)
  stmt : ∀ {statement : Stmt}, (∀ call ∈ statement.calls, Site call) → ∀ found,
    R [] found (statement.searchTop excerpt found)
  function : ∀ {definition : Function}, (∀ call ∈ definition.calls, Site call) → ∀ found,
    R [] found (definition.search excerpt { found }).found

namespace Outline

variable {excerpt : Excerpt} {Site : Call → Prop} {Extra : Item → Prop}
  {R : List Bound → Extraction → Extraction → Prop}

/-- What comes behind the names binds no further ones. -/
lemma next (h : Outline excerpt Site Extra R) {names : List Bound}
    {first second third : Extraction} (hnames : R names first second) (hrest : R [] second third) :
    R names first third := by
  have hboth := h.trans hnames hrest
  rwa [List.append_nil] at hboth

/-- Going through a list, each element of which binds its own names. -/
lemma foldl (h : Outline excerpt Site Extra R) {α : Type} {step : Extraction → α → Extraction}
    {own : α → List Bound} {list : List α}
    (hstep : ∀ x ∈ list, ∀ found, R (own x) found (step found x)) (found : Extraction) :
    R (list.flatMap own) found (list.foldl step found) := by
  induction list generalizing found with
  | nil => exact h.refl found
  | cons x rest ih =>
    obtain ⟨hx, hrest⟩ := List.forall_mem_cons.1 hstep
    rw [List.flatMap_cons, List.foldl_cons]
    exact h.trans (hx found) (ih hrest (step found x))

/-- Reading a binding of a declaration accounts for the names that it binds. -/
lemma declarator (h : Outline excerpt Site Extra R) (kind : VariableKind) (statement : Nat)
    (isExported : Bool) (starts : Starts) {declarator : Declarator}
    (hcalls : ∀ call ∈ callsOfDeclarators [declarator], Site call) (found : Extraction) :
    R declarator.bound found
      (extractDeclarator excerpt kind statement isExported starts found declarator) := by
  obtain ⟨span, pattern, init⟩ := declarator
  -- First the names, then what the value shows of dispatchers, then the value itself.
  let value? := simpleInit? pattern init
  let declaration := (value?.map Expr.declaration).getD .unknown
  have hname : ∀ id ∈ pattern.boundNames, ∀ found, R [⟨id, declaration, .data⟩] found
      ((found.emit (variableItem excerpt kind isExported value? (span.start :: starts) id)).declare
        id.name declaration) := by
    intro id _ found
    exact h.announce (.variable _ _ _ _ id declaration) found
  have hbind : ∀ found : Extraction,
      R [] found { found with names := bindDispatcher found.names pattern init } :=
    fun found => h.know found (bindDispatcher_grows _ pattern init)
  rw [Declarator.bound_mk, List.map_eq_flatMap]
  have hbound := h.next (h.foldl hname found) (hbind _)
  cases init with
  | none => exact hbound
  | some e =>
    have he : ∀ call ∈ e.calls, Site call := by
      simpa [callsOfDeclarators] using hcalls
    exact h.next hbound (h.expr he (some statement) _)

/-- Reading a function accounts for its name. -/
lemma method (h : Outline excerpt Site Extra R) (isExported : Bool) (starts : Starts) (span : Span)
    {definition : Function} (hcalls : ∀ call ∈ definition.calls, Site call) (found : Extraction) :
    R (Stmt.function span definition).declares found
      (extractFunction excerpt isExported starts definition found) := by
  have hbody := h.function hcalls
  obtain ⟨id?, params, body⟩ := definition
  cases id? with
  | none => exact hbody found
  | some id =>
    exact h.next (h.announce (.method id _ _) found) (hbody _)

/-- Reading a declaration accounts for the names that it declares. -/
lemma declaration (h : Outline excerpt Site Extra R) (export? : Option Nat) {statement : Stmt}
    (hcalls : ∀ call ∈ statement.calls, Site call) (found : Extraction) :
    R statement.declares found (extractDeclaration excerpt export? found statement) := by
  cases statement with
  | «variable» span kind declarators =>
    refine h.foldl (fun declarator hmem => ?_) found
    exact h.declarator kind _ _ _ fun call hcall => hcalls call (mem_callsOfDeclarators hmem hcall)
  | function span definition =>
    refine h.method _ _ span ?_ found
    obtain ⟨id?, params, body⟩ := definition
    exact hcalls
  | _ => exact h.refl found

/-- Reading an entry of an import accounts for the name that it binds. -/
lemma importName (h : Outline excerpt Site Extra R) (start : Nat) (path : String)
    (specifier : ImportSpecifier) (found : Extraction) :
    R (if specifier.isTypeOnly then [] else [specifier.bound path]) found
      (extractImport excerpt start path found specifier) := by
  unfold extractImport
  split_ifs
  · exact h.refl found
  · -- To be known for a factory comes before the name is declared.
    dsimp only
    split_ifs
    · exact h.trans (h.know found (.addFactory found.names specifier.localName.name))
        (h.announce (.imported path specifier _) _)
    · exact h.announce (.imported path specifier _) found

/-- Reading a reactive statement binds no name. -/
lemma reactive (h : Outline excerpt Site Extra R) {span : Span} {label : Ident} {body : Stmt}
    (hlabel : label.name = "$") (hcalls : ∀ call ∈ body.calls, Site call)
    (hextra : ∀ item, (Stmt.labeled span label body).Exposes excerpt item → Extra item)
    (found : Extraction) : R [] found (extractReactive excerpt span.start body found) := by
  unfold extractReactive
  cases hassign : assignment? body with
  | none => exact h.stmt hcalls found
  | some pair =>
    rw [calls_of_assignment? hassign] at hcalls
    exact h.next (h.expose (hextra _ (.assigned span hlabel hassign rfl rfl rfl)) found)
      (h.expr hcalls (some span.start) _)

/-- A statement binds its names, exposes others, and searches its calls. -/
lemma statement (h : Outline excerpt Site Extra R) {statement : Stmt}
    (hcalls : ∀ call ∈ statement.sites, Site call)
    (hextra : ∀ item, statement.Exposes excerpt item → Extra item) (found : Extraction) :
    R statement.bound found (extractStatement excerpt found statement) := by
  cases statement with
  | «variable» | function => exact h.declaration none hcalls found
  | exportDeclaration span typeOnly declaration =>
    cases typeOnly with
    | true => exact h.refl found
    | false => exact h.declaration (some span.start) hcalls found
  | exportNames span typeOnly specifiers source? =>
    cases typeOnly with
    | true => exact h.refl found
    | false =>
      have hstep : ∀ specifier ∈ specifiers.filter (!·.typeOnly), ∀ found : Extraction,
          R [] found (found.emit (exportItem excerpt span.start source? specifier)) := by
        intro specifier hmem found
        obtain ⟨hmem, htype⟩ := List.mem_filter.1 hmem
        exact h.expose (hextra _ (.exported span source? hmem (by simpa using htype))) found
      have hfold := h.foldl hstep found
      rwa [List.flatMap_eq_nil_iff.2 fun _ _ => rfl] at hfold
  | labeled span label body =>
    have hbody : ∀ call ∈ body.calls, Site call := hcalls
    simp only [extractStatement]
    split_ifs with hlabel
    · exact h.reactive (eq_of_beq hlabel) hbody hextra found
    · exact h.stmt hcalls found
  | importFrom span declaration =>
    obtain ⟨typeOnly, specifiers, source⟩ := declaration
    cases typeOnly with
    | true => exact h.refl found
    | false =>
      have hfold := h.foldl (fun specifier (_ : specifier ∈ specifiers) =>
        h.importName span.start source specifier) found
      rwa [flatMap_bound] at hfold
  | _ => exact h.stmt hcalls found

/-- A script binds the names of its statements, in their order. -/
theorem statements (h : Outline excerpt Site Extra R) {statements : List Stmt}
    (hcalls : ∀ statement ∈ statements, ∀ call ∈ statement.sites, Site call)
    (hextra : ∀ statement ∈ statements, ∀ item, statement.Exposes excerpt item → Extra item)
    (found : Extraction) :
    R (statements.flatMap Stmt.bound) found (extractStatements excerpt statements found) :=
  h.foldl (fun statement hmem => h.statement (hcalls statement hmem) (hextra statement hmem)) found

end Outline

end ComponentApi.Script
