import ComponentApi.Proofs.Script.Dispatches
import ComponentApi.Proofs.Script.Scopes

/-!
# Dependencies and free names

The dependencies of a value are collected on a walk through it. `Node.mem_mentions` says what one
step of the walk collects, and `Expr.mem_dependencies` what the whole walk does: the names that are
read in what is walked, where the walk does not know them to be bound. It knows no more to be bound
than is bound (`Node.exists_sequential`), so it leaves out no name that is free in what it walks.

`extractStatements_dependencies` says of the reactive statements of a script what is left out: the
free names that are read only in parts that the walk passes over, such as loops in the bodies of
functions.
-/

namespace ComponentApi.Script

open Extraction

/-! ### The walk in steps -/

/-- Behind bindings, the names that they bind are bound too. -/
lemma mentionsOfDeclarators_snd (bound : List String) (declarators : List Declarator) :
    (mentionsOfDeclarators bound declarators).2 =
      bound ++ declarators.flatMap Declarator.names := by
  induction declarators generalizing bound with
  | nil => exact (List.append_nil bound).symm
  | cons declarator rest ih =>
    obtain ⟨span, pattern, init⟩ := declarator
    show (mentionsOfDeclarators (bound ++ (Declarator.mk span pattern init).names) rest).2 = _
    rw [ih, List.append_assoc, List.flatMap_cons]

/-- Behind a statement, what it binds is bound too. -/
lemma Stmt.mentions_snd (bound : List String) :
    ∀ statement : Stmt, (statement.mentions bound).2 = bound ++ statement.binds
  | .variable _ _ declarators => mentionsOfDeclarators_snd bound declarators
  | .ifElse _ test consequent alternate => by
    show (alternate.mentions (consequent.mentions bound).2).2 =
      bound ++ (consequent.binds ++ alternate.binds)
    rw [alternate.mentions_snd, consequent.mentions_snd, List.append_assoc]
  | .expr _ _ | .returns _ (some _) | .returns _ none | .block _ _ | .function _ _ | .classDef _ _
  | .throws _ _ | .forLoop _ _ _ _ _ | .forEach _ _ _ _ | .whileLoop _ _ _ | .doWhile _ _ _
  | .switch _ _ _ | .tryCatch _ _ _ _ _ | .labeled _ _ _ | .withObject _ _ _ | .inert _
  | .enumeration _ _ _ _ | .namespaceBody _ _ _ | .importFrom _ _ | .exportDeclaration _ _ _
  | .exportNames _ _ _ _ | .exportAll _ _ | .exportDefault _ _ => (List.append_nil bound).symm

/-- The names that the walk through a node mentions, except for the bound ones. -/
def Node.mentions (bound : List String) : Node → List String
  | .expr e => e.mentions bound
  | .key name => name.mentions bound
  | .property entry => mentionsOfProperties bound [entry]
  | .declarator entry => (mentionsOfDeclarators bound [entry]).1
  | .stmt statement => (statement.mentions bound).1
  | .pattern _ | .param _ | .function _ | .classDef _ | .member _ | .switchCase _ => []

section Sequences

variable {α : Type} {names : α → List String} {kind : α → Node} {name : String}

/-- In a sequence that is walked in order, the names of the first element are bound for the others.
-/
lemma sequential_sequence_cons (x : α) (rest : List α) :
    Scoping.sequential.sequence names kind (x :: rest) =
      ⟨[], kind x⟩ :: (Scoping.sequential.sequence names kind rest).map (·.within (names x)) := by
  show _ :: List.zipWith _ ((earlier (rest.map names)).map (names x ++ ·)) rest = _
  rw [List.zipWith_map_left, Scoping.sequence, List.map_zipWith]
  rfl

/-- What is mentioned in a sequence that is walked in its order, where each element binds names for
those behind it. -/
lemma mem_mentions_sequence (mentions : List String → List α → List String)
    (hnil : ∀ bound, mentions bound [] = [])
    (hcons : ∀ bound x rest,
      mentions bound (x :: rest) = (kind x).mentions bound ++ mentions (bound ++ names x) rest)
    (bound : List String) (elements : List α) :
    name ∈ mentions bound elements ↔
      ∃ part ∈ Scoping.sequential.sequence names kind elements,
        name ∈ part.node.mentions (bound ++ part.scope) := by
  induction elements generalizing bound with
  | nil => simp [hnil, Scoping.sequence]
  | cons x rest ih =>
    rw [hcons, List.mem_append, ih, sequential_sequence_cons]
    simp [Part.within, List.append_assoc]

/-- Statements mention what one of them does with the names in front of it bound. -/
lemma mem_mentionsOfStmts (bound : List String) (body : List Stmt) :
    name ∈ (mentionsOfStmts bound body).1 ↔
      ∃ part ∈ Scoping.sequential.statements body,
        name ∈ part.node.mentions (bound ++ part.scope) := by
  apply mem_mentions_sequence fun bound body => (mentionsOfStmts bound body).1
  · exact fun _ => rfl
  · intro bound statement rest
    show _ ++ (mentionsOfStmts (statement.mentions bound).2 rest).1 = _
    rw [statement.mentions_snd]
    rfl

/-- Bindings mention what one of them does with the names in front of it bound. -/
lemma mem_mentionsOfDeclarators (bound : List String) (declarators : List Declarator) :
    name ∈ (mentionsOfDeclarators bound declarators).1 ↔
      ∃ part ∈ Scoping.sequential.sequence Declarator.names .declarator declarators,
        name ∈ part.node.mentions (bound ++ part.scope) := by
  apply mem_mentions_sequence fun bound declarators => (mentionsOfDeclarators bound declarators).1
  · exact fun _ => rfl
  · intro bound declarator rest
    obtain ⟨span, pattern, init⟩ := declarator
    cases init with
    | none => rfl
    | some e => exact congrArg (· ++ _) (List.append_nil (e.mentions bound)).symm

/-- Expressions mention what one of them does. -/
lemma mem_mentionsOfExprs (bound : List String) (es : List Expr) :
    name ∈ mentionsOfExprs bound es ↔ ∃ e ∈ es, name ∈ e.mentions bound := by
  induction es with
  | nil => simp [mentionsOfExprs]
  | cons e rest ih => rw [mentionsOfExprs, List.mem_append, ih, List.exists_mem_cons_iff]

/-- Properties mention what one of them does. -/
lemma mem_mentionsOfProperties (bound : List String) (properties : List Property) :
    name ∈ mentionsOfProperties bound properties ↔
      ∃ entry ∈ properties, name ∈ (Node.property entry).mentions bound := by
  induction properties with
  | nil => simp [mentionsOfProperties]
  | cons entry rest ih =>
    have hcons : mentionsOfProperties bound (entry :: rest) =
        (Node.property entry).mentions bound ++ mentionsOfProperties bound rest := by
      cases entry <;> exact congrArg (· ++ _) (List.append_nil _).symm
    rw [hcons, List.mem_append, ih, List.exists_mem_cons_iff]

end Sequences

section Steps

variable {bound : List String} {name : String}

/-- A function mentions what a part of it does in the scope of that part. -/
lemma Function.mem_mentions (isArrow : Bool) (definition : Function) :
    name ∈ definition.mentions bound ↔
      ∃ part ∈ Scoping.sequential.body isArrow definition,
        name ∈ part.node.mentions (bound ++ part.scope) := by
  obtain ⟨id, params, body⟩ := definition
  show name ∈ (mentionsOfStmts (bound ++ (Function.mk id params body).paramNames) body).1 ↔ _
  rw [mem_mentionsOfStmts]
  simp [Scoping.body, Scoping.sequential, Part.within]

/-- An expression mentions itself, if it is an identifier that is not bound, and what its parts
mention. -/
lemma Expr.mem_mentions (e : Expr) :
    name ∈ e.mentions bound ↔
      (∃ id, e = .ident id ∧ name = id.name ∧ name ∉ bound) ∨
        ∃ part ∈ e.walked .sequential, name ∈ part.node.mentions (bound ++ part.scope) := by
  cases e with
  | ident id =>
    have hself : name ∈ (Expr.ident id).mentions bound ↔ name = id.name ∧ name ∉ bound := by
      by_cases hbound : id.name ∈ bound
      · simpa [Expr.mentions, hbound] using fun h => h ▸ hbound
      · simpa [Expr.mentions, hbound] using fun h => h ▸ hbound
    simp [hself, Expr.walked]
  | arrow span definition =>
    simpa [Expr.mentions, Expr.walked] using definition.mem_mentions true
  | functionExpr span definition =>
    simpa [Expr.mentions, Expr.walked] using definition.mem_mentions false
  | object span properties =>
    simpa [Expr.mentions, Expr.walked] using mem_mentionsOfProperties bound properties
  | array span es | sequence span es | template span _ es =>
    simpa [Expr.mentions, Expr.walked, Node.mentions] using mem_mentionsOfExprs bound es
  | tagged span e es | call span e es | newCall span e es =>
    simp [Expr.mentions, Expr.walked, Node.mentions, mem_mentionsOfExprs]
  | _ => simp [Expr.mentions, Expr.walked, Node.mentions]

/-- A statement mentions what its parts mention. -/
lemma Stmt.mem_mentions (statement : Stmt) :
    name ∈ (statement.mentions bound).1 ↔
      ∃ part ∈ statement.walked .sequential, name ∈ part.node.mentions (bound ++ part.scope) := by
  cases statement with
  | expr span e => simp [Stmt.mentions, Stmt.walked, Node.mentions]
  | returns span argument =>
    cases argument with
    | none => simp [Stmt.mentions, Stmt.walked]
    | some e => simp [Stmt.mentions, Stmt.walked, Node.mentions]
  | «variable» span kind declarators => exact mem_mentionsOfDeclarators bound declarators
  | ifElse span test consequent alternate =>
    have hmentions : ((Stmt.ifElse span test consequent alternate).mentions bound).1 =
        test.mentions bound ++ (mentionsOfStmts bound [consequent, alternate]).1 := by
      simp [Stmt.mentions, mentionsOfStmts]
    rw [hmentions, List.mem_append, mem_mentionsOfStmts]
    simp [Stmt.walked, Node.mentions]
  | block span body => exact mem_mentionsOfStmts bound body
  | _ => simp [Stmt.mentions, Stmt.walked]

/-- A node mentions its own name and what its parts mention. -/
lemma Node.mem_mentions {node : Node} :
    name ∈ node.mentions bound ↔
      (∃ id, node = .expr (.ident id) ∧ name = id.name ∧ name ∉ bound) ∨
        ∃ part ∈ node.walked .sequential, name ∈ part.node.mentions (bound ++ part.scope) := by
  cases node with
  | expr e => simpa [Node.mentions, Node.walked] using e.mem_mentions
  | stmt statement => simpa [Node.mentions, Node.walked] using statement.mem_mentions
  | key entry => cases entry <;> simp [Node.mentions, Key.mentions, Node.walked]
  | property entry => cases entry <;> simp [Node.mentions, mentionsOfProperties, Node.walked]
  | declarator entry =>
    obtain ⟨span, pattern, init⟩ := entry
    cases init <;> simp [Node.mentions, mentionsOfDeclarators, Node.walked]
  | _ => simp [Node.mentions, Node.walked]

end Steps

/-! ### A walked part is smaller than its node -/

/-- The parts of a sequence are its elements. -/
lemma Scoping.mem_of_mem_sequence {α : Type} {scoping : Scoping} {names : α → List String}
    {kind : α → Node} {elements : List α} {part : Part}
    (h : part ∈ scoping.sequence names kind elements) : part.node ∈ elements.map kind := by
  rw [sequence] at h
  generalize scoping.arrange (elements.map names) = scopes at h
  induction elements generalizing scopes with
  | nil => simp at h
  | cons x rest ih =>
    cases scopes with
    | nil => simp at h
    | cons scope scopes =>
      rcases List.mem_cons.1 h with rfl | h
      · exact List.mem_cons_self
      · exact List.mem_cons_of_mem _ (ih scopes h)

section Size

variable {scoping : Scoping} {part : Part}

/-- The parts of a function are smaller than it. -/
lemma Function.sizeOf_body {isArrow : Bool} {definition : Function}
    (h : part ∈ scoping.body isArrow definition) : sizeOf part.node < 1 + sizeOf definition := by
  obtain ⟨id, params, body⟩ := definition
  obtain ⟨inner, hinner, rfl⟩ := List.mem_map.1 h
  have hlt := sizeOf_lt_of_mem_map Node.stmt.sizeOf_spec (Scoping.mem_of_mem_sequence hinner)
  simp only [Part.within, Function.mk.sizeOf_spec]
  omega

/-- The parts of a list are smaller than it. -/
lemma sizeOf_lt_of_mem_bare {α : Type} [SizeOf α] {kind : α → Node} {list : List α}
    (hkind : ∀ x, sizeOf (kind x) = 1 + sizeOf x) (h : part ∈ list.map (⟨[], kind ·⟩)) :
    sizeOf part.node < 1 + sizeOf list := by
  obtain ⟨x, hx, rfl⟩ := List.mem_map.1 h
  exact sizeOf_lt_of_mem_map hkind (List.mem_map_of_mem hx)

/-- The parts of an expression are smaller than it. -/
lemma Expr.sizeOf_walked {e : Expr} (h : part ∈ e.walked scoping) :
    sizeOf part.node < 1 + sizeOf e := by
  cases e with
  | arrow | functionExpr =>
    have hlt := Function.sizeOf_body h
    grind
  | array | sequence | template | tagged | call | newCall =>
    have hlt := sizeOf_lt_of_mem_bare Node.expr.sizeOf_spec h
    grind
  | object =>
    have hlt := sizeOf_lt_of_mem_bare Node.property.sizeOf_spec h
    grind
  | member | privateMember | chain | spread | unary | assign | paren | awaiting | asType | satisfies
  | nonNull =>
    cases List.mem_singleton.1 h
    grind
  | index | binary | logical | conditional =>
    simp only [Expr.walked, List.mem_cons, List.not_mem_nil, or_false] at h
    grind
  | _ => cases h

/-- The parts of a statement are smaller than it. -/
lemma Stmt.sizeOf_walked {statement : Stmt} (h : part ∈ statement.walked scoping) :
    sizeOf part.node < 1 + sizeOf statement := by
  cases statement with
  | expr span e =>
    cases List.mem_singleton.1 h
    grind
  | returns span argument =>
    cases argument with
    | none => cases h
    | some e =>
      cases List.mem_singleton.1 h
      grind
  | «variable» span kind declarators =>
    have hlt := sizeOf_lt_of_mem_map Node.declarator.sizeOf_spec (Scoping.mem_of_mem_sequence h)
    grind
  | ifElse span test consequent alternate =>
    rcases List.mem_cons.1 h with rfl | h
    · grind
    · have hmem := Scoping.mem_of_mem_sequence h
      simp only [List.map_cons, List.map_nil, List.mem_cons, List.not_mem_nil, or_false] at hmem
      grind
  | block span body =>
    have hlt := sizeOf_lt_of_mem_map Node.stmt.sizeOf_spec (Scoping.mem_of_mem_sequence h)
    grind
  | _ => cases h

/-- The parts of a node are smaller than it. -/
lemma Node.sizeOf_walked {node : Node} (h : part ∈ node.walked scoping) :
    sizeOf part.node < sizeOf node := by
  cases node with
  | expr e => exact Expr.sizeOf_walked h
  | stmt statement => exact Stmt.sizeOf_walked h
  | key entry =>
    cases entry with
    | computed e =>
      cases List.mem_singleton.1 h
      grind
    | _ => cases h
  | property entry => cases entry <;> simp [Node.walked] at h <;> grind
  | declarator entry =>
    obtain ⟨span, pattern, init⟩ := entry
    cases init with
    | none => cases h
    | some e =>
      cases List.mem_singleton.1 h
      grind
  | _ => cases h

end Size

/-! ### What is mentioned -/

/-- A name that is mentioned is not bound, and is read where no scope on the way binds it. -/
lemma Node.reads_of_mem_mentions {node : Node} {bound : List String} {name : String}
    (h : name ∈ node.mentions bound) :
    name ∉ bound ∧ node.Reads (Node.walked .sequential) name := by
  -- By recursion on the size of the node, since its parts are nodes of other kinds.
  rcases Node.mem_mentions.1 h with ⟨id, rfl, rfl, hbound⟩ | ⟨part, hpart, hname⟩
  · exact ⟨hbound, .ident id⟩
  · obtain ⟨hfree, hreads⟩ := reads_of_mem_mentions hname
    rw [List.mem_append, not_or] at hfree
    exact ⟨hfree.1, .part hpart hfree.2 hreads⟩
termination_by sizeOf node
decreasing_by exact Node.sizeOf_walked hpart

/-- A name that is read is mentioned, unless it is bound from outside. -/
lemma Node.Reads.mem_mentions {node : Node} {name : String}
    (h : node.Reads (Node.walked .sequential) name) {bound : List String} (hbound : name ∉ bound) :
    name ∈ node.mentions bound := by
  induction h generalizing bound with
  | ident id => exact Node.mem_mentions.2 (.inl ⟨id, rfl, rfl, hbound⟩)
  | @part node part name hpart hfree _ ih =>
    exact Node.mem_mentions.2 (.inr ⟨part, hpart, ih (List.not_mem_append hbound hfree)⟩)

/-- An expression depends on the names that are read in it where the walk does not know them to be
bound. -/
lemma Expr.mem_dependencies {e : Expr} {name : String} :
    name ∈ e.dependencies ↔ (Node.expr e).Reads (Node.walked .sequential) name := by
  rw [Expr.dependencies, List.mem_eraseDups]
  exact ⟨fun h => (Node.reads_of_mem_mentions h).2, fun h => h.mem_mentions List.not_mem_nil⟩

/-! ### What the walk knows is bound -/

/-- What the walk binds is declared. -/
lemma Stmt.binds_subset : ∀ statement : Stmt, statement.binds ⊆ statement.scopeNames true
  | .variable _ _ _ => List.Subset.refl _
  | .ifElse _ _ consequent alternate => by
    have hconsequent := consequent.binds_subset
    have halternate := alternate.binds_subset
    intro name hname
    exact List.mem_append.2 ((List.mem_append.1 hname).imp (hconsequent ·) (halternate ·))
  | .expr _ _ | .returns _ _ | .block _ _ | .function _ _ | .classDef _ _ | .throws _ _
  | .forLoop _ _ _ _ _ | .forEach _ _ _ _ | .whileLoop _ _ _ | .doWhile _ _ _ | .switch _ _ _
  | .tryCatch _ _ _ _ _ | .labeled _ _ _ | .withObject _ _ _ | .inert _ | .enumeration _ _ _ _
  | .namespaceBody _ _ _ | .importFrom _ _ | .exportDeclaration _ _ _ | .exportNames _ _ _ _
  | .exportAll _ _ | .exportDefault _ _ => List.nil_subset _

section Scopings

variable {α : Type} {names known : α → List String} {kind : α → Node} {part : Part}

/-- Each element of a sequence is walked where at most names of the sequence are known. -/
lemma exists_mem_sequential {elements : List α} {x : α} (h : x ∈ elements) :
    ∃ scope ⊆ elements.flatMap known,
      ⟨scope, kind x⟩ ∈ Scoping.sequential.sequence known kind elements := by
  induction elements with
  | nil => cases h
  | cons y rest ih =>
    rw [sequential_sequence_cons, List.flatMap_cons]
    rcases List.mem_cons.1 h with rfl | h
    · exact ⟨[], List.nil_subset _, List.mem_cons_self⟩
    · obtain ⟨scope, hscope, hmem⟩ := ih h
      refine ⟨known y ++ scope, ?_, List.mem_cons_of_mem _ (List.mem_map.2 ⟨_, hmem, rfl⟩)⟩
      exact List.append_subset.2
        ⟨List.subset_append_left _ _, List.Subset.trans hscope (List.subset_append_right _ _)⟩

/-- In a sequence, the walk knows no more to be bound than is bound. -/
lemma exists_sequential (hknown : ∀ x, known x ⊆ names x) {elements : List α}
    (h : part ∈ Scoping.lexical.sequence names kind elements) :
    ∃ scope ⊆ part.scope, ⟨scope, part.node⟩ ∈ Scoping.sequential.sequence known kind elements := by
  have hsequence : Scoping.lexical.sequence names kind elements =
      elements.map fun x => ⟨elements.flatMap names, kind x⟩ := by
    show List.zipWith _ ((elements.map names).map fun _ => (elements.map names).flatten) elements =
      _
    rw [List.map_map, List.zipWith_map_left, List.zipWith_self, List.flatMap_def]
    rfl
  rw [hsequence] at h
  obtain ⟨x, hx, rfl⟩ := List.mem_map.1 h
  obtain ⟨scope, hscope, hmem⟩ : ∃ scope ⊆ elements.flatMap known,
      ⟨scope, kind x⟩ ∈ Scoping.sequential.sequence known kind elements := exists_mem_sequential hx
  refine ⟨scope, List.Subset.trans hscope ?_, hmem⟩
  intro name hname
  obtain ⟨y, hy, hname⟩ := List.mem_flatMap.1 hname
  exact List.mem_flatMap.2 ⟨y, hy, hknown y hname⟩

/-- Where a function is walked in order, a part stands in no larger scope. -/
lemma Function.exists_sequential {isArrow : Bool} {definition : Function}
    (h : part ∈ Scoping.lexical.body isArrow definition) :
    ∃ scope ⊆ part.scope, ⟨scope, part.node⟩ ∈ Scoping.sequential.body isArrow definition := by
  obtain ⟨id, params, body⟩ := definition
  obtain ⟨inner, hinner, rfl⟩ := List.mem_map.1 h
  obtain ⟨scope, hscope, hmem⟩ := Script.exists_sequential Stmt.binds_subset hinner
  refine ⟨(Function.mk id params body).paramNames ++ scope, ?_,
    List.mem_map.2 ⟨_, hmem, rfl⟩⟩
  refine List.append_subset.2 ⟨?_, List.Subset.trans hscope (List.subset_append_right _ _)⟩
  exact List.Subset.trans (List.subset_append_right _ _) (List.subset_append_left _ _)

/-- Where a node is walked in order, a part stands in no larger scope. -/
lemma Node.exists_sequential {node : Node} (h : part ∈ node.walked .lexical) :
    ∃ scope ⊆ part.scope, ⟨scope, part.node⟩ ∈ node.walked .sequential := by
  have hsame : ∀ parts : List Part, part ∈ parts →
      ∃ scope ⊆ part.scope, ⟨scope, part.node⟩ ∈ parts :=
    fun parts hpart => ⟨part.scope, List.Subset.refl _, hpart⟩
  cases node with
  | expr e =>
    cases e with
    | arrow span definition | functionExpr span definition => exact Function.exists_sequential h
    | _ => exact hsame _ h
  | stmt statement =>
    cases statement with
    | «variable» span kind declarators =>
      exact Script.exists_sequential (fun _ => List.Subset.refl _) h
    | ifElse span test consequent alternate =>
      rcases List.mem_cons.1 h with rfl | h
      · exact ⟨[], List.Subset.refl _, List.mem_cons_self⟩
      · obtain ⟨scope, hscope, hmem⟩ := Script.exists_sequential Stmt.binds_subset h
        exact ⟨scope, hscope, List.mem_cons_of_mem _ hmem⟩
    | block span body => exact Script.exists_sequential Stmt.binds_subset h
    | returns span argument => cases argument <;> exact hsame _ h
    | _ => exact hsame _ h
  | key entry | property entry => cases entry <;> exact hsame _ h
  | declarator entry =>
    obtain ⟨span, pattern, init⟩ := entry
    cases init <;> exact hsame _ h
  | _ => exact hsame _ h

end Scopings

/-- A name that is free in what is walked is read where the walk does not know it to be bound. -/
lemma Node.Reads.sequential {node : Node} {name : String}
    (h : node.Reads (Node.walked .lexical) name) : node.Reads (Node.walked .sequential) name := by
  induction h with
  | ident id => exact .ident id
  | part hpart hfree _ ih =>
    obtain ⟨scope, hscope, hmem⟩ := Node.exists_sequential hpart
    exact .part hmem (fun hname => hfree (hscope hname)) ih

/-- A free name is left out exactly if it is read in a part that is passed over, and not where the
walk comes by it. -/
lemma Expr.left_out_iff {e : Expr} {name : String} :
    (Node.expr e).Reads Node.scopedParts name ∧ name ∉ e.dependencies ↔
      (Node.expr e).Misses name ∧ ¬ (Node.expr e).Reads (Node.walked .sequential) name := by
  rw [Expr.mem_dependencies, Node.reads_iff]
  constructor
  · rintro ⟨hwalked | hmisses, hout⟩
    · exact absurd hwalked.sequential hout
    · exact ⟨hmisses, hout⟩
  · rintro ⟨hmisses, hout⟩
    exact ⟨.inr hmisses, hout⟩

/-! ### Reactive statements -/

/-- The variable and the value of a reactive statement that computes a value. -/
def Stmt.reactive? : Stmt → Option (Ident × Expr)
  | .labeled _ label body => if label.name == "$" then assignment? body else none
  | _ => none

/-- The item documents the variable as a value that is computed from the dependencies. -/
structure Ident.ComputedAs (id : Ident) (excerpt : Excerpt) (dependencies : List String)
    (item : Item) : Prop where
  name : item.name = id.name
  locations : item.locations = [excerpt.location id.span]
  detail : ∃ detail, item.detail = .computed detail ∧ detail.dependencies = dependencies

/-- The item of a reactive statement that starts at `start`. -/
def computedItem (excerpt : Excerpt) (start : Nat) (id : Ident) (value : Expr) : Item :=
  let doc := excerpt.comment [start] .private
  .documented id.name
    (.computed {
      dependencies := value.dependencies
      type? := documentedType? doc
      shared := excerpt.isShared })
    doc (excerpt.location id.span)

/-- The item of a computed value lists the dependencies of its expression. -/
lemma computedAs_computedItem (excerpt : Excerpt) (start : Nat) (id : Ident) (value : Expr) :
    id.ComputedAs excerpt value.dependencies (computedItem excerpt start id value) :=
  ⟨rfl, rfl, _, rfl, rfl⟩

section Scripts

variable {excerpt : Excerpt} {statement : Stmt} {id : Ident} {value : Expr}

/-- A reactive statement emits the item of its value. -/
lemma exists_computed (h : statement.reactive? = some (id, value)) (found : Extraction) :
    ∃ item, id.ComputedAs excerpt value.dependencies item ∧
      (found.emit item).Retains (extractStatement excerpt found statement) := by
  cases statement with
  | labeled span label body =>
    obtain ⟨hlabel, hassignment⟩ :
        (label.name == "$") = true ∧ assignment? body = some (id, value) := by
      simpa [Stmt.reactive?] using h
    let item := computedItem excerpt span.start id value
    have hstatement : extractStatement excerpt found (.labeled span label body) =
        value.searchTop excerpt (some span.start) (found.emit item) := by
      rw [extractStatement, if_pos hlabel, extractReactive, hassignment]
      rfl
    refine ⟨item, computedAs_computedItem excerpt span.start id value, ?_⟩
    rw [hstatement]
    exact .of_searched
      (value.search_finds excerpt (some span.start) { found := found.emit item }).found
  | _ => cases h

/-- A script appends items to those found before, with an item for each reactive statement that
computes a value. Its dependencies are the names that are read in the value where the walk does not
know them to be bound. A name that is free in the value is left out of them exactly if it is read in
a part that is passed over and not where the walk comes by it. -/
theorem extractStatements_dependencies (excerpt : Excerpt) (statements : List Stmt)
    (found : Extraction) :
    ∃ new, (extractStatements excerpt statements found).items = found.items ++ new ∧
      ∀ statement ∈ statements, ∀ id value, statement.reactive? = some (id, value) →
        ∃ item ∈ new, ∃ dependencies, id.ComputedAs excerpt dependencies item ∧
          (∀ name, name ∈ dependencies ↔
            (Node.expr value).Reads (Node.walked .sequential) name) ∧
          ∀ name, (Node.expr value).Reads Node.scopedParts name ∧ name ∉ dependencies ↔
            (Node.expr value).Misses name ∧
              ¬ (Node.expr value).Reads (Node.walked .sequential) name := by
  obtain ⟨new, hnew⟩ : found.items <+: (extractStatements excerpt statements found).items :=
    (Retains.foldl (extractStatement_retains excerpt) statements found).items
  refine ⟨new, hnew.symm, fun statement hmem id value hreactive => ?_⟩
  obtain ⟨inside, hbefore, hbehind⟩ :=
    Retains.exists_of_mem (extractStatement_retains excerpt) hmem found
  obtain ⟨item, hitem, hemits⟩ := exists_computed hreactive inside
  refine ⟨item, ?_, value.dependencies, hitem, fun name => Expr.mem_dependencies,
    fun name => Expr.left_out_iff⟩
  obtain ⟨between, hbetween⟩ := hbefore.items
  obtain ⟨rest, hrest⟩ := (hemits.trans hbehind).items
  have hparts : new = between ++ [item] ++ rest := by
    apply List.append_cancel_left
    calc found.items ++ new = (inside.emit item).items ++ rest := hnew.trans hrest.symm
      _ = found.items ++ (between ++ [item] ++ rest) := by
        show inside.items ++ [item] ++ rest = _
        rw [← hbetween]
        simp
  simp [hparts]

end Scripts

/-! ### A loop in the value -/

/-- The value in `$: x = () => { while (a) {} … }`, where more statements may follow the loop. -/
def loopValue (stop : Nat) (rest : List Stmt) : Expr :=
  .arrow ⟨7, stop⟩ (.mk none []
    (.whileLoop ⟨15, 27⟩ (.ident ⟨"a", ⟨22, 23⟩⟩) (.block ⟨25, 27⟩ []) :: rest))

/-- The statement `$: x = () => { while (a) {} … }`. -/
def loopStatement (stop : Nat) (rest : List Stmt) : Stmt :=
  .labeled ⟨0, stop⟩ ⟨"$", ⟨0, 1⟩⟩
    (.expr ⟨3, stop⟩ (.assign ⟨3, stop⟩ "=" (.ident ⟨"x", ⟨3, 4⟩⟩) (loopValue stop rest)))

/-- What the loop reads is missed, unless the rest of the function declares it. -/
lemma loopValue_misses {stop : Nat} {rest : List Stmt}
    (h : "a" ∉ (rest.map (Stmt.scopeNames true)).flatten) :
    (Node.expr (loopValue stop rest)).Misses "a" :=
  .part (List.Mem.head _) h (.here (List.Mem.head _) List.not_mem_nil (.ident ⟨"a", ⟨22, 23⟩⟩))

/-- In `$: x = () => { while (a) {} return b }` the walk comes by `b` and passes over `a`. -/
theorem extractStatements_dependencies_loop :
    let rest : List Stmt := [.returns ⟨28, 36⟩ (some (.ident ⟨"b", ⟨35, 36⟩⟩))]
    ∃ item ∈ (extractStatements default [loopStatement 38 rest] { settings := {} }).items,
      ∃ dependencies, Ident.ComputedAs ⟨"x", ⟨3, 4⟩⟩ default dependencies item ∧
        "b" ∈ dependencies ∧
        (Node.expr (loopValue 38 rest)).Reads Node.scopedParts "a" ∧ "a" ∉ dependencies := by
  intro rest
  obtain ⟨new, hnew, hreactive⟩ :=
    extractStatements_dependencies default [loopStatement 38 rest] { settings := {} }
  obtain ⟨item, hitem, dependencies, hcomputed, hlisted, hleft⟩ :=
    hreactive _ (List.mem_singleton_self _) ⟨"x", ⟨3, 4⟩⟩ (loopValue 38 rest) rfl
  refine ⟨item, ?_, dependencies, hcomputed, (hlisted "b").2 ?_, (hleft "a").2 ⟨?_, ?_⟩⟩
  · rw [hnew]
    exact List.mem_append_right _ hitem
  · exact Expr.mem_dependencies.1 (by decide)
  · exact loopValue_misses (by decide)
  · exact fun h => absurd (Expr.mem_dependencies.2 h) (by decide)

/-- What the condition of a loop reads is not listed. -/
theorem not_lists_loop_condition :
    ¬ ∀ (excerpt : Excerpt) (statements : List Stmt) (found : Extraction),
      ∀ statement ∈ statements, ∀ id value, statement.reactive? = some (id, value) →
        ∃ item ∈ (extractStatements excerpt statements found).items, ∃ dependencies,
          id.ComputedAs excerpt dependencies item ∧
            ∀ name, (Node.expr value).Reads Node.scopedParts name → name ∈ dependencies := by
  intro h
  obtain ⟨item, hitem, dependencies, hcomputed, hall⟩ := h default [loopStatement 29 []]
    { settings := {} } _ (List.mem_singleton_self _) ⟨"x", ⟨3, 4⟩⟩ (loopValue 29 []) rfl
  have hlisted : "a" ∈ dependencies := hall "a" (Node.reads_iff.2 (.inr (loopValue_misses nofun)))
  have hitems : (extractStatements default [loopStatement 29 []] { settings := {} }).items =
      [computedItem default 0 ⟨"x", ⟨3, 4⟩⟩ (loopValue 29 [])] := rfl
  rw [hitems] at hitem
  cases List.mem_singleton.1 hitem
  obtain ⟨detail, hdetail, rfl⟩ := hcomputed.detail
  cases hdetail
  exact absurd hlisted (by decide)

end ComponentApi.Script
