import ComponentApi.Component
import ComponentApi.Proofs.Markup.Brackets
import ComponentApi.Proofs.Script.Simulation

/-!
# Two readings side by side

A component can stand further back in its file, and it can be read under other settings. Neither
changes what is found in it but for two things: all places are moved by as much as the component,
and the visibilities of methods and actions without one of their own are those of the settings.
`Extraction.Parallel` relates what two readings have found, where the second is moved and where the
settings are `Alike` in these visibilities. Every part of the reading keeps this relation, so two
readings of a whole component end in it, or both fail at the same place of the component
(`Source.extract_parallel`).
-/

namespace ComponentApi

/-- Two settings give the same visibilities to methods and actions without one of their own. -/
structure Settings.Alike (first second : Settings) : Prop where
  method : first.methodVisibility = second.methodVisibility
  action : first.actionVisibility = second.actionVisibility

/-- Settings are like themselves. -/
lemma Settings.Alike.refl (settings : Settings) : settings.Alike settings := ⟨rfl, rfl⟩

/-! ### Moving places -/

/-- Shifting twice is shifting by the sum. -/
lemma Span.shift_shift (span : Span) (first second : Nat) :
    (span.shift first).shift second = span.shift (first + second) := by
  simp [shift, Nat.add_assoc]

/-- The item with its places moved right. -/
def Item.shift (item : Item) (offset : Nat) : Item :=
  { item with locations := item.locations.map (·.shift offset) }

/-- The diagnostic with its place moved right. -/
def Diagnostic.shift (diagnostic : Diagnostic) (offset : Nat) : Diagnostic :=
  { diagnostic with location := diagnostic.location.shift offset }

/-- The failure with the place of the script, if it is about one, moved right. -/
def Failure.shift : Failure → Nat → Failure
  | .syntaxError scope position, offset => .syntaxError scope (position + offset)
  | failure, _ => failure

/-- The block further back in the file. -/
def ScriptBlock.shift (block : ScriptBlock) (offset : Nat) : ScriptBlock :=
  { block with offset := block.offset + offset }

/-- The component with all of its parts further back in the file. -/
def Source.shift (source : Source) (offset : Nat) : Source :=
  { source with
    templateOffset := source.templateOffset + offset
    scripts := source.scripts.map (·.shift offset) }

namespace Extraction

/-- The findings with all places moved right. -/
def shift (found : Extraction) (offset : Nat) : Extraction :=
  { found with
    items := found.items.map (·.shift offset)
    diagnostics := found.diagnostics.map (·.shift offset) }

/-- The same findings under other settings. -/
def withSettings (found : Extraction) (settings : Settings) : Extraction :=
  { found with settings }

/-- The settings that were put in are there. -/
@[simp] lemma withSettings_settings (found : Extraction) (settings : Settings) :
    (found.withSettings settings).settings = settings := rfl

/-- The second findings, under the second settings, are the first, under the first settings, with
all places moved. -/
structure Parallel (offset : Nat) (first second : Settings) (found other : Extraction) :
    Prop where
  alike : first.Alike second
  settings : found.settings = first
  eq : other = (found.shift offset).withSettings second

namespace Parallel

variable {offset : Nat} {first second : Settings} {found other : Extraction}

/-- The same names are known in both. -/
lemma names (h : Parallel offset first second found other) : other.names = found.names := by
  rw [h.eq]
  rfl

/-- The same events are remembered as forwarded in both. -/
lemma forwarded (h : Parallel offset first second found other) :
    other.forwarded = found.forwarded := by
  rw [h.eq]
  rfl

/-- Both have the same overview. -/
lemma overview? (h : Parallel offset first second found other) :
    other.overview? = found.overview? := by
  rw [h.eq]
  rfl

/-- Methods have the same visibility in both. -/
lemma methodVisibility (h : Parallel offset first second found other) :
    other.settings.methodVisibility = found.settings.methodVisibility := by
  rw [h.eq, h.settings]
  exact h.alike.method.symm

/-- Actions have the same visibility in both. -/
lemma actionVisibility (h : Parallel offset first second found other) :
    other.settings.actionVisibility = found.settings.actionVisibility := by
  rw [h.eq, h.settings]
  exact h.alike.action.symm

/-- Both find the same thing, the second at a place that is moved. -/
lemma emit (h : Parallel offset first second found other) (name : String) (detail : Detail)
    (doc : DocComment) (location : Span) :
    Parallel offset first second (found.emit (.documented name detail doc location))
      (other.emit (.documented name detail doc (location.shift offset))) := by
  obtain ⟨halike, hsettings, rfl⟩ := h
  refine ⟨halike, hsettings, ?_⟩
  simp [Extraction.emit, shift, withSettings, Item.shift, Item.documented]

/-- The same diagnostic is reported in both, further back in the second. -/
lemma report (h : Parallel offset first second found other) (issue : Issue) (location : Span) :
    Parallel offset first second (found.report ⟨issue, location⟩)
      (other.report ⟨issue, location.shift offset⟩) := by
  obtain ⟨halike, hsettings, rfl⟩ := h
  refine ⟨halike, hsettings, ?_⟩
  simp [Extraction.report, shift, withSettings, Diagnostic.shift]

/-- Both can be given the same names. -/
lemma withNames (h : Parallel offset first second found other) (names : NameTable) :
    Parallel offset first second { found with names } { other with names } := by
  obtain ⟨halike, hsettings, rfl⟩ := h
  exact ⟨halike, hsettings, rfl⟩

/-- Both can declare the same name. -/
lemma declare (h : Parallel offset first second found other) (name : String)
    (declaration : Declaration) :
    Parallel offset first second (found.declare name declaration)
      (other.declare name declaration) := by
  unfold Extraction.declare
  rw [h.names]
  exact h.withNames _

/-- Both can remember the same forwarded events. -/
lemma withForwarded (h : Parallel offset first second found other)
    (forwarded : Assoc String Visibility) :
    Parallel offset first second { found with forwarded } { other with forwarded } := by
  obtain ⟨halike, hsettings, rfl⟩ := h
  exact ⟨halike, hsettings, rfl⟩

/-- Both can be given the same overview. -/
lemma withOverview (h : Parallel offset first second found other) (overview? : Option DocComment) :
    Parallel offset first second { found with overview? } { other with overview? } := by
  obtain ⟨halike, hsettings, rfl⟩ := h
  exact ⟨halike, hsettings, rfl⟩

/-- Going through a list by steps that keep the relation keeps it. -/
lemma foldl {α : Type} {f g : Extraction → α → Extraction} {list : List α}
    (h : Parallel offset first second found other)
    (hstep : ∀ x ∈ list, ∀ {found other}, Parallel offset first second found other →
      Parallel offset first second (f found x) (g other x)) :
    Parallel offset first second (list.foldl f found) (list.foldl g other) := by
  induction list generalizing found other with
  | nil => exact h
  | cons x rest ih =>
    obtain ⟨hx, hrest⟩ := List.forall_mem_cons.1 hstep
    exact ih (hx h) hrest

end Parallel

/-- Both readings succeed side by side, or both fail at the same place. -/
inductive ParallelTry (offset : Nat) (first second : Settings) :
    Except Failure Extraction → Except Failure Extraction → Prop
  | ok {found other : Extraction} (h : Parallel offset first second found other) :
      ParallelTry offset first second (.ok found) (.ok other)
  | error (failure : Failure) :
      ParallelTry offset first second (.error failure) (.error (failure.shift offset))

/-- Both readings go side by side, up to the same failure if there is one. -/
structure ParallelPartial (offset : Nat) (first second : Settings)
    (result other : Extraction × Option Failure) : Prop where
  found : Parallel offset first second result.1 other.1
  failure? : other.2 = result.2.map (·.shift offset)

end Extraction

/-! ### Scripts -/

namespace Script

open Extraction

variable {offset : Nat} {first second : Settings} {found other : Extraction}

/-- The excerpt further back in the file. -/
def Excerpt.shift (excerpt : Excerpt) (offset : Nat) : Excerpt :=
  { excerpt with offset := excerpt.offset + offset }

/-- A place in an excerpt that stands further back is further back. -/
lemma Excerpt.location_shift (excerpt : Excerpt) (offset : Nat) (span : Span) :
    (excerpt.shift offset).location span = (excerpt.location span).shift offset :=
  (span.shift_shift _ _).symm

/-- Two searches have found things side by side, inside the same functions. -/
structure Search.Parallel (offset : Nat) (first second : Settings) (search other : Search) :
    Prop where
  found : Extraction.Parallel offset first second search.found other.found
  frames : other.frames = search.frames

namespace Search.Parallel

variable {search other : Search}

/-- Both searches can declare the same name. -/
lemma declare (h : search.Parallel offset first second other) (name : String)
    (declaration : Declaration) :
    (search.declare name declaration).Parallel offset first second
      (other.declare name declaration) := by
  obtain ⟨found, frames⟩ := search
  obtain ⟨found', frames'⟩ := other
  obtain ⟨hfound, rfl⟩ := h
  cases frames' with
  | nil => exact ⟨hfound, rfl⟩
  | cons frame rest => exact ⟨hfound, rfl⟩

/-- Both searches can declare the same names without a value. -/
lemma declareUnknown (h : search.Parallel offset first second other) (names : List String) :
    (search.declareUnknown names).Parallel offset first second (other.declareUnknown names) := by
  unfold Search.declareUnknown
  induction names generalizing search other with
  | nil => exact h
  | cons name rest ih => exact ih (h.declare name .unknown)

/-- Both searches can bind the same pattern. -/
lemma bind (h : search.Parallel offset first second other) (pattern : Pattern)
    (init : Option Expr) :
    (search.bind pattern init).Parallel offset first second (other.bind pattern init) := by
  have hbound : Search.Parallel offset first second
      { search with found := { search.found with
        names := bindDispatcher search.found.names pattern init } }
      { other with found := { other.found with
        names := bindDispatcher other.found.names pattern init } } := by
    refine ⟨?_, h.frames⟩
    dsimp only
    rw [h.found.names]
    exact h.found.withNames _
  cases pattern with
  | ident id =>
    cases init with
    | none => exact hbound.declareUnknown _
    | some e => exact hbound.declare id.name e.declaration
  | _ => exact hbound.declareUnknown _

/-- An argument names the same event in both searches. -/
lemma eventName? (h : search.Parallel offset first second other) (argument : Expr) :
    other.eventName? argument = search.eventName? argument := by
  unfold Search.eventName?
  have hlookup : other.lookup = search.lookup := by
    funext name
    rw [Search.lookup, Search.lookup, h.frames, h.found.names]
  rw [hlookup]

/-- A callee is that of a dispatch in both searches or in none. -/
lemma isDispatch (h : search.Parallel offset first second other) (callee : Expr) :
    other.isDispatch callee = search.isDispatch callee := by
  unfold Search.isDispatch
  rw [h.found.names]

/-- Both searches find the same dispatched event, further back in the second. -/
lemma dispatch (h : search.Parallel offset first second other) (excerpt : Excerpt)
    (statement? : Option Nat) (span : Span) (arguments : List Expr) :
    (search.dispatch excerpt statement? span arguments).Parallel offset first second
      (other.dispatch (excerpt.shift offset) statement? span arguments) := by
  have hname : other.eventName? = search.eventName? := funext h.eventName?
  have hcomment : (excerpt.shift offset).comment = excerpt.comment := rfl
  have hslice : (excerpt.shift offset).slice = excerpt.slice := rfl
  refine ⟨?_, h.frames⟩
  unfold Search.dispatch
  rw [hname, hcomment, hslice]
  simp only [Excerpt.location_shift]
  refine Extraction.Parallel.emit ?_ _ _ _ _
  -- What is reported depends on the comment and on the name, which are the same.
  split
  · split
    · exact h.found.report _ _
    · exact h.found
  · split
    · exact (h.found.report _ _).report _ _
    · exact h.found.report _ _

end Search.Parallel

/-- Searches of the excerpt and of the moved one go side by side. -/
lemma simulation_parallel (excerpt : Excerpt) (offset : Nat) (first second : Settings) :
    Simulation excerpt (excerpt.shift offset) (Search.Parallel offset first second) where
  call := by
    intro s t h statement? span callee arguments
    unfold Search.call
    rw [h.isDispatch]
    split_ifs
    · exact h.dispatch excerpt statement? span arguments
    · exact h
  bind := fun h pattern init => h.bind pattern init
  declare := fun h name declaration => h.declare name declaration
  enter := by
    intro s t h params
    have hframes : ([] : Frame) :: t.frames = [] :: s.frames := by rw [h.frames]
    have hinside : Search.Parallel offset first second { s with frames := [] :: s.frames }
        { t with frames := [] :: t.frames } := ⟨h.found, hframes⟩
    exact hinside.declareUnknown params
  leave := fun h => ⟨h.found, congrArg List.tail h.frames⟩

/-- An expression gives the same in both, further back in the second. -/
lemma Expr.searchTop_parallel (h : Parallel offset first second found other) (excerpt : Excerpt)
    (statement? : Option Nat) (e : Expr) :
    Parallel offset first second (e.searchTop excerpt statement? found)
      (e.searchTop (excerpt.shift offset) statement? other) :=
  (e.search_simulated (simulation_parallel excerpt offset first second) statement?
    (s := { found }) (t := { found := other }) ⟨h, rfl⟩).found

/-- A statement gives the same in both, further back in the second. -/
lemma Stmt.searchTop_parallel (h : Parallel offset first second found other) (excerpt : Excerpt)
    (statement : Stmt) :
    Parallel offset first second (statement.searchTop excerpt found)
      (statement.searchTop (excerpt.shift offset) other) :=
  (statement.search_simulated (simulation_parallel excerpt offset first second) _
    (s := { found }) (t := { found := other }) ⟨h, rfl⟩).found

/-- A function gives the same in both, further back in the second. -/
lemma Function.search_parallel (h : Parallel offset first second found other) (excerpt : Excerpt)
    (definition : Function) :
    Parallel offset first second (definition.search excerpt { found }).found
      (definition.search (excerpt.shift offset) { found := other }).found :=
  (definition.search_simulated (simulation_parallel excerpt offset first second)
    (s := { found }) (t := { found := other }) ⟨h, rfl⟩).found

/-- A binding of a declaration gives the same in both, further back in the second. -/
lemma extractDeclarator_parallel (h : Parallel offset first second found other)
    (excerpt : Excerpt) (kind : VariableKind) (statement : Nat) (isExported : Bool)
    (starts : Starts) (declarator : Declarator) :
    Parallel offset first second
      (extractDeclarator excerpt kind statement isExported starts found declarator)
      (extractDeclarator (excerpt.shift offset) kind statement isExported starts other
        declarator) := by
  obtain ⟨span, pattern, init⟩ := declarator
  let value? := simpleInit? pattern init
  let declaration := (value?.map Expr.declaration).getD .unknown
  have hname : ∀ id ∈ pattern.boundNames, ∀ {found other : Extraction},
      Parallel offset first second found other → Parallel offset first second
        ((found.emit
          (variableItem excerpt kind isExported value? (span.start :: starts) id)).declare
          id.name declaration)
        ((other.emit (variableItem (excerpt.shift offset) kind isExported value?
          (span.start :: starts) id)).declare id.name declaration) := by
    intro id _ found other h
    refine Parallel.declare ?_ _ _
    unfold variableItem
    rw [Excerpt.location_shift]
    exact h.emit _ _ _ _
  have hnames := h.foldl hname
  have hbind : ∀ {found other}, Parallel offset first second found other →
      Parallel offset first second
        { found with names := bindDispatcher found.names pattern init }
        { other with names := bindDispatcher other.names pattern init } := by
    intro found other h
    rw [h.names]
    exact h.withNames _
  cases init with
  | none => exact hbind hnames
  | some e => exact e.searchTop_parallel (hbind hnames) excerpt (some statement)

/-- A function without a visibility of its own has that of methods. -/
lemma extractFunction_parallel (h : Parallel offset first second found other) (excerpt : Excerpt)
    (isExported : Bool) (starts : Starts) (definition : Function) :
    Parallel offset first second (extractFunction excerpt isExported starts definition found)
      (extractFunction (excerpt.shift offset) isExported starts definition other) := by
  obtain ⟨id?, params, body⟩ := definition
  refine Function.search_parallel ?_ excerpt _
  cases id? with
  | none => exact h
  | some id =>
    refine Parallel.declare ?_ _ _
    rw [Excerpt.location_shift, h.methodVisibility]
    exact h.emit _ _ _ _

/-- A declaration gives the same in both, further back in the second. -/
lemma extractDeclaration_parallel (h : Parallel offset first second found other)
    (excerpt : Excerpt) (export? : Option Nat) (statement : Stmt) :
    Parallel offset first second (extractDeclaration excerpt export? found statement)
      (extractDeclaration (excerpt.shift offset) export? other statement) := by
  cases statement with
  | «variable» span kind declarators =>
    exact h.foldl fun declarator _ _ _ h =>
      extractDeclarator_parallel h excerpt kind _ _ _ declarator
  | function span definition => exact extractFunction_parallel h excerpt _ _ definition
  | _ => exact h

/-- An import gives the same in both, further back in the second. -/
lemma extractImport_parallel (h : Parallel offset first second found other) (excerpt : Excerpt)
    (start : Nat) (path : String) (specifier : ImportSpecifier) :
    Parallel offset first second (extractImport excerpt start path found specifier)
      (extractImport (excerpt.shift offset) start path other specifier) := by
  unfold extractImport
  split_ifs
  · exact h
  · dsimp only
    rw [Excerpt.location_shift, h.names]
    exact (h.withNames _).emit _ _ _ _

/-- A reactive statement gives the same in both, further back in the second. -/
lemma extractReactive_parallel (h : Parallel offset first second found other) (excerpt : Excerpt)
    (start : Nat) (body : Stmt) :
    Parallel offset first second (extractReactive excerpt start body found)
      (extractReactive (excerpt.shift offset) start body other) := by
  unfold extractReactive
  cases assignment? body with
  | none => exact body.searchTop_parallel h excerpt
  | some pair =>
    dsimp only
    rw [Excerpt.location_shift]
    exact pair.2.searchTop_parallel (h.emit _ _ _ _) excerpt (some start)

/-- A statement at the top level gives the same in both, further back in the second. -/
lemma extractStatement_parallel (h : Parallel offset first second found other) (excerpt : Excerpt)
    (statement : Stmt) :
    Parallel offset first second (extractStatement excerpt found statement)
      (extractStatement (excerpt.shift offset) other statement) := by
  cases statement with
  | «variable» span kind declarators =>
    exact extractDeclaration_parallel h excerpt none (.variable span kind declarators)
  | function span definition =>
    exact extractDeclaration_parallel h excerpt none (.function span definition)
  | exportDeclaration span typeOnly declaration =>
    cases typeOnly with
    | true => exact h
    | false => exact extractDeclaration_parallel h excerpt (some span.start) declaration
  | exportNames span typeOnly specifiers source? =>
    cases typeOnly with
    | true => exact h
    | false =>
      refine h.foldl fun specifier _ _ _ h => ?_
      unfold exportItem
      rw [Excerpt.location_shift]
      exact h.emit _ _ _ _
  | labeled span label body =>
    simp only [extractStatement]
    split_ifs
    · exact extractReactive_parallel h excerpt span.start body
    · exact Stmt.searchTop_parallel h excerpt _
  | importFrom span declaration =>
    simp only [extractStatement]
    split_ifs
    · exact h
    · exact h.foldl fun specifier _ _ _ h => extractImport_parallel h excerpt _ _ specifier
  | _ => exact Stmt.searchTop_parallel h excerpt _

end Script

namespace Extraction

open Script

variable {offset : Nat} {first second : Settings} {found other : Extraction}

/-- A script is read in both or in none, further back in the second. -/
lemma readScript_parallel (h : Parallel offset first second found other) (block : ScriptBlock) :
    ParallelTry offset first second (found.readScript block)
      (other.readScript (block.shift offset)) := by
  have hparse : parseModule? (block.shift offset).isTypeScript (block.shift offset).content.toList =
      parseModule? block.isTypeScript block.content.toList := rfl
  unfold readScript
  rw [hparse]
  cases parseModule? block.isTypeScript block.content.toList with
  | none => exact .error (.syntaxError block.scope block.offset)
  | some statements =>
    exact .ok (h.foldl fun statement _ _ _ h =>
      extractStatement_parallel h (.ofBlock block) statement)

/-- Scripts are read in both or in none, further back in the second. -/
lemma readScripts_parallel (h : Parallel offset first second found other)
    (blocks : List ScriptBlock) :
    ParallelTry offset first second (found.readScripts blocks)
      (other.readScripts (blocks.map (·.shift offset))) := by
  unfold readScripts
  induction blocks generalizing found other with
  | nil => exact .ok h
  | cons block rest ih =>
    rw [List.map_cons, List.foldlM_cons, List.foldlM_cons]
    have hblock := readScript_parallel h block
    generalize found.readScript block = result at hblock
    generalize other.readScript (block.shift offset) = result' at hblock
    cases hblock with
    | error failure => exact .error failure
    | ok hnext => exact ih hnext

/-- The parenthesis before an expression of the markup has a place, since the expression does not
stand at the very start of the file. -/
lemma readInline_parallel (h : Parallel offset first second found other) (expression : List Char)
    {start : Nat} (hstart : 0 < start) :
    ParallelTry offset first second (found.readInline expression start)
      (other.readInline expression (start + offset)) := by
  have hexcerpt : Excerpt.ofInline expression (start + offset) =
      (Excerpt.ofInline expression start).shift offset := by
    simp only [Excerpt.ofInline, Excerpt.shift, Excerpt.mk.injEq, true_and, and_true]
    omega
  unfold readInline
  rw [hexcerpt]
  have htext : ((Excerpt.ofInline expression start).shift offset).text =
      (Excerpt.ofInline expression start).text := rfl
  simp only [htext]
  cases parseExpression? (Excerpt.ofInline expression start).text with
  | none => exact .error (.syntaxError .inline start)
  | some e => exact .ok (e.searchTop_parallel h _ none)

end Extraction

/-! ### Markup -/

namespace Markup

open Extraction

variable {offset : Nat} {first second : Settings} {found other : Extraction}

/-- The template further back in the file. -/
def Template.shift (template : Template) (offset : Nat) : Template :=
  { template with offset := template.offset + offset }

/-- A place in a template that stands further back is further back. -/
lemma Template.location_shift (template : Template) (offset : Nat) (span : Span) :
    (template.shift offset).location span = (template.location span).shift offset :=
  (span.shift_shift _ _).symm

/-- No value of an attribute stands at the very start of a template. -/
def Attribute.IsInside (attr : Attribute) : Prop :=
  ∀ value ∈ attr.value?, 0 < value.start

/-- Both can be given the item of an attribute, further back in the second. -/
lemma attributeItem_parallel (h : Parallel offset first second found other) (template : Template)
    (attr : Attribute) (name : List Char) (detail : Detail) (doc : DocComment) :
    Parallel offset first second (found.emit (attributeItem template attr name detail doc))
      (other.emit (attributeItem (template.shift offset) attr name detail doc)) := by
  unfold attributeItem
  rw [Template.location_shift]
  exact h.emit _ _ _ _

/-- A binding gives the same in both, further back in the second. -/
lemma extractBinding_parallel (h : Parallel offset first second found other) (template : Template)
    (comment? : Option Span) (tag : List Char) (attr : Attribute) (property : List Char) :
    Parallel offset first second (extractBinding template comment? tag attr property found)
      (extractBinding (template.shift offset) comment? tag attr property other) := by
  unfold extractBinding
  split_ifs
  · exact h
  · exact attributeItem_parallel h template attr _ _ _

/-- A reference gives the same in both, further back in the second. -/
lemma extractReference_parallel (h : Parallel offset first second found other)
    (template : Template) (comment? : Option Span) (tag : List Char) (attr : Attribute) :
    Parallel offset first second (extractReference template comment? tag attr found)
      (extractReference (template.shift offset) comment? tag attr other) := by
  have hroot : valueRoot? (template.shift offset) attr = valueRoot? template attr := rfl
  unfold extractReference
  rw [hroot]
  cases valueRoot? template attr with
  | none => exact h
  | some target => exact attributeItem_parallel h template attr _ _ _

/-- An action without a visibility of its own has that of actions. -/
lemma extractAction_parallel (h : Parallel offset first second found other) (template : Template)
    (comment? : Option Span) (tag : List Char) (attr : Attribute) (action : List Char) :
    Parallel offset first second (extractAction template comment? tag attr action found)
      (extractAction (template.shift offset) comment? tag attr action other) := by
  unfold extractAction
  split_ifs
  · exact h
  · rw [h.actionVisibility]
    exact attributeItem_parallel h template attr _ _ _

/-- A forwarded event gives the same in both, further back in the second. -/
lemma extractForwarded_parallel (h : Parallel offset first second found other)
    (template : Template) (comment? : Option Span) (tag : List Char) (attr : Attribute)
    (directive : List Char) :
    Parallel offset first second (extractForwarded template comment? tag attr directive found)
      (extractForwarded (template.shift offset) comment? tag attr directive other) := by
  unfold extractForwarded
  cases Text.pieces '|' directive with
  | nil => exact h
  | cons event modifiers =>
    cases event with
    | nil => exact h
    | cons c rest =>
      dsimp only
      rw [h.forwarded]
      have hcomment : (template.shift offset).comment comment? .public =
          template.comment comment? .public := rfl
      rw [hcomment]
      split_ifs
      · exact h
      · exact attributeItem_parallel (h.withForwarded _) template attr _ _ _

/-- A handler is read in both or in none, further back in the second. -/
lemma extractHandler_parallel (h : Parallel offset first second found other) (template : Template)
    {value : Span} (hvalue : 0 < value.start) (quote : Quote) :
    ParallelTry offset first second (extractHandler template value quote found)
      (extractHandler (template.shift offset) value quote other) := by
  have hhandler : handler? (template.shift offset) value quote = handler? template value quote :=
    rfl
  unfold extractHandler
  rw [hhandler]
  cases hread : handler? template value quote with
  | none => exact .ok h
  | some handler =>
    obtain ⟨expression, start⟩ := handler
    have hstart : 0 < start := by
      simp only [handler?, Option.ite_none_right_eq_some, Option.some.injEq, Prod.mk.injEq] at hread
      omega
    have hplace : (template.shift offset).offset + start = template.offset + start + offset := by
      simp only [Template.shift]
      omega
    dsimp only
    rw [hplace]
    exact readInline_parallel h expression (by omega)

/-- An attribute is read in both or in none, further back in the second. -/
lemma extractAttribute_parallel (h : Parallel offset first second found other)
    (template : Template) (comment? : Option Span) (tag : List Char) {attr : Attribute}
    (hattr : attr.IsInside) :
    ParallelTry offset first second (extractAttribute template comment? tag found attr)
      (extractAttribute (template.shift offset) comment? tag other attr) := by
  have hslice : (template.shift offset).slice attr.name = template.slice attr.name := rfl
  unfold extractAttribute
  rw [hslice]
  cases Directive.ofName? (template.slice attr.name) with
  | none => exact .ok h
  | some directive =>
    cases directive with
    | reference => exact .ok (extractReference_parallel h template comment? tag attr)
    | bind property => exact .ok (extractBinding_parallel h template comment? tag attr property)
    | use action => exact .ok (extractAction_parallel h template comment? tag attr action)
    | on event =>
      cases hvalue : attr.value? with
      | none => exact .ok (extractForwarded_parallel h template comment? tag attr event)
      | some value => exact extractHandler_parallel h template (hattr value hvalue) attr.quote

/-- Attributes give the same in both up to the same failure, further back in the second. -/
lemma extractAttributes_parallel (h : Parallel offset first second found other)
    (template : Template) (comment? : Option Span) (tag : List Char) {attributes : List Attribute}
    (hattributes : ∀ attr ∈ attributes, attr.IsInside) :
    ParallelPartial offset first second (extractAttributes template comment? tag found attributes)
      (extractAttributes (template.shift offset) comment? tag other attributes) := by
  induction attributes generalizing found other with
  | nil => exact ⟨h, rfl⟩
  | cons attr rest ih =>
    obtain ⟨hattr, hrest⟩ := List.forall_mem_cons.1 hattributes
    have hread := extractAttribute_parallel h template comment? tag hattr
    simp only [extractAttributes]
    generalize extractAttribute template comment? tag found attr = result at hread
    generalize extractAttribute (template.shift offset) comment? tag other attr = result' at hread
    cases hread with
    | error failure => exact ⟨h, rfl⟩
    | ok hnext => exact ih hnext hrest

/-- A tag gives the same in both up to the same failure, further back in the second. -/
lemma extractTag_parallel (h : Parallel offset first second found other) (template : Template)
    (comment? : Option Span) {tag : Tag} (htag : ∀ attr ∈ tag.attributes, attr.IsInside)
    (stop : Nat) :
    ParallelPartial offset first second (extractTag template comment? tag stop found)
      (extractTag (template.shift offset) comment? tag stop other) := by
  have hslice : (template.shift offset).slice tag.name = template.slice tag.name := rfl
  unfold extractTag
  rw [hslice]
  refine extractAttributes_parallel ?_ template comment? _ htag
  split_ifs
  · unfold slotItem
    rw [Template.location_shift]
    exact h.emit _ _ _ _
  · exact h

/-- A comment gives both the same overview. -/
lemma extractOverview_parallel (h : Parallel offset first second found other)
    (template : Template) (comment? : Option Span) :
    Parallel offset first second (extractOverview template comment? found)
      (extractOverview (template.shift offset) comment? other) := by
  unfold extractOverview
  rw [h.overview?]
  split_ifs
  · exact h.withOverview _
  · exact h

namespace Visit

/-- A visit that has come equally far, with findings of its own. -/
def beside (visit : Visit) (offset : Nat) (found : Extraction) : Visit :=
  { visit with found, failure? := visit.failure?.map (·.shift offset) }

/-- Two visits have come equally far and have found things side by side. The attributes that were
gathered do not stand at the very start of the template. -/
structure Parallel (offset : Nat) (first second : Settings) (visit other : Visit) : Prop where
  found : Extraction.Parallel offset first second visit.found other.found
  eq : other = visit.beside offset other.found
  pending : ∀ attr ∈ visit.pending?, attr.IsInside
  tag : ∀ tag ∈ visit.tag?, ∀ attr ∈ tag.attributes, attr.IsInside

namespace Parallel

variable {visit other : Visit}

/-- Reading a tag keeps visits parallel. -/
lemma readTag (h : visit.Parallel offset first second other) (template : Template) {tag : Tag}
    (htag : ∀ attr ∈ tag.attributes, attr.IsInside) (stop : Nat) :
    (visit.readTag template tag stop).Parallel offset first second
      (other.readTag (template.shift offset) tag stop) := by
  obtain ⟨hfound, heq, hpending, htags⟩ := h
  generalize other.found = found at hfound heq
  subst heq
  have hfailed : (visit.beside offset found).failure?.isSome = visit.failure?.isSome := by
    simp [beside]
  unfold Visit.readTag
  rw [hfailed]
  by_cases hfailure : visit.failure?.isSome = true
  · rw [if_pos hfailure, if_pos hfailure]
    exact ⟨hfound, rfl, hpending, htags⟩
  · rw [if_neg hfailure, if_neg hfailure]
    have hstart : Extraction.Parallel offset first second
        (if visit.beforeFirst = true then extractOverview template visit.comment? visit.found
          else visit.found)
        (if visit.beforeFirst = true then
          extractOverview (template.shift offset) visit.comment? found else found) := by
      split_ifs
      · exact extractOverview_parallel hfound template visit.comment?
      · exact hfound
    have hread := extractTag_parallel hstart template visit.comment? htag stop
    refine ⟨hread.found, ?_, hpending, htags⟩
    simp only [beside, Visit.mk.injEq, true_and]
    exact hread.failure?

/-- The end of a tag keeps visits parallel. -/
lemma endTag (h : visit.Parallel offset first second other) (template : Template) (stop : Nat)
    (selfClosing : Bool) :
    (visit.endTag template stop selfClosing).Parallel offset first second
      (other.endTag (template.shift offset) stop selfClosing) := by
  obtain ⟨hfound, heq, hpending, htags⟩ := h
  generalize other.found = found at hfound heq
  subst heq
  have hslice : (template.shift offset).slice = template.slice := rfl
  have hsame : (visit.beside offset found).tag? = visit.tag? := rfl
  unfold Visit.endTag
  rw [hsame, hslice]
  cases htag : visit.tag? with
  | none => exact ⟨hfound, rfl, hpending, htags⟩
  | some tag =>
    dsimp only
    split_ifs
    · exact ⟨hfound, rfl, hpending, nofun⟩
    · let inside : Visit := { visit with
        tag? := none
        inRawText := visit.inRawText ||
          (Text.isRawTextTag (template.slice tag.name) && !selfClosing) }
      have hinside : inside.Parallel offset first second (inside.beside offset found) :=
        ⟨hfound, rfl, hpending, nofun⟩
      have hread := hinside.readTag template (htags tag htag) stop
      exact ⟨hread.found, congrArg (fun visit : Visit => { visit with comment? := none }) hread.eq,
        hread.pending, hread.tag⟩

/-- Every event is taken in alike. -/
lemma step (h : visit.Parallel offset first second other) (template : Template) {event : Event}
    (hevent : ∀ value, event = .attributeValue value → 0 < value.start) :
    (visit.step template event).Parallel offset first second
      (other.step (template.shift offset) event) := by
  have hslice : (template.shift offset).slice = template.slice := rfl
  obtain ⟨hfound, heq, hpending, htags⟩ := h
  generalize other.found = found at hfound heq
  subst heq
  cases event with
  | text span =>
    simp only [Visit.step, hslice]
    have hraw : (visit.beside offset found).inRawText = visit.inRawText := rfl
    rw [hraw]
    split_ifs <;> exact ⟨hfound, rfl, hpending, htags⟩
  | mustache | comment | finish => exact ⟨hfound, rfl, hpending, htags⟩
  | openName span =>
    refine ⟨hfound, rfl, hpending, ?_⟩
    rintro tag ⟨⟩ attr ⟨⟩
  | attributeName span =>
    refine ⟨hfound, rfl, ?_, htags⟩
    rintro attr ⟨⟩ value ⟨⟩
  | attributeValue span =>
    refine ⟨hfound, rfl, ?_, htags⟩
    rintro attr hattr value hvalue
    obtain ⟨attr, hpended, rfl⟩ := Option.map_eq_some_iff.1 hattr
    -- A further part of a value keeps the start that the value has.
    cases hprevious : attr.value? with
    | none =>
      simp only [Attribute.extend, hprevious, Option.mem_some_iff] at hvalue
      subst hvalue
      exact hevent _ rfl
    | some previous =>
      simp only [Attribute.extend, hprevious, Option.mem_some_iff] at hvalue
      subst hvalue
      exact hpending attr hpended previous hprevious
  | attributeEnd quote position =>
    have hsame : (visit.beside offset found).pending? = visit.pending? := rfl
    simp only [Visit.step, hsame]
    cases hpended : visit.pending? with
    | none => exact ⟨hfound, rfl, hpending, htags⟩
    | some attr =>
      refine ⟨hfound, rfl, nofun, ?_⟩
      intro tag htag other hother
      obtain ⟨tag, hopened, rfl⟩ := Option.map_eq_some_iff.1 htag
      rcases List.mem_append.1 hother with hother | hother
      · exact htags tag hopened other hother
      · rw [List.mem_singleton.1 hother]
        exact hpending attr hpended
  | openEnd position => exact Parallel.endTag ⟨hfound, rfl, hpending, htags⟩ template position false
  | selfClose position =>
    exact Parallel.endTag ⟨hfound, rfl, hpending, htags⟩ template position true
  | close span =>
    simp only [Visit.step, hslice]
    have hraw : (visit.beside offset found).inRawText = visit.inRawText := rfl
    rw [hraw]
    split_ifs <;> exact ⟨hfound, rfl, hpending, htags⟩

/-- All events of a template are taken in alike. -/
lemma foldl_step (h : visit.Parallel offset first second other) (template : Template)
    {events : List Event}
    (hevents : ∀ value, .attributeValue value ∈ events → 0 < value.start) :
    (events.foldl (Visit.step template) visit).Parallel offset first second
      (events.foldl (Visit.step (template.shift offset)) other) := by
  induction events generalizing visit other with
  | nil => exact h
  | cons event rest ih =>
    have hevent : ∀ value, event = .attributeValue value → 0 < value.start :=
      fun value hvalue => hevents value (by simp [hvalue])
    exact ih (h.step template hevent)
      fun value hvalue => hevents value (List.mem_cons_of_mem event hvalue)

end Parallel

end Visit

end Markup

/-! ### Components -/

/-- A template gives the same in both up to the same failure, further back in the second. -/
lemma Extraction.Parallel.readMarkup {offset : Nat} {first second : Settings}
    {found other : Extraction} (h : Parallel offset first second found other)
    (template : List Char) (start : Nat) :
    ParallelPartial offset first second (found.readMarkup template start)
      (other.readMarkup template (start + offset)) := by
  have hstart : Markup.Visit.Parallel offset first second { found } { found := other } :=
    ⟨h, rfl, nofun, nofun⟩
  have hvalues : ∀ value, .attributeValue value ∈ Markup.events template → 0 < value.start :=
    fun _ => Markup.attributeValue_start_pos
  have hvisit := hstart.foldl_step ⟨template, start⟩ hvalues
  refine ⟨hvisit.found, ?_⟩
  exact congrArg Markup.Visit.failure? hvisit.eq

/-- A component and the same component further back in the file, read under alike settings, give the
same findings at moved places, or fail at the same place of the component. -/
theorem Source.extract_parallel (source : Source) (offset : Nat) {first second : Settings}
    (h : first.Alike second) :
    Extraction.ParallelTry offset first second (source.extract first)
      ((source.shift offset).extract second) := by
  have hstart : Extraction.Parallel offset first second { settings := first }
      { settings := second } := ⟨h, rfl, rfl⟩
  have hscripts := Extraction.readScripts_parallel hstart source.scripts
  unfold extract
  have hsecond : (source.shift offset).scripts = source.scripts.map (·.shift offset) := rfl
  rw [hsecond]
  generalize Extraction.readScripts { settings := first } source.scripts = result at hscripts
  generalize Extraction.readScripts { settings := second }
    (source.scripts.map (·.shift offset)) = result' at hscripts
  cases hscripts with
  | error failure => exact .error failure
  | @ok found other hfound =>
    have hmarkup := hfound.readMarkup source.template.toList source.templateOffset
    have hother : other.readMarkup (source.shift offset).template.toList
        (source.shift offset).templateOffset =
          other.readMarkup source.template.toList (source.templateOffset + offset) := rfl
    simp only [bind, Except.bind]
    rw [hother]
    generalize other.readMarkup source.template.toList (source.templateOffset + offset) = result'
      at hmarkup
    generalize found.readMarkup source.template.toList source.templateOffset = result at hmarkup
    obtain ⟨found, failure?⟩ := result
    obtain ⟨other, failure'?⟩ := result'
    obtain ⟨hfound, hfailure⟩ := hmarkup
    cases hfailure
    cases failure? with
    | none => exact .ok hfound
    | some failure => exact .error failure

end ComponentApi
