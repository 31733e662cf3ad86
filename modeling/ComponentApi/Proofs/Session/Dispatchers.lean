import Mathlib.Data.List.Induction
import ComponentApi.Session
import ComponentApi.Proofs.Script.Bindings
import ComponentApi.Proofs.Script.Findings

/-!
# Dispatchers over a session

A name is known for a dispatcher in one of two ways: it is registered as one, or it was declared
last as an alias of one that is. Steps of a session register names and never strike one out, and
they declare names (`Step.declared`). So a registered dispatcher stays one, and a factory stays a
factory. A dispatcher by declaration stays one only while it is not declared anew as something else:
`isDispatcher_performAll` says exactly when it does.
-/

namespace ComponentApi

open Script

/-! ### Tables -/

/-- The declarations after further ones, of which each replaces an earlier one of the same name. -/
def Assoc.putAll {β : Type} (map : Assoc String β) (entries : List (String × β)) :
    Assoc String β :=
  entries.foldl (fun map entry => map.put entry.1 entry.2) map

/-- The last of the entries for a key decides. -/
lemma Assoc.get?_putAll {β : Type} (map : Assoc String β) (entries : List (String × β))
    (key : String) :
    (map.putAll entries).get? key = (Assoc.get? entries.reverse key).or (map.get? key) := by
  induction entries using List.reverseRecOn with
  | nil => rfl
  | append_singleton entries entry ih =>
    rw [Assoc.putAll, List.foldl_append, List.foldl_cons, List.foldl_nil, ← Assoc.putAll,
      Assoc.get?_put, ih, List.reverse_concat, Assoc.get?]
    split_ifs <;> rfl

namespace NameTable

/-- The second table knows all dispatchers and factories of the first. Its declarations are those of
the first and the given ones. -/
structure Gains (declared : List (String × Declaration)) (names next : NameTable) : Prop where
  dispatchers : names.dispatchers ⊆ next.dispatchers
  factories : names.factories ⊆ next.factories
  declarations : next.declarations = names.declarations.putAll declared

/-- Known names that grow gain no declarations. -/
lemma Grows.gains {names next : NameTable} (h : names.Grows next) : Gains [] names next :=
  ⟨h.dispatchers, h.factories, h.declarations⟩

namespace Gains

variable {declared more : List (String × Declaration)} {first second third names next : NameTable}

/-- Nothing is gained where nothing changes. -/
lemma refl (names : NameTable) : Gains [] names names := (Grows.refl names).gains

/-- What is gained in two parts is gained in one. -/
lemma trans (h : Gains declared first second) (h' : Gains more second third) :
    Gains (declared ++ more) first third where
  dispatchers := List.Subset.trans h.dispatchers h'.dispatchers
  factories := List.Subset.trans h.factories h'.factories
  declarations := by
    rw [h'.declarations, h.declarations, Assoc.putAll, Assoc.putAll, Assoc.putAll,
      List.foldl_append]

/-- A name is declared as it was last, by the new declarations or before them. -/
lemma declaration? (h : Gains declared names next) (name : String) :
    next.declaration? name = (Assoc.get? declared.reverse name).or (names.declaration? name) := by
  rw [NameTable.declaration?, h.declarations, Assoc.get?_putAll]
  rfl

end Gains

/-- The declaration is an alias of a registered dispatcher. -/
def NamesDispatcher (names : NameTable) (declaration : Declaration) : Prop :=
  ∃ target ∈ names.dispatchers, declaration = .alias [target]

/-- A name dispatches if it is registered, or declared as an alias of a registered name. -/
lemma isDispatcher_iff (names : NameTable) (name : String) :
    names.isDispatcher name = true ↔
      name ∈ names.dispatchers ∨
        ∃ declaration, names.declaration? name = some declaration ∧
          names.NamesDispatcher declaration := by
  unfold isDispatcher NamesDispatcher
  rw [Bool.or_eq_true, List.contains_iff_mem]
  refine or_congr_right ?_
  constructor
  · intro h
    split at h
    · next target hdeclaration =>
      exact ⟨_, hdeclaration, target, List.contains_iff_mem.1 h, rfl⟩
    · cases h
  · rintro ⟨_, hdeclaration, target, htarget, rfl⟩
    rw [hdeclaration]
    exact List.contains_iff_mem.2 htarget

/-- What was a dispatcher is one after further declarations if and only if it is registered, or the
last of these declarations that is its own makes it an alias of one that is. -/
lemma Gains.isDispatcher_iff {declared : List (String × Declaration)} {names next : NameTable}
    {name : String} (h : Gains declared names next) (hbefore : names.isDispatcher name = true) :
    next.isDispatcher name = true ↔
      name ∈ next.dispatchers ∨
        ∀ declaration, Assoc.get? declared.reverse name = some declaration →
          next.NamesDispatcher declaration := by
  rw [NameTable.isDispatcher_iff, h.declaration?]
  cases hdeclared : Assoc.get? declared.reverse name with
  | some declaration => simp
  | none =>
    -- Without a new declaration, the old alias is one still.
    simp only [Option.none_or, reduceCtorEq, false_implies, implies_true, or_true, iff_true]
    obtain hregistered | ⟨declaration, hname, target, htarget, halias⟩ :=
      (NameTable.isDispatcher_iff names name).1 hbefore
    · exact .inl (h.dispatchers hregistered)
    · exact .inr ⟨declaration, hname, target, h.dispatchers htarget, halias⟩

end NameTable

/-! ### Steps -/

/-- The name and the declaration of what a script binds. -/
def Script.Bound.entry (bound : Bound) : String × Declaration :=
  (bound.id.name, bound.declaration)

/-- What a step declares, in its order. -/
def Step.declared : Step → List (String × Declaration)
  | .script block =>
    ((parseModule? block.isTypeScript block.content.toList).getD []).flatMap fun statement =>
      statement.bound.map Bound.entry
  | .declare name declaration => [(name, declaration)]
  | _ => []

namespace Script

/-- Whatever a script is read for, its table gains the names that it binds. -/
lemma outline_gains (excerpt : Excerpt) :
    Outline excerpt (fun _ => True) (fun _ => True) fun bound found next =>
      NameTable.Gains (bound.map Bound.entry) found.names next.names where
  refl := fun found => .refl found.names
  trans := by
    intro names more first second third h h'
    rw [List.map_append]
    exact h.trans h'
  announce := fun _ _ => ⟨List.Subset.refl _, List.Subset.refl _, rfl⟩
  expose := fun _ found => .refl found.names
  know := fun _ _ h => h.gains
  expr := fun {e} _ statement? found =>
    (e.search_finds excerpt statement? { found }).found.names.gains
  stmt := fun {statement} _ found =>
    (statement.search_finds excerpt _ { found }).found.names.gains
  function := fun {definition} _ found =>
    (definition.search_finds excerpt { found }).found.names.gains

end Script

namespace Markup

variable {template : Template} {comment? : Option Span} {tag : List Char}
  {found next : Extraction}

/-- Only a handler can change what is known of names. -/
lemma extractAttribute_grows {attr : Attribute}
    (h : extractAttribute template comment? tag found attr = .ok next) :
    found.names.Grows next.names := by
  unfold extractAttribute at h
  split at h
  · cases h
    unfold extractReference
    split <;> exact .refl _
  · cases h
    unfold extractBinding
    split_ifs <;> exact .refl _
  · split at h
    · unfold extractHandler at h
      split at h
      · exact (Extraction.readInline_searched h).names
      · cases h
        exact .refl _
    · cases h
      unfold extractForwarded
      split
      · exact .refl _
      · exact .refl _
      · dsimp only
        split_ifs <;> exact .refl _
  · cases h
    unfold extractAction
    split_ifs <;> exact .refl _
  · cases h
    exact .refl _

/-- Attributes forget no dispatcher. -/
lemma extractAttributes_grows (attributes : List Attribute) :
    found.names.Grows (extractAttributes template comment? tag found attributes).1.names := by
  induction attributes generalizing found with
  | nil => exact .refl _
  | cons attr rest ih =>
    unfold extractAttributes
    split
    · next hattr => exact (extractAttribute_grows hattr).trans ih
    · exact .refl _

/-- A tag forgets no dispatcher. -/
lemma extractTag_grows (tag : Tag) (stop : Nat) :
    found.names.Grows (extractTag template comment? tag stop found).1.names := by
  unfold extractTag
  dsimp only
  refine .trans ?_ (extractAttributes_grows tag.attributes)
  split_ifs <;> exact .refl _

/-- Reading a tag forgets no dispatcher. -/
lemma readTag_grows (visit : Visit) (tag : Tag) (stop : Nat) :
    visit.found.names.Grows (visit.readTag template tag stop).found.names := by
  have hoverview :
      visit.found.names.Grows (extractOverview template visit.comment? visit.found).names := by
    unfold extractOverview
    split_ifs <;> exact .refl _
  unfold Visit.readTag
  split_ifs
  · exact .refl _
  · exact hoverview.trans (extractTag_grows tag stop)
  · exact extractTag_grows tag stop

/-- The end of a tag forgets no dispatcher. -/
lemma endTag_grows (visit : Visit) (stop : Nat) (selfClosing : Bool) :
    visit.found.names.Grows (visit.endTag template stop selfClosing).found.names := by
  unfold Visit.endTag
  cases visit.tag? with
  | none => exact .refl _
  | some tag =>
    dsimp only
    split_ifs
    · exact .refl _
    · let reading : Visit :=
        { visit with
          tag? := none
          inRawText :=
            visit.inRawText || (Text.isRawTextTag (template.slice tag.name) && !selfClosing) }
      exact readTag_grows reading tag stop

/-- An event of the markup forgets no dispatcher. -/
lemma step_grows (visit : Visit) (event : Event) :
    visit.found.names.Grows (Visit.step template visit event).found.names := by
  cases event with
  | openEnd position => exact endTag_grows visit position false
  | selfClose position => exact endTag_grows visit position true
  | text | close =>
    simp only [Visit.step]
    split_ifs <;> exact .refl _
  | attributeEnd =>
    simp only [Visit.step]
    split <;> exact .refl _
  | _ => exact .refl _

/-- Events of the markup forget no dispatcher. -/
lemma foldl_step_grows (events : List Event) (visit : Visit) :
    visit.found.names.Grows (events.foldl (Visit.step template) visit).found.names := by
  induction events generalizing visit with
  | nil => exact .refl _
  | cons event rest ih => exact (step_grows visit event).trans (ih _)

/-- Reading a template forgets no dispatcher. -/
lemma readMarkup_grows (found : Extraction) (template : List Char) (offset : Nat) :
    found.names.Grows (found.readMarkup template offset).1.names :=
  foldl_step_grows (events template) { found }

end Markup

namespace Extraction

/-- A step forgets no dispatcher and no factory, and records what it declares. -/
lemma perform_gains (found : Extraction) (step : Step) :
    NameTable.Gains step.declared found.names (found.perform step).1.names := by
  cases step with
  | script block =>
    simp only [perform, readScript, Step.declared]
    cases parseModule? block.isTypeScript block.content.toList with
    | none => exact .refl _
    | some statements =>
      have h : NameTable.Gains ((statements.flatMap Stmt.bound).map Bound.entry) found.names _ :=
        (outline_gains (.ofBlock block)).statements (fun _ _ _ _ => trivial)
          (fun _ _ _ _ => trivial) found
      rwa [List.map_flatMap] at h
  | inline expression offset =>
    simp only [perform]
    cases h : found.readInline expression offset with
    | error failure => exact .refl _
    | ok next => exact (readInline_searched h).names.gains
  | markup template offset => exact (Markup.readMarkup_grows found template offset).gains
  | declare name declaration => exact ⟨List.Subset.refl _, List.Subset.refl _, rfl⟩
  | addFactory name => exact (NameTable.Grows.addFactory _ _).gains
  | addDispatcher name => exact (NameTable.Grows.addDispatcher _ _).gains

/-- So do steps, one after the other. -/
lemma performAll_gains (found : Extraction) (steps : List Step) :
    NameTable.Gains (steps.flatMap Step.declared) found.names (found.performAll steps).names := by
  induction steps generalizing found with
  | nil => exact .refl _
  | cons step rest ih => exact (found.perform_gains step).trans (ih _)

/-! ### Sessions -/

/-- However a session goes on, what makes dispatchers still does, and what is registered as a
dispatcher still is. Any other dispatcher is one still if and only if it has been registered
meanwhile, or the last declaration of the name in the steps, if there is one, makes it an alias of a
registered one. -/
theorem isDispatcher_performAll (found : Extraction) (steps : List Step) (name : String) :
    (found.names.isFactory name = true →
      (found.performAll steps).names.isFactory name = true) ∧
    (name ∈ found.names.dispatchers → name ∈ (found.performAll steps).names.dispatchers) ∧
    (found.names.isDispatcher name = true →
      ((found.performAll steps).names.isDispatcher name = true ↔
        name ∈ (found.performAll steps).names.dispatchers ∨
          ∀ declaration,
            Assoc.get? (steps.flatMap Step.declared).reverse name = some declaration →
              (found.performAll steps).names.NamesDispatcher declaration)) := by
  have hgains := found.performAll_gains steps
  refine ⟨?_, fun h => hgains.dispatchers h, hgains.isDispatcher_iff⟩
  intro h
  rw [NameTable.isFactory, List.contains_iff_mem] at h ⊢
  exact hgains.factories h

/-- What a script shows in which `n` is an alias of a dispatcher that is made behind it. -/
def aliased : Extraction :=
  performAll { settings := {} }
    [.script { content := "let n = d; let d = createEventDispatcher()" }]

/-- A name can be declared as something else and then as an alias again. -/
theorem isDispatcher_performAll_alias :
    let steps : List Step := [.script { content := "let n = 1" },
      .markup "<a on:click=\x7b() => d('e')\x7d/>".toList 0, .declare "n" (.alias ["d"])]
    (aliased.performAll steps).names.isFactory dispatcherFactory = true ∧
      "d" ∈ (aliased.performAll steps).names.dispatchers ∧
      (aliased.performAll steps).names.isDispatcher "n" = true := by
  intro steps
  have hregistered := (isDispatcher_performAll aliased steps "d").2.1 (by decide +kernel)
  have halias := (isDispatcher_performAll aliased steps "n").2.2 (by decide +kernel)
  refine ⟨(isDispatcher_performAll aliased steps dispatcherFactory).1 (by decide +kernel),
    hregistered, halias.2 (.inr fun declaration hlast => ⟨"d", hregistered, ?_⟩)⟩
  have hdeclared : Assoc.get? (steps.flatMap Step.declared).reverse "n" = some (.alias ["d"]) := by
    simp [steps, Step.declared, Assoc.get?]
  exact Option.some.inj (hlast.symm.trans hdeclared)

/-- A later script that declares the name of a dispatcher by declaration as something else takes it
from the dispatchers. -/
theorem not_isDispatcher_redeclared :
    ¬ ∀ (found : Extraction) (steps : List Step) (name : String),
      found.names.isDispatcher name = true →
        (found.performAll steps).names.isDispatcher name = true := by
  intro h
  have hbefore : aliased.names.isDispatcher "n" = true := by decide +kernel
  have hafter : (aliased.performAll [.script { content := "let n = 1" }]).names.isDispatcher "n" =
      false := by decide +kernel
  cases hafter.symm.trans (h aliased _ "n" hbefore)

end Extraction

end ComponentApi
