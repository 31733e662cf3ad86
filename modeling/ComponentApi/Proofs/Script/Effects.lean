import ComponentApi.Proofs.Script.Additions
import ComponentApi.Proofs.Script.Passage

/-!
# What a search leaves alone

A search below the top level finds events and nothing else. `Extraction.Searched` says what may
change in what has been found: dispatched events and diagnostics are appended, and names may turn
out to dispatch events or to make dispatchers. The declared names, the overview, the forwarded
events and the settings stay. What the functions around a place declare is kept in frames, and there
a statement changes the innermost frame at most, and an expression none.

The start of the statement around a place is handed down into the parts of the statement and is no
part of the state, so a search cannot change it for what comes next.
-/

namespace ComponentApi

/-- The second table knows all dispatchers and factories of the first, and declares the same. -/
structure NameTable.Grows (names next : NameTable) : Prop where
  dispatchers : names.dispatchers ⊆ next.dispatchers
  factories : names.factories ⊆ next.factories
  declarations : next.declarations = names.declarations

namespace NameTable.Grows

variable {first second third : NameTable}

/-- Known names grow by nothing where nothing changes. -/
lemma refl (names : NameTable) : names.Grows names := ⟨List.Subset.refl _, List.Subset.refl _, rfl⟩

/-- What grows in two parts grows in one. -/
lemma trans (h : first.Grows second) (h' : second.Grows third) : first.Grows third where
  dispatchers := List.Subset.trans h.dispatchers h'.dispatchers
  factories := List.Subset.trans h.factories h'.factories
  declarations := h'.declarations.trans h.declarations

/-- One dispatcher more lets the known names grow. -/
lemma addDispatcher (names : NameTable) (name : String) :
    names.Grows (names.addDispatcher name) := by
  unfold NameTable.addDispatcher
  split_ifs
  · exact .refl names
  · exact ⟨List.subset_cons_self _ _, List.Subset.refl _, rfl⟩

/-- One factory more lets the known names grow. -/
lemma addFactory (names : NameTable) (name : String) : names.Grows (names.addFactory name) := by
  unfold NameTable.addFactory
  split_ifs
  · exact .refl names
  · exact ⟨List.Subset.refl _, List.subset_cons_self _ _, rfl⟩

end NameTable.Grows

/-- From the one extraction to the other, only what a search can find was added. -/
structure Extraction.Searched (found next : Extraction) : Prop extends
    Extraction.Adds Item.IsDispatched found next where
  diagnostics : found.diagnostics <+: next.diagnostics
  names : found.names.Grows next.names
  forwarded : next.forwarded = found.forwarded
  settings : next.settings = found.settings

namespace Extraction.Searched

variable {first second third : Extraction}

/-- A search that does nothing finds nothing. -/
lemma refl (found : Extraction) : Searched found found :=
  ⟨.refl found, List.prefix_rfl, .refl found.names, rfl, rfl⟩

/-- Two searches one after the other are a search. -/
lemma trans (h : Searched first second) (h' : Searched second third) : Searched first third where
  toAdds := h.toAdds.trans h'.toAdds
  diagnostics := h.diagnostics.trans h'.diagnostics
  names := h.names.trans h'.names
  forwarded := h'.forwarded.trans h.forwarded
  settings := h'.settings.trans h.settings

/-- A diagnostic may be found. -/
lemma report (found : Extraction) (diagnostic : Diagnostic) :
    Searched found (found.report diagnostic) :=
  ⟨.of_eq rfl rfl, List.prefix_append _ _, .refl _, rfl, rfl⟩

/-- A dispatched event may be found. -/
lemma emit (found : Extraction) {item : Item} (h : item.IsDispatched) :
    Searched found (found.emit item) :=
  ⟨Adding.emit h found, List.prefix_rfl, .refl _, rfl, rfl⟩

/-- The known names may grow. -/
lemma withNames (found : Extraction) {names : NameTable} (h : found.names.Grows names) :
    Searched found { found with names } :=
  ⟨.of_eq rfl rfl, List.prefix_rfl, h, rfl, rfl⟩

end Extraction.Searched

namespace Script

open Extraction

/-- Of the frames, only the innermost may have changed. -/
structure OnlyInnermost (before after : List Frame) : Prop where
  empty : after = [] ↔ before = []
  outer : after.tail = before.tail

namespace OnlyInnermost

variable {first second third : List Frame}

/-- Frames that do not change differ in the innermost one at most. -/
lemma refl (frames : List Frame) : OnlyInnermost frames frames := ⟨Iff.rfl, rfl⟩

/-- Two changes to the innermost frame are a change to the innermost frame. -/
lemma trans (h : OnlyInnermost first second) (h' : OnlyInnermost second third) :
    OnlyInnermost first third :=
  ⟨h'.empty.trans h.empty, h'.outer.trans h.outer⟩

end OnlyInnermost

/-- What the search of an expression may do. -/
structure Search.FindsIn (before after : Search) : Prop where
  found : before.found.Searched after.found
  frames : after.frames = before.frames

/-- What the search of a statement may do. -/
structure Search.FindsBelow (before after : Search) : Prop where
  found : before.found.Searched after.found
  frames : OnlyInnermost before.frames after.frames

/-! ### Steps -/

/-- A binding can make a name known as that of a dispatcher, and forgets none. -/
lemma bindDispatcher_grows (names : NameTable) (pattern : Pattern) (init : Option Expr) :
    names.Grows (bindDispatcher names pattern init) := by
  unfold bindDispatcher
  split
  · split
    · split_ifs
      · exact .addDispatcher names _
      · exact .refl names
    · -- A name that a dispatcher is given can be the name of a factory as well.
      dsimp only
      split_ifs
      · exact .trans (.addDispatcher names _) (.addFactory _ _)
      · exact .addDispatcher names _
      · exact .addFactory names _
      · exact .refl names
    · exact .refl names
  · exact .refl names

namespace Search

/-- A declaration goes to the innermost frame. -/
lemma declare_below (search : Search) (name : String) (declaration : Declaration) :
    search.FindsBelow (search.declare name declaration) := by
  obtain ⟨found, frames⟩ := search
  cases frames with
  | nil => exact ⟨.refl found, .refl []⟩
  | cons frame frames => exact ⟨.refl found, ⟨by simp [declare], rfl⟩⟩

namespace FindsBelow

variable {first second third : Search}

/-- A search that does nothing leaves the frames as they are. -/
lemma refl (search : Search) : search.FindsBelow search := ⟨.refl _, .refl _⟩

/-- Two searches that change the innermost frame at most do so together. -/
lemma trans (h : first.FindsBelow second) (h' : second.FindsBelow third) :
    first.FindsBelow third :=
  ⟨h.found.trans h'.found, h.frames.trans h'.frames⟩

end FindsBelow

/-- Declarations without a value go to the innermost frame. -/
lemma declareUnknown_below (search : Search) (names : List String) :
    search.FindsBelow (search.declareUnknown names) := by
  unfold declareUnknown
  induction names generalizing search with
  | nil => exact .refl search
  | cons name rest ih =>
    have hname := search.declare_below name .unknown
    exact hname.trans (ih (search.declare name .unknown))

/-- A binding goes to the innermost frame. -/
lemma bind_below (search : Search) (pattern : Pattern) (init : Option Expr) :
    search.FindsBelow (search.bind pattern init) := by
  have hnames := bindDispatcher_grows search.found.names pattern init
  have hbound : search.FindsBelow { search with
      found := { search.found with names := bindDispatcher search.found.names pattern init } } :=
    ⟨.withNames search.found hnames, .refl _⟩
  unfold bind
  dsimp only
  split
  · exact hbound.trans (declare_below _ _ _)
  · exact hbound.trans (declareUnknown_below _ _)

/-- A dispatch adds an event or a diagnostic. -/
lemma dispatch_found (search : Search) (excerpt : Excerpt) (statement? : Option Nat) (span : Span)
    (arguments : List Expr) :
    search.found.Searched (search.dispatch excerpt statement? span arguments).found := by
  unfold dispatch
  dsimp only
  refine .trans ?_ (.emit _ rfl)
  -- An empty keyword and an unknown name are reported each.
  split <;> split
  · exact .report _ _
  · exact .refl _
  · exact (Searched.report _ _).trans (.report _ _)
  · exact .report _ _

/-- A call leaves the frames as they are. -/
lemma call_in (search : Search) (excerpt : Excerpt) (statement? : Option Nat) (span : Span)
    (callee : Expr) (arguments : List Expr) :
    search.FindsIn (search.call excerpt statement? span callee arguments) := by
  unfold call
  split_ifs
  · exact ⟨search.dispatch_found excerpt statement? span arguments, rfl⟩
  · exact ⟨.refl _, rfl⟩

/-- The way out of a function takes off the frame that the way in put on: what stands in between
changes no other frame, so behind the function the frames are those in front of it. -/
lemma leave_in {search inside : Search} {params : List String}
    (h : (search.enter params).FindsBelow inside) : search.FindsIn inside.leave := by
  have henter := declareUnknown_below { search with frames := [] :: search.frames } params
  have hframes : OnlyInnermost ([] :: search.frames) inside.frames := henter.frames.trans h.frames
  exact ⟨henter.found.trans h.found, hframes.outer⟩

end Search

/-- The steps of a search find events and nothing else. The second search plays no part. -/
lemma passage_finds (excerpt : Excerpt) :
    Passage excerpt excerpt (fun _ => True) (fun p q => p.1.FindsIn q.1)
      (fun p q => p.1.FindsBelow q.1) where
  refl := fun _ => ⟨.refl _, rfl⟩
  next := fun h h' => ⟨h.found.trans h'.found, h'.frames.trans h.frames⟩
  trans := fun h h' => h.trans h'
  ofExpr := by
    intro p q h
    refine ⟨h.found, ?_⟩
    rw [h.frames]
    exact .refl _
  call := fun _ s _ statement? => s.call_in excerpt statement? _ _ _
  bind := fun s _ pattern init => s.bind_below pattern init
  declare := fun s _ name declaration => s.declare_below name declaration
  function := fun _ h => Search.leave_in h

section Trees

variable (excerpt : Excerpt) (statement? : Option Nat) (search : Search)

/-- The search of an expression finds dispatched events only, and leaves the frames as they are. -/
lemma Expr.search_finds (e : Expr) : search.FindsIn (e.search excerpt statement? search) :=
  e.search_passes (passage_finds excerpt) statement? (fun _ _ => trivial) search search

/-- The search of a statement finds dispatched events only, and changes the innermost frame at most.
-/
lemma Stmt.search_finds (statement : Stmt) :
    search.FindsBelow (statement.search excerpt statement? search) :=
  statement.search_passes (passage_finds excerpt) statement? (fun _ _ => trivial) search search

/-- The search of a function finds dispatched events only, and leaves the frames as they are. -/
lemma Function.search_finds (definition : Function) :
    search.FindsIn (definition.search excerpt search) :=
  definition.search_passes (passage_finds excerpt) (fun _ _ => trivial) search search

end Trees

/-- Wherever a search stands, the search of an expression or of a statement appends dispatched
events and diagnostics to what has been found, forgets no dispatcher and no factory, and changes
nothing else of it. An expression leaves all frames as they are, a statement all but the innermost,
and where there is no frame there is none behind it. -/
theorem search_finds_only_events (excerpt : Excerpt) (statement? : Option Nat) (search : Search) :
    (∀ e : Expr,
      search.found.Searched (e.search excerpt statement? search).found ∧
      (e.search excerpt statement? search).frames = search.frames) ∧
    ∀ statement : Stmt,
      search.found.Searched (statement.search excerpt statement? search).found ∧
      OnlyInnermost search.frames (statement.search excerpt statement? search).frames := by
  constructor
  · intro e
    have h := e.search_finds excerpt statement? search
    exact ⟨h.found, h.frames⟩
  · intro statement
    have h := statement.search_finds excerpt statement? search
    exact ⟨h.found, h.frames⟩

end Script

end ComponentApi
