import ComponentApi.Proofs.Script.Outline
import ComponentApi.Script.Reading

/-!
# The places of what a script shows

What is found is appended to what was found before, in two lists. `Entries` says how the two belong
together: every item comes with the diagnostics on it, most items with none. `Extends` says this of
what one extraction has and an earlier one has not.

What a script shows comes down to two kinds of nodes: the names that a statement documents, and the
calls in it (`extractStatements_extends`). An item that shows a name has the place of that name, and
the event of a call the place of the first argument or of the call, and so have all diagnostics on
the call.
-/

namespace ComponentApi

namespace Extraction

/-- The items have the property, each together with the diagnostics on it. -/
inductive Entries (P : Item → List Diagnostic → Prop) : List Item → List Diagnostic → Prop
  | nil : Entries P [] []
  | cons {item : Item} {items : List Item} {own others : List Diagnostic} (h : P item own)
      (rest : Entries P items others) : Entries P (item :: items) (own ++ others)

/-- What the second extraction has and the first has not are items with the property, together with
the diagnostics on them. -/
def Extends (P : Item → List Diagnostic → Prop) (found next : Extraction) : Prop :=
  ∃ items diagnostics, next.items = found.items ++ items ∧
    next.diagnostics = found.diagnostics ++ diagnostics ∧ Entries P items diagnostics

section Entries

variable {P Q : Item → List Diagnostic → Prop}

/-- Items that have one property with their diagnostics have a weaker one with them. -/
lemma Entries.mono {items : List Item} {diagnostics : List Diagnostic}
    (h : Entries P items diagnostics) (hPQ : ∀ item own, P item own → Q item own) :
    Entries Q items diagnostics := by
  induction h with
  | nil => exact .nil
  | cons hitem _ ih => exact .cons (hPQ _ _ hitem) ih

/-- Each of the items has the property with some of the diagnostics. -/
lemma Entries.of_mem {items : List Item} {diagnostics : List Diagnostic} {item : Item}
    (h : Entries P items diagnostics) (hitem : item ∈ items) : ∃ own, P item own := by
  induction h with
  | nil => cases hitem
  | cons hfirst _ ih =>
    rcases List.mem_cons.1 hitem with rfl | hitem
    · exact ⟨_, hfirst⟩
    · exact ih hitem

/-- Items with their diagnostics can stand one after the other. -/
lemma Entries.append {items more : List Item} {diagnostics others : List Diagnostic}
    (h : Entries P items diagnostics) (h' : Entries P more others) :
    Entries P (items ++ more) (diagnostics ++ others) := by
  induction h with
  | nil => exact h'
  | cons hitem _ ih =>
    rw [List.append_assoc]
    exact .cons hitem ih

namespace Extends

variable {first second third : Extraction}

/-- Where items and diagnostics are the same, nothing is new. -/
lemma of_eq (hitems : second.items = first.items)
    (hdiagnostics : second.diagnostics = first.diagnostics) : Extends P first second :=
  ⟨[], [], by simp [hitems], by simp [hdiagnostics], .nil⟩

/-- An extraction has nothing that it has not. -/
lemma refl (found : Extraction) : Extends P found found := .of_eq rfl rfl

/-- What is new in two parts is new in one. -/
lemma trans (h : Extends P first second) (h' : Extends P second third) :
    Extends P first third := by
  obtain ⟨items, diagnostics, hitems, hdiagnostics, hentries⟩ := h
  obtain ⟨more, others, hmore, hothers, hentries'⟩ := h'
  refine ⟨items ++ more, diagnostics ++ others, ?_, ?_, hentries.append hentries'⟩
  · rw [hmore, hitems, List.append_assoc]
  · rw [hothers, hdiagnostics, List.append_assoc]

/-- New items that have one property with their diagnostics have a weaker one with them. -/
lemma mono (h : Extends P first second) (hPQ : ∀ item own, P item own → Q item own) :
    Extends Q first second := by
  obtain ⟨items, diagnostics, hitems, hdiagnostics, hentries⟩ := h
  exact ⟨items, diagnostics, hitems, hdiagnostics, hentries.mono hPQ⟩

/-- Where nothing was found before, all entries are new. -/
lemma entries {settings : Settings} (h : Extends P { settings } second) :
    Entries P second.items second.diagnostics := by
  obtain ⟨items, diagnostics, hitems, hdiagnostics, hentries⟩ := h
  rw [hitems, hdiagnostics]
  exact hentries

/-- An item with the property may be new. -/
lemma emit {item : Item} (h : P item []) (found : Extraction) :
    Extends P found (found.emit item) :=
  ⟨[item], [], rfl, (List.append_nil _).symm, .cons h .nil⟩

/-- What is known of names does not count. -/
lemma withNames (found : Extraction) (names : NameTable) :
    Extends P found { found with names } := .of_eq rfl rfl

/-- Going through a list. -/
lemma foldl {α : Type} {step : Extraction → α → Extraction} {list : List α}
    (h : ∀ x ∈ list, ∀ found, Extends P found (step found x)) (found : Extraction) :
    Extends P found (list.foldl step found) := by
  induction list generalizing found with
  | nil => exact .refl found
  | cons x rest ih =>
    obtain ⟨hx, hrest⟩ := List.forall_mem_cons.1 h
    exact (hx found).trans (ih hrest (step found x))

end Extends

end Entries

end Extraction

namespace Script

open Extraction

/-! ### Calls -/

/-- The place of a call that dispatches an event: that of its first argument, if it has one that is
no spread, and else that of the whole call. -/
def Call.place (call : Call) : Span :=
  ((firstArgument? call.arguments).map Expr.span).getD call.span

/-- A search for which the call dispatches an event finds this event at the call, and these
diagnostics. -/
def Call.Dispatches (excerpt : Excerpt) (call : Call) (event : Item)
    (diagnostics : List Diagnostic) : Prop :=
  ∃ (search : Search) (statement? : Option Nat), search.isDispatch call.callee = true ∧
    (search.call excerpt statement? call.span call.callee call.arguments).found =
      { search.found with
        items := search.found.items ++ [event]
        diagnostics := search.found.diagnostics ++ diagnostics }

/-- All that can be found at the call has the property. -/
def Call.Shows (excerpt : Excerpt) (P : Item → List Diagnostic → Prop) (call : Call) : Prop :=
  ∀ event diagnostics, call.Dispatches excerpt event diagnostics → P event diagnostics

section Searches

variable {excerpt : Excerpt} {P : Item → List Diagnostic → Prop}

/-- An event is found, and diagnostics with the place of the event. -/
lemma Search.dispatch_eq (search : Search) (excerpt : Excerpt) (statement? : Option Nat)
    (call : Call) :
    ∃ (name : String) (doc : DocComment) (issues : List Issue),
      (search.dispatch excerpt statement? call.span call.arguments).found =
        Extraction.emit
          { search.found with
            diagnostics := search.found.diagnostics ++
              issues.map (⟨·, excerpt.location call.place⟩) }
          (.documented name (.event {}) doc (excerpt.location call.place)) := by
  have htwice : ∀ (found : Extraction) (issue next : Issue) (location : Span),
      (found.report ⟨issue, location⟩).report ⟨next, location⟩ =
        { found with
          diagnostics := found.diagnostics ++ [issue, next].map (⟨·, location⟩) } := by
    simp [Extraction.report]
  unfold Search.dispatch
  dsimp only
  split
  · split
    · exact ⟨_, _, [.emptyEventKeyword], rfl⟩
    · refine ⟨_, _, [], congrArg (Extraction.emit · _) ?_⟩
      rw [List.map_nil, List.append_nil]
  · split
    · exact ⟨_, _, [_, _], congrArg (Extraction.emit · _) (htwice ..)⟩
    · exact ⟨_, _, [.unresolvedEventName _], rfl⟩

/-- All that is found at a call has the place of the call. -/
lemma Call.Dispatches.places {call : Call} {event : Item} {diagnostics : List Diagnostic}
    (h : call.Dispatches excerpt event diagnostics) :
    event.locations = [excerpt.location call.place] ∧
      ∀ diagnostic ∈ diagnostics, diagnostic.location = excerpt.location call.place := by
  obtain ⟨search, statement?, hdispatch, hcall⟩ := h
  obtain ⟨name, doc, issues, hfound⟩ := search.dispatch_eq excerpt statement? call
  rw [Search.call, if_pos hdispatch, hfound] at hcall
  have hevent := List.append_cancel_left (congrArg Extraction.items hcall)
  have hdiagnostics := List.append_cancel_left (congrArg Extraction.diagnostics hcall)
  rw [← List.head_eq_of_cons_eq hevent, ← hdiagnostics]
  refine ⟨rfl, ?_⟩
  simp

/-- What is new behind a call is what can be found at it. -/
lemma Search.call_extends (search : Search) (statement? : Option Nat) (call : Call)
    (h : call.Shows excerpt P) :
    Extends P search.found
      (search.call excerpt statement? call.span call.callee call.arguments).found := by
  cases hdispatch : search.isDispatch call.callee with
  | false =>
    rw [Search.call, hdispatch]
    exact .refl _
  | true =>
    obtain ⟨name, doc, issues, hfound⟩ := search.dispatch_eq excerpt statement? call
    have hcall : (search.call excerpt statement? call.span call.callee call.arguments).found = _ :=
      (congrArg Search.found (if_pos hdispatch)).trans hfound
    have hentry := h _ _ ⟨search, statement?, hdispatch, hcall⟩
    rw [hcall]
    exact ⟨_, _, rfl, rfl, List.append_nil (issues.map _) ▸ .cons hentry .nil⟩

/-- A declaration in a function finds nothing. -/
lemma Search.declare_found (search : Search) (name : String) (declaration : Declaration) :
    (search.declare name declaration).found = search.found := by
  obtain ⟨found, frames⟩ := search
  cases frames <;> rfl

/-- Declarations without a value find nothing. -/
lemma Search.declareUnknown_found (search : Search) (names : List String) :
    (search.declareUnknown names).found = search.found := by
  unfold Search.declareUnknown
  induction names generalizing search with
  | nil => rfl
  | cons name rest ih => rw [List.foldl_cons, ih, declare_found]

/-- A binding adds no items. -/
lemma Search.bind_extends (search : Search) (pattern : Pattern) (init : Option Expr) :
    Extends P search.found (search.bind pattern init).found := by
  unfold Search.bind
  dsimp only
  split
  · rw [declare_found]
    exact .of_eq rfl rfl
  · rw [declareUnknown_found]
    exact .of_eq rfl rfl

/-- The steps of a search find events of calls. The second search plays no part. -/
lemma passage_extends (excerpt : Excerpt) (P : Item → List Diagnostic → Prop) :
    Passage excerpt excerpt (Call.Shows excerpt P)
      (fun p q => Extends P p.1.found q.1.found)
      (fun p q => Extends P p.1.found q.1.found) where
  refl := fun _ => .refl _
  next := .trans
  trans := .trans
  ofExpr := fun h => h
  call := by
    intro call hcall s _ statement?
    exact s.call_extends statement? call hcall
  bind := fun s _ pattern init => s.bind_extends pattern init
  declare := by
    intro s _ name declaration
    dsimp only
    rw [Search.declare_found]
    exact .refl _
  function := by
    intro s _ s' _ params h
    dsimp only [Search.enter] at h
    rwa [Search.declareUnknown_found] at h

/-- What is new behind an expression is what can be found at its calls. -/
lemma Expr.searchTop_extends (statement? : Option Nat) (e : Expr)
    (h : ∀ call ∈ e.calls, call.Shows excerpt P) (found : Extraction) :
    Extends P found (e.searchTop excerpt statement? found) :=
  e.search_passes (passage_extends excerpt P) statement? h { found } { found }

/-- What is new behind a statement is what can be found at its calls. -/
lemma Stmt.searchTop_extends (statement : Stmt)
    (h : ∀ call ∈ statement.calls, call.Shows excerpt P) (found : Extraction) :
    Extends P found (statement.searchTop excerpt found) :=
  statement.search_passes (passage_extends excerpt P) _ h { found } { found }

/-- What is new behind a function is what can be found at its calls. -/
lemma Function.search_extends (definition : Function)
    (h : ∀ call ∈ definition.calls, call.Shows excerpt P)
    (found : Extraction) :
    Extends P found (definition.search excerpt { found }).found :=
  definition.search_passes (passage_extends excerpt P) h { found } { found }

end Searches

/-! ### Statements -/

/-- The names that a statement exports in braces, or assigns if it is reactive. -/
def Stmt.exposed : Stmt → List Ident
  | .exportNames _ typeOnly specifiers _ =>
    if typeOnly then [] else (specifiers.filter (!·.typeOnly)).map (·.exported)
  | .labeled _ label body =>
    if label.name == "$" then ((assignment? body).map Prod.fst).toList else []
  | _ => []

/-- The names that a statement documents. -/
def Stmt.documented (statement : Stmt) : List Ident :=
  statement.bound.map (·.id) ++ statement.exposed

/-- The item is that of a name in a script. -/
structure ShowsName (excerpt : Excerpt) (id : Ident) (item : Item) : Prop where
  name : item.name = id.name
  category : item.category ∈ [.computed, .data, .methods, .components]
  locations : item.locations = [excerpt.location id.span]

/-- A name that is declared is that of a variable or of a method. -/
lemma category_of_mem_declares {statement : Stmt} {bound : Bound} (h : bound ∈ statement.declares) :
    bound.category ∈ [Category.data, .methods] := by
  cases statement with
  | «variable» span kind declarators =>
    obtain ⟨⟨_, pattern, init⟩, _, hbound⟩ := List.mem_flatMap.1 h
    rw [Declarator.bound_mk] at hbound
    obtain ⟨id, _, rfl⟩ := List.mem_map.1 hbound
    simp
  | function span definition =>
    obtain ⟨id?, params, body⟩ := definition
    obtain ⟨id, _, rfl⟩ := List.mem_map.1 h
    simp
  | _ => cases h

/-- A name that is bound is that of a variable, a method or a component. -/
lemma category_of_mem_bound {statement : Stmt} {bound : Bound} (h : bound ∈ statement.bound) :
    bound.category ∈ [Category.data, .methods, .components] := by
  have hdeclares : ∀ {statement : Stmt}, bound ∈ statement.declares →
      bound.category ∈ [Category.data, .methods, .components] := by
    intro statement h
    exact List.mem_append_left [Category.components] (category_of_mem_declares h)
  unfold Stmt.bound at h
  split at h
  · split_ifs at h
    · cases h
    · exact hdeclares h
  · split_ifs at h
    · cases h
    · obtain ⟨specifier, _, rfl⟩ := List.mem_map.1 h
      unfold ImportSpecifier.bound
      dsimp only
      split_ifs <;> simp
  · exact hdeclares h

/-- The item of a bound name shows that name. -/
lemma Announces.showsName {excerpt : Excerpt} {statement : Stmt} {bound : Bound} {item : Item}
    (h : Announces excerpt bound item) (hbound : bound ∈ statement.bound) :
    ShowsName excerpt bound.id item := by
  refine ⟨h.name, ?_, h.locations⟩
  rw [h.category]
  exact List.mem_cons_of_mem _ (category_of_mem_bound hbound)

/-- The item of an exposed name shows that name. -/
lemma Stmt.Exposes.showsName {excerpt : Excerpt} {statement : Stmt} {item : Item}
    (h : statement.Exposes excerpt item) :
    ∃ id ∈ statement.exposed, ShowsName excerpt id item := by
  cases h with
  | @exported span source? specifiers specifier hmem htype =>
    refine ⟨specifier.exported, ?_, rfl, ?_, rfl⟩
    · exact List.mem_map_of_mem (List.mem_filter.2 ⟨hmem, by simp [htype]⟩)
    · simp [exportItem, Item.category, Item.documented, Detail.category]
  | @assigned span label body id value _ hlabel hassign hname hcategory hlocations =>
    refine ⟨id, ?_, hname, ?_, hlocations⟩
    · simp [Stmt.exposed, hlabel, hassign]
    · simp [hcategory]

section Statements

variable {excerpt : Excerpt} {P : Item → List Diagnostic → Prop}

/-- Reading a script adds entries with the property, if the items of all names that are bound have
it. -/
lemma outline_extends (excerpt : Excerpt) (P : Item → List Diagnostic → Prop) :
    Outline excerpt (Call.Shows excerpt P) (P · []) fun names found next =>
      (∀ bound ∈ names, ∀ item, Announces excerpt bound item → P item []) →
        Extends P found next where
  refl := fun found _ => .refl found
  trans := by
    intro names more first second third h h' hnames
    obtain ⟨hfirst, hsecond⟩ := List.forall_mem_append.1 hnames
    exact (h hfirst).trans (h' hsecond)
  announce := by
    intro bound item hitem found hnames
    exact .trans (.emit (hnames bound (List.mem_singleton_self bound) item hitem.announces) found)
      (.withNames _ _)
  expose := fun h found _ => .emit h found
  know := fun found names _ _ => .withNames found names
  expr := fun {e} h statement? found _ => e.searchTop_extends statement? h found
  stmt := fun {statement} h found _ => statement.searchTop_extends h found
  function := fun {definition} h found _ => definition.search_extends h found

/-- A script shows names that its statements document, and dispatches in the calls that they
make. -/
lemma extractStatements_extends (statements : List Stmt)
    (hnames : ∀ statement ∈ statements, ∀ id ∈ statement.documented,
      ∀ item, ShowsName excerpt id item → P item [])
    (hcalls : ∀ statement ∈ statements, ∀ call ∈ statement.sites, call.Shows excerpt P)
    (found : Extraction) :
    Extends P found (extractStatements excerpt statements found) := by
  refine (outline_extends excerpt P).statements hcalls ?_ found ?_
  · intro statement hmem item hitem
    obtain ⟨id, hid, hshows⟩ := hitem.showsName
    exact hnames statement hmem id (List.mem_append_right _ hid) item hshows
  · intro bound hbound item hitem
    obtain ⟨statement, hmem, hbound⟩ := List.mem_flatMap.1 hbound
    exact hnames statement hmem bound.id (List.mem_append_left _ (List.mem_map_of_mem hbound)) item
      (hitem.showsName hbound)

end Statements

end Script

namespace Extraction

open Script

variable {P : Item → List Diagnostic → Prop} {found next : Extraction}

/-- What is new behind a script are the items of its names, and what can be found at its calls. -/
lemma readScript_extends {block : ScriptBlock}
    (hnames : ∀ statements, parseModule? block.isTypeScript block.content.toList = some statements →
      ∀ statement ∈ statements, ∀ id ∈ statement.documented,
        ∀ item, ShowsName (.ofBlock block) id item → P item [])
    (hcalls : ∀ statements, parseModule? block.isTypeScript block.content.toList = some statements →
      ∀ statement ∈ statements, ∀ call ∈ statement.sites, call.Shows (.ofBlock block) P)
    (h : found.readScript block = .ok next) : Extends P found next := by
  unfold readScript at h
  split at h
  · next statements hparse =>
    cases h
    exact extractStatements_extends statements (hnames statements hparse)
      (hcalls statements hparse) found
  · cases h

/-- What is new behind an expression of the markup is what can be found at its calls. -/
lemma readInline_extends {expression : List Char} {offset : Nat}
    (hcalls : ∀ e, parseExpression? (Excerpt.ofInline expression offset).text = some e →
      ∀ call ∈ e.calls, call.Shows (.ofInline expression offset) P)
    (h : found.readInline expression offset = .ok next) : Extends P found next := by
  unfold readInline at h
  dsimp only at h
  split at h
  · next e hparse =>
    cases h
    exact e.searchTop_extends none (hcalls e hparse) found
  · cases h

end Extraction

end ComponentApi
