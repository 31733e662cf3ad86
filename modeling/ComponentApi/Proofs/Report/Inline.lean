import ComponentApi.Proofs.Report.Locations
import ComponentApi.Proofs.Report.Settings
import ComponentApi.Proofs.Script.Dispatches

/-!
# Expressions of the markup and where they start

An expression of the markup is read in parentheses, from a position one before its own. What a
search finds does not depend on what was found before (`Expr.searchTop_behind`), and it moves with
the expression, so the same events and diagnostics are found wherever the expression starts.

`readInline_places` says that they stand at the places of the calls in the expression, except that
an expression at the very start of the file is taken for one that starts a byte further on.
-/

namespace ComponentApi

namespace Extraction

/-- The findings behind those of another extraction. -/
def behind (found base : Extraction) : Extraction :=
  { found with
    items := base.items ++ found.items
    diagnostics := base.diagnostics ++ found.diagnostics }

/-- What is known, without what has been found. -/
def fresh (found : Extraction) : Extraction :=
  { found with items := [], diagnostics := [] }

/-- What was found is what was found behind nothing. -/
lemma fresh_behind (found : Extraction) : found.fresh.behind found = found := by
  simp [behind, fresh]

/-- An item is added behind what was found before. -/
lemma emit_behind (found base : Extraction) (item : Item) :
    (found.behind base).emit item = (found.emit item).behind base := by
  simp [behind, emit]

/-- A diagnostic is added behind what was found before. -/
lemma report_behind (found base : Extraction) (diagnostic : Diagnostic) :
    (found.behind base).report diagnostic = (found.report diagnostic).behind base := by
  simp [behind, report]

end Extraction

namespace Script

/-! ### What was found before -/

namespace Search

/-- The search behind what was found in another one. -/
def behind (search : Search) (base : Extraction) : Search :=
  { search with found := search.found.behind base }

variable (search : Search) (base : Extraction)

/-- A declaration does not touch what was found before. -/
lemma declare_behind (name : String) (declaration : Declaration) :
    (search.behind base).declare name declaration =
      (search.declare name declaration).behind base := by
  obtain ⟨found, frames⟩ := search
  cases frames <;> rfl

/-- Declarations without a value do not touch what was found before. -/
lemma declareUnknown_behind (names : List String) :
    (search.behind base).declareUnknown names = (search.declareUnknown names).behind base := by
  unfold declareUnknown
  induction names generalizing search with
  | nil => rfl
  | cons name rest ih => rw [List.foldl_cons, List.foldl_cons, declare_behind, ih]

/-- A binding does not touch what was found before. -/
lemma bind_behind (pattern : Pattern) (init : Option Expr) :
    (search.behind base).bind pattern init = (search.bind pattern init).behind base := by
  let bound : Search := { search with
    found := { search.found with names := bindDispatcher search.found.names pattern init } }
  cases pattern with
  | ident id =>
    cases init with
    | none => exact bound.declareUnknown_behind base _
    | some e => exact bound.declare_behind base id.name e.declaration
  | _ => exact bound.declareUnknown_behind base _

/-- A dispatched event is added behind what was found before. -/
lemma dispatch_behind (excerpt : Excerpt) (statement? : Option Nat) (span : Span)
    (arguments : List Expr) :
    (search.behind base).dispatch excerpt statement? span arguments =
      (search.dispatch excerpt statement? span arguments).behind base := by
  have hname : (search.behind base).eventName? = search.eventName? := rfl
  have hfound : (search.behind base).found = search.found.behind base := rfl
  unfold dispatch
  rw [hname, hfound]
  dsimp only
  split
  · split
    · rw [Extraction.report_behind, Extraction.emit_behind]
      rfl
    · rw [Extraction.emit_behind]
      rfl
  · split
    · rw [Extraction.report_behind, Extraction.report_behind, Extraction.emit_behind]
      rfl
    · rw [Extraction.report_behind, Extraction.emit_behind]
      rfl

end Search

/-- Searches that start behind different findings go side by side. -/
lemma simulation_behind (excerpt : Excerpt) (base : Extraction) :
    Simulation excerpt excerpt fun s t => t = s.behind base where
  call := by
    rintro s _ rfl statement? span callee arguments
    have hdispatch : (s.behind base).isDispatch callee = s.isDispatch callee := rfl
    unfold Search.call
    rw [hdispatch]
    split_ifs
    · exact s.dispatch_behind base excerpt statement? span arguments
    · rfl
  bind := by
    rintro s _ rfl pattern init
    exact s.bind_behind base pattern init
  declare := by
    rintro s _ rfl name declaration
    exact s.declare_behind base name declaration
  enter := by
    rintro s _ rfl params
    exact Search.declareUnknown_behind { s with frames := [] :: s.frames } base params
  leave := by
    rintro s _ rfl
    rfl

/-- What is found in an expression does not depend on what was found before. -/
lemma Expr.searchTop_behind (excerpt : Excerpt) (statement? : Option Nat) (e : Expr)
    (found base : Extraction) :
    e.searchTop excerpt statement? (found.behind base) =
      (e.searchTop excerpt statement? found).behind base :=
  congrArg Search.found
    (e.search_simulated (simulation_behind excerpt base) statement? (s := { found }) rfl)

/-! ### Where the expression starts -/

/-- An expression at the very start of the file counts as one that starts a byte further on. -/
lemma Excerpt.ofInline_eq (expression : List Char) (offset : Nat) :
    ofInline expression offset = (ofInline expression 0).shift (offset - 1) := by
  simp [ofInline, shift]

/-- The event of a call, and the diagnostics on it, are at the place in an expression that starts at
the offset. -/
def StandAt (place : Span) (offset : Nat) (event : Item) (diagnostics : List Diagnostic) : Prop :=
  event.locations = [place.shift offset] ∧
    ∀ diagnostic ∈ diagnostics, diagnostic.location = place.shift offset

/-- What is found at a call has the place of the call, unless the expression stands at the very
start of the file. -/
lemma Call.Dispatches.standAt_iff {expression : List Char} {offset : Nat} {call : Call}
    {event : Item} {diagnostics : List Diagnostic}
    (h : call.Dispatches (.ofInline expression offset) event diagnostics) {place : Span}
    (hplace : call.place = place.shift 1) :
    StandAt place offset event diagnostics ↔ 0 < offset := by
  obtain ⟨hevent, hdiagnostics⟩ := h.places
  have hlocation : (Excerpt.ofInline expression offset).location call.place =
      place.shift (1 + (offset - 1)) := by
    rw [hplace]
    exact place.shift_shift 1 (offset - 1)
  constructor
  · rintro ⟨hstand, _⟩
    rw [hevent, hlocation] at hstand
    have hstart := congrArg Span.start (List.head_eq_of_cons_eq hstand)
    simp only [Span.shift] at hstart
    omega
  · intro hoffset
    have hshift : 1 + (offset - 1) = offset := by omega
    rw [hshift] at hlocation
    rw [hlocation] at hevent hdiagnostics
    exact ⟨hevent, hdiagnostics⟩

/-- The event is that of one of the calls, and it is at the place of this call in an expression that
starts at the offset, unless this is the very start of the file. -/
def Expr.Dispatches (e : Expr) (expression : List Char) (offset : Nat) (event : Item)
    (diagnostics : List Diagnostic) : Prop :=
  ∃ call ∈ e.calls, call.Dispatches (.ofInline expression offset) event diagnostics ∧
    ∀ place, call.place = place.shift 1 → (StandAt place offset event diagnostics ↔ 0 < offset)

/-- The calls in an expression show the events that it dispatches. -/
lemma Expr.shows_dispatches (e : Expr) (expression : List Char) (offset : Nat) :
    ∀ call ∈ e.calls,
      call.Shows (.ofInline expression offset) (e.Dispatches expression offset) := by
  intro call hcall event diagnostics hevent
  exact ⟨call, hcall, hevent, fun _ hplace => hevent.standAt_iff hplace⟩

/-- A call that does not take in a parenthesis around the expression has a place in it, where the
same text stands. -/
lemma Call.Delimited.exists_place {call : Call} {expression : List Char}
    (h : call.Delimited ('(' :: (expression ++ [')']))) (hparens : ¬ call.TakesParens expression) :
    ∃ (place : Span) (part : List Char), call.place = place.shift 1 ∧ part ≠ [] ∧
      place.slice? expression = some part ∧
      call.place.slice? ('(' :: (expression ++ [')'])) = some part := by
  obtain ⟨part, hne, hpart⟩ := h.place_slice?
  obtain ⟨hstart, hstop⟩ := h.place_between hparens
  refine ⟨⟨call.place.start - 1, call.place.stop - 1⟩, part, ?_, hne,
    Text.slice?_between rfl hpart hstart hstop, hpart⟩
  obtain ⟨before, after, _, hbefore, hafter⟩ := Text.slice?_eq_some_iff.1 hpart
  have hpos : 0 < call.place.stop := by omega
  simp only [Span.shift, Nat.sub_add_cancel hstart, Nat.sub_add_cancel hpos]

end Script

namespace Extraction

open Script

variable {expression : List Char} {e : Expr}

/-- Findings that are moved twice. -/
lemma shift_shift (found : Extraction) (first second : Nat) :
    (found.shift first).shift second = found.shift (first + second) := by
  simp [shift, Item.shift, Diagnostic.shift, Span.shift_shift, Function.comp_def]

/-- An expression that can be read is searched. -/
lemma readInline_search (found : Extraction)
    (h : parseExpression? ('(' :: (expression ++ [')'])) = some e) (offset : Nat) :
    found.readInline expression offset =
      .ok (e.searchTop (.ofInline expression offset) none found) := by
  unfold readInline
  dsimp only [Excerpt.ofInline]
  rw [h]

/-- What is found in an expression moves with it. -/
lemma readInline_eq (found : Extraction)
    (h : parseExpression? ('(' :: (expression ++ [')'])) = some e) (offset : Nat) :
    found.readInline expression offset =
      .ok (((e.searchTop (.ofInline expression 0) none found.fresh).shift (offset - 1)).behind
        found) := by
  have hfresh : Parallel (offset - 1) found.settings found.settings found.fresh found.fresh :=
    ⟨.refl _, rfl, rfl⟩
  have hmoved := e.searchTop_parallel hfresh (.ofInline expression 0) none
  have hsettings : ∀ other : Extraction, other.settings = found.settings →
      (other.shift (offset - 1)).withSettings found.settings = other.shift (offset - 1) := by
    rintro other hother
    rw [← hother]
    rfl
  rw [found.readInline_search h, Excerpt.ofInline_eq]
  conv_lhs => rw [← found.fresh_behind]
  rw [Expr.searchTop_behind, hmoved.eq, hsettings _ hmoved.settings]

/-- From an expression that is not at the very start of the file, all others are reached by moving
what is found in it. -/
lemma readInline_add (found : Extraction)
    (h : parseExpression? ('(' :: (expression ++ [')'])) = some e) {offset : Nat}
    (hoffset : 0 < offset) (more : Nat) {items : List Item} {diagnostics : List Diagnostic}
    {next : Extraction} (hread : found.readInline expression offset = .ok next)
    (hitems : next.items = found.items ++ items)
    (hdiagnostics : next.diagnostics = found.diagnostics ++ diagnostics) :
    ∃ moved, found.readInline expression (offset + more) = .ok moved ∧
      moved.items = found.items ++ items.map (·.shift more) ∧
      moved.diagnostics = found.diagnostics ++ diagnostics.map (·.shift more) := by
  rw [found.readInline_eq h] at hread
  cases hread
  have hmore : offset + more - 1 = offset - 1 + more := by omega
  rw [found.readInline_eq h, hmore, ← shift_shift, ← List.append_cancel_left hitems,
    ← List.append_cancel_left hdiagnostics]
  exact ⟨_, rfl, rfl, rfl⟩

/-- A call of a registered dispatcher gives an event. -/
lemma readInline_gives (found : Extraction)
    (h : parseExpression? ('(' :: (expression ++ [')'])) = some e) (offset : Nat) {call : Call}
    (hcall : call ∈ e.calls) {name : String} (hname : call.name? = some name)
    (hregistered : name ∈ found.names.dispatchers) {items : List Item} {next : Extraction}
    (hread : found.readInline expression offset = .ok next)
    (hitems : next.items = found.items ++ items) :
    ∃ event ∈ items, call.Gives (.ofInline expression offset) event := by
  rw [found.readInline_search h] at hread
  cases hread
  have hmet : (Node.expr e).Has Node.searched call := Node.has_of_mem_calls hcall
  have hfound := hmet.foundBetween hname (.ofInline expression offset) none { found } hregistered
  exact hfound.mem hitems

/-- The events of an expression of the markup, and the diagnostics on them, are those of its calls.
They are at the places that the calls have in the expression exactly if the expression does not
start at the very start of the file; there they are where they would be if it started a byte further
on. All other starts differ by the places being moved. A call that does not take in a parenthesis
around the expression has a place in it, and a call of a registered dispatcher gives an event. -/
theorem readInline_places (found : Extraction)
    (h : parseExpression? ('(' :: (expression ++ [')'])) = some e) :
    (∀ offset, ∃ next items diagnostics, found.readInline expression offset = .ok next ∧
      next.items = found.items ++ items ∧ next.diagnostics = found.diagnostics ++ diagnostics ∧
      Entries (e.Dispatches expression offset) items diagnostics ∧
      (∀ call ∈ e.calls, ∀ name, call.name? = some name → name ∈ found.names.dispatchers →
        ∃ event ∈ items, call.Gives (.ofInline expression offset) event) ∧
      (0 < offset → ∀ more, ∃ moved, found.readInline expression (offset + more) = .ok moved ∧
        moved.items = found.items ++ items.map (·.shift more) ∧
        moved.diagnostics = found.diagnostics ++ diagnostics.map (·.shift more))) ∧
    found.readInline expression 0 = found.readInline expression 1 ∧
    ∀ call ∈ e.calls, call.Delimited ('(' :: (expression ++ [')'])) →
      ¬ call.TakesParens expression →
      ∃ (place : Span) (part : List Char), call.place = place.shift 1 ∧ part ≠ [] ∧
        place.slice? expression = some part ∧
        call.place.slice? ('(' :: (expression ++ [')'])) = some part := by
  refine ⟨fun offset => ?_, ?_, fun call _ hdelimited => hdelimited.exists_place⟩
  · have hread := found.readInline_search h offset
    obtain ⟨items, diagnostics, hitems, hdiagnostics, hentries⟩ :=
      e.searchTop_extends none (e.shows_dispatches expression offset) found
    refine ⟨_, items, diagnostics, hread, hitems, hdiagnostics, hentries, ?_, ?_⟩
    · intro call hcall name hname hregistered
      exact found.readInline_gives h offset hcall hname hregistered hread hitems
    · intro hoffset more
      exact found.readInline_add h hoffset more hread hitems hdiagnostics
  · rw [found.readInline_eq h, found.readInline_eq h]

/-- The calls in an expression, by their places in parentheses and the names that they call. -/
lemma exists_parse (text : String) (calls : List (Span × Option String))
    (h : (parseExpression? ('(' :: (text.toList ++ [')']))).map
      (fun e => e.calls.map fun call => (call.place, call.name?)) = some calls) :
    ∃ e, parseExpression? ('(' :: (text.toList ++ [')'])) = some e ∧
      e.calls.map (fun call => (call.place, call.name?)) = calls :=
  Option.map_eq_some_iff.1 h

/-- A call in a function in an object gives its event at its argument. -/
theorem readInline_places_object : ∃ e next,
    parseExpression? ('(' :: ("\x7b go: () => d('e') \x7d".toList ++ [')'])) = some e ∧
      registered.readInline "\x7b go: () => d('e') \x7d".toList 10 = .ok next ∧
      ∃ event ∈ next.items, event.IsDispatched ∧ event.locations = [⟨24, 27⟩] := by
  obtain ⟨e, hparse, hcalls⟩ := exists_parse "\x7b go: () => d('e') \x7d"
    [(⟨15, 18⟩, some "d")] (by decide +kernel)
  obtain ⟨hread, _⟩ := readInline_places registered hparse
  obtain ⟨next, items, _, hnext, hitems, _, _, hgives, _⟩ := hread 10
  obtain ⟨call, hcall, hplace⟩ :
      ∃ call ∈ e.calls, (call.place, call.name?) = (⟨15, 18⟩, some "d") :=
    List.mem_map.1 (hcalls ▸ List.mem_singleton_self _)
  obtain ⟨hplace, hname⟩ := Prod.mk.inj hplace
  obtain ⟨event, hevent, hdispatched, hlocations⟩ :=
    hgives call hcall "d" hname (List.mem_singleton_self _)
  refine ⟨e, next, hparse, hnext, event, ?_, hdispatched, ?_⟩
  · rw [hitems]
    exact List.mem_append_right _ hevent
  · rw [hlocations, hplace]
    rfl

/-- At the very start of the file, the event of a call is a byte behind its argument. -/
theorem not_standAt_start :
    ¬ ∀ (found next : Extraction) (expression : List Char) (e : Expr) (offset : Nat),
      parseExpression? ('(' :: (expression ++ [')'])) = some e →
      found.readInline expression offset = .ok next →
      Extends (fun event own => ∃ call ∈ e.calls, ∃ place, call.place = place.shift 1 ∧
        StandAt place offset event own) found next := by
  intro h
  obtain ⟨e, hparse, hcalls⟩ := exists_parse "d('e')" [(⟨3, 6⟩, some "d")] (by decide +kernel)
  have hshown : (registered.readInline "d('e')".toList 0).toOption.map
      (fun next => next.items.map (·.locations)) = some [[⟨3, 6⟩]] := by decide +kernel
  have hread := registered.readInline_search hparse 0
  rw [hread] at hshown
  obtain ⟨event, hevent, hlocations⟩ := List.map_eq_singleton_iff.1 (Option.some.inj hshown)
  obtain ⟨items, _, hitems, _, hentries⟩ := h registered _ _ e 0 hparse hread
  obtain rfl : items = [event] := hitems.symm.trans hevent
  obtain ⟨own, call, hcall, place, hplace, hstand, _⟩ :=
    hentries.of_mem (List.mem_singleton_self event)
  -- The only call is at 3 in the parentheses, hence at 2 in the expression.
  have hmem := List.mem_map_of_mem (f := fun call : Call => (call.place, call.name?)) hcall
  rw [hcalls] at hmem
  have hcallPlace := (Prod.mk.inj (List.mem_singleton.1 hmem)).1
  have hstart := congrArg Span.start (hplace.symm.trans hcallPlace)
  have hstart' := congrArg Span.start (List.head_eq_of_cons_eq (hstand.symm.trans hlocations))
  simp only [Span.shift] at hstart hstart'
  omega

end Extraction

end ComponentApi
