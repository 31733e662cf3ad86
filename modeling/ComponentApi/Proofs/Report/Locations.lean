import ComponentApi.Component
import ComponentApi.Proofs.Markup.Sites

/-!
# The places in a report

Every item has a place in the file of the component, and so has every diagnostic. The main statement
is that the text at the place of an item is what the item is about: a name in a script, the name of
an attribute, the tag of a slot, or the first argument of a call. All diagnostics on a call have the
place of its event.

A handler in the markup is read in parentheses, which are no part of the file. A handler that closes
and opens parentheses of its own can make a call that takes them in, and if such a call has no
argument, its event has the place of more than the handler (`Source.Overreaches`).

What is known of trees is that the spans of their nodes are those of their texts
(`Source.Delimited`).
-/

namespace ComponentApi

open Text Script Markup Extraction

/-! ### Spans of calls -/

/-- The spans of a call and of its first argument are those of parts of the text, and the argument
stands inside of the call. -/
structure Script.Call.Delimited (text : List Char) (call : Call) : Prop where
  covers : call.span.slice text ≠ []
  argument : ∀ first, firstArgument? call.arguments = some first →
    first.span.slice text ≠ [] ∧ call.span.start < first.span.start ∧
      first.span.stop < call.span.stop

namespace Script.Call

variable {call : Call} {text : List Char}

instance (text : List Char) (call : Call) : Decidable (call.Delimited text) :=
  decidable_of_iff
    (call.span.slice text ≠ [] ∧ ∀ first ∈ firstArgument? call.arguments,
      first.span.slice text ≠ [] ∧ call.span.start < first.span.start ∧
        first.span.stop < call.span.stop)
    ⟨fun h => ⟨h.1, h.2⟩, fun h => ⟨h.covers, h.argument⟩⟩

/-- The place of a call covers a part of the text. -/
lemma Delimited.place_slice? (h : call.Delimited text) :
    ∃ part, part ≠ [] ∧ call.place.slice? text = some part := by
  unfold Call.place
  cases hfirst : firstArgument? call.arguments with
  | none => exact ⟨_, h.covers, slice?_of_slice_ne_nil h.covers⟩
  | some first =>
    obtain ⟨hslice, _, _⟩ := h.argument first hfirst
    exact ⟨_, hslice, slice?_of_slice_ne_nil hslice⟩

/-- The call takes in one of the parentheses around the expression: it has no argument that has a
place of its own, and it starts before the expression or stops behind it. -/
def TakesParens (call : Call) (expression : List Char) : Prop :=
  firstArgument? call.arguments = none ∧
    (call.span.start = 0 ∨ byteLength expression + 1 < call.span.stop)

instance (call : Call) (expression : List Char) : Decidable (call.TakesParens expression) :=
  inferInstanceAs (Decidable (_ ∧ _))

/-- Unless it takes in a parenthesis, the place of a call in an expression in parentheses lies
between them. -/
lemma Delimited.place_between {expression : List Char}
    (h : call.Delimited ('(' :: (expression ++ [')']))) (hparens : ¬ call.TakesParens expression) :
    0 < call.place.start ∧ call.place.stop ≤ byteLength expression + 1 := by
  have hparen : '('.utf8Size = 1 ∧ ')'.utf8Size = 1 := ⟨rfl, rfl⟩
  obtain ⟨before, after, htext, hstart, hstop⟩ :=
    slice?_eq_some_iff.1 (slice?_of_slice_ne_nil h.covers)
  have hlength := congrArg byteLength htext
  simp only [byteLength_append, byteLength_cons, byteLength_nil] at hlength
  unfold Call.place
  cases hfirst : firstArgument? call.arguments with
  | none =>
    have hinside : ¬ (call.span.start = 0 ∨ byteLength expression + 1 < call.span.stop) :=
      fun hout => hparens ⟨hfirst, hout⟩
    simp only [Option.map_none, Option.getD_none]
    omega
  | some first =>
    obtain ⟨_, hbehind, hbefore⟩ := h.argument first hfirst
    simp only [Option.map_some, Option.getD_some]
    omega

end Script.Call

/-! ### Places -/

/-- The item has one place, all diagnostics have the same one, and it is that of the part of the
text. -/
def Placed (text : List Char) (offset : Nat) (part : List Char) (item : Item)
    (diagnostics : List Diagnostic) : Prop :=
  ∃ location, item.locations = [location] ∧
    (∀ diagnostic ∈ diagnostics, diagnostic.location = location) ∧
    Locates text offset location part

/-- What a span covers is at the place that the text gives to the span. -/
lemma Placed.of_slice? {text part : List Char} {offset : Nat} {span : Span} {item : Item}
    {diagnostics : List Diagnostic} (h : span.slice? text = some part) (hpart : part ≠ [])
    (hitem : item.locations = [span.shift offset])
    (hdiagnostics : ∀ diagnostic ∈ diagnostics, diagnostic.location = span.shift offset) :
    Placed text offset part item diagnostics :=
  ⟨_, hitem, hdiagnostics, .of_slice? h hpart offset⟩

/-- An item without diagnostics. -/
lemma Placed.alone {text part : List Char} {offset : Nat} {span : Span} {item : Item}
    (h : span.slice? text = some part) (hpart : part ≠ [])
    (hitem : item.locations = [span.shift offset]) : Placed text offset part item [] :=
  .of_slice? h hpart hitem (List.forall_mem_nil _)

namespace Source

/-- The template and where it starts. -/
def markup (source : Source) : Template :=
  ⟨source.template.toList, source.templateOffset⟩

/-- The statements at the top level of the scripts, each with its block. -/
def statements (source : Source) : List (ScriptBlock × Stmt) :=
  source.scripts.flatMap fun block =>
    ((parseModule? block.isTypeScript block.content.toList).getD []).map (block, ·)

/-- The call stands in a handler of the source, whose expression starts at the position in the
template. -/
def HasHandlerCall (source : Source) (expression : List Char) (start : Nat) (call : Call) : Prop :=
  ∃ tag : TagGroup, tag.events <:+: events source.template.toList ∧
    HasHandler source.markup tag expression start ∧
    ∃ e, parseExpression? ('(' :: (expression ++ [')'])) = some e ∧ call ∈ e.calls

/-- The spans of names and calls are those of their texts, in the text that was parsed. -/
structure Delimited (source : Source) : Prop where
  names : ∀ block statement, (block, statement) ∈ source.statements →
    ∀ id ∈ statement.documented, id.span.slice block.content.toList ≠ []
  calls : ∀ block statement, (block, statement) ∈ source.statements →
    ∀ call ∈ statement.sites, call.Delimited block.content.toList
  handlers : ∀ expression start call, source.HasHandlerCall expression start call →
    call.Delimited ('(' :: (expression ++ [')']))

/-- The text at the place of the item, and of the diagnostics on it, is what the item is about. -/
inductive Shows (source : Source) : Item → List Diagnostic → Prop
  | name {block : ScriptBlock} {statement : Stmt} {id : Ident} {item : Item} {part : List Char}
      (hstatement : (block, statement) ∈ source.statements) (hid : id ∈ statement.documented)
      (hitem : ShowsName (.ofBlock block) id item)
      (hpart : id.span.slice? block.content.toList = some part)
      (hplace : Placed block.content.toList block.offset part item []) : Shows source item []
  | call {block : ScriptBlock} {statement : Stmt} {call : Call} {event : Item}
      {diagnostics : List Diagnostic} {part : List Char}
      (hstatement : (block, statement) ∈ source.statements) (hcall : call ∈ statement.sites)
      (hevent : call.Dispatches (.ofBlock block) event diagnostics)
      (hpart : call.place.slice? block.content.toList = some part)
      (hplace : Placed block.content.toList block.offset part event diagnostics) :
      Shows source event diagnostics
  | slot {tag : TagGroup} {item : Item} {inside : List Char}
      (htag : tag.events <:+: events source.template.toList)
      (hitem : ShowsSlot source.markup tag item)
      (hplace : Placed source.template.toList source.templateOffset
        ('<' :: ("slot".toList ++ (inside ++ ['>']))) item []) : Shows source item []
  | directive {tag : TagGroup} {attr : Attribute} {directive : Directive} {item : Item}
      (htag : tag.events <:+: events source.template.toList)
      (hattr : attr ∈ tag.toTag.attributes)
      (hitem : ShowsDirective source.markup attr directive item)
      (hplace : Placed source.template.toList source.templateOffset
        (source.markup.slice attr.name) item []) : Shows source item []
  | handler {expression : List Char} {start : Nat} {call : Call} {event : Item}
      {diagnostics : List Diagnostic} {part : List Char}
      (hcall : source.HasHandlerCall expression start call)
      (hevent : call.Dispatches (.ofInline expression (source.templateOffset + start)) event
        diagnostics)
      (hpart : call.place.slice? ('(' :: (expression ++ [')'])) = some part)
      (hplace : Placed source.template.toList source.templateOffset part event diagnostics) :
      Shows source event diagnostics

/-- The event is that of a call in a handler that takes in a parenthesis around the handler. -/
def Overreaches (source : Source) (event : Item) (diagnostics : List Diagnostic) : Prop :=
  ∃ expression start call, source.HasHandlerCall expression start call ∧
    call.Dispatches (.ofInline expression (source.templateOffset + start)) event diagnostics ∧
    call.TakesParens expression

/-- What has been found at some point of an extraction: when some of the scripts have been read, or
when all of them and the markup have, up to a failure. -/
inductive Stage (source : Source) (settings : Settings) : Extraction → Prop
  | scripts {before after : List ScriptBlock} {found : Extraction}
      (hscripts : source.scripts = before ++ after)
      (h : readScripts { settings } before = .ok found) : Stage source settings found
  | markup {found : Extraction} (h : readScripts { settings } source.scripts = .ok found) :
      Stage source settings
        (found.readMarkup source.template.toList source.templateOffset).1

section Shown

variable {source : Source}

/-- A name in a script is shown at its place. -/
lemma Delimited.shows_name (h : source.Delimited) {block : ScriptBlock} {statement : Stmt}
    (hstatement : (block, statement) ∈ source.statements) {id : Ident}
    (hid : id ∈ statement.documented) {item : Item} (hitem : ShowsName (.ofBlock block) id item) :
    source.Shows item [] := by
  have hslice := h.names block statement hstatement id hid
  have hpart := slice?_of_slice_ne_nil hslice
  exact .name hstatement hid hitem hpart (.alone hpart hslice hitem.locations)

/-- The event of a call in a script is shown at the place of the call. -/
lemma Delimited.shows_call (h : source.Delimited) {block : ScriptBlock} {statement : Stmt}
    (hstatement : (block, statement) ∈ source.statements) {call : Call}
    (hcall : call ∈ statement.sites) {event : Item} {diagnostics : List Diagnostic}
    (hevent : call.Dispatches (.ofBlock block) event diagnostics) :
    source.Shows event diagnostics := by
  obtain ⟨part, hne, hpart⟩ := (h.calls block statement hstatement call hcall).place_slice?
  obtain ⟨hplace, hplaces⟩ := hevent.places
  exact .call hstatement hcall hevent hpart (.of_slice? hpart hne hplace hplaces)

/-- What a tag shows of a slot is something that the source shows. -/
lemma shows_slot {tag : TagGroup} (htag : tag.events <:+: events source.template.toList)
    {item : Item} (hitem : ShowsSlot source.markup tag item) : source.Shows item [] := by
  obtain ⟨inside, hslice⟩ := tag_slice htag
  have hname : tag.name.slice source.template.toList = "slot".toList := hitem.name
  rw [hname] at hslice
  exact .slot htag hitem (.alone hslice (List.cons_ne_nil _ _) hitem.locations)

/-- What a tag shows of a directive is something that the source shows. -/
lemma shows_directive {tag : TagGroup} (htag : tag.events <:+: events source.template.toList)
    {attr : Attribute} (hattr : attr ∈ tag.toTag.attributes) {directive : Directive} {item : Item}
    (hitem : ShowsDirective source.markup attr directive item) : source.Shows item [] := by
  obtain ⟨part, hne, hpart⟩ := exists_solid_slice (attributeName_mem htag hattr) rfl rfl
  have hslice : source.markup.slice attr.name = part := by
    rw [Template.slice, Span.slice]
    exact congrArg (Option.getD · []) hpart
  refine .directive htag hattr hitem ?_
  rw [hslice]
  exact .alone hpart hne hitem.locations

/-- The event of a call in a handler is shown at the place of the call, unless the call takes in a
parenthesis around the handler. -/
lemma Delimited.shows_handler (h : source.Delimited) {expression : List Char} {start : Nat}
    {call : Call} (hcall : source.HasHandlerCall expression start call) {event : Item}
    {diagnostics : List Diagnostic}
    (hevent : call.Dispatches (.ofInline expression (source.templateOffset + start)) event
      diagnostics) :
    source.Shows event diagnostics ∨ source.Overreaches event diagnostics := by
  by_cases hparens : call.TakesParens expression
  · exact .inr ⟨expression, start, call, hcall, hevent, hparens⟩
  · left
    have hdelimited := h.handlers expression start call hcall
    obtain ⟨part, hne, hpart⟩ := hdelimited.place_slice?
    obtain ⟨hfirst, hlast⟩ := hdelimited.place_between hparens
    have ⟨tag, htag, hhandler, _⟩ := hcall
    obtain ⟨hpos, front, back, htext, hfront⟩ := hhandler.text_eq htag
    -- The part is one of the expression, and the expression is one of the template.
    have hinside := slice?_between rfl hpart hfirst hlast
    have hslice := slice?_shift hinside front back
    rw [← htext, hfront] at hslice
    obtain ⟨hplace, hplaces⟩ := hevent.places
    have hlocation : (Excerpt.ofInline expression (source.templateOffset + start)).location
        call.place = (Span.shift ⟨call.place.start - 1, call.place.stop - 1⟩ start).shift
          source.templateOffset := by
      have hstop : 0 < call.place.stop := by
        obtain ⟨before, after, _, hstart, hstop⟩ := slice?_eq_some_iff.1 hpart
        omega
      simp only [Excerpt.ofInline, Excerpt.location, Span.shift, Span.mk.injEq]
      omega
    rw [hlocation] at hplace hplaces
    exact .handler hcall hevent hpart (.of_slice? hslice hne hplace hplaces)

end Shown

/-! ### Stages of an extraction -/

section Stages

variable {source : Source} {settings : Settings}

/-- The statements of a script are statements of the source. -/
lemma mem_statements {block : ScriptBlock} {statements : List Stmt} {statement : Stmt}
    (hblock : block ∈ source.scripts)
    (hparse : parseModule? block.isTypeScript block.content.toList = some statements)
    (hstatement : statement ∈ statements) : (block, statement) ∈ source.statements := by
  refine List.mem_flatMap.2 ⟨block, hblock, ?_⟩
  rw [hparse]
  exact List.mem_map_of_mem hstatement

/-- What is found in the scripts is something that the source shows. -/
lemma Delimited.readScripts_extends (h : source.Delimited) {blocks : List ScriptBlock}
    (hblocks : blocks ⊆ source.scripts) {found next : Extraction}
    (hread : readScripts found blocks = .ok next) : Extends source.Shows found next := by
  refine readScripts_rel .refl .trans (fun block hmem _ _ hblock => ?_) hread
  have hsource := hblocks hmem
  refine readScript_extends ?_ ?_ hblock
  · intro statements hparse statement hstatement id hid item hitem
    exact h.shows_name (mem_statements hsource hparse hstatement) hid hitem
  · intro statements hparse statement hstatement call hcall event diagnostics hevent
    exact h.shows_call (mem_statements hsource hparse hstatement) hcall hevent

/-- A tag shows what the source shows, unless a call takes in more than the source has. -/
lemma Delimited.tagShows (h : source.Delimited) {tag : TagGroup}
    (htag : tag.events <:+: events source.template.toList) :
    TagShows source.markup
      (fun item diagnostics => source.Shows item diagnostics ∨ source.Overreaches item diagnostics)
      tag where
  slot := fun _ hitem => .inl (shows_slot htag hitem)
  directive := fun _ hattr _ _ hitem => .inl (shows_directive htag hattr hitem)
  handler := fun _ _ hhandler e hparse _ hcall _ _ hevent =>
    h.shows_handler ⟨tag, htag, hhandler, e, hparse, hcall⟩ hevent

/-- At every stage of an extraction, the text at the place of an item, and of the diagnostics on it,
is what the item is about. The exception are calls in handlers that take in a parenthesis which was
put around the handler; where there are none, it is so without exception. -/
theorem stage_shows (source : Source) (h : source.Delimited) (settings : Settings)
    (found : Extraction) (hstage : source.Stage settings found) :
    Entries
        (fun item diagnostics =>
          source.Shows item diagnostics ∨ source.Overreaches item diagnostics)
        found.items found.diagnostics ∧
      ((∀ event diagnostics, ¬ source.Overreaches event diagnostics) →
        Entries source.Shows found.items found.diagnostics) := by
  have hentries : Entries
      (fun item diagnostics => source.Shows item diagnostics ∨ source.Overreaches item diagnostics)
      found.items found.diagnostics := by
    cases hstage with
    | @scripts before after found hscripts hread =>
      have hblocks : before ⊆ source.scripts := by
        rw [hscripts]
        exact List.subset_append_left before after
      exact (h.readScripts_extends hblocks hread).entries.mono fun _ _ => .inl
    | @markup found hread =>
      have hscripts := h.readScripts_extends (List.Subset.refl _) hread
      have hmarkup := readMarkup_extends source.markup (fun _ => h.tagShows) found
      exact ((hscripts.mono fun _ _ => .inl).trans hmarkup).entries
  refine ⟨hentries, fun hnone => hentries.mono ?_⟩
  exact fun item diagnostics hitem => hitem.resolve_right (hnone item diagnostics)

end Stages

/-! ### Tests -/

/-- The calls in the values of attributes that can be handlers, each with the expression that it is
in. -/
def handlerCalls (source : Source) : List (List Char × Call) :=
  (events source.template.toList).flatMap fun
    | .attributeValue value =>
      ([.brace, .double].filterMap (handler? source.markup value)).flatMap fun (expression, _) =>
        (parseExpression? ('(' :: (expression ++ [')']))).toList.flatMap fun e =>
          e.calls.map (expression, ·)
    | _ => []

/-- A call in a handler is listed with the handler. -/
lemma HasHandlerCall.mem_handlerCalls {source : Source} {expression : List Char} {start : Nat}
    {call : Call} (h : source.HasHandlerCall expression start call) :
    (expression, call) ∈ source.handlerCalls := by
  obtain ⟨tag, htag, ⟨attr, hattr, event, value, _, hvalue, hhandler⟩, e, hparse, hcall⟩ := h
  -- Of the ways to delimit a value, only braces count.
  have hmem : (expression, start) ∈ [.brace, .double].filterMap (handler? source.markup value) := by
    by_cases hquote : attr.quote = .brace
    · exact List.mem_filterMap.2 ⟨.brace, by simp, hquote ▸ hhandler⟩
    · refine List.mem_filterMap.2 ⟨.double, by simp, ?_⟩
      rw [← hhandler]
      simp [handler?, hquote]
  refine List.mem_flatMap.2 ⟨_, attributeValue_mem htag hattr hvalue, ?_⟩
  refine List.mem_flatMap.2 ⟨_, hmem, ?_⟩
  simp [hparse, hcall]

/-- A test for delimited spans. It asks more than is needed, since it takes every value of an
attribute that can be a handler for one. -/
def isDelimited (source : Source) : Bool :=
  (source.statements.all fun (block, statement) =>
    (statement.documented.all fun id => id.span.slice block.content.toList ≠ []) &&
      statement.sites.all fun call => call.Delimited block.content.toList) &&
  source.handlerCalls.all fun (expression, call) =>
    call.Delimited ('(' :: (expression ++ [')']))

/-- The source is delimited if it is found to be so. -/
lemma delimited_of_isDelimited {source : Source} (h : source.isDelimited = true) :
    source.Delimited := by
  simp only [isDelimited, Bool.and_eq_true, List.all_eq_true, decide_eq_true_eq] at h
  obtain ⟨hscripts, hhandlers⟩ := h
  exact ⟨fun block statement hmem => (hscripts (block, statement) hmem).1,
    fun block statement hmem => (hscripts (block, statement) hmem).2,
    fun expression start call hcall => hhandlers (expression, call) hcall.mem_handlerCalls⟩

/-- No event takes in more than the source has if no call in a handler does. -/
lemma not_overreaches {source : Source}
    (h : source.handlerCalls.all fun (expression, call) => ¬ call.TakesParens expression)
    (event : Item) (diagnostics : List Diagnostic) : ¬ source.Overreaches event diagnostics := by
  rintro ⟨expression, start, call, hcall, _, hparens⟩
  have hmem := List.all_eq_true.1 h _ hcall.mem_handlerCalls
  exact of_decide_eq_true hmem hparens

/-! ### A call in a handler -/

/-- A script that makes a dispatcher `d`, and a template with a handler. -/
def dispatching (handler : String) : Source where
  template := "<slot/><a on:click=\x7b" ++ handler ++ "\x7d/>"
  scripts := [⟨"import\x7bcreateEventDispatcher as c\x7dfrom\"svelte\";let d=c()", "", 100⟩]

/-- The places of what is found at last, unless a script fails. -/
def locations? (source : Source) (settings : Settings) : Option (List (List Span)) :=
  (readScripts { settings } source.scripts).toOption.map fun found =>
    (found.readMarkup source.template.toList source.templateOffset).1.items.map (·.locations)

/-- Locations that are computed are those of the items of a stage. -/
lemma exists_stage {source : Source} {settings : Settings} {locations : List (List Span)}
    (h : source.locations? settings = some locations) :
    ∃ found, source.Stage settings found ∧ found.items.map (·.locations) = locations := by
  unfold locations? at h
  cases hread : readScripts { settings } source.scripts with
  | error failure =>
    rw [hread] at h
    cases h
  | ok found =>
    rw [hread] at h
    exact ⟨_, .markup hread, Option.some.inj h⟩

/-- Two names in a script, a slot, and the argument of a call between blanks and braces. -/
theorem stage_shows_argument :
    (dispatching " d('e') ").Delimited ∧ ∃ found, (dispatching " d('e') ").Stage {} found ∧
      found.items.map (·.locations) = [[⟨132, 133⟩], [⟨151, 152⟩], [⟨0, 7⟩], [⟨23, 26⟩]] ∧
      Entries (dispatching " d('e') ").Shows found.items found.diagnostics := by
  have hdelimited : (dispatching " d('e') ").Delimited :=
    delimited_of_isDelimited (by decide +kernel)
  have hlocations : (dispatching " d('e') ").locations? {} =
      some [[⟨132, 133⟩], [⟨151, 152⟩], [⟨0, 7⟩], [⟨23, 26⟩]] := by decide +kernel
  obtain ⟨found, hstage, hfound⟩ := exists_stage hlocations
  refine ⟨hdelimited, found, hstage, hfound, (stage_shows _ hdelimited {} found hstage).2 ?_⟩
  exact not_overreaches (by decide +kernel)

/-- Nothing that is shown has the place of the handler with its braces. -/
lemma not_shows_braces {item : Item} {diagnostics : List Diagnostic}
    (hitem : item.locations = [⟨19, 24⟩]) : ¬ (dispatching "d)(").Shows item diagnostics := by
  have hevents : events (dispatching "d)(").template.toList =
      [.openName ⟨1, 5⟩, .selfClose 6, .openName ⟨8, 9⟩, .attributeName ⟨10, 18⟩,
        .attributeValue ⟨19, 24⟩, .attributeEnd .brace 24, .selfClose 25, .finish] := by
    decide +kernel
  -- What is found in the script lies behind the template.
  have hscript : ∀ block statement, (block, statement) ∈ (dispatching "d)(").statements →
      ∀ span, item.locations ≠ [(Excerpt.ofBlock block).location span] := by
    intro block statement hmem span hplace
    obtain ⟨_, hblock, hmem⟩ := List.mem_flatMap.1 hmem
    obtain ⟨_, _, hpair⟩ := List.mem_map.1 hmem
    cases hpair
    cases List.mem_singleton.1 hblock
    have hstart := congrArg Span.start (List.head_eq_of_cons_eq (hitem.symm.trans hplace))
    simp only [Excerpt.ofBlock, Excerpt.location, Span.shift] at hstart
    omega
  have hmarkup : ∀ span, item.locations = [(dispatching "d)(").markup.location span] →
      span = ⟨19, 24⟩ := by
    intro span hplace
    exact (List.head_eq_of_cons_eq (hitem.symm.trans hplace)).symm
  intro h
  cases h with
  | @name block statement id _ _ hstatement _ hname =>
    exact hscript block statement hstatement id.span hname.locations
  | @call block statement call _ _ _ hstatement _ hevent =>
    exact hscript block statement hstatement call.place hevent.places.1
  | @slot tag _ _ htag hslot =>
    have hname : .openName tag.name ∈ tag.events := by simp [TagGroup.events]
    have hmem := htag.subset hname
    have hplace := congrArg Span.start (hmarkup _ hslot.locations)
    rw [hevents] at hmem
    simp only [List.mem_cons, Event.openName.injEq, reduceCtorEq, false_or, or_false,
      List.not_mem_nil] at hmem
    rcases hmem with hname | hname <;> simp [hname] at hplace
  | @directive tag attr _ _ htag hattr hdirective =>
    have hmem := attributeName_mem htag hattr
    rw [hevents, hmarkup attr.name hdirective.locations] at hmem
    simp at hmem
  | @handler expression _ call _ _ part hcall _ hpart hplace =>
    -- The text at the place has braces, and the handler in parentheses has none.
    have hhandlers : ∀ entry ∈ (dispatching "d)(").handlerCalls, '\x7b' ∉ entry.1 := by
      decide +kernel
    have hbrace : '\x7b' ∉ expression := hhandlers _ hcall.mem_handlerCalls
    have hslice : Span.slice? ⟨19, 24⟩ (dispatching "d)(").template.toList =
        some "\x7bd)(\x7d".toList := by decide +kernel
    obtain ⟨location, hlocation, _, hlocates⟩ := hplace
    cases hitem.symm.trans hlocation
    cases hlocates.slice.symm.trans hslice
    obtain ⟨before, after, htext, _⟩ := slice?_eq_some_iff.1 hpart
    have hmem : '\x7b' ∈ '(' :: (expression ++ [')']) := by simp [htext]
    simp [hbrace] at hmem

/-- A handler that closes and opens parentheses makes a call of the dispatcher that takes in those
around it. The place of the event is that of the handler with its braces, which is no text of the
call. -/
theorem not_shows_parens :
    (dispatching "d)(").Delimited ∧ ∃ found, (dispatching "d)(").Stage {} found ∧
      ¬ Entries (dispatching "d)(").Shows found.items found.diagnostics := by
  have hlocations : (dispatching "d)(").locations? {} =
      some [[⟨132, 133⟩], [⟨151, 152⟩], [⟨0, 7⟩], [⟨19, 24⟩]] := by decide +kernel
  obtain ⟨found, hstage, hfound⟩ := exists_stage hlocations
  refine ⟨delimited_of_isDelimited (by decide +kernel), found, hstage, fun hentries => ?_⟩
  obtain ⟨item, hitem, hplace⟩ : ∃ item ∈ found.items, item.locations = [⟨19, 24⟩] :=
    List.mem_map.1 (hfound ▸ by simp)
  obtain ⟨diagnostics, hshows⟩ := hentries.of_mem hitem
  exact not_shows_braces hplace hshows

end Source

end ComponentApi
