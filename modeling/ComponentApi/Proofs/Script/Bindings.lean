import ComponentApi.Proofs.Script.Outline

/-!
# Names bound at the top level

The main statement is that a script accounts for exactly the names that it binds at its top level
(`Stmt.bound`): it emits one item for each of them, in the order of the text, and records them in
that order in the table of names. All other items are events, computed values and names in the
braces of exports.
-/

namespace ComponentApi.Script

open Extraction

/-! ### Accounts -/

/-- There is one item for each of the bound names, in their order. All items in between have the
property. -/
inductive Announced (excerpt : Excerpt) (P : Item → Prop) : List Bound → List Item → Prop
  | nil : Announced excerpt P [] []
  | name {bound : Bound} {item : Item} {names : List Bound} {items : List Item}
      (hitem : Announces excerpt bound item) (hrest : Announced excerpt P names items) :
      Announced excerpt P (bound :: names) (item :: items)
  | other {item : Item} {names : List Bound} {items : List Item} (hitem : P item)
      (hrest : Announced excerpt P names items) : Announced excerpt P names (item :: items)

namespace Announced

variable {excerpt : Excerpt} {P : Item → Prop} {names more : List Bound} {items next : List Item}

/-- Names that are announced one after the other are announced together. -/
lemma append (h : Announced excerpt P names items) (h' : Announced excerpt P more next) :
    Announced excerpt P (names ++ more) (items ++ next) := by
  induction h with
  | nil => exact h'
  | name hitem _ ih => exact .name hitem ih
  | other hitem _ ih => exact .other hitem ih

/-- Where no name is bound, all items are others. -/
lemma others (h : ∀ item ∈ items, P item) : Announced excerpt P [] items := by
  induction items with
  | nil => exact .nil
  | cons item items ih =>
    obtain ⟨hitem, hitems⟩ := List.forall_mem_cons.1 h
    exact .other hitem (ih hitems)

end Announced

/-- The table with the bound names recorded one after the other; a later one replaces an earlier
one of the same name. -/
def recordAll (declarations : Assoc String Declaration) (names : List Bound) :
    Assoc String Declaration :=
  names.foldl (fun declarations bound => declarations.put bound.id.name bound.declaration)
    declarations

/-- From the one extraction to the other, exactly the bound names were accounted for. Items that
are not theirs have the property. -/
structure Accounts (excerpt : Excerpt) (P : Item → Prop) (names : List Bound)
    (found next : Extraction) : Prop where
  items : ∃ new, next.items = found.items ++ new ∧ Announced excerpt P names new
  declarations : next.names.declarations = recordAll found.names.declarations names

namespace Accounts

variable {excerpt : Excerpt} {P : Item → Prop} {names more : List Bound}
  {first second third found next : Extraction}

/-- Nothing is bound where nothing changes. -/
lemma refl (found : Extraction) : Accounts excerpt P [] found found :=
  ⟨⟨[], by simp, .nil⟩, rfl⟩

/-- What is bound in two parts is bound in one. -/
lemma trans (h : Accounts excerpt P names first second)
    (h' : Accounts excerpt P more second third) :
    Accounts excerpt P (names ++ more) first third := by
  obtain ⟨new, hnew, hnames⟩ := h.items
  obtain ⟨others, hothers, hmore⟩ := h'.items
  refine ⟨⟨new ++ others, ?_, hnames.append hmore⟩, ?_⟩
  · rw [hothers, hnew, List.append_assoc]
  · rw [h'.declarations, h.declarations, recordAll, recordAll, recordAll, List.foldl_append]

/-- A search binds nothing: it finds dispatched events. -/
lemma of_searched (hevents : ∀ item : Item, item.IsDispatched → P item)
    (h : found.Searched next) : Accounts excerpt P [] found next := by
  obtain ⟨new, hnew, hdispatched⟩ := h.items
  exact ⟨⟨new, hnew, .others fun item hitem => hevents item (hdispatched item hitem)⟩,
    h.names.declarations⟩

/-- An item that announces no name is another one. -/
lemma emit {item : Item} (h : P item) (found : Extraction) :
    Accounts excerpt P [] found (found.emit item) :=
  ⟨⟨[item], rfl, .other h .nil⟩, rfl⟩

/-- A name that is announced and declared is accounted for. -/
lemma emit_declare {bound : Bound} {item : Item} (h : Announces excerpt bound item)
    (found : Extraction) :
    Accounts excerpt P [bound] found
      ((found.emit item).declare bound.id.name bound.declaration) :=
  ⟨⟨[item], rfl, .name h .nil⟩, rfl⟩

end Accounts

/-! ### Scripts -/

/-- The items of a script that are no bound names: events, computed values, and names that one of
the statements exports in braces. -/
def Unbound (excerpt : Excerpt) (statements : List Stmt) (item : Item) : Prop :=
  item.category = .events ∨ item.category = .computed ∨
    ∃ span specifiers source? specifier, .exportNames span false specifiers source? ∈ statements ∧
      specifier ∈ specifiers ∧ specifier.typeOnly = false ∧
      item = exportItem excerpt span.start source? specifier

/-- Whatever a script is read for, it accounts for the names that it binds. -/
lemma outline_accounts (excerpt : Excerpt) {P : Item → Prop}
    (hevents : ∀ item : Item, item.IsDispatched → P item) :
    Outline excerpt (fun _ => True) P (Accounts excerpt P) where
  refl := .refl
  trans := .trans
  announce := fun h => .emit_declare h.announces
  expose := .emit
  know := fun found _ h => .of_searched hevents (.withNames found h)
  expr := fun {e} _ statement? found =>
    .of_searched hevents (e.search_finds excerpt statement? { found }).found
  stmt := fun {statement} _ found =>
    .of_searched hevents (statement.search_finds excerpt _ { found }).found
  function := fun {definition} _ found =>
    .of_searched hevents (definition.search_finds excerpt { found }).found

/-- A script emits one item for each name that it binds at its top level, with that name, in the
order of the text, and besides these only events, computed values and names that it exports in
braces. The table of names is then the one before with these names recorded in that order. -/
theorem extractStatements_accounts (excerpt : Excerpt) (statements : List Stmt)
    (found : Extraction) :
    (∃ new, (extractStatements excerpt statements found).items = found.items ++ new ∧
      Announced excerpt (Unbound excerpt statements) (statements.flatMap Stmt.bound) new) ∧
    (extractStatements excerpt statements found).names.declarations =
      recordAll found.names.declarations (statements.flatMap Stmt.bound) := by
  have hevents : ∀ item : Item, item.IsDispatched → Unbound excerpt statements item := by
    intro item hitem
    exact .inl (by rw [Item.category, hitem]; rfl)
  have hexposed : ∀ statement ∈ statements, ∀ item, statement.Exposes excerpt item →
      Unbound excerpt statements item := by
    intro statement hmem item hitem
    cases hitem with
    | @exported span source? specifiers specifier h htype =>
      exact .inr (.inr ⟨span, specifiers, source?, specifier, hmem, h, htype, rfl⟩)
    | assigned _ _ _ _ hcategory => exact .inr (.inl hcategory)
  have haccounts := (outline_accounts excerpt hevents).statements (fun _ _ _ _ => trivial) hexposed
    found
  exact ⟨haccounts.items, haccounts.declarations⟩

end ComponentApi.Script
