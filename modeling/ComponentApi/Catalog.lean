import ComponentApi.Assoc
import ComponentApi.Item.Merge

/-!
# The catalog of a component

Scripts and markup mention a symbol many times. The catalog gathers the items in the order in
which symbols first occur, one item for each category and name. A variable that is exported under
another name is listed under its exported name, whichever of the two is seen first.
-/

namespace ComponentApi

/-- Merged items, found by category and name. -/
structure Catalog where
  items : List Item := []
  /-- Where the item of a category and a name stands among the items. -/
  index : Assoc (Category × String) Nat := []
  /-- The exported name of a variable, by its name inside the component. -/
  exported : Assoc String String := []
  deriving Inhabited

namespace Catalog

/-- Whether an item of the category stands under the name. -/
def contains (catalog : Catalog) (category : Category) (name : String) : Bool :=
  (catalog.index.get? (category, name)).isSome

/-- The local name of an item that exports a variable under a name that is still free. -/
def newExport? (catalog : Catalog) (item : Item) : Option String :=
  item.localName?.filter fun localName =>
    localName != item.name && !catalog.contains .data item.name

/-- The catalog in which the variable `localName` is known to be exported as `name`: its item, if
there is one, is listed under that name. -/
def recordExport (catalog : Catalog) (localName name : String) : Catalog :=
  let exported := catalog.exported.put localName name
  match catalog.index.get? (.data, localName) with
  | some i =>
    { items := catalog.items.modify i fun item => { item with name }
      index := (catalog.index.remove (.data, localName)).put (.data, name) i
      exported }
  | none => { catalog with exported }

/-- The name under which an item is listed: for data the exported name, if there is one. -/
def listedName (catalog : Catalog) (item : Item) : String :=
  if item.category = .data then (catalog.exported.get? item.name).getD item.name else item.name

/-- The catalog with the item merged into the one that stands under the name, or put at the
end. -/
def insertAs (catalog : Catalog) (name : String) (item : Item) : Catalog :=
  match catalog.index.get? (item.category, name) with
  | some i => { catalog with items := catalog.items.modify i fun target => target.merge item }
  | none =>
    { catalog with
      items := catalog.items ++ [item]
      index := catalog.index.put (item.category, name) catalog.items.length }

/-- The catalog with one more item. -/
def push (catalog : Catalog) (item : Item) : Catalog :=
  match catalog.newExport? item with
  | some localName => (catalog.recordExport localName item.name).insertAs item.name item
  | none => catalog.insertAs (catalog.listedName item) item

/-- The catalog of a sequence of items. -/
def ofItems (items : List Item) : Catalog :=
  items.foldl push {}

end Catalog

end ComponentApi
