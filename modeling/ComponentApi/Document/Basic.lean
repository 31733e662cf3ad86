import ComponentApi.Catalog
import ComponentApi.Diagnostic
import ComponentApi.Options.Basic

/-!
# Documents

The document of a component holds what the settings request of its catalog. Items are left out
by their visibility only here, when all that is known of them has been merged.
-/

namespace ComponentApi

/-- The documentation of a component; what was not requested is missing. -/
structure Document where
  name? : Option String := none
  description? : Option String := none
  keywords? : Option (List Keyword) := none
  /-- The requested lists of items, by category. -/
  items? : Category → Option (List Item) := fun _ => none

namespace Document

/-- The first item of a category that has the name. -/
def find? (document : Document) (category : Category) (name : String) : Option Item :=
  (document.items? category).bind fun items => items.find? (·.name == name)

end Document

/-- A data detail in which a missing type is spelled out. -/
def Detail.complete : Detail → Detail
  | .data detail => .data { detail with type? := detail.type? <|> some .any }
  | detail => detail

/-- An item as it stands in a document. -/
def Item.present (settings : Settings) (item : Item) : Item :=
  { item with
    detail := item.detail.complete
    locations := if settings.includeLocations then item.locations else [] }

/-- The document of a catalog, a comment on the whole component and the name of the component. -/
def Catalog.document (catalog : Catalog) (settings : Settings) (overview? : Option DocComment)
    (name? : Option String) : Document :=
  let overview := overview?.getD (.empty .private)
  let request {α : Type} (feature : Feature) (value : Option α) : Option α :=
    if settings.wants feature then value else none
  { name? := request .name name?
    description? := request .description (some overview.description)
    keywords? := request .keywords (some overview.keywords)
    items? := fun category => request (.items category) <| some <|
      (catalog.items.filter fun item =>
        item.category = category && !settings.ignores item.visibility).map (·.present settings) }

end ComponentApi
