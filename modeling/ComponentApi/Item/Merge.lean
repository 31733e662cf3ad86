import ComponentApi.Item.Basic

/-!
# Merging items

Two items about one symbol become one. The first keeps its name and its place; the second adds
its places and bindings, raises the visibility, and fills in what the first left open.
-/

namespace ComponentApi

/-- The list, or `other` if it is empty. -/
def fillList {α : Type} (list other : List α) : List α :=
  if list.isEmpty then other else list

/-- The text, or `other` if it is empty. -/
def fillText (text other : String) : String :=
  if text.isEmpty then other else text

/-- One slot parameter from two of the same name. -/
def SlotParameter.merge (target source : SlotParameter) : SlotParameter :=
  { target with
    visibility := target.visibility.join source.visibility
    description := fillText target.description source.description
    type := if target.type.isAny then source.type else target.type
    keywords := fillList target.keywords source.keywords }

/-- The parameters with one more: merged into the first of its name, or put at the end. -/
def SlotParameter.insert (source : SlotParameter) : List SlotParameter → List SlotParameter
  | [] => [source]
  | target :: rest =>
    if target.name == source.name then target.merge source :: rest
    else target :: insert source rest

/-- One data detail from two. -/
def DataDetail.merge (target source : DataDetail) : DataDetail :=
  { target with
    kind? := target.kind? <|> source.kind?
    type? := target.type? <|> source.type?
    default? := target.default? <|> source.default?
    importPath? := target.importPath? <|> source.importPath?
    remoteName? := target.remoteName? <|> source.remoteName?
    localName? := target.localName? <|> source.localName?
    bindings := target.bindings ++ source.bindings }

/-- One detail from two; a detail of another category adds nothing. -/
def Detail.merge : (target source : Detail) → Detail
  | .data target, .data source => .data (target.merge source)
  | .method target, .method source =>
    .method { target with
      params := fillList target.params source.params
      return? := target.return? <|> source.return? }
  | .computed target, .computed source =>
    .computed { target with
      dependencies := fillList target.dependencies source.dependencies
      type? := target.type? <|> source.type? }
  | .event target, .event source =>
    .event { target with
      parent? := target.parent? <|> source.parent?
      modifiers := fillList target.modifiers source.modifiers }
  | .slot target, .slot source =>
    .slot (source.foldl (fun parameters p => p.insert parameters) target)
  | .ref target, .ref source => .ref (target <|> source)
  | .action target, .action source => .action (target <|> source)
  | .component target, .component source => .component (fillText target source)
  | target, _ => target

/-- One item from two about the same symbol. -/
def Item.merge (target source : Item) : Item :=
  { target with
    visibility := target.visibility.join source.visibility
    description := fillText target.description source.description
    keywords := fillList target.keywords source.keywords
    locations := target.locations ++ source.locations
    detail := target.detail.merge source.detail }

end ComponentApi
