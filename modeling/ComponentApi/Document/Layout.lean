import ComponentApi.Document.Basic
import ComponentApi.Json.Printer

/-!
# Documents as JSON

The written form of documents, items and diagnostics. Fields come in a fixed order; fields without
a value are left out.
-/

namespace ComponentApi

/-- A type as JSON. -/
def TypeExpr.toJson : TypeExpr → Json
  | .named text name =>
    .object [("kind", .string "type"), ("text", .string text), ("type", .string name)]
  | .constant text value name =>
    .object [("kind", .string "const"), ("text", .string text), ("type", .string name),
      ("value", .string value)]
  | .union text alternatives =>
    .object [("kind", .string "union"), ("text", .string text),
      ("type", .array (toJsonList alternatives))]
where
  /-- Each of the alternatives as JSON. -/
  toJsonList : List TypeExpr → List Json
    | [] => []
    | type :: rest => type.toJson :: toJsonList rest

/-- A keyword as JSON. -/
def Keyword.toJson (keyword : Keyword) : Json :=
  .object [("name", .string keyword.name), ("description", .string keyword.description)]

/-- A place as JSON. -/
def Span.toJson (span : Span) : Json :=
  .object [("start", .ofNat span.start), ("end", .ofNat span.stop)]

/-- A parameter of a method as JSON. -/
def MethodParam.toJson (param : MethodParam) : Json :=
  .object <|
    [("name", .string param.name), ("type", param.type.toJson),
      ("optional", .bool param.optional)] ++
    Json.field? "default" .string param.default? ++
    [("description", .string param.description), ("repeated", .bool param.repeated)]

/-- The result of a method as JSON. -/
def Comment.ReturnNote.toJson (note : Comment.ReturnNote) : Json :=
  .object [("type", note.type.toJson), ("description", .string note.description)]

/-- A parameter of a slot as JSON. -/
def SlotParameter.toJson (parameter : SlotParameter) : Json :=
  .object [("name", .string parameter.name), ("description", .string parameter.description),
    ("visibility", .string parameter.visibility.name), ("type", parameter.type.toJson),
    ("keywords", .ofList Keyword.toJson parameter.keywords)]

/-- A binding as JSON. -/
def Binding.toJson (binding : Binding) : Json :=
  .object [("source", .string binding.source), ("property", .string binding.property)]

/-- A field for a list, if the list is not empty. -/
def Json.listField? {α : Type} (name : String) (f : α → Json) (items : List α) :
    List (String × Json) :=
  if items.isEmpty then [] else [(name, .ofList f items)]

/-- The fields of a detail. -/
def Detail.jsonFields : Detail → List (String × Json)
  | .data detail =>
    Json.field? "kind" (fun kind => .string kind.name) detail.kind? ++
    [("static", .bool detail.shared), ("readonly", .bool detail.readonly)] ++
    Json.field? "type" TypeExpr.toJson detail.type? ++
    Json.field? "defaultValue" .string detail.default? ++
    Json.field? "importPath" .string detail.importPath? ++
    Json.field? "originalName" .string detail.remoteName? ++
    Json.field? "localName" .string detail.localName? ++
    Json.listField? "bind" Binding.toJson detail.bindings
  | .method detail =>
    [("params", .ofList MethodParam.toJson detail.params)] ++
    Json.field? "return" Comment.ReturnNote.toJson detail.return? ++
    [("static", .bool detail.shared)]
  | .computed detail =>
    [("dependencies", .ofList .string detail.dependencies)] ++
    Json.field? "type" TypeExpr.toJson detail.type? ++
    [("static", .bool detail.shared)]
  | .event detail =>
    [("parent", .ofText? detail.parent?), ("modifiers", .ofList .string detail.modifiers)]
  | .slot parameters => [("parameters", .ofList SlotParameter.toJson parameters)]
  | .ref parent? => [("parent", .ofText? parent?)]
  | .action parent? => [("parent", .ofText? parent?)]
  | .component importPath => [("importPath", .string importPath)]

/-- The fields of an item. -/
def Item.jsonFields (item : Item) : List (String × Json) :=
  [("name", .string item.name), ("description", .string item.description),
    ("visibility", .string item.visibility.name),
    ("keywords", .ofList Keyword.toJson item.keywords)] ++
  Json.listField? "locations" Span.toJson item.locations ++
  item.detail.jsonFields

/-- An item as JSON. -/
def Item.toJson (item : Item) : Json :=
  .object item.jsonFields

/-- A diagnostic as JSON. -/
def Diagnostic.toJson (diagnostic : Diagnostic) : Json :=
  .object [("code", .string diagnostic.issue.code), ("message", .string diagnostic.issue.message),
    ("location", diagnostic.location.toJson)]

/-- A document as JSON. -/
def Document.toJson (document : Document) : Json :=
  .object <|
    Json.field? "name" .string document.name? ++
    Json.field? "description" .string document.description? ++
    Json.field? "keywords" (.ofList Keyword.toJson) document.keywords? ++
    Category.all.flatMap fun category =>
      Json.field? category.name (.ofList Item.toJson) (document.items? category)

end ComponentApi
