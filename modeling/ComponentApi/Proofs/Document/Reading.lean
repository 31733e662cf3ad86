import Mathlib
import ComponentApi.Document.Layout
import ComponentApi.Options.Reading

/-!
# Documents that are read

Documents, and the items in them, are read from JSON. The fields of an item are found by their
names, those of its detail among those that all items have. Which detail they make up follows from
the category of the list that holds the item. Whatever is written is read back
(`Document.ofJson?_toJson`), provided that every item stands in the list of its category.
-/

namespace ComponentApi

open Json (list? withDefault? orNull?)

/-! ### Readers -/

/-- The value of a field that may be missing. -/
def Json.optional? {α : Type} (read? : Json → Option α) : Option Json → Option (Option α)
  | none => some none
  | some value => (read? value).map some

/-- A type from its fields, which are written in a fixed order. -/
def TypeExpr.ofJson? : Json → Option TypeExpr
  | .object [("kind", .string "type"), ("text", .string text), ("type", .string name)] =>
    some (.named text name)
  | .object [("kind", .string "const"), ("text", .string text), ("type", .string name),
      ("value", .string value)] => some (.constant text value name)
  | .object [("kind", .string "union"), ("text", .string text), ("type", .array alternatives)] =>
    (ofJsonList? alternatives).map (.union text)
  | _ => none
where
  /-- The type of each of the values. -/
  ofJsonList? : List Json → Option (List TypeExpr)
    | [] => some []
    | value :: rest => do return (← ofJson? value) :: (← ofJsonList? rest)

/-- A keyword from its fields. -/
def Keyword.ofJson? (value : Json) : Option Keyword := do
  return {
    name := ← (← value.get? "name").text?
    description := ← (← value.get? "description").text? }

/-- A place from its fields. -/
def Span.ofJson? (value : Json) : Option Span := do
  return {
    start := ← (← value.get? "start").nat?
    stop := ← (← value.get? "end").nat? }

/-- A binding from its fields. -/
def Binding.ofJson? (value : Json) : Option Binding := do
  return {
    source := ← (← value.get? "source").text?
    property := ← (← value.get? "property").text? }

/-- A parameter of a method from its fields. -/
def MethodParam.ofJson? (value : Json) : Option MethodParam := do
  return {
    name := ← (← value.get? "name").text?
    type := ← TypeExpr.ofJson? (← value.get? "type")
    optional := ← (← value.get? "optional").bool?
    default? := ← Json.optional? Json.text? (value.get? "default")
    description := ← (← value.get? "description").text?
    repeated := ← (← value.get? "repeated").bool? }

/-- What a method returns, from its fields. -/
def Comment.ReturnNote.ofJson? (value : Json) : Option Comment.ReturnNote := do
  return {
    type := ← TypeExpr.ofJson? (← value.get? "type")
    description := ← (← value.get? "description").text? }

/-- A parameter of a slot from its fields. -/
def SlotParameter.ofJson? (value : Json) : Option SlotParameter := do
  return {
    name := ← (← value.get? "name").text?
    description := ← (← value.get? "description").text?
    visibility := ← Visibility.ofJson? (← value.get? "visibility")
    type := ← TypeExpr.ofJson? (← value.get? "type")
    keywords := ← list? Keyword.ofJson? (← value.get? "keywords") }

/-- The kind of a variable from its name. -/
def VariableKind.ofJson? (value : Json) : Option VariableKind :=
  value.text?.bind ofName?

/-- The detail of an item of a category, from the fields of the item. -/
def Detail.ofJson? (value : Json) : Category → Option Detail
  | .data => do
    return .data {
      kind? := ← Json.optional? VariableKind.ofJson? (value.get? "kind")
      shared := ← (← value.get? "static").bool?
      readonly := ← (← value.get? "readonly").bool?
      type? := ← Json.optional? TypeExpr.ofJson? (value.get? "type")
      default? := ← Json.optional? Json.text? (value.get? "defaultValue")
      importPath? := ← Json.optional? Json.text? (value.get? "importPath")
      remoteName? := ← Json.optional? Json.text? (value.get? "originalName")
      localName? := ← Json.optional? Json.text? (value.get? "localName")
      bindings := ← withDefault? [] (list? Binding.ofJson?) (value.get? "bind") }
  | .methods => do
    return .method {
      params := ← list? MethodParam.ofJson? (← value.get? "params")
      return? := ← Json.optional? Comment.ReturnNote.ofJson? (value.get? "return")
      shared := ← (← value.get? "static").bool? }
  | .computed => do
    return .computed {
      dependencies := ← list? Json.text? (← value.get? "dependencies")
      type? := ← Json.optional? TypeExpr.ofJson? (value.get? "type")
      shared := ← (← value.get? "static").bool? }
  | .events => do
    return .event {
      parent? := ← orNull? Json.text? (← value.get? "parent")
      modifiers := ← list? Json.text? (← value.get? "modifiers") }
  | .slots => do return .slot (← list? SlotParameter.ofJson? (← value.get? "parameters"))
  | .refs => do return .ref (← orNull? Json.text? (← value.get? "parent"))
  | .actions => do return .action (← orNull? Json.text? (← value.get? "parent"))
  | .components => do return .component (← (← value.get? "importPath").text?)

/-- An item of a category. -/
def Item.ofJson? (category : Category) (value : Json) : Option Item := do
  return {
    name := ← (← value.get? "name").text?
    description := ← (← value.get? "description").text?
    visibility := ← Visibility.ofJson? (← value.get? "visibility")
    keywords := ← list? Keyword.ofJson? (← value.get? "keywords")
    locations := ← withDefault? [] (list? Span.ofJson?) (value.get? "locations")
    detail := ← Detail.ofJson? value category }

/-- A document. A list of items that cannot be read makes it unreadable. -/
def Document.ofJson? (value : Json) : Option Document := do
  let lists ← Category.all.mapM fun category => do
    return (category,
      ← Json.optional? (list? (Item.ofJson? category)) (value.get? category.name))
  return {
    name? := ← Json.optional? Json.text? (value.get? "name")
    description? := ← Json.optional? Json.text? (value.get? "description")
    keywords? := ← Json.optional? (list? Keyword.ofJson?) (value.get? "keywords")
    items? := fun category => (lists.lookup category).join }

/-! ### Fields -/

namespace Json

variable {α : Type} {read? : Json → Option α} {write : α → Json}

/-- The value of an object under a name is what stands with the name in its fields. -/
@[simp] lemma get?_object (fields : List (String × Json)) (name : String) :
    (object fields).get? name = fields.lookup name := rfl

/-- A field with another name is passed over. -/
lemma lookup_cons_of_ne {field name : String} (h : name ≠ field) (value : Json)
    (fields : List (String × Json)) :
    ((field, value) :: fields).lookup name = fields.lookup name := by
  rw [List.lookup_cons, beq_eq_false_iff_ne.2 h]

/-- A field that may be missing is found under its name, if it is there. -/
@[simp] lemma lookup_field? (field name : String) (write : α → Json) (value? : Option α) :
    (field? field write value?).lookup name = if name == field then value?.map write else none := by
  cases value? with
  | none => simp [field?]
  | some value =>
    rw [field?, List.lookup_cons, List.lookup_nil]
    cases name == field <;> rfl

/-- The array of some items, unless there are none. -/
def listValue? (write : α → Json) (items : List α) : Option Json :=
  if items.isEmpty then none else some (ofList write items)

/-- A list is found under its name, if it is not empty. -/
@[simp] lemma lookup_listField? (field name : String) (write : α → Json) (items : List α) :
    (listField? field write items).lookup name =
      if name == field then listValue? write items else none := by
  cases items with
  | nil => simp [listField?, listValue?]
  | cons item items =>
    have hfield :
        listField? field write (item :: items) = [(field, ofList write (item :: items))] := rfl
    rw [hfield, List.lookup_cons, List.lookup_nil]
    cases name == field <;> rfl

/-- A string is read as its text. -/
@[simp] lemma text?_string (text : String) : (string text).text? = some text := rfl

/-- A truth value is read as itself. -/
@[simp] lemma bool?_bool (value : Bool) : (bool value).bool? = some value := rfl

/-- A natural number is read as itself. -/
@[simp] lemma nat?_ofNat (n : Nat) : (ofNat n).nat? = some n := by
  have hdigits : (toString n).all Char.isDigit = true := by
    rw [String.all_bool_eq, Nat.toString_eq_repr, Nat.toList_repr, List.all_eq_true]
    exact fun c hc => Nat.isDigit_of_mem_toDigits (by decide) (by decide) hc
  rw [ofNat, nat?, if_pos hdigits]
  exact Nat.toNat?_repr n

/-- A text that may be missing is read back, null standing for none. -/
@[simp] lemma orNull?_ofText? (text? : Option String) :
    orNull? Json.text? (ofText? text?) = some text? := by
  cases text? <;> rfl

/-- What is written item by item is read item by item. -/
lemma list?_ofList {items : List α} (h : ∀ item ∈ items, read? (write item) = some item) :
    list? read? (ofList write items) = some items := by
  rw [ofList, list?]
  induction items with
  | nil => rfl
  | cons item items ih =>
    obtain ⟨hitem, hitems⟩ := List.forall_mem_cons.1 h
    rw [List.map_cons, List.mapM_cons, hitem, ih hitems]
    rfl

/-- A list is read back, also one that is left out because it is empty. -/
lemma withDefault?_listValue? {items : List α}
    (h : ∀ item ∈ items, read? (write item) = some item) :
    withDefault? [] (list? read?) (listValue? write items) = some items := by
  cases items with
  | nil => rfl
  | cons item items => exact list?_ofList h

/-- A value that may be missing is read back, also where it is left out. -/
lemma optional?_map (h : ∀ value, read? (write value) = some value) (value? : Option α) :
    optional? read? (value?.map write) = some value? := by
  cases value? with
  | none => rfl
  | some value => rw [Option.map_some, optional?, h, Option.map_some]

end Json

/-! ### Types, keywords and places -/

mutual

/-- A type is read back. -/
@[simp] lemma TypeExpr.ofJson?_toJson : ∀ type : TypeExpr, TypeExpr.ofJson? type.toJson = some type
  | .named text name => rfl
  | .constant text value name => rfl
  | .union text alternatives => by
    rw [toJson, ofJson?, TypeExpr.ofJsonList?_toJsonList alternatives, Option.map_some]

/-- The alternatives of a union are read back. -/
lemma TypeExpr.ofJsonList?_toJsonList : ∀ types : List TypeExpr,
    TypeExpr.ofJson?.ofJsonList? (TypeExpr.toJson.toJsonList types) = some types
  | [] => rfl
  | type :: rest => by
    rw [toJson.toJsonList, ofJson?.ofJsonList?, type.ofJson?_toJson,
      TypeExpr.ofJsonList?_toJsonList rest]
    rfl

end

/-- A keyword is read back. -/
@[simp] lemma Keyword.ofJson?_toJson (keyword : Keyword) :
    Keyword.ofJson? keyword.toJson = some keyword := by
  simp [ofJson?, toJson, List.lookup_cons]

/-- A place is read back. -/
@[simp] lemma Span.ofJson?_toJson (span : Span) : Span.ofJson? span.toJson = some span := by
  simp [ofJson?, toJson, List.lookup_cons]

/-- A binding is read back. -/
@[simp] lemma Binding.ofJson?_toJson (binding : Binding) :
    Binding.ofJson? binding.toJson = some binding := by
  simp [ofJson?, toJson, List.lookup_cons]

/-- A parameter of a method is read back. -/
@[simp] lemma MethodParam.ofJson?_toJson (param : MethodParam) :
    MethodParam.ofJson? param.toJson = some param := by
  simp [ofJson?, toJson, List.lookup_cons, List.lookup_append, Json.optional?_map Json.text?_string]

/-- What a method returns is read back. -/
@[simp] lemma Comment.ReturnNote.ofJson?_toJson (note : Comment.ReturnNote) :
    Comment.ReturnNote.ofJson? note.toJson = some note := by
  simp [ofJson?, toJson, List.lookup_cons]

/-- A visibility is read back from its name. -/
@[simp] lemma Visibility.ofJson?_name (visibility : Visibility) :
    Visibility.ofJson? (.string visibility.name) = some visibility :=
  ofName?_eq_some.2 rfl

/-- A parameter of a slot is read back. -/
@[simp] lemma SlotParameter.ofJson?_toJson (parameter : SlotParameter) :
    SlotParameter.ofJson? parameter.toJson = some parameter := by
  simp [ofJson?, toJson, List.lookup_cons, Json.list?_ofList]

/-- The kind of a variable is read back from its name. -/
@[simp] lemma VariableKind.ofJson?_name (kind : VariableKind) :
    VariableKind.ofJson? (.string kind.name) = some kind := by
  cases kind <;> rfl

/-! ### Details and items -/

/-- The names of the fields that every item has. -/
def Item.commonNames : List String :=
  ["name", "description", "visibility", "keywords", "locations"]

/-- A detail is read from any value that has its fields. -/
lemma Detail.ofJson?_of_get? {detail : Detail} {value : Json}
    (h : ∀ name ∉ Item.commonNames, value.get? name = detail.jsonFields.lookup name) :
    Detail.ofJson? value detail.category = some detail := by
  simp only [Item.commonNames] at h
  cases detail with
  | data detail =>
    simp [ofJson?, category, h, jsonFields, List.lookup_cons, List.lookup_append,
      Json.optional?_map Json.text?_string, Json.optional?_map TypeExpr.ofJson?_toJson,
      Json.optional?_map VariableKind.ofJson?_name, Json.withDefault?_listValue?]
  | method detail =>
    simp [ofJson?, category, h, jsonFields, List.lookup_cons, List.lookup_append, Json.list?_ofList,
      Json.optional?_map Comment.ReturnNote.ofJson?_toJson]
  | computed detail =>
    simp [ofJson?, category, h, jsonFields, List.lookup_cons, List.lookup_append,
      Json.list?_ofList fun text _ => Json.text?_string text,
      Json.optional?_map TypeExpr.ofJson?_toJson]
  | event detail =>
    simp [ofJson?, category, h, jsonFields, List.lookup_cons,
      Json.list?_ofList fun text _ => Json.text?_string text]
  | slot parameters =>
    simp [ofJson?, category, h, jsonFields, Json.list?_ofList]
  | ref parent? => simp [ofJson?, category, h, jsonFields]
  | action parent? => simp [ofJson?, category, h, jsonFields]
  | component importPath => simp [ofJson?, category, h, jsonFields]

/-- No detail has a field of the name under which items have their places. -/
lemma Detail.lookup_locations (detail : Detail) : detail.jsonFields.lookup "locations" = none := by
  cases detail <;> simp [jsonFields, List.lookup_cons, List.lookup_append]

/-- A field that not all items have is found among those of the detail. -/
lemma Item.get?_toJson {name : String} (item : Item) (h : name ∉ commonNames) :
    item.toJson.get? name = item.detail.jsonFields.lookup name := by
  simp only [commonNames, List.mem_cons, List.not_mem_nil, or_false, not_or] at h
  simp [toJson, jsonFields, List.lookup_append, Json.lookup_cons_of_ne, h]

/-- An item is read back if it is read as one of its category. -/
@[simp] lemma Item.ofJson?_toJson (item : Item) :
    Item.ofJson? item.category item.toJson = some item := by
  have hdetail : Detail.ofJson? item.toJson item.category = some item.detail :=
    Detail.ofJson?_of_get? fun _ h => item.get?_toJson h
  rw [ofJson?, hdetail]
  simp [toJson, jsonFields, List.lookup_cons, List.lookup_append, Detail.lookup_locations,
    Json.list?_ofList, Json.withDefault?_listValue?]

/-! ### Documents -/

namespace Document

/-- Whether every item stands in the list of its category. -/
def IsSorted (document : Document) : Prop :=
  ∀ category items, document.items? category = some items →
    ∀ item ∈ items, item.category = category

/-- A list of items is found under the name of its category, if it is there. -/
lemma get?_toJson_items (document : Document) (category : Category) :
    document.toJson.get? category.name = (document.items? category).map (.ofList Item.toJson) := by
  cases category <;>
    simp [toJson, Category.all, Category.name, List.lookup_append]

/-- The lists of a sorted document are read back. -/
lemma IsSorted.optional?_items {document : Document} (h : document.IsSorted) (category : Category) :
    Json.optional? (list? (Item.ofJson? category)) (document.toJson.get? category.name) =
      some (document.items? category) := by
  rw [get?_toJson_items]
  cases hitems : document.items? category with
  | none => rfl
  | some items =>
    have hread : ∀ item ∈ items, Item.ofJson? category item.toJson = some item := by
      intro item hitem
      rw [← h category items hitems item hitem, item.ofJson?_toJson]
    rw [Option.map_some, Json.optional?, Json.list?_ofList hread, Option.map_some]

/-- The name of a component is found in its document, if it is there. -/
lemma get?_toJson_name (document : Document) :
    document.toJson.get? "name" = document.name?.map .string := by
  simp [toJson, Category.all, Category.name, List.lookup_append]

/-- The description of a component is found in its document, if it is there. -/
lemma get?_toJson_description (document : Document) :
    document.toJson.get? "description" = document.description?.map .string := by
  simp [toJson, Category.all, Category.name, List.lookup_append]

/-- The keywords of a component are found in its document, if they are there. -/
lemma get?_toJson_keywords (document : Document) :
    document.toJson.get? "keywords" = document.keywords?.map (.ofList Keyword.toJson) := by
  simp [toJson, Category.all, Category.name, List.lookup_append]

/-- The lists of a sorted document are read back together. -/
lemma IsSorted.mapM_items {document : Document} (h : document.IsSorted) :
    (Category.all.mapM fun category => do
      return (category, ← Json.optional? (list? (Item.ofJson? category))
        (document.toJson.get? category.name))) =
      some (Category.all.map fun category => (category, document.items? category)) := by
  simp only [h.optional?_items]
  exact List.mapM_pure

/-- A sorted document is read back. -/
theorem ofJson?_toJson {document : Document} (h : document.IsSorted) :
    Document.ofJson? document.toJson = some document := by
  have hkeywords : ∀ keywords : List Keyword,
      list? Keyword.ofJson? (.ofList Keyword.toJson keywords) = some keywords :=
    fun _ => Json.list?_ofList fun keyword _ => keyword.ofJson?_toJson
  have hitems : (fun category => ((Category.all.map fun category =>
      (category, document.items? category)).lookup category).join) = document.items? := by
    funext category
    have hmem : category ∈ Category.all := by cases category <;> decide
    rw [List.lookup_graph document.items? hmem, Option.join_some]
  rw [ofJson?, h.mapM_items, get?_toJson_name, get?_toJson_description, get?_toJson_keywords,
    Json.optional?_map Json.text?_string, Json.optional?_map Json.text?_string,
    Json.optional?_map hkeywords]
  simp [hitems]

end Document

end ComponentApi
