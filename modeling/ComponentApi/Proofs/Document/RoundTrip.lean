import ComponentApi.Component
import ComponentApi.Proofs.Document.Reading
import ComponentApi.Proofs.Json.RoundTrip

/-!
# The text of a document

Nothing is lost in the text of a document. What is written is a plain value, so it is read as that
value, and from the value comes back the document (`parse?_pretty_toJson`). All that is asked of the
document is that its items stand in the lists of their categories. They do so in every document that
a report has (`Source.parse?_of_report`).
-/

namespace ComponentApi

/-! ### What is written is plain -/

namespace Json

/-- Whether the values of all fields are plain. -/
def ArePlain (fields : List (String × Json)) : Prop :=
  ∀ field ∈ fields, field.2.IsPlain

/-- Truth values are plain. -/
@[simp] lemma isPlain_bool (value : Bool) : (bool value).IsPlain := .bool value

/-- Natural numbers are plain. -/
@[simp] lemma isPlain_ofNat (n : Nat) : (ofNat n).IsPlain := .ofNat n

/-- Strings are plain. -/
@[simp] lemma isPlain_string (text : String) : (string text).IsPlain := .string text

/-- A text is plain, and so is the null that stands for a missing one. -/
@[simp] lemma isPlain_ofText? (text? : Option String) : (ofText? text?).IsPlain := by
  cases text? with
  | none => exact .null
  | some text => exact .string text

/-- An array is plain exactly if all its items are. -/
@[simp] lemma isPlain_array (items : List Json) :
    (array items).IsPlain ↔ ∀ item ∈ items, item.IsPlain :=
  ⟨fun | .array h => h, .array⟩

/-- An object is plain exactly if all its fields are. -/
@[simp] lemma isPlain_object (fields : List (String × Json)) :
    (object fields).IsPlain ↔ ArePlain fields :=
  ⟨fun | .object h => h, .object⟩

/-- Without fields, nothing is left to be plain. -/
@[simp] lemma arePlain_nil : ArePlain [] := nofun

/-- Fields are plain exactly if the first one is and the others are. -/
@[simp] lemma arePlain_cons (field : String × Json) (fields : List (String × Json)) :
    ArePlain (field :: fields) ↔ field.2.IsPlain ∧ ArePlain fields :=
  List.forall_mem_cons

/-- Fields one after the other are plain exactly if those on both sides are. -/
@[simp] lemma arePlain_append (fields more : List (String × Json)) :
    ArePlain (fields ++ more) ↔ ArePlain fields ∧ ArePlain more :=
  List.forall_mem_append

variable {α : Type} {write : α → Json}

/-- A list of values that are written as plain ones is plain. -/
lemma isPlain_ofList (h : ∀ item, (write item).IsPlain) (items : List α) :
    (ofList write items).IsPlain := by
  simp [ofList, h]

/-- A field that may be missing is plain if its value is written as a plain one. -/
lemma arePlain_field? (h : ∀ value, (write value).IsPlain) (name : String) (value? : Option α) :
    ArePlain (field? name write value?) := by
  cases value? with
  | none => exact arePlain_nil
  | some value => simp [field?, h]

/-- A field with a list is plain if its items are written as plain values. -/
lemma arePlain_listField? (h : ∀ item, (write item).IsPlain) (name : String) (items : List α) :
    ArePlain (listField? name write items) := by
  cases items with
  | nil => exact arePlain_nil
  | cons item items => simp [listField?, isPlain_ofList h]

end Json

open Json (isPlain_string isPlain_ofList arePlain_field? arePlain_listField?)

mutual

/-- Types are written as plain values. -/
@[simp] lemma TypeExpr.isPlain_toJson : ∀ type : TypeExpr, type.toJson.IsPlain
  | .named text name => by simp [toJson]
  | .constant text value name => by simp [toJson]
  | .union text alternatives => by simpa [toJson] using TypeExpr.isPlain_toJsonList alternatives

/-- The alternatives of a union are written as plain values. -/
lemma TypeExpr.isPlain_toJsonList : ∀ types : List TypeExpr,
    ∀ value ∈ TypeExpr.toJson.toJsonList types, value.IsPlain
  | [] => nofun
  | type :: rest =>
    List.forall_mem_cons.2 ⟨type.isPlain_toJson, TypeExpr.isPlain_toJsonList rest⟩

end

/-- Keywords are written as plain values. -/
@[simp] lemma Keyword.isPlain_toJson (keyword : Keyword) : keyword.toJson.IsPlain := by
  simp [toJson]

/-- Places are written as plain values. -/
lemma Span.isPlain_toJson (span : Span) : span.toJson.IsPlain := by
  simp [toJson]

/-- Bindings are written as plain values. -/
lemma Binding.isPlain_toJson (binding : Binding) : binding.toJson.IsPlain := by
  simp [toJson]

/-- Parameters of methods are written as plain values. -/
lemma MethodParam.isPlain_toJson (param : MethodParam) : param.toJson.IsPlain := by
  simp [toJson, arePlain_field? isPlain_string]

/-- What methods return is written as a plain value. -/
lemma Comment.ReturnNote.isPlain_toJson (note : Comment.ReturnNote) : note.toJson.IsPlain := by
  simp [toJson]

/-- Parameters of slots are written as plain values. -/
lemma SlotParameter.isPlain_toJson (parameter : SlotParameter) : parameter.toJson.IsPlain := by
  simp [toJson, isPlain_ofList Keyword.isPlain_toJson]

/-- The fields of a detail are plain. -/
lemma Detail.arePlain_jsonFields (detail : Detail) : Json.ArePlain detail.jsonFields := by
  have hkind : ∀ kind : VariableKind, (Json.string kind.name).IsPlain :=
    fun kind => isPlain_string kind.name
  cases detail with
  | data detail =>
    simp [jsonFields, arePlain_field? hkind, arePlain_field? TypeExpr.isPlain_toJson,
      arePlain_field? isPlain_string, arePlain_listField? Binding.isPlain_toJson]
  | method detail =>
    simp [jsonFields, isPlain_ofList MethodParam.isPlain_toJson,
      arePlain_field? Comment.ReturnNote.isPlain_toJson]
  | computed detail =>
    simp [jsonFields, isPlain_ofList isPlain_string, arePlain_field? TypeExpr.isPlain_toJson]
  | event detail => simp [jsonFields, isPlain_ofList isPlain_string]
  | slot parameters => simp [jsonFields, isPlain_ofList SlotParameter.isPlain_toJson]
  | ref parent? => simp [jsonFields]
  | action parent? => simp [jsonFields]
  | component importPath => simp [jsonFields]

/-- Items are written as plain values. -/
lemma Item.isPlain_toJson (item : Item) : item.toJson.IsPlain := by
  simp [toJson, jsonFields, isPlain_ofList Keyword.isPlain_toJson,
    arePlain_listField? Span.isPlain_toJson, Detail.arePlain_jsonFields]

namespace Document

/-- Documents are written as plain values. -/
lemma isPlain_toJson (document : Document) : document.toJson.IsPlain := by
  have hlists : Json.ArePlain (Category.all.flatMap fun category =>
      Json.field? category.name (.ofList Item.toJson) (document.items? category)) := by
    intro field hfield
    obtain ⟨category, -, hfield⟩ := List.mem_flatMap.1 hfield
    exact arePlain_field? (isPlain_ofList Item.isPlain_toJson) _ _ field hfield
  simp [toJson, hlists, arePlain_field? isPlain_string,
    arePlain_field? (isPlain_ofList Keyword.isPlain_toJson)]

/-! ### Reading the text of a document -/

/-- The document that a text is written for. -/
def parse? (text : String) : Option Document :=
  (Json.parse? text).bind ofJson?

/-- A sorted document is read back from its text. -/
lemma parse?_pretty {document : Document} (h : document.IsSorted) :
    parse? document.toJson.pretty = some document := by
  rw [parse?, Json.parse?_pretty document.isPlain_toJson, Option.bind_some, ofJson?_toJson h]

/-- A sorted document is read back from its text, so no other one has the same text. -/
theorem parse?_pretty_toJson {document : Document} (h : document.IsSorted) :
    parse? document.toJson.pretty = some document ∧
      ∀ other : Document, other.IsSorted → other.toJson.pretty = document.toJson.pretty →
        other = document := by
  refine ⟨parse?_pretty h, ?_⟩
  intro other hother htext
  have hread := parse?_pretty hother
  rw [htext, parse?_pretty h] at hread
  exact (Option.some.inj hread).symm

/-- A document with an empty list of actions is told from the one without the list. Its texts hold a
control character, quotation marks and what looks like an escape. -/
theorem parse?_pretty_toJson_alike :
    let size : Item := {
      name := "size"
      description := "\u0000\"\\u0000\" \x7b é"
      detail := .data {
        type? := some (.union "'s'|\n" [.constant "'s'" "s", .named "\n" "", .union "" []]) } }
    let image : Item := { name := "image", locations := [⟨4, 9⟩], detail := .ref none }
    let requested : Document := {
      items? := fun
        | .data => some [size]
        | .refs => some [image]
        | .actions => some []
        | _ => none }
    let others : Document := { requested with
      items? := fun
        | .actions => none
        | category => requested.items? category }
    requested.IsSorted ∧ others.IsSorted ∧
      parse? requested.toJson.pretty = some requested ∧
      others.toJson.pretty ≠ requested.toJson.pretty := by
  intro size image requested others
  have hrequested : requested.IsSorted := by
    intro category items hitems
    cases category <;> cases hitems <;> decide
  have hothers : others.IsSorted := by
    intro category items hitems
    cases category <;> cases hitems <;> decide
  obtain ⟨hread, honly⟩ := parse?_pretty_toJson hrequested
  refine ⟨hrequested, hothers, hread, ?_⟩
  intro htext
  have hactions := congrArg (·.items? .actions) (honly others hothers htext)
  cases hactions

/-! ### Documents of reports -/

/-- An item is shown in its own category. -/
lemma category_present (settings : Settings) (item : Item) :
    (item.present settings).category = item.category := by
  obtain ⟨_, _, _, _, _, detail⟩ := item
  cases detail <;> rfl

/-- Every list of a catalog's document holds items of its category only. -/
lemma isSorted_catalog (catalog : Catalog) (settings : Settings) (overview? : Option DocComment)
    (name? : Option String) : (catalog.document settings overview? name?).IsSorted := by
  intro category items hitems item hitem
  simp only [Catalog.document] at hitems
  split_ifs at hitems
  cases hitems
  obtain ⟨merged, hmerged, rfl⟩ := List.mem_map.1 hitem
  have hkept := (List.mem_filter.1 hmerged).2
  rw [Bool.and_eq_true, decide_eq_true_eq] at hkept
  obtain ⟨hcategory, -⟩ := hkept
  rw [category_present, hcategory]

end Document

/-- The document of a report is read back from its text. -/
theorem Source.parse?_of_report {source : Source} {options : Options} {report : Report}
    (h : source.report options = .ok report) :
    report.document.IsSorted ∧
      Document.parse? report.document.toJson.pretty = some report.document := by
  obtain ⟨settings, found, -, -, rfl⟩ := report_eq_ok_iff.1 h
  have hsorted := Document.isSorted_catalog (Catalog.ofItems found.items) found.settings
    found.overview? source.componentName?
  exact ⟨hsorted, Document.parse?_pretty hsorted⟩

end ComponentApi
