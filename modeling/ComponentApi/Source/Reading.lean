import ComponentApi.Json.Record
import ComponentApi.Source.Basic

/-!
# Sources as JSON

A source is read from a record; of a script block only the content must be given.
-/

namespace ComponentApi

/-- A script block as a record. -/
def ScriptBlock.ofJson? (value : Json) : Option ScriptBlock := do
  match ← value.record? ["content", "attributes", "offset"] with
  | [some content, attributes, offset] =>
    return {
      content := ← content.text?
      attributes := ← Json.withDefault? "" Json.text? attributes
      offset := ← Json.withDefault? 0 Json.word? offset }
  | _ => none

/-- A source as a record. -/
def Source.ofJson? (value : Json) : Option Source := do
  match ← value.record? ["fileName", "template", "templateOffset", "scripts"] with
  | [fileName, template, templateOffset, scripts] =>
    return {
      fileName? := ← Json.withDefault? none (Json.orNull? Json.text?) fileName
      template := ← Json.withDefault? "" Json.text? template
      templateOffset := ← Json.withDefault? 0 Json.word? templateOffset
      scripts := ← Json.withDefault? [] (Json.list? ScriptBlock.ofJson?) scripts }
  | _ => none

end ComponentApi
