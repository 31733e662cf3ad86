import ComponentApi.Json.Reader
import ComponentApi.Json.Record
import ComponentApi.Options.Basic

/-!
# Options as JSON

Options are read from a record; fields that it does not give have their default values.
-/

namespace ComponentApi

/-- A visibility by its word, which may also stand as the only field of an object, with null. -/
def Visibility.ofJson? : Json → Option Visibility
  | .string word => ofName? word
  | .object [(word, .null)] => ofName? word
  | _ => none

/-- Default visibilities as a record. -/
def DefaultVisibilities.ofJson? (value : Json) : Option DefaultVisibilities := do
  match ← value.record? ["method", "action"] with
  | [method, action] =>
    return {
      method? := ← Json.withDefault? none (Json.orNull? Visibility.ofJson?) method
      action? := ← Json.withDefault? none (Json.orNull? Visibility.ofJson?) action }
  | _ => none

/-- Options as a record. -/
def Options.ofJson? (value : Json) : Option Options := do
  let default : Options := {}
  match ← value.record?
      ["features", "includeSourceLocations", "defaultVisibilities", "ignoredVisibilities"] with
  | [features, includeLocations, defaultVisibilities, ignoredVisibilities] =>
    return {
      features := ← Json.withDefault? default.features (Json.list? Json.text?) features
      includeLocations := ←
        Json.withDefault? default.includeLocations Json.bool? includeLocations
      defaultVisibilities := ←
        Json.withDefault? default.defaultVisibilities DefaultVisibilities.ofJson?
          defaultVisibilities
      ignoredVisibilities := ←
        Json.withDefault? default.ignoredVisibilities (Json.list? Json.text?)
          ignoredVisibilities }
  | _ => none

/-- Options as a text of JSON. -/
def Options.parse? (text : String) : Option Options :=
  (Json.parse? text).bind ofJson?

end ComponentApi
