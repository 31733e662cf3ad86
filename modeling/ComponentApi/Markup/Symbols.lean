import ComponentApi.Markup.Scanner
import ComponentApi.Markup.Tag
import ComponentApi.Script.Reading

/-!
# Symbols of the markup

Slots, bindings, references, actions and events that a template shows. A comment documents the tag
after it if only blanks stand between them, and the comment in front of the first tag documents the
component as well. The tags of scripts and styles count as nothing.
-/

namespace ComponentApi.Markup

/-- The name of a slot without a name. -/
def defaultSlot : List Char := "default".toList

/-- A template and where it starts in the file. -/
structure Template where
  text : List Char
  offset : Nat
  deriving Inhabited

namespace Template

/-- The text of a span. -/
def slice (template : Template) (span : Span) : List Char :=
  span.slice template.text

/-- The place of a span in the file. -/
def location (template : Template) (span : Span) : Span :=
  span.shift template.offset

/-- A comment by the span of its content; one that says nothing if there is none. -/
def comment (template : Template) (comment? : Option Span) (default : Visibility) : DocComment :=
  match comment? with
  | some span => Comment.parse (template.slice span) default
  | none => .empty default

end Template

/-! ### Items -/

/-- An item for an attribute. -/
def attributeItem (template : Template) (attr : Attribute) (name : List Char) (detail : Detail)
    (doc : DocComment) : Item :=
  .documented (String.ofList name) detail doc (template.location attr.name)

/-- The variable at the root of the value of an attribute; nothing if there is none. -/
def valueRoot? (template : Template) (attr : Attribute) : Option (List Char) :=
  (attr.value?.map fun value =>
    Text.rootIdentifier (Text.stripMustache (template.slice value))).filter (!·.isEmpty)

/-- A parameter of a slot, with what a keyword `param` of the comment says of it. -/
def slotParameter (doc : DocComment) (name : List Char) : SlotParameter :=
  let note? := ((doc.keywordsNamed "param").map fun keyword =>
    Comment.parseParam keyword.description.toList).find? (·.name == String.ofList name)
  { name := String.ofList name
    type := (note?.bind (·.type?)).getD .any
    description := (note?.map (·.description)).getD "" }

/-- The name of a slot: that of the last attribute `name` with a value. -/
def slotName (template : Template) (attributes : List Attribute) : List Char :=
  attributes.foldl (fun name attr =>
    match attr.value? with
    | some value =>
      let given := Text.stripMustache (template.slice value)
      if template.slice attr.name == "name".toList && !given.isEmpty then given else name
    | none => name) defaultSlot

/-- The parameters of a slot: all attributes but the name. -/
def slotParameters (template : Template) (doc : DocComment) (attributes : List Attribute) :
    List SlotParameter :=
  ((attributes.map fun attr => template.slice attr.name).filter
    (· != "name".toList)).filterMap fun name =>
      let bare := Text.stripMustache name
      if bare.isEmpty then none else some (slotParameter doc bare)

/-- The item of a slot, whose tag ends at the position. -/
def slotItem (template : Template) (comment? : Option Span) (tag : Tag) (stop : Nat) : Item :=
  let doc := template.comment comment? .public
  .documented (String.ofList (slotName template tag.attributes))
    (.slot (slotParameters template doc tag.attributes)) doc
    (template.location ⟨tag.start, stop + 1⟩)

/-! ### Directives -/

/-- What is found in a binding of a property. -/
def extractBinding (template : Template) (comment? : Option Span) (tag : List Char)
    (attr : Attribute) (property : List Char) (found : Extraction) : Extraction :=
  if property.isEmpty then found
  else
    found.emit (attributeItem template attr ((valueRoot? template attr).getD property)
      (.data { bindings := [⟨String.ofList tag, String.ofList property⟩] })
      (template.comment comment? .private))

/-- What is found in a reference to an element. -/
def extractReference (template : Template) (comment? : Option Span) (tag : List Char)
    (attr : Attribute) (found : Extraction) : Extraction :=
  match valueRoot? template attr with
  | some target =>
    found.emit (attributeItem template attr target (.ref (some (String.ofList tag)))
      (template.comment comment? .private))
  | none => found

/-- What is found in an action. -/
def extractAction (template : Template) (comment? : Option Span) (tag : List Char)
    (attr : Attribute) (action : List Char) (found : Extraction) : Extraction :=
  if action.isEmpty then found
  else
    found.emit (attributeItem template attr action (.action (some (String.ofList tag)))
      (template.comment comment? found.settings.actionVisibility))

/-- Whether a further mention of a forwarded event adds nothing: only a public mention adds to one
that was not public. -/
def isRepeated (previous? : Option Visibility) (visibility : Visibility) : Bool :=
  match previous? with
  | some previous => !(visibility == .public && previous != .public)
  | none => false

/-- What is found in an event that is forwarded: its name, and modifiers after bars. -/
def extractForwarded (template : Template) (comment? : Option Span) (tag : List Char)
    (attr : Attribute) (directive : List Char) (found : Extraction) : Extraction :=
  match Text.pieces '|' directive with
  | [] | [] :: _ => found
  | event :: modifiers =>
    let doc := template.comment comment? .public
    let name := String.ofList event
    if isRepeated (found.forwarded.get? name) doc.visibility then found
    else
      let detail : EventDetail :=
        { parent? := some (String.ofList tag)
          modifiers := (modifiers.filter (!·.isEmpty)).map String.ofList }
      { found with forwarded := found.forwarded.put name doc.visibility }.emit
        (attributeItem template attr event (.event detail) doc)

/-- The expression of a handler and where it starts in the template: the value in braces without
them. A value in quotes must start with a brace. -/
def handler? (template : Template) (value : Span) (quote : Quote) : Option (List Char × Nat) :=
  let text := template.slice value
  let expression := Text.stripMustache text
  let isExpression := quote == .brace || (Text.trimStart text).head? == some '\x7b'
  if isExpression && !expression.isEmpty then
    some (expression, value.start + Text.mustacheStart text)
  else none

/-- What is found in a handler. -/
def extractHandler (template : Template) (value : Span) (quote : Quote) (found : Extraction) :
    Except Failure Extraction :=
  match handler? template value quote with
  | some (expression, start) => found.readInline expression (template.offset + start)
  | none => .ok found

/-- What is found in an attribute. -/
def extractAttribute (template : Template) (comment? : Option Span) (tag : List Char)
    (found : Extraction) (attr : Attribute) : Except Failure Extraction :=
  match Directive.ofName? (template.slice attr.name) with
  | some .reference => .ok (extractReference template comment? tag attr found)
  | some (.bind property) => .ok (extractBinding template comment? tag attr property found)
  | some (.on event) =>
    match attr.value? with
    | some value => extractHandler template value attr.quote found
    | none => .ok (extractForwarded template comment? tag attr event found)
  | some (.use action) => .ok (extractAction template comment? tag attr action found)
  | none => .ok found

end ComponentApi.Markup
