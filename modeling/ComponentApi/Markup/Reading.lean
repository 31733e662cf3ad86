import ComponentApi.Markup.Symbols

/-!
# Reading markup

The events of a template are taken one by one. Tags are gathered, and each is read when it is
complete. A failure in an attribute ends the reading of tags; what was found before it stays.
-/

namespace ComponentApi

namespace Markup

/-- The state of reading a template. -/
structure Visit where
  found : Extraction
  /-- The content of the last comment, while it can document the next tag. -/
  comment? : Option Span := none
  /-- Whether no tag has been read yet. -/
  beforeFirst : Bool := true
  /-- Whether the content of a tag with raw text is being read. -/
  inRawText : Bool := false
  tag? : Option Tag := none
  /-- The attribute that is being read. -/
  pending? : Option Attribute := none
  failure? : Option Failure := none
  deriving Inhabited

/-- What is found in attributes, up to the first failure. -/
def extractAttributes (template : Template) (comment? : Option Span) (tag : List Char)
    (found : Extraction) : List Attribute → Extraction × Option Failure
  | [] => (found, none)
  | attr :: rest =>
    match extractAttribute template comment? tag found attr with
    | .ok found => extractAttributes template comment? tag found rest
    | .error failure => (found, some failure)

/-- What is found in a tag that ends at the position, up to the first failure. -/
def extractTag (template : Template) (comment? : Option Span) (tag : Tag) (stop : Nat)
    (found : Extraction) : Extraction × Option Failure :=
  let name := template.slice tag.name
  let found :=
    if name == "slot".toList then found.emit (slotItem template comment? tag stop) else found
  extractAttributes template comment? name found tag.attributes

/-- What is found in the comment in front of the first tag: the overview of the component, if there
is none yet. -/
def extractOverview (template : Template) (comment? : Option Span) (found : Extraction) :
    Extraction :=
  if comment?.isSome && found.overview?.isNone then
    { found with overview? := some (template.comment comment? .public) }
  else found

namespace Visit

/-- Whether the tag holds a script or a style, which are not read as markup. -/
def isSkipped (name : List Char) : Bool :=
  Text.equalIgnoringCase name "script".toList || Text.equalIgnoringCase name "style".toList

/-- The visit after a tag has been read, unless a failure came before. -/
def readTag (visit : Visit) (template : Template) (tag : Tag) (stop : Nat) : Visit :=
  if visit.failure?.isSome then visit
  else
    let found :=
      if visit.beforeFirst then extractOverview template visit.comment? visit.found
      else visit.found
    let (found, failure?) := extractTag template visit.comment? tag stop found
    { visit with found, failure?, beforeFirst := false }

/-- The visit after the end of an opening tag. -/
def endTag (visit : Visit) (template : Template) (stop : Nat) (selfClosing : Bool) : Visit :=
  match visit.tag? with
  | none => visit
  | some tag =>
    let name := template.slice tag.name
    let visit := { visit with tag? := none }
    if isSkipped name then { visit with inRawText := !selfClosing }
    else
      let inRawText := visit.inRawText || (Text.isRawTextTag name && !selfClosing)
      { ({ visit with inRawText }).readTag template tag stop with comment? := none }

/-- The visit after an event. -/
def step (template : Template) (visit : Visit) : Event → Visit
  | .text span =>
    if !visit.inRawText && !Text.isMarkupBlankText (template.slice span) then
      { visit with comment? := none }
    else visit
  | .mustache _ => { visit with comment? := none }
  | .comment span => { visit with comment? := some span }
  | .openName span => { visit with tag? := some { name := span } }
  | .attributeName span => { visit with pending? := some { name := span } }
  | .attributeValue span => { visit with pending? := visit.pending?.map (·.extend span) }
  | .attributeEnd quote _ =>
    match visit.pending? with
    | some attr =>
      { visit with
        pending? := none
        tag? := visit.tag?.map fun tag =>
          { tag with attributes := tag.attributes ++ [{ attr with quote }] } }
    | none => visit
  | .openEnd position => visit.endTag template position false
  | .selfClose position => visit.endTag template position true
  | .close span =>
    if Text.isRawTextTag (template.slice span) then { visit with inRawText := false }
    else if visit.inRawText then visit
    else { visit with comment? := none }
  | .finish => visit

end Visit

end Markup

/-- What is found when a template that starts at the offset is read too, and the failure that ended
the reading, if there was one. -/
def Extraction.readMarkup (found : Extraction) (template : List Char) (offset : Nat) :
    Extraction × Option Failure :=
  let visit := (Markup.events template).foldl (Markup.Visit.step ⟨template, offset⟩) { found }
  (visit.found, visit.failure?)

end ComponentApi
