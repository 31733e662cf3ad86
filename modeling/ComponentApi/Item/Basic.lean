import ComponentApi.Comment.Signature
import ComponentApi.Text.Position

/-!
# Items

An item records one documented symbol of a component: what every symbol has (a name, a
description, a visibility, keywords and the places where it occurs) and a detail that depends on
what kind of symbol it is.
-/

namespace ComponentApi

/-- The kinds of symbols, each with a list of its own in a document. -/
inductive Category where
  | data
  | computed
  | methods
  | actions
  | events
  | slots
  | refs
  | components
  deriving DecidableEq, Repr, Inhabited

namespace Category

/-- All categories, in the order of a document. -/
def all : List Category :=
  [.data, .computed, .methods, .actions, .events, .slots, .refs, .components]

/-- The word for a category. -/
def name : Category → String
  | .data => "data"
  | .computed => "computed"
  | .methods => "methods"
  | .actions => "actions"
  | .events => "events"
  | .slots => "slots"
  | .refs => "refs"
  | .components => "components"

/-- The category that a word names. -/
def ofName? (word : String) : Option Category :=
  all.find? fun c => c.name == word

end Category

/-- The word that declares a variable. -/
inductive VariableKind where
  | «var»
  | «let»
  | const
  deriving DecidableEq, Repr, Inhabited

namespace VariableKind

/-- The word itself. -/
def name : VariableKind → String
  | .var => "var"
  | .let => "let"
  | .const => "const"

/-- The kind that a word names. -/
def ofName? : String → Option VariableKind
  | "var" => some .var
  | "let" => some .let
  | "const" => some .const
  | _ => none

end VariableKind

/-- A binding of a variable to a property of a child element. -/
structure Binding where
  source : String
  property : String
  deriving DecidableEq, Repr, Inhabited

/-- State of a component: a declared variable, an import or a bound property. -/
structure DataDetail where
  /-- Nothing for imports and for bindings in markup. -/
  kind? : Option VariableKind := none
  shared : Bool := false
  readonly : Bool := false
  type? : Option TypeExpr := none
  default? : Option String := none
  importPath? : Option String := none
  /-- The name that an import has in the module it comes from. -/
  remoteName? : Option String := none
  /-- The name that an exported variable has inside the component. -/
  localName? : Option String := none
  bindings : List Binding := []
  deriving Repr, Inhabited

/-- A parameter of a method. -/
structure MethodParam where
  name : String
  type : TypeExpr := .any
  optional : Bool := false
  default? : Option String := none
  description : String := ""
  repeated : Bool := false
  deriving Repr, Inhabited

/-- A function that a script declares. -/
structure MethodDetail where
  params : List MethodParam := []
  return? : Option Comment.ReturnNote := none
  shared : Bool := false
  deriving Repr, Inhabited

/-- A value that is computed anew whenever what it depends on changes. -/
structure ComputedDetail where
  dependencies : List String := []
  type? : Option TypeExpr := none
  shared : Bool := false
  deriving Repr, Inhabited

/-- An event that the component dispatches, or forwards from a child. -/
structure EventDetail where
  parent? : Option String := none
  modifiers : List String := []
  deriving Repr, Inhabited

/-- A value that a slot hands to what fills it. -/
structure SlotParameter where
  name : String
  description : String := ""
  visibility : Visibility := .public
  type : TypeExpr := .any
  keywords : List Keyword := []
  deriving Repr, Inhabited

/-- What an item records beyond what all items have. -/
inductive Detail where
  | data (detail : DataDetail)
  | method (detail : MethodDetail)
  | computed (detail : ComputedDetail)
  | event (detail : EventDetail)
  | slot (parameters : List SlotParameter)
  | ref (parent? : Option String)
  | action (parent? : Option String)
  | component (importPath : String)
  deriving Repr, Inhabited

/-- The category of a detail. -/
def Detail.category : Detail → Category
  | .data _ => .data
  | .method _ => .methods
  | .computed _ => .computed
  | .event _ => .events
  | .slot _ => .slots
  | .ref _ => .refs
  | .action _ => .actions
  | .component _ => .components

/-- One documented symbol. -/
structure Item where
  name : String
  description : String := ""
  visibility : Visibility := .private
  keywords : List Keyword := []
  locations : List Span := []
  detail : Detail
  deriving Repr, Inhabited

namespace Item

/-- The item of a symbol that occurs at one place and that a comment documents. -/
def documented (name : String) (detail : Detail) (doc : DocComment) (location : Span) : Item :=
  { name, detail, description := doc.description, visibility := doc.visibility,
    keywords := doc.keywords, locations := [location] }

/-- The category of an item. -/
def category (item : Item) : Category :=
  item.detail.category

/-- The tag that an event, a reference or an action belongs to. -/
def parent? (item : Item) : Option String :=
  match item.detail with
  | .event detail => detail.parent?
  | .ref parent? => parent?
  | .action parent? => parent?
  | _ => none

/-- The name that a data item has inside the component, if it is exported under another one. -/
def localName? (item : Item) : Option String :=
  match item.detail with
  | .data detail => detail.localName?
  | _ => none

end Item

end ComponentApi
