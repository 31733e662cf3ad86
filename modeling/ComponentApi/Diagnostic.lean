import ComponentApi.Text.Position

/-!
# Diagnostics

Things worth telling about a script that do not stop the work.
-/

namespace ComponentApi

/-- What a diagnostic is about. -/
inductive Issue where
  /-- The name of a dispatched event cannot be traced to a literal; the text of the argument that
  should give it. -/
  | unresolvedEventName (argument : String)
  /-- The comment of a dispatch call has a keyword `@event` without a name. -/
  | emptyEventKeyword
  deriving DecidableEq, Repr, Inhabited

namespace Issue

/-- The code of an issue. -/
def code : Issue → String
  | .unresolvedEventName _ => "unresolvedEventName"
  | .emptyEventKeyword => "emptyEventKeyword"

/-- The message of an issue. -/
def message : Issue → String
  | .unresolvedEventName argument => "cannot resolve dispatched event name `" ++ argument ++ "`"
  | .emptyEventKeyword => "`@event` keyword on a dispatch call has no event name"

end Issue

/-- An issue and the place of the dispatch call it is about. -/
structure Diagnostic where
  issue : Issue
  location : Span
  deriving DecidableEq, Repr, Inhabited

end ComponentApi
