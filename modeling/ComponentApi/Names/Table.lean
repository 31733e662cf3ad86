import ComponentApi.Names.Declaration

/-!
# The names of a component

The names that the scripts of a component declare at their top level, and those of them that
dispatch events or make dispatchers.
-/

namespace ComponentApi

/-- The module that exports the function that makes dispatchers. -/
def dispatcherModule : String := "svelte"

/-- The function that makes dispatchers. -/
def dispatcherFactory : String := "createEventDispatcher"

/-- The names of a component. -/
structure NameTable where
  declarations : Assoc String Declaration := []
  /-- The names of functions that make dispatchers. -/
  factories : List String := [dispatcherFactory]
  /-- The names of functions that dispatch events. -/
  dispatchers : List String := []
  deriving Inhabited

namespace NameTable

/-- What a name was declared as last. -/
def declaration? (names : NameTable) (name : String) : Option Declaration :=
  names.declarations.get? name

/-- The table with one more declaration, which replaces an earlier one of the same name. -/
def record (names : NameTable) (name : String) (declaration : Declaration) : NameTable :=
  { names with declarations := names.declarations.put name declaration }

/-- The string that a path of names leads to. -/
def resolve? (names : NameTable) (path : List String) : Option String :=
  Declaration.resolvePath? names.declaration? path

/-- The table in which a name is known to make dispatchers. -/
def addFactory (names : NameTable) (name : String) : NameTable :=
  if names.factories.contains name then names
  else { names with factories := name :: names.factories }

/-- Whether a name makes dispatchers. -/
def isFactory (names : NameTable) (name : String) : Bool :=
  names.factories.contains name

/-- The table in which a name is known to dispatch events. -/
def addDispatcher (names : NameTable) (name : String) : NameTable :=
  if names.dispatchers.contains name then names
  else { names with dispatchers := name :: names.dispatchers }

/-- Whether a name dispatches events, itself or as an alias of one that does. -/
def isDispatcher (names : NameTable) (name : String) : Bool :=
  names.dispatchers.contains name ||
    match names.declaration? name with
    | some (.alias [target]) => names.dispatchers.contains target
    | _ => false

end NameTable

end ComponentApi
