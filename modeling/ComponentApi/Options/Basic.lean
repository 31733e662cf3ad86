import ComponentApi.Failure
import ComponentApi.Item.Basic

/-!
# Options

What a caller asks for, and the settings that follow from it once the names in it have been
checked.
-/

namespace ComponentApi

/-- A part of a document that can be asked for. -/
inductive Feature where
  | name
  | description
  | keywords
  | items (category : Category)
  deriving DecidableEq, Repr, Inhabited

namespace Feature

/-- All features, in the order of a document. -/
def all : List Feature :=
  [.name, .description, .keywords] ++ Category.all.map .items

/-- The word for a feature. -/
def word : Feature → String
  | .name => "name"
  | .description => "description"
  | .keywords => "keywords"
  | .items category => category.name

/-- The feature that a word names. -/
def ofWord? (word : String) : Option Feature :=
  all.find? fun f => f.word == word

end Feature

/-- The message of a failure. The message of a syntax error leaves room for what exactly is wrong
in the script. -/
def Failure.message : Failure → String
  | .unsupportedFeature name =>
    "unsupported feature `" ++ name ++ "`, expected one of: " ++
      ", ".intercalate (Feature.all.map Feature.word)
  | .unsupportedVisibility name =>
    "unsupported visibility `" ++ name ++
      "` in ignored visibilities, expected public, protected or private"
  | .syntaxError scope offset =>
    "syntax error in " ++ scope.name ++ " script at offset " ++ toString offset ++ ": "

/-- The visibilities of methods and actions whose comments name none. -/
structure DefaultVisibilities where
  method? : Option Visibility := none
  action? : Option Visibility := none
  deriving DecidableEq, Repr, Inhabited

/-- What a caller asks for. -/
structure Options where
  features : List String := Feature.all.map Feature.word
  includeLocations : Bool := false
  defaultVisibilities : DefaultVisibilities := {}
  ignoredVisibilities : List String := ["private", "protected"]
  deriving DecidableEq, Repr, Inhabited

/-- Checked options. -/
structure Settings where
  /-- The requested features, in the order of a document. -/
  features : List Feature := Feature.all
  includeLocations : Bool := false
  methodVisibility : Visibility := .private
  actionVisibility : Visibility := .private
  /-- The visibilities that are left out of a document, in the order of their first mention. -/
  ignored : List Visibility := []
  deriving DecidableEq, Repr, Inhabited

namespace Settings

/-- Whether items of the visibility are left out. -/
def ignores (settings : Settings) (visibility : Visibility) : Bool :=
  settings.ignored.contains visibility

/-- Whether a feature is requested. -/
def wants (settings : Settings) (feature : Feature) : Bool :=
  settings.features.contains feature

/-- The requested features as a binary number, one bit for each feature, the first feature in the
lowest. -/
def featureBits (settings : Settings) : Nat :=
  Feature.all.foldr (fun f bits => (if settings.wants f then 1 else 0) + 2 * bits) 0

end Settings

namespace Options

/-- The options that ask for the features, and ignore nothing. -/
def withFeatures (features : List String) : Options :=
  { features, ignoredVisibilities := [] }

/-- The features that the words name, or the first word that names none. -/
def checkFeatures : List String → Except Failure (List Feature)
  | [] => .ok []
  | word :: rest =>
    match Feature.ofWord? word with
    | none => .error (.unsupportedFeature word)
    | some feature => (checkFeatures rest).map (feature :: ·)

/-- The visibilities that the words name, each once, or the first word that names none; `seen`
holds those named before. -/
def checkVisibilities (seen : List Visibility) : List String → Except Failure (List Visibility)
  | [] => .ok seen
  | word :: rest =>
    match Visibility.ofName? word with
    | none => .error (.unsupportedVisibility word)
    | some visibility =>
      checkVisibilities (if seen.contains visibility then seen else seen ++ [visibility]) rest

/-- Checks the names in the options, features first. -/
def check (options : Options) : Except Failure Settings := do
  let features ← checkFeatures options.features
  let ignored ← checkVisibilities [] options.ignoredVisibilities
  return {
    features := Feature.all.filter features.contains
    includeLocations := options.includeLocations
    methodVisibility := options.defaultVisibilities.method?.getD .private
    actionVisibility := options.defaultVisibilities.action?.getD .private
    ignored }

end Options

end ComponentApi
