import ComponentApi.Comment.Signature
import ComponentApi.Proofs.TypeExpr.Annotations

/-!
# Parameters that are written and read

The text of a keyword `@param` gives a type in braces, the name of a parameter, in brackets if it
may be left out, and a description after a hyphen. Dots that mark a repeated parameter stand before
the type or before the name. What makes the parts readable is part of them.

`parseParam_print` says that reading a written parameter gives back what was written, whichever
parts there are. A default ends with the first closing bracket, and `parseParam_default_iff` says
that one that holds such a bracket is cut there, and is never read as it was written.
-/

namespace ComponentApi.Comment

open Text TypeExpr

/-! ### Written parameters -/

/-- The text, behind dots if the parameter is repeated. -/
def dotted (repeated : Bool) (text : List Char) : List Char :=
  if repeated then dots ++ text else text

/-- A type that may stand in the braces of a keyword. -/
structure BracedType where
  text : List Char
  trimmed : trim text = text
  braceable : Braceable text
  undotted : ¬ dots <+: text
  /-- Whether dots stand before the type. -/
  repeated : Bool

/-- The name of a parameter. -/
structure ParamWord where
  text : List Char
  nonempty : text ≠ []
  solid : ∀ c ∈ text, isBlank c = false
  bare : ∀ c ∈ text.head?, c ∉ ['[', '-', '\x7b']
  undotted : ¬ dots <+: text

/-- The name of a parameter that may stand in brackets. -/
structure BracketedWord extends ParamWord where
  unassigned : '=' ∉ text
  unclosed : ']' ∉ text

/-- A default value. -/
structure DefaultText where
  text : List Char
  trimmed : trim text = text

/-- A name in brackets, with or without a default. -/
def bracket (name : List Char) : (default? : Option (List Char)) → List Char
  | none => '[' :: name ++ [']']
  | some default => '[' :: name ++ '=' :: default ++ [']']

/-- How the name of a parameter is written. -/
inductive NamePart where
  | bare (name : ParamWord)
  | bracketed (name : BracketedWord) (default? : Option DefaultText)
    (unclosed : ∀ default ∈ default?, ']' ∉ default.text)

/-- What a keyword `@param` is meant to say. -/
structure ParamText where
  type? : Option BracedType
  name : NamePart
  /-- Whether dots stand before the name. -/
  repeated : Bool
  description : List Char
  trimmed : trim description = description

/-- A type in braces with a blank behind them. -/
def BracedType.print (type : BracedType) : List Char :=
  '\x7b' :: dotted type.repeated type.text ++ "\x7d ".toList

/-- The name as it is written, in brackets with its default if it may be left out. -/
def NamePart.print (repeated : Bool) : NamePart → List Char
  | .bare name => dotted repeated name.text
  | .bracketed name default? _ =>
    bracket (dotted repeated name.text) (default?.map DefaultText.text)

/-- A description behind its hyphen. -/
def hyphened (description : List Char) : List Char :=
  " - ".toList ++ description

/-- The text of the keyword: the type, the name and the description. -/
def ParamText.print (param : ParamText) : List Char :=
  (param.type?.elim [] BracedType.print) ++ param.name.print param.repeated ++
    hyphened param.description

/-- The name alone. -/
def NamePart.word : NamePart → List Char
  | .bare name => name.text
  | .bracketed name _ _ => name.text

/-- Whether the parameter may be left out. -/
def NamePart.isOptional : NamePart → Bool
  | .bare _ => false
  | .bracketed .. => true

/-- The default that is given with the name. -/
def NamePart.default? : NamePart → Option DefaultText
  | .bare _ => none
  | .bracketed _ default? _ => default?

/-- What the written parameter says. -/
def ParamText.note (param : ParamText) : ParamNote where
  name := String.ofList param.name.word
  type? := param.type?.map fun type => TypeExpr.parse type.text
  optional := param.name.isOptional
  default? := param.name.default?.map fun default => String.ofList default.text
  description := String.ofList param.description
  repeated := param.type?.any BracedType.repeated || param.repeated

/-! ### Dots -/

section Dots

variable {text : List Char}

/-- Dots are dropped from a text exactly if they were put in front of it. -/
lemma dropStart?_dotted (h : ¬ dots <+: text) (repeated : Bool) :
    dropStart? dots (dotted repeated text) = if repeated then some text else none := by
  cases repeated with
  | true => exact dropStart?_append dots text
  | false =>
    apply Option.eq_none_iff_forall_ne_some.2
    intro rest hrest
    exact h ⟨rest, (dropStart?_eq_some_iff.1 hrest).symm⟩

/-- Dots in front of a trimmed text leave it trimmed. -/
lemma trim_dotted (h : trim text = text) (repeated : Bool) :
    trim (dotted repeated text) = dotted repeated text := by
  cases repeated with
  | false => exact h
  | true =>
    have htext : trimEnd text = text := by rw [← trim_eq_trimEnd (head?_of_trim_eq h), h]
    have hend := trimEnd_append_cons (by decide : isBlank '.' = false) ['.', '.'] text
    rw [htext] at hend
    exact (trim_eq_trimEnd (by rintro c ⟨⟩; decide)).trans hend

/-- Dots do not keep a text from standing in braces. -/
lemma braceable_dotted (h : Braceable text) (repeated : Bool) :
    Braceable (dotted repeated text) := by
  have hdot : ∀ {text}, Braceable text → Braceable ('.' :: text) :=
    Braceable.plain rfl (by decide) (by decide)
  cases repeated with
  | true => exact hdot (hdot (hdot h))
  | false => exact h

/-- What the text does not start with, it does not start with behind dots. -/
lemma head?_dotted {c : Char} (hdot : c ≠ '.') (h : text.head? ≠ some c) (repeated : Bool) :
    (dotted repeated text).head? ≠ some c := by
  cases repeated with
  | true =>
    rintro ⟨⟩
    exact hdot rfl
  | false => exact h

/-- A character other than a dot does not come in with the dots. -/
lemma notMem_dotted {c : Char} (hdot : c ≠ '.') (h : c ∉ text) (repeated : Bool) :
    c ∉ dotted repeated text := by
  cases repeated with
  | true => exact List.not_mem_append (by simp [dots, hdot]) h
  | false => exact h

/-- Dots in front of a text without blanks bring in no blanks. -/
lemma solid_dotted (h : ∀ c ∈ text, isBlank c = false) (repeated : Bool) :
    ∀ c ∈ dotted repeated text, isBlank c = false := by
  cases repeated with
  | true =>
    have hdot : isBlank '.' = false := by decide
    simpa [dotted, dots, hdot] using h
  | false => exact h

end Dots

/-! ### Reading the parts -/

/-- A type is read behind its dots. -/
lemma BracedType.paramType_append (type : BracedType) {rest : List Char}
    (hrest : ∀ c ∈ rest.head?, isBlank c = false) :
    paramType (type.print ++ rest) = (some (TypeExpr.parse type.text), type.repeated, rest) := by
  have hprint : type.print ++ rest =
      '\x7b' :: dotted type.repeated type.text ++ '\x7d' :: (' ' :: rest) := by
    simp [print]
  have hblank : trimStart (' ' :: rest) = rest :=
    (trimStart_append_of_blank (List.forall_mem_singleton.2 (by decide))).trans
      (trimStart_eq_self hrest)
  rw [hprint, paramType, (braceable_dotted type.braceable type.repeated).splitAnnotation?_eq,
    trim_dotted type.trimmed]
  dsimp only
  rw [dropStart?_dotted type.undotted, hblank]
  cases hrepeated : type.repeated <;> rfl

/-- A text that does not start with a brace gives no type. -/
lemma paramType_of_head? {text : List Char} (h : text.head? ≠ some '\x7b') :
    paramType text = (none, false, text) := by
  have hsplit : splitAnnotation? text = none := by
    rw [splitAnnotation?]
    rintro rest rfl
    exact h rfl
  rw [paramType, hsplit]

/-- A name does not start with a character that opens another part. -/
lemma ParamWord.head?_ne (name : ParamWord) {c : Char} (hc : c ∈ ['[', '-', '\x7b'])
    (repeated : Bool) :
    (dotted repeated name.text).head? ≠ some c := by
  apply head?_dotted
  · rintro rfl
    revert hc
    decide
  · exact fun hhead => name.bare c hhead hc

/-- A name is not empty, with or without dots. -/
lemma ParamWord.dotted_ne_nil (name : ParamWord) (repeated : Bool) :
    dotted repeated name.text ≠ [] := by
  cases repeated with
  | true => exact List.cons_ne_nil _ _
  | false => exact name.nonempty

/-- A bare name ends at the first blank. -/
lemma ParamWord.paramName_append (name : ParamWord) (repeated : Bool) {rest : List Char}
    (hrest : ∀ c ∈ rest.head?, isBlank c = true) :
    paramName (dotted repeated name.text ++ rest) =
      ⟨dotted repeated name.text, false, none, trimStart rest⟩ := by
  have hcut := cutAt_append (solid_dotted name.solid repeated) hrest
  have hstart : ∀ c ∈ ['[', '-', '\x7b'], (dotted repeated name.text).head? ≠ some c :=
    fun c hc => name.head?_ne hc repeated
  obtain ⟨first, more, hword⟩ := List.exists_cons_of_ne_nil (name.dotted_ne_nil repeated)
  rw [hword, List.cons_append] at hcut
  rw [hword] at hstart
  rw [hword, List.cons_append, paramName, hcut]
  · rintro text ⟨⟩
    exact hstart '[' (by decide) rfl
  · rintro text ⟨⟩
    exact hstart '-' (by decide) rfl

/-- A name in brackets ends with the first closing bracket. -/
lemma paramName_bracket {name : List Char} {default? : Option (List Char)} (hname : ']' ∉ name)
    (hassigned : '=' ∉ name) (hdefault : ∀ default ∈ default?, ']' ∉ default)
    (rest : List Char) :
    paramName (bracket name default? ++ rest) =
      ⟨trim name, true, default?.map trim, trimStart rest⟩ := by
  cases default? with
  | none =>
    have hprint : bracket name none ++ rest = '[' :: (name ++ ']' :: rest) := by
      simp [bracket]
    rw [hprint, paramName, splitOnce?_append hname]
    dsimp only
    rw [splitOnce?_eq_none hassigned]
    rfl
  | some default =>
    have hprint : bracket name (some default) ++ rest =
        '[' :: ((name ++ '=' :: default) ++ ']' :: rest) := by
      simp [bracket]
    have hclosed : ']' ∉ name ++ '=' :: default := by
      simpa [hname] using hdefault default rfl
    rw [hprint, paramName, splitOnce?_append hclosed]
    dsimp only
    rw [splitOnce?_append hassigned]
    rfl

/-- How a written name is read. -/
lemma NamePart.paramName_append (name : NamePart) (repeated : Bool) {rest : List Char}
    (hrest : ∀ c ∈ rest.head?, isBlank c = true) :
    paramName (name.print repeated ++ rest) =
      ⟨dotted repeated name.word, name.isOptional, name.default?.map DefaultText.text,
        trimStart rest⟩ := by
  cases name with
  | bare name => exact name.paramName_append repeated hrest
  | bracketed name default? unclosed =>
    have hclosed := notMem_dotted (by decide) name.unclosed repeated
    have hassigned := notMem_dotted (by decide) name.unassigned repeated
    have hdefault : ∀ default ∈ default?.map DefaultText.text, ']' ∉ default := by
      intro default hmem
      obtain ⟨written, hwritten, rfl⟩ := Option.map_eq_some_iff.1 hmem
      exact unclosed written hwritten
    have htrim : trim ∘ DefaultText.text = DefaultText.text := funext DefaultText.trimmed
    rw [print, paramName_bracket hclosed hassigned hdefault,
      trim_eq_self_of_solid (solid_dotted name.solid repeated), Option.map_map, htrim]
    rfl

/-- A hyphen is stripped from the trimmed text, so blanks around it do not matter. -/
lemma stripHyphen_congr {text other : List Char} (h : trim text = trim other) :
    stripHyphen text = stripHyphen other := by
  rw [stripHyphen, stripHyphen, h]

/-- Behind a hyphen stands the description. -/
lemma stripHyphen_hyphened (description : List Char) :
    stripHyphen (hyphened description) = trim description := by
  have hstart : trim (hyphened description) = '-' :: trimEnd (' ' :: description) := by
    have hfirst : trim (hyphened description) = trim ('-' :: ' ' :: description) :=
      trim_cons_of_blank (by decide) _
    rw [hfirst, trim_eq_trimEnd (by rintro c ⟨⟩; decide)]
    exact trimEnd_append_cons (by decide) [] (' ' :: description)
  have hdrop : dropStart ['-'] ('-' :: trimEnd (' ' :: description)) =
      trimEnd (' ' :: description) := rfl
  rw [stripHyphen, hstart, hdrop, trim_trimEnd, trim_cons_of_blank (by decide)]

/-- Trimming the end of a hyphened description leaves its hyphen. -/
lemma trimEnd_hyphened (description : List Char) :
    trimEnd (hyphened description) = ' ' :: '-' :: trimEnd (' ' :: description) :=
  trimEnd_append_cons (by decide) [' '] (' ' :: description)

/-- Only the description may lose blanks when the text of a keyword is trimmed. -/
lemma trim_append_hyphened {text : List Char} (hne : text ≠ [])
    (hfirst : ∀ c ∈ text.head?, isBlank c = false) (description : List Char) :
    trim (text ++ hyphened description) = text ++ trimEnd (hyphened description) := by
  have hhyphen := trimEnd_append_cons (by decide : isBlank '-' = false) (text ++ [' '])
    (' ' :: description)
  obtain ⟨c, rest, rfl⟩ := List.exists_cons_of_ne_nil hne
  rw [trim_eq_trimEnd (by rintro d ⟨⟩; exact hfirst c rfl), trimEnd_hyphened]
  simpa [hyphened] using hhyphen

/-- How the text of a keyword is read, part by part. -/
lemma parseParam_eq {text rest word : List Char} {type? : Option TypeExpr}
    {typeDots repeated : Bool} {part : ParamName} (htype : paramType (trim text) = (type?, typeDots, rest))
    (hname : paramName rest = part) (hword : part.name = dotted repeated word)
    (hundotted : ¬ dots <+: word) :
    parseParam text =
      { name := String.ofList word
        type? := type?
        optional := part.optional
        default? := part.default?.map String.ofList
        description := String.ofList (stripHyphen part.rest)
        repeated := typeDots || repeated } := by
  have hdots := dropStart?_dotted hundotted repeated
  unfold parseParam
  rw [htype]
  dsimp only
  rw [hname, hword, hdots]
  cases repeated <;> rfl

/-- What is printed for a name starts with a character that is neither a blank nor a brace. -/
lemma NamePart.exists_print (name : NamePart) (repeated : Bool) : ∃ c rest,
    name.print repeated = c :: rest ∧ isBlank c = false ∧ c ≠ '\x7b' := by
  cases name with
  | bare name =>
    obtain ⟨c, rest, hword⟩ := List.exists_cons_of_ne_nil (name.dotted_ne_nil repeated)
    have hstart := name.head?_ne (by decide : '\x7b' ∈ ['[', '-', '\x7b']) repeated
    have hsolid := solid_dotted name.solid repeated
    rw [hword] at hstart hsolid
    exact ⟨c, rest, hword, hsolid c List.mem_cons_self, fun hc => hstart (congrArg some hc)⟩
  | bracketed name default? _ => cases default? <;> exact ⟨'[', _, rfl, by decide, by decide⟩

/-- The type of a written parameter is found in front of the name. -/
lemma ParamText.paramType_print (param : ParamText) : paramType (trim param.print) =
    (param.type?.map fun type => TypeExpr.parse type.text, param.type?.any BracedType.repeated,
      param.name.print param.repeated ++ trimEnd (hyphened param.description)) := by
  obtain ⟨c, rest, hname, hblank, hc⟩ := param.name.exists_print param.repeated
  rw [print, hname]
  cases htype : param.type? with
  | none =>
    rw [Option.elim_none, List.nil_append, trim_append_hyphened (List.cons_ne_nil c rest)]
    · rw [paramType_of_head?]
      · rfl
      · exact fun hhead => hc (Option.some.inj hhead)
    · rintro d ⟨⟩
      exact hblank
  | some type =>
    have hne : type.print ++ c :: rest ≠ [] := List.append_ne_nil_of_right_ne_nil _ (by simp)
    rw [Option.elim_some, trim_append_hyphened hne, List.append_assoc, type.paramType_append]
    · rfl
    · rintro d ⟨⟩
      exact hblank
    · rintro d ⟨⟩
      decide

/-- Reading a written parameter gives back its name, its type, whether it stands in brackets, its
default, its description, and whether dots mark it as repeated. -/
theorem parseParam_print (param : ParamText) : parseParam param.print = param.note := by
  have htail : ∀ c ∈ (trimEnd (hyphened param.description)).head?, isBlank c = true := by
    rw [trimEnd_hyphened]
    rintro c ⟨⟩
    decide
  have hname := param.name.paramName_append param.repeated htail
  have hundotted : ¬ dots <+: param.name.word := by
    cases param.name with
    | bare name => exact name.undotted
    | bracketed name _ _ => exact name.undotted
  have hdescription : stripHyphen (trimStart (trimEnd (hyphened param.description))) =
      param.description := by
    rw [stripHyphen_congr (trim_trimStart _), stripHyphen_congr (trim_trimEnd _),
      stripHyphen_hyphened, param.trimmed]
  rw [parseParam_eq param.paramType_print hname rfl hundotted]
  dsimp only
  rw [hdescription, Option.map_map]
  rfl

/-- A repeated parameter with a quoted brace in its type, a default with a second equals sign and a
description that starts with a hyphen. -/
theorem parseParam_print_braces :
    let type : BracedType := {
      text := "'\x7d'|\x7ba\x7d".toList, trimmed := by decide, undotted := by decide, repeated := true
      braceable := @Braceable.quoted '\'' ['\x7d'] _ rfl (by decide) <|
        .plain rfl (by decide) (by decide) <|
          .braces (.plain rfl (by decide) (by decide) .nil) .nil }
    let name : BracketedWord := {
      text := ['n'], nonempty := by decide, solid := List.forall_mem_singleton.2 (by decide)
      bare := by rintro c ⟨⟩; decide
      undotted := by decide, unassigned := by decide, unclosed := by decide }
    let default : DefaultText := { text := "a = \"[\"".toList, trimmed := by decide }
    let param : ParamText := {
      type? := some type, name := .bracketed name (some default) (by decide), repeated := false
      description := "- or more".toList, trimmed := by decide }
    param.print = "\x7b...'\x7d'|\x7ba\x7d\x7d [n=a = \"[\"] - - or more".toList ∧
      parseParam param.print =
        { name := "n", type? := some (TypeExpr.parse type.text), optional := true
          default? := some "a = \"[\"", description := "- or more", repeated := true } := by
  intro type name default param
  exact ⟨by decide, (parseParam_print param).trans rfl⟩

/-! ### Defaults with brackets -/

/-- Behind the first closing bracket stands the description. -/
lemma parseParam_bracket (name : BracketedWord) {default : List Char} (hdefault : ']' ∉ default)
    (rest : List Char) :
    parseParam (bracket name.text (some default) ++ rest) =
      { name := String.ofList name.text
        type? := none
        optional := true
        default? := some (String.ofList (trim default))
        description := String.ofList (stripHyphen rest)
        repeated := false } := by
  have htrim : trim (bracket name.text (some default) ++ rest) =
      bracket name.text (some default) ++ trimEnd rest := by
    have hend := trimEnd_append_cons (by decide : isBlank ']' = false)
      ('[' :: name.text ++ '=' :: default) rest
    rw [trim_eq_trimEnd (by rintro c ⟨⟩; decide)]
    simpa [bracket] using hend
  have htype : paramType (trim (bracket name.text (some default) ++ rest)) =
      (none, false, bracket name.text (some default) ++ trimEnd rest) := by
    rw [htrim]
    exact paramType_of_head? nofun
  have hclosed : ∀ text ∈ some default, ']' ∉ text := by
    rintro _ ⟨⟩
    exact hdefault
  have hname := paramName_bracket name.unclosed name.unassigned hclosed (trimEnd rest)
  rw [trim_eq_self_of_solid name.solid] at hname
  have hword : name.text = dotted false name.text := rfl
  rw [parseParam_eq htype hname hword name.undotted, stripHyphen_congr (trim_trimStart _),
    stripHyphen_congr (trim_trimEnd _)]
  rfl

/-- A default is cut at its first closing bracket, and what stands behind that belongs to the
description. -/
lemma parseParam_cut (name : BracketedWord) {default before after : List Char}
    (hdefault : default = before ++ ']' :: after) (hbefore : ']' ∉ before)
    (description : List Char) :
    parseParam (bracket name.text (some default) ++ hyphened description) =
      { name := String.ofList name.text
        type? := none
        optional := true
        default? := some (String.ofList (trim before))
        description := String.ofList (stripHyphen (after ++ ']' :: hyphened description))
        repeated := false } := by
  have htext : bracket name.text (some default) ++ hyphened description =
      bracket name.text (some before) ++ (after ++ ']' :: hyphened description) := by
    simp [bracket, hdefault]
  rw [htext, parseParam_bracket name hbefore]

/-- The square brackets of the text are balanced. -/
def SquaresBalanced (text : List Char) : Prop :=
  text.count ']' = text.count '[' ∧ ∀ before ∈ text.inits, before.count ']' ≤ before.count '['

instance : DecidablePred SquaresBalanced := fun text =>
  inferInstanceAs (Decidable (text.count ']' = text.count '[' ∧ _))

/-- A default is read as it was written exactly if it holds no closing bracket. At the first one it
is cut, and what stands behind that belongs to the description. -/
theorem parseParam_default_iff (name : BracketedWord) (default : DefaultText)
    (description : List Char) :
    let text := bracket name.text (some default.text) ++ hyphened description
    (parseParam text =
        { name := String.ofList name.text
          type? := none
          optional := true
          default? := some (String.ofList default.text)
          description := String.ofList (trim description)
          repeated := false } ↔ ']' ∉ default.text) ∧
      ∀ before after, default.text = before ++ ']' :: after → ']' ∉ before →
        parseParam text =
          { name := String.ofList name.text
            type? := none
            optional := true
            default? := some (String.ofList (trim before))
            description := String.ofList (stripHyphen (after ++ ']' :: hyphened description))
            repeated := false } := by
  intro text
  refine ⟨⟨?_, ?_⟩, ?_⟩
  · intro hread hmem
    obtain ⟨before, after, hdefault, hbefore⟩ := List.eq_append_cons_of_mem hmem
    have hcut := parseParam_cut name hdefault hbefore description
    have hsame : trim before = default.text := by
      have hstrings : String.ofList (trim before) = String.ofList default.text :=
        Option.some.inj (congrArg ParamNote.default? (hcut.symm.trans hread))
      simpa using congrArg String.toList hstrings
    -- The cut default is shorter.
    have hlength := length_trim_le before
    rw [hsame, hdefault, List.length_append, List.length_cons] at hlength
    omega
  · intro hdefault
    rw [parseParam_bracket name hdefault, default.trimmed, stripHyphen_hyphened]
  · intro before after hdefault hbefore
    exact parseParam_cut name hdefault hbefore description

/-- A list with one bracket in another is cut at the inner one. -/
theorem parseParam_default_iff_nested :
    let name : BracketedWord := {
      text := ['n'], nonempty := by decide, solid := List.forall_mem_singleton.2 (by decide)
      bare := by rintro c ⟨⟩; decide
      undotted := by decide, unassigned := by decide, unclosed := by decide }
    let default : DefaultText := { text := "[a[0], 1]".toList, trimmed := by decide }
    default.text = "[a[0".toList ++ ']' :: ", 1]".toList ∧ ']' ∉ "[a[0".toList ∧
      parseParam (bracket name.text (some default.text) ++ hyphened "what to show".toList) =
        { name := "n"
          type? := none
          optional := true
          default? := some "[a[0"
          description := ", 1]] - what to show"
          repeated := false } := by
  intro name default
  have hdefault : default.text = "[a[0".toList ++ ']' :: ", 1]".toList := by decide
  have hbefore : ']' ∉ "[a[0".toList := by decide
  obtain ⟨-, hcut⟩ := parseParam_default_iff name default "what to show".toList
  exact ⟨hdefault, hbefore, (hcut _ _ hdefault hbefore).trans rfl⟩

/-- An empty list is not read as a default. -/
theorem not_parseParam_default_list :
    ¬ ∀ (name : BracketedWord) (default : DefaultText) (description : List Char),
      '[' ∈ default.text → ']' ∈ default.text → SquaresBalanced default.text →
      trim description = description →
      parseParam (bracket name.text (some default.text) ++ hyphened description) =
        { name := String.ofList name.text
          type? := none
          optional := true
          default? := some (String.ofList default.text)
          description := String.ofList description
          repeated := false } := by
  intro hread
  let name : BracketedWord := {
    text := ['n'], nonempty := by decide, solid := List.forall_mem_singleton.2 (by decide)
    bare := by rintro c ⟨⟩; decide
    undotted := by decide, unassigned := by decide, unclosed := by decide }
  have hlist := hread name ⟨"[]".toList, by decide⟩ "d".toList (by decide) (by decide) (by decide)
    (by decide)
  have hdefault := congrArg ParamNote.default? hlist
  revert hdefault
  decide

end ComponentApi.Comment
