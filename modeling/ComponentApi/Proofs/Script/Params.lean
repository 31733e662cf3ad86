import ComponentApi.Proofs.Script.FreeNames
import ComponentApi.Script.Params

/-!
# Parameters and their notes

The notes in the comment of a method go to the parameters that it declares, and those on other names
make parameters of their own. The first parameter of a name takes all notes on it, so the notes can
be handed out parameter by parameter instead of note by note (`foldl_annotateParams_cons`). The main
statement, `methodParams_complete_iff`, says which parameters a method has, and what each of them is
after all notes. A default is known only if it is a part of the pattern. One that is written beside
it is lost unless the notes repeat it.
-/

namespace ComponentApi

open Comment

/-! ### Notes on a name -/

/-- The notes on the parameter of the name. -/
def notesOn (notes : List ParamNote) (name : String) : List ParamNote :=
  notes.filter (·.name == name)

/-- The notes that are not on the parameter of the name. -/
def notesOff (notes : List ParamNote) (name : String) : List ParamNote :=
  notes.filter (·.name != name)

/-- The parameter with all that the notes on it say. The last type and the last description count,
and the first default, unless one is declared. -/
def MethodParam.completed (param : MethodParam) (notes : List ParamNote) : MethodParam where
  name := param.name
  type := (notes.reverse.findSome? (·.type?)).getD param.type
  optional := param.optional || notes.any (·.optional)
  default? := param.default? <|> notes.findSome? (·.default?)
  description := (notes.getLast?.map (·.description)).getD param.description
  repeated := param.repeated || notes.any (·.repeated)

/-- The notes that go to a parameter of the name behind `i` others: none, if one of these has the
name. -/
def notesAt (notes : List ParamNote) (names : List String) (i : Nat) (name : String) :
    List ParamNote :=
  if name ∈ names.take i then [] else notesOn notes name

/-- The notes say of a parameter what this default says. -/
def RepeatDefault (notes : List ParamNote) (default : String) : Prop :=
  (∃ note ∈ notes, note.optional = true) ∧ notes.findSome? (·.default?) = some default

/-- The parameters, of which the first of each name is completed by the notes on it. -/
def completeFirst (notes : List ParamNote) (params : List MethodParam) : List MethodParam :=
  params.mapIdx fun i param =>
    param.completed (notesAt notes (params.map (·.name)) i param.name)

/-- The parameter that is made of the notes on a name. -/
def noted (notes : List ParamNote) (name : String) : MethodParam :=
  MethodParam.completed { name } (notesOn notes name)

/-- The names that notes are on and that no parameter has, in the order in which the notes first
mention them. -/
def undeclaredNames (notes : List ParamNote) (params : List MethodParam) : List String :=
  (notes.map (·.name)).eraseDups.filter (· ∉ params.map (·.name))

/-- The parameters, completed by the notes, and behind them those that only the notes name. -/
def completeAll (notes : List ParamNote) (params : List MethodParam) : List MethodParam :=
  completeFirst notes params ++ (undeclaredNames notes params).map (noted notes)

/-- The notes of a comment that name a parameter. -/
def DocComment.paramNotes (doc : DocComment) : List ParamNote :=
  ((doc.keywordsNamed "param").map fun keyword =>
    parseParam keyword.description.toList).filter (·.name ≠ "")

section Notes

variable {notes : List ParamNote} {name other : String}

/-- The notes on a name are the first one, if it is on the name, and those behind it. -/
lemma notesOn_cons (note : ParamNote) (notes : List ParamNote) (name : String) :
    notesOn (note :: notes) name =
      if note.name = name then note :: notesOn notes name else notesOn notes name := by
  simp [notesOn, List.filter_cons]

/-- The notes on other names are the first one, unless it is on the name, and those behind it. -/
lemma notesOff_cons (note : ParamNote) (notes : List ParamNote) (name : String) :
    notesOff (note :: notes) name =
      if note.name = name then notesOff notes name else note :: notesOff notes name := by
  simp [notesOff, List.filter_cons]

/-- Leaving out the notes on another name keeps those on the name. -/
lemma notesOn_notesOff_of_ne (h : name ≠ other) :
    notesOn (notesOff notes other) name = notesOn notes name := by
  rw [notesOn, notesOff, List.filter_filter]
  refine List.filter_congr fun note _ => ?_
  by_cases hname : note.name = name
  · simp [hname, h]
  · simp [hname]

/-- Leaving out the notes on a name leaves none on it. -/
lemma notesOn_notesOff_self : notesOn (notesOff notes name) name = [] := by
  rw [notesOn, notesOff, List.filter_filter, List.filter_eq_nil_iff]
  intro note _
  simp

/-- Behind the first parameter only the notes that are not on it are left. -/
lemma notesAt_cons (notes : List ParamNote) (first : String) (names : List String) (i : Nat)
    (name : String) :
    notesAt notes (first :: names) (i + 1) name = notesAt (notesOff notes first) names i name := by
  unfold notesAt
  rw [List.take_succ_cons]
  by_cases hname : name = first
  · rw [if_pos (hname ▸ List.mem_cons_self), hname, notesOn_notesOff_self, ite_self]
  · simp only [List.mem_cons, hname, false_or, notesOn_notesOff_of_ne hname]

/-- Without notes, a parameter stays as it is. -/
lemma MethodParam.completed_nil (param : MethodParam) : param.completed [] = param := by
  simp [completed]

/-- A note does not rename the parameter. -/
@[simp] lemma MethodParam.annotate_name (param : MethodParam) (note : ParamNote) :
    (param.annotate note).name = param.name := rfl

/-- Notes complete an annotated parameter as they do behind the note. -/
lemma MethodParam.completed_annotate (param : MethodParam) (note : ParamNote)
    (notes : List ParamNote) :
    (param.annotate note).completed notes = param.completed (note :: notes) := by
  simp only [completed, annotate, MethodParam.mk.injEq, true_and]
  refine ⟨?_, ?_, ?_, ?_, ?_⟩
  · cases htype : note.type? <;> simp [htype]
  · simp [Bool.or_assoc]
  · cases param.default? <;> cases hdefault : note.default? <;> simp [hdefault]
  · simp [List.getLast?_cons]
  · simp [Bool.or_assoc]

end Notes

/-! ### Handing out the notes -/

section Annotate

variable {notes : List ParamNote} {note : ParamNote} {param : MethodParam}
  {params rest : List MethodParam}

/-- A note goes to the first parameter of its name. -/
lemma annotateParams_cons (h : note.name ≠ "") :
    annotateParams (param :: rest) note =
      if param.name = note.name then param.annotate note :: rest
      else param :: annotateParams rest note := by
  have hname : ¬ note.name.isEmpty = true := by simpa [String.isEmpty_iff] using h
  simp only [annotateParams, if_neg hname, List.findIdx?_cons]
  by_cases hfirst : param.name = note.name
  · simp [hfirst]
  · cases hfind : rest.findIdx? (·.name == note.name) <;> simp [hfirst]

/-- The first parameter takes all notes on it, and the others share the rest. -/
lemma foldl_annotateParams_cons (h : ∀ note ∈ notes, note.name ≠ "") :
    notes.foldl annotateParams (param :: rest) =
      param.completed (notesOn notes param.name) ::
        (notesOff notes param.name).foldl annotateParams rest := by
  induction notes generalizing param rest with
  | nil => simp [notesOn, notesOff, MethodParam.completed_nil]
  | cons note notes ih =>
    obtain ⟨hnote, hnotes⟩ := List.forall_mem_cons.1 h
    rw [List.foldl_cons, annotateParams_cons hnote, notesOn_cons, notesOff_cons]
    by_cases hname : param.name = note.name
    · rw [if_pos hname, if_pos hname.symm, if_pos hname.symm, ih hnotes,
        MethodParam.completed_annotate, MethodParam.annotate_name]
    · rw [if_neg hname, if_neg (Ne.symm hname), if_neg (Ne.symm hname), ih hnotes,
        List.foldl_cons]

/-- Where no parameters are declared, each name that is noted makes one. -/
lemma foldl_annotateParams_nil : ∀ notes : List ParamNote, (∀ note ∈ notes, note.name ≠ "") →
    notes.foldl annotateParams [] = (notes.map (·.name)).eraseDups.map (noted notes)
  | [], _ => rfl
  | note :: rest, h => by
    obtain ⟨hnote, hrest⟩ := List.forall_mem_cons.1 h
    have hname : ¬ note.name.isEmpty = true := by simpa [String.isEmpty_iff] using hnote
    have hfirst : annotateParams [] note = [MethodParam.annotate { name := note.name } note] := by
      rw [annotateParams, if_neg hname]
      simp [MethodParam.ofNote, MethodParam.annotate]
    have hoff : ∀ other ∈ notesOff rest note.name, other.name ≠ "" :=
      fun other hmem => hrest other (List.mem_of_mem_filter hmem)
    have hnames : (rest.map (·.name)).filter (fun name => !name == note.name) =
        (notesOff rest note.name).map (·.name) := List.filter_map
    -- The first name takes the notes on it, and the others take theirs from those that are left.
    have hself : noted (note :: rest) note.name =
        MethodParam.completed { name := note.name } (note :: notesOn rest note.name) := by
      rw [noted, notesOn_cons, if_pos rfl]
    have hothers : ∀ name ∈ ((notesOff rest note.name).map (·.name)).eraseDups,
        noted (notesOff rest note.name) name = noted (note :: rest) name := by
      intro name hmem
      obtain ⟨other, hother, rfl⟩ := List.mem_map.1 (List.mem_eraseDups.1 hmem)
      have hne : other.name ≠ note.name := by simpa using (List.mem_filter.1 hother).2
      rw [noted, notesOn_notesOff_of_ne hne, noted, notesOn_cons, if_neg hne.symm]
    rw [List.foldl_cons, hfirst, foldl_annotateParams_cons hrest, MethodParam.completed_annotate,
      MethodParam.annotate_name, foldl_annotateParams_nil _ hoff, List.map_cons,
      List.eraseDups_cons, hnames, List.map_cons, hself, List.map_congr_left hothers]
termination_by notes => notes.length
decreasing_by exact Nat.lt_succ_of_le (List.length_filter_le _ _)

/-- The first parameter is completed by the notes on it, which leaves the others none of them. -/
lemma completeFirst_cons (notes : List ParamNote) (param : MethodParam) (rest : List MethodParam) :
    completeFirst notes (param :: rest) =
      param.completed (notesOn notes param.name) ::
        completeFirst (notesOff notes param.name) rest := by
  simp only [completeFirst, List.mapIdx_cons, List.map_cons, notesAt_cons]
  rfl

/-- Each parameter is completed with the notes that are left for it at its place. -/
lemma getElem?_completeFirst (notes : List ParamNote) (params : List MethodParam) (i : Nat) :
    (completeFirst notes params)[i]? = params[i]?.map fun param =>
      param.completed (notesAt notes (params.map (·.name)) i param.name) :=
  List.getElem?_mapIdx

/-- Notes do not rename parameters. -/
@[simp] lemma map_name_completeFirst (notes : List ParamNote) (params : List MethodParam) :
    (completeFirst notes params).map (·.name) = params.map (·.name) := by
  induction params generalizing notes with
  | nil => rfl
  | cons param rest ih =>
    rw [completeFirst_cons, List.map_cons, ih, List.map_cons]
    rfl

/-- The declared parameters come first, each completed by the notes on it; then those that only the
notes name. -/
lemma foldl_annotateParams (h : ∀ note ∈ notes, note.name ≠ "") :
    notes.foldl annotateParams params =
      completeFirst notes params ++
        (notes.filter fun note => note.name ∉ params.map (·.name)).foldl annotateParams [] := by
  induction params generalizing notes with
  | nil => simp [completeFirst]
  | cons param rest ih =>
    have hoff : ∀ note ∈ notesOff notes param.name, note.name ≠ "" :=
      fun note hmem => h note (List.mem_of_mem_filter hmem)
    have hfilter : ((notesOff notes param.name).filter fun note => note.name ∉ rest.map (·.name)) =
        notes.filter fun note => note.name ∉ (param :: rest).map (·.name) := by
      rw [notesOff, List.filter_filter]
      refine List.filter_congr fun note _ => ?_
      by_cases hname : note.name = param.name <;> simp [hname]
    rw [foldl_annotateParams_cons h, ih hoff, hfilter, completeFirst_cons, List.cons_append]

end Annotate

/-! ### Names without a declaration -/

/-- Leaving names out and leaving repetitions out commute. -/
lemma eraseDups_filter (p : String → Bool) (names : List String) :
    (names.filter p).eraseDups = names.eraseDups.filter p := by
  induction names using List.reverseRecOn with
  | nil => rfl
  | append_singleton names name ih =>
    have hlast : (([name].filter p).removeAll (names.filter p)).eraseDups =
        ([name].removeAll names).eraseDups.filter p := by
      cases hp : p name <;> by_cases hname : name ∈ names <;>
        simp [List.removeAll, List.eraseDups_cons, hp, hname]
    rw [List.filter_append, List.eraseDups_append, List.eraseDups_append, List.filter_append, ih,
      hlast]

/-- The names that only notes mention are mentioned by them, and by no parameter. -/
lemma mem_undeclaredNames {notes : List ParamNote} {params : List MethodParam} {name : String} :
    name ∈ undeclaredNames notes params ↔
      name ∈ notes.map (·.name) ∧ name ∉ params.map (·.name) := by
  rw [undeclaredNames, List.mem_filter, List.mem_eraseDups, decide_eq_true_iff]

/-- Notes on the declared parameters make no others. -/
lemma foldl_annotateParams_undeclared {notes : List ParamNote} {params : List MethodParam}
    (h : ∀ note ∈ notes, note.name ≠ "") :
    (notes.filter fun note => note.name ∉ params.map (·.name)).foldl annotateParams [] =
      (undeclaredNames notes params).map (noted notes) := by
  have hfilter : ∀ note ∈ notes.filter fun note => note.name ∉ params.map (·.name),
      note.name ≠ "" := fun note hmem => h note (List.mem_of_mem_filter hmem)
  have hnames : (notes.filter fun note => note.name ∉ params.map (·.name)).map (·.name) =
      (notes.map (·.name)).filter (· ∉ params.map (·.name)) := by
    rw [List.filter_map]
    rfl
  rw [foldl_annotateParams_nil _ hfilter, hnames, eraseDups_filter, ← undeclaredNames]
  refine List.map_congr_left fun name hname => ?_
  obtain ⟨_, hundeclared⟩ := mem_undeclaredNames.1 hname
  rw [noted, noted, notesOn, notesOn, List.filter_filter]
  refine congrArg _ (List.filter_congr fun note _ => ?_)
  by_cases heq : note.name = name
  · simp [heq, hundeclared]
  · simp [heq]

/-- A note without a name says nothing. -/
lemma foldl_annotateParams_named (notes : List ParamNote) (params : List MethodParam) :
    notes.foldl annotateParams params =
      (notes.filter (·.name ≠ "")).foldl annotateParams params := by
  rw [List.foldl_filter]
  congr 1
  funext params note
  by_cases hname : note.name = ""
  · simp [annotateParams, hname]
  · simp [hname]

/-! ### Declarations -/

namespace Script

/-- The default that is written beside a pattern without one of its own. -/
def Param.beside? (text : List Char) : Param → Option String
  | .plain _ pattern (some default) =>
    if (pattern.declared text).default?.isSome then none
    else some (String.ofList (default.span.slice text))
  | .plain _ _ none | .rest _ _ => none

/-- A parameter with all that is written of it. A default beside the pattern makes it optional, as
one in the pattern does. -/
def Param.written (text : List Char) (param : Param) : MethodParam :=
  match param.beside? text with
  | some default => { param.declared text with optional := true, default? := some default }
  | none => param.declared text

/-- A declaration says nothing of the type of a parameter and does not describe it. -/
lemma Pattern.declared_undescribed (text : List Char) : ∀ pattern : Pattern,
    (pattern.declared text).type = .any ∧ (pattern.declared text).description = ""
  | .withDefault _ target _ => declared_undescribed text target
  | .ident _ | .object _ _ | .array _ _ | .property _ _ | .hole | .rest _ => ⟨rfl, rfl⟩

/-- A parameter is listed under the name that it declares. -/
@[simp] lemma Param.written_name (text : List Char) (param : Param) :
    (param.written text).name = (param.declared text).name := by
  unfold written
  split <;> rfl

/-- A declaration makes a parameter optional by a default. -/
lemma Pattern.declared_optional (text : List Char) (pattern : Pattern) :
    (pattern.declared text).optional = (pattern.declared text).default?.isSome := by
  cases pattern <;> rfl

/-- Where a default stands beside the pattern, the declaration knows of none. -/
lemma Param.declared_of_beside {text : List Char} {param : Param} {default : String}
    (h : param.beside? text = some default) :
    (param.declared text).optional = false ∧ (param.declared text).default? = none := by
  cases param with
  | rest decorators pattern => cases h
  | plain decorators pattern value =>
    cases value with
    | none => cases h
    | some value =>
      rw [beside?] at h
      split_ifs at h with hdefault
      exact ⟨(pattern.declared_optional text).trans (Bool.not_eq_true _ ▸ hdefault),
        Option.not_isSome_iff_eq_none.1 hdefault⟩

/-- A default beside the pattern makes no difference exactly if the notes repeat it. -/
lemma Param.completed_written_iff (text : List Char) (param : Param) (notes : List ParamNote) :
    (param.declared text).completed notes = (param.written text).completed notes ↔
      ∀ default, param.beside? text = some default → RepeatDefault notes default := by
  unfold written
  cases hbeside : param.beside? text with
  | none => simp
  | some default =>
    obtain ⟨hoptional, hdefault⟩ := declared_of_beside hbeside
    simp [MethodParam.completed, RepeatDefault, hoptional, hdefault]

end Script

section Declared

variable (text : List Char) (notes : List ParamNote) (params : List Script.Param)

/-- What the parameters are after all notes does not depend on defaults beside patterns exactly if
notes repeat each of them. -/
lemma completeFirst_written_iff :
    completeFirst notes (params.map (·.declared text)) =
        completeFirst notes (params.map (·.written text)) ↔
      ∀ (i : Nat) param default, params[i]? = some param → param.beside? text = some default →
        RepeatDefault (notesAt notes ((params.map (·.declared text)).map (·.name)) i
          (param.declared text).name) default := by
  have hnames : (params.map (·.written text)).map (·.name) =
      (params.map (·.declared text)).map (·.name) := by simp
  rw [List.ext_getElem?_iff]
  refine forall_congr' fun i => ?_
  rw [getElem?_completeFirst, getElem?_completeFirst, hnames, List.getElem?_map, List.getElem?_map]
  cases params[i]? with
  | none => simp
  | some param =>
    simp only [Option.map_some, Option.some_inj, Script.Param.written_name,
      param.completed_written_iff]
    constructor
    · rintro hall _ default ⟨⟩
      exact hall default
    · exact fun hall default => hall param default rfl

end Declared

/-- A method has the parameters that it declares, in their order and under their names, and behind
them one for each other name that notes are on, in the order in which these first mention them. Each
parameter is completed by all notes on its name, if it is the first of that name; a declaration
gives it neither a type nor a description. A parameter for all further arguments stays one. A
default that is written beside a pattern is lost, unless the notes on the parameter repeat it. -/
theorem methodParams_complete_iff (excerpt : Script.Excerpt) (doc : DocComment)
    (id : Option Script.Ident) (params : List Script.Param) (body : List Script.Stmt) :
    let notes := doc.paramNotes
    let declared := params.map (·.declared excerpt.text)
    let undeclared := undeclaredNames notes declared
    let found := (Script.Function.mk id params body).methodParams excerpt doc
    found = completeAll notes declared ∧
      (found = completeAll notes (params.map (·.written excerpt.text)) ↔
        ∀ (i : Nat) param default, params[i]? = some param →
          param.beside? excerpt.text = some default →
          RepeatDefault
            (notesAt notes (declared.map (·.name)) i (param.declared excerpt.text).name) default) ∧
      (completeFirst notes declared).map (·.name) = declared.map (·.name) ∧
      (∀ param ∈ declared, param.type = .any ∧ param.description = "") ∧
      (∀ (i : Nat) decorators pattern, params[i]? = some (Script.Param.rest decorators pattern) →
        ∃ param : MethodParam, (completeFirst notes declared)[i]? = some param ∧
          param.repeated = true) ∧
      (∀ name, name ∈ undeclared ↔ name ≠ "" ∧ name ∈ notes.map (·.name) ∧
        name ∉ declared.map (·.name)) ∧
      undeclared.Nodup ∧
      undeclared.Pairwise fun a b =>
        (notes.map (·.name)).idxOf a < (notes.map (·.name)).idxOf b := by
  intro notes declared undeclared found
  have hnamed : ∀ note ∈ notes, note.name ≠ "" := by
    intro note hnote
    simpa using (List.mem_filter.1 hnote).2
  have hfound : found = completeAll notes declared := by
    rw [completeAll, ← foldl_annotateParams_undeclared hnamed, ← foldl_annotateParams hnamed]
    exact foldl_annotateParams_named _ _
  have hpairwise : undeclared.Pairwise fun a b =>
      (notes.map (·.name)).idxOf a < (notes.map (·.name)).idxOf b :=
    (Script.pairwise_eraseDups _).filter _
  refine ⟨hfound, ?_, map_name_completeFirst notes declared, ?_, ?_, ?_, ?_, hpairwise⟩
  · have hundeclared :
        undeclaredNames notes (params.map (·.written excerpt.text)) = undeclared := by
      simp [undeclaredNames, undeclared, declared]
    rw [hfound, completeAll, completeAll, hundeclared, List.append_left_inj]
    exact completeFirst_written_iff excerpt.text notes params
  · intro param hparam
    obtain ⟨source, _, rfl⟩ := List.mem_map.1 hparam
    cases source with
    | plain decorators pattern default => exact pattern.declared_undescribed excerpt.text
    | rest decorators pattern => exact pattern.declared_undescribed excerpt.text
  · intro i decorators pattern hrest
    have hdeclared :
        declared[i]? = some { pattern.declared excerpt.text with repeated := true } := by
      rw [List.getElem?_map, hrest]
      rfl
    rw [getElem?_completeFirst, hdeclared]
    exact ⟨_, rfl, rfl⟩
  · intro name
    rw [mem_undeclaredNames, iff_and_self]
    rintro ⟨hmem, _⟩ rfl
    obtain ⟨note, hnote, hempty⟩ := List.mem_map.1 hmem
    exact hnamed note hnote hempty
  · refine hpairwise.imp ?_
    rintro a b hlt rfl
    exact Nat.lt_irrefl _ hlt

/-- A comment with four keywords on a method `(a = 1, a, ...rest) => {}`. One of them repeats the
default. -/
theorem methodParams_complete_iff_rest :
    let excerpt : Script.Excerpt := ⟨.individual, 0, "(a = 1, a, ...rest) => \x7b\x7d".toList⟩
    let doc : DocComment := ⟨.public, "", [⟨"param", "\x7bstring\x7d a - first"⟩,
      ⟨"param", "[b=2]"⟩, ⟨"param", "[a=1] - last"⟩, ⟨"param", "...b"⟩]⟩
    let params : List Script.Param :=
      [.plain [] (.ident ⟨"a", ⟨1, 2⟩⟩) (some (.number ⟨5, 6⟩ "1")),
        .plain [] (.ident ⟨"a", ⟨8, 9⟩⟩) none,
        .rest [] (.ident ⟨"rest", ⟨14, 18⟩⟩)]
    let found := (Script.Function.mk none params []).methodParams excerpt doc
    found =
        [{ name := "a", type := TypeExpr.parse "string".toList, optional := true
           default? := some "1", description := "last" },
          { name := "a" },
          { name := "rest", repeated := true },
          { name := "b", optional := true, default? := some "2", repeated := true }] ∧
      found = completeAll doc.paramNotes (params.map (·.written excerpt.text)) := by
  intro excerpt doc params found
  obtain ⟨_, hwritten, _⟩ := methodParams_complete_iff excerpt doc none params []
  refine ⟨rfl, hwritten.2 ?_⟩
  rintro (_ | _ | _ | i) param default ⟨⟩ hdefault
  · cases hdefault
    exact ⟨by decide, rfl⟩
  · cases hdefault
  · cases hdefault

/-- A default that no note repeats is lost. -/
theorem not_methodParams_written :
    ¬ ∀ (excerpt : Script.Excerpt) (doc : DocComment) (params : List Script.Param),
      (Script.Function.mk none params []).methodParams excerpt doc =
        completeAll doc.paramNotes (params.map (·.written excerpt.text)) := by
  intro h
  have hparams := h ⟨.individual, 0, "(a = 1) => \x7b\x7d".toList⟩ ⟨.public, "", []⟩
    [.plain [] (.ident ⟨"a", ⟨1, 2⟩⟩) (some (.number ⟨5, 6⟩ "1"))]
  have hoptional := congrArg (List.map (·.optional)) hparams
  revert hoptional
  decide

end ComponentApi
