import ComponentApi.Comment.Signature
import ComponentApi.Proofs.TypeExpr.Annotations
import ComponentApi.Proofs.TypeExpr.Splitting

/-!
# Descriptions behind types

The text of a keyword gives a type in braces and then a description. A type is read from the text as
a whole, and the description should not matter to it.

`types_kept_iff` says when it does not: exactly if no quotation mark that is loose in the type finds
its partner in the description. Otherwise the end of the braces is lost in what seems to be a quote,
and no keyword gives the type that it gives without the description.
-/

namespace ComponentApi.Comment

open Text TypeExpr

/-! ### Texts of keywords -/

section

variable {braced inner : List Char}

/-- Only the blanks at the end of the description are trimmed. -/
lemma trim_annotation_append (h : splitAnnotation? braced = some (inner, []))
    (description : List Char) :
    trim (braced ++ description) = braced ++ trimEnd description := by
  obtain ⟨raw, rfl, -, -⟩ := splitAnnotation?_eq_some h
  have hfirst : ∀ c ∈ ('\x7b' :: raw ++ ['\x7d'] ++ description).head?, isBlank c = false := by
    rintro c ⟨⟩
    decide
  have hend := trimEnd_append_cons (by decide : isBlank '\x7d' = false) ('\x7b' :: raw) description
  rw [trim_eq_trimEnd hfirst, List.append_assoc, List.append_assoc]
  exact hend

/-- A quote is no blank. -/
lemma isBlank_of_isQuote {q : Char} (h : isQuote q = true) : isBlank q = false := by
  cases hblank : isBlank q with
  | false => rfl
  | true =>
    rw [(plain_of_isBlank hblank).1] at h
    cases h

/-- Blanks at the end of a description do not change what its quotes do to the braces. -/
lemma apart_trimEnd_iff {description : List Char} :
    Apart braced (trimEnd description) ↔ Apart braced description := by
  unfold Apart
  refine forall₂_congr fun q hq => ?_
  rw [mem_trimEnd_iff (isBlank_of_isQuote (isQuote_of_mem_looseQuotes hq))]

/-- The text of a keyword is split behind the type, or the inside of the braces grows by a brace. -/
lemma splitAnnotation?_trim_cases (h : splitAnnotation? braced = some (inner, []))
    (description : List Char) :
    Apart braced description ∧
        splitAnnotation? (trim (braced ++ description)) = some (inner, trimEnd description) ∨
      ¬ Apart braced description ∧
        ∀ split, splitAnnotation? (trim (braced ++ description)) = some split →
          inner.count '\x7d' < split.1.count '\x7d' := by
  have hcases := splitAnnotation?_append_cases h (trimEnd description)
  rwa [apart_trimEnd_iff, ← trim_annotation_append h] at hcases

/-- However a type is read from the inside of the braces, a description does not change it exactly
if it stays apart. All that reading has to keep are the braces. -/
lemma map_splitAnnotation?_iff (h : splitAnnotation? braced = some (inner, []))
    {read : List Char → TypeExpr}
    (hread : ∀ inner, (read inner).text.toList.count '\x7d' = inner.count '\x7d')
    (description : List Char) :
    (splitAnnotation? (trim (braced ++ description))).map (fun split => read split.1) =
        some (read inner) ↔ Apart braced description := by
  rcases splitAnnotation?_trim_cases h description with ⟨hapart, hsplit⟩ | ⟨hpartner, hlonger⟩
  · rw [hsplit]
    exact iff_of_true rfl hapart
  · apply iff_of_false _ hpartner
    intro hsame
    obtain ⟨split, hsplit, htype⟩ := Option.map_eq_some_iff.1 hsame
    have hcount := congrArg (fun type : TypeExpr => type.text.toList.count '\x7d') htype
    simp only [hread] at hcount
    have := hlonger split hsplit
    omega

/-- Braces with nothing behind them are found in the trimmed text too. -/
lemma map_splitAnnotation?_self (h : splitAnnotation? braced = some (inner, []))
    (read : List Char → TypeExpr) :
    (splitAnnotation? (trim braced)).map (fun split => read split.1) = some (read inner) := by
  have htrim := trim_annotation_append h []
  have hnothing : trimEnd [] = [] := rfl
  rw [hnothing, List.append_nil] at htrim
  rw [htrim, h]
  rfl

/-! ### The three keywords -/

/-- A type keeps all closing braces of its text. -/
lemma count_parse (text : List Char) :
    (TypeExpr.parse text).text.toList.count '\x7d' = text.count '\x7d' :=
  count_text_parse (by decide) (by decide) (by decide) text

/-- A type keeps all closing braces of its text when its dots are dropped. -/
lemma count_parse_dropStart (text : List Char) :
    (TypeExpr.parse (dropStart dots text)).text.toList.count '\x7d' = text.count '\x7d' := by
  rw [count_parse, dropStart]
  cases hdots : dropStart? dots text with
  | none => rfl
  | some rest =>
    rw [dropStart?_eq_some_iff.1 hdots, List.count_append]
    exact (Nat.zero_add _).symm

/-- The type of a variable is what stands in the braces at the start of the text. -/
lemma parseAnnotation?_eq (text : List Char) : parseAnnotation? text =
    (splitAnnotation? (trim text)).map fun split => TypeExpr.parse split.1 := rfl

/-- The type of a parameter is what stands in the braces, without its dots. -/
lemma type?_parseParam (text : List Char) : (parseParam text).type? =
    (splitAnnotation? (trim text)).map fun split => TypeExpr.parse (dropStart dots split.1) := by
  have hfirst : (parseParam text).type? = (paramType (trim text)).1 := rfl
  rw [hfirst, paramType]
  cases splitAnnotation? (trim text) with
  | none => rfl
  | some split =>
    dsimp only [Option.map_some]
    rw [dropStart]
    cases dropStart? dots split.1 <;> rfl

/-- The type that a function returns is what stands in the braces, or any type. -/
lemma type_parseReturn (text : List Char) : (parseReturn text).type =
    ((splitAnnotation? (trim text)).map fun split => TypeExpr.parse split.1).getD TypeExpr.any := by
  unfold parseReturn
  dsimp only
  cases splitAnnotation? (trim text) <;> rfl

/-- A type with a loose mark says something. -/
lemma parse_ne_any (h : splitAnnotation? braced = some (inner, [])) {q : Char}
    (hq : q ∈ looseQuotes none braced) : TypeExpr.parse inner ≠ TypeExpr.any := by
  intro hany
  obtain ⟨raw, rfl, -, rfl⟩ := splitAnnotation?_eq_some h
  have hquote : isQuote q = true := isQuote_of_mem_looseQuotes hq
  have hne : ∀ c : Char, isQuote c = false → q ≠ c := by
    rintro c hc rfl
    rw [hquote] at hc
    cases hc
  have hraw : q ∈ raw := by
    have hmem := looseQuotes_subset none _ hq
    simpa [hne '\x7b' rfl, hne '\x7d' rfl] using hmem
  have hcount := count_text_parse (isBlank_of_isQuote hquote) (hne '(' rfl) (hne ')' rfl) (trim raw)
  rw [count_trim (isBlank_of_isQuote hquote), hany] at hcount
  have hmem : q ∈ "any".toList := by
    rw [← List.count_pos_iff]
    exact hcount ▸ List.count_pos_iff.2 hraw
  exact absurd hmem (by simp [hne 'a' rfl, hne 'n' rfl, hne 'y' rfl])

/-- A description leaves the types of all keywords as they are, exactly if no loose mark of the type
finds its partner in it. -/
theorem types_kept_iff (h : splitAnnotation? braced = some (inner, []))
    (description : List Char) :
    (splitAnnotation? (braced ++ description) = some (inner, description) ↔
      Apart braced description) ∧
    (parseAnnotation? (braced ++ description) = parseAnnotation? braced ↔
      Apart braced description) ∧
    ((parseParam (braced ++ description)).type? = (parseParam braced).type? ↔
      Apart braced description) ∧
    ((parseReturn (braced ++ description)).type = (parseReturn braced).type ↔
      Apart braced description) := by
  have hkept := map_splitAnnotation?_iff h count_parse description
  refine ⟨?_, ?_, ?_, ?_⟩
  · rcases splitAnnotation?_append_cases h description with ⟨hapart, hsplit⟩ | ⟨hpartner, hlonger⟩
    · exact iff_of_true hsplit hapart
    · exact iff_of_false (fun hsplit => absurd (hlonger _ hsplit) (Nat.lt_irrefl _)) hpartner
  · rw [parseAnnotation?_eq, parseAnnotation?_eq, map_splitAnnotation?_self h, hkept]
  · rw [type?_parseParam, type?_parseParam,
      map_splitAnnotation?_self h fun text => TypeExpr.parse (dropStart dots text),
      map_splitAnnotation?_iff h count_parse_dropStart]
  · rw [type_parseReturn, type_parseReturn, map_splitAnnotation?_self h, Option.getD_some]
    constructor
    · intro hsame
      by_contra hpartner
      obtain ⟨q, hq, -⟩ : ∃ q ∈ looseQuotes none braced, q ∈ description := by
        simpa [Apart] using hpartner
      cases hread : (splitAnnotation? (trim (braced ++ description))).map
          fun split => TypeExpr.parse split.1 with
      | none =>
        rw [hread] at hsame
        exact parse_ne_any h hq hsame.symm
      | some type =>
        rw [hread] at hsame hkept
        exact hpartner (hkept.1 (congrArg some hsame))
    · intro hapart
      rw [hkept.2 hapart, Option.getD_some]

end

/-- The loose mark is the first one of `it's`; the description holds marks of the other kind and
braces. -/
theorem types_kept_iff_loose :
    let braced := "\x7b\"x'\"|it's\x7d".toList
    let description := " \x7bthe \"first\" word\x7d \"".toList
    splitAnnotation? braced = some ("\"x'\"|it's".toList, []) ∧
      (parseReturn (braced ++ description)).type = (parseReturn braced).type := by
  intro braced description
  have hsplit : splitAnnotation? braced = some ("\"x'\"|it's".toList, []) := by decide
  exact ⟨hsplit, (types_kept_iff hsplit description).2.2.2.2 (by decide)⟩

/-- An apostrophe in the description is taken for the partner of one in the type. -/
theorem not_types_kept_apostrophe :
    ¬ ∀ braced inner description : List Char, splitAnnotation? braced = some (inner, []) →
      splitAnnotation? (braced ++ description) = some (inner, description) := by
  intro hkept
  have hsplit := hkept "\x7bit's\x7d".toList "it's".toList " don't".toList (by decide)
  revert hsplit
  decide

end ComponentApi.Comment
