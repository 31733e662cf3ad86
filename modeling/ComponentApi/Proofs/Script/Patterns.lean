import Mathlib.Data.List.Nodup
import Mathlib.Tactic.Basic
import ComponentApi.Script.Scope

/-!
# The names in a pattern

A path leads from a pattern to a pattern in it, from each to one of its direct parts. The paths that
lead to names are ordered as the names are in the text: at the first step where two of them differ,
the one to the earlier part comes first. A pattern binds the names that paths lead to, each once and
in this order, and this says all about what it binds (`Pattern.boundNames_eq_iff`).
-/

namespace ComponentApi.Script

/-- The patterns that a pattern is directly made of, from left to right. -/
def Pattern.parts : Pattern → List Pattern
  | .object _ patterns | .array _ patterns => patterns
  | .property _ pattern | .rest pattern | .withDefault _ pattern _ => [pattern]
  | .ident _ | .hole => []

/-- The path leads from the one pattern to the other. Each of its steps is the number of a part. -/
inductive Pattern.Leads : Pattern → List Nat → Pattern → Prop
  | here (pattern : Pattern) : Leads pattern [] pattern
  | inside {pattern part target : Pattern} {i : Nat} {path : List Nat}
      (hpart : pattern.parts[i]? = some part) (hpath : part.Leads path target) :
      Leads pattern (i :: path) target

/-- The names are those that stand somewhere, each as often as it stands, in the order of the paths
that lead to them. -/
def Lists (Stands : List Nat → Ident → Prop) (names : List Ident) : Prop :=
  ∃ sites : List (List Nat × Ident), names = sites.map Prod.snd ∧
    (sites.map Prod.fst).Pairwise (· < ·) ∧
    ∀ path id, (path, id) ∈ sites ↔ Stands path id

namespace Lists

variable {First Second : List Nat → Ident → Prop} {names more : List Ident}

/-- Where nothing stands, no name is listed. -/
lemma nil (h : ∀ path id, ¬ First path id) : Lists First [] :=
  ⟨[], rfl, .nil, fun path id => by simpa using h path id⟩

/-- Names that stand before others are listed before them. -/
lemma append (hfirst : Lists First names) (hsecond : Lists Second more)
    (h : ∀ path id later next, First path id → Second later next → path < later) :
    Lists (fun path id => First path id ∨ Second path id) (names ++ more) := by
  obtain ⟨sites, rfl, hsorted, hsites⟩ := hfirst
  obtain ⟨behind, rfl, hsorted', hbehind⟩ := hsecond
  refine ⟨sites ++ behind, by simp, ?_, fun path id => ?_⟩
  · rw [List.map_append, List.pairwise_append]
    refine ⟨hsorted, hsorted', ?_⟩
    simp only [List.forall_mem_map, Prod.forall]
    intro path id hid later next hnext
    exact h path id later next ((hsites path id).1 hid) ((hbehind later next).1 hnext)
  · rw [List.mem_append, hsites, hbehind]

/-- One step more in front of all paths changes nothing in the names. -/
lemma cons (i : Nat) (h : Lists First names) :
    Lists (fun path id => ∃ rest, path = i :: rest ∧ First rest id) names := by
  obtain ⟨sites, rfl, hsorted, hsites⟩ := h
  refine ⟨sites.map fun site => (i :: site.1, site.2), by simp, ?_, fun path id => ?_⟩
  · rw [List.map_map, List.pairwise_map]
    rw [List.pairwise_map] at hsorted
    exact hsorted.imp fun hlt => by simpa using hlt
  · simp only [List.mem_map, Prod.mk.injEq, Prod.exists]
    constructor
    · rintro ⟨rest, name, hmem, rfl, rfl⟩
      exact ⟨rest, rfl, (hsites rest name).1 hmem⟩
    · rintro ⟨rest, rfl, hrest⟩
      exact ⟨rest, id, (hsites rest id).2 hrest, rfl, rfl⟩

/-- The same names are listed where the same names stand. -/
lemma congr (h : Lists First names) (hiff : ∀ path id, First path id ↔ Second path id) :
    Lists Second names := by
  obtain ⟨sites, hnames, hsorted, hsites⟩ := h
  exact ⟨sites, hnames, hsorted, fun path id => (hsites path id).trans (hiff path id)⟩

/-- Only one list of names fits. -/
lemma unique (h : Lists First names) (h' : Lists First more) : names = more := by
  obtain ⟨sites, rfl, hsorted, hsites⟩ := h
  obtain ⟨others, rfl, hsorted', hothers⟩ := h'
  have hne : ∀ {path later : List Nat}, path < later → path ≠ later :=
    fun hlt heq => List.lt_irrefl _ (heq ▸ hlt)
  have hnodup : sites.Nodup := List.Nodup.of_map Prod.fst (hsorted.imp hne)
  have hnodup' : others.Nodup := List.Nodup.of_map Prod.fst (hsorted'.imp hne)
  rw [List.pairwise_map] at hsorted hsorted'
  have hperm : sites.Perm others := (List.perm_ext_iff_of_nodup hnodup hnodup').2
    fun site => (hsites site.1 site.2).trans (hothers site.1 site.2).symm
  have hsame : sites = others := hperm.eq_of_pairwise
    (fun _ _ _ _ hlt hgt => absurd hgt (List.lt_asymm hlt)) hsorted hsorted'
  rw [hsame]

end Lists

/-- The name stands in one of the patterns, which are counted from the number on. -/
def StandsIn (start : Nat) (patterns : List Pattern) (path : List Nat) (id : Ident) : Prop :=
  ∃ i rest part, path = (start + i) :: rest ∧ patterns[i]? = some part ∧ part.Leads rest (.ident id)

/-- A name stands in the first pattern or in one of the others. -/
lemma standsIn_cons_iff {start : Nat} {pattern : Pattern} {patterns : List Pattern}
    {path : List Nat} {id : Ident} :
    StandsIn start (pattern :: patterns) path id ↔
      (∃ rest, path = start :: rest ∧ pattern.Leads rest (.ident id)) ∨
        StandsIn (start + 1) patterns path id := by
  constructor
  · rintro ⟨i, rest, part, rfl, hpart, hpath⟩
    cases i with
    | zero =>
      cases hpart
      exact .inl ⟨rest, rfl, hpath⟩
    | succ i => exact .inr ⟨i, rest, part, by rw [Nat.add_right_comm, Nat.add_assoc], hpart, hpath⟩
  · rintro (⟨rest, rfl, hpath⟩ | ⟨i, rest, part, rfl, hpart, hpath⟩)
    · exact ⟨0, rest, pattern, rfl, rfl, hpath⟩
    · exact ⟨i + 1, rest, part, by rw [Nat.add_assoc, Nat.add_comm 1], hpart, hpath⟩

/-- No name stands in no patterns. -/
lemma not_standsIn_nil {start : Nat} {path : List Nat} {id : Ident} :
    ¬ StandsIn start [] path id := by
  rintro ⟨i, rest, part, _, hpart, _⟩
  cases hpart

/-- A path leads from a pattern that is no name to a name if it goes on from one of the parts. -/
lemma leads_iff_standsIn (pattern : Pattern) (h : ∀ id, pattern ≠ .ident id) {path : List Nat}
    {id : Ident} : pattern.Leads path (.ident id) ↔ StandsIn 0 pattern.parts path id := by
  constructor
  · intro hpath
    cases hpath with
    | here => exact absurd rfl (h id)
    | inside hpart hrest => exact ⟨_, _, _, by rw [Nat.zero_add], hpart, hrest⟩
  · rintro ⟨i, rest, part, rfl, hpart, hrest⟩
    rw [Nat.zero_add]
    exact .inside hpart hrest

/-- Only the empty path leads from a name to a name, and that is the same. -/
lemma leads_ident_iff {id name : Ident} {path : List Nat} :
    (Pattern.ident id).Leads path (.ident name) ↔ path = [] ∧ name = id := by
  constructor
  · intro hpath
    cases hpath with
    | here => exact ⟨rfl, rfl⟩
    | inside hpart => cases hpart
  · rintro ⟨rfl, rfl⟩
    exact .here _

/-- The only part of a pattern binds the names of the pattern. -/
lemma Lists.of_part {pattern part : Pattern} {names : List Ident}
    (hpart : Lists (fun path id => part.Leads path (.ident id)) names)
    (h : ∀ id, pattern ≠ .ident id) (hparts : pattern.parts = [part]) :
    Lists (fun path id => pattern.Leads path (.ident id)) names := by
  refine (hpart.cons 0).congr fun path id => ?_
  rw [leads_iff_standsIn pattern h, hparts, standsIn_cons_iff, or_iff_left not_standsIn_nil]

mutual

/-- A pattern binds the names that paths lead to, each once, from left to right. -/
theorem Pattern.lists_boundNames : ∀ pattern : Pattern,
    Lists (fun path id => pattern.Leads path (.ident id)) pattern.boundNames
  | .ident id => by
    rw [Pattern.boundNames]
    refine ⟨[([], id)], rfl, List.pairwise_singleton .., fun path name => ?_⟩
    rw [List.mem_singleton, Prod.mk.injEq]
    exact leads_ident_iff.symm
  | .hole => by
    rw [Pattern.boundNames]
    exact .nil fun path id h => not_standsIn_nil ((leads_iff_standsIn .hole nofun).1 h)
  | .object span patterns => by
    rw [Pattern.boundNames]
    exact (lists_boundNamesOfPatterns patterns 0).congr fun path id =>
      (leads_iff_standsIn (.object span patterns) nofun).symm
  | .array span patterns => by
    rw [Pattern.boundNames]
    exact (lists_boundNamesOfPatterns patterns 0).congr fun path id =>
      (leads_iff_standsIn (.array span patterns) nofun).symm
  | .property key pattern => by
    rw [Pattern.boundNames]
    exact pattern.lists_boundNames.of_part nofun rfl
  | .rest pattern => by
    rw [Pattern.boundNames]
    exact pattern.lists_boundNames.of_part nofun rfl
  | .withDefault span pattern default => by
    rw [Pattern.boundNames]
    exact pattern.lists_boundNames.of_part nofun rfl

/-- Patterns bind the names of the first, and then those of the others. -/
lemma lists_boundNamesOfPatterns : ∀ (patterns : List Pattern) (start : Nat),
    Lists (StandsIn start patterns) (boundNamesOfPatterns patterns)
  | [], start => by
    rw [boundNamesOfPatterns]
    exact .nil fun path id => not_standsIn_nil
  | pattern :: rest, start => by
    rw [boundNamesOfPatterns]
    refine ((pattern.lists_boundNames.cons start).append
      (lists_boundNamesOfPatterns rest (start + 1)) ?_).congr fun path id =>
        standsIn_cons_iff.symm
    rintro path id later next ⟨_, rfl, _⟩ ⟨i, _, _, rfl, _⟩
    exact List.cons_lt_cons_iff.2 (.inl (by omega))

end

/-- These names and no others are what a pattern binds. -/
theorem Pattern.boundNames_eq_iff (pattern : Pattern) (names : List Ident) :
    pattern.boundNames = names ↔ Lists (fun path id => pattern.Leads path (.ident id)) names := by
  constructor
  · rintro rfl
    exact pattern.lists_boundNames
  · exact pattern.lists_boundNames.unique

/-- The key of a property and the element that is left out are no names. -/
example : (Pattern.object ⟨0, 0⟩
    [.property (.name "a") (.array ⟨0, 0⟩ [.ident ⟨"b", ⟨0, 0⟩⟩, .hole, .ident ⟨"c", ⟨0, 0⟩⟩]),
      .rest (.ident ⟨"d", ⟨0, 0⟩⟩)]).boundNames.map (·.name) = ["b", "c", "d"] := by
  decide

end ComponentApi.Script
