import Mathlib.Logic.Relation
import Mathlib.Tactic.Basic
import ComponentApi.Names.Declaration

/-!
# Where a path of names leads

From a declaration and the path that remains, a hop enters an object by the first name of the path,
or goes from an alias to what its root stands for, with the rest of the alias in front of the path
(`Hop`). A path leads to a string if hops end at a string with nothing left of the path
(`PathLeads`). Hops know no bound. An object shortens the path and an alias can lengthen it, so they
may go on for ever, also without coming to the same point twice.

The search for the string takes a bounded number of hops. `path_resolves_iff` says that it
finds exactly what a path leads to within this bound, and that it finds nothing if the hops run in
a circle.
-/

namespace ComponentApi.Declaration

/-- A declaration and the path that remains. -/
abbrev Point := Declaration × List String

/-- A hop from one point to the next. -/
inductive Hop (lookup : String → Option Declaration) : Point → Point → Prop
  | property {properties : List (String × Declaration)} {key : String} {declaration : Declaration}
      (h : Assoc.get? properties key = some declaration) (path : List String) :
      Hop lookup (.object properties, key :: path) (declaration, path)
  | target {root : String} {declaration : Declaration} (h : lookup root = some declaration)
      (target path : List String) :
      Hop lookup (.alias (root :: target), path) (declaration, target ++ path)

/-- From the point, so many hops lead to the string. -/
inductive Leads (lookup : String → Option Declaration) : Point → Nat → String → Prop
  | string (value : String) : Leads lookup (.string value, []) 0 value
  | hop {point next : Point} {hops : Nat} {value : String} (h : Hop lookup point next)
      (rest : Leads lookup next hops value) : Leads lookup point (hops + 1) value

/-- The point at which a path starts: what its first name stands for, and the other names. -/
inductive StartsAt (lookup : String → Option Declaration) : List String → Point → Prop
  | intro {root : String} {declaration : Declaration} (h : lookup root = some declaration)
      (path : List String) : StartsAt lookup (root :: path) (declaration, path)

/-- So many hops lead from the start of the path to the string. -/
def PathLeads (lookup : String → Option Declaration) (path : List String) (hops : Nat)
    (value : String) : Prop :=
  ∃ point, StartsAt lookup path point ∧ Leads lookup point hops value

variable {lookup : String → Option Declaration} {point next : Point} {path : List String}
  {hops hops' steps : Nat} {value value' : String}

/-! ### The search -/

/-- What hops lead to is found, if there are more steps than hops. -/
lemma Leads.resolve? (h : Leads lookup point hops value) (hsteps : hops < steps) :
    resolve? lookup steps point.1 point.2 = some value := by
  induction h generalizing steps with
  | string value =>
    obtain ⟨steps, rfl⟩ := Nat.exists_eq_succ_of_ne_zero (Nat.ne_of_gt hsteps)
    rfl
  | hop hhop _ ih =>
    obtain ⟨steps, rfl⟩ := Nat.exists_eq_succ_of_ne_zero (Nat.ne_of_gt (Nat.zero_lt_of_lt hsteps))
    have hrest := ih (Nat.lt_of_succ_lt_succ hsteps)
    cases hhop with
    | property h path => simpa [Declaration.resolve?, h] using hrest
    | target h target path => simpa [Declaration.resolve?, h] using hrest

/-- What is found is what fewer hops than steps lead to. -/
lemma leads_of_resolve? {declaration : Declaration}
    (h : declaration.resolve? lookup steps path = some value) :
    ∃ hops < steps, Leads lookup (declaration, path) hops value := by
  fun_induction Declaration.resolve? lookup steps declaration path with
  | case1 => cases h
  | case2 steps value =>
    cases h
    exact ⟨0, Nat.succ_pos steps, .string value⟩
  | case3 steps properties key path ih =>
    obtain ⟨declaration, hkey, hrest⟩ := Option.bind_eq_some_iff.1 h
    obtain ⟨hops, hhops, hleads⟩ := ih declaration hrest
    exact ⟨hops + 1, Nat.succ_lt_succ hhops, .hop (.property hkey path) hleads⟩
  | case4 steps root target path ih =>
    obtain ⟨declaration, hroot, hrest⟩ := Option.bind_eq_some_iff.1 h
    obtain ⟨hops, hhops, hleads⟩ := ih declaration hrest
    exact ⟨hops + 1, Nat.succ_lt_succ hhops, .hop (.target hroot target path) hleads⟩
  | case5 => cases h

/-- A path gives what at most as many hops lead to as are allowed. -/
lemma resolvePath?_eq_some_iff :
    resolvePath? lookup path = some value ↔ ∃ hops ≤ maxHops, PathLeads lookup path hops value := by
  constructor
  · intro h
    cases path with
    | nil => cases h
    | cons root path =>
      obtain ⟨declaration, hroot, hrest⟩ := Option.bind_eq_some_iff.1 h
      obtain ⟨hops, hhops, hleads⟩ := leads_of_resolve? hrest
      exact ⟨hops, Nat.le_of_lt_succ hhops, _, .intro hroot path, hleads⟩
  · rintro ⟨hops, hhops, _, ⟨hroot, path⟩, hleads⟩
    exact Option.bind_eq_some_iff.2 ⟨_, hroot, hleads.resolve? (Nat.lt_succ_of_le hhops)⟩

/-! ### One way only -/

/-- From a point there is at most one hop. -/
lemma Hop.unique {next' : Point} (h : Hop lookup point next) (h' : Hop lookup point next') :
    next = next' := by
  cases h with
  | property h path =>
    cases h' with
    | property h' => rw [Option.some.inj (h.symm.trans h')]
  | target h target path =>
    cases h' with
    | target h' => rw [Option.some.inj (h.symm.trans h')]

/-- From a point, hops lead to at most one string, and in one number of hops. -/
lemma Leads.unique (h : Leads lookup point hops value) (h' : Leads lookup point hops' value') :
    hops = hops' ∧ value = value' := by
  induction h generalizing hops' with
  | string value =>
    cases h' with
    | string => exact ⟨rfl, rfl⟩
    | hop hhop => cases hhop
  | hop hhop _ ih =>
    cases h' with
    | string => cases hhop
    | hop hhop' hrest' =>
      obtain rfl := hhop.unique hhop'
      obtain ⟨rfl, rfl⟩ := ih hrest'
      exact ⟨rfl, rfl⟩

/-- A path starts at one point at most. -/
lemma StartsAt.unique (h : StartsAt lookup path point) (h' : StartsAt lookup path next) :
    point = next := by
  obtain ⟨h, path⟩ := h
  obtain ⟨h', _⟩ := h'
  rw [Option.some.inj (h.symm.trans h')]

/-- A path leads to at most one string, and in one number of hops. -/
lemma PathLeads.unique (h : PathLeads lookup path hops value)
    (h' : PathLeads lookup path hops' value') : hops = hops' ∧ value = value' := by
  obtain ⟨point, hstart, hleads⟩ := h
  obtain ⟨point', hstart', hleads'⟩ := h'
  obtain rfl := hstart.unique hstart'
  exact hleads.unique hleads'

/-! ### Circles -/

/-- From the point, hops run in a circle: some first part of the path brings them back to the
declaration with this part, or with still more, in front. -/
def Circles (lookup : String → Option Declaration) (point : Point) : Prop :=
  ∃ front back more, point.2 = front ++ back ∧
    Relation.TransGen (Hop lookup) (point.1, front) (point.1, front ++ more)

/-- From the start of the path, hops come to a point from which they run in a circle. -/
def PathCircles (lookup : String → Option Declaration) (path : List String) : Prop :=
  ∃ start point, StartsAt lookup path start ∧
    Relation.ReflTransGen (Hop lookup) start point ∧ Circles lookup point

/-- The name is an alias of the other one, or of something in it. -/
def AliasOf (lookup : String → Option Declaration) (name root : String) : Prop :=
  ∃ target, lookup name = some (.alias (root :: target))

/-- A hop does not look at the end of the path. -/
lemma Hop.append (h : Hop lookup point next) (more : List String) :
    Hop lookup (point.1, point.2 ++ more) (next.1, next.2 ++ more) := by
  cases h with
  | property h path => exact .property h (path ++ more)
  | target h target path =>
    rw [List.append_assoc]
    exact .target h target (path ++ more)

/-- Hops go the same way with more names at the end of the path. -/
lemma append_transGen (h : Relation.TransGen (Hop lookup) point next) (more : List String) :
    Relation.TransGen (Hop lookup) (point.1, point.2 ++ more) (next.1, next.2 ++ more) :=
  h.lift (fun point => (point.1, point.2 ++ more)) fun _ _ hhop => hhop.append more

/-- On the way, each hop brings the string one hop nearer. -/
lemma Leads.of_hop (h : Leads lookup point hops value) (hhop : Hop lookup point next) :
    ∃ fewer < hops, Leads lookup next fewer value := by
  cases h with
  | string => cases hhop
  | hop hhop' hrest =>
    obtain rfl := hhop.unique hhop'
    exact ⟨_, Nat.lt_succ_self _, hrest⟩

/-- From a point on the way, fewer hops lead to the string. -/
lemma Leads.of_transGen (h : Leads lookup point hops value)
    (hhops : Relation.TransGen (Hop lookup) point next) :
    ∃ fewer < hops, Leads lookup next fewer value := by
  induction hhops with
  | single hhop => exact h.of_hop hhop
  | tail _ hhop ih =>
    obtain ⟨fewer, hfewer, hleads⟩ := ih
    obtain ⟨less, hless, hleads⟩ := hleads.of_hop hhop
    exact ⟨less, Nat.lt_trans hless hfewer, hleads⟩

/-- A circle leads nowhere: round by round, the string would have to be nearer. -/
lemma Circles.not_leads (h : Circles lookup point) : ¬ Leads lookup point hops value := by
  obtain ⟨declaration, path⟩ := point
  obtain ⟨front, back, more, hpath, hround⟩ := h
  dsimp only at hpath hround
  subst hpath
  induction hops using Nat.strongRecOn generalizing back with
  | ind hops ih =>
    intro hleads
    obtain ⟨fewer, hfewer, hleads⟩ := hleads.of_transGen (append_transGen hround back)
    rw [List.append_assoc] at hleads
    exact ih fewer hfewer (more ++ back) hleads

/-- A path that comes into a circle leads to no string. -/
lemma PathCircles.not_pathLeads (h : PathCircles lookup path) :
    ¬ PathLeads lookup path hops value := by
  rintro ⟨start, hstart, hleads⟩
  obtain ⟨start', point, hstart', hhops, hcircles⟩ := h
  obtain rfl := hstart.unique hstart'
  obtain rfl | hhops := Relation.reflTransGen_iff_eq_or_transGen.1 hhops
  · exact hcircles.not_leads hleads
  · obtain ⟨_, _, hleads⟩ := hleads.of_transGen hhops
    exact hcircles.not_leads hleads

/-- Aliases of each other are followed by hops, which put the rest of each in front of the path. -/
lemma transGen_of_aliasOf {name root : String} {declaration : Declaration}
    (h : Relation.TransGen (AliasOf lookup) name root) (hroot : lookup root = some declaration) :
    ∃ first more, lookup name = some first ∧
      Relation.TransGen (Hop lookup) (first, []) (declaration, more) := by
  induction h using Relation.TransGen.head_induction_on with
  | single h =>
    obtain ⟨target, hname⟩ := h
    exact ⟨_, _, hname, .single (.target hroot target [])⟩
  | head h _ ih =>
    obtain ⟨target, hname⟩ := h
    obtain ⟨first, more, hfirst, hhops⟩ := ih
    exact ⟨_, _, hname, .head (.target hfirst target []) (append_transGen hhops (target ++ []))⟩

/-- Names that are aliases of each other in a circle make the path run in one. -/
lemma pathCircles_of_aliasOf {root : String} (h : Relation.TransGen (AliasOf lookup) root root)
    (path : List String) : PathCircles lookup (root :: path) := by
  obtain ⟨_, ⟨target, hroot⟩, _⟩ := Relation.TransGen.head'_iff.1 h
  obtain ⟨first, more, hfirst, hhops⟩ := transGen_of_aliasOf h hroot
  obtain rfl := Option.some.inj (hroot.symm.trans hfirst)
  exact ⟨_, _, .intro hroot path, .refl, [], path, more, rfl, hhops⟩

/-- Of a path, the search finds exactly the string to which it leads in at most 16 hops. It finds
nothing if the hops run in a circle, as they do where the root is an alias of itself in the end, and
nothing if more hops are needed. There is at most one way to a string. -/
theorem path_resolves_iff (lookup : String → Option Declaration) (path : List String) :
    (∀ value, resolvePath? lookup path = some value ↔
      ∃ hops ≤ 16, PathLeads lookup path hops value) ∧
    (PathCircles lookup path → resolvePath? lookup path = none) ∧
    (∀ root ∈ path.head?, Relation.TransGen (AliasOf lookup) root root →
      resolvePath? lookup path = none) ∧
    (∀ hops value, PathLeads lookup path hops value → 16 < hops →
      resolvePath? lookup path = none) ∧
    ∀ hops value hops' value', PathLeads lookup path hops value →
      PathLeads lookup path hops' value' → hops = hops' ∧ value = value' := by
  have hcircles : PathCircles lookup path → resolvePath? lookup path = none := by
    intro h
    rw [Option.eq_none_iff_forall_ne_some]
    intro value hvalue
    obtain ⟨hops, _, hleads⟩ := resolvePath?_eq_some_iff.1 hvalue
    exact h.not_pathLeads hleads
  refine ⟨fun value => resolvePath?_eq_some_iff, hcircles, ?_, ?_, ?_⟩
  · intro root hroot h
    obtain ⟨path, rfl⟩ := List.head?_eq_some_iff.1 hroot
    exact hcircles (pathCircles_of_aliasOf h path)
  · intro hops value hleads hhops
    rw [Option.eq_none_iff_forall_ne_some]
    intro value' hvalue'
    obtain ⟨hops', hhops', hleads'⟩ := resolvePath?_eq_some_iff.1 hvalue'
    obtain ⟨rfl, _⟩ := hleads.unique hleads'
    exact absurd hhops (Nat.not_lt.2 hhops')
  · exact fun _ _ _ _ => PathLeads.unique

/-- Each name is an alias of the one with a letter less, and the name without letters is a string.
Only `a` and `b` are aliases of each other. -/
def ladder (name : String) : Option Declaration :=
  match name.toList with
  | [] => some (.string "end")
  | ['a'] => some (.alias ["b", "x"])
  | ['b'] => some (.alias ["a"])
  | _ :: rest => some (.alias [String.ofList rest])

/-- On the ladder, there are as many hops as the name has letters. -/
lemma ladder_pathLeads (hops : Nat) :
    PathLeads ladder [String.ofList (List.replicate hops 'i')] hops "end" := by
  induction hops with
  | zero => exact ⟨_, .intro rfl [], .string "end"⟩
  | succ hops ih =>
    obtain ⟨point, ⟨hname, _⟩, hleads⟩ := ih
    have halias : ladder (String.ofList (List.replicate (hops + 1) 'i')) =
        some (.alias [String.ofList (List.replicate hops 'i')]) := by
      simp [ladder, List.replicate_succ]
    exact ⟨_, .intro halias [], .hop (.target hname [] []) hleads⟩

/-- Names of 16 and of 17 letters, and one of the two that are aliases of each other. -/
theorem path_resolves_iff_ladder :
    resolvePath? ladder ["iiiiiiiiiiiiiiii"] = some "end" ∧
      resolvePath? ladder ["iiiiiiiiiiiiiiiii"] = none ∧
      resolvePath? ladder ["a", "y"] = none := by
  have hcircle : Relation.TransGen (AliasOf ladder) "a" "a" :=
    .tail (.single ⟨["x"], rfl⟩) ⟨[], rfl⟩
  obtain ⟨hfinds, _, _, _, _⟩ := path_resolves_iff ladder ["iiiiiiiiiiiiiiii"]
  obtain ⟨_, _, _, hlong, _⟩ := path_resolves_iff ladder ["iiiiiiiiiiiiiiiii"]
  obtain ⟨_, _, halias, _, _⟩ := path_resolves_iff ladder ["a", "y"]
  exact ⟨(hfinds "end").2 ⟨16, Nat.le_refl 16, ladder_pathLeads 16⟩,
    hlong 17 "end" (ladder_pathLeads 17) (Nat.lt_succ_self 16), halias "a" rfl hcircle⟩

end ComponentApi.Declaration
