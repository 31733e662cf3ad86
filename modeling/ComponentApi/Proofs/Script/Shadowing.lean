import ComponentApi.Proofs.Names.Resolution
import ComponentApi.Script.Dispatch

/-!
# Names that functions shadow

Inside a function, what a name stands for is looked for in the frames of the functions around the
place, and then in the table of the component. Aliases are followed by the same look-up, although
an alias of the table was written where none of these functions is around. If one of them declares a
name that such an alias refers to, the alias is captured (`Captured`): the search goes on with what
the function declares.

`resolves_as_table_iff` says exactly when a path whose root no frame declares leads where the table
says: unless an alias on its way is captured, and what it is captured by leads elsewhere.
-/

namespace ComponentApi

namespace Declaration

/-- No declaration is near for what the point refers to. -/
def Clear (near : String → Option Declaration) (point : Point) : Prop :=
  ∀ root target, point.1 = .alias (root :: target) → near root = none

/-- From the point, hops through what is far lead past clear points to an alias for which a
declaration is near. The path is the one that the alias stands for there. -/
inductive Captured (near far : String → Option Declaration) : Point → Nat → List String → Prop
  | here {root : String} {declaration : Declaration} (h : near root = some declaration)
      (target path : List String) :
      Captured near far (.alias (root :: target), path) 0 (root :: (target ++ path))
  | hop {point next : Point} {hops : Nat} {shadowed : List String} (hclear : Clear near point)
      (h : Hop far point next) (rest : Captured near far next hops shadowed) :
      Captured near far point (hops + 1) shadowed

/-- An alias on the way of the path is captured. -/
def PathCaptured (near far : String → Option Declaration) (path : List String) (hops : Nat)
    (shadowed : List String) : Prop :=
  ∃ point, StartsAt far path point ∧ Captured near far point hops shadowed

/-- The look-up differs from the far one only by what is declared near. -/
def Extends (near far lookup : String → Option Declaration) : Prop :=
  ∀ name, near name = none → lookup name = far name

section Capture

variable {near far lookup : String → Option Declaration} {point next : Point} {hops count : Nat}
  {path shadowed : List String} {value : String}

/-- A look-up that tries what is near first differs from the far one only there. -/
lemma extends_orElse (near far : String → Option Declaration) :
    Extends near far fun name => near name <|> far name := by
  intro name h
  simp [h]

/-- The far look-up differs nowhere from itself. -/
lemma extends_self (near far : String → Option Declaration) : Extends near far far :=
  fun _ _ => rfl

/-- At a clear point, only what is far matters. -/
lemma Extends.hop_iff (hlookup : Extends near far lookup) (h : Clear near point) :
    Hop lookup point next ↔ Hop far point next := by
  constructor
  · rintro (⟨hkey, path⟩ | ⟨hroot, target, path⟩)
    · exact .property hkey path
    · exact .target ((hlookup _ (h _ target rfl)).symm.trans hroot) target path
  · rintro (⟨hkey, path⟩ | ⟨hroot, target, path⟩)
    · exact .property hkey path
    · exact .target ((hlookup _ (h _ target rfl)).trans hroot) target path

/-- More than no hops are a first hop and the others. -/
lemma leads_succ_iff :
    Leads lookup point (count + 1) value ↔
      ∃ next, Hop lookup point next ∧ Leads lookup next count value := by
  constructor
  · rintro (_ | ⟨hhop, hrest⟩)
    exact ⟨_, hhop, hrest⟩
  · rintro ⟨next, hhop, hrest⟩
    exact .hop hhop hrest

/-- The hops from a point go on from where its hop leads. -/
lemma Hop.leads_iff (h : Hop lookup point next) :
    Leads lookup point count value ↔
      ∃ more, count = more + 1 ∧ Leads lookup next more value := by
  constructor
  · rintro (_ | ⟨hhop, hrest⟩)
    · cases h
    · obtain rfl := h.unique hhop
      exact ⟨_, rfl, hrest⟩
  · rintro ⟨more, rfl, hrest⟩
    exact .hop h hrest

/-- An alias leads where its path leads. -/
lemma leads_alias_iff {root : String} {target : List String} :
    Leads lookup (.alias (root :: target), path) count value ↔
      ∃ more, count = more + 1 ∧ PathLeads lookup (root :: (target ++ path)) more value := by
  constructor
  · intro h
    cases h with
    | hop hhop hrest =>
      cases hhop with
      | target hroot => exact ⟨_, rfl, _, .intro hroot _, hrest⟩
  · rintro ⟨more, rfl, _, ⟨hroot, _⟩, hrest⟩
    exact .hop (.target hroot target path) hrest

/-- Where an alias is captured, all depends on where its path leads. -/
lemma Captured.leads_iff (h : Captured near far point hops shadowed)
    (hlookup : Extends near far lookup) :
    Leads lookup point count value ↔
      ∃ more, count = hops + more + 1 ∧ PathLeads lookup shadowed more value := by
  induction h generalizing count with
  | here h target path => simp only [leads_alias_iff, Nat.zero_add]
  | @hop point next hops shadowed hclear h _ ih =>
    rw [((hlookup.hop_iff hclear).2 h).leads_iff]
    constructor
    · rintro ⟨_, rfl, hrest⟩
      obtain ⟨more, rfl, hleads⟩ := ih.1 hrest
      exact ⟨more, by omega, hleads⟩
    · rintro ⟨more, rfl, hleads⟩
      exact ⟨hops + more + 1, by omega, ih.2 ⟨more, rfl, hleads⟩⟩

/-- Where no alias is captured, only what is far matters. -/
lemma Extends.leads_iff (hlookup : Extends near far lookup)
    (h : ∀ hops shadowed, ¬ Captured near far point hops shadowed) :
    Leads lookup point count value ↔ Leads far point count value := by
  induction count generalizing point with
  | zero =>
    constructor
    · rintro ⟨⟩
      exact .string value
    · rintro ⟨⟩
      exact .string value
  | succ count ih =>
    have hclear : Clear near point := by
      obtain ⟨declaration, path⟩ := point
      rintro root target rfl
      cases hnear : near root with
      | none => rfl
      | some declaration => exact absurd (.here hnear target path) (h 0 _)
    rw [leads_succ_iff, leads_succ_iff]
    refine exists_congr fun next => ?_
    rw [hlookup.hop_iff hclear]
    refine and_congr_right fun hhop => ih ?_
    exact fun hops shadowed hcaptured => h _ _ (.hop hclear hhop hcaptured)

/-- A path starts where it does far away, unless its first name is declared near. -/
lemma Extends.startsAt_iff (hlookup : Extends near far lookup) {root : String}
    (hroot : near root = none) :
    StartsAt lookup (root :: path) point ↔ StartsAt far (root :: path) point := by
  constructor
  · rintro ⟨h, _⟩
    exact .intro ((hlookup root hroot).symm.trans h) path
  · rintro ⟨h, _⟩
    exact .intro ((hlookup root hroot).trans h) path

/-- What a captured alias leads to within the bound. -/
lemma PathCaptured.resolvePath?_eq_some_iff {root : String} (hlookup : Extends near far lookup)
    (hroot : near root = none) (h : PathCaptured near far (root :: path) hops shadowed) :
    resolvePath? lookup (root :: path) = some value ↔
      ∃ more, hops + more < maxHops ∧ PathLeads lookup shadowed more value := by
  obtain ⟨point, hstart, hcaptured⟩ := h
  have hstart := (hlookup.startsAt_iff hroot).2 hstart
  rw [Declaration.resolvePath?_eq_some_iff]
  constructor
  · rintro ⟨count, hcount, point', hstart', hleads⟩
    obtain rfl := hstart.unique hstart'
    obtain ⟨more, rfl, hpath⟩ := (hcaptured.leads_iff hlookup).1 hleads
    exact ⟨more, hcount, hpath⟩
  · rintro ⟨more, hmore, hleads⟩
    exact ⟨_, hmore, point, hstart, (hcaptured.leads_iff hlookup).2 ⟨more, rfl, hleads⟩⟩

/-- Where no alias on the way is captured, the path leads to the same. -/
lemma Extends.resolvePath?_eq {root : String} (hlookup : Extends near far lookup)
    (hroot : near root = none)
    (h : ∀ hops shadowed, ¬ PathCaptured near far (root :: path) hops shadowed) :
    resolvePath? lookup (root :: path) = resolvePath? far (root :: path) := by
  refine Option.ext fun value => ?_
  rw [resolvePath?_eq_some_iff, resolvePath?_eq_some_iff]
  refine exists_congr fun count => and_congr_right fun _ => exists_congr fun point => ?_
  rw [hlookup.startsAt_iff hroot]
  refine and_congr_right fun hstart => hlookup.leads_iff ?_
  exact fun hops shadowed hcaptured => h hops shadowed ⟨point, hstart, hcaptured⟩

end Capture

end Declaration

namespace Script.Search

open Declaration

/-- What the functions around the place declare the name as. -/
def local? (search : Search) (name : String) : Option Declaration :=
  search.frames.findSome? (·.get? name)

/-- A name that is in none of the frames is not local. -/
lemma local?_eq_none {search : Search} {name : String}
    (h : ∀ frame ∈ search.frames, frame.get? name = none) : search.local? name = none :=
  List.findSome?_eq_none_iff.2 h

/-- A path whose root no function around the place declares leads to what the table says, if and
only if this is so for each alias on its way that one of these functions captures. -/
theorem resolves_as_table_iff (search : Search) (root : String) (path : List String)
    (hroot : ∀ frame ∈ search.frames, frame.get? root = none) :
    resolvePath? search.lookup (root :: path) = search.found.names.resolve? (root :: path) ↔
      ∀ hops shadowed,
        PathCaptured search.local? search.found.names.declaration? (root :: path) hops shadowed →
        ∀ value,
          (∃ more, hops + more < maxHops ∧ PathLeads search.lookup shadowed more value) ↔
            ∃ more, hops + more < maxHops ∧
              PathLeads search.found.names.declaration? shadowed more value := by
  have hnear := local?_eq_none hroot
  have hlookup : Extends search.local? search.found.names.declaration? search.lookup :=
    extends_orElse _ _
  have htable := extends_self search.local? search.found.names.declaration?
  constructor
  · intro h hops shadowed hcaptured value
    rw [← hcaptured.resolvePath?_eq_some_iff hlookup hnear, h]
    exact hcaptured.resolvePath?_eq_some_iff htable hnear
  · intro h
    by_cases hcaptured : ∃ hops shadowed,
        PathCaptured search.local? search.found.names.declaration? (root :: path) hops shadowed
    · obtain ⟨hops, shadowed, hcaptured⟩ := hcaptured
      refine Option.ext fun value => ?_
      rw [hcaptured.resolvePath?_eq_some_iff hlookup hnear, h hops shadowed hcaptured value]
      exact (hcaptured.resolvePath?_eq_some_iff htable hnear).symm
    · exact hlookup.resolvePath?_eq hnear fun hops shadowed h => hcaptured ⟨hops, shadowed, h⟩

/-- The search inside a function that declares `n` and `k`, where the component has
`const n = 'top', E = n` and `const G = { k: 'far' }, F = G.k`. -/
def shadowing : Search where
  found :=
    { settings := {}
      names :=
        { declarations := [("n", .string "top"), ("E", .alias ["n"]),
            ("G", .object [("k", .string "far")]), ("F", .alias ["G", "k"])] } }
  frames := [[("n", .string "inner"), ("k", .unknown)]]

/-- A function that declares the name of a property captures nothing. -/
theorem resolves_as_table_iff_property :
    (∀ frame ∈ shadowing.frames, frame.get? "F" = none) ∧
      resolvePath? shadowing.lookup ["F"] = shadowing.found.names.resolve? ["F"] := by
  have hroot : ∀ frame ∈ shadowing.frames, frame.get? "F" = none := by
    rintro _ (_ | ⟨_, ⟨⟩⟩)
    rfl
  refine ⟨hroot, (resolves_as_table_iff shadowing "F" [] hroot).2 ?_⟩
  rintro hops shadowed ⟨_, ⟨⟨⟩, _⟩, hcaptured⟩
  -- The way goes from the alias to the object, and on by the property to the string.
  cases hcaptured with
  | here h => cases h
  | hop _ h hcaptured =>
    obtain ⟨⟩ | ⟨⟨⟩, _, _⟩ := h
    cases hcaptured with
    | hop _ h hcaptured =>
      obtain ⟨⟨⟩, _⟩ := h
      cases hcaptured with
      | hop _ h => cases h

/-- A constant of the function captures an alias of the component. -/
theorem not_resolves_as_table_shadowed :
    ¬ ∀ (search : Search) (root : String) (path : List String),
      (∀ frame ∈ search.frames, frame.get? root = none) →
        resolvePath? search.lookup (root :: path) =
          search.found.names.resolve? (root :: path) := by
  intro h
  have hroot : ∀ frame ∈ shadowing.frames, frame.get? "E" = none := by
    rintro _ (_ | ⟨_, ⟨⟩⟩)
    rfl
  have hinside : resolvePath? shadowing.lookup ["E"] = some "inner" := rfl
  have htable : shadowing.found.names.resolve? ["E"] = some "top" := rfl
  exact absurd (hinside.symm.trans ((h shadowing "E" [] hroot).trans htable)) (by decide)

end Script.Search

end ComponentApi
