import Mathlib.Data.List.Basic
import Mathlib.Data.List.Nodup
import Mathlib.Tactic.Basic
import ComponentApi.Item.Merge

/-!
# Merging as an operation on items

Two mentions of a symbol are put together by few rules: of texts, lists and options the first one
that says something counts, places and bindings are joined, of two visibilities the greater counts,
and slot parameters are merged by their names. Each of these rules is associative, and so is merging
(`Item.merge_merge`), except that the parameters of the item in the middle must differ in their
names: with two of one name it depends on the order of merging which of them is seen first.

Merging only fills in what was open. `Item.Persists` says which parts of an item can no longer
change, and `Item.Persists.merge` that a merge keeps to it.
-/

namespace ComponentApi

/-! ### Rules -/

/-- Joining visibilities is associative. -/
lemma Visibility.join_join (a b c : Visibility) : (a.join b).join c = a.join (b.join c) := by
  cases a <;> cases b <;> cases c <;> rfl

/-- Of several texts the first that is not empty counts, however they are put together. -/
lemma fillText_fillText (a b c : String) :
    fillText (fillText a b) c = fillText a (fillText b c) := by
  unfold fillText
  split_ifs <;> rfl

/-- Of several lists the first that is not empty counts, however they are put together. -/
lemma fillList_fillList {α : Type} (a b c : List α) :
    fillList (fillList a b) c = fillList a (fillList b c) := by
  unfold fillList
  split_ifs <;> rfl

/-- What was not empty is still the same. -/
def Kept {α : Type} (empty old new : α) : Prop :=
  old ≠ empty → new = old

namespace Kept

variable {α : Type} {empty first second third : α}

/-- A value keeps what it was. -/
lemma refl (empty value : α) : Kept empty value value := fun _ => rfl

/-- What is kept twice is kept. -/
lemma trans (h : Kept empty first second) (h' : Kept empty second third) :
    Kept empty first third := by
  intro hne
  have hsecond := h hne
  rw [h' (hsecond ▸ hne), hsecond]

/-- Filling in a text keeps one that is there. -/
lemma fillText (text other : String) : Kept "" text (fillText text other) := by
  intro hne
  rw [ComponentApi.fillText, if_neg (by simpa using hne)]

/-- Filling in a list keeps one that is there. -/
lemma fillList (list other : List α) : Kept [] list (fillList list other) := by
  intro hne
  rw [ComponentApi.fillList, if_neg (by simpa using hne)]

/-- Filling in an option keeps a value that is there. -/
lemma orElse (value other : Option α) : Kept none value (value <|> other) := by
  intro hne
  cases value with
  | none => exact absurd rfl hne
  | some value => rfl

end Kept

/-! ### Slot parameters -/

/-- A list without repetition is the list of its first occurrences. -/
lemma eraseDups_of_nodup {names : List String} (h : names.Nodup) : names.eraseDups = names := by
  induction names with
  | nil => rfl
  | cons name rest ih =>
    obtain ⟨hno, hrest⟩ := List.nodup_cons.1 h
    have hfilter : (rest.filter fun other => !other == name) = rest := by
      rw [List.filter_eq_self]
      rintro other hother
      simpa using ne_of_mem_of_not_mem hother hno
    rw [List.eraseDups_cons, hfilter, ih hrest]

namespace SlotParameter

/-- A merged parameter keeps its name. -/
@[simp] lemma merge_name (target source : SlotParameter) :
    (target.merge source).name = target.name := rfl

/-- Merging parameters of slots is associative. -/
lemma merge_merge (a b c : SlotParameter) : (a.merge b).merge c = a.merge (b.merge c) := by
  -- A type counts as open while it says nothing, so the rule for it is one of filling as well.
  simp only [merge, Visibility.join_join, fillText_fillText, fillList_fillList, mk.injEq, true_and,
    and_true]
  by_cases ha : a.type.isAny = true
  · simp [ha]
  · simp [ha]

/-- The parameters with others merged into them, one after the other. -/
def insertAll (target source : List SlotParameter) : List SlotParameter :=
  source.foldl (fun parameters p => p.insert parameters) target

variable {p q : SlotParameter} {target source : List SlotParameter}

/-- A parameter is merged into the first one of its name. -/
lemma insert_cons_of_eq {first : SlotParameter} (h : first.name = p.name)
    (rest : List SlotParameter) : p.insert (first :: rest) = first.merge p :: rest := by
  rw [insert, if_pos (beq_iff_eq.2 h)]

/-- A parameter passes over one of another name. -/
lemma insert_cons_of_ne {first : SlotParameter} (h : first.name ≠ p.name)
    (rest : List SlotParameter) : p.insert (first :: rest) = first :: p.insert rest := by
  rw [insert, if_neg (by simpa using h)]

/-- Without further parameters, nothing changes. -/
@[simp] lemma insertAll_nil (target : List SlotParameter) : insertAll target [] = target := rfl

/-- Further parameters are inserted from first to last. -/
@[simp] lemma insertAll_cons (target : List SlotParameter) (p : SlotParameter)
    (source : List SlotParameter) :
    insertAll target (p :: source) = insertAll (p.insert target) source := rfl

/-- A parameter adds its name at the end, unless the name is there. -/
lemma names_insert (p : SlotParameter) (target : List SlotParameter) :
    (p.insert target).map (·.name) =
      if p.name ∈ target.map (·.name) then target.map (·.name)
      else target.map (·.name) ++ [p.name] := by
  induction target with
  | nil => rfl
  | cons first rest ih =>
    by_cases hfirst : first.name = p.name
    · simp [insert_cons_of_eq hfirst, hfirst]
    · have hne : ¬ p.name = first.name := fun e => hfirst e.symm
      rw [insert_cons_of_ne hfirst, List.map_cons, ih, List.map_cons]
      simp only [List.mem_cons, hne, false_or]
      split_ifs <;> rfl

/-- An inserted parameter leaves the names before it as they are. -/
lemma names_prefix_insert (p : SlotParameter) (target : List SlotParameter) :
    target.map (·.name) <+: (p.insert target).map (·.name) := by
  rw [names_insert]
  split_ifs
  · exact List.prefix_rfl
  · exact List.prefix_append _ _

/-- The name of an inserted parameter is there. -/
lemma name_mem_insert (p : SlotParameter) (target : List SlotParameter) :
    p.name ∈ (p.insert target).map (·.name) := by
  rw [names_insert]
  split_ifs with h
  · exact h
  · simp

/-- Inserting a parameter keeps the names distinct. -/
lemma nodup_insert (p : SlotParameter) (h : (target.map (·.name)).Nodup) :
    ((p.insert target).map (·.name)).Nodup := by
  rw [names_insert]
  split_ifs with hmem
  · exact h
  · exact List.nodup_append.2 ⟨h, List.nodup_singleton _, by simpa using hmem⟩

/-- Inserted parameters leave the names before them as they are. -/
lemma names_prefix_insertAll (target source : List SlotParameter) :
    target.map (·.name) <+: (insertAll target source).map (·.name) := by
  induction source generalizing target with
  | nil => exact List.prefix_rfl
  | cons p rest ih => exact (names_prefix_insert p target).trans (ih (p.insert target))

/-- Two parameters of one name can be merged before they are inserted. -/
lemma insert_insert_of_name_eq (h : q.name = p.name) (target : List SlotParameter) :
    p.insert (q.insert target) = (q.merge p).insert target := by
  induction target with
  | nil => exact insert_cons_of_eq h []
  | cons first rest ih =>
    by_cases hfirst : first.name = q.name
    · have hmerged : (first.merge q).name = p.name := hfirst.trans h
      have hboth : first.name = (q.merge p).name := hfirst
      rw [insert_cons_of_eq hfirst, insert_cons_of_eq hmerged, insert_cons_of_eq hboth, merge_merge]
    · have hboth : first.name ≠ (q.merge p).name := hfirst
      rw [insert_cons_of_ne hfirst, insert_cons_of_ne (h ▸ hfirst), ih, insert_cons_of_ne hboth]

/-- A parameter whose name is there changes no other, so it can be inserted earlier. -/
lemma insert_comm (hne : p.name ≠ q.name) (hmem : p.name ∈ target.map (·.name)) :
    p.insert (q.insert target) = q.insert (p.insert target) := by
  induction target with
  | nil => cases hmem
  | cons first rest ih =>
    by_cases hp : first.name = p.name
    · have hq : first.name ≠ q.name := hp ▸ hne
      have hmerged : (first.merge p).name ≠ q.name := hq
      rw [insert_cons_of_ne hq, insert_cons_of_eq hp, insert_cons_of_eq hp,
        insert_cons_of_ne hmerged]
    · have hrest : p.name ∈ rest.map (·.name) := by
        simpa [Ne.symm hp] using hmem
      by_cases hq : first.name = q.name
      · have hmerged : (first.merge q).name ≠ p.name := hp
        rw [insert_cons_of_eq hq, insert_cons_of_ne hmerged, insert_cons_of_ne hp,
          insert_cons_of_eq hq]
      · rw [insert_cons_of_ne hq, insert_cons_of_ne hp, insert_cons_of_ne hp,
          insert_cons_of_ne hq, ih hrest]

/-- A parameter whose name is there can be inserted before others that do not have this name. -/
lemma insert_insertAll (hno : p.name ∉ source.map (·.name))
    (hmem : p.name ∈ target.map (·.name)) :
    p.insert (insertAll target source) = insertAll (p.insert target) source := by
  induction source generalizing target with
  | nil => rfl
  | cons q rest ih =>
    rw [List.map_cons, List.mem_cons, not_or] at hno
    obtain ⟨hne, hrest⟩ := hno
    rw [insertAll_cons, insertAll_cons, ← insert_comm hne hmem]
    exact ih hrest ((names_prefix_insert q target).subset hmem)

/-- What is inserted last can be inserted into what is inserted before, if that has distinct
names. -/
lemma insertAll_insert (target : List SlotParameter) (h : (source.map (·.name)).Nodup) :
    insertAll target (p.insert source) = p.insert (insertAll target source) := by
  induction source generalizing target with
  | nil => rfl
  | cons q rest ih =>
    obtain ⟨hno, hrest⟩ := List.nodup_cons.1 h
    by_cases hname : q.name = p.name
    · rw [insertAll_cons, insert_insertAll (hname ▸ hno) (hname ▸ name_mem_insert q target),
        insert_insert_of_name_eq hname, insert_cons_of_eq hname, insertAll_cons]
    · rw [insert_cons_of_ne hname, insertAll_cons, insertAll_cons]
      exact ih (q.insert target) hrest

/-- Inserting lists of parameters is associative, if the names in the middle are distinct. -/
lemma insertAll_insertAll (first : List SlotParameter) {second : List SlotParameter}
    (third : List SlotParameter) (h : (second.map (·.name)).Nodup) :
    insertAll (insertAll first second) third = insertAll first (insertAll second third) := by
  induction third generalizing second with
  | nil => rfl
  | cons p rest ih =>
    rw [insertAll_cons, insertAll_cons, ← ih (nodup_insert p h), insertAll_insert first h]

/-- The names of inserted parameters stand in the order in which they first occur. -/
lemma names_insertAll (h : (target.map (·.name)).Nodup) (source : List SlotParameter) :
    (insertAll target source).map (·.name) =
      (target.map (·.name) ++ source.map (·.name)).eraseDups := by
  induction source generalizing target with
  | nil => rw [insertAll_nil, List.map_nil, List.append_nil, eraseDups_of_nodup h]
  | cons p rest ih =>
    rw [insertAll_cons, ih (nodup_insert p h), names_insert]
    split_ifs with hmem
    · have hdrop : (p.name :: rest.map (·.name)).removeAll (target.map (·.name)) =
          (rest.map (·.name)).removeAll (target.map (·.name)) := by
        simp only [List.removeAll, List.filter_cons]
        rw [if_neg (by simpa using hmem)]
      rw [List.map_cons, List.eraseDups_append, List.eraseDups_append, hdrop]
    · rw [List.append_assoc, List.singleton_append, List.map_cons]

/-- Inserting parameters keeps the names distinct. -/
lemma nodup_insertAll (h : (target.map (·.name)).Nodup) (source : List SlotParameter) :
    ((insertAll target source).map (·.name)).Nodup := by
  induction source generalizing target with
  | nil => exact h
  | cons p rest ih => exact ih (nodup_insert p h)

end SlotParameter

/-! ### Details -/

/-- Merging the details of variables is associative. -/
lemma DataDetail.merge_merge (a b c : DataDetail) : (a.merge b).merge c = a.merge (b.merge c) := by
  simp only [DataDetail.merge, Option.orElse_eq_orElse, Option.orElse_eq_or, Option.or_assoc,
    List.append_assoc]

namespace Detail

/-- The names of the parameters of a slot. -/
def parameterNames : Detail → List String
  | .slot parameters => parameters.map (·.name)
  | _ => []

/-- Whether a variable, a method or a computed value belongs to all instances of the component. -/
def shared? : Detail → Option Bool
  | .data detail => some detail.shared
  | .method detail => some detail.shared
  | .computed detail => some detail.shared
  | _ => none

/-- Whether a variable cannot be assigned. -/
def readonly? : Detail → Option Bool
  | .data detail => some detail.readonly
  | _ => none

/-- Two details of the same form. -/
inductive Alike : Detail → Detail → Prop
  | data (a b : DataDetail) : Alike (.data a) (.data b)
  | method (a b : MethodDetail) : Alike (.method a) (.method b)
  | computed (a b : ComputedDetail) : Alike (.computed a) (.computed b)
  | event (a b : EventDetail) : Alike (.event a) (.event b)
  | slot (a b : List SlotParameter) : Alike (.slot a) (.slot b)
  | ref (a b : Option String) : Alike (.ref a) (.ref b)
  | action (a b : Option String) : Alike (.action a) (.action b)
  | component (a b : String) : Alike (.component a) (.component b)

/-- Details of one category have the same form. -/
lemma alike_of_category {a b : Detail} (h : a.category = b.category) : a.Alike b := by
  cases a <;> cases b <;> first | constructor | cases h

/-- Merging details of one category is associative, if the parameters in the middle have distinct
names. -/
lemma merge_merge {a b c : Detail} (hab : a.category = b.category) (hbc : b.category = c.category)
    (h : b.parameterNames.Nodup) : (a.merge b).merge c = a.merge (b.merge c) := by
  have hfirst := alike_of_category hab
  have hlast := alike_of_category hbc
  cases hfirst with
  | data a b =>
    cases hlast with
    | data _ c => exact congrArg Detail.data (a.merge_merge b c)
  | method a b | computed a b | event a b =>
    cases hlast
    simp only [merge, fillList_fillList, Option.orElse_eq_orElse, Option.orElse_eq_or,
      Option.or_assoc]
  | slot a b =>
    cases hlast with
    | slot _ c => exact congrArg Detail.slot (SlotParameter.insertAll_insertAll a c h)
  | ref a b | action a b =>
    cases hlast
    simp only [merge, Option.orElse_eq_orElse, Option.orElse_eq_or, Option.or_assoc]
  | component a b =>
    cases hlast with
    | component _ c => exact congrArg Detail.component (fillText_fillText a b c)

/-- Merging slots lists the names of their parameters in the order in which they first occur. -/
lemma parameterNames_merge {a b : Detail} (hab : a.category = b.category)
    (h : a.parameterNames.Nodup) :
    (a.merge b).parameterNames = (a.parameterNames ++ b.parameterNames).eraseDups ∧
      (a.merge b).parameterNames.Nodup := by
  have halike := alike_of_category hab
  cases halike with
  | slot a b => exact ⟨SlotParameter.names_insertAll h b, SlotParameter.nodup_insertAll h b⟩
  | _ => exact ⟨rfl, List.nodup_nil⟩

/-- A merge does not change whether something belongs to all instances. -/
@[simp] lemma shared?_merge (a b : Detail) : (a.merge b).shared? = a.shared? := by
  cases a <;> cases b <;> rfl

/-- A merge does not change whether a variable can be assigned. -/
@[simp] lemma readonly?_merge (a b : Detail) : (a.merge b).readonly? = a.readonly? := by
  cases a <;> cases b <;> rfl

end Detail

/-! ### What persists -/

/-- The second detail is the first one with more filled in. -/
structure DataDetail.Persists (old new : DataDetail) : Prop where
  kind : Kept none old.kind? new.kind?
  type : Kept none old.type? new.type?
  default : Kept none old.default? new.default?
  importPath : Kept none old.importPath? new.importPath?
  remoteName : Kept none old.remoteName? new.remoteName?
  localName : Kept none old.localName? new.localName?
  shared : new.shared = old.shared
  readonly : new.readonly = old.readonly
  bindings : old.bindings <+: new.bindings

/-- The second detail is the first one with more filled in. -/
inductive Detail.Persists : Detail → Detail → Prop
  | data {old new : DataDetail} (h : old.Persists new) : Persists (.data old) (.data new)
  | method {old new : MethodDetail} (params : Kept [] old.params new.params)
      (result : Kept none old.return? new.return?) (shared : new.shared = old.shared) :
      Persists (.method old) (.method new)
  | computed {old new : ComputedDetail} (dependencies : Kept [] old.dependencies new.dependencies)
      (type : Kept none old.type? new.type?) (shared : new.shared = old.shared) :
      Persists (.computed old) (.computed new)
  | event {old new : EventDetail} (parent : Kept none old.parent? new.parent?)
      (modifiers : Kept [] old.modifiers new.modifiers) : Persists (.event old) (.event new)
  | slot {old new : List SlotParameter} (names : old.map (·.name) <+: new.map (·.name)) :
      Persists (.slot old) (.slot new)
  | ref {old new : Option String} (parent : Kept none old new) : Persists (.ref old) (.ref new)
  | action {old new : Option String} (parent : Kept none old new) :
      Persists (.action old) (.action new)
  | component {old new : String} (importPath : Kept "" old new) :
      Persists (.component old) (.component new)

namespace DataDetail.Persists

/-- The detail of a variable persists in itself. -/
lemma refl (detail : DataDetail) : detail.Persists detail :=
  ⟨.refl _ _, .refl _ _, .refl _ _, .refl _ _, .refl _ _, .refl _ _, rfl, rfl, List.prefix_rfl⟩

/-- What persists in a second detail of a variable, and that in a third, persists in the third. -/
lemma trans {first second third : DataDetail} (h : first.Persists second)
    (h' : second.Persists third) : first.Persists third where
  kind := h.kind.trans h'.kind
  type := h.type.trans h'.type
  default := h.default.trans h'.default
  importPath := h.importPath.trans h'.importPath
  remoteName := h.remoteName.trans h'.remoteName
  localName := h.localName.trans h'.localName
  shared := h'.shared.trans h.shared
  readonly := h'.readonly.trans h.readonly
  bindings := h.bindings.trans h'.bindings

/-- A merge keeps what the detail of a variable says. -/
lemma merge (a b : DataDetail) : a.Persists (a.merge b) :=
  ⟨.orElse _ _, .orElse _ _, .orElse _ _, .orElse _ _, .orElse _ _, .orElse _ _, rfl, rfl,
    List.prefix_append _ _⟩

end DataDetail.Persists

namespace Detail.Persists

/-- A detail persists in itself. -/
lemma refl (detail : Detail) : detail.Persists detail := by
  cases detail with
  | data detail => exact .data (.refl detail)
  | method => exact .method (.refl _ _) (.refl _ _) rfl
  | computed => exact .computed (.refl _ _) (.refl _ _) rfl
  | event => exact .event (.refl _ _) (.refl _ _)
  | slot => exact .slot List.prefix_rfl
  | ref => exact .ref (.refl _ _)
  | action => exact .action (.refl _ _)
  | component => exact .component (.refl _ _)

/-- What persists in a second detail, and that in a third, persists in the third. -/
lemma trans {first second third : Detail} (h : first.Persists second)
    (h' : second.Persists third) : first.Persists third := by
  cases h with
  | data h => cases h' with | data h' => exact .data (h.trans h')
  | method hparams hresult hshared =>
    cases h' with
    | method hparams' hresult' hshared' =>
      exact .method (hparams.trans hparams') (hresult.trans hresult') (hshared'.trans hshared)
  | computed hdependencies htype hshared =>
    cases h' with
    | computed hdependencies' htype' hshared' =>
      exact .computed (hdependencies.trans hdependencies') (htype.trans htype')
        (hshared'.trans hshared)
  | event hparent hmodifiers =>
    cases h' with
    | event hparent' hmodifiers' =>
      exact .event (hparent.trans hparent') (hmodifiers.trans hmodifiers')
  | slot h => cases h' with | slot h' => exact .slot (h.trans h')
  | ref h => cases h' with | ref h' => exact .ref (h.trans h')
  | action h => cases h' with | action h' => exact .action (h.trans h')
  | component h => cases h' with | component h' => exact .component (h.trans h')

/-- Merging keeps what was filled in. A detail of another form adds nothing. -/
lemma merge (a b : Detail) : a.Persists (a.merge b) := by
  by_cases hab : a.category = b.category
  · have halike := alike_of_category hab
    cases halike with
    | data a b => exact .data (.merge a b)
    | method => exact .method (.fillList _ _) (.orElse _ _) rfl
    | computed => exact .computed (.fillList _ _) (.orElse _ _) rfl
    | event => exact .event (.orElse _ _) (.fillList _ _)
    | slot a b => exact .slot (SlotParameter.names_prefix_insertAll a b)
    | ref => exact .ref (.orElse _ _)
    | action => exact .action (.orElse _ _)
    | component => exact .component (.fillText _ _)
  · have hsame : a.merge b = a := by
      cases a <;> cases b <;> first | rfl | exact absurd rfl hab
    rw [hsame]
    exact .refl a

end Detail.Persists

namespace Item

/-- The second item is the first one with more filled in. It may have another name. -/
structure Persists (old new : Item) : Prop where
  visibility : old.visibility.rank ≤ new.visibility.rank
  description : Kept "" old.description new.description
  keywords : Kept [] old.keywords new.keywords
  locations : old.locations <+: new.locations
  detail : old.detail.Persists new.detail

namespace Persists

/-- An item persists in itself. -/
lemma refl (item : Item) : item.Persists item :=
  ⟨Nat.le_refl _, .refl _ _, .refl _ _, List.prefix_rfl, .refl _⟩

/-- What persists in a second item, and that in a third, persists in the third. -/
lemma trans {first second third : Item} (h : first.Persists second) (h' : second.Persists third) :
    first.Persists third where
  visibility := Nat.le_trans h.visibility h'.visibility
  description := h.description.trans h'.description
  keywords := h.keywords.trans h'.keywords
  locations := h.locations.trans h'.locations
  detail := h.detail.trans h'.detail

/-- A merge keeps what an item says. -/
lemma merge (a b : Item) : a.Persists (a.merge b) where
  visibility := Visibility.rank_le_join_left _ _
  description := .fillText _ _
  keywords := .fillList _ _
  locations := List.prefix_append _ _
  detail := .merge _ _

/-- An item persists under a new name. -/
lemma rename (item : Item) (name : String) : item.Persists { item with name } :=
  ⟨Nat.le_refl _, .refl _ _, .refl _ _, List.prefix_rfl, .refl _⟩

end Persists

/-! ### Items -/

/-- The names of the parameters of a slot. -/
def parameterNames (item : Item) : List String :=
  item.detail.parameterNames

/-- Whether a variable, a method or a computed value belongs to all instances of the component. -/
def shared? (item : Item) : Option Bool :=
  item.detail.shared?

/-- Whether a variable cannot be assigned. -/
def readonly? (item : Item) : Option Bool :=
  item.detail.readonly?

/-- Three items of one category can be merged in either order, if the second one has distinct
parameters. -/
lemma merge_merge {a b c : Item} (hab : a.category = b.category) (hbc : b.category = c.category)
    (h : b.parameterNames.Nodup) : (a.merge b).merge c = a.merge (b.merge c) := by
  have hdetail : (a.detail.merge b.detail).merge c.detail =
      a.detail.merge (b.detail.merge c.detail) := Detail.merge_merge hab hbc h
  simp only [merge, Visibility.join_join, fillText_fillText, fillList_fillList, List.append_assoc,
    hdetail]

/-- Merging items of one category is associative, where the parameters of a slot differ in their
names. The result has the name of the first item and belongs to all instances or cannot be assigned
as it says. The parameters of merged slots differ in their names again, which stand in the order in
which they first occur. -/
theorem merge_associative (a b c : Item) (hab : a.category = b.category)
    (hbc : b.category = c.category) (ha : a.parameterNames.Nodup) (hb : b.parameterNames.Nodup) :
    (a.merge b).merge c = a.merge (b.merge c) ∧
    (((a.merge b).merge c).name = a.name ∧ ((a.merge b).merge c).shared? = a.shared? ∧
      ((a.merge b).merge c).readonly? = a.readonly?) ∧
    ((a.merge b).parameterNames.Nodup ∧
      (a.merge b).parameterNames = (a.parameterNames ++ b.parameterNames).eraseDups) := by
  refine ⟨merge_merge hab hbc hb, ⟨rfl, ?_, ?_⟩, ?_⟩
  · simp [shared?, merge]
  · simp [readonly?, merge]
  · obtain ⟨hnames, hnodup⟩ := Detail.parameterNames_merge hab ha
    exact ⟨hnodup, hnames⟩

/-- Three mentions of a slot: the type and the description of a parameter come from different ones,
and the last mention adds a parameter. -/
theorem merge_associative_slot :
    let slot (parameters : List SlotParameter) : Item :=
      { name := "default", detail := .slot parameters }
    let first := slot [{ name := "item" }]
    let second := slot [{ name := "index", type := .ofName "number" },
      { name := "item", description := "Row." }]
    let third := slot [{ name := "item", type := .ofName "string" }, { name := "last" }]
    (first.parameterNames.Nodup ∧ second.parameterNames.Nodup ∧ third.parameterNames.Nodup) ∧
    (first.merge second).merge third = first.merge (second.merge third) ∧
    (first.merge second).parameterNames = ["item", "index"] := by
  intro slot first second third
  have hfirst : first.parameterNames.Nodup := by decide
  have hsecond : second.parameterNames.Nodup := by decide
  obtain ⟨hassoc, _, _⟩ := merge_associative first second third rfl rfl hfirst hsecond
  exact ⟨⟨hfirst, hsecond, by decide⟩, hassoc, by decide⟩

end Item

end ComponentApi
