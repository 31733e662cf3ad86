import ComponentApi.Session
import ComponentApi.Proofs.Markup.Mentions

/-!
# Forwarded events over a session

A directive `on:` without a value mentions an event that the component forwards. Templates mention
the same event many times, but an item is added only for the first mention, and for the first public
one behind it if the first is not public (`counted`). What decides is the visibility that the
extraction remembers for the event, and that is always the one of the last item that was added.

`Step.mentions` lists what a step of a session mentions: the occurrences in the events of its
template, which are found by looking at the events alone. `Extraction.Accounts` says that the
forwarded items and the remembered visibility of an event are those that the mentions so far give.
Every attribute keeps this up, and so tags, templates and steps do (`Extraction.Tells`).
-/

namespace ComponentApi

/-- Whether the item is an event that a tag forwards. An event that a script dispatches belongs to
no tag. -/
def Item.isForwarded (item : Item) : Bool :=
  match item.detail with
  | .event detail => detail.parent?.isSome
  | _ => false

/-- An event that a script dispatches is not forwarded. -/
lemma Item.IsDispatched.isForwarded {item : Item} (h : item.IsDispatched) :
    item.isForwarded = false := by
  rw [Item.isForwarded, show item.detail = .event {} from h]
  rfl

/-! ### Mentions that count -/

/-- Of the mentions of one event, those for which an item is added. -/
def counted : List Item → List Item
  | [] => []
  | first :: later =>
    if first.visibility = .public then [first]
    else first :: (later.find? (·.visibility = .public)).toList

/-- One mention more counts unless it repeats what the last counted one says. -/
lemma counted_concat (mentions : List Item) (item : Item) :
    counted (mentions ++ [item]) =
      if Markup.isRepeated ((counted mentions).getLast?.map (·.visibility)) item.visibility then
        counted mentions
      else counted mentions ++ [item] := by
  cases mentions with
  | nil => by_cases h : item.visibility = .public <;> simp [counted, Markup.isRepeated, h]
  | cons first later =>
    by_cases hfirst : first.visibility = .public
    · simp [counted, Markup.isRepeated, hfirst]
    · rw [List.cons_append, counted, counted, if_neg hfirst, if_neg hfirst, List.find?_append]
      cases hlater : later.find? (·.visibility = .public) with
      | none =>
        by_cases h : item.visibility = .public <;> simp [Markup.isRepeated, hfirst, h]
      | some second =>
        have hsecond : second.visibility = .public := by simpa using List.find?_some hlater
        simp [Markup.isRepeated, hsecond]

/-- At most two mentions count, and the second of two is public while the first is not. -/
lemma counted_eq_cons_cons {mentions rest : List Item} {first second : Item}
    (h : counted mentions = first :: second :: rest) :
    rest = [] ∧ first.visibility ≠ .public ∧ second.visibility = .public := by
  cases mentions with
  | nil => cases h
  | cons item later =>
    rw [counted] at h
    split_ifs at h with hitem
    · cases h
    · cases hlater : later.find? (·.visibility = .public) with
      | none =>
        rw [hlater] at h
        cases h
      | some raised =>
        rw [hlater] at h
        cases h
        exact ⟨rfl, hitem, by simpa using List.find?_some hlater⟩

namespace Extraction

/-- The items for an event that is forwarded. -/
def forwardedItems (found : Extraction) (name : String) : List Item :=
  found.items.filter fun item => item.isForwarded && item.name == name

/-- What is found of a forwarded event is what the mentions give: the items are those of the
mentions that count, the remembered visibility is that of the last item, and a second item is the
last one and public, while the first is not. -/
structure Accounts (mentions : List Item) (name : String) (found : Extraction) : Prop where
  items : found.forwardedItems name = counted (mentions.filter (·.name == name))
  remembered : found.forwarded.get? name =
    (found.forwardedItems name).getLast?.map (·.visibility)
  twice : ∀ first second rest, found.forwardedItems name = first :: second :: rest →
    rest = [] ∧ first.visibility ≠ .public ∧ second.visibility = .public

/-- From the one extraction to the other, the mentions are accounted for. -/
def Tells (mentions : List Item) (found next : Extraction) : Prop :=
  ∀ earlier name, found.Accounts earlier name → next.Accounts (earlier ++ mentions) name

/-- Nothing changes in what is found of forwarded events. -/
structure KeepsForwarded (found next : Extraction) : Prop where
  forwarded : next.forwarded = found.forwarded
  items : ∀ name, next.forwardedItems name = found.forwardedItems name

section Relations

variable {first second third found next : Extraction} {mentions more : List Item}

/-- The items and the remembered visibility say all: at most two mentions count. -/
lemma Accounts.of_counted {name : String}
    (items : found.forwardedItems name = counted (mentions.filter (·.name == name)))
    (remembered : found.forwarded.get? name =
      (counted (mentions.filter (·.name == name))).getLast?.map (·.visibility)) :
    found.Accounts mentions name where
  items := items
  remembered := by rw [remembered, items]
  twice := fun _ _ _ h => counted_eq_cons_cons (items.symm.trans h)

/-- Mentions in two parts are accounted for one after the other. -/
lemma Tells.trans (h : Tells mentions first second) (h' : Tells more second third) :
    Tells (mentions ++ more) first third := by
  intro earlier name hfirst
  have hthird := h' _ name (h earlier name hfirst)
  rwa [List.append_assoc] at hthird

/-- Nothing changes where nothing happens. -/
lemma KeepsForwarded.refl (found : Extraction) : KeepsForwarded found found := ⟨rfl, fun _ => rfl⟩

/-- Two steps that change nothing change nothing together. -/
lemma KeepsForwarded.trans (h : KeepsForwarded first second) (h' : KeepsForwarded second third) :
    KeepsForwarded first third :=
  ⟨h'.forwarded.trans h.forwarded, fun name => (h'.items name).trans (h.items name)⟩

/-- An item of another kind changes nothing. -/
lemma KeepsForwarded.emit {item : Item} (h : item.isForwarded = false) (found : Extraction) :
    KeepsForwarded found (found.emit item) := by
  refine ⟨rfl, fun name => ?_⟩
  simp [forwardedItems, Extraction.emit, h]

/-- A search for dispatched events forwards none. -/
lemma Searched.keepsForwarded (h : Searched found next) : KeepsForwarded found next := by
  obtain ⟨⟨new, hnew, hdispatched⟩, _⟩ := h.toAdds
  refine ⟨h.forwarded, fun name => ?_⟩
  have hnone : new.filter (fun item => item.isForwarded && item.name == name) = [] := by
    rw [List.filter_eq_nil_iff]
    intro item hitem
    simp [(hdispatched item hitem).isForwarded]
  rw [forwardedItems, hnew, List.filter_append, hnone, List.append_nil]
  rfl

/-- Where nothing changes, nothing has to be accounted for. -/
lemma KeepsForwarded.tells (h : KeepsForwarded found next) : Tells [] found next := by
  intro earlier name haccounts
  rw [List.append_nil]
  exact .of_counted ((h.items name).trans haccounts.items)
    (by rw [h.forwarded, haccounts.remembered, haccounts.items])

/-- Without a mention, nothing has to be accounted for. -/
lemma Tells.refl (found : Extraction) : Tells [] found found := (KeepsForwarded.refl found).tells

/-- What is found after a mention of a forwarded event. -/
def forward (found : Extraction) (item : Item) : Extraction :=
  if Markup.isRepeated (found.forwarded.get? item.name) item.visibility then found
  else { found with forwarded := found.forwarded.put item.name item.visibility }.emit item

/-- A mention is accounted for: it counts for its own event, and for others nothing changes. -/
lemma forward_tells {item : Item} (h : item.isForwarded = true) (found : Extraction) :
    Tells [item] found (found.forward item) := by
  intro earlier name haccounts
  have hremembered := haccounts.remembered
  rw [haccounts.items] at hremembered
  by_cases hname : item.name = name
  · subst hname
    have hcounted := counted_concat (earlier.filter (·.name == item.name)) item
    rw [← hremembered] at hcounted
    have hmentions : (earlier ++ [item]).filter (·.name == item.name) =
        earlier.filter (·.name == item.name) ++ [item] := by simp
    unfold forward
    split_ifs with hrepeated
    · rw [if_pos hrepeated, ← hmentions] at hcounted
      exact .of_counted (haccounts.items.trans hcounted.symm) (by rw [hremembered, hcounted])
    · rw [if_neg hrepeated, ← hmentions] at hcounted
      refine .of_counted ?_ ?_
      · rw [hcounted, ← haccounts.items]
        simp [forwardedItems, Extraction.emit, h]
      · rw [hcounted]
        simp [Extraction.emit]
  · have hmentions : (earlier ++ [item]).filter (·.name == name) =
        earlier.filter (·.name == name) := by simp [hname]
    have hkeeps : (found.forward item).forwardedItems name = found.forwardedItems name ∧
        (found.forward item).forwarded.get? name = found.forwarded.get? name := by
      unfold forward
      split_ifs
      · exact ⟨rfl, rfl⟩
      · refine ⟨by simp [forwardedItems, Extraction.emit, hname], ?_⟩
        exact Assoc.get?_put_of_ne found.forwarded item.visibility hname
    exact .of_counted (by rw [hkeeps.1, hmentions, haccounts.items])
      (by rw [hkeeps.2, hmentions, hremembered])

end Relations

end Extraction

namespace Markup

open Extraction

section Attributes

variable {template : Template} {comment? : Option Span} {tag : List Char} {attr : Attribute}
  {found next : Extraction}

/-- The item for a forwarded event is one. -/
lemma isForwarded_of_forwardedItem? {directive : List Char} {item : Item}
    (h : forwardedItem? template comment? tag attr directive = some item) :
    item.isForwarded = true := by
  unfold forwardedItem? at h
  split at h
  · cases h
  · cases h
  · cases h
    rfl

/-- A directive without a value forwards the event that it names, if it names one. -/
lemma extractForwarded_eq (directive : List Char) :
    extractForwarded template comment? tag attr directive found =
      (forwardedItem? template comment? tag attr directive).elim found found.forward := by
  unfold extractForwarded forwardedItem?
  cases Text.pieces '|' directive with
  | nil => rfl
  | cons event modifiers => cases event <;> rfl

/-- An attribute accounts for what it mentions. -/
lemma extractAttribute_tells
    (h : extractAttribute template comment? tag found attr = .ok next) :
    Tells (attr.mention? template comment? tag).toList found next := by
  unfold extractAttribute at h
  unfold Attribute.mention?
  cases hdirective : Directive.ofName? (template.slice attr.name) with
  | none =>
    rw [hdirective] at h
    cases h
    exact .refl found
  | some directive =>
    rw [hdirective] at h
    cases directive with
    | reference =>
      cases h
      unfold extractReference
      cases valueRoot? template attr with
      | none => exact .refl found
      | some target => exact (KeepsForwarded.emit rfl found).tells
    | bind property =>
      cases h
      unfold extractBinding
      split_ifs
      · exact .refl found
      · exact (KeepsForwarded.emit rfl found).tells
    | use action =>
      cases h
      unfold extractAction
      split_ifs
      · exact .refl found
      · exact (KeepsForwarded.emit rfl found).tells
    | on event =>
      cases hvalue : attr.value? with
      | some value =>
        simp only [hvalue, extractHandler] at h
        split at h
        · exact (readInline_searched h).keepsForwarded.tells
        · cases h
          exact .refl found
      | none =>
        simp only [hvalue] at h
        cases h
        rw [extractForwarded_eq]
        dsimp only
        cases hitem : forwardedItem? template comment? tag attr event with
        | none => exact .refl found
        | some item => exact forward_tells (isForwarded_of_forwardedItem? hitem) found

/-- Attributes account for what they mention up to the first failure. -/
lemma extractAttributes_tells (attributes : List Attribute) :
    Tells (mentionsOf template comment? tag attributes) found
      (extractAttributes template comment? tag found attributes).1 := by
  induction attributes generalizing found with
  | nil => exact .refl found
  | cons attr rest ih =>
    have hattr : StopsAt _ (extractAttribute template comment? tag found attr) :=
      extractAttribute_stopsAt attr
    rw [extractAttributes]
    cases hown : (attr.handler? template).bind (handlerFailure? template) with
    | some failure =>
      have hnone : mentionsOf template comment? tag (attr :: rest) = [] := by
        simp [mentionsOf, Attribute.isReadable, hown]
      rw [hown] at hattr
      generalize extractAttribute template comment? tag found attr = result at hattr
      cases hattr
      rw [hnone]
      exact .refl found
    | none =>
      have hmore : mentionsOf template comment? tag (attr :: rest) =
          (attr.mention? template comment? tag).toList ++
            mentionsOf template comment? tag rest := by
        cases hmention : attr.mention? template comment? tag <;>
          simp [mentionsOf, Attribute.isReadable, hown, hmention]
      rw [hown] at hattr
      obtain ⟨next, hnext⟩ := hattr.exists_ok_iff.2 rfl
      rw [hnext, hmore]
      exact (extractAttribute_tells hnext).trans ih

end Attributes

/-! ### Mentions in a visit -/

section Visits

variable {template : Template}

/-- What has been found when the attributes have been read of a tag that the visit is reading. -/
def Visit.amid (visit : Visit) (template : Template) (tag : Tag) (stop : Nat)
    (read : List Attribute) : Extraction :=
  let name := template.slice tag.name
  let found := visit.withOverview template
  let found :=
    if name == "slot".toList then found.emit (slotItem template visit.comment? tag stop) else found
  (extractAttributes template visit.comment? name found read).1

/-- What is found when a tag has been read is what is found behind all of its attributes. -/
lemma readTag_found {visit : Visit} (tag : Tag) (stop : Nat) (h : visit.failure? = none) :
    (visit.readTag template tag stop).found = visit.amid template tag stop tag.attributes := by
  simp only [Visit.readTag, h, Option.isSome_none, Bool.false_eq_true, if_false]
  rfl

/-- The overview changes nothing in what is found of forwarded events. -/
lemma withOverview_keepsForwarded (visit : Visit) :
    KeepsForwarded visit.found (visit.withOverview template) := by
  unfold Visit.withOverview extractOverview
  split_ifs
  · exact ⟨rfl, fun _ => rfl⟩
  · exact .refl _
  · exact .refl _

/-- All the while that a tag is read, the mentions so far are accounted for. -/
lemma amid_tells (visit : Visit) (tag : Tag) (stop : Nat) (read : List Attribute) :
    Tells (mentionsOf template visit.comment? (template.slice tag.name) read) visit.found
      (visit.amid template tag stop read) := by
  unfold Visit.amid
  dsimp only
  have hoverview : KeepsForwarded visit.found (visit.withOverview template) :=
    withOverview_keepsForwarded visit
  split_ifs
  · exact (hoverview.trans (.emit rfl _)).tells.trans (extractAttributes_tells read)
  · exact hoverview.tells.trans (extractAttributes_tells read)

/-- Reading a tag accounts for what its attributes mention, unless a failure came before. -/
lemma readTag_tells (visit : Visit) (tag : Tag) (stop : Nat) :
    Tells
      (if visit.failure?.isNone then
        mentionsOf template visit.comment? (template.slice tag.name) tag.attributes else [])
      visit.found (visit.readTag template tag stop).found := by
  cases hfailure : visit.failure? with
  | none =>
    rw [readTag_found tag stop hfailure]
    exact amid_tells visit tag stop tag.attributes
  | some failure =>
    simp only [Visit.readTag, hfailure]
    exact .refl _

/-- The end of a tag accounts for what the tag mentions. -/
lemma endTag_tells (visit : Visit) {event : Event} (stop : Nat) (selfClosing : Bool)
    (hevent : event.endsTag = true) :
    Tells (visit.mentionsAt template event) visit.found
      (visit.endTag template stop selfClosing).found := by
  unfold Visit.endTag Visit.mentionsAt
  cases visit.tag? with
  | none => exact .refl _
  | some tag =>
    dsimp only
    cases hskipped : Visit.isSkipped (template.slice tag.name) with
    | true => simpa using Tells.refl visit.found
    | false =>
      let reading : Visit :=
        { visit with
          tag? := none
          inRawText :=
            visit.inRawText || (Text.isRawTextTag (template.slice tag.name) && !selfClosing) }
      have hread : Tells _ visit.found (reading.readTag template tag stop).found :=
        readTag_tells reading tag stop
      simpa [hevent] using hread

/-- An event accounts for what the tag mentions that it ends. -/
lemma step_tells (visit : Visit) (event : Event) :
    Tells (visit.mentionsAt template event) visit.found
      (Visit.step template visit event).found := by
  cases hevent : event.endsTag with
  | true =>
    cases event with
    | openEnd position => exact endTag_tells visit position false hevent
    | selfClose position => exact endTag_tells visit position true hevent
    | _ => cases hevent
  | false =>
    have hnone : visit.mentionsAt template event = [] := by
      unfold Visit.mentionsAt
      cases visit.tag? <;> simp [hevent]
    obtain hquiet | ⟨hends, _⟩ := step_cases template visit event
    · rw [hnone, hquiet.found]
      exact .refl _
    · cases hevent.symm.trans hends

/-- Events account for what the visit meets in them. -/
lemma foldl_step_tells (visit : Visit) (events : List Event) :
    Tells (visit.mentions template events) visit.found
      (events.foldl (Visit.step template) visit).found := by
  induction events generalizing visit with
  | nil => exact .refl _
  | cons event rest ih => exact (step_tells visit event).trans (ih _)

/-- What was found before decides nothing but what is found: a handler fails by its text alone. -/
lemma readTag_withFound (visit : Visit) (found : Extraction) {tag : Tag} (stop : Nat)
    (h : Visit.isSkipped (template.slice tag.name) = false) :
    ∃ next, ({ visit with found } : Visit).readTag template tag stop =
      { visit.readTag template tag stop with found := next } := by
  obtain ⟨_, _, _, _, _, _, failure?⟩ := visit
  unfold Visit.readTag
  cases failure? with
  | some failure => exact ⟨found, rfl⟩
  | none =>
    simp only [Option.isSome_none, Bool.false_eq_true, if_false]
    rw [extractTag_failure stop h, extractTag_failure stop h]
    exact ⟨_, rfl⟩

/-- What was found before does not decide what the end of a tag does to the rest of a visit. -/
lemma endTag_withFound (visit : Visit) (found : Extraction) (stop : Nat) (selfClosing : Bool) :
    ∃ next, ({ visit with found } : Visit).endTag template stop selfClosing =
      { visit.endTag template stop selfClosing with found := next } := by
  obtain ⟨before, comment?, beforeFirst, inRawText, tag?, pending?, failure?⟩ := visit
  unfold Visit.endTag
  cases tag? with
  | none => exact ⟨found, rfl⟩
  | some tag =>
    dsimp only
    cases hskipped : Visit.isSkipped (template.slice tag.name) with
    | true => exact ⟨found, rfl⟩
    | false =>
      let reading : Visit :=
        { found := before, comment?, beforeFirst, pending?, failure?
          inRawText :=
            inRawText || (Text.isRawTextTag (template.slice tag.name) && !selfClosing) }
      obtain ⟨next, hnext⟩ := readTag_withFound reading found stop hskipped
      refine ⟨next, ?_⟩
      simp only [Bool.false_eq_true, if_false]
      rw [hnext]

/-- What was found before does not decide what an event does to the rest of a visit. -/
lemma step_withFound (visit : Visit) (found : Extraction) (event : Event) :
    ∃ next, Visit.step template { visit with found } event =
      { Visit.step template visit event with found := next } := by
  cases event with
  | openEnd position => exact endTag_withFound visit found position false
  | selfClose position => exact endTag_withFound visit found position true
  | text span | close span =>
    refine ⟨found, ?_⟩
    simp only [Visit.step]
    split_ifs <;> rfl
  | attributeEnd quote position =>
    obtain ⟨_, _, _, _, _, pending?, _⟩ := visit
    cases pending? <;> exact ⟨found, rfl⟩
  | _ => exact ⟨found, rfl⟩

/-- What a visit mentions does not depend on what was found before. -/
lemma mentions_withFound (visit : Visit) (found : Extraction) (events : List Event) :
    ({ visit with found } : Visit).mentions template events = visit.mentions template events := by
  induction events generalizing visit found with
  | nil => rfl
  | cons event rest ih =>
    obtain ⟨next, hnext⟩ : ∃ next, Visit.step template { visit with found } event =
        { Visit.step template visit event with found := next } := step_withFound visit found event
    rw [Visit.mentions, Visit.mentions, hnext, ih]
    rfl

end Visits

end Markup

/-! ### Scripts -/

namespace Script

/-- A declaration or an import forwards no event. -/
lemma Introduces.isForwarded {excerpt : Excerpt} {bound : Bound} {item : Item}
    (h : Introduces excerpt bound item) : item.isForwarded = false := by
  cases h with
  | «variable» | method => rfl
  | imported path specifier =>
    simp only [Item.isForwarded, Item.documented, importDetail]
    split_ifs <;> rfl

/-- A statement that exposes a name forwards no event. -/
lemma Stmt.Exposes.isForwarded {excerpt : Excerpt} {statement : Stmt} {item : Item}
    (h : statement.Exposes excerpt item) : item.isForwarded = false := by
  cases h with
  | exported => rfl
  | assigned _ _ _ _ hcategory =>
    cases hdetail : item.detail <;> simp_all [Item.isForwarded, Item.category, Detail.category]

/-- Whatever a script is read for, it forwards no event. -/
lemma outline_keepsForwarded (excerpt : Excerpt) :
    Outline excerpt (fun _ => True) (fun item => item.isForwarded = false)
      fun _ => Extraction.KeepsForwarded where
  refl := .refl
  trans := .trans
  announce := fun h found => (Extraction.KeepsForwarded.emit h.isForwarded found).trans
    ⟨rfl, fun _ => rfl⟩
  expose := fun h found => .emit h found
  know := fun _ _ _ => ⟨rfl, fun _ => rfl⟩
  expr := fun {e} _ statement? found =>
    (e.search_finds excerpt statement? { found }).found.keepsForwarded
  stmt := fun {statement} _ found =>
    (statement.search_finds excerpt _ { found }).found.keepsForwarded
  function := fun {definition} _ found =>
    (definition.search_finds excerpt { found }).found.keepsForwarded

end Script

/-! ### Sessions -/

/-- The events that a step mentions as forwarded. -/
def Step.mentions : Step → List Item
  | .markup template offset => Markup.occurrences ⟨template, offset⟩ (Markup.events template)
  | _ => []

namespace Extraction

open Script Markup

/-- A visit accounts for what the events mention, whatever was found before. -/
lemma visit_tells (template : Template) (found : Extraction) (reported : List Event) :
    Tells (mentions template reported) found (Visit.of template found reported).found := by
  have h : Tells _ found (Visit.of template found reported).found :=
    foldl_step_tells { found } reported
  rwa [mentions_withFound { found := default } found] at h

/-- A step of a session accounts for what it mentions. -/
lemma perform_tells (found : Extraction) (step : Step) :
    Tells step.mentions found (found.perform step).1 := by
  cases step with
  | script block =>
    simp only [perform, readScript]
    cases parseModule? block.isTypeScript block.content.toList with
    | none => exact .refl found
    | some statements =>
      exact ((outline_keepsForwarded (.ofBlock block)).statements (fun _ _ _ _ => trivial)
        (fun _ _ _ h => h.isForwarded) found).tells
  | inline expression offset =>
    simp only [perform]
    cases h : found.readInline expression offset with
    | error failure => exact .refl found
    | ok next => exact (readInline_searched h).keepsForwarded.tells
  | markup template offset =>
    have hmentions : mentions ⟨template, offset⟩ (events template) =
        occurrences ⟨template, offset⟩ (events template) :=
      mentions_eq_occurrences (List.append_nil (events template)).symm
    rw [Step.mentions, ← hmentions]
    exact visit_tells ⟨template, offset⟩ found (events template)
  | declare | addFactory | addDispatcher => exact KeepsForwarded.tells ⟨rfl, fun _ => rfl⟩

/-- The steps of a session account for what they mention. -/
lemma performAll_tells (found : Extraction) (steps : List Step) :
    Tells (steps.flatMap Step.mentions) found (found.performAll steps) := by
  induction steps generalizing found with
  | nil => exact .refl found
  | cons step rest ih => exact (found.perform_tells step).trans (ih _)

/-- At the start, nothing has been mentioned and nothing is found. -/
lemma accounts_start (settings : Settings) (name : String) :
    ({ settings } : Extraction).Accounts [] name :=
  .of_counted rfl rfl

/-- Over a session that starts with nothing, an item is added for the first mention of a forwarded
event and, if that is not public, for the first public mention behind it, and for no other. The
visibility that is remembered is that of the last item. This is so after any steps, and in a
template that is read after them at every event and, while a tag is read, at every attribute. At
every event of the template, what it has mentioned are the occurrences in its tags so far, and the
comment that is kept for the next tag is the one that is pending in front of it. -/
theorem forwarded_accounts (settings : Settings) (steps : List Step) (template : Template)
    (reported : List Event) (tag : Tag) (stop : Nat) (read : List Attribute) (name : String) :
    let found := ({ settings } : Extraction).performAll steps
    let visit := Visit.of template found reported
    found.Accounts (steps.flatMap Step.mentions) name ∧
    visit.found.Accounts (steps.flatMap Step.mentions ++ mentions template reported) name ∧
    (visit.amid template tag stop read).Accounts
      (steps.flatMap Step.mentions ++ mentions template reported ++
        mentionsOf template visit.comment? (template.slice tag.name) read) name ∧
    ∀ count, let earlier := (events template.text).take count
      mentions template earlier = occurrences template earlier ∧
      (Visit.of template found earlier).comment? = pendingComment template earlier := by
  intro found visit
  have hfound := performAll_tells { settings } steps [] name (accounts_start settings name)
  have hvisit := visit_tells template found reported _ name hfound
  refine ⟨hfound, hvisit, amid_tells visit tag stop read _ name hvisit, fun count => ?_⟩
  have hsplit : events template.text =
      (events template.text).take count ++ (events template.text).drop count :=
    (List.take_append_drop count _).symm
  exact ⟨mentions_eq_occurrences hsplit, comment_eq_pendingComment found hsplit⟩

/-- A protected mention behind a private one adds nothing, and a public one adds an item once. -/
example : ((({ settings := {} } : Extraction).performAll
    [.markup "<!--@private--><A on:x/><!--@protected--><B on:x/>".toList 0,
      .markup "<C on:x/><D on:x/>".toList 50]).forwardedItems "x").map
        (fun item => (item.parent?, item.visibility)) =
    [(some "A", .private), (some "C", .public)] := by
  decide +kernel

end Extraction

end ComponentApi
