import Mathlib.Data.List.Chain
import ComponentApi.Proofs.Markup.Tags

/-!
# Printing and scanning a template

Scanning the text of a fragment reports the pieces of its nodes at their places, and nothing else
(`Fragment.events_print`). What the reported spans cover gives the pieces back.
-/

namespace ComponentApi.Markup

open Text

namespace Scanner

variable {position start : Nat} {text after tag : List Char}

/-! ### Nodes -/

/-- The closing tag of an element, behind `<`. -/
lemma reads_closing (name : CloseName) :
    Reads ⟨.beforeTag, start, tag⟩ position ('/' :: name.text ++ ['>']) after
      [.close ⟨position + 1, position + 1 + byteLength name.text⟩]
      ⟨.text, position + 1 + byteLength name.text + 1, tag⟩ := by
  obtain ⟨text, hne, hplain⟩ := name
  cases text with
  | nil => exact absurd rfl hne
  | cons c text =>
    obtain ⟨hblank, hgt⟩ := hplain c List.mem_cons_self
    have hslash : ∀ rest, step ⟨.beforeTag, start, tag⟩ position '/' rest =
        (⟨.beforeClose, start, tag⟩, []) := fun _ => rfl
    have hfirst : ∀ rest, step ⟨.beforeClose, start, tag⟩ (position + 1) c rest =
        (⟨.closeName, position + 1, tag⟩, []) := by
      intro rest
      simp [step, hblank, hgt]
    have hname : Reads ⟨.closeName, position + 1, tag⟩ (position + 1 + c.utf8Size) text
        (['>'] ++ after) [] ⟨.closeName, position + 1, tag⟩ :=
      reads_closeName fun c hc => hplain c (List.mem_cons_of_mem _ hc)
    have hclose : ∀ stop rest, step ⟨.closeName, position + 1, tag⟩ stop '>' rest =
        (⟨.text, stop + 1, tag⟩, [.close ⟨position + 1, stop⟩]) := fun _ _ => rfl
    have hread := Reads.skip (hslash _)
      (Reads.skip (hfirst _) (hname.append (Reads.char (hclose _ _))))
    simpa [Nat.add_assoc] using hread

/-- The name of an opening tag, behind `<`, is reported later. -/
lemma reads_openName (name : TagName) :
    Reads ⟨.beforeTag, start, tag⟩ position name.text after []
      ⟨.tagName, position, name.text.reverse⟩ := by
  obtain ⟨first, rest, hletter, hplain⟩ := name
  have hfirst : ∀ behind, step ⟨.beforeTag, start, tag⟩ position first behind =
      (⟨.tagName, position, [first]⟩, []) := by
    intro behind
    have hbang : first ≠ '!' := by rintro rfl; cases hletter
    have hquestion : first ≠ '?' := by rintro rfl; cases hletter
    simp [step, hbang, hquestion, hletter]
  have hrest : Reads ⟨.tagName, position, [first]⟩ (position + first.utf8Size) rest after []
      ⟨.tagName, position, rest.reverse ++ [first]⟩ := reads_tagName hplain
  have hread := Reads.skip (hfirst _) hrest
  simpa [TagName.text] using hread

/-- A node that is no text is read from one place in the text to another. The text before it, if
there is any, is reported first. -/
def ReadsNode (node : Node) : Prop :=
  ∀ start position tag after, ∃ tag',
    ReadsPieces ⟨.text, start, tag⟩ position (pendingText ⟨.text, start, tag⟩ position) node.pieces
      after .text tag'

/-- The text before a tag or a comment is reported at its `<`. -/
lemma reads_lt (start : Nat) {events : List Event} {last : Scanner}
    (h : Reads ⟨.beforeTag, position, tag⟩ (position + 1) text after events last) :
    Reads ⟨.text, start, tag⟩ position ('<' :: text) after
      (pendingText ⟨.text, start, tag⟩ position ++ events) last := by
  have hstep : step ⟨.text, start, tag⟩ position '<' (text ++ after) =
      (⟨.beforeTag, position, tag⟩, pendingText ⟨.text, start, tag⟩ position) := rfl
  exact Reads.cons hstep h

/-- An expression in braces is read as what it was written for. -/
lemma readsNode_mustache (inside : Enclosed) : ReadsNode (.mustache inside) := by
  intro start position tag after
  have hopen : ∀ rest, step ⟨.text, start, tag⟩ position '\x7b' rest =
      (⟨.mustache .opened, position + 1, tag⟩, pendingText ⟨.text, start, tag⟩ position) :=
    fun _ => rfl
  have hinside : Reads ⟨.mustache .opened, position + 1, tag⟩ (position + 1)
      (inside.text ++ ['\x7d']) after
      [.mustache ⟨position + 1, position + 1 + byteLength inside.text⟩]
      ⟨.text, position + 1 + byteLength inside.text + 1, tag⟩ := by
    refine reads_enclosed followsBraces_mustache inside ?_
    intro braces rest hfeed
    simp [step, hfeed, enter]
  refine ⟨tag, readsPieces_of ?_ (Reads.cons (hopen _) hinside) ?_ ?_⟩
  · simp [Node.pieces, Piece.print]
  · simp [Char.utf8Size]
    omega
  · simp [Node.pieces, Piece.print, Piece.event?, Char.utf8Size]

/-- A comment is read as what it was written for. -/
lemma readsNode_comment (note : CommentText) : ReadsNode (.comment note) := by
  intro start position tag after
  have hbang : ∀ rest, step ⟨.beforeTag, position, tag⟩ (position + 1) '!' rest =
      (⟨.beforeDeclaration, position + 2, tag⟩, []) := fun _ => rfl
  have hdash : ∀ rest, step ⟨.beforeDeclaration, position + 2, tag⟩ (position + 2) '-' rest =
      (⟨.beforeComment, position + 3, tag⟩, []) := fun _ => rfl
  have hopen : ∀ rest, step ⟨.beforeComment, position + 3, tag⟩ (position + 3) '-' rest =
      (⟨.comment, position + 4, tag⟩, []) := fun _ => rfl
  have hinside : Reads ⟨.comment, position + 4, tag⟩ (position + 4) note.text
      (['-', '-', '>'] ++ after) [] ⟨.comment, position + 4, tag⟩ := reads_comment note.unclosed
  have hclose : ∀ stop, Reads ⟨.comment, position + 4, tag⟩ stop ['-', '-', '>'] after
      [.comment ⟨position + 4, stop⟩] ⟨.text, stop + 3, tag⟩ := by
    intro stop
    have hmark : step ⟨.comment, position + 4, tag⟩ stop '-' (['-', '>'] ++ after) =
        (⟨.commentEnd, position + 4, tag⟩, [.comment ⟨position + 4, stop⟩]) := by
      simp [step, dropStart?]
    have hsecond : ∀ rest, step ⟨.commentEnd, position + 4, tag⟩ (stop + 1) '-' rest =
        (⟨.commentEnd, position + 4, tag⟩, []) := fun _ => rfl
    have hthird : ∀ rest, step ⟨.commentEnd, position + 4, tag⟩ (stop + 2) '>' rest =
        (⟨.text, stop + 3, tag⟩, []) := fun _ => rfl
    exact Reads.cons hmark (Reads.skip (hsecond _) (Reads.char (hthird _)))
  have hread := reads_lt start
    (Reads.skip (hbang _) (Reads.skip (hdash _) (Reads.skip (hopen _) (hinside.append (hclose _)))))
  refine ⟨tag, readsPieces_of ?_ hread ?_ ?_⟩
  · simp [Node.pieces, Piece.print]
  · simp [Char.utf8Size]
    omega
  · simp [Node.pieces, Piece.print, Piece.event?, Char.utf8Size]

/-- A closing tag is read as what it was written for. -/
lemma readsNode_closeTag (name : CloseName) : ReadsNode (.closeTag name) := by
  intro start position tag after
  have hname : Reads ⟨.beforeTag, position, tag⟩ (position + 1) ('/' :: name.text ++ ['>']) after
      _ _ := reads_closing name
  refine ⟨tag, readsPieces_of ?_ (reads_lt start hname) ?_ ?_⟩
  · simp [Node.pieces, Node.closePieces, Piece.print]
  · simp [Char.utf8Size]
    omega
  · simp [Node.pieces, Node.closePieces, Piece.print, Piece.event?, Char.utf8Size]

/-- An opening tag is read up to its content. -/
lemma reads_openTag (name : TagName) (attributes : List (Gap × TagAttribute)) (ending : Ending)
    (start position : Nat) (tag after : List Char) :
    ReadsPieces ⟨.text, start, tag⟩ position (pendingText ⟨.text, start, tag⟩ position)
      (.mark ['<'] :: .openName name.text :: tagPieces false attributes ending) after
      (modeAfter name.text.reverse ending) name.text.reverse := by
  have hname : Reads ⟨.beforeTag, position, tag⟩ (position + 1) name.text
      (Piece.printAll (tagPieces false attributes ending) ++ after) []
      ⟨.tagName, position + 1, name.text.reverse⟩ := reads_openName name
  have hread := reads_lt start (hname.append (beforeGap_tagName.reads_tag attributes ending after))
  show Reads _ _ _ _ _ _
  simpa [Piece.print, Piece.event?, Char.utf8Size, Nat.add_assoc] using hread

/-- An opening tag without raw text is read as what it was written for. -/
lemma readsNode_openTag (name : TagName) (hplain : isRawTextTag name.text = false)
    (attributes : List (Gap × TagAttribute)) (ending : Ending) :
    ReadsNode (.openTag name hplain attributes ending) := by
  intro start position tag after
  have hmode : modeAfter name.text.reverse ending = .text := by
    cases ending with
    | «open» => simp [modeAfter, contentMode, hplain]
    | selfClosing gap => rfl
  have hread := reads_openTag name attributes ending start position tag after
  rw [hmode] at hread
  exact ⟨_, hread⟩

/-- A name with raw text is the name of an opening tag. -/
lemma exists_tagName {name : List Char} (hraw : isRawTextTag name = true) :
    ∃ tagName : TagName, tagName.text = name := by
  have hletter := isAlpha_of_isRawTextTag hraw
  cases name with
  | nil => cases hraw
  | cons first rest =>
    refine ⟨⟨first, rest, hletter first List.mem_cons_self, ?_⟩, rfl⟩
    intro c hc
    exact endsTagName_of_isAlpha (hletter c (List.mem_cons_of_mem _ hc))

/-- A name with raw text is the name of a closing tag. -/
lemma exists_closeName {name : List Char} (hraw : isRawTextTag name = true) :
    ∃ closeName : CloseName, closeName.text = name := by
  have hletter := isAlpha_of_isRawTextTag hraw
  refine ⟨⟨name, ?_, ?_⟩, rfl⟩
  · rintro rfl
    cases hraw
  · intro c hc
    have hend := endsTagName_of_isAlpha (hletter c hc)
    simp [endsTagName] at hend
    exact ⟨hend.2, hend.1.2⟩

/-- The text that is pending behind it is reported as its piece. -/
lemma pendingText_eq (mode : Mode) (start : Nat) (tag text : List Char) :
    pendingText ⟨mode, start, tag⟩ (start + byteLength text) =
      Piece.eventsFrom start (Piece.unlessEmpty .text text) := by
  cases text with
  | nil => simp [pendingText, Piece.unlessEmpty]
  | cons c text =>
    have hpos : 0 < c.utf8Size + byteLength text := Nat.add_pos_left c.utf8Size_pos _
    simp [pendingText, Piece.unlessEmpty, Piece.event?, hpos]

/-- The content of an element with raw text and its closing tag. -/
lemma reads_rawContent (element : RawElement) (position : Nat) (after : List Char) :
    ReadsPieces ⟨.rawText, position, element.name.reverse⟩ position []
      (Piece.unlessEmpty .text element.content ++ Node.closePieces element.closing) after .text
      element.name.reverse := by
  obtain ⟨name, hraw, attributes, content, hunclosed, closing, hcloses⟩ := element
  obtain ⟨closeName, rfl⟩ := exists_closeName ((isRawTextTag_congr hcloses).trans hraw)
  have hcontent : Reads ⟨.rawText, position, name.reverse⟩ position content
      ('<' :: ('/' :: closeName.text ++ ['>'] ++ after)) [] ⟨.rawText, position, name.reverse⟩ :=
    reads_rawText hraw hunclosed
  have hend : closesRawText name ('/' :: closeName.text ++ ['>'] ++ after) = true := by
    refine closesRawText_iff.2 ⟨closeName.text, '>' :: after, by simp, hcloses, ?_⟩
    intro c hc
    cases hc
    rfl
  have hlt : ∀ stop, step ⟨.rawText, position, name.reverse⟩ stop '<'
      ('/' :: closeName.text ++ ['>'] ++ after) = (⟨.beforeTag, stop, name.reverse⟩,
        pendingText ⟨.rawText, position, name.reverse⟩ stop) := by
    intro stop
    rw [step, List.reverse_reverse, hend]
    rfl
  have hprint : Piece.printAll (Piece.unlessEmpty .text content) = content :=
    Piece.printAll_unlessEmpty (fun _ => rfl) content
  have hread := hcontent.append (Reads.cons (hlt _) (reads_closing closeName))
  rw [pendingText_eq] at hread
  refine readsPieces_of ?_ hread ?_ ?_
  · simp [Node.closePieces, hprint, Piece.print]
  · simp [Char.utf8Size]
    omega
  · simp [Node.closePieces, hprint, Piece.print, Piece.event?, Char.utf8Size]

/-- An element with raw text is read as what it was written for. -/
lemma readsNode_raw (element : RawElement) : ReadsNode (.raw element) := by
  intro start position tag after
  obtain ⟨tagName, htag⟩ := exists_tagName element.raw
  have hmode : modeAfter element.name.reverse .open = .rawText := by
    simp [modeAfter, contentMode, element.raw]
  have hopen := reads_openTag tagName element.attributes .open start position tag
  rw [htag, hmode] at hopen
  have hread := (hopen _).append (reads_rawContent element _ after)
  rw [← List.append_assoc] at hread
  exact ⟨_, hread⟩

/-- Every node but a text is read as what it was written for. -/
lemma readsNode {node : Node} (h : node.isText = false) : ReadsNode node := by
  cases node with
  | text plain => cases h
  | mustache inside => exact readsNode_mustache inside
  | comment note => exact readsNode_comment note
  | openTag name hplain attributes ending => exact readsNode_openTag name hplain attributes ending
  | closeTag name => exact readsNode_closeTag name
  | raw element => exact readsNode_raw element

/-! ### Fragments -/

/-- A run over the text of some nodes reports the text before them and their pieces. If there is
text before them, they do not start with a text. -/
lemma run_nodes {nodes : List Node}
    (hchain : nodes.IsChain fun first second => ¬ (first.isText ∧ second.isText))
    (h : start = position ∨ ∀ node ∈ nodes.head?, node.isText = false) :
    run ⟨.text, start, tag⟩ position (Piece.printAll (nodes.flatMap Node.pieces)) =
      pendingText ⟨.text, start, tag⟩ position ++
        Piece.eventsFrom position (nodes.flatMap Node.pieces) ++ [.finish] := by
  induction nodes generalizing start position tag with
  | nil => simp [finish]
  | cons node rest ih =>
    obtain ⟨hnext, hrest⟩ := List.isChain_cons.1 hchain
    rw [List.flatMap_cons, Piece.printAll_append, Piece.eventsFrom_append]
    cases htext : node.isText with
    | false =>
      obtain ⟨tag', hread⟩ := readsNode htext start position tag
        (Piece.printAll (rest.flatMap Node.pieces))
      rw [Reads.run_eq hread, ih hrest (.inl rfl)]
      simp [pendingText]
    | true =>
      cases node with
      | text plain =>
        -- There is no text before this one, so its section starts where it starts.
        have hsame : start = position := by
          rcases h with hsame | hfirst
          · exact hsame
          · rw [hfirst _ rfl] at htext
            cases htext
        subst hsame
        have hread : ∀ after, Reads ⟨.text, start, tag⟩ start plain.text after []
            ⟨.text, start, tag⟩ := fun _ => reads_text plain.plain
        have hafter : ∀ node ∈ rest.head?, node.isText = false := by
          intro node hnode
          simpa [Node.isText] using hnext node hnode
        have hpiece : Piece.unlessEmpty .text plain.text = [.text plain.text] := by
          simp [Piece.unlessEmpty, plain.nonempty]
        simp only [Node.pieces, Piece.printAll_cons, Piece.printAll_nil, List.append_nil,
          Piece.print]
        rw [(hread _).run_eq, ih hrest (.inr hafter), pendingText_eq, hpiece]
        simp [pendingText]
      | _ => cases htext

end Scanner

/-- The event of a piece, read in the text around the piece, gives the piece back. -/
lemma Piece.ofEvent?_event? (piece : Piece) (before after : List Char) :
    (piece.event? (byteLength before)).bind (ofEvent? (before ++ (piece.print ++ after))) =
      if piece.isReported then some piece else none := by
  cases piece with
  | mark => rfl
  | openEnd => rfl
  | selfClose => rfl
  | attributeEnd => rfl
  | _ => simp [event?, ofEvent?, print, isReported, Span.slice?_append]

/-- The events of some pieces, read in the text around them, give the reported pieces back. -/
lemma Piece.ofEvent?_eventsFrom (pieces : List Piece) (before after : List Char) :
    (eventsFrom (byteLength before) pieces).filterMap
      (ofEvent? (before ++ (printAll pieces ++ after))) = pieces.filter isReported := by
  induction pieces generalizing before with
  | nil => rfl
  | cons piece rest ih =>
    have hpiece := ofEvent?_event? piece before (printAll rest ++ after)
    have hrest := ih (before ++ piece.print)
    simp only [byteLength_append, List.append_assoc] at hrest
    rw [eventsFrom, List.filterMap_append, printAll_cons, List.append_assoc, hrest,
      List.filter_cons]
    cases hevent : piece.event? (byteLength before) with
    | none =>
      rw [hevent, Option.bind_none] at hpiece
      cases hreported : piece.isReported with
      | false => rfl
      | true => simp [hreported] at hpiece
    | some event =>
      rw [hevent, Option.bind_some] at hpiece
      cases hreported : piece.isReported with
      | false => simp [hpiece, hreported]
      | true => simp [hpiece, hreported]

/-- Scanning the text of a fragment reports its pieces, each with its place in bytes, and then the
end. The spans of the events cover exactly the texts of the pieces. -/
theorem Fragment.events_print (fragment : Fragment) :
    events fragment.print = Piece.eventsFrom 0 fragment.pieces ++ [.finish] ∧
    (events fragment.print).filterMap (Piece.ofEvent? fragment.print) =
      fragment.pieces.filter Piece.isReported := by
  have hevents : events fragment.print = Piece.eventsFrom 0 fragment.pieces ++ [.finish] := by
    show Scanner.run ⟨.text, 0, []⟩ 0 (Piece.printAll (fragment.nodes.flatMap Node.pieces)) = _
    exact Scanner.run_nodes fragment.separated (.inl rfl)
  refine ⟨hevents, ?_⟩
  have hpieces := Piece.ofEvent?_eventsFrom fragment.pieces [] []
  rw [List.nil_append, List.append_nil, byteLength_nil] at hpieces
  rw [hevents, List.filterMap_append, Fragment.print, hpieces]
  simp [Piece.ofEvent?]

/-- A fragment with a late end, a value that is not reported since it is empty, and raw text whose
closing tag is spelled in capitals. -/
theorem Fragment.events_print_title :
    let gap : Gap := ⟨[' '], by simp, by simp [isMarkupBlank]⟩
    let attributes : List (Gap × TagAttribute) := [
      (gap, .bare ⟨['b'], by simp, by simp, by simp [endsTagName, isMarkupBlank]⟩),
      (gap, .valued ⟨['c'], by simp, by simp, by simp [endsTagName, isMarkupBlank]⟩
        (.double [] (by simp)))]
    let fragment : Fragment := ⟨[
      .text ⟨['t'], by simp, by simp⟩,
      .openTag ⟨'a', [], rfl, by simp⟩ rfl attributes .open,
      .raw {
        name := "title".toList
        raw := rfl
        attributes := []
        content := ['x']
        unclosed := fun _ _ _ _ h => absurd (h.subset List.mem_cons_self) (by simp)
        closing := "TITLE".toList
        closes := rfl }], by simp [Node.isText]⟩
    fragment.print = "t<a b c=\"\"><title>x</TITLE>".toList ∧
    events fragment.print = [.text ⟨0, 1⟩, .openName ⟨2, 3⟩, .attributeName ⟨4, 5⟩,
      .attributeEnd .noValue 6, .attributeName ⟨6, 7⟩, .attributeEnd .double 9, .openEnd 10,
      .openName ⟨12, 17⟩, .openEnd 17, .text ⟨18, 19⟩, .close ⟨21, 26⟩, .finish] := by
  intro gap attributes fragment
  exact ⟨by decide, (Fragment.events_print fragment).1.trans (by decide)⟩


end ComponentApi.Markup
