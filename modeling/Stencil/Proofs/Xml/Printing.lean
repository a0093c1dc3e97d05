import Stencil.Proofs.Xml.PrintedTag
import Stencil.Xml.Parse

/-!
# Documents as they are printed

An element is printed as its start tag, its content and its end tag, or as an empty tag alone, with
texts escaped.  Reading a printed document gives the element back: a piece of content that has been
printed is read as itself, wherever it stands, and what is open around it is not touched.

Two texts side by side would be read as one, and a text of blanks is dropped, so that content with
either of them does not keep its shape.

- `Content.Plain`: content that keeps its shape;
- `Content.print`, `Element.print`: how it is printed;
- `Build.Reads`: reading on from what has been read, whatever the fuel;
- `Build.reads_print`: a printed piece of content is read as itself;
- `Element.parse_print`: **a printed element is read back.**
-/

namespace Stencil

namespace Content

/-- Whether no two texts stand side by side. -/
def apart : List Content → Bool
  | .text _ :: .text _ :: _ => false
  | _ :: rest => apart rest
  | [] => true

/-- Content without blank texts, without neighbouring texts and with words for names, at any
depth.  What the texts and the values of attributes hold is not restricted. -/
inductive Plain : Content → Prop
  | text {s : String} (visible : (Text.trim s.toList).isEmpty = false) : Plain (.text s)
  | element {name : String} {attributes : List (String × String)} {content : List Content}
      (tag : Tag.Plain name attributes) (pieces : ∀ c ∈ content, Plain c)
      (texts : apart content = true) : Plain (.element name attributes content)

mutual

/-- How a piece of content is printed.  Of the elements without content, those that are `short` are
printed as an empty tag. -/
def print (short : Element → Bool) : Content → List Char
  | .text s => (Escape.markup s).toList
  | .element name attributes content =>
    '<' :: (Tag.print name attributes ++
      if content.isEmpty && short ⟨name, attributes, content⟩ then ['/', '>']
      else '>' :: (printAll short content ++ '<' :: '/' :: (name.toList ++ ['>'])))

/-- How pieces of content are printed. -/
def printAll (short : Element → Bool) : List Content → List Char
  | [] => []
  | c :: rest => print short c ++ printAll short rest

end

/-- Whether a piece of content ends in front of what follows: a text only in front of markup. -/
def EndsBefore (rest : List Char) : Content → Prop
  | .text _ => ∃ t, rest = '<' :: t
  | .element .. => True

/-- Behind a text there is an element or the end tag. -/
theorem endsBefore_printAll (short : Element → Bool) {c : Content} {content : List Content}
    (h : apart (c :: content) = true) (rest : List Char) :
    apart content = true ∧ c.EndsBefore (printAll short content ++ '<' :: rest) := by
  cases c with
  | element => exact ⟨h, trivial⟩
  | text s =>
    cases content with
    | nil => exact ⟨rfl, _, rfl⟩
    | cons d content =>
      cases d with
      | element => exact ⟨h, _, rfl⟩
      | text => exact absurd h Bool.false_ne_true

end Content

/-- How an element is printed. -/
def Element.print (short : Element → Bool) (e : Element) : String :=
  String.ofList (e.asContent.print short)

/-! ## Cutting pieces off -/

namespace Piece

open Tag

/-- A text ends where markup starts. -/
theorem next?_markup {s : String} (h : (Escape.markup s).toList ≠ []) (rest : List Char) :
    next? ((Escape.markup s).toList ++ '<' :: rest) =
      some (text (Escape.markup s).toList, '<' :: rest) := by
  have hnone : '<' ∉ (Escape.markup s).toList :=
    fun hmem => (Escape.harmless_markup s '<' hmem).1 rfl
  obtain ⟨c, cs, hcs⟩ := List.exists_cons_of_ne_nil h
  have hc : c ≠ '<' := by
    rintro rfl
    exact hnone (hcs ▸ List.mem_cons_self ..)
  have hself : next? ((Escape.markup s).toList ++ '<' :: rest) =
      some (text (((Escape.markup s).toList ++ '<' :: rest).takeWhile (· ≠ '<')),
        ((Escape.markup s).toList ++ '<' :: rest).dropWhile (· ≠ '<')) := by
    rw [hcs, List.cons_append, next?]
    exact fun _ heq => hc (List.cons.inj heq).1
  rw [hself, Text.takeWhile_append_cons hnone, Text.dropWhile_append_cons hnone]

/-- Behind `<`, a letter starts a tag. -/
theorem markup?_print {name : String} (h : IsWord name) (attributes : List (String × String))
    (rest : List Char) :
    markup? (print name attributes ++ rest) =
      (cutTag none (print name attributes ++ rest)).map fun (tag, rest) => (ofTag tag, rest) := by
  obtain ⟨c, cs, hname, hletters⟩ := h.eq_cons
  have hc : c.isAlpha = true := hletters c (List.mem_cons_self ..)
  rw [print, hname, List.cons_append, List.cons_append, markup?]
  all_goals exact fun _ heq => ne_of_isAlpha hc rfl (List.cons.inj heq).1

/-- A printed tag ends in a letter or a quote. -/
theorem print_eq_concat {name : String} (h : IsWord name) (attributes : List (String × String)) :
    ∃ s c, print name attributes = s ++ [c] ∧ c ≠ '/' := by
  obtain rfl | ⟨front, last, rfl⟩ := List.eq_nil_or_concat attributes
  · obtain hnil | ⟨s, c, hs⟩ := List.eq_nil_or_concat name.toList
    · exact absurd (String.toList_eq_nil_iff.mp hnil) h.1
    · rw [List.concat_eq_append] at hs
      refine ⟨s, c, by rw [print, List.flatMap_nil, List.append_nil, hs], ?_⟩
      exact ne_of_isAlpha (h.2 c (hs ▸ List.mem_append_right s (List.mem_singleton_self c))) rfl
  · refine ⟨name.toList ++ front.flatMap printAttribute ++
      ' ' :: (last.1.toList ++ '=' :: '"' :: (Escape.markup last.2).toList), '"', ?_, by decide⟩
    simp [print, printAttribute]

theorem ofTag_print {name : String} (h : IsWord name) (attributes : List (String × String)) :
    ofTag (print name attributes) = startTag (print name attributes) := by
  obtain ⟨s, c, hprint, hc⟩ := print_eq_concat h attributes
  rw [hprint, ofTag, List.reverse_concat]
  split
  · next heq => exact absurd (List.cons.inj heq).1 hc
  · rfl

theorem ofTag_slash (tag : List Char) : ofTag (tag ++ ['/']) = emptyTag tag := by
  rw [ofTag, List.reverse_concat]
  exact congrArg emptyTag tag.reverse_reverse

variable {name : String} {attributes : List (String × String)}

theorem next?_startTag (h : Plain name attributes) (rest : List Char) :
    next? ('<' :: (print name attributes ++ '>' :: rest)) =
      some (startTag (print name attributes), rest) := by
  rw [next?, markup?_print h.word, cutTag_print h, cutTag, if_pos rfl, Option.map_some,
    Option.map_some, inFront, List.append_nil]
  dsimp only
  rw [ofTag_print h.word]

theorem next?_emptyTag (h : Plain name attributes) (rest : List Char) :
    next? ('<' :: (print name attributes ++ '/' :: '>' :: rest)) =
      some (emptyTag (print name attributes), rest) := by
  have hcut : cutTag none ('/' :: '>' :: rest) = some (['/'], rest) := rfl
  rw [next?, markup?_print h.word, cutTag_print h, hcut, Option.map_some, Option.map_some, inFront]
  dsimp only
  rw [ofTag_slash]

/-- The name in an end tag has no spaces behind it. -/
theorem endName_word (h : IsWord name) : endName name.toList = name.toList := by
  have hspace : ∀ c ∈ name.toList.reverse, ¬isSpace c = true := by
    intro c hc
    rw [isSpace_of_isAlpha (h.2 c (List.mem_reverse.mp hc))]
    exact Bool.false_ne_true
  have htrim : (name.toList.reverse.dropWhile isSpace).reverse = name.toList := by
    cases hname : name.toList.reverse with
    | nil =>
      rw [List.reverse_eq_nil_iff.mp hname]
      rfl
    | cons c cs =>
      rw [hname] at hspace
      rw [List.dropWhile_cons_of_neg (hspace c (List.mem_cons_self ..)), ← hname,
        List.reverse_reverse]
  rw [endName, htrim]
  exact ite_self _

theorem next?_endTag (h : IsWord name) (rest : List Char) :
    next? ('<' :: '/' :: (name.toList ++ '>' :: rest)) = some (endTag name.toList, rest) := by
  rw [next?, markup?, cutTag_outside fun c hc => outside_of_isAlpha (h.2 c hc), cutTag,
    if_pos rfl, Option.map_some, Option.map_some, inFront, List.append_nil]
  dsimp only
  rw [endName_word h]

end Piece

/-! ## Reading on -/

namespace Build

/-- Reading a text to its end leads from one state to another; a unit of fuel for each character is
enough. -/
def Reads (b : Build) (s : List Char) (b' : Build) : Prop :=
  ∀ fuel, s.length ≤ fuel → (Piece.listFrom fuel s).bind (List.foldlM add? b) = some b'

theorem reads_nil (b : Build) : b.Reads [] b := by
  intro fuel _
  cases fuel <;> rfl

/-- One piece is cut off and added, and reading goes on behind it. -/
theorem Reads.step {b b₁ b' : Build} {s rest : List Char} {piece : Piece}
    (hnext : Piece.next? s = some (piece, rest)) (hadd : b.add? piece = some b₁)
    (hlength : rest.length < s.length) (h : b₁.Reads rest b') : b.Reads s b' := by
  intro fuel hfuel
  obtain ⟨fuel, rfl⟩ : ∃ k, fuel = k + 1 := ⟨fuel - 1, by omega⟩
  have hrest := h fuel (by omega)
  obtain ⟨pieces, hpieces, hfold⟩ := Option.bind_eq_some_iff.mp hrest
  rw [Piece.listFrom, hnext, Option.bind_eq_bind, Option.bind_some]
  · dsimp only
    rw [hpieces, Option.bind_eq_bind, Option.bind_some]
    show (b.add? piece).bind (fun b => pieces.foldlM add? b) = some b'
    rw [hadd, Option.bind_some, hfold]
  · rintro rfl
    exact absurd hlength (Nat.not_lt_zero _)

/-- Adds a complete piece of content. -/
def add (b : Build) : Content → Build
  | .text s => b.addContent (.text s)
  | .element name attributes content => b.addElement ⟨name, attributes, content⟩

/-- In an open element, complete pieces of content go the same way. -/
theorem add_opened (e : OpenElement) (opened : List OpenElement) (root : Option Element)
    (c : Content) :
    (⟨e :: opened, root⟩ : Build).add c =
      ⟨{ e with content := c :: e.content } :: opened, root⟩ := by
  cases c <;> rfl

theorem open?_print {name : String} {attributes : List (String × String)}
    (h : Tag.Plain name attributes) :
    open? (Tag.print name attributes) = some ⟨name, attributes, []⟩ := by
  rw [open?, Tag.attributes?_print h, Option.map_some, Tag.name_print h.word, String.ofList_toList]

theorem add?_startTag {name : String} {attributes : List (String × String)}
    (h : Tag.Plain name attributes) (b : Build) :
    b.add? (.startTag (Tag.print name attributes)) =
      some ⟨⟨name, attributes, []⟩ :: b.opened, b.root⟩ := by
  rw [add?, open?_print h]
  rfl

theorem add?_emptyTag {name : String} {attributes : List (String × String)}
    (h : Tag.Plain name attributes) (b : Build) :
    b.add? (.emptyTag (Tag.print name attributes)) =
      some (b.add (.element name attributes [])) := by
  rw [add?, open?_print h]
  rfl

/-- An end tag completes the element of its name, with the content that has been read. -/
theorem add?_endTag (b : Build) (name : String) (attributes : List (String × String))
    (content : List Content) :
    (⟨⟨name, attributes, content.reverse⟩ :: b.opened, b.root⟩ : Build).add?
      (.endTag name.toList) = some (b.add (.element name attributes content)) := by
  rw [add?]
  dsimp only
  rw [String.ofList_toList, if_pos rfl, OpenElement.close, List.reverse_reverse]
  rfl

/-- An escaped text is added as it was before. -/
theorem add?_markup {s : String} (h : (Text.trim s.toList).isEmpty = false) (b : Build) :
    b.add? (.text (Escape.markup s).toList) = some (b.addContent (.text s)) := by
  rw [add?, Escape.resolve?_markup, Option.map_some, h, if_neg Bool.false_ne_true,
    String.ofList_toList]

/-! ## Reading what has been printed -/

variable {short : Element → Bool}

theorem reads_text {s : String} (h : (Text.trim s.toList).isEmpty = false) {b b' : Build}
    {rest : List Char} (hb : (b.addContent (.text s)).Reads ('<' :: rest) b') :
    b.Reads ((Escape.markup s).toList ++ '<' :: rest) b' := by
  have hne : (Escape.markup s).toList ≠ [] := by
    intro hnil
    have hresolved := Escape.resolve?_markup s
    rw [hnil] at hresolved
    rw [← Option.some.inj hresolved] at h
    exact absurd h (by decide)
  refine Reads.step (Piece.next?_markup hne rest) (add?_markup h b) ?_ hb
  have := List.length_pos_iff.mpr hne
  rw [List.length_append]
  omega

/-- Printed pieces of content are read into the innermost open element, if each of them is read as
itself.  The induction is on the pieces. -/
theorem reads_printAll {content : List Content}
    (hpieces : ∀ c ∈ content, ∀ {b b' : Build} {rest : List Char}, c.EndsBefore rest →
      (b.add c).Reads rest b' → b.Reads (c.print short ++ rest) b')
    (hapart : Content.apart content = true) {e : OpenElement} {opened : List OpenElement}
    {root : Option Element} {b' : Build} {rest : List Char}
    (h : (⟨{ e with content := content.reverse ++ e.content } :: opened, root⟩ : Build).Reads
      ('<' :: rest) b') :
    (⟨e :: opened, root⟩ : Build).Reads (Content.printAll short content ++ '<' :: rest) b' := by
  induction content generalizing e with
  | nil => exact h
  | cons c content ih =>
    obtain ⟨hrest, hend⟩ := Content.endsBefore_printAll short hapart rest
    obtain ⟨hc, hcontent⟩ := List.forall_mem_cons.mp hpieces
    rw [Content.printAll, List.append_assoc]
    refine hc hend ?_
    rw [add_opened]
    refine ih hcontent hrest ?_
    rw [List.reverse_cons, List.append_assoc] at h
    exact h

/-- **A printed piece of content is read as itself**, whatever is open around it and whatever
follows.  The induction is on the content, over all states of the reader. -/
theorem reads_print {c : Content} (h : c.Plain) {b b' : Build} {rest : List Char}
    (hend : c.EndsBefore rest) (hb : (b.add c).Reads rest b') :
    b.Reads (c.print short ++ rest) b' := by
  induction h generalizing b b' rest with
  | text hvisible =>
    obtain ⟨t, rfl⟩ := hend
    exact reads_text hvisible hb
  | @element name attributes content htag _ hapart ih =>
    rw [Content.print, List.cons_append, List.append_assoc]
    by_cases hshort : (content.isEmpty && short ⟨name, attributes, content⟩) = true
    · have hnil := List.isEmpty_iff.mp (Bool.and_eq_true_iff.mp hshort).1
      rw [if_pos hshort]
      rw [hnil] at hb
      refine Reads.step (Piece.next?_emptyTag htag rest) (add?_emptyTag htag b) ?_ hb
      simp only [List.length_cons, List.length_append]
      omega
    · have hread : (⟨⟨name, attributes, []⟩ :: b.opened, b.root⟩ : Build).Reads
          (Content.printAll short content ++ '<' :: '/' :: (name.toList ++ '>' :: rest)) b' := by
        refine reads_printAll (fun c hc => ih c hc) hapart ?_
        rw [List.append_nil]
        refine Reads.step (Piece.next?_endTag htag.word rest)
          (add?_endTag b name attributes content) ?_ hb
        simp only [List.length_cons, List.length_append]
        omega
      rw [if_neg hshort]
      simp only [List.cons_append, List.append_assoc, List.nil_append]
      refine Reads.step (Piece.next?_startTag htag _) (add?_startTag htag b) ?_ hread
      simp only [List.length_cons, List.length_append]
      omega

end Build

/-- **A printed element is read back**: with the same name, the same attributes in their order, and
the same elements and texts in document order at every depth, whatever markup the texts and the
values of attributes hold, and whichever of the elements without content are printed as an empty
tag. -/
theorem Element.parse_print {e : Element} (h : e.asContent.Plain) (short : Element → Bool) :
    Element.parse (e.print short) = .ok e := by
  have hreads : Build.empty.Reads (e.asContent.print short) (Build.empty.add e.asContent) := by
    rw [← List.append_nil (e.asContent.print short)]
    exact Build.reads_print h trivial (Build.reads_nil _)
  have hmark : Piece.withoutMark (e.asContent.print short) = e.asContent.print short := rfl
  rw [Element.parse, Element.print, String.toList_ofList, Piece.ofText?, hmark,
    hreads _ (Nat.le_succ _)]
  rfl

/-- Markup in a text and in a value, a text between elements, and an empty tag. -/
theorem Element.parse_print_markup :
    let e : Element := ⟨"note", [("to", "\"you\" & <me>"), ("at", "")],
      [.text " 1 < 2 ", .element "br" [] [], .text "]]>",
        .element "p" [("to", "&lt;")] [.text "'"]]⟩
    e.asContent.Plain ∧
    e.print (fun _ => true) = "<note to=\"&quot;you&quot; &amp; &lt;me&gt;\" at=\"\">" ++
      " 1 &lt; 2 <br/>]]&gt;<p to=\"&amp;lt;\">'</p></note>" ∧
    Element.parse (e.print fun _ => true) = .ok e := by
  intro e
  have hbreak : (Content.element "br" [] []).Plain :=
    .element ⟨by decide, by decide, by decide⟩ (fun _ hc => absurd hc List.not_mem_nil) rfl
  have hparagraph : (Content.element "p" [("to", "&lt;")] [.text "'"]).Plain :=
    .element ⟨by decide, by decide, by decide⟩
      (List.forall_mem_singleton.mpr (.text (by decide))) rfl
  have h : e.asContent.Plain :=
    .element ⟨by decide, by decide, by decide⟩
      (List.forall_mem_cons.mpr ⟨.text (by decide), List.forall_mem_cons.mpr ⟨hbreak,
        List.forall_mem_cons.mpr ⟨.text (by decide), List.forall_mem_singleton.mpr hparagraph⟩⟩⟩)
      rfl
  exact ⟨h, by decide +kernel, Element.parse_print h _⟩

end Stencil
