import Stencil.Value.Basic

/-!
# Document order

Every piece of content in an element has an address: the positions of the pieces that lead to it,
from the outermost one inward.  Document order is the lexicographic order of addresses, so that an
element comes before all that is in it, and this before what follows the element.

What an element answers to a key is told by these addresses: a list of all the elements of a name is
in document order, however they are nested, and a single element is the last one of that list.

- `Content.at?`: the piece at an address;
- `InDocumentOrder`: pieces that are told in document order, each of them once;
- `Content.inside`, `Content.pieces`: all pieces with their addresses; they are complete
  (`Content.mem_inside`) and in document order (`Content.inDocumentOrder_inside`);
- `Content.found`: those of one sort; the elements of a name and the texts are found in this way
  (`Content.namedIn_eq`, `Content.textOf_eq`);
- `Element.get?_documentOrder`: **the keys of an element follow document order.**
-/

namespace Stencil

/-- Pieces with their addresses, an earlier one before a later one, each of them once. -/
def InDocumentOrder {α : Type} (pieces : List (List Nat × α)) : Prop := pieces.Pairwise (·.1 < ·.1)

namespace Content

/-! ## Addresses -/

/-- The piece at an address in a piece of content, which itself is at the empty one. -/
def at? : Content → (address : List Nat) → Option Content
  | c, [] => some c
  | .text _, _ :: _ => none
  | .element _ _ content, i :: address => content[i]?.bind (at? · address)

mutual

/-- The pieces inside a piece, at any depth, with their addresses. -/
def inside : Content → List (List Nat × Content)
  | .text _ => []
  | .element _ _ content => pieces 0 content

/-- The pieces in some content, the first of which is at position `i`, and the pieces inside them. -/
def pieces (i : Nat) : List Content → List (List Nat × Content)
  | [] => []
  | c :: rest => ([i], c) :: ((inside c).map (Prod.map (i :: ·) id) ++ pieces (i + 1) rest)

end

theorem mem_map_cons {i : Nat} {address : List Nat} {d : Content}
    {found : List (List Nat × Content)} :
    (address, d) ∈ found.map (Prod.map (i :: ·) id) ↔
      ∃ rest, address = i :: rest ∧ (rest, d) ∈ found := by
  constructor
  · intro h
    obtain ⟨⟨rest, d⟩, hmem, heq⟩ := List.mem_map.mp h
    obtain ⟨rfl, rfl⟩ := Prod.mk.inj heq
    exact ⟨rest, rfl, hmem⟩
  · rintro ⟨rest, rfl, hmem⟩
    exact List.mem_map.mpr ⟨(rest, d), hmem, rfl⟩

mutual

/-- **All pieces are found**, but for the outermost one. -/
theorem mem_inside {address : List Nat} {d : Content} : ∀ c : Content,
    (address, d) ∈ inside c ↔ address ≠ [] ∧ c.at? address = some d
  | .text _ => by
    rw [inside]
    cases address <;> simp [at?]
  | .element _ _ content => by
    rw [inside, mem_pieces content]
    constructor
    · rintro ⟨j, rest, rfl, c, hc, h⟩
      refine ⟨List.cons_ne_nil _ _, ?_⟩
      rw [Nat.zero_add, at?, hc]
      exact h
    · rintro ⟨hne, h⟩
      obtain ⟨j, rest, rfl⟩ := List.exists_cons_of_ne_nil hne
      obtain ⟨c, hc, h⟩ := Option.bind_eq_some_iff.mp h
      exact ⟨j, rest, by rw [Nat.zero_add], c, hc, h⟩

theorem mem_pieces {i : Nat} {address : List Nat} {d : Content} :
    ∀ content : List Content, (address, d) ∈ pieces i content ↔
      ∃ j rest, address = (i + j) :: rest ∧ ∃ c, content[j]? = some c ∧ c.at? rest = some d
  | [] => by simp [pieces]
  | c :: content => by
    have later : (address, d) ∈ pieces (i + 1) content ↔ _ := mem_pieces content
    rw [pieces, List.mem_cons, List.mem_append, mem_map_cons, later]
    constructor
    · rintro (heq | ⟨rest, rfl, hmem⟩ | ⟨j, rest, rfl, found⟩)
      · obtain ⟨rfl, rfl⟩ := Prod.mk.inj heq
        exact ⟨0, [], rfl, _, rfl, rfl⟩
      · exact ⟨0, rest, rfl, c, rfl, ((mem_inside c).mp hmem).2⟩
      · exact ⟨j + 1, rest, by rw [Nat.add_right_comm, Nat.add_assoc], found⟩
    · rintro ⟨j, rest, rfl, c', hc, h⟩
      cases j with
      | succ j => exact .inr (.inr ⟨j, rest, by rw [Nat.add_right_comm, Nat.add_assoc], c', hc, h⟩)
      | zero =>
        obtain rfl := Option.some.inj hc
        cases rest with
        | nil => exact .inl (Prod.ext rfl (Option.some.inj h).symm)
        | cons k rest =>
          exact .inr (.inl ⟨k :: rest, rfl, (mem_inside c).mpr ⟨List.cons_ne_nil k rest, h⟩⟩)

end

mutual

/-- **Pieces are found in document order.** -/
theorem inDocumentOrder_inside : ∀ c : Content, InDocumentOrder (inside c)
  | .text _ => .nil
  | .element _ _ content => inDocumentOrder_pieces content

theorem inDocumentOrder_pieces {i : Nat} : ∀ content : List Content,
    InDocumentOrder (pieces i content)
  | [] => .nil
  | c :: content => by
    -- what is in a piece comes behind it, and in front of all that follows the piece
    have within : InDocumentOrder ((inside c).map (Prod.map (i :: ·) id)) :=
      List.pairwise_map.mpr ((inDocumentOrder_inside c).imp fun h =>
        List.cons_lt_cons_iff.mpr (.inr ⟨rfl, h⟩))
    have later {e : List Nat × Content} (he : e ∈ pieces (i + 1) content) (address : List Nat) :
        i :: address < e.1 := by
      obtain ⟨j, rest, haddress, -⟩ := (mem_pieces content).mp he
      rw [haddress]
      exact List.cons_lt_cons_iff.mpr (.inl (by omega))
    rw [pieces, InDocumentOrder, List.pairwise_cons, List.pairwise_append]
    refine ⟨fun e he => ?_, within, inDocumentOrder_pieces content, fun e he e' he' => ?_⟩
    · rcases List.mem_append.mp he with he | he
      · obtain ⟨rest, haddress, hrest⟩ := mem_map_cons.mp he
        obtain ⟨k, rest, rfl⟩ := List.exists_cons_of_ne_nil ((mem_inside c).mp hrest).1
        rw [haddress]
        exact List.cons_lt_cons_iff.mpr (.inr ⟨rfl, List.nil_lt_cons k rest⟩)
      · exact later he []
    · obtain ⟨rest, haddress, -⟩ := mem_map_cons.mp he
      rw [haddress]
      exact later he' rest

end

/-! ## Pieces of one sort -/

variable {α : Type}

/-- The pieces inside a piece that are of some sort, with their addresses. -/
def found (sort : Content → Option α) (c : Content) : List (List Nat × α) :=
  (inside c).filterMap fun e => (sort e.2).map (e.1, ·)

variable {sort : Content → Option α} {c : Content}

theorem inDocumentOrder_found (sort : Content → Option α) (c : Content) :
    InDocumentOrder (found sort c) := by
  refine List.Pairwise.filterMap _ (fun e e' h x hx y hy => ?_) (inDocumentOrder_inside c)
  obtain ⟨_, -, rfl⟩ := Option.map_eq_some_iff.mp hx
  obtain ⟨_, -, rfl⟩ := Option.map_eq_some_iff.mp hy
  exact h

theorem mem_found {address : List Nat} {a : α} : (address, a) ∈ found sort c ↔
    address ≠ [] ∧ ∃ d, c.at? address = some d ∧ sort d = some a := by
  constructor
  · intro h
    obtain ⟨⟨address, d⟩, hmem, hsort⟩ := List.mem_filterMap.mp h
    obtain ⟨a, ha, heq⟩ := Option.map_eq_some_iff.mp hsort
    obtain ⟨rfl, rfl⟩ := Prod.mk.inj heq
    obtain ⟨hne, hat⟩ := (mem_inside c).mp hmem
    exact ⟨hne, d, hat, ha⟩
  · rintro ⟨hne, d, hat, ha⟩
    exact List.mem_filterMap.mpr ⟨(address, d), (mem_inside c).mpr ⟨hne, hat⟩, by rw [ha]; rfl⟩

theorem map_snd_found (sort : Content → Option α) (c : Content) :
    (found sort c).map Prod.snd = (inside c).filterMap (sort ·.2) := by
  rw [found, List.map_filterMap]
  congr 1
  funext e
  cases sort e.2 <;> rfl

/-- An element with this name. -/
def named? (name : String) : Content → Option Element
  | .text _ => none
  | .element n attributes content => if n = name then some ⟨n, attributes, content⟩ else none

/-- A text. -/
def text? : Content → Option String
  | .text s => some s
  | .element .. => none

theorem named?_eq_some {name : String} {e : Element} :
    named? name c = some e ↔ c = e.asContent ∧ e.name = name := by
  cases c with
  | text s => exact ⟨nofun, fun h => nomatch h.1⟩
  | element n attributes content =>
    rw [named?]
    constructor
    · intro h
      obtain ⟨hn, heq⟩ := Option.ite_none_right_eq_some.mp h
      obtain rfl := Option.some.inj heq
      exact ⟨rfl, hn⟩
    · rintro ⟨heq, hname⟩
      obtain ⟨rfl, rfl, rfl⟩ := Content.element.inj heq
      exact if_pos hname

theorem text?_eq_some {s : String} : text? c = some s ↔ c = .text s := by
  cases c <;> simp [text?]

mutual

theorem namedIn_eq (name : String) : ∀ c : Content,
    namedIn name c = (named? name c).toList ++ (inside c).filterMap (named? name ·.2)
  | .text _ => rfl
  | .element n attributes content => by
    rw [namedIn, inside, named?, namedInAll_eq]
    split <;> rfl

theorem namedInAll_eq (name : String) {i : Nat} : ∀ content : List Content,
    namedInAll name content = (pieces i content).filterMap (named? name ·.2)
  | [] => rfl
  | c :: content => by
    have later : namedInAll name content = _ := namedInAll_eq name (i := i + 1) content
    rw [namedInAll, namedIn_eq, later, pieces, List.filterMap_cons, List.filterMap_append,
      List.filterMap_map]
    cases named? name c <;> rfl

end

mutual

theorem textOf_eq : ∀ c : Content,
    textOf c = String.join ((text? c).toList ++ (inside c).filterMap (text? ·.2))
  | .text s => by simp [textOf, text?, inside]
  | .element _ _ content => textOfAll_eq content

theorem textOfAll_eq {i : Nat} : ∀ content : List Content,
    textOfAll content = String.join ((pieces i content).filterMap (text? ·.2))
  | [] => rfl
  | c :: content => by
    have later : textOfAll content = _ := textOfAll_eq (i := i + 1) content
    rw [textOfAll, textOf_eq, later, ← String.join_append, pieces, List.filterMap_cons,
      List.filterMap_append, List.filterMap_map]
    cases text? c <;> rfl

end

end Content

/-! ## Keys -/

namespace Value

variable {e : Element}

/-- A key that is no point and has no sign in front is told by its last character. -/
theorem get?_unsigned {key : String} (hdot : key ≠ ".") (hat : key.toList.head? ≠ some '@') :
    (element e).get? key =
      match key.toList.reverse with
      | '*' :: name => some (.list ((e.named (String.ofList name.reverse)).map .element))
      | _ => (e.named key).getLast?.map .element := by
  show elementGet? e key = _
  unfold elementGet?
  rw [if_neg (show ¬ key = ownKey from hdot)]
  split
  · rename_i name hkey
    rw [hkey] at hat
    exact absurd rfl hat
  · rfl

theorem get?_starred {name : String} (hat : name.toList.head? ≠ some '@') :
    (element e).get? (name ++ "*") = some (.list ((e.named name).map .element)) := by
  have hkey : (name ++ "*").toList.reverse = '*' :: name.toList.reverse := by simp
  rw [get?_unsigned, hkey]
  · simp only [List.reverse_reverse, String.ofList_toList]
  · intro hdot
    have hlast := congrArg (·.toList.reverse.head?) hdot
    simp at hlast
  · cases hname : name.toList with
    | nil => simp [hname]
    | cons c rest => simpa [hname] using hat

theorem get?_named {name : String} (hdot : name ≠ ".") (hat : name.toList.head? ≠ some '@')
    (hstar : name.toList.getLast? ≠ some '*') :
    (element e).get? name = (e.named name).getLast?.map .element := by
  rw [get?_unsigned hdot hat]
  split
  · rename_i rest hrest
    rw [List.getLast?_eq_head?_reverse, hrest] at hstar
    exact absurd rfl hstar
  · rfl

end Value

namespace Element

open Content

/-- **The keys of an element follow document order.**  The elements of a name are all those below the
element, also when they are nested, and a single one is the last of them; its own text is made of
all texts below it. -/
theorem get?_documentOrder (e : Element) :
    (∃ texts : List (List Nat × String), InDocumentOrder texts ∧
      (∀ address s, (address, s) ∈ texts ↔ e.asContent.at? address = some (.text s)) ∧
      (Value.element e).get? "." = some (.scalar (.text (String.join (texts.map Prod.snd))))) ∧
    ∀ name : String, name ≠ "." → name.toList.head? ≠ some '@' → name.toList.getLast? ≠ some '*' →
      ∃ elements : List (List Nat × Element), InDocumentOrder elements ∧
        (∀ address d, (address, d) ∈ elements ↔
          address ≠ [] ∧ e.asContent.at? address = some d.asContent ∧ d.name = name) ∧
        (Value.element e).get? (name ++ "*") =
          some (.list ((elements.map Prod.snd).map .element)) ∧
        (Value.element e).get? name = (elements.map Prod.snd).getLast?.map .element := by
  constructor
  · refine ⟨found text? e.asContent, inDocumentOrder_found .., fun address s => ?_, ?_⟩
    · simp only [mem_found, text?_eq_some]
      constructor
      · rintro ⟨-, d, hat, rfl⟩
        exact hat
      · intro hat
        refine ⟨?_, _, hat, rfl⟩
        rintro rfl
        exact absurd hat nofun
    · rw [map_snd_found]
      exact congrArg (fun s => some (Value.scalar (.text s))) (textOf_eq e.asContent)
  · intro name hdot hat hstar
    have hnamed : ((found (named? name) e.asContent).map Prod.snd) = e.named name := by
      rw [map_snd_found]
      exact (namedInAll_eq name e.content).symm
    refine ⟨found (named? name) e.asContent, inDocumentOrder_found .., fun address d => ?_, ?_, ?_⟩
    · simp only [mem_found, named?_eq_some]
      constructor
      · rintro ⟨hne, d', hat, rfl, hname⟩
        exact ⟨hne, hat, hname⟩
      · rintro ⟨hne, hat, hname⟩
        exact ⟨hne, _, hat, rfl, hname⟩
    · rw [hnamed, Value.get?_starred hat]
    · rw [hnamed, Value.get?_named hdot hat hstar]

/-- Elements of one name inside each other, between texts. -/
theorem get?_documentOrder_nested :
    let inner : Element := ⟨"b", [], [.text "z"]⟩
    let outer : Element := ⟨"b", [], [.text "y", inner.asContent]⟩
    let e : Element := ⟨"a", [], [.text "x", outer.asContent, .text "w"]⟩
    ("b" ≠ "." ∧ "b".toList.head? ≠ some '@' ∧ "b".toList.getLast? ≠ some '*') ∧
      (Value.element e).get? "." = some (.scalar (.text "xyzw")) ∧
      ∃ elements : List (List Nat × Element), InDocumentOrder elements ∧
        ([1], outer) ∈ elements ∧ ([1, 1], inner) ∈ elements ∧
        (Value.element e).get? "b*" = some (.list ((elements.map Prod.snd).map .element)) ∧
        (Value.element e).get? "b" = some (.element inner) := by
  intro inner outer e
  have hname : "b" ≠ "." ∧ "b".toList.head? ≠ some '@' ∧ "b".toList.getLast? ≠ some '*' := by
    decide
  obtain ⟨elements, hordered, hmem, hlist, -⟩ :=
    e.get?_documentOrder.2 "b" hname.1 hname.2.1 hname.2.2
  have houter : ([1], outer) ∈ elements := (hmem _ _).mpr ⟨List.cons_ne_nil _ _, rfl, rfl⟩
  have hinner : ([1, 1], inner) ∈ elements := (hmem _ _).mpr ⟨List.cons_ne_nil _ _, rfl, rfl⟩
  exact ⟨hname, rfl, elements, hordered, houter, hinner, hlist, rfl⟩

end Element

end Stencil
