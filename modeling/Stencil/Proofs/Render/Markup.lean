import Stencil.Proofs.Render.Marker

/-!
# Templates as trees

A render reads a template once and never has it as a whole.  Here a template is cut into tokens, and
the tokens are parsed into a tree, whatever a render makes of them.

- `Markup.tokens?`: the tokens of a text, when each of its markers can be read;
- `Markup.parse?`: the tree of a text, when its sections nest and end under their own names;
- `Markup.Spells`: the tokens of a body, up to its end, and its tree;
- `Markup.spells_of_parse?`: **what can be parsed is spelled by its tokens**.
-/

namespace Stencil

/-- A text is a feed like itself. -/
theorem paired_self : Feed.Paired (fun a b : List Char => a = b) List.length where
  left := by
    rintro a _ rfl
    exact ⟨Nat.le_refl _, Nat.le_refl _⟩
  next := by
    rintro a _ rfl
    cases a with
    | nil => exact .ok ⟨rfl, fun h => nomatch h⟩
    | cons c cs => exact .ok ⟨rfl, fun _ => Nat.lt_succ_self _⟩

theorem Marker.length_read {text rest : List Char} {m : Marker}
    (h : Marker.read text = (.ok m, rest)) : rest.length < text.length := by
  have pair := paired_self.read (a := text) rfl
  rw [h] at pair
  cases pair with
  | ok h => exact h.2

namespace Markup

/-! ## Tokens -/

/-- What a template consists of: texts to be copied, and markers. -/
inductive Token where
  | text (chars : List Char)
  | marker (m : Marker)
  deriving DecidableEq

namespace Token

/-- The first token of a text that starts with `c`, and what is behind it; nothing when a marker
cannot be read.  An opening brace that opens no marker goes with the character behind it. -/
def first? (c : Char) (rest : List Char) : Option (Token × List Char) :=
  if c = '{' then
    match rest with
    | [] => some (.text [c], [])
    | d :: rest =>
      if d = '{' then
        match Marker.read rest with
        | (.ok m, rest) => some (.marker m, rest)
        | (.error _, _) => none
      else some (.text [c, d], rest)
  else some (.text [c], rest)

/-- The tokens of a text, at most `fuel` of them. -/
def readAll : (fuel : Nat) → List Char → Option (List Token)
  | _, [] => some []
  | 0, _ :: _ => none
  | fuel + 1, c :: rest =>
    (first? c rest).bind fun (token, rest) => (readAll fuel rest).map (token :: ·)

end Token

/-- The tokens of a text; nothing when one of its markers cannot be read. -/
def tokens? (text : List Char) : Option (List Token) := Token.readAll text.length text

namespace Token

theorem length_first? {c : Char} {rest rest' : List Char} {token : Token}
    (h : first? c rest = some (token, rest')) : rest'.length ≤ rest.length := by
  unfold first? at h
  split at h
  · split at h
    · exact Nat.le_of_eq (congrArg List.length (Prod.mk.inj (Option.some.inj h)).2.symm)
    · split at h
      · split at h
        · rename_i hm
          rw [← (Prod.mk.inj (Option.some.inj h)).2]
          exact Nat.le_of_lt (Nat.lt_succ_of_lt (Marker.length_read hm))
        · cases h
      · rw [← (Prod.mk.inj (Option.some.inj h)).2]
        exact Nat.le_succ _
  · exact Nat.le_of_eq (congrArg List.length (Prod.mk.inj (Option.some.inj h)).2.symm)

/-- Fuel for each character is enough. -/
theorem readAll_of_length_le (n : Nat) :
    ∀ {m : Nat} {text : List Char}, text.length ≤ n → text.length ≤ m →
      readAll n text = readAll m text := by
  induction n with
  | zero =>
    intro m text hn _
    cases text with
    | nil => cases m <;> rfl
    | cons c rest => exact absurd hn (Nat.not_succ_le_zero _)
  | succ n ih =>
    intro m text hn hm
    cases text with
    | nil => cases m <;> rfl
    | cons c rest =>
      cases m with
      | zero => exact absurd hm (Nat.not_succ_le_zero _)
      | succ m =>
        rw [readAll, readAll]
        cases hf : first? c rest with
        | none => rfl
        | some found =>
          obtain ⟨token, rest'⟩ := found
          have hlen := length_first? hf
          simp only [List.length_cons] at hn hm
          simp only [Option.bind_some]
          rw [ih (by omega) (by omega : rest'.length ≤ m)]

end Token

theorem tokens?_cons (c : Char) (rest : List Char) :
    tokens? (c :: rest) =
      (Token.first? c rest).bind fun (token, rest) => (tokens? rest).map (token :: ·) := by
  rw [tokens?, List.length_cons, Token.readAll]
  cases hf : Token.first? c rest with
  | none => rfl
  | some found =>
    obtain ⟨token, rest'⟩ := found
    simp only [Option.bind_some, tokens?]
    rw [Token.readAll_of_length_le _ (Token.length_first? hf) (Nat.le_refl _)]

/-! ## Nodes -/

/-- What a section does with its body. -/
inductive BlockKind where
  | repeating (separator : Option String)
  | conditional
  | inverted
  deriving DecidableEq

/-- A node of a template. -/
inductive Node where
  /-- A text that is copied. -/
  | text (chars : List Char)
  | comment
  /-- A variable with its modifiers. -/
  | value (m : Marker)
  /-- A section with its body. -/
  | block (kind : BlockKind) (name : String) (body : List Node)
  | included (name : String)

/-- A section whose end has not been reached, and the nodes before it, the latest first. -/
structure Opened where
  kind : BlockKind
  name : String
  before : List Node

/-- A tree in the making: the nodes of the innermost body, the latest first, and the sections around
it, the innermost first. -/
structure Builder where
  nodes : List Node
  outer : List Opened

namespace Builder

def add (b : Builder) (node : Node) : Builder := { b with nodes := node :: b.nodes }

def enter (b : Builder) (kind : BlockKind) (name : String) : Builder :=
  ⟨[], ⟨kind, name, b.nodes⟩ :: b.outer⟩

/-- Ends the innermost section, which must have the name. -/
def leave? (b : Builder) (name : String) : Option Builder :=
  match b.outer with
  | [] => none
  | o :: outer =>
    if o.name = name then some ⟨.block o.kind o.name b.nodes.reverse :: o.before, outer⟩ else none

/-- Takes one more token. -/
def take? (b : Builder) : Token → Option Builder
  | .text chars => some (b.add (.text chars))
  | .marker m =>
    match m.kind with
    | .comment => some (b.add .comment)
    | .variable => some (b.add (.value m))
    | .include => some (b.add (.included m.name))
    | .repeating => some (b.enter (.repeating m.separator) m.name)
    | .conditional => some (b.enter .conditional m.name)
    | .inverted => some (b.enter .inverted m.name)
    | .sectionEnd => b.leave? m.name

/-- Takes tokens one after the other. -/
def takeAll? : Builder → List Token → Option Builder
  | b, [] => some b
  | b, token :: rest => (b.take? token).bind (takeAll? · rest)

end Builder

/-- The tree of a text: its markers can be read, and its sections nest and end under their own
names. -/
def parse? (text : List Char) : Option (List Node) := do
  let b ← Builder.takeAll? ⟨[], []⟩ (← tokens? text)
  if b.outer.isEmpty then some b.nodes.reverse else none

/-! ## What tokens spell -/

/-- The kind of section that a marker starts. -/
def BlockKind.ofMarker? (m : Marker) : Option BlockKind :=
  match m.kind with
  | .repeating => some (.repeating m.separator)
  | .conditional => some .conditional
  | .inverted => some .inverted
  | _ => none

/-- The tokens of a body, its nodes, and the tokens behind it.  The body is that of a section with
the name, and its end marker is part of it; without a name it is that of a whole template. -/
inductive Spells : Option String → List Token → List Node → List Token → Prop where
  | finish : Spells none [] [] []
  | close {m : Marker} {ts : List Token} (hk : m.kind = .sectionEnd) :
    Spells (some m.name) (.marker m :: ts) [] ts
  | text {name : Option String} {chars : List Char} {ts ts' : List Token} {nodes : List Node}
    (h : Spells name ts nodes ts') : Spells name (.text chars :: ts) (.text chars :: nodes) ts'
  | comment {name : Option String} {m : Marker} {ts ts' : List Token} {nodes : List Node}
    (hk : m.kind = .comment) (h : Spells name ts nodes ts') :
    Spells name (.marker m :: ts) (.comment :: nodes) ts'
  | value {name : Option String} {m : Marker} {ts ts' : List Token} {nodes : List Node}
    (hk : m.kind = .variable) (h : Spells name ts nodes ts') :
    Spells name (.marker m :: ts) (.value m :: nodes) ts'
  | included {name : Option String} {m : Marker} {ts ts' : List Token} {nodes : List Node}
    (hk : m.kind = .include) (h : Spells name ts nodes ts') :
    Spells name (.marker m :: ts) (.included m.name :: nodes) ts'
  | block {name : Option String} {m : Marker} {kind : BlockKind} {ts ts' ts'' : List Token}
    {body nodes : List Node} (hk : BlockKind.ofMarker? m = some kind)
    (hbody : Spells (some m.name) ts body ts') (h : Spells name ts' nodes ts'') :
    Spells name (.marker m :: ts) (.block kind m.name body :: nodes) ts''

/-- What the open sections ask of the tokens, when the innermost body has come to its end with its
nodes: each of them goes on behind the one inside it, and the outermost body is the tree. -/
def Completes : List Opened → List Node → List Token → List Node → Prop
  | [], body, ts, tree => ts = [] ∧ tree = body
  | o :: outer, body, ts, tree =>
    ∃ nodes ts', Spells (outer.head?.map Opened.name) ts nodes ts' ∧
      Completes outer (o.before.reverse ++ .block o.kind o.name body :: nodes) ts' tree

/-- Tokens that complete a tree spell the rest of the innermost body, and what is around it.  The
induction is on the tokens. -/
theorem spells_of_takeAll? (ts : List Token) :
    ∀ {nodes : List Node} {outer : List Opened} {b : Builder},
      Builder.takeAll? ⟨nodes, outer⟩ ts = some b → b.outer = [] →
        ∃ later ts', Spells (outer.head?.map Opened.name) ts later ts' ∧
          Completes outer (nodes.reverse ++ later) ts' b.nodes.reverse := by
  induction ts with
  | nil =>
    intro nodes outer b h hb
    obtain rfl : (⟨nodes, outer⟩ : Builder) = b := Option.some.inj h
    obtain rfl : outer = [] := hb
    exact ⟨[], [], .finish, rfl, (List.append_nil _).symm⟩
  | cons token ts ih =>
    intro nodes outer b h hb
    rw [Builder.takeAll?] at h
    -- a token that adds a node to the body
    have add {node : Node} (h : Builder.takeAll? ⟨node :: nodes, outer⟩ ts = some b)
        (spells : ∀ {later ts'}, Spells (outer.head?.map Opened.name) ts later ts' →
          Spells (outer.head?.map Opened.name) (token :: ts) (node :: later) ts') :
        ∃ later ts', Spells (outer.head?.map Opened.name) (token :: ts) later ts' ∧
          Completes outer (nodes.reverse ++ later) ts' b.nodes.reverse := by
      obtain ⟨later, ts', hs, hc⟩ := ih h hb
      refine ⟨node :: later, ts', spells hs, ?_⟩
      rw [List.reverse_cons, List.append_assoc] at hc
      exact hc
    -- a marker that starts a section
    have enter {m : Marker} {kind : BlockKind} (ht : token = .marker m)
        (hk : BlockKind.ofMarker? m = some kind)
        (h : Builder.takeAll? ⟨[], ⟨kind, m.name, nodes⟩ :: outer⟩ ts = some b) :
        ∃ later ts', Spells (outer.head?.map Opened.name) (token :: ts) later ts' ∧
          Completes outer (nodes.reverse ++ later) ts' b.nodes.reverse := by
      obtain ⟨body, ts₁, hbody, later, ts', hs, hc⟩ := ih h hb
      rw [ht]
      exact ⟨.block kind m.name body :: later, ts', .block hk hbody hs, hc⟩
    cases token with
    | text chars => exact add h .text
    | marker m =>
      rw [Builder.take?] at h
      cases hk : m.kind <;> rw [hk] at h
      case comment => exact add h (.comment hk)
      case «variable» => exact add h (.value hk)
      case «include» => exact add h (.included hk)
      case repeating => exact enter rfl (by rw [BlockKind.ofMarker?, hk]) h
      case conditional => exact enter rfl (by rw [BlockKind.ofMarker?, hk]) h
      case inverted => exact enter rfl (by rw [BlockKind.ofMarker?, hk]) h
      case sectionEnd =>
        cases outer with
        | nil => cases h
        | cons o outer =>
          -- the body ends here, and the section is a node of the body around it
          simp only [Builder.leave?] at h
          split at h
          · rename_i hname
            obtain ⟨later, ts', hs, hc⟩ := ih h hb
            have spells : Spells (some o.name) (.marker m :: ts) [] ts := by
              rw [hname]
              exact .close hk
            refine ⟨[], ts, spells, later, ts', hs, ?_⟩
            rw [List.reverse_cons, List.append_assoc] at hc
            rw [List.append_nil]
            exact hc
          · cases h

/-- **What can be parsed is spelled by its tokens.** -/
theorem spells_of_parse? {text : List Char} {tree : List Node} (h : parse? text = some tree) :
    ∃ ts, tokens? text = some ts ∧ Spells none ts tree [] := by
  unfold parse? at h
  cases hts : tokens? text with
  | none =>
    rw [hts] at h
    cases h
  | some ts =>
    rw [hts] at h
    refine ⟨ts, rfl, ?_⟩
    change (Builder.takeAll? ⟨[], []⟩ ts).bind _ = _ at h
    cases hb : Builder.takeAll? ⟨[], []⟩ ts with
    | none =>
      rw [hb] at h
      cases h
    | some b =>
      rw [hb, Option.bind_some] at h
      split at h
      · rename_i hempty
        obtain ⟨later, ts', hs, rfl, hc⟩ := spells_of_takeAll? ts hb (List.isEmpty_iff.mp hempty)
        rw [← Option.some.inj h, hc]
        exact hs
      · cases h

end Markup

end Stencil
