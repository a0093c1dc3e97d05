import Stencil.Proofs.Render.Pieces

/-!
# Templates in outline

Where a body ends, and whether the sections in it nest, can be told from its tokens alone, without a
value and without reading any section twice.  A render, whatever it writes and whatever it skips,
comes to markers in the order of the outline.

- `Markup.nextMarker`: the next marker of some tokens;
- `Markup.outline`: where a body ends, told by a stack of the sections that are open in it;
- `Markup.behind`: what is behind a section;
- `Markup.outline_eq`: **the outline goes from marker to marker**, and over a section at once;
- `Reader.tokens`, `Reader.ReadTo`: what lies ahead of a reader, and reading it up to some token;
- `copyText_copies`: copying comes to the next marker.
-/

namespace Stencil

namespace Markup

/-! ## Telling the end of a body

What can be told from tokens is an answer and the tokens behind it, or a failure.  `failure` is the
one behind the tokens, if they do not lead to the end of the template. -/

variable {α β : Type}

/-- What tokens tell. -/
abbrev Telling (α : Type) := Except RenderError (α × List Token)

/-- What is told next, by the tokens behind an answer. -/
def andThen (told : Telling α) (next : α → List Token → Telling β) : Telling β :=
  match told with
  | .ok (a, ts) => next a ts
  | .error e => .error e

/-- The next marker, if there is one. -/
def nextMarker (failure : Option RenderError) : List Token → Telling (Option Marker)
  | [] =>
    match failure with
    | some e => .error e
    | none => .ok (none, [])
  | .text _ :: ts => nextMarker failure ts
  | .marker m :: ts => .ok (some m, ts)

/-- Whether an end marker may stand inside these sections. -/
def closing (sections : List String) (name : String) : Except RenderError Unit :=
  match sections with
  | [] => .error (.unmatchedSectionEnd name)
  | opened :: _ => if opened = name then .ok () else .error (.invalidClosingSection opened name)

/-- Where a body ends.  `inner` are the sections that have been opened in it, and `outer` those
around it, the innermost first. -/
def outline (failure : Option RenderError) (outer : List String) :
    (inner : List String) → List Token → Telling Exit
  | inner, [] =>
    match failure, inner with
    | some e, _ => .error e
    | none, [] => .ok (.endOfText, [])
    | none, name :: _ => .error (.unterminatedSection name)
  | inner, .text _ :: ts => outline failure outer inner ts
  | inner, .marker m :: ts =>
    match m.kind with
    | .comment | .variable | .include => outline failure outer inner ts
    | .repeating | .conditional | .inverted => outline failure outer (m.name :: inner) ts
    | .sectionEnd =>
      (closing (inner ++ outer) m.name).bind fun _ =>
        match inner with
        | [] => .ok (.sectionEnd, ts)
        | _ :: inner => outline failure outer inner ts

/-- What is behind the section that is the innermost of these. -/
def behind (failure : Option RenderError) (sections : List String) (name : String)
    (ts : List Token) : Telling Unit :=
  andThen (outline failure sections [] ts) fun exit rest =>
    match exit with
    | .sectionEnd => .ok ((), rest)
    | .endOfText => .error (.unterminatedSection name)

/-- What a marker comes to, given the sections that it stands in and the tokens behind it: the end
of the body, or tokens to go on with. -/
def told (failure : Option RenderError) (sections : List String) (m : Marker) (ts : List Token) :
    Telling (Option Exit) :=
  match m.kind with
  | .comment | .variable | .include => .ok (none, ts)
  | .repeating | .conditional | .inverted =>
    andThen (behind failure (m.name :: sections) m.name ts) fun _ rest => .ok (none, rest)
  | .sectionEnd => (closing sections m.name).map fun _ => (some .sectionEnd, ts)

/-- What is told behind a marker: the body has ended, or goes on. -/
def goesOn (failure : Option RenderError) (sections : List String) :
    Option Exit → List Token → Telling Exit
  | some exit, ts => .ok (exit, ts)
  | none, ts => outline failure sections [] ts

/-- What is told from a marker on. -/
def further (failure : Option RenderError) (sections : List String) (m : Marker)
    (ts : List Token) : Telling Exit :=
  andThen (told failure sections m ts) (goesOn failure sections)

theorem outline_marker (failure : Option RenderError) (outer inner : List String) (m : Marker)
    (ts : List Token) :
    outline failure outer inner (.marker m :: ts) =
      match m.kind with
      | .comment | .variable | .include => outline failure outer inner ts
      | .repeating | .conditional | .inverted => outline failure outer (m.name :: inner) ts
      | .sectionEnd =>
        (closing (inner ++ outer) m.name).bind fun _ =>
          match inner with
          | [] => .ok (.sectionEnd, ts)
          | _ :: inner => outline failure outer inner ts := rfl

/-- A section that is open ends before those around it.  The induction is on the tokens; the
sections that have been opened behind it come before it. -/
theorem outline_append (failure : Option RenderError) (outer : List String) (name : String)
    (base : List String) (ts : List Token) :
    ∀ inner : List String,
      outline failure outer (inner ++ name :: base) ts =
        match outline failure (name :: (base ++ outer)) inner ts with
        | .ok (.sectionEnd, rest) => outline failure outer base rest
        | .ok (.endOfText, _) => .error (.unterminatedSection name)
        | .error e => .error e := by
  induction ts with
  | nil =>
    intro inner
    cases failure with
    | some e => cases inner <;> rfl
    | none => cases inner <;> rfl
  | cons token ts ih =>
    intro inner
    cases token with
    | text chars => exact ih inner
    | marker m =>
      rw [outline_marker, outline_marker]
      cases hk : m.kind with
      | comment | «variable» | «include» => exact ih inner
      | repeating | conditional | inverted => exact ih (m.name :: inner)
      | sectionEnd =>
        dsimp only
        rw [List.append_assoc, List.cons_append]
        cases hc : closing (inner ++ name :: (base ++ outer)) m.name with
        | error e => rfl
        | ok _ =>
          cases inner with
          | nil => rfl
          | cons opened inner => exact ih inner

theorem outline_enter (failure : Option RenderError) (outer : List String) (name : String)
    (ts : List Token) :
    outline failure outer [name] ts =
      andThen (behind failure (name :: outer) name ts) fun _ rest =>
        outline failure outer [] rest := by
  have happend := outline_append failure outer name [] ts []
  rw [List.nil_append, List.nil_append] at happend
  rw [happend, behind]
  cases outline failure (name :: outer) [] ts with
  | error e => rfl
  | ok found =>
    obtain ⟨exit, rest⟩ := found
    cases exit <;> rfl

/-- **The outline goes from marker to marker**, and over a section at once. -/
theorem outline_eq (failure : Option RenderError) (outer : List String) (ts : List Token) :
    outline failure outer [] ts = andThen (nextMarker failure ts) fun m ts =>
      match m with
      | none => .ok (.endOfText, ts)
      | some m => further failure outer m ts := by
  induction ts with
  | nil => cases failure <;> rfl
  | cons token ts ih =>
    cases token with
    | text chars => exact ih
    | marker m =>
      show outline failure outer [] (.marker m :: ts) = further failure outer m ts
      rw [outline_marker, further, told]
      cases hk : m.kind with
      | comment | «variable» | «include» => rfl
      | repeating | conditional | inverted =>
        refine (outline_enter failure outer m.name ts).trans ?_
        cases behind failure (m.name :: outer) m.name ts <;> rfl
      | sectionEnd =>
        dsimp only
        rw [List.nil_append]
        cases closing outer m.name <;> rfl

/-! ## Tokens run out from the front -/

theorem suffix_of_ok {a b : α} {ts rest : List Token}
    (h : (.ok (a, ts) : Telling α) = .ok (b, rest)) : rest <:+ ts := by
  obtain ⟨-, rfl⟩ := Prod.mk.inj (Except.ok.inj h)
  exact List.suffix_refl _

theorem nextMarker_suffix {failure : Option RenderError} {ts rest : List Token} {m : Option Marker}
    (h : nextMarker failure ts = .ok (m, rest)) :
    (∀ m', m = some m' → .marker m' :: rest <:+ ts) ∧ rest <:+ ts := by
  induction ts with
  | nil =>
    cases failure with
    | some e => cases h
    | none =>
      obtain ⟨rfl, rfl⟩ := Prod.mk.inj (Except.ok.inj h)
      exact ⟨(fun _ heq => nomatch heq), List.suffix_refl _⟩
  | cons token ts ih =>
    cases token with
    | text chars =>
      obtain ⟨hm, hs⟩ := ih h
      have on := List.suffix_cons (Token.text chars) ts
      exact ⟨fun m' heq => (hm m' heq).trans on, hs.trans on⟩
    | marker m' =>
      obtain ⟨rfl, rfl⟩ := Prod.mk.inj (Except.ok.inj h)
      refine ⟨fun m'' heq => ?_, List.suffix_cons _ _⟩
      obtain rfl := Option.some.inj heq
      exact List.suffix_refl _

theorem outline_suffix {failure : Option RenderError} {outer : List String} {ts rest : List Token}
    {exit : Exit} :
    ∀ {inner : List String}, outline failure outer inner ts = .ok (exit, rest) → rest <:+ ts := by
  induction ts with
  | nil =>
    intro inner h
    cases failure with
    | some e => cases h
    | none =>
      cases inner with
      | nil => exact suffix_of_ok h
      | cons name inner => cases h
  | cons token ts ih =>
    intro inner h
    have on := List.suffix_cons token ts
    cases token with
    | text chars => exact (ih h).trans on
    | marker m =>
      rw [outline_marker] at h
      split at h
      · exact (ih h).trans on
      · exact (ih h).trans on
      · exact (ih h).trans on
      · exact (ih h).trans on
      · exact (ih h).trans on
      · exact (ih h).trans on
      · cases hc : closing (inner ++ outer) m.name with
        | error e =>
          rw [hc] at h
          cases h
        | ok _ =>
          rw [hc] at h
          cases inner with
          | nil => exact (suffix_of_ok h).trans on
          | cons opened inner => exact (ih h).trans on

theorem behind_suffix {failure : Option RenderError} {sections : List String} {name : String}
    {ts rest : List Token} (h : behind failure sections name ts = .ok ((), rest)) : rest <:+ ts := by
  unfold behind at h
  cases hout : outline failure sections [] ts with
  | error e =>
    rw [hout] at h
    cases h
  | ok found =>
    obtain ⟨exit, rest'⟩ := found
    rw [hout] at h
    cases exit with
    | endOfText => cases h
    | sectionEnd => exact (suffix_of_ok h).trans (outline_suffix hout)

theorem told_suffix {failure : Option RenderError} {sections : List String} {m : Marker}
    {ts rest : List Token} {exit : Option Exit}
    (h : told failure sections m ts = .ok (exit, rest)) : rest <:+ ts := by
  unfold told at h
  cases hk : m.kind with
  | comment | «variable» | «include» =>
    rw [hk] at h
    exact suffix_of_ok h
  | repeating | conditional | inverted =>
    rw [hk] at h
    cases hb : behind failure (m.name :: sections) m.name ts with
    | error e =>
      rw [hb] at h
      cases h
    | ok found =>
      rw [hb] at h
      exact (suffix_of_ok h).trans (behind_suffix hb)
  | sectionEnd =>
    rw [hk] at h
    cases hc : closing sections m.name with
    | error e =>
      rw [hc] at h
      cases h
    | ok _ =>
      rw [hc] at h
      exact suffix_of_ok h

theorem goesOn_suffix {failure : Option RenderError} {sections : List String}
    {ended : Option Exit} {ts rest : List Token} {exit : Exit}
    (h : goesOn failure sections ended ts = .ok (exit, rest)) : rest <:+ ts := by
  cases ended with
  | none => exact outline_suffix h
  | some exit => exact suffix_of_ok h

theorem further_suffix {failure : Option RenderError} {sections : List String} {m : Marker}
    {ts rest : List Token} {exit : Exit}
    (h : further failure sections m ts = .ok (exit, rest)) : rest <:+ ts := by
  unfold further at h
  cases ht : told failure sections m ts with
  | error e =>
    rw [ht] at h
    cases h
  | ok found =>
    rw [ht] at h
    exact (goesOn_suffix h).trans (told_suffix ht)

end Markup

open Markup

/-! ## Reading up to some tokens -/

namespace Reader

/-- The tokens ahead of a reader. -/
abbrev tokens (r : Reader) : List Token := r.ahead.pieces.tokens

/-- The failure behind the tokens ahead of a reader. -/
abbrev failure (r : Reader) : Option RenderError := r.ahead.pieces.failure

/-- A reader that has been read up to these of the tokens ahead of it. -/
structure ReadTo (r r' : Reader) (ts : List Token) : Prop where
  valid : r'.Valid
  onward : r.Onward r'
  pieces : r'.ahead.pieces = ⟨ts, r.failure⟩
  suffix : ts <:+ r.tokens

theorem ReadTo.tokens_eq {r r' : Reader} {ts : List Token} (h : r.ReadTo r' ts) : r'.tokens = ts :=
  congrArg Pieces.tokens h.pieces

theorem ReadTo.failure_eq {r r' : Reader} {ts : List Token} (h : r.ReadTo r' ts) :
    r'.failure = r.failure := by
  rw [failure, h.pieces]

theorem ReadTo.refl {r : Reader} (h : r.Valid) : r.ReadTo r r.tokens :=
  ⟨h, .refl r, rfl, List.suffix_refl _⟩

theorem ReadTo.trans {r r' r'' : Reader} {ts ts' : List Token} (h : r.ReadTo r' ts)
    (h' : r'.ReadTo r'' ts') : r.ReadTo r'' ts' := by
  have hp := h'.pieces
  have hs := h'.suffix
  rw [h.failure_eq] at hp
  rw [h.tokens_eq] at hs
  exact ⟨h'.valid, h.onward.trans h'.onward, hp, hs.trans h.suffix⟩

/-- One token is read. -/
theorem Moved.readTo {r r' : Reader} {rest : Script} {token : Token} (h : r.Moved r' rest)
    (ht : r.ahead.token = .ok (some (token, rest))) : r.ReadTo r' rest.pieces.tokens := by
  have hcons := Script.pieces_cons ht
  refine ⟨h.valid, h.onward, ?_, ?_⟩
  · rw [h.ahead, failure, hcons]
    rfl
  · rw [tokens, hcons]
    exact List.suffix_cons _ _

/-- What has been read since a mark lies ahead again behind going back. -/
theorem ReadTo.reset {r r' : Reader} {ts : List Token} (h : r.mark.ReadTo r' ts) :
    r.ReadTo r'.reset r.tokens := by
  have hmarks : r'.marks = r.position :: r.marks := h.onward.marks
  have hscript : r'.reset.script = r.script := by
    rw [script_reset, h.onward.script, script_mark]
  have hposition : r'.reset.position = r.position := by
    simp only [Reader.reset, hmarks]
  refine ⟨h.valid.reset, ⟨hscript, ?_, Nat.le_of_eq hposition.symm⟩, ?_, List.suffix_refl _⟩
  · simp only [Reader.reset, hmarks]
  · rw [ahead, hscript, hposition]
    rfl

end Reader

variable {σ : Type} [Sink σ] {s : State σ}

/-- A sink to which characters of texts ahead have been copied. -/
def State.CopiedTo (muted : Bool) (s : State σ) (w : σ) : Prop :=
  ∃ chars, w = copied muted chars s.sink ∧
    ∀ c ∈ chars, ∃ text, .text text ∈ s.reader.tokens ∧ c ∈ text

/-- What copying comes to: the next marker or the end, the failure behind the tokens, or a sink that
has failed. -/
inductive Copies (muted : Bool) (s : State σ) : Except Halt (Option Marker) × State σ → Prop where
  | next {m : Option Marker} {ts : List Token} {r : Reader} {w : σ}
    (hm : nextMarker s.reader.failure s.reader.tokens = .ok (m, ts)) (hr : s.reader.ReadTo r ts)
    (hlt : m.isSome → r.reach < s.reader.reach) (hw : s.CopiedTo muted w) :
    Copies muted s (.ok m, { s with reader := r, sink := w })
  | failure {e : RenderError} {r : Reader} {w : σ}
    (hm : nextMarker s.reader.failure s.reader.tokens = .error e) (hw : s.CopiedTo muted w) :
    Copies muted s (.error (.failed e), { s with reader := r, sink := w })
  | stopped {w : σ} {r : Reader} (hmuted : muted = false) (hw : s.CopiedTo muted w) :
    Copies muted s (.error (.failed .sinkFailed), { s with reader := r, sink := w })

theorem copied_append (muted : Bool) (chars chars' : List Char) (w : σ) :
    copied muted chars' (copied muted chars w) = copied muted (chars ++ chars') w := by
  cases muted with
  | true => rfl
  | false => exact (List.foldl_append (f := fun w c => Sink.write w (String.singleton c))).symm

theorem State.CopiedTo.nothing (muted : Bool) (s : State σ) : s.CopiedTo muted s.sink := by
  refine ⟨[], ?_, fun c hm => nomatch hm⟩
  cases muted <;> rfl

/-- A scanned body is not copied. -/
theorem State.CopiedTo.eq {w : σ} (h : s.CopiedTo true w) : w = s.sink := by
  obtain ⟨chars, rfl, -⟩ := h
  rfl

/-- Copying goes on behind a text that has been copied. -/
theorem Copies.behind {muted : Bool} {r : Reader} {chars : List Char} {rest : Script}
    (hr : s.reader.Moved r rest) (ht : s.reader.ahead.token = .ok (some (.text chars, rest)))
    (hlt : r.reach < s.reader.reach) {x : Except Halt (Option Marker) × State σ}
    (h : Copies muted { s with reader := r, sink := copied muted chars s.sink } x) :
    Copies muted s x := by
  have read := hr.readTo ht
  have hcons : s.reader.tokens = .text chars :: rest.pieces.tokens := by
    rw [Reader.tokens, Script.pieces_cons ht]
    rfl
  have hpieces : r.ahead.pieces = ⟨rest.pieces.tokens, s.reader.failure⟩ := read.pieces
  -- the next marker is the one behind the text
  have hmarker {x : Telling (Option Marker)}
      (hm : nextMarker r.ahead.pieces.failure r.ahead.pieces.tokens = x) :
      nextMarker s.reader.failure s.reader.tokens = x := by
    rw [hcons, nextMarker, ← hm, hpieces]
  have copies {w : σ}
      (hw : State.CopiedTo muted { s with reader := r, sink := copied muted chars s.sink } w) :
      s.CopiedTo muted w := by
    obtain ⟨chars', rfl, hc⟩ := hw
    refine ⟨chars ++ chars', copied_append muted chars chars' s.sink, fun c hmem => ?_⟩
    rw [hcons]
    rcases List.mem_append.mp hmem with hmem | hmem
    · exact ⟨chars, List.mem_cons_self .., hmem⟩
    · obtain ⟨text, ht, hmem⟩ := hc c hmem
      rw [Reader.tokens, hpieces] at ht
      exact ⟨text, List.mem_cons_of_mem _ ht, hmem⟩
  cases h with
  | next hm hr' hlt' hw =>
    exact .next (hmarker hm) (read.trans hr') (fun h => Nat.lt_trans (hlt' h) hlt) (copies hw)
  | failure hm hw => exact .failure (hmarker hm) (copies hw)
  | stopped hmuted hw => exact .stopped hmuted (copies hw)

/-- **Copying comes to the next marker**, if it has fuel for what it can reach.  The induction is on
the fuel. -/
theorem copyText_copies (muted : Bool) (n : Nat) :
    ∀ {s : State σ}, s.reader.Valid → s.reader.reach < n →
      Copies muted s (Run.copyText muted n s) := by
  induction n with
  | zero =>
    intro s _ hn
    exact absurd hn (Nat.not_lt_zero _)
  | succ n ih =>
    intro s hv hn
    have nothing := State.CopiedTo.nothing muted s
    by_cases hsink : muted ∨ Sink.failed s.sink = false
    · have takes := copyText_takes n hv hsink
      generalize ht : s.reader.ahead.token = found at takes
      generalize Run.copyText muted (n + 1) s = x at takes ⊢
      -- the end of the template, behind a last text or right here
      have ended {r : Reader} {ts : List Token} (hr : s.reader.Moved r [])
          (hpieces : s.reader.ahead.pieces = ⟨ts, none⟩) : s.reader.ReadTo r [] := by
        refine ⟨hr.valid, hr.onward, ?_, List.nil_suffix⟩
        rw [hr.ahead, Reader.failure, hpieces]
        rfl
      cases takes with
      | failure =>
        refine .failure ?_ nothing
        rw [Reader.failure, Reader.tokens, Script.pieces_failed ht]
        rfl
      | finish hr =>
        have hpieces := Script.pieces_end ht
        refine .next ?_ (ended hr hpieces) (fun h => nomatch h) nothing
        rw [Reader.failure, Reader.tokens, hpieces]
        rfl
      | @marker r m rest hr hlt =>
        have hpieces := Script.pieces_cons ht
        refine .next ?_ (hr.readTo ht) (fun _ => hlt) nothing
        rw [Reader.failure, Reader.tokens, hpieces]
        rfl
      | text hr hlt =>
        refine .behind hr ht hlt (ih hr.valid ?_)
        exact Nat.lt_of_lt_of_le hlt (Nat.le_of_lt_succ hn)
      | @brace r chars hr =>
        have hpieces : s.reader.ahead.pieces = ⟨[.text chars], none⟩ := Script.pieces_cons ht
        refine .next ?_ (ended hr hpieces) (fun h => nomatch h)
          ⟨chars, rfl, fun c hc => ⟨chars, ?_, hc⟩⟩
        · rw [Reader.failure, Reader.tokens, hpieces]
          rfl
        · rw [Reader.tokens, hpieces]
          exact List.mem_singleton_self _
    · -- the sink has failed before anything is read
      obtain ⟨hmuted, hfailed⟩ : muted = false ∧ Sink.failed s.sink = true := by
        simpa using hsink
      rw [hmuted, copyText_failed hfailed, ← hmuted]
      exact .stopped hmuted nothing

end Stencil
