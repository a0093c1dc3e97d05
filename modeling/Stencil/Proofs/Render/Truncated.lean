import Stencil.Proofs.Data.Failing
import Stencil.Proofs.Render.Breaking
import Stencil.Proofs.Render.ComesTo
import Stencil.Proofs.Render.Outline
import Stencil.Proofs.Render.Streaming

/-!
# Sections over sources that fail midway

The next element is asked for before the body is written, so that the failure is known before the
last body is: it is held back until that body has been written, and the section ends with it.  Here
the section is compared with its bodies alone, which are written one after the other without asking
any sequence for anything.

- `Body.inTurn`: the bodies for rows, one after the other; `Body.Turns`: what each of them writes;
- `Table.Bodies.write_inside`: bodies for rows do not know the sequences of the render;
- `Body.inTurn_turns`: bodies write their texts, and the separator between them;
- `Body.repeating_failing`: the section over a source that fails;
- `Template.write_truncated`: **the render ends with the failure of the source**, behind the bodies
  of the rows that came before it, and the source is closed.
-/

namespace Stencil

open Body

variable {σ : Type} [Sink σ]

/-- The state in which the bodies of a section over elements are written. -/
def State.amid (name : String) (s : State σ) : State σ :=
  { s with sections := name :: s.sections, scopes := .caching [] :: s.scopes }

namespace Body

section

variable (b : Bool → Value → Run σ Exit) (name : String) (separator : Option String)

/-- What comes before the body of an element that another one follows: the reader is marked, and the
separator is written. -/
def begin (separator : Option String) (first : Bool) : Run σ Unit := do
  markIf true
  separate separator first false

/-- Writes the body for a row that another one follows: the reader goes back to where it starts. -/
def turn (first : Bool) (row : Row) : Run σ Unit := do
  begin separator first
  closed b name false (Value.ofRow row).asDictionary
  rewind

/-- Writes the body for rows, one after the other. -/
def inTurn : (first : Bool) → List Row → Run σ Unit
  | _, [] => pure ()
  | first, row :: rows => do
    turn b name separator first row
    inTurn false rows

/-- The texts that the body writes for rows one after the other, each in the state in which the ones
before it have left the render. -/
inductive Turns : (first : Bool) → List Row → State σ → List (List String) → Prop
  | done {first : Bool} {s : State σ} : Turns first [] s []
  | more {first : Bool} {row : Row} {rows : List Row} {s s₀ s₁ : State σ} {text : List String}
    {texts : List (List String)}
    (begun : begin separator first s = (.ok (), s₀))
    (body : closed b name false (Value.ofRow row).asDictionary s₀ = (.ok (), s₁))
    (wrote : s₁.sink = text.foldl Sink.write s₀.sink)
    (rest : Turns false rows { s₁ with reader := s₁.reader.reset } texts) :
    Turns first (row :: rows) s (text :: texts)

end

/-! ## Texts -/

/-- What a body writes. -/
theorem closed_wrote (job : Job) (n : Nat) (name : String) (muted : Bool) (v : Value)
    (s : State σ) : ∃ text : List String,
      (closed (Body.write job n) name muted v s).2.sink = text.foldl Sink.write s.sink := by
  have bodies : Bodies (Coupling.forget s.sink) (Body.write job n) (Body.write job n) :=
    Bodies.write job n
  have outcome := (bodies.closed name muted v).outcome (s.withSink (⟨s.sink, []⟩ : Journal σ))
    s.sink ⟨rfl, .start s.sink⟩
  change Outcome _ _ _ (closed (Body.write job n) name muted v s) at outcome
  generalize closed (Body.write job n) name muted v s = y at outcome
  generalize (closed (Body.write job n) name muted v : Run (Journal σ) Unit) _ = x at outcome
  cases outcome with
  | level x h =>
    obtain ⟨hsink, records⟩ := h
    exact ⟨_, hsink.symm.trans records.sink⟩
  | broken ha => exact ha.elim
  | ahead x e h => exact h.elim

/-- The pieces of texts with a separator in front of each; in front of the first only when it is not
the first of all. -/
def joined (separator : Option String) : (first : Bool) → List (List String) → List String
  | _, [] => []
  | first, text :: texts =>
    (if first then [] else separator.toList) ++ text ++ joined separator false texts

theorem joined_true (separator : Option String) (texts : List (List String)) :
    joined separator true texts = List.intercalate separator.toList texts := by
  cases texts with
  | nil => rfl
  | cons text texts =>
    show [] ++ text ++ joined separator false texts = _
    rw [List.nil_append]
    induction texts generalizing text with
    | nil => simp [joined, List.intercalate]
    | cons text' texts ih =>
      rw [List.intercalate_cons_cons, ← ih]
      simp [joined]

theorem begin_apply (separator : Option String) (first : Bool) (s : State σ) :
    ∃ s₀, begin separator first s = (.ok (), s₀) ∧
      s₀.sink = (if first then [] else separator.toList).foldl Sink.write s.sink := by
  cases first with
  | true => exact ⟨_, rfl, rfl⟩
  | false => cases separator <;> exact ⟨_, rfl, rfl⟩

/-- **Bodies write their texts**, and the separator in front of each but the first. -/
theorem inTurn_turns (job : Job) (n : Nat) (name : String) (separator : Option String)
    (rows : List Row) :
    ∀ (first : Bool) (s : State σ),
      (inTurn (Body.write job n) name separator first rows s).1 = .ok () →
      ∃ texts, Turns (Body.write job n) name separator first rows s texts ∧
        (inTurn (Body.write job n) name separator first rows s).2.sink =
          (joined separator first texts).foldl Sink.write s.sink := by
  induction rows with
  | nil => exact fun first s _ => ⟨[], .done, rfl⟩
  | cons row rows ih =>
    intro first s hok
    obtain ⟨s₀, hbegin, hsink₀⟩ := begin_apply separator first s
    obtain ⟨text, htext⟩ := closed_wrote job n name false (Value.ofRow row).asDictionary s₀
    rw [inTurn, turn, bind_assoc, bind_assoc, Run.bind_apply, hbegin] at hok ⊢
    dsimp only at hok ⊢
    rw [Run.bind_apply] at hok ⊢
    cases hbody : closed (Body.write job n) name false (Value.ofRow row).asDictionary s₀ with
    | mk x s₁ =>
      rw [hbody] at hok htext
      cases x with
      | error e => cases hok
      | ok _ =>
        obtain ⟨texts, hturns, hsink⟩ := ih false { s₁ with reader := s₁.reader.reset } hok
        refine ⟨text :: texts, .more hbegin hbody htext hturns, hsink.trans ?_⟩
        rw [joined, List.foldl_append, List.foldl_append, ← hsink₀, ← htext]

end Body

/-! ## Bodies for rows -/

/-- Bodies for values without sequences do not know the sequences of the render; by induction on the
fuel, and no marker refers to a sequence. -/
theorem Table.Bodies.write_inside (w : Table) (S T : Streams) (job : Job) (n : Nat) :
    w.Bodies (.inside S T) (Body.write job n : Bool → Value → Run σ Exit) (Body.write job n) := by
  induction n with
  | zero => exact fun _ _ _ _ _ _ => .gaveUp
  | succ n ih =>
    intro muted v hv s T' hlink
    have text := Paired.copies.copyText muted (s.reader.charsLeft + 1) s T' hlink
    rw [Body.write, Body.write, step_apply, step_apply]
    dsimp only
    generalize Run.copyText muted (s.reader.charsLeft + 1) s = x at text
    generalize Run.copyText muted (s.reader.charsLeft + 1) { s with streams := T' } = y at text
    cases text with
    | gaveUp => exact .gaveUp
    | failure h => exact .failure h
    | @answer found s' T' h _ =>
      cases found with
      | none => exact .answer h trivial
      | some m =>
        have hplain : m.refersTo w.id v = false := by
          refine Bool.eq_false_iff.mpr fun hm => ?_
          cases outside_of_refersTo hv hm
        exact (ih.obey job muted hv hplain).andThen (fun exit _ => ih.goesOn muted hv exit) s' T' h

namespace Body

variable {id : Nat} {r : RowStream} {e : DataError}

/-- A body for a row leaves the sequences of the render, and does the same whatever they are. -/
theorem turn_apply (job : Job) (n : Nat) (name : String) (separator : Option String) (first : Bool)
    (row : Row) {s s₁ : State σ} (T : Streams)
    (h : turn (Body.write job n) name separator first row s = (.ok (), s₁)) :
    turn (Body.write job n) name separator first row { s with streams := T } =
      (.ok (), { s₁ with streams := T }) := by
  let w : Table := ⟨0, [], []⟩
  have body := (Table.Bodies.write_inside (σ := σ) w s.streams T job n).closed name false
    (Stage.admits_asDictionary (Stage.admits_of_isMultiPass (Value.isMultiPass_ofRow row)))
  rw [Table.Bodies.put_row] at body
  have pair : Paired (w.link (.inside s.streams T)) (w.link (.inside s.streams T)) Any
      (turn (Body.write job n) name separator first row : Run σ Unit)
      (turn (Body.write job n) name separator first row) := by
    unfold turn begin
    rw [bind_assoc]
    exact (Paired.of_aloof (.markIf true)).andThen fun _ _ =>
      (Paired.copies.separate Paired.emit separator first false).andThen fun _ _ =>
        body.andThen fun _ _ => .of_aloof .rewind
  have linked := pair s T ⟨rfl, rfl⟩
  rw [h] at linked
  generalize turn (Body.write job n) name separator first row { s with streams := T } = y at linked
  cases linked with
  | answer hlink _ => rw [hlink.2]

/-- An element that another one follows: the next one is asked for, and then the body is written. -/
theorem each_follows (b : Bool → Value → Run σ Exit) (name : String) (separator : Option String)
    (fuel : Nat) (first : Bool) (row : Row) {s : State σ} {element : Except DataError Value}
    (hnext : Table.nextElement (s.streams.next id).1 = some element) :
    each b name separator false (fuel + 1) first (.ok (.ofRow row)) (.stream id) s =
      (do
        turn b name separator first row
        each b name separator false fuel false element (.stream id))
        { s with streams := (s.streams.next id).2 } := by
  rw [each]
  simp only [pull_silent]
  show (Elements.next (.stream id) >>= _) s = _
  rw [Run.bind_apply, Table.next_stream_apply, hnext]
  unfold turn begin
  simp only [bind_assoc]
  rfl

/-- The elements of a source that fails: their bodies are written, and then the failure comes.  The
induction is on the rows that the source gives before. -/
theorem each_failing (job : Job) (n : Nat) (name : String) (separator : Option String)
    (rows : List Row) :
    ∀ (fuel : Nat) (first : Bool) (s : State σ) (T : Streams) (r : RowStream), T.Holds id r →
      r.lent = false → r.FailsAfter e rows → rows.length < fuel →
      (inTurn (Body.write job n) name separator first rows s).1 = .ok () →
      ∃ element T' r', Table.nextElement (T.next id).1 = some element ∧
        each (Body.write job n) name separator false fuel first element (.stream id)
            { s with streams := (T.next id).2 } =
          (.error (.failed (.source e)),
            { (inTurn (Body.write job n) name separator first rows s).2 with streams := T' }) ∧
        T'.Holds id r' ∧ r.OnlyReads r' := by
  induction rows with
  | nil =>
    intro fuel first s T r hholds hidle hfails hfuel _
    obtain ⟨fuel, rfl⟩ := Nat.exists_eq_succ_of_ne_zero (Nat.ne_of_gt hfuel)
    obtain ⟨calls, hanswer, hholds', hreads⟩ := hholds.next hidle
    rw [RowStream.FailsAfter] at hfails
    rw [hanswer, hfails]
    exact ⟨.error e, _, _, rfl, rfl, hholds', hreads⟩
  | cons row rows ih =>
    intro fuel first s T r hholds hidle hfails hfuel hok
    obtain ⟨fuel, rfl⟩ := Nat.exists_eq_succ_of_ne_zero (Nat.ne_of_gt (Nat.zero_lt_of_lt hfuel))
    obtain ⟨calls, hanswer, hholds₁, hreads⟩ := hholds.next hidle
    obtain ⟨hrow, hrest⟩ := hfails
    rw [inTurn, Run.bind_apply] at hok ⊢
    cases hturn : turn (Body.write job n) name separator first row s with
    | mk x s₁ =>
      rw [hturn] at hok
      cases x with
      | error halt => cases hok
      | ok _ =>
        obtain ⟨element, T', r', hnext, heach, hholds', hreads'⟩ := ih fuel false s₁ (T.next id).2 _
          hholds₁ (hreads.lent.trans hidle) (hrest.withCalls calls)
          (Nat.lt_of_succ_lt_succ hfuel) hok
        refine ⟨.ok (.ofRow row), T', r', ?_, ?_, hholds', hreads.trans hreads'⟩
        · rw [hanswer, hrow]
          rfl
        · rw [each_follows _ name separator fuel first row hnext, Run.bind_apply,
            turn_apply job n name separator first row _ hturn]
          exact heach

/-- **The section over a source that fails** writes the bodies of the rows before the failure, and
ends with the failure; the source has been closed. -/
theorem repeating_failing {job : Job} {n : Nat} {m : Marker} {v : Value} {s : State σ}
    {rows : List Row} (hfound : v.lookup (pathOf m.name) = some (.stream id))
    (hholds : s.streams.Holds id r) (hidle : r.lent = false) (hopen : r.closed = false)
    (hfails : r.FailsAfter e rows)
    (hok : (inTurn (Body.write job n) m.name m.separator true rows (s.amid m.name)).1 = .ok ()) :
    ∃ t r', repeating (Body.write job n) m false v s = (.error (.failed (.source e)), t) ∧
      t.sink = (inTurn (Body.write job n) m.name m.separator true rows (s.amid m.name)).2.sink ∧
      t.streams.Holds id r' ∧ r.ReadAndClosed r' := by
  have hfuel : rows.length < s.streams.stepsLeft id + 2 :=
    Nat.lt_of_le_of_lt (hholds.length_le hfails) (Nat.lt_add_of_pos_right Nat.two_pos)
  obtain ⟨element, T, r₁, hnext, heach, hholds₁, hreads⟩ := each_failing job n m.name m.separator
    rows _ true (s.amid m.name) s.streams r hholds hidle hfails hfuel hok
  obtain ⟨r', hholds', hclosed⟩ := hholds₁.close (hreads.lent.trans hidle)
    (hreads.closed.trans hopen) hreads
  generalize (inTurn (Body.write job n) m.name m.separator true rows (s.amid m.name)).2 = u
    at heach ⊢
  have hiterated : iterated (Body.write job n) m.name m.separator false (.stream id)
      { s with sections := m.name :: s.sections } =
        (.error (.failed (.source e)), { u with streams := T }) := by
    rw [Table.Bodies.iterated_stream_apply]
    dsimp only
    rw [hnext]
    dsimp only
    rw [inScope_apply]
    dsimp only [State.amid] at heach
    rw [heach]
  refine ⟨{ u with streams := (Streams.close id T).2 }, r', ?_, rfl, hholds', hclosed⟩
  unfold repeating
  rw [inSection_apply, hfound]
  dsimp only [elements?]
  rw [sequence_apply, hiterated]
  rfl

end Body

namespace Template

/-- **A source that fails midway ends the render, and truncates what is written.**  Let a render
come to a repeating section over a source that gives some rows and then fails, where the bodies for
these rows do not fail.  The render fails with the failure of the source, whatever closing gives.
Behind what has been written before the section stand the texts of the bodies, with the separator
between them, and nothing else.  The source and its resources have been closed. -/
theorem write_truncated {t : Template} {o : RenderOptions} {v value : Value} {start : Rendered σ}
    {s : State σ} {n : Nat} {m : Marker} {id : Nat} {r : RowStream} {rows : List Row}
    {e : DataError} (hnull : v.isNull = false)
    (hcomes : ComesTo (Body.repeating (Body.write (t.job o) n) m false value) s
      (writeDictionary Body.write (t.job o) v.asDictionary) (t.initial start))
    (hfound : value.lookup (pathOf m.name) = some (.stream id))
    (hholds : s.streams.Holds id r) (hidle : r.lent = false) (hopen : r.closed = false)
    (hfails : r.FailsAfter e rows)
    (hok : (inTurn (Body.write (t.job o) n) m.name m.separator true rows (s.amid m.name)).1 =
      .ok ()) :
    (t.write o v start).1 = .error (.failed (.source e)) ∧
      (∃ texts, Turns (Body.write (t.job o) n) m.name m.separator true rows (s.amid m.name) texts ∧
        (t.write o v start).2.sink =
          (List.intercalate m.separator.toList texts).foldl Sink.write s.sink) ∧
      ∃ r', (t.write o v start).2.streams.Holds id r' ∧ r.ReadAndClosed r' := by
  obtain ⟨u, r', hsection, hsink, hholds', hclosed⟩ :=
    repeating_failing hfound hholds hidle hopen hfails hok
  obtain ⟨u', hwrite, hsink', ids, hids⟩ := hcomes.failure hsection
  obtain ⟨texts, hturns, htexts⟩ := inTurn_turns (t.job o) n m.name m.separator rows true _ hok
  have hrender : t.write o v start =
      (.error (.failed (.source e)), ⟨u'.sink, u'.streams, u'.shelf⟩) := by
    rw [write, writeBy_apply, hnull, if_neg Bool.false_ne_true, hwrite]
  rw [hrender]
  refine ⟨rfl, ⟨texts, hturns, ?_⟩, r', ?_, hclosed⟩
  · rw [hsink', hsink, htexts, joined_true]
    rfl
  · rw [hids]
    exact hholds'.closeAll hclosed.ended ids

/-- A source that fails in the third row, and whose cursor and resource cannot be closed either. -/
theorem write_truncated_value :
    let t : Template := ⟨"page", "text/plain", none, none⟩
    let o : RenderOptions := ⟨⟨.default, 0⟩, none, []⟩
    let lost : DataError := .source "lost"
    let c : Cursor := ⟨[.row [.ok (some (.text "a"))], .row [.ok (some (.text "b"))],
      .row [.error lost]], [], [], .ok ["id"], .error (.source "gone")⟩
    let r : RowStream := .ofCursor c [⟨some "statement", .error (.source "busy")⟩]
    let start : Rendered String := ⟨"", ⟨[.rows r], []⟩, .ofLoader (.memory
      [("page", "<\x7b\x7b#rows[; ]\x7d\x7d{{id}}{{/rows}}>")])⟩
    let v : Value := .record [("rows", .stream 0)]
    (t.write o v start).1 = .error (.failed (.source lost)) ∧
      (t.write o v start).2.sink = "<a; b" ∧
      ∃ r', (t.write o v start).2.streams.Holds 0 r' ∧ r.ReadAndClosed r' := by
  intro t o lost c r start v
  let source := Source.ofText "<\x7b\x7b#rows[; ]\x7d\x7d{{id}}{{/rows}}>"
  let m : Marker := ⟨.repeating, "rows", some "; ", []⟩
  let begun : State String := { t.started start source with scopes := [.caching []] }
  let rows : List Row := [[("id", .scalar (.text "a"))], [("id", .scalar (.text "b"))]]
  let n := (fuelFor start.shelf.loader).pred
  have hfuel : fuelFor start.shelf.loader = n + 1 := by decide +kernel
  -- copying comes to the marker of the section, and leaves the sequences alone
  obtain ⟨x, hx⟩ : ∃ x : Except Halt (Option Marker) × State String,
      Run.copyText false (begun.reader.charsLeft + 1) begun = x := ⟨_, rfl⟩
  have hanswer : x.1 = .ok (some m) := by
    rw [← hx]
    decide +kernel
  have htext : Run.copyText false (begun.reader.charsLeft + 1) begun = (.ok (some m), x.2) := by
    rw [hx, ← hanswer]
  have hstreams : x.2.streams = start.streams := by
    have hvalid := Reader.valid_ofSource source
    have copies : Copies false begun _ :=
      copyText_copies false _ hvalid (Nat.lt_succ_of_le (Reader.length_chars_ahead hvalid))
    rw [htext] at copies
    generalize x.2 = u at copies
    cases copies
    rfl
  have hcomes : ComesTo (Body.repeating (Body.write (t.job o) n) m false v) x.2
      (writeDictionary Body.write (t.job o) v.asDictionary) (t.initial start) := by
    refine .opening (rfl : _ = Except.ok source) ?_
    rw [hfuel]
    exact .marker htext (.repeating rfl)
  have hfound : v.lookup (pathOf m.name) = some (.stream 0) := by
    have hpath : pathOf m.name = ["rows"] := by decide +kernel
    rw [hpath]
    rfl
  have hholds : x.2.streams.Holds 0 r := by
    rw [hstreams]
    exact ⟨[], rfl, rfl⟩
  have hfails : r.FailsAfter lost rows := ⟨rfl, rfl, rfl⟩
  have hok : (inTurn (Body.write (t.job o) n) m.name m.separator true rows (x.2.amid m.name)).1 =
      .ok () := by
    rw [← hx]
    decide +kernel
  have h := write_truncated rfl hcomes hfound hholds rfl rfl hfails hok
  exact ⟨h.1, by decide +kernel, h.2.2⟩

end Template

end Stencil
