import Stencil.Proofs.Render.Pace

/-!
# Sinks that break

A sink that can take no more says so when it is asked, and a render asks it before it reads on.  So
a render into a sink that breaks does what it would have done otherwise up to the write that breaks
it, and nothing behind it; only a brace that opens no marker is followed by its character.

- `Journal`: a sink with all that can be seen of a render, in the order in which it happened;
- `Template.events`, `Template.pieces`: all that can be seen of a render, and what a render writes
  into a sink that never fails;
- `Template.write_eq_observed`: a render that keeps a journal is the render;
- `Template.write_breaking`: **a sink that breaks ends the render at once**.
-/

namespace Stencil

open Body

variable {σ : Type}

/-! ## Journals -/

/-- What can be seen of a render from outside. -/
inductive Event where
  /-- A text is written. -/
  | wrote (text : String)
  /-- An included template is opened. -/
  | opening (resolved : String)
  /-- The texts of the template are asked for, and perhaps looked for. -/
  | consulting
  /-- A sequence is asked for an element, or whether it has one. -/
  | pulling
  deriving DecidableEq

/-- The text of a write. -/
def Event.text? : Event → Option String
  | .wrote text => some text
  | _ => none

/-- What can be seen of an occasion. -/
def Event.of? : Occasion → Option Event
  | .opening resolved => some (.opening resolved)
  | .consulting => some .consulting
  | .pulling | .testing _ => some .pulling
  | _ => none

/-- The texts that are written, in their order. -/
def written (events : List Event) : List String := events.filterMap Event.text?

@[simp] theorem written_append (events events' : List Event) :
    written (events ++ events') = written events ++ written events' := List.filterMap_append

@[simp] theorem written_wrote (text : String) (events : List Event) :
    written (.wrote text :: events) = text :: written events := rfl

/-- Nothing is written on an occasion. -/
@[simp] theorem written_of? (occasion : Occasion) :
    written (Event.of? occasion).toList = [] := by
  cases occasion <;> rfl

@[simp] theorem written_map (texts : List String) : written (texts.map .wrote) = texts := by
  induction texts with
  | nil => rfl
  | cons text texts ih => rw [List.map_cons, written_wrote, ih]

/-- A sink, and what it has seen of a render. -/
structure Journal (σ : Type) where
  sink : σ
  events : List Event

instance [Sink σ] : Sink (Journal σ) where
  write j text := ⟨Sink.write j.sink text, j.events ++ [.wrote text]⟩
  failed j := Sink.failed j.sink

/-- What can be seen of an occasion is noted. -/
instance : Observer (Journal σ) where
  notice occasion j := { j with events := j.events ++ (Event.of? occasion).toList }

/-- A sink that has seen nothing yet. -/
def Rendered.journal (start : Rendered σ) : Rendered (Journal σ) := start.withSink ⟨start.sink, []⟩

/-- The sink alone. -/
def Rendered.forget (r : Rendered (Journal σ)) : Rendered σ := r.withSink r.sink.sink

variable [Sink σ]

/-- The sink behind all that has been written to it. -/
structure Journal.Records (w : σ) (j : Journal σ) : Prop where
  sink : j.sink = (written j.events).foldl Sink.write w

namespace Journal.Records

variable {w : σ} {j : Journal σ}

theorem start (w : σ) : Records w ⟨w, []⟩ := ⟨rfl⟩

theorem write (h : Records w j) (text : String) : Records w (Sink.write j text) where
  sink := by
    show Sink.write j.sink text = (written (j.events ++ [.wrote text])).foldl Sink.write w
    rw [h.sink, written_append, List.foldl_append]
    rfl

theorem notice (h : Records w j) (occasion : Occasion) : Records w (Observer.notice occasion j) where
  sink := by
    show j.sink = (written (j.events ++ (Event.of? occasion).toList)).foldl Sink.write w
    rw [written_append, written_of?, List.append_nil]
    exact h.sink

end Journal.Records

/-- A journal goes along with its sink alone. -/
def Coupling.forget (start : σ) : Coupling (Journal σ) σ where
  level j w := j.sink = w ∧ j.Records start
  broken _ _ := False
  ahead _ _ := False
  failed_level h := congrArg Sink.failed h.1
  failed_broken h := h.elim
  write text h := .inl ⟨congrArg (Sink.write · text) h.1, h.2.write text⟩
  brace _ h := .inl ⟨congrArg (fun w => Sink.write (Sink.write w _) _) h.1, (h.2.write _).write _⟩
  notice occasion h := ⟨h.1, h.2.notice occasion⟩
  leaving h := h
  ahead_broken h := h
  ahead_write _ h := h
  ahead_notice _ h := h
  ahead_closed _ _ h := h

namespace Template

/-- A render that keeps a journal. -/
def observed (t : Template) (o : RenderOptions) (v : Value) (start : Rendered σ) :
    Except Halt Unit × Rendered (Journal σ) :=
  t.write o v start.journal

/-- All that can be seen of a render, in the order in which it happens. -/
def events (t : Template) (o : RenderOptions) (v : Value) (start : Rendered σ) : List Event :=
  (t.observed o v start).2.sink.events

/-- What a render writes into a sink that never fails. -/
def pieces (t : Template) (o : RenderOptions) (v : Value) (streams : Streams) (shelf : Shelf) :
    List String :=
  (t.write o v (⟨⟨[]⟩, streams, shelf⟩ : Rendered Transcript)).2.sink.pieces.reverse

/-- **A render that keeps a journal is the render**, and its journal tells all that is written. -/
theorem write_eq_observed (t : Template) (o : RenderOptions) (v : Value) (start : Rendered σ) :
    t.write o v start = ((t.observed o v start).1, (t.observed o v start).2.forget) ∧
      (t.write o v start).2.sink = (written (t.events o v start)).foldl Sink.write start.sink := by
  have hstart : (Coupling.forget start.sink).level start.journal.sink start.sink := ⟨rfl, .start _⟩
  have ends := t.write_inPace o v hstart
  change Finish _ (t.observed o v start) (t.write o v start) at ends
  rw [events]
  generalize t.observed o v start = x at ends
  generalize t.write o v start = y at ends
  cases ends with
  | level x h =>
    obtain ⟨rfl, records⟩ := h
    exact ⟨rfl, records.sink⟩
  | ahead _ _ h => exact h.elim

/-- The pieces are those of the journal. -/
theorem pieces_eq (t : Template) (o : RenderOptions) (v : Value) (streams : Streams)
    (shelf : Shelf) :
    t.pieces o v streams shelf =
      written (t.events o v (⟨⟨[]⟩, streams, shelf⟩ : Rendered Transcript)) := by
  have hsink := (t.write_eq_observed o v (⟨⟨[]⟩, streams, shelf⟩ : Rendered Transcript)).2
  have pieces_foldl (texts : List String) (w : Transcript) :
      (texts.foldl Sink.write w).pieces = texts.reverse ++ w.pieces := by
    induction texts generalizing w with
    | nil => rfl
    | cons text texts ih =>
      rw [List.foldl_cons, ih, List.reverse_cons, List.append_assoc]
      rfl
  rw [pieces, hsink, pieces_foldl, List.append_nil, List.reverse_reverse]

end Template

/-! ## Breaking -/

/-- Events that end with the `k`-th write, or with the character behind it when that was a brace. -/
structure EndsAt (k : Nat) (events : List Event) : Prop where
  split : ∃ before text more, events = before ++ .wrote text :: more.map .wrote ∧
    (written before).length + 1 = k ∧
    (more = [] ∨ text = "\x7b" ∧ ∃ c, more = [String.singleton c])

theorem EndsAt.le_length {k : Nat} {events : List Event} (h : EndsAt k events) :
    k ≤ (written events).length := by
  obtain ⟨before, text, more, rfl, hk, -⟩ := h.split
  rw [written_append, written_wrote, List.length_append, List.length_cons]
  omega

/-- A sink that breaks at its `k`-th write goes along with one that never fails. -/
def Coupling.breaking {k : Nat} {start : σ}
    (h : ∀ texts : List String,
      Sink.failed (texts.foldl Sink.write start) = decide (k ≤ texts.length)) :
    Coupling (Journal Transcript) (Journal σ) where
  level j j' := j.events = j'.events ∧ j'.Records start ∧ (written j'.events).length < k
  broken j j' := j.events = j'.events ∧ j'.Records start ∧ EndsAt k j'.events
  ahead j j' := j'.events <+: j.events ∧ EndsAt k j'.events
  failed_level := by
    rintro j j' ⟨-, records, hlt⟩
    show false = Sink.failed j'.sink
    rw [records.sink, h, decide_eq_false (Nat.not_le_of_lt hlt)]
  failed_broken := by
    rintro j j' ⟨-, records, hends⟩
    show Sink.failed j'.sink = true
    rw [records.sink, h, decide_eq_true hends.le_length]
  write := by
    rintro j j' text ⟨hevents, records, hlt⟩
    have hevents' : (Sink.write j text).events = (Sink.write j' text).events :=
      congrArg (· ++ [.wrote text]) hevents
    have hlength : (written (Sink.write j' text).events).length =
        (written j'.events).length + 1 := by
      show (written (j'.events ++ [.wrote text])).length = _
      rw [written_append, List.length_append]
      rfl
    by_cases hk : (written j'.events).length + 1 = k
    · exact .inr ⟨hevents', records.write text, ⟨j'.events, text, [], rfl, hk, .inl rfl⟩⟩
    · refine .inl ⟨hevents', records.write text, ?_⟩
      omega
  brace := by
    rintro j j' c ⟨hevents, records, hlt⟩
    have hjoin (j : Journal σ) : (Sink.write (Sink.write j "\x7b") (String.singleton c)).events =
        j.events ++ [.wrote "\x7b", .wrote (String.singleton c)] := List.append_assoc ..
    have hevents' : (Sink.write (Sink.write j "\x7b") (String.singleton c)).events =
        (Sink.write (Sink.write j' "\x7b") (String.singleton c)).events :=
      congrArg (· ++ [.wrote "\x7b"] ++ [.wrote (String.singleton c)]) hevents
    have records' := (records.write "\x7b").write (String.singleton c)
    have hlength : (written (j'.events ++ [.wrote "\x7b"])).length =
        (written j'.events).length + 1 := by
      rw [written_append, List.length_append]
      rfl
    -- the brace breaks the sink, or the character behind it, or neither
    by_cases hk : (written j'.events).length + 1 = k
    · exact .inr ⟨hevents', records', ⟨j'.events, _, [String.singleton c], hjoin j', hk,
        .inr ⟨rfl, c, rfl⟩⟩⟩
    · by_cases hk' : (written j'.events).length + 2 = k
      · exact .inr ⟨hevents', records', ⟨j'.events ++ [.wrote "\x7b"], _, [], rfl,
          by omega, .inl rfl⟩⟩
      · refine .inl ⟨hevents', records', ?_⟩
        rw [hjoin, written_append, List.length_append]
        show _ + 2 < k
        omega
  notice := by
    rintro j j' occasion ⟨hevents, records, hlt⟩
    have hevents' : (Observer.notice occasion j).events = (Observer.notice occasion j').events :=
      congrArg (· ++ (Event.of? occasion).toList) hevents
    refine ⟨hevents', records.notice occasion, ?_⟩
    show (written (j'.events ++ (Event.of? occasion).toList)).length < k
    rwa [written_append, written_of?, List.append_nil]
  leaving := by
    rintro j j' ⟨hevents, records, hends⟩
    -- nothing can be seen of the leaving of a scope
    have unseen (j : Journal σ) : (Observer.notice .leaving j).events = j.events :=
      List.append_nil _
    refine ⟨congrArg (· ++ []) hevents, records.notice .leaving, ?_⟩
    rw [unseen]
    exact hends
  ahead_broken := by
    rintro j j' ⟨hevents, -, hends⟩
    exact ⟨hevents ▸ List.prefix_rfl, hends⟩
  ahead_write text h := ⟨h.1.trans (List.prefix_append ..), h.2⟩
  ahead_notice occasion h := ⟨h.1.trans (List.prefix_append ..), h.2⟩
  ahead_closed := by
    rintro j j' written closing h
    have unseen : (Observer.notice (.closed written closing) j').events = j'.events :=
      List.append_nil _
    rw [unseen]
    exact h

/-- A render that ends with its `k`-th write: what happened before, the text of that write, what was
written behind it, and the failure. -/
structure Template.Breaks (t : Template) (o : RenderOptions) (v : Value) (start : Rendered σ)
    (k : Nat) (before : List Event) (text : String) (more : List String) (e : RenderError) :
    Prop where
  result : t.write o v start = (.error (.failed e), (t.observed o v start).2.forget)
  events : t.events o v start = before ++ .wrote text :: more.map .wrote
  first : written before ++ [text] = (t.pieces o v start.streams start.shelf).take k
  brace : more = [] ∨ text = "\x7b" ∧ ∃ c, more = [String.singleton c]
  pieces : written before ++ text :: more <+: t.pieces o v start.streams start.shelf
  sink : (t.write o v start).2.sink = (written before ++ text :: more).foldl Sink.write start.sink

/-- **A sink that breaks ends the render at once.**  Let the sink report a failure from its `k`-th
write on, where the render makes at least as many writes when nothing fails.  The render fails; it
writes what it writes otherwise up to the `k`-th write; and behind that it opens nothing, asks no
sequence for an element, and writes no more than the character behind a brace. -/
theorem Template.write_breaking {t : Template} {o : RenderOptions} {v : Value} {start : Rendered σ}
    {k : Nat} (hpos : 0 < k) (hle : k ≤ (t.pieces o v start.streams start.shelf).length)
    (hbreaks : ∀ texts : List String,
      Sink.failed (texts.foldl Sink.write start.sink) = decide (k ≤ texts.length)) :
    ∃ before text more e, t.Breaks o v start k before text more e := by
  let whole : Rendered Transcript := ⟨⟨[]⟩, start.streams, start.shelf⟩
  have hstart : (Coupling.breaking hbreaks).level whole.journal.sink start.journal.sink :=
    ⟨rfl, .start _, hpos⟩
  have ends := t.write_inPace o v hstart
  change Finish _ (t.observed o v whole) (t.observed o v start) at ends
  obtain ⟨hwrite, hsink⟩ := t.write_eq_observed o v start
  have hfuel := (t.write_same o unseen_pure opens_reopen 0 v start).1
  have hpieces : t.pieces o v start.streams start.shelf = written (t.events o v whole) :=
    t.pieces_eq o v start.streams start.shelf
  rw [hpieces] at hle
  -- the second render has failed, unless the first one has fewer writes
  cases hx : t.observed o v whole with
  | mk x r =>
    cases hy : t.observed o v start with
    | mk y r' =>
      rw [hx, hy] at ends
      rw [events, hx] at hle hpieces
      rw [hy] at hwrite
      have hevents' : t.events o v start = r'.sink.events := by rw [events, hy]
      rw [hevents'] at hsink
      cases ends with
      | level _ h =>
        obtain ⟨hevents, -, hlt⟩ := h
        rw [hevents] at hle
        exact absurd hlt (Nat.not_lt_of_le hle)
      | ahead _ e h =>
        obtain ⟨hbegins, ⟨before, text, more, hevents, hk, hmore⟩⟩ := h
        have hwritten : written r'.sink.events = written before ++ text :: more := by
          rw [hevents, written_append, written_wrote, written_map]
        have hpre : written before ++ text :: more <+: written r.sink.events := by
          rw [← hwritten]
          exact hbegins.filterMap _
        have htake : written before ++ [text] = (written r.sink.events).take k := by
          have hfirst : written before ++ [text] <+: written before ++ text :: more :=
            ⟨more, List.append_assoc ..⟩
          rw [List.prefix_iff_eq_take.mp (hfirst.trans hpre), List.length_append, ← hk]
          rfl
        cases e with
        | exhausted => exact absurd (congrArg Prod.fst hwrite) hfuel
        | failed e =>
          refine ⟨before, text, more, e, ?_, hevents'.trans hevents, ?_, hmore, ?_, ?_⟩
          · rw [hwrite, hy]
          · rw [hpieces, htake]
          · rw [hpieces]
            exact hpre
          · rw [hsink, hwritten]

/-- A sink that keeps all that is written, and fails from its `limit`-th write on. -/
structure Breakable where
  limit : Nat
  pieces : List String

instance : Sink Breakable where
  write s text := { s with pieces := s.pieces ++ [text] }
  failed s := s.limit ≤ s.pieces.length

theorem Breakable.foldl_write (texts : List String) (s : Breakable) :
    texts.foldl Sink.write s = ⟨s.limit, s.pieces ++ texts⟩ := by
  induction texts generalizing s with
  | nil => rw [List.foldl_nil, List.append_nil]
  | cons text texts ih =>
    rw [List.foldl_cons, ih, List.append_cons]
    rfl

/-- A brace that opens no marker breaks the sink in the second of four elements.  Its character is
still written, but the fourth element is not asked for. -/
theorem Template.write_breaking_brace :
    let t : Template := ⟨"page", "text/plain", none, none⟩
    let o : RenderOptions := ⟨⟨.default, 0⟩, none, []⟩
    let start : Rendered Breakable := ⟨⟨5, []⟩, ⟨[], []⟩, .ofLoader (.memory
      [("page", "\x7b\x7b#of[;]\x7d\x7d\x7b-{{>row}}{{/of}}"), ("row", "{{.}}")])⟩
    let v : Value := .record [("of", .list (["a", "b", "c", "d"].map (.scalar ∘ .text)))]
    (0 < 5 ∧ 5 ≤ (t.pieces o v start.streams start.shelf).length ∧
      ∀ texts : List String,
        Sink.failed (texts.foldl Sink.write start.sink) = decide (5 ≤ texts.length)) ∧
    (∃ before text more e, t.Breaks o v start 5 before text more e) ∧
    t.events o v start =
      [.pulling, .pulling, .wrote "\x7b", .wrote "-", .opening "row", .wrote "a", .pulling,
        .wrote ";", .wrote "\x7b", .wrote "-"] := by
  intro t o start v
  have hle : 5 ≤ (t.pieces o v start.streams start.shelf).length := by decide +kernel
  have hbreaks (texts : List String) :
      Sink.failed (texts.foldl Sink.write start.sink) = decide (5 ≤ texts.length) := by
    rw [Breakable.foldl_write]
    rfl
  exact ⟨⟨by decide, hle, hbreaks⟩, write_breaking (by decide) hle hbreaks, by decide +kernel⟩

end Stencil
