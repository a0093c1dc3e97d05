import Stencil.Proofs.Data.Ahead
import Stencil.Proofs.Render.Streaming
import Stencil.Proofs.Render.Thrift
import Stencil.Proofs.Render.Visits
import Mathlib.Logic.Function.Iterate

/-!
# Sections behind a test

A conditional and an inverted section ask a sequence whether there is an element, which a
single-pass sequence finds out by reading ahead.  The element that is read is kept, so that a
section of any kind does the same behind the question as without it.

- `Body.nonempty_ok`, `Body.nonempty_error`: the question whether there is an element, and the
  request for it;
- `Body.first?`: what stands in the place of the first element, which may be a failure;
- `Body.holds_ok`, `Body.holds_error`, `Body.holds_again`: the test of a value that a section can be
  over;
- `Body.holds_answers`, `Body.holds_stream_failing`, `Body.holds_atHand`: what it comes to, by the
  first element;
- `Body.asked`: the state behind some tests of a value;
- `Body.obey_tested`: **a section does the same behind a test as without it.**
-/

namespace Stencil

namespace Body

variable {σ : Type} {s t : State σ} {found : Option Value} {more : Bool}

/-! ## Elements -/

/-- Behind the question the first element is the same, and so is the answer. -/
theorem nonempty_ok {e : Elements}
    (h : e.nonempty s = (.ok (.ok more), t)) :
    e.nonempty t = (.ok (.ok more), t) ∧
      (e.next t : Except Halt (Option (Except DataError Value) × Elements) × State σ) = e.next s ∧
      ∃ first rest u, e.next s = (.ok (first, rest), u) ∧ first.isSome = more := by
  cases e with
  | list items =>
    cases h
    cases items with
    | nil => exact ⟨rfl, rfl, none, _, _, rfl, rfl⟩
    | cons v items => exact ⟨rfl, rfl, some v, _, _, rfl, rfl⟩
  | stream id =>
    have hanswer : (s.streams.hasNext id).1 = .ok more :=
      Except.ok.inj (congrArg Prod.fst h)
    obtain rfl : { s with streams := (s.streams.hasNext id).2 } = t := congrArg Prod.snd h
    obtain ⟨row, hrow, hagain, hgiven, hlater⟩ :=
      Streams.hasNext_ok (Prod.ext hanswer rfl : _ = (_, (s.streams.hasNext id).2))
    refine ⟨?_, ?_, row.map (.ok ∘ Value.ofRow), .stream id,
      { s with streams := (s.streams.next id).2 }, ?_, ?_⟩
    · show (Except.ok (Streams.hasNext id (s.streams.hasNext id).2).1,
        { s with streams := (Streams.hasNext id (s.streams.hasNext id).2).2 }) = _
      rw [hagain]
    · rw [Table.next_stream_apply, Table.next_stream_apply, hlater]
    · rw [Table.next_stream_apply, hgiven, Table.nextElement]
    · rw [Option.isSome_map, hrow]

/-- A sequence that cannot tell has failed where it would have given its first element. -/
theorem nonempty_error {e : Elements} {err : DataError}
    (h : e.nonempty s = (.ok (.error err), t)) :
    ∃ rest, e.next s = (.ok (some (.error err), rest), t) := by
  cases e with
  | list items => cases h
  | stream id =>
    have hanswer : (s.streams.hasNext id).1 = .error err :=
      Except.ok.inj (congrArg Prod.fst h)
    obtain rfl : { s with streams := (s.streams.hasNext id).2 } = t := congrArg Prod.snd h
    have hgiven := Streams.hasNext_error (Prod.ext hanswer rfl : _ = (_, (s.streams.hasNext id).2))
    refine ⟨.stream id, ?_⟩
    rw [Table.next_stream_apply, hgiven]
    rfl

/-- Elements can always be asked for the next one. -/
theorem next_answers (e : Elements) (s : State σ) :
    ∃ first rest t, e.next s = (.ok (first, rest), t) := by
  cases e with
  | list items => cases items <;> exact ⟨_, _, _, rfl⟩
  | stream id => exact ⟨_, _, _, Table.next_stream_apply id s⟩

/-- Elements can always be asked whether there is one. -/
theorem nonempty_answers (e : Elements) (s : State σ) :
    ∃ answer t, e.nonempty s = (.ok answer, t) := by
  cases e <;> exact ⟨_, _, rfl⟩

/-- What stands in the place of the first element, for a value that a section is over: nothing, an
element, or a failure. -/
def first? (found : Option Value) (s : State σ) : Option (Except DataError Value) :=
  (found.bind elements?).bind fun e => (e.next s).1.toOption.bind (·.1)

theorem first?_eq {e rest : Elements} {first : Option (Except DataError Value)}
    (he : found.bind elements? = some e) (h : e.next s = (.ok (first, rest), t)) :
    first? found s = first := by
  rw [first?, he]
  show (e.next s).1.toOption.bind _ = first
  rw [h]
  rfl

/-- Where there is a first element, or a failure in its place, there is a sequence that gives it. -/
theorem next_of_first? {element : Except DataError Value} (h : first? found s = some element) :
    ∃ e rest t, found.bind elements? = some e ∧ e.next s = (.ok (some element, rest), t) := by
  cases he : found.bind elements? with
  | none =>
    rw [first?, he] at h
    cases h
  | some e =>
    obtain ⟨first, rest, t, hnext⟩ := next_answers e s
    obtain rfl : first = some element := (first?_eq he hnext).symm.trans h
    exact ⟨e, rest, t, rfl, hnext⟩

/-- The first element is the same inside of a section. -/
theorem first?_inside (found : Option Value) (name : String) (s : State σ) :
    first? found { s with sections := name :: s.sections } = first? found s := by
  cases he : found.bind elements? with
  | none => rw [first?, first?, he]; rfl
  | some e =>
    obtain ⟨first, rest, t, hnext⟩ := next_answers e s
    rw [first?_eq he hnext, first?_eq he ((consults_next e).inside hnext name)]

/-! ## Tests -/

/-- A value that sections of all kinds can be over: none at all, null, or a sequence. -/
def Sectional (found : Option Value) : Prop :=
  ∀ value, found = some value → value.isNull ∨ value.isSequence

/-- Only a sequence is asked whether it holds. -/
theorem holds_eq (h : Sectional found) : (holds found : Run σ Bool) =
    match found.bind elements? with
    | none => pure false
    | some e => e.nonempty >>= Run.answered := by
  cases found with
  | none => rfl
  | some value =>
    have hvalue := h value rfl
    cases value with
    | null => rfl
    | list items => rfl
    | series items => rfl
    | stream id => rfl
    | _ => simp [Value.isNull, Value.isSequence] at hvalue

/-- A test that has an answer: there is no sequence, or it has given the answer. -/
theorem holds_ok (h : Sectional found) (hs : holds found s = (.ok more, t)) :
    (found.bind elements? = none ∧ more = false ∧ t = s) ∨
      ∃ e, found.bind elements? = some e ∧ e.nonempty s = (.ok (.ok more), t) := by
  rw [holds_eq h] at hs
  cases he : found.bind elements? with
  | none =>
    rw [he] at hs
    obtain ⟨hmore, rfl⟩ := Prod.mk.inj hs
    exact .inl ⟨rfl, (Except.ok.inj hmore).symm, rfl⟩
  | some e =>
    obtain ⟨answer, u, hanswer⟩ := nonempty_answers e s
    rw [he] at hs
    dsimp only at hs
    rw [Run.bind_apply, hanswer] at hs
    cases answer with
    | error err => cases hs
    | ok found =>
      cases hs
      exact .inr ⟨e, rfl, hanswer⟩

/-- A test that has no answer: a sequence has failed. -/
theorem holds_error (h : Sectional found) {halt : Halt} (hs : holds found s = (.error halt, t)) :
    ∃ e err, found.bind elements? = some e ∧ halt = .failed (.source err) ∧
      e.nonempty s = (.ok (.error err), t) := by
  rw [holds_eq h] at hs
  cases he : found.bind elements? with
  | none =>
    rw [he] at hs
    cases hs
  | some e =>
    obtain ⟨answer, u, hanswer⟩ := nonempty_answers e s
    rw [he] at hs
    dsimp only at hs
    rw [Run.bind_apply, hanswer] at hs
    cases answer with
    | error err =>
      cases hs
      exact ⟨e, err, rfl, rfl, hanswer⟩
    | ok found => cases hs

/-- A test has an answer, unless there is a failure in the place of the first element. -/
theorem holds_answers (h : Sectional found) (hfirst : ∀ err, first? found s ≠ some (.error err)) :
    ∃ more t, holds found s = (.ok more, t) := by
  cases hs : (holds found : Run σ Bool) s with
  | mk answer t =>
    cases answer with
    | ok more => exact ⟨more, t, rfl⟩
    | error halt =>
      obtain ⟨e, err, he, -, hanswer⟩ := holds_error h hs
      obtain ⟨rest, hnext⟩ := nonempty_error hanswer
      exact absurd (first?_eq he hnext) (hfirst err)

/-- A single-pass sequence that fails to give its first element cannot tell whether there is one. -/
theorem holds_stream_failing {id : Nat} {err : DataError}
    (hfirst : first? (some (.stream id)) s = some (.error err)) :
    ∃ t, holds (some (.stream id)) s = (.error (.failed (.source err)), t) := by
  obtain ⟨answer, t, hanswer⟩ := nonempty_answers (.stream id) s
  have hs : holds (some (.stream id)) s =
      ((Elements.stream id).nonempty >>= Run.answered : Run σ Bool) s := rfl
  rw [hs, Run.bind_apply, hanswer]
  cases answer with
  | error err' =>
    obtain ⟨rest, hnext⟩ := nonempty_error hanswer
    rw [first?_eq (e := .stream id) rfl hnext] at hfirst
    obtain rfl : err' = err := Except.error.inj (Option.some.inj hfirst)
    exact ⟨t, rfl⟩
  | ok more =>
    -- it would have given a row, or have come to its end
    have hgiven : (s.streams.hasNext id).1 = .ok more := Except.ok.inj (congrArg Prod.fst hanswer)
    obtain ⟨row, -, -, hrow, -⟩ :=
      Streams.hasNext_ok (Prod.ext hgiven rfl : _ = (_, (s.streams.hasNext id).2))
    rw [first?_eq (e := .stream id) rfl (Table.next_stream_apply id s), hrow] at hfirst
    cases row <;> cases hfirst

/-- Elements that are at hand are there, also when a failure stands in the place of the first. -/
theorem holds_atHand (h : Sectional found) (hfound : ∀ id, found ≠ some (.stream id))
    {element : Except DataError Value} (hfirst : first? found s = some element) :
    holds found s = (.ok true, s) := by
  obtain ⟨e, rest, t, he, hnext⟩ := next_of_first? hfirst
  rw [holds_eq h, he]
  cases e with
  | list items =>
    cases items with
    | nil => cases hnext
    | cons first items => rfl
  | stream id =>
    obtain ⟨value, rfl, hvalue⟩ := Option.bind_eq_some_iff.mp he
    cases value with
    | stream id => exact absurd rfl (hfound id)
    | _ => simp [elements?, Value.items?] at hvalue

/-- A test that has an answer has it again, and changes nothing more. -/
theorem holds_again (h : Sectional found) (hs : holds found s = (.ok more, t)) :
    holds found t = (.ok more, t) := by
  rcases holds_ok h hs with ⟨he, rfl, rfl⟩ | ⟨e, he, hanswer⟩
  · exact hs
  · rw [holds_eq h, he]
    dsimp only
    rw [Run.bind_apply, (nonempty_ok hanswer).1]
    rfl

/-- The state behind some tests of a value. -/
def asked (found : Option Value) (k : Nat) (s : State σ) : State σ :=
  (fun s => (holds found s).2)^[k] s

/-- However often a value is tested, only the first test can change anything. -/
theorem asked_cases (h : Sectional found) (hs : holds found s = (.ok more, t)) (k : Nat) :
    asked found k s = s ∨ asked found k s = t := by
  induction k with
  | zero => exact .inl rfl
  | succ k ih =>
    refine .inr ?_
    rw [asked, Function.iterate_succ_apply', ← asked]
    rcases ih with hk | hk <;> rw [hk]
    · rw [hs]
    · rw [holds_again h hs]

/-! ## Sections behind a test -/

section

variable [Sink σ] {b : Bool → Value → Run σ Exit} {v : Value} {m : Marker}

/-- A repeating section is over a sequence, or over nothing. -/
theorem repeating_eq (b : Bool → Value → Run σ Exit) (muted : Bool)
    (h : Sectional (v.lookup (pathOf m.name))) :
    repeating b m muted v = Run.inSection m.name
      (match (v.lookup (pathOf m.name)).bind elements? with
        | none => scan b m.name
        | some e => sequence b m.name m.separator muted e) := by
  unfold repeating
  generalize v.lookup (pathOf m.name) = found at h
  cases found with
  | none => rfl
  | some value =>
    have hvalue := h value rfl
    cases value with
    | null => rfl
    | list items => rfl
    | series items => rfl
    | stream id => rfl
    | _ => simp [Value.isNull, Value.isSequence] at hvalue

/-- **A section does the same behind a test as without it.**  The conditional sections test again,
and a repeating section asks for the same first element. -/
theorem obey_tested (B : ∀ muted v, Thrifty (b muted v)) (h : Sectional (v.lookup (pathOf m.name)))
    (hs : holds (v.lookup (pathOf m.name)) s = (.ok more, t)) (hm : m.kind ∈ sectionKinds)
    (f : Opener σ) (job : Job) (muted : Bool) :
    obey b f job muted v m t = obey b f job muted v m s := by
  have inner := (consults_holds _).inside hs m.name
  have again := (consults_holds _).inside (holds_again h hs) m.name
  have tests (inverted : Bool) :
      conditional b m inverted muted v t = conditional b m inverted muted v s := by
    unfold conditional
    dsimp only
    rw [inSection_apply, inSection_apply, Run.bind_apply, Run.bind_apply, inner, again]
  have repeats : repeating b m muted v t = repeating b m muted v s := by
    rw [repeating_eq b muted h]
    rcases holds_ok h inner with ⟨he, -, hsame⟩ | ⟨e, he, hanswer⟩
    · rw [inSection_apply, inSection_apply, hsame]
    · rw [inSection_apply, inSection_apply, he]
      dsimp only
      rw [sequence_apply, sequence_apply, iterated_congr B (nonempty_ok hanswer).2.1]
  unfold obey
  cases hk : m.kind with
  | repeating =>
    dsimp only
    rw [Run.bind_apply, Run.bind_apply, repeats]
  | conditional =>
    dsimp only
    rw [Run.bind_apply, Run.bind_apply, tests]
  | inverted =>
    dsimp only
    rw [Run.bind_apply, Run.bind_apply, tests]
  | _ => simp [sectionKinds, hk] at hm

end

end Body

end Stencil
