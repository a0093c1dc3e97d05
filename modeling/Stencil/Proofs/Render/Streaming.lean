import Stencil.Proofs.Data.Supply
import Stencil.Proofs.Render.Linked
import Stencil.Proofs.Render.Termination
import Stencil.Proofs.Value.Materialise

/-!
# Rows from a cursor, or from a list

A section over a cursor writes what it would write over the list of its rows: the next row is asked
for before the body is written, which finds no sequence in the value of its row, and a test in front
of the section only looks at the first row.  Behind the section the cursor is closed, and the list is
still there.

- `Marker.refersTo`, `Body.writeOnce`: sections that refer to a sequence, and a render that gives up
  when one refers to it after it has been closed;
- `Table.link`: what is known of the sequences of two renders, the first with the cursor and the
  second with the list;
- `Table.Bodies`: the same for bodies, in front of the section and behind it, or inside of it;
- `Table.Bodies.sequence_source`: **the section over the cursor**; `Table.Bodies.step`: one more
  marker;
- `Template.write_materialised`: **a cursor renders like the list of its rows**.
-/

namespace Stencil

open Body

variable {σ α β : Type}

/-! ## References -/

/-- Whether a value is a certain single-pass sequence. -/
def Value.isStream (id : Nat) : Value → Bool
  | .stream n => n = id
  | _ => false

/-- Whether a marker begins a section that iterates over a single-pass sequence or tests it. -/
def Marker.refersTo (m : Marker) (id : Nat) (v : Value) : Bool :=
  match m.kind with
  | .repeating | .conditional | .inverted => (v.lookup (pathOf m.name)).any (Value.isStream id)
  | _ => false

namespace Body

variable [Sink σ]

/-- Whether the next marker refers to a single-pass sequence that has been closed. -/
def refersAgain (id : Nat) (muted : Bool) (v : Value) (s : State σ) : Bool :=
  match Run.copyText muted (s.reader.charsLeft + 1) s with
  | (.ok (some m), s) => m.refersTo id v && s.streams.isClosed id
  | _ => false

/-- Writes as `write` does, and gives up at a section that refers to a single-pass sequence when
that has been closed, as it is behind the first repeating section over it. -/
def writeOnce (id : Nat) (job : Job) : Nat → (muted : Bool) → Value → Run σ Exit
  | 0, _, _ => throw .exhausted
  | fuel + 1, muted, v => do
    if refersAgain id muted v (← get) then throw .exhausted
    else step (writeOnce id job fuel) reopen job muted v

theorem writeOnce_apply (id : Nat) (job : Job) (n : Nat) (muted : Bool) (v : Value) (s : State σ) :
    writeOnce id job (n + 1) muted v s = if refersAgain id muted v s then (.error .exhausted, s)
      else step (writeOnce id job n) reopen job muted v s := by
  have hget : (get : Run σ (State σ)) s = (.ok s, s) := rfl
  rw [writeOnce, Run.bind_apply, hget]
  dsimp only
  split <;> rfl

/-- A render that gives up at such sections is the same render, unless it gives up. -/
theorem unless_writeOnce (id : Nat) (job : Job) (n : Nat) :
    ∀ (muted : Bool) (v : Value),
      Unless (· = .exhausted) (writeOnce id job n muted v : Run σ Exit) (write job n muted v) := by
  induction n with
  | zero => exact fun _ _ => .refl _
  | succ n ih =>
    intro muted v s
    rw [writeOnce_apply]
    by_cases h : refersAgain id muted v s = true
    · rw [if_pos h]
      exact .inl ⟨_, s, rfl, rfl⟩
    · rw [if_neg h]
      exact Unless.step ih muted v s

end Body

/-! ## The cursor and the list of its rows -/

/-- A cursor in place of a single-pass sequence: its number, the labels of its columns, and the rows
that it gives. -/
structure Table where
  id : Nat
  labels : List String
  rows : List Row

/-- Where two renders are that differ in a cursor and the list of its rows: in front of the section
over the cursor or behind it, or inside, where the sequences of neither render change. -/
inductive Stage where
  | outside
  | inside (left right : Streams)

namespace Table

variable (w : Table)

/-- The rows of the cursor as a list. -/
def items : List Value := w.rows.map .ofRow

/-- A value with the list in place of the cursor. -/
def put (v : Value) : Value := v.materialise w.id w.items

/-- All other sequences are the same, and all rows of the cursor are left. -/
def Fresh : Link := fun S T => S.Elsewhere w.id T ∧ S.Supplies w.id w.labels w.rows

/-- All other sequences are the same, and all rows of the cursor are left, or it has been closed. -/
def Outside : Link := fun S T =>
  S.Elsewhere w.id T ∧ (S.Supplies w.id w.labels w.rows ∨ S.isClosed w.id = true)

/-- All other sequences are the same, and these rows of the cursor are left. -/
def Running (left : List Row) : Link := fun S T =>
  S.Elsewhere w.id T ∧ S.Supplies w.id w.labels left

/-- All other sequences are the same, and some rows of the cursor are left. -/
def Ending : Link := fun S T => ∃ left, w.Running left S T

/-- What is known of the sequences at a stage. -/
def link : Stage → Link
  | .outside => w.Outside
  | .inside left right => fun S T => S = left ∧ T = right

theorem outside_of_fresh {S T : Streams} (h : w.Fresh S T) : w.Outside S T := ⟨h.1, .inl h.2⟩

end Table

/-- The values that may be met at a stage: inside of the section over the cursor there are only
values of rows. -/
def Stage.Admits : Stage → Value → Prop
  | .outside, _ => True
  | .inside _ _, v => v.isMultiPass = true

/-- The elements that may be iterated over at a stage, but for the cursor. -/
def Stage.Asks (g : Stage) (id : Nat) : Elements → Prop
  | .list items => ∀ v, .ok v ∈ items → g.Admits v
  | .stream n => g = .outside ∧ n ≠ id

namespace Stage

variable {g : Stage}

theorem admits_of_isMultiPass {v : Value} (h : v.isMultiPass) : g.Admits v := by
  cases g with
  | outside => exact trivial
  | inside => exact h

theorem admits_lookup {v found : Value} {path : List String} (h : g.Admits v)
    (hfound : v.lookup path = some found) : g.Admits found := by
  cases g with
  | outside => exact trivial
  | inside => exact Value.isMultiPass_of_lookup path h hfound

theorem admits_asDictionary {v : Value} (h : g.Admits v) : g.Admits v.asDictionary := by
  cases g with
  | outside => exact trivial
  | inside => exact Value.isMultiPass_asDictionary h

/-- What may be found may be iterated over, unless it is the cursor. -/
theorem asks_elements {id : Nat} {found : Value} {elements : Elements} (h : g.Admits found)
    (hid : found.isStream id = false) (he : elements? found = some elements) :
    g.Asks id elements := by
  have known {items : List (Except DataError Value)} (hitems : found.items? = some items) :
      g.Asks id (.list items) := by
    cases g with
    | outside => exact fun _ _ => trivial
    | inside => exact Value.isMultiPass_of_items? h hitems
  cases found with
  | list items | series items =>
    rw [← Option.some.inj he]
    exact known rfl
  | stream n =>
    rw [← Option.some.inj he]
    cases g with
    | outside => exact ⟨rfl, of_decide_eq_false hid⟩
    | inside => rw [Admits, Value.isMultiPass] at h; cases h
  | _ => cases he

end Stage

namespace Table

variable (w : Table)

/-- An element with the list in place of the cursor. -/
def putElement : Except DataError Value → Except DataError Value := Except.map w.put

/-- The elements of a sequence with the list in place of the cursor. -/
def putElements : Elements → Elements
  | .list items => .list (items.map w.putElement)
  | .stream n => .stream n

theorem put_ofRow (row : Row) : w.put (.ofRow row) = .ofRow row :=
  Value.materialise_of_isMultiPass _ (Value.isMultiPass_ofRow row)

/-! ## Asking other sequences -/

section

variable {w} {g : Stage} {S T : Streams}

/-- A request to another sequence. -/
theorem Outside.request (h : w.Outside S T) {n : Nat} (hn : n ≠ w.id) (absent : α)
    (send : Stream → Except DataError α × Stream) :
    (Streams.request absent send n S).1 = (Streams.request absent send n T).1 ∧
      w.Outside (Streams.request absent send n S).2 (Streams.request absent send n T).2 := by
  obtain ⟨helse, hrows⟩ := h
  obtain ⟨hanswer, helse', hentry⟩ := helse.request absent send hn
  refine ⟨hanswer, helse', ?_⟩
  rcases hrows with ⟨rows, hrows, hsupplies⟩ | hclosed
  · exact .inl ⟨rows, hentry.trans hrows, hsupplies⟩
  · right
    unfold Streams.isClosed at hclosed ⊢
    rw [hentry]
    exact hclosed

/-- A request to another sequence goes together with itself. -/
theorem paired_request {n : Nat} (hn : n ≠ w.id) (absent : α)
    (send : Stream → Except DataError α × Stream) :
    Paired w.Outside w.Outside Any (Run.request (Streams.request absent send n) : Run σ _)
      (Run.request (Streams.request absent send n)) := by
  intro s streams h
  obtain ⟨hanswer, hlink⟩ := h.request hn absent send
  unfold Run.request
  dsimp only
  rw [← hanswer]
  exact .answer (s := { s with streams := _ }) hlink trivial

/-! ## Elements -/

/-- What a single-pass sequence gives next, as an element. -/
def nextElement : Except DataError (Option Row) → Option (Except DataError Value)
  | .ok row => row.map (.ok ∘ .ofRow)
  | .error e => some (.error e)

theorem next_stream_apply (n : Nat) (s : State σ) :
    Elements.next (.stream n) s = (.ok (nextElement (s.streams.next n).1, .stream n),
      { s with streams := (s.streams.next n).2 }) := by
  show (Run.request (Streams.next n) >>= _) s = _
  rw [Run.bind_apply]
  unfold Run.request
  dsimp only
  cases (s.streams.next n).1 with
  | error e => rfl
  | ok row => cases row <;> rfl

/-- The elements are asked for alike. -/
theorem next_putElements (e : Elements) :
    ((w.putElements e).next : Run σ _) =
      (fun x => (x.1.map w.putElement, w.putElements x.2)) <$> e.next := by
  funext s
  rw [Run.map_apply]
  cases e with
  | list values => cases values <;> rfl
  | stream n =>
    have hrow (answer : Except DataError (Option Row)) :
        (nextElement answer).map w.putElement = nextElement answer := by
      cases answer with
      | error e => rfl
      | ok row =>
        cases row with
        | none => rfl
        | some row => exact congrArg (fun v => some (Except.ok v)) (put_ofRow w row)
    rw [putElements, next_stream_apply]
    dsimp only
    rw [hrow]
    rfl

theorem answered_putElement (element : Except DataError Value) :
    (Run.answered (w.putElement element) : Run σ Value) = w.put <$> Run.answered element := by
  cases element <;> rfl

theorem paired_next {e : Elements} (h : g.Asks w.id e) :
    Paired (w.link g) (w.link g)
      (fun x => (∀ v, x.1 = some (.ok v) → g.Admits v) ∧ g.Asks w.id x.2)
      (e.next : Run σ _) e.next := by
  cases e with
  | list values =>
    intro s streams hP
    cases values with
    | nil => exact .answer hP ⟨fun _ heq => (nomatch heq), h⟩
    | cons v rest =>
      refine .answer hP ⟨fun v' heq => ?_, fun v' hm => h v' (List.mem_cons_of_mem _ hm)⟩
      obtain rfl : v = .ok v' := Option.some.inj heq
      exact h v' (List.mem_cons_self ..)
  | stream n =>
    obtain ⟨rfl, hn⟩ := h
    unfold Elements.next
    refine (paired_request hn none Stream.next).andThen fun answer _ => ?_
    cases answer with
    | error e => exact fun _ _ hP => .answer hP ⟨fun _ heq => (nomatch heq), rfl, hn⟩
    | ok row =>
      cases row with
      | none => exact fun _ _ hP => .answer hP ⟨fun _ heq => (nomatch heq), rfl, hn⟩
      | some row => exact fun _ _ hP => .answer hP ⟨fun _ _ => trivial, rfl, hn⟩

theorem bound_putElements (e : Elements) :
    ((w.putElements e).bound : Run σ Nat) = e.bound := by
  cases e with
  | list values =>
    show (pure ((values.map w.putElement).length + 1) : Run σ Nat) = _
    rw [List.length_map]
    rfl
  | stream n => rfl

theorem paired_bound {e : Elements} (h : g.Asks w.id e) :
    Paired (w.link g) (w.link g) Any (e.bound : Run σ Nat) e.bound := by
  cases e with
  | list values => exact .of_aloof (.pure _)
  | stream n =>
    obtain ⟨rfl, hn⟩ := h
    intro s streams hP
    have hentry : s.streams.stepsLeft n = streams.stepsLeft n := by
      unfold Streams.stepsLeft
      rw [hP.1 n hn]
    show Linked _ _ (.ok (s.streams.stepsLeft n + 2), s) (.ok (streams.stepsLeft n + 2), _)
    rw [← hentry]
    exact .answer hP trivial

/-- Closing is linked to closing. -/
theorem closing_putElements {e : Elements} (h : g.Asks w.id e) (hlink : w.link g S T) :
    (e.closing S).1 = ((w.putElements e).closing T).1 ∧
      w.link g (e.closing S).2 ((w.putElements e).closing T).2 := by
  cases e with
  | list values => exact ⟨rfl, hlink⟩
  | stream n =>
    obtain ⟨rfl, hn⟩ := h
    exact Outside.request hlink hn () Stream.close

/-- What counts as true counts as true with the list in place of the cursor. -/
theorem holds_put {found : Option Value} (h : ∀ v ∈ found, v.isStream w.id = false) :
    (holds (found.map w.put) : Run σ Bool) = holds found := by
  cases found with
  | none => rfl
  | some v =>
    have hv := h v rfl
    rw [Option.map_some, put]
    cases v with
    | list values =>
      rw [Value.materialise_list]
      cases values <;> rfl
    | series values =>
      rw [Value.materialise_series]
      cases values <;> rfl
    | stream n => rw [Value.materialise_stream (of_decide_eq_false hv)]
    | scalar s => rw [Value.materialise_scalar]
    | null => rw [Value.materialise_null]
    | element e => rw [Value.materialise]
    | record fields =>
      rw [Value.materialise]
      rfl
    | own v =>
      rw [Value.materialise_own]
      rfl

theorem paired_holds {found : Option Value} (h : ∀ v ∈ found, v.isStream w.id = false ∧ g.Admits v) :
    Paired (w.link g) (w.link g) Any (holds found : Run σ Bool) (holds found) := by
  cases found with
  | none => exact .of_aloof (.pure _)
  | some v =>
    obtain ⟨hid, hv⟩ := h v rfl
    cases v with
    | stream n =>
      obtain ⟨rfl, hn⟩ := Stage.asks_elements hv hid (rfl : elements? (.stream n) = some (.stream n))
      exact (paired_request hn false Stream.hasNext).andThen fun answer _ =>
        .of_aloof (.answered answer)
    | list values | series values =>
      exact .of_aloof ((Aloof.pure ()).bind fun _ =>
        (Aloof.pure _).bind fun answer => .answered answer)
    | scalar s => cases s <;> exact .of_aloof (.pure _)
    | _ => exact .of_aloof (.pure _)

/-- A variable is looked up alike: the cursor and the list are no scalars. -/
theorem resolve_put (job : Job) (v : Value) (name : String) :
    (resolve job (w.put v) name : Run σ (Option Scalar)) = resolve job v name := by
  unfold resolve
  simp only [Run.unheard_bind]
  cases Reference.ofName name with
  | text key => rfl
  | setting key => rfl
  | path keys =>
    dsimp only
    rw [put, Value.lookup_materialise]
    cases v.lookup keys with
    | none => rfl
    | some found =>
      rw [Option.map_some]
      cases found with
      | stream n =>
        rw [Value.materialise]
        by_cases hn : n = w.id
        · rw [if_pos hn]
        · rw [if_neg hn]
      | _ => rw [Value.materialise]

end

/-! ## Bodies -/

variable (g : Stage)

/-- Computations for bodies that go together at a stage. -/
def Bodies (b c : Bool → Value → Run σ Exit) : Prop :=
  ∀ muted v, g.Admits v → Paired (w.link g) (w.link g) Any (b muted v) (c muted (w.put v))

namespace Bodies

variable {w g} {b c : Bool → Value → Run σ Exit}

theorem closed (B : w.Bodies g b c) (name : String) (muted : Bool) {v : Value} (hv : g.Admits v) :
    Paired (w.link g) (w.link g) Any (Body.closed b name muted v)
      (Body.closed c name muted (w.put v)) := by
  refine (B muted v hv).andThen fun exit _ => ?_
  cases exit with
  | sectionEnd => exact .of_aloof (.pure ())
  | endOfText => exact .of_aloof (.fail _)

theorem scan (B : w.Bodies g b c) (name : String) :
    Paired (w.link g) (w.link g) Any (Body.scan b name) (Body.scan c name) := by
  have inner := B.closed name true (v := .own .null) (Stage.admits_of_isMultiPass rfl)
  rw [put, Value.materialise_own, Value.materialise_null] at inner
  exact inner.inScope (fun _ _ h => h) _

variable [Sink σ]

/-- The loop over the elements of any other sequence, by induction on its fuel. -/
theorem each (B : w.Bodies g b c) (name : String) (separator : Option String) (muted : Bool)
    (fuel : Nat) :
    ∀ (first : Bool) (element : Except DataError Value) (rest : Elements),
      (∀ v, element = .ok v → g.Admits v) → g.Asks w.id rest →
      Paired (w.link g) (w.link g) Any (Body.each b name separator muted fuel first element rest)
        (Body.each c name separator muted fuel first (w.putElement element)
          (w.putElements rest)) := by
  induction fuel with
  | zero => exact fun _ _ _ _ _ _ _ _ => .gaveUp
  | succ fuel ih =>
    intro first element rest helement hrest
    unfold Body.each
    simp only [pull_silent]
    rw [answered_putElement, next_putElements]
    have answered : Paired (w.link g) (w.link g) g.Admits (Run.answered element : Run σ Value)
        (Run.answered element) := by
      cases element with
      | error e => exact fun _ _ hP => .failure hP
      | ok v => exact fun _ _ hP => .answer hP (helement v rfl)
    refine answered.andThenMap w.put fun v hv => ?_
    refine (paired_next hrest).andThenMap _ fun following hfollowing => ?_
    obtain ⟨following, rest⟩ := following
    dsimp only
    rw [Option.isSome_map, put, Value.asDictionary_materialise]
    refine (Paired.of_aloof (.markIf _)).andThen fun _ _ => ?_
    refine (Paired.copies.separate Paired.emit separator first muted).andThen fun _ _ => ?_
    refine (B.closed name muted (Stage.admits_asDictionary hv)).andThen fun _ _ => ?_
    cases following with
    | none => exact .of_aloof (.pure ())
    | some element =>
      refine (Paired.of_aloof .rewind).andThen fun _ _ => ih false element rest ?_ hfollowing.2
      exact fun v heq => hfollowing.1 v (congrArg some heq)

theorem iterated (B : w.Bodies g b c) (name : String) (separator : Option String) (muted : Bool)
    {e : Elements} (h : g.Asks w.id e) :
    Paired (w.link g) (w.link g) Any (Body.iterated b name separator muted e)
      (Body.iterated c name separator muted (w.putElements e)) := by
  unfold Body.iterated
  simp only [pull_silent]
  rw [bound_putElements, next_putElements]
  refine (paired_bound h).andThen fun fuel _ => ?_
  refine (paired_next h).andThenMap _ fun following hfollowing => ?_
  obtain ⟨first, rest⟩ := following
  cases first with
  | none => exact B.scan name
  | some element =>
    refine (B.each name separator muted fuel true element rest ?_ hfollowing.2).inScope
      (fun _ _ h => h) _
    exact fun v heq => hfollowing.1 v (congrArg some heq)

theorem sequence (B : w.Bodies g b c) (name : String) (separator : Option String) (muted : Bool)
    {e : Elements} (h : g.Asks w.id e) :
    Paired (w.link g) (w.link g) Any (Body.sequence b name separator muted e)
      (Body.sequence c name separator muted (w.putElements e)) := by
  intro s streams hP
  have inner := B.iterated name separator muted h s streams hP
  rw [sequence_apply, sequence_apply]
  generalize Body.iterated b name separator muted e s = x at inner
  generalize Body.iterated c name separator muted (w.putElements e)
    { s with streams := streams } = y at inner
  cases inner with
  | gaveUp => exact .gaveUp
  | @failure halt s' streams' hlink =>
    obtain ⟨-, hclosed⟩ := closing_putElements h hlink
    exact .failure (s := { s' with streams := (e.closing s'.streams).2 }) hclosed
  | @answer _ s' streams' hlink _ =>
    obtain ⟨hanswer, hclosed⟩ := closing_putElements h hlink
    dsimp only
    rw [← hanswer]
    cases (e.closing s'.streams).1 with
    | error e' => exact .failure (s := { s' with streams := (e.closing s'.streams).2 }) hclosed
    | ok _ => exact .answer (s := { s' with streams := (e.closing s'.streams).2 }) hclosed trivial

/-! ### The section over the cursor -/

omit [Sink σ] in
theorem put_row (w : Table) (row : Row) :
    w.put (Value.ofRow row).asDictionary = (Value.ofRow row).asDictionary := by
  rw [put, ← Value.asDictionary_materialise]
  exact congrArg Value.asDictionary (w.put_ofRow row)

/-- The loop over the rows, by induction on the fuel of the render with the cursor.  When the next
row has been asked for, the sequences of both renders stay as they are until the body has been
written. -/
theorem each_source (B : ∀ g, w.Bodies g b c) (name : String) (separator : Option String)
    (muted : Bool) (n : Nat) :
    ∀ (m : Nat) (first : Bool) (row : Row) (rest : List Row), rest.length < m →
      Paired (w.Running rest) w.Ending Any
        (Body.each b name separator muted n first (.ok (.ofRow row)) (.stream w.id))
        (Body.each c name separator muted m first (.ok (.ofRow row))
          (.list (rest.map (.ok ∘ .ofRow)))) := by
  induction n with
  | zero => exact fun _ _ _ _ _ _ _ _ => .gaveUp
  | succ n ih =>
    intro m first row rest hm s T ⟨helse, hsupplies⟩
    obtain ⟨m, rfl⟩ : ∃ k, m = k + 1 := ⟨m - 1, by omega⟩
    obtain ⟨S, hnext, hleft, helse'⟩ := hsupplies.next
    have hrunning : w.Running rest.tail S T := ⟨helse'.trans helse, hleft⟩
    -- the body for this row, and what follows it
    have written {x y : Run σ Unit} (more : Bool)
        (h : Paired (w.Running rest.tail) w.Ending Any x y) :
        Linked w.Ending Any
          ((do
            markIf more
            separate separator first muted
            Body.closed b name muted (Value.ofRow row).asDictionary
            x) { s with streams := S })
          ((do
            markIf more
            separate separator first muted
            Body.closed c name muted (Value.ofRow row).asDictionary
            y) { s with streams := T }) := by
      have inside := (B (.inside S T)).closed name muted
        (Stage.admits_asDictionary (Stage.admits_of_isMultiPass (Value.isMultiPass_ofRow row)))
      rw [put_row] at inside
      have hend : ∀ S' T', w.link (.inside S T) S' T' → w.Ending S' T' := by
        rintro _ _ ⟨rfl, rfl⟩
        exact ⟨_, hrunning⟩
      have chain := (Paired.of_aloof (P := w.link (.inside S T)) (.markIf more)).bind hend fun _ _ =>
        (Paired.copies.separate Paired.emit separator first muted).bind hend fun _ _ =>
          inside.bind hend fun _ _ => h.pre (by rintro _ _ ⟨rfl, rfl⟩; exact hrunning)
      exact chain { s with streams := S } T ⟨rfl, rfl⟩
    rw [Body.each, Body.each]
    simp only [pull_silent]
    show Linked _ _ ((Elements.next (.stream w.id) >>= _) s) _
    rw [Run.bind_apply, next_stream_apply, hnext]
    cases rest with
    | nil =>
      exact written false fun s T h => .answer ⟨[], h⟩ trivial
    | cons row' rest =>
      refine written true ((Paired.of_aloof .rewind).bind (fun _ _ h => ⟨_, h⟩) fun _ _ => ?_)
      exact ih m false row' rest (Nat.lt_of_succ_lt_succ hm)

/-- What a section over a list begins with. -/
theorem iterated_list (c : Bool → Value → Run σ Exit) (name : String) (separator : Option String)
    (muted : Bool) (element : Except DataError Value) (rest : List (Except DataError Value)) :
    Body.iterated c name separator muted (.list (element :: rest)) = Run.inScope (.caching [])
      (Body.each c name separator muted (rest.length + 2) true element (.list rest)) := rfl

theorem iterated_stream_apply (b : Bool → Value → Run σ Exit) (name : String)
    (separator : Option String) (muted : Bool) (n : Nat) (s : State σ) :
    Body.iterated b name separator muted (.stream n) s =
      (match nextElement (s.streams.next n).1 with
        | none => Body.scan b name
        | some element => Run.inScope (.caching []) (Body.each b name separator muted
          (s.streams.stepsLeft n + 2) true element (.stream n)))
        { s with streams := (s.streams.next n).2 } := by
  have hbound : (Elements.bound (.stream n) : Run σ Nat) s =
      (.ok (s.streams.stepsLeft n + 2), s) := rfl
  rw [Body.iterated, Run.bind_apply, hbound]
  dsimp only
  rw [pull_silent, Run.bind_apply, next_stream_apply]
  dsimp only
  cases nextElement (s.streams.next n).1 <;> rfl

theorem iterated_source (B : ∀ g, w.Bodies g b c) (name : String) (separator : Option String)
    (muted : Bool) :
    Paired w.Fresh w.Ending Any (Body.iterated b name separator muted (.stream w.id))
      (Body.iterated c name separator muted (.list (w.items.map .ok))) := by
  intro s T ⟨helse, hsupplies⟩
  obtain ⟨S, hnext, hleft, helse'⟩ := hsupplies.next
  have hrunning : w.Running w.rows.tail S T := ⟨helse'.trans helse, hleft⟩
  rw [iterated_stream_apply, hnext, items, List.map_map]
  cases hrows : w.rows with
  | nil =>
    rw [hrows] at hrunning
    have scanned : Paired (w.link (.inside S T)) w.Ending Any (Body.scan b name)
        (Body.scan c name) :=
      ((B _).scan name).post (by rintro _ _ ⟨rfl, rfl⟩; exact ⟨_, hrunning⟩)
    exact scanned { s with streams := S } T ⟨rfl, rfl⟩
  | cons row rest =>
    rw [hrows] at hrunning
    rw [List.map_cons, iterated_list]
    have hlt : rest.length <
        (rest.map ((.ok : Value → Except DataError Value) ∘ .ofRow)).length + 2 := by
      rw [List.length_map]
      omega
    have rows := (each_source B name separator muted (s.streams.stepsLeft w.id + 2) _ true row rest
      hlt).inScope (fun _ _ h => ⟨_, h⟩) (.caching [])
    exact rows { s with streams := S } T hrunning

/-- **The section over the cursor** goes together with the section over the list, and the cursor is
closed behind it. -/
theorem sequence_source (B : ∀ g, w.Bodies g b c) (name : String) (separator : Option String)
    (muted : Bool) :
    Paired w.Fresh w.Outside Any (Body.sequence b name separator muted (.stream w.id))
      (Body.sequence c name separator muted (.list (w.items.map .ok))) := by
  intro s T h
  have inner := iterated_source B name separator muted s T h
  rw [sequence_apply, sequence_apply]
  generalize Body.iterated b name separator muted (.stream w.id) s = x at inner
  generalize Body.iterated c name separator muted (.list (w.items.map .ok))
    { s with streams := T } = y at inner
  -- closing does not fail
  have closes {S' T' : Streams} (h : w.Ending S' T') :
      ∃ S'', S'.close w.id = (.ok (), S'') ∧ w.Outside S'' T' := by
    obtain ⟨left, helse, hsupplies⟩ := h
    obtain ⟨S'', hclose, hclosed, helse'⟩ := hsupplies.close
    exact ⟨S'', hclose, helse'.trans helse, .inr hclosed⟩
  cases inner with
  | gaveUp => exact .gaveUp
  | @failure halt s' T' hend =>
    obtain ⟨S'', hclose, hout⟩ := closes hend
    dsimp only [Elements.closing]
    rw [hclose]
    exact .failure (s := { s' with streams := S'' }) hout
  | @answer _ s' T' hend _ =>
    obtain ⟨S'', hclose, hout⟩ := closes hend
    dsimp only [Elements.closing]
    rw [hclose]
    exact .answer (s := { s' with streams := S'' }) hout trivial

/-! ### Sections -/

/-- What a path of a value leads to, with the list in place of the cursor. -/
theorem lookup_put (path : List String) (v : Value) :
    (w.put v).lookup path = (v.lookup path).map w.put := Value.lookup_materialise path v

theorem repeating (B : w.Bodies g b c) (m : Marker) (muted : Bool) {v : Value} (hv : g.Admits v)
    (hid : ∀ found ∈ v.lookup (pathOf m.name), found.isStream w.id = false) :
    Paired (w.link g) (w.link g) Any (Body.repeating b m muted v)
      (Body.repeating c m muted (w.put v)) := by
  refine Paired.inSection ?_ (fun _ _ h => h) m.name
  rw [lookup_put]
  cases hfound : v.lookup (pathOf m.name) with
  | none => exact B.scan m.name
  | some found =>
    have hplain := hid found hfound
    have hadmits := Stage.admits_lookup hv hfound
    have sequence {elements : Elements} (he : elements? found = some elements) :=
      B.sequence m.name m.separator muted (Stage.asks_elements hadmits hplain he)
    rw [Option.map_some, put]
    cases found with
    | null =>
      rw [Value.materialise_null]
      exact B.scan m.name
    | list items =>
      rw [Value.materialise_list]
      have elements := sequence rfl
      rw [putElements, List.map_map] at elements
      show Paired _ _ _ _ (Body.sequence c m.name m.separator muted (.list ((items.map _).map .ok)))
      rw [List.map_map]
      exact elements
    | series items =>
      rw [Value.materialise_series]
      exact sequence rfl
    | stream n =>
      rw [Value.materialise_stream (of_decide_eq_false hplain)]
      exact sequence rfl
    | _ =>
      rw [Value.materialise]
      exact .of_aloof (.fail _)

theorem repeating_source (B : ∀ g, w.Bodies g b c) (m : Marker) (muted : Bool) {v : Value}
    (h : v.lookup (pathOf m.name) = some (.stream w.id)) :
    Paired w.Fresh w.Outside Any (Body.repeating b m muted v)
      (Body.repeating c m muted (w.put v)) := by
  refine Paired.inSection ?_ (fun _ _ => w.outside_of_fresh) m.name
  rw [lookup_put, h, Option.map_some, put, Value.materialise_self]
  exact sequence_source B m.name m.separator muted

omit [Sink σ] in
/-- What a conditional section does when its value has been tested. -/
theorem tested (B : w.Bodies g b c) (m : Marker) (inverted muted : Bool) {v : Value}
    (hv : g.Admits v) {found : Option Value} (hfound : ∀ v ∈ found, g.Admits v) (holds : Bool) :
    Paired (w.link g) (w.link g) Any
      (match holds, inverted, found with
        | true, false, some value => Body.closed b m.name muted value.asDictionary
        | false, true, _ => Body.closed b m.name muted v
        | _, _, _ => Body.scan b m.name)
      (match holds, inverted, found.map w.put with
        | true, false, some value => Body.closed c m.name muted value.asDictionary
        | false, true, _ => Body.closed c m.name muted (w.put v)
        | _, _, _ => Body.scan c m.name) := by
  have hclosed := B.closed m.name muted hv
  have hscan := B.scan m.name
  cases holds with
  | false =>
    cases inverted with
    | false => exact hscan
    | true => exact hclosed
  | true =>
    cases inverted with
    | true => exact hscan
    | false =>
      cases found with
      | none => exact hscan
      | some value =>
        have inner := B.closed m.name muted (Stage.admits_asDictionary (hfound value rfl))
        rw [put, ← Value.asDictionary_materialise] at inner
        exact inner

omit [Sink σ] in
theorem conditional (B : w.Bodies g b c) (m : Marker) (inverted muted : Bool) {v : Value}
    (hv : g.Admits v) (hid : ∀ found ∈ v.lookup (pathOf m.name), found.isStream w.id = false) :
    Paired (w.link g) (w.link g) Any (Body.conditional b m inverted muted v)
      (Body.conditional c m inverted muted (w.put v)) := by
  have hfound : ∀ found ∈ v.lookup (pathOf m.name), g.Admits found :=
    fun found hm => Stage.admits_lookup hv hm
  refine Paired.inSection ?_ (fun _ _ h => h) m.name
  dsimp only
  rw [lookup_put, holds_put hid]
  refine (paired_holds fun found hm => ⟨hid found hm, hfound found hm⟩).andThen fun holds _ => ?_
  exact B.tested m inverted muted hv hfound holds

omit [Sink σ] in
/-- A test of the cursor looks at its first row, which stays the first. -/
theorem conditional_source (B : w.Bodies .outside b c) (m : Marker) (inverted muted : Bool)
    {v : Value} (h : v.lookup (pathOf m.name) = some (.stream w.id)) :
    Paired w.Fresh w.Outside Any (Body.conditional b m inverted muted v)
      (Body.conditional c m inverted muted (w.put v)) := by
  have holds : Paired w.Fresh w.Fresh Any (Body.holds (some (.stream w.id)) : Run σ Bool)
      (Body.holds (some (.list w.items))) := by
    intro s T ⟨helse, hsupplies⟩
    obtain ⟨S, hnext, hleft, helse'⟩ := hsupplies.hasNext
    have hanswer : (Body.holds (some (.stream w.id)) : Run σ Bool) s =
        (.ok (!w.rows.isEmpty), { s with streams := S }) := by
      show (Run.request (Streams.hasNext w.id) >>= Run.answered) s = _
      rw [Run.bind_apply]
      unfold Run.request
      dsimp only
      rw [hnext]
      rfl
    have hanswer' : (Body.holds (some (.list w.items)) : Run σ Bool) { s with streams := T } =
        (.ok (!w.rows.isEmpty), { s with streams := T }) := by
      show ((Except.ok (!(w.items.map _).isEmpty) : Except Halt Bool), _) = _
      rw [List.isEmpty_map, items, List.isEmpty_map]
      rfl
    rw [hanswer, hanswer']
    exact .answer (s := { s with streams := S }) ⟨helse'.trans helse, hleft⟩ trivial
  refine Paired.inSection ?_ (fun _ _ => w.outside_of_fresh) m.name
  dsimp only
  rw [lookup_put, h, Option.map_some, put, Value.materialise_self]
  refine holds.bind (fun _ _ => w.outside_of_fresh) fun holds _ => ?_
  have admits : ∀ found ∈ some (Value.stream w.id), Stage.outside.Admits found :=
    fun _ _ => trivial
  have behind := B.tested m inverted muted (v := v) trivial admits holds
  rw [Option.map_some, put, Value.materialise_self] at behind
  exact behind.pre fun _ _ => w.outside_of_fresh

/-! ### Included templates -/

omit [Sink σ] in
theorem inTemplate (B : w.Bodies g b c) (resolved : String) (r : Reader) (muted : Bool) {v : Value}
    (hv : g.Admits v) :
    Paired (w.link g) (w.link g) Any (Body.inTemplate b resolved r muted v)
      (Body.inTemplate c resolved r muted (w.put v)) := by
  intro s T hP
  have inner := B muted v hv (s.enter resolved r) T hP
  rw [inTemplate_apply, inTemplate_apply,
    show ({ s with streams := T } : State σ).enter resolved r =
      { s.enter resolved r with streams := T } from rfl]
  generalize b muted v (s.enter resolved r) = x at inner
  generalize c muted (w.put v) { s.enter resolved r with streams := T } = y at inner
  cases inner with
  | gaveUp => exact .gaveUp
  | failure h => exact .failure h
  | @answer _ s' T' h _ => exact .answer (s := s.leave s') h trivial

omit [Sink σ] in
theorem included (B : w.Bodies g b c) (job : Job) (name : String) (muted : Bool) {v : Value}
    (hv : g.Admits v) :
    Paired (w.link g) (w.link g) Any (Body.included b reopen job name muted v)
      (Body.included c reopen job name muted (w.put v)) := by
  have enter : Paired (w.link g) (w.link g) Any (Body.entering b reopen job name muted v)
      (Body.entering c reopen job name muted (w.put v)) := by
    unfold Body.entering
    simp only [Run.unheard_bind]
    refine (Paired.of_aloof (.takeReader name)).andThen fun kept _ => Paired.look fun s T _ => ?_
    dsimp only
    split
    · exact .of_aloof (.fail _)
    · refine (Paired.of_aloof (.reopen _ kept)).andThen fun r _ => ?_
      exact (B.inTemplate _ r muted hv).andThen fun r _ => .of_aloof (.keepReader name r)
  rw [Body.included, Body.included, Run.unheard_bind, Run.unheard_bind]
  refine Paired.look fun s T _ => ?_
  dsimp only
  cases s.scopes with
  | nil => exact enter
  | cons scope _ =>
    cases scope with
    | discarding => exact .of_aloof (.pure ())
    | caching _ => exact enter

/-! ### Markers -/

/-- A marker that does not refer to the cursor as a section. -/
theorem obey (B : w.Bodies g b c) (job : Job) (muted : Bool) {v : Value} (hv : g.Admits v)
    {m : Marker} (hm : m.refersTo w.id v = false) :
    Paired (w.link g) (w.link g) Any (Body.obey b reopen job muted v m)
      (Body.obey c reopen job muted (w.put v) m) := by
  have nothing_behind {x y : Run σ Unit} (h : Paired (w.link g) (w.link g) Any x y) :
      Paired (w.link g) (w.link g) Any (x >>= fun _ => pure (none : Option Exit))
        (y >>= fun _ => pure none) := h.andThen fun _ _ => .of_aloof (.pure none)
  have plain (h : (v.lookup (pathOf m.name)).any (Value.isStream w.id) = false) :
      ∀ found ∈ v.lookup (pathOf m.name), found.isStream w.id = false := by
    intro found hfound
    rwa [hfound] at h
  unfold Marker.refersTo at hm
  unfold Body.obey
  cases hk : m.kind with
  | comment => exact .of_aloof (.pure none)
  | «variable» =>
    refine nothing_behind ?_
    unfold Body.substitute
    rw [resolve_put]
    refine (Paired.of_aloof (.resolve job v m.name)).andThen fun found _ => ?_
    cases found with
    | none => exact .of_aloof (.pure ())
    | some value => exact .emit muted _
  | repeating =>
    rw [hk] at hm
    exact nothing_behind (B.repeating m muted hv (plain hm))
  | conditional =>
    rw [hk] at hm
    exact nothing_behind (B.conditional m false muted hv (plain hm))
  | inverted =>
    rw [hk] at hm
    exact nothing_behind (B.conditional m true muted hv (plain hm))
  | «include» => exact nothing_behind (B.included job m.name muted hv)
  | sectionEnd =>
    exact (Paired.of_aloof (.sectionEnd m.name)).andThen fun exit _ => .of_aloof (.pure (some exit))

/-- A section over the cursor, or one that tests it. -/
theorem obey_source (B : ∀ g, w.Bodies g b c) (job : Job) (muted : Bool) {v : Value} {m : Marker}
    (hm : m.refersTo w.id v = true) :
    Paired w.Fresh w.Outside Any (Body.obey b reopen job muted v m)
      (Body.obey c reopen job muted (w.put v) m) := by
  have nothing_behind {x y : Run σ Unit} (h : Paired w.Fresh w.Outside Any x y) :
      Paired w.Fresh w.Outside Any (x >>= fun _ => pure (none : Option Exit))
        (y >>= fun _ => pure none) :=
    h.bind (fun _ _ h => h) fun _ _ => .of_aloof (.pure none)
  have source (h : (v.lookup (pathOf m.name)).any (Value.isStream w.id) = true) :
      v.lookup (pathOf m.name) = some (.stream w.id) := by
    cases hfound : v.lookup (pathOf m.name) with
    | none => rw [hfound] at h; cases h
    | some found =>
      rw [hfound] at h
      cases found with
      | stream n => rw [of_decide_eq_true h]
      | _ => cases h
  unfold Marker.refersTo at hm
  unfold Body.obey
  cases hk : m.kind with
  | repeating =>
    rw [hk] at hm
    exact nothing_behind (repeating_source B m muted (source hm))
  | conditional =>
    rw [hk] at hm
    exact nothing_behind (conditional_source (B .outside) m false muted (source hm))
  | inverted =>
    rw [hk] at hm
    exact nothing_behind (conditional_source (B .outside) m true muted (source hm))
  | _ =>
    rw [hk] at hm
    cases hm

omit [Sink σ] in
/-- What follows a marker. -/
theorem goesOn (B : w.Bodies g b c) (muted : Bool) {v : Value} (hv : g.Admits v)
    (exit : Option Exit) :
    Paired (w.link g) (w.link g) Any (goOn b muted v exit)
      (goOn c muted (w.put v) exit) := by
  cases exit with
  | some exit => exact .of_aloof (.pure exit)
  | none => exact B muted v hv

omit [Sink σ] in
/-- No sequence stands where only values of rows are met. -/
theorem outside_of_refersTo {m : Marker} {v : Value} (hv : g.Admits v)
    (hm : m.refersTo w.id v = true) : g = .outside := by
  cases g with
  | outside => rfl
  | inside =>
    have hplain : (v.lookup (pathOf m.name)).any (Value.isStream w.id) = false := by
      cases hfound : v.lookup (pathOf m.name) with
      | none => rfl
      | some found =>
        have hmulti := Value.isMultiPass_of_lookup _ hv hfound
        cases found with
        | stream n => rw [Value.isMultiPass] at hmulti; cases hmulti
        | _ => rfl
    unfold Marker.refersTo at hm
    rw [hplain] at hm
    split at hm <;> cases hm

/-- **One more marker**, unless it refers to the cursor when that has been closed. -/
theorem step (B : ∀ g, w.Bodies g b c) (job : Job) (muted : Bool) {v : Value} (hv : g.Admits v)
    {s : State σ} {T : Streams} (hlink : w.link g s.streams T)
    (hagain : refersAgain w.id muted v s = false) :
    Linked (w.link g) Any (Body.step b reopen job muted v s)
      (Body.step c reopen job muted (w.put v) { s with streams := T }) := by
  have text := Paired.copies.copyText muted (s.reader.charsLeft + 1) s T hlink
  unfold refersAgain at hagain
  rw [step_apply, step_apply]
  dsimp only
  generalize Run.copyText muted (s.reader.charsLeft + 1) s = x at text hagain
  generalize Run.copyText muted (s.reader.charsLeft + 1) { s with streams := T } = y at text
  cases text with
  | gaveUp => exact .gaveUp
  | failure h => exact .failure h
  | @answer found s' T' h _ =>
    cases found with
    | none => exact .answer h trivial
    | some m =>
      dsimp only at hagain ⊢
      by_cases hm : m.refersTo w.id v = true
      · obtain rfl := outside_of_refersTo hv hm
        rw [hm, Bool.true_and] at hagain
        have hfresh : w.Fresh s'.streams T' := by
          obtain ⟨helse, hrows | hclosed⟩ := h
          · exact ⟨helse, hrows⟩
          · rw [hagain] at hclosed
            cases hclosed
        exact (obey_source B job muted hm).bind (fun _ _ h => h)
          (fun exit _ => (B .outside).goesOn muted hv exit) s' T' hfresh
      · have hplain : m.refersTo w.id v = false := Bool.eq_false_iff.mpr hm
        exact ((B g).obey job muted hv hplain).andThen
          (fun exit _ => (B g).goesOn muted hv exit) s' T' h

/-- Bodies go together, by induction on the fuel. -/
theorem write (w : Table) (job : Job) (n : Nat) :
    ∀ g, w.Bodies g (writeOnce w.id job n : Bool → Value → Run σ Exit) (Body.write job n) := by
  induction n with
  | zero => exact fun _ _ _ _ _ _ _ => .gaveUp
  | succ n ih =>
    intro g muted v hv s T hlink
    rw [writeOnce_apply]
    by_cases hagain : refersAgain w.id muted v s = true
    · rw [if_pos hagain]
      exact .gaveUp
    · rw [if_neg hagain, Body.write]
      exact step ih job muted hv hlink (Bool.eq_false_iff.mpr hagain)

end Bodies

end Table

/-! ## Whole renders -/

namespace Template

variable [Sink σ]

/-- What happens behind the opening of a template. -/
theorem paired_behindOpening (w : Table) (job : Job) (v : Value) (fuel : Nat) :
    Paired w.Outside w.Outside Any (behindOpening (writeOnce w.id) job v fuel : Run σ Unit)
      (behindOpening Body.write job (w.put v) fuel) := by
  have body := Table.Bodies.write (σ := σ) w job fuel .outside false v trivial
  exact (body.inScope (fun _ _ h => h) _).discard.andThen fun _ _ => .checkSink false

/-- The template is opened alike. -/
theorem linked_writeDictionary (w : Table) (t : Template) (o : RenderOptions) (v : Value)
    {start : Rendered σ} {streams : Streams} (h : w.Outside start.streams streams) :
    Linked w.Outside Any (writeDictionary (writeOnce w.id) (t.job o) v (t.initial start))
      (writeDictionary Body.write (t.job o) (w.put v)
        (t.initial { start with streams := streams })) := by
  rw [writeDictionary_apply, writeDictionary_apply]
  dsimp only
  cases start.shelf.loader.openNamed t.name with
  | error e => exact .failure (s := t.initial start) h
  | ok source =>
    exact paired_behindOpening w (t.job o) v (fuelFor start.shelf.loader) (t.started start source)
      streams h

/-- **A cursor renders like the list of its rows.**  Let a cursor without failures stand in a value
for one of its sequences, and put the list of its rows in its place.  The result is the same, and so
is all that is written, as long as no section refers to the cursor behind the first repeating
section over it: a render that gives up at such a section does not give up. -/
theorem write_materialised {t : Template} {o : RenderOptions} {v : Value} {start : Rendered σ}
    {id : Nat} {c : Cursor} {resources : List Resource} {labels : List String} {rows : List Row}
    (hcursor : start.streams.streams[id]? = some (.rows (.ofCursor c resources)))
    (hgives : c.Gives labels rows) (hclosing : c.closing = .ok ())
    (hresources : ∀ r ∈ resources, r.closing = .ok ())
    (honce : (t.writeBy (Body.writeOnce id) o v start).1 ≠ .error .exhausted)
    {streams : Streams} (helse : start.streams.Elsewhere id streams) :
    let cursor := t.write o v start
    let list := t.write o (v.materialise id (rows.map .ofRow)) { start with streams := streams }
    cursor.1 = list.1 ∧ cursor.2.sink = list.2.sink ∧ cursor.2.shelf = list.2.shelf := by
  let w : Table := ⟨id, labels, rows⟩
  have hlink : w.Outside start.streams streams :=
    ⟨helse, .inl ⟨_, hcursor, RowStream.supplies_ofCursor hgives hclosing hresources⟩⟩
  -- the render that gives up is the render
  have hsame : t.writeBy (Body.writeOnce id) o v start = t.write o v start := by
    rcases writeBy_unless (fun fuel => unless_writeOnce id (t.job o) fuel) v start with
      ⟨e, he, rfl⟩ | heq
    · exact absurd he honce
    · exact heq
  dsimp only
  rw [← hsame]
  rw [writeBy_apply] at honce ⊢
  rw [write, writeBy_apply, Value.isNull_materialise]
  by_cases hnull : v.isNull
  · rw [if_pos hnull, if_pos hnull]
    exact ⟨rfl, rfl, rfl⟩
  · rw [if_neg hnull] at honce
    rw [if_neg hnull, if_neg hnull, Value.asDictionary_materialise]
    have linked := linked_writeDictionary w t o v.asDictionary hlink
    change Linked _ _ (writeDictionary (writeOnce id) _ _ _)
      (writeDictionary Body.write _ (v.asDictionary.materialise id (rows.map .ofRow)) _) at linked
    generalize writeDictionary (writeOnce id) (t.job o) v.asDictionary (t.initial start) = x
      at linked honce
    generalize writeDictionary Body.write (t.job o)
      (v.asDictionary.materialise id (rows.map .ofRow))
      (t.initial { start with streams := streams }) = y at linked
    cases linked with
    | gaveUp => exact absurd rfl honce
    | answer _ _ => exact ⟨rfl, rfl, rfl⟩
    | failure _ => exact ⟨rfl, rfl, rfl⟩

/-- Two tests in front of the section, which is over the source under its own name, with the rows
written by an included template.  One more test behind it would have been one too many. -/
theorem write_materialised_tests :
    let labels := ["id", "at.city"]
    let cells : List (List (Option Scalar)) :=
      [[some (.text "a"), none], [some (.text "b"), some (.text "x")]]
    let c := Cursor.ofRows labels cells
    let table := cells.map (Row.labelled labels)
    let t : Template := ⟨"page", "text/plain", none, none⟩
    let o : RenderOptions := ⟨⟨.default, 0⟩, none, []⟩
    let v : Value := .record [("rows", .stream 0)]
    let begun (text : String) : Rendered String := ⟨"", ⟨[.rows (.ofCursor c [])], []⟩,
      .ofLoader (.memory [("page", text), ("row", "{{id}}{{?at.city}} in {{.}}{{/at.city}}")])⟩
    let text := "{{^rows}}none{{/rows}}{{?rows}}[\x7b\x7b#.[; ]\x7d\x7d{{>row}}{{/.}}]{{/rows}}"
    let start := begun text
    (start.streams.streams[0]? = some (.rows (.ofCursor c [])) ∧ c.Gives labels table ∧
      c.closing = .ok () ∧ (∀ r ∈ ([] : List Resource), r.closing = .ok ()) ∧
      (t.writeBy (Body.writeOnce 0) o v start).1 ≠ .error .exhausted ∧
      start.streams.Elsewhere 0 ⟨[], []⟩) ∧
    (let cursor := t.write o v start
      let list := t.write o (v.materialise 0 (table.map .ofRow)) { start with streams := ⟨[], []⟩ }
      cursor.1 = list.1 ∧ cursor.2.sink = list.2.sink ∧ cursor.2.shelf = list.2.shelf) ∧
    (t.write o v start).1 = .ok () ∧ (t.write o v start).2.sink = "[a; b in x]" ∧
    (t.writeBy (Body.writeOnce 0) o v (begun (text ++ "{{?rows}}!{{/rows}}"))).1 =
      .error .exhausted := by
  intro labels cells c table t o v begun text start
  have hcursor : start.streams.streams[0]? = some (.rows (.ofCursor c [])) := rfl
  have hgives : c.Gives labels table := Cursor.gives_ofRows (by decide)
  have hresources : ∀ r ∈ ([] : List Resource), r.closing = .ok () := nofun
  have honce : (t.writeBy (Body.writeOnce 0) o v start).1 ≠ .error .exhausted := by decide +kernel
  have helse : start.streams.Elsewhere 0 ⟨[], []⟩ := by
    intro other hne
    obtain ⟨n, rfl⟩ := Nat.exists_eq_succ_of_ne_zero hne
    rfl
  have hsame := write_materialised hcursor hgives rfl hresources honce helse
  exact ⟨⟨hcursor, hgives, rfl, hresources, honce, helse⟩, hsame, by decide +kernel,
    by decide +kernel, by decide +kernel⟩

end Template

end Stencil
