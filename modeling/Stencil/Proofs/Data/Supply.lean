import Stencil.Data.Streams
import Stencil.Proofs.Data.Delivery

/-!
# Cursors among the sequences of a render

A render asks for rows by the number of their sequence, and every call that reaches the cursor is
noted once for all sequences.  Neither can be seen in the rows: a cursor without failures gives them
as it would alone, and a request to one sequence leaves all others as they were.

- `RowStream.dress`: what stands behind the rows of a stream, and cannot be seen in them;
- `RowStream.Supplies`, `Streams.Supplies`: these rows are left, and closing will not fail;
- `Streams.Supplies.next`, `Streams.Supplies.hasNext`, `Streams.Supplies.close`: **the requests of a
  render** are answered from the rows that are left;
- `Streams.Elsewhere`: all but one sequence are the same; no request to that one changes this.
-/

namespace Stencil

namespace RowStream

/-! ## What cannot be seen in the rows -/

/-- The stream with other noted calls, and another end: whether it is closed, and what closing will
give. -/
def dress (closed : Bool) (closing : Except DataError Unit) (resources : List Resource)
    (calls : List Call) (s : RowStream) : RowStream :=
  { s with
    cursor := { s.cursor with closing := closing }
    closed := closed
    resources := resources
    calls := calls }

section

variable (closed : Bool) (closing : Except DataError Unit) (resources : List Resource)

theorem knownLabels_dress (calls : List Call) (s : RowStream) :
    ∃ calls', (s.dress closed closing resources calls).knownLabels =
      (s.knownLabels.1, s.knownLabels.2.dress closed closing resources calls') := by
  obtain ⟨cursor, labels, pending, exhausted, _, lent, _, _⟩ := s
  cases labels with
  | some labels => exact ⟨calls, rfl⟩
  | none =>
    obtain ⟨moves, columns, labelFailures, labels, _⟩ := cursor
    refine ⟨.labels :: calls, ?_⟩
    cases labelFailures with
    | cons e rest => rfl
    | nil => cases labels <;> rfl

/-- The columns are read one by one, each with a noted call. -/
theorem readColumns_dress (labels : List String) :
    ∀ (index : Nat) (row : Row) (calls : List Call) (s : RowStream),
      ∃ calls', readColumns labels index row (s.dress closed closing resources calls) =
        ((readColumns labels index row s).1,
          (readColumns labels index row s).2.dress closed closing resources calls') := by
  induction labels with
  | nil => exact fun _ _ calls _ => ⟨calls, rfl⟩
  | cons label labels ih =>
    intro index row calls s
    have hcolumn : (s.dress closed closing resources calls).cursor.column index =
        s.cursor.column index := rfl
    rw [readColumns, readColumns, hcolumn]
    cases s.cursor.column index with
    | error e => exact ⟨_, rfl⟩
    | ok value => exact ih (index + 1) _ (.value index :: calls) (s.note (.value index))

theorem readRow_dress (calls : List Call) (s : RowStream) :
    ∃ calls', (s.dress closed closing resources calls).readRow =
      (s.readRow.1, s.readRow.2.dress closed closing resources calls') := by
  obtain ⟨calls₁, hknown⟩ := knownLabels_dress closed closing resources calls s
  unfold readRow
  rw [hknown]
  obtain ⟨answer, s₁⟩ := s.knownLabels
  cases answer with
  | error e => exact ⟨calls₁, rfl⟩
  | ok labels =>
    obtain ⟨calls₂, hread⟩ := readColumns_dress closed closing resources labels 0 [] calls₁ s₁
    dsimp only
    rw [hread]
    obtain ⟨row, s₂⟩ := readColumns labels 0 [] s₁
    cases row <;> exact ⟨calls₂, rfl⟩

/-- A row is fetched alike, whatever its stream ends with. -/
theorem fetch_dress (calls : List Call) (s : RowStream) :
    ∃ calls', (s.dress closed closing resources calls).fetch =
      (s.fetch.1, s.fetch.2.dress closed closing resources calls') := by
  obtain ⟨cursor, labels, pending, exhausted, closed', lent, resources', calls'⟩ := s
  cases pending with
  | some row => exact ⟨calls, rfl⟩
  | none =>
    cases exhausted with
    | true => exact ⟨calls, rfl⟩
    | false =>
      obtain ⟨moves, columns, labelFailures, known, closing'⟩ := cursor
      cases moves with
      | nil => exact ⟨.advance :: calls, rfl⟩
      | cons move rest =>
        cases move with
        | failure e => exact ⟨.advance :: calls, rfl⟩
        | row columns =>
          exact readRow_dress closed closing resources (.advance :: calls)
            ⟨⟨rest, columns, labelFailures, known, closing'⟩, labels, none, false, closed', lent,
              resources', .advance :: calls'⟩

theorem peek_dress (calls : List Call) (s : RowStream) :
    ∃ calls', (s.dress closed closing resources calls).peek =
      (s.peek.1, s.peek.2.dress closed closing resources calls') := by
  obtain ⟨calls₁, hfetch⟩ := fetch_dress closed closing resources calls s
  unfold peek
  rw [hfetch, show (s.dress closed closing resources calls).pending = s.pending from rfl]
  cases s.pending with
  | some row => exact ⟨calls, rfl⟩
  | none =>
    dsimp only
    obtain ⟨answer, s₁⟩ := s.fetch
    cases answer <;> exact ⟨calls₁, rfl⟩

end

/-! ## Rows to come -/

/-- These rows are left of a stream over a cursor without failures, whatever calls have been noted;
it is not closed, and closing it will not fail. -/
structure Supplies (labels : List String) (left : List Row) (s : RowStream) : Prop where
  serves : ∃ given calls, Serves labels left given { s with calls := calls }
  closed : s.closed = false
  closing : s.cursor.closing = .ok ()
  resources : ∀ r ∈ s.resources, r.closing = .ok ()

theorem supplies_ofCursor {c : Cursor} {labels : List String} {rows : List Row}
    {resources : List Resource} (h : c.Gives labels rows) (hc : c.closing = .ok ())
    (hr : ∀ r ∈ resources, r.closing = .ok ()) : Supplies labels rows (ofCursor c resources) :=
  ⟨⟨0, [], serves_ofCursor h resources⟩, rfl, hc, hr⟩

namespace Supplies

variable {labels : List String} {left : List Row} {s : RowStream}

theorem withoutCalls (h : Supplies labels left s) : Supplies labels left { s with calls := [] } :=
  ⟨h.serves, h.closed, h.closing, h.resources⟩

/-- What has been known of a stream with other noted calls. -/
theorem of_dress {left' : List Row} {given : Nat} {s' : RowStream} (h : Supplies labels left s)
    (h' : Serves labels left' given s') (calls : List Call) :
    Supplies labels left' (s'.dress s.closed s.cursor.closing s.resources calls) :=
  ⟨⟨given, s'.calls, h'.idle, h'.settled, h'.labelled, h'.known, h'.waiting, h'.ended,
    h'.advances⟩, h.closed, h.closing, h.resources⟩

theorem idle (h : Supplies labels left s) : s.lent = false := by
  obtain ⟨_, _, hserves⟩ := h.serves
  exact hserves.idle

theorem next (h : Supplies labels left s) :
    ∃ s', s.next = (.ok left.head?, s') ∧ Supplies labels left.tail s' := by
  obtain ⟨given, calls, hserves⟩ := h.serves
  obtain ⟨s', hfetch, -, -, h'⟩ := hserves.fetch
  obtain ⟨calls', hdress⟩ := fetch_dress s.closed s.cursor.closing s.resources s.calls
    { s with calls := calls }
  rw [hfetch] at hdress
  refine ⟨_, ?_, h.of_dress h' calls'⟩
  rw [RowStream.next, unlessLent, h.idle, if_neg Bool.false_ne_true]
  exact hdress

theorem hasNext (h : Supplies labels left s) :
    ∃ s', s.hasNext = (.ok (!left.isEmpty), s') ∧ Supplies labels left s' := by
  obtain ⟨given, calls, hserves⟩ := h.serves
  obtain ⟨s', hpeek, h'⟩ := hserves.peek
  obtain ⟨calls', hdress⟩ := peek_dress s.closed s.cursor.closing s.resources s.calls
    { s with calls := calls }
  rw [hpeek] at hdress
  refine ⟨_, ?_, h.of_dress h' calls'⟩
  rw [RowStream.hasNext, unlessLent, h.idle, if_neg Bool.false_ne_true]
  exact hdress

/-- Closing does not fail when no stage fails. -/
theorem close (h : Supplies labels left s) :
    ∃ s', s.close = (.ok (), s') ∧ s'.closed = true ∧ s'.lent = false := by
  have resources_closed (rs : List Resource) (hr : ∀ r ∈ rs, r.closing = .ok ()) :
      ∀ (index : Nat) (calls : List Call), (closeResources rs index none calls).1 = none := by
    induction rs with
    | nil => exact fun _ _ => rfl
    | cons r rs ih =>
      intro index calls
      rw [closeResources, hr r (List.mem_cons_self ..)]
      exact ih (fun r hm => hr r (List.mem_cons_of_mem _ hm)) _ _
  have hfirst := resources_closed s.resources h.resources 0 (.closeCursor :: s.calls)
  unfold RowStream.close unlessLent
  rw [h.idle, if_neg Bool.false_ne_true, shut, h.closed, if_neg Bool.false_ne_true, h.closing]
  dsimp only
  generalize closeResources s.resources 0 none (.closeCursor :: s.calls) = x at hfirst
  obtain ⟨first, calls⟩ := x
  obtain rfl : first = none := hfirst
  exact ⟨_, rfl, rfl, h.idle⟩

end Supplies

end RowStream

/-! ## Among other sequences -/

namespace Streams

/-- All sequences but one are the same. -/
def Elsewhere (id : Nat) (s s' : Streams) : Prop :=
  ∀ other, other ≠ id → s.streams[other]? = s'.streams[other]?

/-- These rows are left of the sequence, which is not closed. -/
def Supplies (id : Nat) (labels : List String) (left : List Row) (s : Streams) : Prop :=
  ∃ rows, s.streams[id]? = some (.rows rows) ∧ rows.Supplies labels left

/-- The sequence has been closed. -/
def isClosed (id : Nat) (s : Streams) : Bool :=
  match s.streams[id]? with
  | some (.rows rows) => rows.closed
  | _ => false

variable {α : Type} {id : Nat} {s s' : Streams}

theorem Elsewhere.trans {s'' : Streams} (h : s.Elsewhere id s') (h' : s'.Elsewhere id s'') :
    s.Elsewhere id s'' := fun other hne => (h other hne).trans (h' other hne)

section

variable (absent : α) (send : Stream → Except DataError α × Stream)

/-- A request to a sequence that is there. -/
theorem request_apply {stream : Stream} (h : s.streams[id]? = some stream) :
    request absent send id s = ((send stream).1,
      ⟨s.streams.set id (send stream).2.withoutCalls,
        (send stream).2.calls.map (id, ·) ++ s.log⟩) := by
  rw [request, h]

/-- A request leaves all other sequences. -/
theorem elsewhere_request : (request absent send id s).2.Elsewhere id s := by
  intro other hne
  unfold request
  split
  · rfl
  · exact List.getElem?_set_ne (Ne.symm hne)

/-- A request to another sequence has the same answer wherever that one is the same, and leaves it
the same. -/
theorem Elsewhere.request {other : Nat} (h : s.Elsewhere id s') (hne : other ≠ id) :
    (Streams.request absent send other s).1 = (Streams.request absent send other s').1 ∧
      (Streams.request absent send other s).2.Elsewhere id
        (Streams.request absent send other s').2 ∧
      (Streams.request absent send other s).2.streams[id]? = s.streams[id]? := by
  have hentry := h other hne
  have hid : (Streams.request absent send other s).2.streams[id]? = s.streams[id]? :=
    elsewhere_request absent send id (Ne.symm hne)
  refine ⟨?_, fun j hj => ?_, hid⟩
  · unfold Streams.request
    rw [hentry]
    cases s'.streams[other]? <;> rfl
  · by_cases hother : j = other
    · subst hother
      unfold Streams.request
      rw [hentry]
      cases hs' : s'.streams[j]? with
      | none =>
        dsimp only
        rw [hentry]
      | some stream =>
        have hlt := (List.getElem?_eq_some_iff.mp (hentry.trans hs')).1
        have hlt' := (List.getElem?_eq_some_iff.mp hs').1
        dsimp only
        rw [List.getElem?_set_self hlt, List.getElem?_set_self hlt']
    · rw [elsewhere_request _ _ j hother, elsewhere_request _ _ j hother, h j hj]

end

namespace Supplies

variable {labels : List String} {left : List Row}

/-- What is left after a request that leaves a stream with these rows. -/
theorem of_set {left' : List Row} {rows rows' : RowStream} {log : List (Nat × Call)}
    (hrows : s.streams[id]? = some (.rows rows)) (h : rows'.Supplies labels left') :
    Supplies id labels left' ⟨s.streams.set id (Stream.rows rows').withoutCalls, log⟩ :=
  ⟨_, List.getElem?_set_self (List.getElem?_eq_some_iff.mp hrows).1, h.withoutCalls⟩

/-- **The next row** is the first of those that are left. -/
theorem next (h : s.Supplies id labels left) :
    ∃ s', s.next id = (.ok left.head?, s') ∧ s'.Supplies id labels left.tail ∧
      s'.Elsewhere id s := by
  obtain ⟨rows, hrows, hsupplies⟩ := h
  obtain ⟨rows', hnext, hleft⟩ := hsupplies.next
  have helse : (s.next id).2.Elsewhere id s := elsewhere_request none Stream.next
  have hrequest := request_apply none Stream.next hrows
  rw [Stream.next, hnext] at hrequest
  change s.next id = _ at hrequest
  rw [hrequest] at helse ⊢
  exact ⟨_, rfl, of_set hrows hleft, helse⟩

/-- **Asking for another row** takes none. -/
theorem hasNext (h : s.Supplies id labels left) :
    ∃ s', s.hasNext id = (.ok (!left.isEmpty), s') ∧ s'.Supplies id labels left ∧
      s'.Elsewhere id s := by
  obtain ⟨rows, hrows, hsupplies⟩ := h
  obtain ⟨rows', hnext, hleft⟩ := hsupplies.hasNext
  have helse : (s.hasNext id).2.Elsewhere id s := elsewhere_request false Stream.hasNext
  have hrequest := request_apply false Stream.hasNext hrows
  rw [Stream.hasNext, hnext] at hrequest
  change s.hasNext id = _ at hrequest
  rw [hrequest] at helse ⊢
  exact ⟨_, rfl, of_set hrows hleft, helse⟩

/-- **Closing** does not fail. -/
theorem close (h : s.Supplies id labels left) :
    ∃ s', s.close id = (.ok (), s') ∧ s'.isClosed id = true ∧ s'.Elsewhere id s := by
  obtain ⟨rows, hrows, hsupplies⟩ := h
  obtain ⟨rows', hclose, hclosed, -⟩ := hsupplies.close
  have helse : (s.close id).2.Elsewhere id s := elsewhere_request () Stream.close
  have hrequest := request_apply () Stream.close hrows
  rw [Stream.close, hclose] at hrequest
  change s.close id = _ at hrequest
  rw [hrequest] at helse ⊢
  refine ⟨_, rfl, ?_, helse⟩
  unfold isClosed
  rw [List.getElem?_set_self (List.getElem?_eq_some_iff.mp hrows).1]
  exact hclosed

end Supplies

end Streams

end Stencil
