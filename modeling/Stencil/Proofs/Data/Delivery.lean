import Stencil.Data.RowStream

/-!
# Every row once

However the rows of a stream are asked for, each of them is given once, in the order of the cursor.
Peeking moves the cursor, so that between two requests the stream may hold a row that nobody has
been given; the invariant `Serves` says that this row is the first of those that are left.

- `RowRequest`, `RowReply`, `RowStream.performAll`: what is asked of a stream, one request after the
  other, by callers that may hold several iterators over its elements;
- `RowRequest.replyFor`: the answer to a request in terms of the rows that are left;
- `Cursor.Gives`: what a cursor without failures gives;
- `RowStream.EachOnce`: the requests were answered from one list of rows, and the cursor was at most
  one row ahead;
- `RowStream.givesEachOnce`: **a stream over a cursor without failures gives each row once**.
-/

namespace Stencil

/-! ## Requests -/

/-- What a caller asks of a stream.  The iterators over its elements hold nothing of their own, so
that only a number tells them apart. -/
inductive RowRequest where
  | hasNext
  | isEmpty
  | nextRow
  | next
  | element (iterator : Nat)
  deriving DecidableEq

/-- What a stream answers: to the questions for another row, to `nextRow`, and to the requests for a
row if there is one. -/
inductive RowReply where
  | truth (answer : Except DataError Bool)
  | row (answer : Except DataError Row)
  | next (answer : Except DataError (Option Row))

namespace RowRequest

/-- Whether a request asks for a row. -/
def pulls : RowRequest → Bool
  | .hasNext | .isEmpty => false
  | .nextRow | .next | .element _ => true

/-- The answer to a request when these rows are left. -/
def replyFor (left : List Row) : RowRequest → RowReply
  | .hasNext => .truth (.ok (!left.isEmpty))
  | .isEmpty => .truth (.ok left.isEmpty)
  | .nextRow => .row (match left with
    | [] => .error .exhausted
    | row :: _ => .ok row)
  | .next | .element _ => .next (.ok left.head?)

/-- The rows that are left behind a request. -/
def leaves (left : List Row) (q : RowRequest) : List Row := if q.pulls then left.tail else left

end RowRequest

/-- The row that a reply hands out. -/
def RowReply.handedOut : RowReply → Option Row
  | .row answer => answer.toOption
  | .next (.ok found) => found
  | _ => none

namespace RowStream

/-- Carries out a request. -/
def perform (s : RowStream) : RowRequest → RowReply × RowStream
  | .hasNext => (.truth s.hasNext.1, s.hasNext.2)
  | .isEmpty => (.truth (s.hasNext.1.map (!·)), s.hasNext.2)
  | .nextRow => (.row s.nextRow.1, s.nextRow.2)
  | .next | .element _ => (.next s.next.1, s.next.2)

/-- Carries out requests one after the other. -/
def performAll : RowStream → List RowRequest → List RowReply × RowStream
  | s, [] => ([], s)
  | s, q :: qs =>
    let (reply, s) := s.perform q
    let (replies, s) := performAll s qs
    (reply :: replies, s)

end RowStream

/-! ## Cursors without failures -/

/-- The row of cells under their labels. -/
def Row.labelled (labels : List String) (cells : List (Option Scalar)) : Row :=
  Row.ofPairs (labels.zip (cells.map (·.elim .null .scalar)))

/-- The steps of a cursor that give these rows: each is a row with an answer for every label. -/
inductive Move.Give (labels : List String) : List Move → List Row → Prop where
  | nil : Give labels [] []
  | cons {columns : List Column} {cells : List (Option Scalar)} {moves : List Move} {rows : List Row}
    (answers : columns.take labels.length = cells.map .ok) (full : cells.length = labels.length)
    (rest : Give labels moves rows) :
    Give labels (.row columns :: moves) (Row.labelled labels cells :: rows)

/-- A cursor that never fails: it tells its labels when it is first asked, and its steps give these
rows. -/
structure Cursor.Gives (c : Cursor) (labels : List String) (rows : List Row) : Prop where
  settled : c.labelFailures = []
  labelled : c.labels = .ok labels
  moves : Move.Give labels c.moves rows

theorem Cursor.gives_ofRows {labels : List String} {rows : List (List (Option Scalar))}
    (h : ∀ row ∈ rows, row.length = labels.length) :
    (Cursor.ofRows labels rows).Gives labels (rows.map (Row.labelled labels)) := by
  refine ⟨rfl, rfl, ?_⟩
  show Move.Give labels (rows.map fun row => .row (row.map .ok)) _
  induction rows with
  | nil => exact .nil
  | cons row rows ih =>
    have hrow := h row (List.mem_cons_self ..)
    refine .cons ?_ hrow (ih fun r hr => h r (List.mem_cons_of_mem _ hr))
    rw [← hrow, List.take_of_length_le (Nat.le_of_eq (List.length_map ..))]

namespace RowStream

/-! ## Reading a row -/

/-- How often the cursor has been advanced. -/
def advances (s : RowStream) : Nat := s.calls.count .advance

theorem advances_note (call : Call) (h : call ≠ .advance) (s : RowStream) :
    (s.note call).advances = s.advances := List.count_cons_of_ne h

theorem advances_note_advance (s : RowStream) : (s.note .advance).advances = s.advances + 1 :=
  List.count_cons_self

/-- Columns with an answer are read into the row under their labels, and nothing but the note of the
calls changes.  The induction is on the labels that are left. -/
theorem readColumns_labelled (labels : List String) :
    ∀ {cells : List (Option Scalar)} (index : Nat) (row : Row) (s : RowStream),
      (s.cursor.columns.drop index).take labels.length = cells.map .ok →
        cells.length = labels.length →
          ∃ calls, readColumns labels index row s =
            (.ok ((labels.zip (cells.map (·.elim .null .scalar))).foldl
              (fun row (label, cell) => row.insertPath label cell) row), { s with calls := calls }) ∧
            calls.count .advance = s.advances := by
  induction labels with
  | nil =>
    intro cells index row s _ _
    exact ⟨s.calls, rfl, rfl⟩
  | cons label labels ih =>
    intro cells index row s hcolumns hlen
    obtain ⟨cell, cells, rfl⟩ := List.exists_cons_of_length_eq_add_one hlen
    -- the column at the index is the first of those that are left
    cases hdrop : s.cursor.columns.drop index with
    | nil =>
      rw [hdrop] at hcolumns
      cases hcolumns
    | cons column columns =>
      rw [hdrop, List.length_cons, List.take_succ_cons, List.map_cons] at hcolumns
      obtain ⟨rfl, htail⟩ := List.cons.inj hcolumns
      have hcolumn : s.cursor.column index = .ok cell := by
        rw [Cursor.column, ← List.head?_drop, hdrop]
        rfl
      have hrest : ((s.note (.value index)).cursor.columns.drop (index + 1)).take labels.length =
          cells.map .ok := by
        show (s.cursor.columns.drop (index + 1)).take labels.length = _
        rw [← List.tail_drop, hdrop]
        exact htail
      obtain ⟨calls, hread, hcount⟩ := ih (index + 1)
        (row.insertPath label (cell.elim .null .scalar)) (s.note (.value index)) hrest (Nat.succ.inj hlen)
      refine ⟨calls, ?_, hcount.trans (advances_note (.value index) nofun s)⟩
      rw [readColumns, hcolumn]
      exact hread

/-- The row that the cursor stands on is read, and the labels are known then. -/
theorem readRow_labelled {labels : List String} {cells : List (Option Scalar)} {s : RowStream}
    (hsettled : s.cursor.labelFailures = []) (hlabelled : s.cursor.labels = .ok labels)
    (hknown : s.labels = none ∨ s.labels = some labels)
    (hcolumns : s.cursor.columns.take labels.length = cells.map .ok)
    (hlen : cells.length = labels.length) :
    ∃ calls, s.readRow = (.ok (some (Row.labelled labels cells)),
        { s with labels := some labels, calls := calls }) ∧
      calls.count .advance = s.advances := by
  have known : ∃ calls, s.knownLabels = (.ok labels, { s with labels := some labels, calls := calls }) ∧
      calls.count .advance = s.advances := by
    unfold knownLabels
    rcases hknown with h | h
    · rw [h, Cursor.askLabels, hsettled, hlabelled]
      exact ⟨.labels :: s.calls, rfl, advances_note .labels nofun s⟩
    · rw [h]
      refine ⟨s.calls, ?_, rfl⟩
      show (Except.ok labels, s) = (Except.ok labels, { s with labels := some labels })
      rw [← h]
  obtain ⟨calls, hk, hcount⟩ := known
  obtain ⟨calls', hread, hcount'⟩ := readColumns_labelled labels 0 []
    { s with labels := some labels, calls := calls } hcolumns hlen
  refine ⟨calls', ?_, hcount'.trans hcount⟩
  unfold readRow
  rw [hk]
  dsimp only
  rw [hread]
  rfl

/-! ## The rows that are left -/

/-- The invariant of a stream over a cursor without failures: these rows are left, and `given` many
have been handed out.  A row that has been read ahead is the first of those that are left, and the
cursor gives the others.  It has been advanced for each row that it has given, and once more when it
has told its end. -/
structure Serves (labels : List String) (left : List Row) (given : Nat) (s : RowStream) : Prop where
  idle : s.lent = false
  settled : s.cursor.labelFailures = []
  labelled : s.cursor.labels = .ok labels
  known : s.labels = none ∨ s.labels = some labels
  waiting : ∃ unread, left = s.pending.toList ++ unread ∧ Move.Give labels s.cursor.moves unread
  ended : s.exhausted = true → left = []
  advances : s.advances =
    given + s.pending.toList.length + s.exhausted.toNat

variable {labels : List String} {left : List Row} {given : Nat} {s : RowStream}

theorem serves_ofCursor {c : Cursor} {rows : List Row} (h : c.Gives labels rows)
    (resources : List Resource) : Serves labels rows 0 (ofCursor c resources) :=
  ⟨rfl, h.settled, h.labelled, .inl rfl, ⟨rows, rfl, h.moves⟩, nofun, rfl⟩

/-- The cursor is at most one row ahead. -/
theorem Serves.advances_le (h : Serves labels left given s) :
    s.advances ≤ given + 1 ∧ s.advances ≤ given + left.length + 1 := by
  obtain ⟨unread, hleft, -⟩ := h.waiting
  have hlen : left.length = s.pending.toList.length + unread.length := by
    rw [hleft, List.length_append]
  have hahead : s.pending.toList.length ≤ 1 := by cases s.pending <;> simp
  rw [h.advances]
  cases he : s.exhausted with
  | false => simp only [Bool.toNat_false]; omega
  | true =>
    -- at the end no row is left, so that none has been read ahead
    rw [h.ended he, List.length_nil] at hlen
    simp only [Bool.toNat_true]
    omega

/-- **One row**: fetching takes the first of the rows that are left, if there is one, and comes to
the end only when there is none. -/
theorem Serves.fetch (h : Serves labels left given s) :
    ∃ s', s.fetch = (.ok left.head?, s') ∧ s'.pending = none ∧ (s'.exhausted = true → left = []) ∧
      Serves labels left.tail (given + left.head?.toList.length) s' := by
  obtain ⟨unread, hleft, hmoves⟩ := h.waiting
  have hcount := h.advances
  unfold RowStream.fetch
  cases hp : s.pending with
  | some row =>
    -- the row has been read ahead
    rw [hp] at hleft hcount
    obtain rfl : left = row :: unread := hleft
    refine ⟨{ s with pending := none }, rfl, rfl, h.ended, h.idle, h.settled, h.labelled, h.known,
      ⟨unread, rfl, hmoves⟩,
      fun he => ?_, ?_⟩
    · exact absurd (h.ended he) (List.cons_ne_nil _ _)
    · exact hcount
  | none =>
    rw [hp] at hleft hcount
    obtain rfl : left = unread := hleft
    dsimp only
    by_cases he : s.exhausted = true
    · -- the end has been reached
      rw [if_pos he, h.ended he]
      refine ⟨s, rfl, hp, fun _ => rfl, h.idle, h.settled, h.labelled, h.known, ⟨[], ?_, ?_⟩,
        fun _ => rfl, ?_⟩
      · rw [hp]
        rfl
      · exact h.ended he ▸ hmoves
      · exact h.advances
    · rw [if_neg he]
      have hnoted : (s.note .advance).advances = given + 1 := by
        rw [advances_note_advance, hcount, Bool.eq_false_iff.mpr he]
        rfl
      unfold Cursor.advance
      generalize hm : s.cursor.moves = moves at hmoves
      cases hmoves with
      | nil =>
        -- the cursor tells its end
        refine ⟨_, rfl, hp, fun _ => rfl, h.idle, h.settled, h.labelled, h.known, ⟨[], ?_, .nil⟩,
          fun _ => rfl, ?_⟩
        · show [] = s.pending.toList ++ []
          rw [hp]
          rfl
        · show (s.note .advance).advances = given + s.pending.toList.length + 1
          rw [hnoted, hp]
          rfl
      | @cons columns cells moves rows answers full rest =>
        -- the cursor moves to a row, which is read
        dsimp only
        obtain ⟨calls, hread, hadv⟩ := readRow_labelled (s := { s.note .advance with
          cursor := { s.cursor with moves := moves, columns := columns } })
          h.settled h.labelled h.known answers full
        rw [hread]
        have going {p : Prop} (hended : s.exhausted = true) : p := absurd hended he
        refine ⟨_, rfl, hp, going, h.idle, h.settled, h.labelled, .inr rfl, ⟨rows, ?_, rest⟩,
          going, ?_⟩
        · show rows = s.pending.toList ++ rows
          rw [hp]
          rfl
        · show calls.count .advance = given + 1 + s.pending.toList.length + s.exhausted.toNat
          rw [hadv, hp, Bool.eq_false_iff.mpr he]
          exact hnoted

/-- Peeking takes nothing: a row that is read ahead stays the first of those that are left. -/
theorem Serves.peek (h : Serves labels left given s) :
    ∃ s', s.peek = (.ok (!left.isEmpty), s') ∧ Serves labels left given s' := by
  unfold RowStream.peek
  cases hp : s.pending with
  | some row =>
    obtain ⟨unread, hleft, -⟩ := h.waiting
    rw [hp] at hleft
    refine ⟨s, ?_, h⟩
    rw [hleft]
    rfl
  | none =>
    obtain ⟨s', hfetch, hp', hlast, h'⟩ := h.fetch
    obtain ⟨unread, hleft, hmoves⟩ := h'.waiting
    have hcount := h'.advances
    dsimp only
    rw [hfetch]
    rw [hp'] at hleft hcount
    cases left with
    | nil =>
      refine ⟨{ s' with pending := none }, rfl, h'.idle, h'.settled, h'.labelled, h'.known,
        ⟨unread, hleft, hmoves⟩, fun _ => rfl, hcount⟩
    | cons row rest =>
      -- the row goes back in front of the others
      exact ⟨{ s' with pending := some row }, rfl, h'.idle, h'.settled, h'.labelled, h'.known,
        ⟨unread, congrArg (row :: ·) hleft, hmoves⟩, hlast, hcount⟩

/-! ## Requests -/

theorem handedOut_replyFor (left : List Row) (q : RowRequest) :
    (q.replyFor left).handedOut = if q.pulls then left.head? else none := by
  cases q <;> cases left <;> rfl

/-- **One request** is answered from the rows that are left. -/
theorem Serves.perform (h : Serves labels left given s) (q : RowRequest) :
    ∃ s', s.perform q = (q.replyFor left, s') ∧
      Serves labels (q.leaves left) (given + (q.replyFor left).handedOut.toList.length) s' := by
  -- a stream whose cursor is not at work takes every request
  have direct {α : Type} (request : RowStream → Except DataError α × RowStream) :
      s.unlessLent request = request s := if_neg (by rw [h.idle]; exact Bool.false_ne_true)
  obtain ⟨s₁, hpeek, h₁⟩ := h.peek
  obtain ⟨s₂, hfetch, -, -, h₂⟩ := h.fetch
  rw [handedOut_replyFor]
  cases q with
  | hasNext =>
    refine ⟨s₁, ?_, h₁⟩
    rw [RowStream.perform, hasNext, direct, hpeek]
    rfl
  | isEmpty =>
    refine ⟨s₁, ?_, h₁⟩
    rw [RowStream.perform, hasNext, direct, hpeek]
    cases left <;> rfl
  | nextRow =>
    refine ⟨s₂, ?_, h₂⟩
    rw [RowStream.perform, nextRow, next, direct, hfetch]
    cases left <;> rfl
  | next =>
    refine ⟨s₂, ?_, h₂⟩
    rw [RowStream.perform, next, direct, hfetch]
    rfl
  | element iterator =>
    refine ⟨s₂, ?_, h₂⟩
    rw [RowStream.perform, next, direct, hfetch]
    rfl

/-- The rows that replies hand out, together. -/
def handedOut (replies : List RowReply) : List Row := replies.filterMap RowReply.handedOut

/-- The replies to requests one after the other, and the rows that are left behind them; by
induction on the requests. -/
theorem Serves.performAll (qs : List RowRequest) :
    ∀ {left : List Row} {given : Nat} {s : RowStream}, Serves labels left given s →
      handedOut (s.performAll qs).1 = left.take (qs.countP RowRequest.pulls) ∧
      (∀ before q after, qs = before ++ q :: after →
        (s.performAll qs).1[before.length]? =
          some (q.replyFor (left.drop (before.countP RowRequest.pulls)))) ∧
      Serves labels (left.drop (qs.countP RowRequest.pulls))
        (given + (handedOut (s.performAll qs).1).length) (s.performAll qs).2 := by
  induction qs with
  | nil =>
    intro left given s h
    exact ⟨rfl, fun before q after heq => absurd heq (by simp), h⟩
  | cons q qs ih =>
    intro left given s h
    obtain ⟨s', hperform, h'⟩ := h.perform q
    obtain ⟨hrows, hreplies, hend⟩ := ih h'
    have hrun : s.performAll (q :: qs) =
        (q.replyFor left :: (s'.performAll qs).1, (s'.performAll qs).2) := by
      rw [RowStream.performAll, hperform]
    have hgiven : handedOut (s.performAll (q :: qs)).1 =
        (q.replyFor left).handedOut.toList ++ handedOut (s'.performAll qs).1 := by
      rw [hrun, handedOut, List.filterMap_cons]
      cases (q.replyFor left).handedOut <;> rfl
    have hdrop (pulled : Nat) :
        (q.leaves left).drop pulled = left.drop (pulled + if q.pulls then 1 else 0) := by
      unfold RowRequest.leaves
      cases q.pulls with
      | false => rfl
      | true => exact List.drop_tail ..
    refine ⟨?_, ?_, ?_⟩
    · -- the first row, if the request takes one, and those of the later requests
      rw [hgiven, hrows, List.countP_cons, handedOut_replyFor]
      unfold RowRequest.leaves
      cases q.pulls with
      | false => rfl
      | true => cases left <;> simp
    · intro before q' after heq
      rw [hrun]
      cases before with
      | nil =>
        obtain ⟨rfl, -⟩ := List.cons.inj heq
        rfl
      | cons first before =>
        obtain ⟨rfl, hrest⟩ := List.cons.inj heq
        rw [List.countP_cons, ← hdrop]
        exact hreplies before q' after hrest
    · rw [hdrop, ← List.countP_cons] at hend
      rw [hgiven, List.length_append, ← Nat.add_assoc, hrun]
      exact hend

/-- Requests that have been answered from a list of rows, each row once, over a cursor that has not
run ahead. -/
structure EachOnce (table : List Row) (requests : List RowRequest) (replies : List RowReply)
    (s : RowStream) : Prop where
  /-- The rows that have been handed out, taken together, are the first ones in their order, one for
  each request for a row as long as there are any. -/
  given : handedOut replies = table.take (requests.countP RowRequest.pulls)
  /-- A request is answered from the rows that no earlier request has been given. -/
  answered : ∀ before q after, requests = before ++ q :: after →
    replies[before.length]? = some (q.replyFor (table.drop (before.countP RowRequest.pulls)))
  /-- The cursor is at most one row ahead of those that have been handed out. -/
  ahead : s.advances ≤ (handedOut replies).length + 1
  /-- It is advanced once for each row and once to find its end, and never behind that. -/
  ended : s.advances ≤ table.length + 1

/-- **A stream over a cursor without failures gives each row once**, in order, whatever is asked in
between and through however many iterators. -/
theorem givesEachOnce {c : Cursor} {labels : List String} {rows : List Row} (h : c.Gives labels rows)
    (resources : List Resource) (requests : List RowRequest) :
    EachOnce rows requests ((ofCursor c resources).performAll requests).1
      ((ofCursor c resources).performAll requests).2 := by
  obtain ⟨hrows, hreplies, hend⟩ := (serves_ofCursor h resources).performAll requests
  obtain ⟨hahead, hended⟩ := hend.advances_le
  rw [Nat.zero_add] at hahead hended
  refine ⟨hrows, hreplies, hahead, ?_⟩
  -- what has been handed out and what is left are all rows
  rw [hrows, List.length_take, List.length_drop] at hended
  omega

/-- Two iterators that take turns, with questions for another row in front of a row and at the
end. -/
theorem givesEachOnce_interleaved :
    let labels := ["id", "at.city"]
    let cells : List (List (Option Scalar)) :=
      [[some (.text "a"), none], [some (.text "b"), some (.text "x")]]
    let c := Cursor.ofRows labels cells
    let table := cells.map (Row.labelled labels)
    let requests : List RowRequest :=
      [.hasNext, .element 0, .hasNext, .hasNext, .element 1, .isEmpty, .element 0, .nextRow]
    let run := (ofCursor c []).performAll requests
    c.Gives labels table ∧ EachOnce table requests run.1 run.2 ∧
      (handedOut run.1).length = 2 ∧ run.2.advances = 3 := by
  intro labels cells c table requests run
  have hgives : c.Gives labels table := Cursor.gives_ofRows (by decide)
  exact ⟨hgives, givesEachOnce hgives [] requests, by decide +kernel, by decide +kernel⟩

end RowStream

end Stencil
