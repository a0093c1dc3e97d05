import Stencil.Proofs.Data.Failing

/-!
# What a failure costs

A step forward of a cursor comes to a row, or to a failure: of the step itself, of the labels, or of
a column.  A stream tells what each step has come to once, and to whoever asks next.  A row that is
read ahead is kept for the next request, but a failure is not, and with it goes the row that the
cursor has already moved to: asking again moves the cursor on.

- `Landing`, `Cursor.landings`: what the steps of a cursor come to, one after the other;
- `RowRequest.answerFrom`, `RowRequest.leavesFrom`: the answer to a request in front of the landings
  that have not been told, and which of them it leaves;
- `RowStream.Tells`: the invariant, a row that is read ahead is the first landing that is left;
- `RowStream.tellsInTurn`: **every landing is told once, in the order of the cursor**, for every
  cursor and all requests;
- `RowStream.hasNext_losesRow`: a question for another row that fails loses the row, although it
  could be read when the cursor is asked again.
-/

namespace Stencil

/-! ## Landings -/

/-- What a step forward comes to. -/
inductive Landing where
  /-- A row that is read. -/
  | given (row : Row)
  /-- A row that is not read, since its labels or one of its columns failed. -/
  | lost (e : DataError)
  /-- The step failed, and the cursor stays where it is. -/
  | stalled (e : DataError)

/-- The row of a landing. -/
def Landing.row? : Landing → Option Row
  | .given row => some row
  | .lost _ | .stalled _ => none

/-- The row of columns under labels, written behind a row, or the failure of the first column that
has no answer. -/
def Cursor.readCells : List String → List Column → Row → Except DataError Row
  | [], _, row => .ok row
  | _ :: _, [], _ => .error (.source "column out of range")
  | _ :: _, .error e :: _, _ => .error e
  | label :: labels, .ok value :: columns, row =>
    readCells labels columns (row.insertPath label (value.elim .null .scalar))

/-- What a step to a row of these columns comes to. -/
def Landing.ofColumns (labels : Except DataError (List String)) (columns : List Column) : Landing :=
  match labels.bind (Cursor.readCells · columns []) with
  | .ok row => .given row
  | .error e => .lost e

/-- What steps come to, when asking for the labels fails at first: each failure costs a row. -/
def Landing.ofMoves (labels : Except DataError (List String)) :
    List DataError → List Move → List Landing
  | _, [] => []
  | failures, .failure e :: moves => .stalled e :: ofMoves labels failures moves
  | e :: failures, .row _ :: moves => .lost e :: ofMoves labels failures moves
  | [], .row columns :: moves => ofColumns labels columns :: ofMoves labels [] moves

/-- What the steps of a cursor come to. -/
def Cursor.landings (c : Cursor) : List Landing :=
  Landing.ofMoves c.labels c.labelFailures c.moves

/-- What the first of these landings answers to somebody who wants a row; at the end there is none. -/
def Landing.first : List Landing → Except DataError (Option Row)
  | [] => .ok none
  | .given row :: _ => .ok (some row)
  | .lost e :: _ | .stalled e :: _ => .error e

namespace RowRequest

/-- The answer to a request in front of these landings. -/
def answerFrom (left : List Landing) : RowRequest → RowReply
  | .hasNext => .truth ((Landing.first left).map (·.isSome))
  | .isEmpty => .truth ((Landing.first left).map (·.isNone))
  | .nextRow => .row (match Landing.first left with
    | .ok (some row) => .ok row
    | .ok none => .error .exhausted
    | .error e => .error e)
  | .next | .element _ => .next (Landing.first left)

/-- The landings that are left behind a request.  Only a row outlives a question for another row. -/
def leavesFrom (left : List Landing) (q : RowRequest) : List Landing :=
  match left with
  | .given _ :: rest => if q.pulls then rest else left
  | _ => left.tail

/-- The landings that are left behind requests. -/
def leftBehind (landings : List Landing) (requests : List RowRequest) : List Landing :=
  requests.foldl leavesFrom landings

end RowRequest

namespace RowStream

/-! ## Reading a row -/

/-- Columns are read as the cells of a row, and only the note of the calls changes.  The induction is
on the labels that are left. -/
theorem readColumns_eq_readCells (labels : List String) :
    ∀ (index : Nat) (row : Row) (s : RowStream), ∃ calls,
      readColumns labels index row s =
        (Cursor.readCells labels (s.cursor.columns.drop index) row, { s with calls := calls }) := by
  induction labels with
  | nil =>
    intro index row s
    exact ⟨s.calls, rfl⟩
  | cons label labels ih =>
    intro index row s
    have hcolumn : s.cursor.column index = ((s.cursor.columns.drop index).head?).getD
        (.error (.source "column out of range")) := by
      rw [Cursor.column, List.head?_drop]
    have hrest := List.tail_drop (l := s.cursor.columns) (i := index)
    rw [readColumns, hcolumn]
    cases hdrop : s.cursor.columns.drop index with
    | nil => exact ⟨_, rfl⟩
    | cons column columns =>
      rw [hdrop, List.tail_cons] at hrest
      cases column with
      | error e => exact ⟨_, rfl⟩
      | ok value =>
        obtain ⟨calls, hread⟩ := ih (index + 1) (row.insertPath label (value.elim .null .scalar))
          (s.note (.value index))
        rw [show (s.note (.value index)).cursor.columns.drop (index + 1) = columns from hrest.symm]
          at hread
        exact ⟨calls, hread⟩

variable {left : List Landing} {s : RowStream}

/-- The labels of a stream, once they are known, are those of its cursor, which has come to the end
of its failures to tell them. -/
def KnowsLabels (s : RowStream) : Prop :=
  ∀ labels, s.labels = some labels → s.cursor.labelFailures = [] ∧ s.cursor.labels = .ok labels

/-- Reading takes neither the row that has been read ahead nor the end. -/
structure Reading (s s' : RowStream) : Prop where
  lent : s'.lent = s.lent
  pending : s'.pending = s.pending
  exhausted : s'.exhausted = s.exhausted
  knows : s'.KnowsLabels

/-- Behind known labels a row is read from the columns that the cursor stands on. -/
theorem readRow_of_known {t : RowStream} {names : List String}
    (hk : s.knownLabels = (.ok names, t)) (hc : t.cursor.columns = s.cursor.columns) :
    ∃ calls, s.readRow = (Landing.first [.ofColumns (.ok names) s.cursor.columns],
      { t with calls := calls }) := by
  obtain ⟨calls, hread⟩ := readColumns_eq_readCells names 0 [] t
  rw [List.drop_zero, hc] at hread
  refine ⟨calls, ?_⟩
  rw [readRow, hk]
  dsimp only
  rw [hread, Landing.ofColumns]
  show _ = (Landing.first [match Cursor.readCells names s.cursor.columns [] with
    | .ok row => .given row
    | .error e => .lost e], _)
  cases Cursor.readCells names s.cursor.columns [] <;> rfl

theorem readRow_of_unknown {t : RowStream} {e : DataError} (hk : s.knownLabels = (.error e, t)) :
    s.readRow = (.error e, t) := by
  rw [readRow, hk]

/-- **Reading a row** comes to what the step to it comes to, and leaves what the other steps come
to.  The cases are how the labels are found: they are known, they cannot be told yet, or they are
told, which may be a failure for good. -/
theorem readRow_landing (h : s.KnowsLabels) :
    ∃ o s', s.readRow = (Landing.first [o], s') ∧ s.Reading s' ∧
      Landing.ofMoves s.cursor.labels s.cursor.labelFailures
        (.row s.cursor.columns :: s.cursor.moves) = o :: s'.cursor.landings := by
  cases hl : s.labels with
  | some names =>
    obtain ⟨hfailures, hnames⟩ := h names hl
    have hk : s.knownLabels = (.ok names, s) := by rw [knownLabels, hl]
    obtain ⟨calls, hread⟩ := readRow_of_known hk rfl
    refine ⟨_, _, hread, ⟨rfl, rfl, rfl, h⟩, ?_⟩
    rw [Cursor.landings, hfailures, hnames, Landing.ofMoves]
  | none =>
    have unknown {labels : Option (List String)} (hn : labels = s.labels) {p : Prop}
        {names : List String} (hnames : labels = some names) : p := by
      rw [hn, hl] at hnames
      cases hnames
    cases hf : s.cursor.labelFailures with
    | cons e failures =>
      have hk : s.knownLabels = (.error e, { s.note .labels with
          cursor := { s.cursor with labelFailures := failures } }) := by
        rw [knownLabels, hl, Cursor.askLabels, hf]
      exact ⟨.lost e, _, readRow_of_unknown hk, ⟨rfl, rfl, rfl, fun _ => unknown rfl⟩, rfl⟩
    | nil =>
      cases hn : s.cursor.labels with
      | ok names =>
        have hk : s.knownLabels = (.ok names, { s.note .labels with labels := some names }) := by
          rw [knownLabels, hl, Cursor.askLabels, hf, hn]
          rfl
        obtain ⟨calls, hread⟩ := readRow_of_known hk rfl
        refine ⟨_, _, hread, ⟨rfl, rfl, rfl, fun names' hnames => ?_⟩, ?_⟩
        · obtain rfl := Option.some.inj hnames
          exact ⟨hf, hn⟩
        · show _ = _ :: Landing.ofMoves s.cursor.labels s.cursor.labelFailures s.cursor.moves
          rw [hf, hn, Landing.ofMoves]
      | error e =>
        have hk : s.knownLabels = (.error e, s.note .labels) := by
          rw [knownLabels, hl, Cursor.askLabels, hf, hn]
          rfl
        refine ⟨.lost e, _, readRow_of_unknown hk, ⟨rfl, rfl, rfl, fun _ => unknown rfl⟩, ?_⟩
        show _ = _ :: Landing.ofMoves s.cursor.labels s.cursor.labelFailures s.cursor.moves
        rw [hf, hn, Landing.ofMoves]
        rfl

/-! ## What has not been told -/

/-- The invariant: these landings have not been told.  A row that has been read ahead is the first
of them, and the cursor comes to the others. -/
structure Tells (left : List Landing) (s : RowStream) : Prop where
  idle : s.lent = false
  knows : s.KnowsLabels
  waiting : left = s.pending.toList.map .given ++ s.cursor.landings
  ended : s.exhausted = true → s.cursor.moves = []

theorem tells_ofCursor (c : Cursor) (resources : List Resource) :
    Tells c.landings (ofCursor c resources) := ⟨rfl, nofun, rfl, nofun⟩

/-- **One landing**: fetching tells the first of those that are left, and keeps nothing. -/
theorem Tells.fetch (h : Tells left s) :
    ∃ s', s.fetch = (Landing.first left, s') ∧ s'.pending = none ∧ Tells left.tail s' := by
  have hleft := h.waiting
  unfold RowStream.fetch
  cases hp : s.pending with
  | some row =>
    -- the row has been read ahead
    rw [hp] at hleft
    subst hleft
    exact ⟨_, rfl, rfl, h.idle, h.knows, rfl, h.ended⟩
  | none =>
    rw [hp] at hleft
    obtain rfl : left = s.cursor.landings := hleft
    have waiting (os : List Landing) : os = s.pending.toList.map .given ++ os := by
      rw [hp]
      rfl
    dsimp only
    by_cases he : s.exhausted = true
    · -- the end has been reached
      have hnil : s.cursor.landings = [] := by rw [Cursor.landings, h.ended he, Landing.ofMoves]
      rw [if_pos he, hnil]
      refine ⟨s, rfl, hp, h.idle, h.knows, ?_, h.ended⟩
      rw [hnil]
      exact waiting []
    · rw [if_neg he]
      unfold Cursor.advance
      cases hm : s.cursor.moves with
      | nil =>
        -- the cursor tells its end
        have hnil : s.cursor.landings = [] := by rw [Cursor.landings, hm, Landing.ofMoves]
        rw [hnil]
        exact ⟨_, rfl, hp, h.idle, h.knows, waiting [], fun _ => rfl⟩
      | cons move moves =>
        cases move with
        | failure e =>
          have hcons : s.cursor.landings =
              .stalled e :: Landing.ofMoves s.cursor.labels s.cursor.labelFailures moves := by
            rw [Cursor.landings, hm]
            cases s.cursor.labelFailures <;> rfl
          rw [hcons]
          exact ⟨_, rfl, hp, h.idle, h.knows, waiting _, fun hended => absurd hended he⟩
        | row columns =>
          -- the cursor stands on a row, which is read
          obtain ⟨o, s', hread, reading, hcons⟩ := readRow_landing (s := { s.note .advance with
            cursor := { s.cursor with moves := moves, columns := columns } }) h.knows
          have hcons : s.cursor.landings = o :: s'.cursor.landings := by
            rw [← hcons, Cursor.landings, hm]
          have hanswer : Landing.first [o] = Landing.first (o :: s'.cursor.landings) := by
            cases o <;> rfl
          rw [hcons]
          refine ⟨s', hread.trans (by rw [hanswer]), reading.pending.trans hp,
            reading.lent.trans h.idle, reading.knows, ?_,
            fun hended => absurd (reading.exhausted ▸ hended) he⟩
          rw [reading.pending]
          exact waiting _

/-- A question for another row leaves a row that is there, and takes off a failure. -/
theorem Tells.peek (h : Tells left s) :
    ∃ s', s.peek = ((Landing.first left).map (·.isSome), s') ∧
      Tells (RowRequest.hasNext.leavesFrom left) s' := by
  unfold RowStream.peek
  cases hp : s.pending with
  | some row =>
    have hleft := h.waiting
    rw [hp] at hleft
    subst hleft
    exact ⟨_, rfl, h⟩
  | none =>
    obtain ⟨s', hfetch, hnone, h'⟩ := h.fetch
    have hwaiting := h'.waiting
    rw [hnone] at hwaiting
    dsimp only
    rw [hfetch]
    cases left with
    | nil => exact ⟨_, rfl, h'.idle, h'.knows, hwaiting, h'.ended⟩
    | cons o left =>
      cases o with
      | given row =>
        -- the row goes back in front of the others
        exact ⟨_, rfl, h'.idle, h'.knows, congrArg (Landing.given row :: ·) hwaiting, h'.ended⟩
      | lost e | stalled e => exact ⟨_, rfl, h'⟩

/-! ## Requests -/

theorem leavesFrom_of_pulls {q : RowRequest} (hq : q.pulls = true) (left : List Landing) :
    q.leavesFrom left = left.tail := by
  cases left with
  | nil => rfl
  | cons o left => cases o <;> simp [RowRequest.leavesFrom, hq]

/-- **One request** is answered from the landings that are left. -/
theorem Tells.perform (h : Tells left s) (q : RowRequest) :
    ∃ s', s.perform q = (q.answerFrom left, s') ∧ Tells (q.leavesFrom left) s' := by
  obtain ⟨s₁, hpeek, h₁⟩ := h.peek
  obtain ⟨s₂, hfetch, -, h₂⟩ := h.fetch
  have hnext : s.next = (Landing.first left, s₂) := (unlessLent_of_idle h.idle _).trans hfetch
  have hhasNext : s.hasNext = ((Landing.first left).map (·.isSome), s₁) :=
    (unlessLent_of_idle h.idle _).trans hpeek
  have pulled {q : RowRequest} (hq : q.pulls = true) : Tells (q.leavesFrom left) s₂ :=
    leavesFrom_of_pulls hq left ▸ h₂
  cases q with
  | hasNext =>
    rw [RowStream.perform, hhasNext]
    exact ⟨s₁, rfl, h₁⟩
  | isEmpty =>
    rw [RowStream.perform, hhasNext, RowRequest.answerFrom]
    refine ⟨s₁, ?_, h₁⟩
    cases Landing.first left with
    | error e => rfl
    | ok found => cases found <;> rfl
  | nextRow =>
    rw [RowStream.perform, nextRow, hnext, RowRequest.answerFrom]
    refine ⟨s₂, ?_, pulled rfl⟩
    cases Landing.first left with
    | error e => rfl
    | ok found => cases found <;> rfl
  | next | element iterator =>
    rw [RowStream.perform, hnext]
    exact ⟨s₂, rfl, pulled rfl⟩

/-! ## Runs -/

/-- The rows that a request is told are those of the landings that it takes off, for a failure or
the end none. -/
theorem told_of_answerFrom (q : RowRequest) (left : List Landing) :
    ∃ told, left = told ++ q.leavesFrom left ∧
      (q.answerFrom left).handedOut.toList = told.filterMap Landing.row? := by
  cases left with
  | nil => exact ⟨[], rfl, by cases q <;> rfl⟩
  | cons o left =>
    cases o with
    | given row =>
      cases hq : q.pulls with
      | false =>
        refine ⟨[], by simp [RowRequest.leavesFrom, hq], ?_⟩
        cases q <;> first | rfl | cases hq
      | true =>
        refine ⟨[.given row], by simp [RowRequest.leavesFrom, hq], ?_⟩
        cases q <;> first | rfl | cases hq
    | lost e => exact ⟨[.lost e], rfl, by cases q <;> rfl⟩
    | stalled e => exact ⟨[.stalled e], rfl, by cases q <;> rfl⟩

/-- Requests that have been answered from what the steps of a cursor come to, each step told once. -/
structure TellsInTurn (landings : List Landing) (requests : List RowRequest)
    (replies : List RowReply) : Prop where
  /-- A request is answered from the landings that no earlier request has been told. -/
  answered : ∀ before q after, requests = before ++ q :: after →
    replies[before.length]? = some (q.answerFrom (RowRequest.leftBehind landings before))
  /-- The rows that have been handed out, taken together, are those of the landings that have been
  told, in their order: none but the lost ones are missing. -/
  given : ∃ told, landings = told ++ RowRequest.leftBehind landings requests ∧
    handedOut replies = told.filterMap Landing.row?

/-- By induction on the requests. -/
theorem Tells.performAll (requests : List RowRequest) :
    ∀ {left : List Landing} {s : RowStream}, Tells left s →
      TellsInTurn left requests (s.performAll requests).1 := by
  induction requests with
  | nil =>
    intro left s h
    exact ⟨fun before q after heq => absurd heq (by simp), [], rfl, rfl⟩
  | cons q requests ih =>
    intro left s h
    obtain ⟨s', hperform, h'⟩ := h.perform q
    obtain ⟨answered, told, hleft, hgiven⟩ := ih h'
    have hrun : (s.performAll (q :: requests)).1 =
        q.answerFrom left :: (s'.performAll requests).1 := by
      rw [RowStream.performAll, hperform]
    rw [hrun]
    refine ⟨fun before q' after heq => ?_, ?_⟩
    · cases before with
      | nil =>
        obtain ⟨rfl, -⟩ := List.cons.inj heq
        rfl
      | cons first before =>
        obtain ⟨rfl, hrest⟩ := List.cons.inj heq
        exact answered before q' after hrest
    · obtain ⟨told', hleft', hrow⟩ := told_of_answerFrom q left
      refine ⟨told' ++ told, ?_, ?_⟩
      · rw [List.append_assoc]
        exact hleft'.trans (congrArg (told' ++ ·) hleft)
      · rw [List.filterMap_append, ← hrow, ← hgiven, handedOut, List.filterMap_cons]
        cases (q.answerFrom left).handedOut <;> rfl

/-- **A stream tells what each step of its cursor has come to once**, in their order and whatever
is asked: a row to whoever asks for it, and a failure to whoever asks next.  A step that failed
leaves the cursor where it is, and a row whose labels or columns failed is lost. -/
theorem tellsInTurn (c : Cursor) (resources : List Resource) (requests : List RowRequest) :
    TellsInTurn c.landings requests ((ofCursor c resources).performAll requests).1 :=
  (tells_ofCursor c resources).performAll requests

/-- The labels cannot be told when another row is asked for, and can be told again right behind
that: the row that the cursor stands on could be read then, and yet the next one is handed out. -/
theorem hasNext_losesRow :
    let c := { Cursor.ofRows ["id"] [[some (.text "a")], [some (.text "b")]] with
      labelFailures := [.source "not yet"] }
    let asked := (ofCursor c []).hasNext
    asked.1 = .error (.source "not yet") ∧
      asked.2.readRow.1 = .ok (some [("id", .scalar (.text "a"))]) ∧
        asked.2.next.1 = .ok (some [("id", .scalar (.text "b"))]) := ⟨rfl, rfl, rfl⟩

end RowStream

end Stencil
