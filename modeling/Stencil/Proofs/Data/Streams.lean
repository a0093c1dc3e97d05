import Stencil.Data.Streams

/-!
# Single-pass sequences run out

What a single-pass sequence can still give is bounded by a number, its reserve: the steps of its
cursor, and the row that has been read ahead.  Every row that is given takes one off, and no request
adds to it, so that a loop over a sequence ends even when its body asks the same sequence.

- `Streams.reserve_next_lt`: a row that is given lowers the reserve of its sequence;
- `Streams.spent_next`, `Streams.spent_hasNext`, `Streams.spent_close`: no request raises the
  reserve of any sequence;
- `Streams.reserve_le_stepsLeft`: the bound that the program uses is one.
-/

namespace Stencil

namespace RowStream

/-- The rows that a stream can still give at most. -/
def reserve (s : RowStream) : Nat := s.cursor.moves.length + s.pending.toList.length

theorem cursor_askLabels (c : Cursor) : c.askLabels.2.moves = c.moves := by
  unfold Cursor.askLabels
  cases c.labelFailures <;> rfl

theorem reserve_knownLabels (s : RowStream) : s.knownLabels.2.reserve = s.reserve := by
  unfold knownLabels
  cases s.labels with
  | some labels => rfl
  | none =>
    have hmoves := cursor_askLabels s.cursor
    cases hc : s.cursor.askLabels with
    | mk answer c =>
      rw [hc] at hmoves
      cases answer <;>
      · simp only [reserve, note]
        rw [← hmoves]

theorem reserve_readColumns (labels : List String) :
    ∀ (index : Nat) (row : Row) (s : RowStream),
      (readColumns labels index row s).2.reserve = s.reserve := by
  induction labels with
  | nil =>
    intro index row s
    rfl
  | cons label labels ih =>
    intro index row s
    simp only [readColumns]
    cases s.cursor.column index with
    | error e => rfl
    | ok value => exact ih (index + 1) _ (s.note (.value index))

theorem reserve_readRow (s : RowStream) : s.readRow.2.reserve = s.reserve := by
  have hknown := reserve_knownLabels s
  unfold readRow
  cases hk : s.knownLabels with
  | mk answer s' =>
    rw [hk] at hknown
    cases answer with
    | error e => exact hknown
    | ok labels =>
      have hcolumns := reserve_readColumns labels 0 [] s'
      dsimp only
      cases hc : readColumns labels 0 [] s' with
      | mk row s'' =>
        rw [hc] at hcolumns
        cases row <;> exact hcolumns.trans hknown

/-- A row that is fetched has been read ahead, or takes a step of the cursor. -/
theorem reserve_fetch (s : RowStream) :
    match s.fetch.1 with
    | .ok (some _) => s.fetch.2.reserve < s.reserve
    | _ => s.fetch.2.reserve ≤ s.reserve := by
  unfold fetch
  cases hp : s.pending with
  | some row =>
    -- a row that has been looked at is given without moving the cursor
    show s.cursor.moves.length + 0 < s.cursor.moves.length + s.pending.toList.length
    rw [hp]
    exact Nat.lt_succ_self _
  | none =>
    have hres : s.reserve = s.cursor.moves.length := by
      rw [reserve, hp]
      rfl
    dsimp only
    by_cases hx : s.exhausted
    · simp only [if_pos hx]
      exact Nat.le_refl _
    · rw [if_neg hx, Cursor.advance]
      cases hm : s.cursor.moves with
      | nil =>
        show 0 + s.pending.toList.length ≤ s.reserve
        rw [hp]
        exact Nat.zero_le _
      | cons m rest =>
        rw [hm] at hres
        cases m with
        | failure e =>
          show rest.length + s.pending.toList.length ≤ s.reserve
          rw [hres, hp]
          exact Nat.le_succ _
        | row columns =>
          have hread := reserve_readRow
            { s.note .advance with cursor := { s.cursor with moves := rest, columns := columns } }
          have hnew : reserve { s.note .advance with
              cursor := { s.cursor with moves := rest, columns := columns } } < s.reserve := by
            show rest.length + s.pending.toList.length < s.reserve
            rw [hres, hp]
            exact Nat.lt_succ_self _
          rw [← hread] at hnew
          dsimp only
          split
          · exact hnew
          · exact Nat.le_of_lt hnew

theorem reserve_peek (s : RowStream) : s.peek.2.reserve ≤ s.reserve := by
  unfold peek
  cases hp : s.pending with
  | some row => exact Nat.le_refl _
  | none =>
    have hfetch := reserve_fetch s
    dsimp only
    cases hf : s.fetch with
    | mk answer s' =>
      rw [hf] at hfetch
      cases answer with
      | error e => exact hfetch
      | ok row =>
        show s'.cursor.moves.length + row.toList.length ≤ s.reserve
        cases row with
        | none => exact Nat.le_trans (Nat.le_add_right _ _) hfetch
        | some row => exact Nat.lt_of_le_of_lt (Nat.le_add_right _ _) hfetch

theorem reserve_shut (s : RowStream) : s.shut.2.reserve ≤ s.reserve := by
  unfold shut
  by_cases hc : s.closed
  · simp only [if_pos hc]
    exact Nat.le_refl _
  · rw [if_neg hc]
    dsimp only
    split <;> exact Nat.le_add_right _ _

end RowStream

namespace Stream

/-- The rows that a sequence can still give at most. -/
def reserve : Stream → Nat
  | .rows s => s.reserve
  | .items s => s.rows.length

theorem reserve_le_stepsLeft (s : Stream) : s.reserve ≤ s.stepsLeft := by
  cases s with
  | rows s =>
    show s.cursor.moves.length + s.pending.toList.length ≤ s.cursor.moves.length + 1
    cases s.pending <;> simp
  | items s => exact Nat.le_refl _

theorem reserve_withoutCalls (s : Stream) : s.withoutCalls.reserve = s.reserve := by
  cases s <;> rfl

theorem reserve_next (s : Stream) :
    match s.next.1 with
    | .ok (some _) => s.next.2.reserve < s.reserve
    | _ => s.next.2.reserve ≤ s.reserve := by
  cases s with
  | rows s =>
    simp only [next, RowStream.next, RowStream.unlessLent]
    by_cases hl : s.lent
    · simp only [if_pos hl]
      exact Nat.le_refl _
    · simp only [if_neg hl]
      exact s.reserve_fetch
  | items s =>
    simp only [next, ItemStream.next, ItemStream.unlessLent]
    by_cases hl : s.lent
    · simp only [if_pos hl]
      exact Nat.le_refl _
    · simp only [if_neg hl]
      cases hr : s.rows with
      | nil =>
        show ([] : List Row).length ≤ s.rows.length
        exact Nat.zero_le _
      | cons row rows =>
        show rows.length < s.rows.length
        rw [hr]
        exact Nat.lt_succ_self _

theorem reserve_hasNext (s : Stream) : s.hasNext.2.reserve ≤ s.reserve := by
  cases s with
  | rows s =>
    simp only [hasNext, RowStream.hasNext, RowStream.unlessLent]
    split
    · exact Nat.le_refl _
    · exact s.reserve_peek
  | items s =>
    simp only [hasNext, ItemStream.hasNext, ItemStream.unlessLent]
    split <;> exact Nat.le_refl _

theorem reserve_close (s : Stream) : s.close.2.reserve ≤ s.reserve := by
  cases s with
  | rows s =>
    simp only [close, RowStream.close, RowStream.unlessLent]
    split
    · exact Nat.le_refl _
    · exact s.reserve_shut
  | items s => exact Nat.le_refl _

end Stream

namespace Streams

/-- The rows that the sequence of a number can still give at most. -/
def reserve (id : Nat) (s : Streams) : Nat := (s.streams[id]?).elim 0 Stream.reserve

/-- No sequence can give more rows than before. -/
def Spent (s s' : Streams) : Prop := ∀ id, s'.reserve id ≤ s.reserve id

theorem Spent.refl (s : Streams) : Spent s s := fun _ => Nat.le_refl _

theorem Spent.trans {s s' s'' : Streams} (h : Spent s s') (h' : Spent s' s'') : Spent s s'' :=
  fun id => Nat.le_trans (h' id) (h id)

theorem reserve_le_stepsLeft (id : Nat) (s : Streams) : s.reserve id ≤ s.stepsLeft id := by
  unfold reserve stepsLeft
  cases s.streams[id]? with
  | none => exact Nat.le_refl _
  | some stream => exact stream.reserve_le_stepsLeft

variable {α : Type}

/-- A request changes at most the sequence that it is sent to. -/
theorem reserve_request {absent : α} {send : Stream → Except DataError α × Stream} {id : Nat}
    {s : Streams} {stream : Stream} (h : s.streams[id]? = some stream) (other : Nat) :
    (request absent send id s).2.reserve other =
      if other = id then (send stream).2.reserve else s.reserve other := by
  have hlt : id < s.streams.length := (List.getElem?_eq_some_iff.mp h).1
  simp only [request, h, reserve, List.getElem?_set]
  by_cases ho : other = id
  · subst ho
    rw [if_pos rfl, if_pos rfl, if_pos hlt]
    exact Stream.reserve_withoutCalls _
  · rw [if_neg (Ne.symm ho), if_neg ho]

theorem spent_request {absent : α} {send : Stream → Except DataError α × Stream}
    (hsend : ∀ stream, (send stream).2.reserve ≤ stream.reserve) (id : Nat) (s : Streams) :
    Spent s (request absent send id s).2 := by
  intro other
  cases h : s.streams[id]? with
  | none =>
    simp only [request, h]
    exact Nat.le_refl _
  | some stream =>
    rw [reserve_request h]
    by_cases ho : other = id
    · rw [if_pos ho, ho, reserve, h]
      exact hsend stream
    · simp only [if_neg ho]
      exact Nat.le_refl _

theorem spent_next (id : Nat) (s : Streams) : Spent s (next id s).2 := by
  refine spent_request (fun stream => ?_) id s
  have h := stream.reserve_next
  split at h
  · exact Nat.le_of_lt h
  · exact h

theorem spent_hasNext (id : Nat) (s : Streams) : Spent s (hasNext id s).2 :=
  spent_request Stream.reserve_hasNext id s

theorem spent_close (id : Nat) (s : Streams) : Spent s (close id s).2 :=
  spent_request Stream.reserve_close id s

/-- A row that is given lowers the reserve of its sequence. -/
theorem reserve_next_lt {id : Nat} {s : Streams} {row : Row} (h : (next id s).1 = .ok (some row)) :
    (next id s).2.reserve id < s.reserve id := by
  unfold next at h ⊢
  cases hs : s.streams[id]? with
  | none =>
    rw [request, hs] at h
    cases h
  | some stream =>
    have hnext := stream.reserve_next
    rw [reserve_request hs, if_pos rfl, reserve, hs]
    rw [request, hs] at h
    change stream.next.1 = .ok (some row) at h
    rw [h] at hnext
    exact hnext

end Streams

end Stencil
