import Stencil.Proofs.Data.Failing

/-!
# Asking ahead

Whether a single-pass sequence has another row is found out by reading ahead.  The row that is read,
or the end that is found, is kept, so that asking again makes no call, and so that the row which is
given next is the one that would have been given without asking.

- `RowStream.Ahead`: what comes next is known;
- `RowStream.peek_ok`, `RowStream.peek_error`: what asking and giving have in common;
- `Streams.hasNext_ok`, `Streams.hasNext_error`: **asking changes nothing but when a row is read**:
  neither the answer to the same question nor the row that is given next, nor where the sequence and
  the noted calls stand behind it; a failure is the one that giving would have met.
-/

namespace Stencil

variable {row : Option Row} {more : Bool} {e : DataError}

namespace RowStream

variable {s t : RowStream}

/-- What comes next is known: a row that has been read ahead, or the end. -/
structure Ahead (row : Option Row) (s : RowStream) : Prop where
  pending : s.pending = row
  ended : row = none → s.exhausted = true

/-- The row that is known is given, and no call is made. -/
theorem Ahead.fetch (h : s.Ahead row) : s.fetch = (.ok row, { s with pending := none }) := by
  obtain ⟨hpending, hended⟩ := h
  unfold RowStream.fetch
  rw [hpending]
  cases row with
  | some row => rfl
  | none =>
    dsimp only
    rw [if_pos (hended rfl), ← hpending]

/-- Asking again changes nothing. -/
theorem Ahead.peek (h : s.Ahead row) : s.peek = (.ok row.isSome, s) := by
  have hfetch := h.fetch
  obtain ⟨hpending, -⟩ := h
  unfold RowStream.peek
  rw [hfetch, hpending]
  cases row with
  | some row => rfl
  | none =>
    dsimp only
    rw [← hpending]

theorem Ahead.withCalls (h : s.Ahead row) (calls : List Call) :
    Ahead row { s with calls := calls } :=
  ⟨h.pending, h.ended⟩

theorem pending_readColumns (labels : List String) :
    ∀ (index : Nat) (row : Row) (s : RowStream),
      (readColumns labels index row s).2.pending = s.pending := by
  induction labels with
  | nil => exact fun _ _ _ => rfl
  | cons label labels ih =>
    intro index row s
    rw [readColumns]
    cases s.cursor.column index with
    | error e => rfl
    | ok value => exact ih (index + 1) _ (s.note (.value index))

theorem pending_knownLabels (s : RowStream) : s.knownLabels.2.pending = s.pending := by
  unfold knownLabels
  cases s.labels with
  | some labels => rfl
  | none =>
    dsimp only
    obtain ⟨answer, c⟩ := s.cursor.askLabels
    cases answer <;> rfl

/-- Reading a row reads no row ahead, and does not find the end. -/
theorem readRow_spec (s : RowStream) :
    s.readRow.2.pending = s.pending ∧ s.readRow.1 ≠ .ok none := by
  have hknown := pending_knownLabels s
  unfold readRow
  generalize s.knownLabels = x at hknown
  obtain ⟨answer, s'⟩ := x
  cases answer with
  | error e => exact ⟨hknown, nofun⟩
  | ok labels =>
    have hcolumns := (pending_readColumns labels 0 [] s').trans hknown
    dsimp only
    generalize readColumns labels 0 [] s' = x at hcolumns
    obtain ⟨row, s''⟩ := x
    cases row <;> exact ⟨hcolumns, nofun⟩

/-- Giving leaves no row that has been read ahead, and remembers the end. -/
theorem fetch_spec (s : RowStream) (h : s.pending = none) :
    s.fetch.2.pending = none ∧ (s.fetch.1 = .ok none → s.fetch.2.exhausted = true) := by
  unfold RowStream.fetch
  rw [h]
  dsimp only
  by_cases hx : s.exhausted
  · rw [if_pos hx]
    exact ⟨h, fun _ => hx⟩
  · rw [if_neg hx]
    obtain ⟨answer, c⟩ := s.cursor.advance
    cases answer with
    | error e => exact ⟨h, nofun⟩
    | ok more =>
      cases more with
      | false => exact ⟨h, fun _ => rfl⟩
      | true =>
        obtain ⟨hpending, hsome⟩ := readRow_spec { s.note .advance with cursor := c }
        exact ⟨hpending.trans h, fun heq => absurd heq hsome⟩

/-- **Asking ahead**: what comes next is known, and giving would have come to the same place. -/
theorem peek_ok (h : s.peek = (.ok more, t)) :
    ∃ row, t.Ahead row ∧ row.isSome = more ∧ s.fetch = (.ok row, { t with pending := none }) := by
  have hfetch := fetch_spec s
  unfold RowStream.peek at h
  cases hp : s.pending with
  | some row =>
    rw [hp] at h
    obtain ⟨hmore, rfl⟩ := Prod.mk.inj h
    have ahead : s.Ahead (some row) := ⟨hp, nofun⟩
    exact ⟨some row, ahead, Except.ok.inj hmore, ahead.fetch⟩
  | none =>
    obtain ⟨hpending, hended⟩ := hfetch hp
    rw [hp] at h
    dsimp only at h
    generalize s.fetch = x at h hpending hended
    obtain ⟨answer, s'⟩ := x
    cases answer with
    | error e => cases h
    | ok row =>
      obtain ⟨hmore, rfl⟩ := Prod.mk.inj h
      refine ⟨row, ⟨rfl, fun heq => hended (congrArg Except.ok heq)⟩, Except.ok.inj hmore, ?_⟩
      -- fetching has left no row in front of the one that is kept now
      rw [← hpending]

theorem peek_error (h : s.peek = (.error e, t)) : s.fetch = (.error e, t) := by
  unfold RowStream.peek at h
  cases hp : s.pending with
  | some row =>
    rw [hp] at h
    cases h
  | none =>
    rw [hp] at h
    dsimp only at h
    generalize s.fetch = x at h
    obtain ⟨answer, s'⟩ := x
    cases answer with
    | error e' =>
      obtain ⟨he, rfl⟩ := Prod.mk.inj h
      rw [Except.error.inj he]
    | ok row => cases h

end RowStream

namespace Stream

variable {s t : Stream}

/-- What asking and giving have in common: behind a question the same row is given, and neither
asking nor giving makes a call any more. -/
theorem hasNext_ok (h : s.hasNext = (.ok more, t)) :
    ∃ row t', row.isSome = more ∧ t.withoutCalls.hasNext = (.ok more, t.withoutCalls) ∧
      s.next = (.ok row, t') ∧ t.withoutCalls.next = (.ok row, t'.withoutCalls) ∧
      t'.calls = t.calls := by
  cases s with
  | rows s =>
    have hreads := RowStream.onlyReads_peek s
    rw [hasNext, RowStream.hasNext, RowStream.unlessLent] at h
    rw [next, RowStream.next, RowStream.unlessLent]
    by_cases hl : s.lent
    · rw [if_pos hl] at h
      cases h
    · rw [if_neg hl] at h ⊢
      cases hpeek : s.peek with
      | mk answer u =>
        rw [hpeek] at h hreads
        obtain ⟨rfl, rfl⟩ := Prod.mk.inj h
        obtain ⟨row, ahead, hmore, hfetch⟩ := RowStream.peek_ok hpeek
        have silent := ahead.withCalls []
        have hidle : RowStream.lent { u with calls := [] } = false :=
          hreads.lent.trans (Bool.eq_false_iff.mpr hl)
        rw [hfetch]
        refine ⟨row, .rows { u with pending := none }, hmore, ?_, rfl, ?_, rfl⟩
        · rw [withoutCalls, hasNext, RowStream.hasNext, RowStream.unlessLent_of_idle hidle,
            silent.peek, hmore]
        · rw [withoutCalls, next, RowStream.next, RowStream.unlessLent_of_idle hidle, silent.fetch]
          rfl
  | items s =>
    rw [hasNext, ItemStream.hasNext, ItemStream.unlessLent] at h
    rw [next, ItemStream.next, ItemStream.unlessLent]
    by_cases hl : s.lent
    · rw [if_pos hl] at h
      cases h
    · rw [if_neg hl] at h ⊢
      obtain ⟨hmore, rfl⟩ := Prod.mk.inj h
      refine ⟨s.rows.head?, .items { s with rows := s.rows.tail }, ?_, ?_, rfl, ?_, rfl⟩
      · rw [← Except.ok.inj hmore]
        cases s.rows <;> rfl
      · rw [withoutCalls, hasNext, ItemStream.hasNext, ItemStream.unlessLent, if_neg hl, hmore]
      · rw [withoutCalls, next, ItemStream.next, ItemStream.unlessLent, if_neg hl]
        rfl

theorem hasNext_error (h : s.hasNext = (.error e, t)) : s.next = (.error e, t) := by
  cases s with
  | rows s =>
    rw [hasNext, RowStream.hasNext, RowStream.unlessLent] at h
    rw [next, RowStream.next, RowStream.unlessLent]
    by_cases hl : s.lent
    · rw [if_pos hl] at h ⊢
      obtain ⟨he, rfl⟩ := Prod.mk.inj h
      rw [Except.error.inj he]
    · rw [if_neg hl] at h ⊢
      cases hpeek : s.peek with
      | mk answer u =>
        rw [hpeek] at h
        obtain ⟨rfl, rfl⟩ := Prod.mk.inj h
        rw [RowStream.peek_error hpeek]
  | items s =>
    rw [hasNext, ItemStream.hasNext, ItemStream.unlessLent] at h
    rw [next, ItemStream.next, ItemStream.unlessLent]
    by_cases hl : s.lent
    · rw [if_pos hl] at h ⊢
      obtain ⟨he, rfl⟩ := Prod.mk.inj h
      rw [Except.error.inj he]
    · rw [if_neg hl] at h
      cases h

end Stream

namespace Streams

variable {S T : Streams} {id : Nat}

theorem withoutCalls_withoutCalls (s : Stream) : s.withoutCalls.withoutCalls = s.withoutCalls := by
  cases s <;> rfl

theorem calls_withoutCalls (s : Stream) : s.withoutCalls.calls = [] := by
  cases s <;> rfl

/-- **Asking changes nothing but when a row is read.**  Asking again has the same answer and leaves
all as it is, and the next row is given as without asking. -/
theorem hasNext_ok (h : S.hasNext id = (.ok more, T)) :
    ∃ row, row.isSome = more ∧ T.hasNext id = (.ok more, T) ∧ (S.next id).1 = .ok row ∧
      T.next id = S.next id := by
  unfold hasNext at h ⊢
  unfold next
  cases hentry : S.streams[id]? with
  | none =>
    rw [request, hentry] at h
    obtain ⟨hmore, rfl⟩ := Prod.mk.inj h
    refine ⟨none, Except.ok.inj hmore, ?_, ?_, rfl⟩
    · rw [request, hentry, hmore]
    · rw [request, hentry]
  | some s =>
    rw [request_apply _ _ hentry] at h
    obtain ⟨hmore, rfl⟩ := Prod.mk.inj h
    obtain ⟨row, t', hrow, hagain, hnext, hlater, hcalls⟩ :=
      Stream.hasNext_ok (Prod.ext hmore rfl : s.hasNext = (.ok more, s.hasNext.2))
    have hlt : id < S.streams.length := (List.getElem?_eq_some_iff.mp hentry).1
    have hentry' : (S.streams.set id s.hasNext.2.withoutCalls)[id]? =
        some s.hasNext.2.withoutCalls := by rw [List.getElem?_set_self hlt]
    refine ⟨row, hrow, ?_, ?_, ?_⟩
    · rw [request_apply _ _ hentry', hagain, withoutCalls_withoutCalls, calls_withoutCalls,
        List.set_set]
      rfl
    · rw [request_apply _ _ hentry, hnext]
    · rw [request_apply _ _ hentry', request_apply _ _ hentry, hnext, hlater,
        withoutCalls_withoutCalls, calls_withoutCalls, List.set_set, hcalls]
      rfl

/-- A failure of asking is the one that giving would have met, in the same place. -/
theorem hasNext_error (h : S.hasNext id = (.error e, T)) : S.next id = (.error e, T) := by
  unfold hasNext at h
  unfold next
  cases hentry : S.streams[id]? with
  | none =>
    rw [request, hentry] at h
    cases h
  | some s =>
    rw [request_apply _ _ hentry] at h
    obtain ⟨he, rfl⟩ := Prod.mk.inj h
    have hnext := Stream.hasNext_error (Prod.ext he rfl : s.hasNext = (.error e, s.hasNext.2))
    rw [request_apply _ _ hentry, hnext]

end Streams

end Stencil
