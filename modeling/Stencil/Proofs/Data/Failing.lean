import Stencil.Proofs.Data.Closing
import Stencil.Proofs.Data.Streams
import Stencil.Proofs.Data.Supply

/-!
# Sources that fail midway

A cursor may give some rows and then fail, whether in moving, in naming its columns or in a value.
In a render the calls that reach it end up in one log for all sequences, so that a stream is put
together with its calls before it is compared with what it was.

- `RowStream.FailsAfter`: the stream gives these rows, and then fails;
- `RowStream.ReadAndClosed`: what a stream has become when it has been read and closed;
- `Streams.Holds`: a sequence is this row stream, with all calls that it has made;
- `Streams.Holds.next`: one row is taken, or the failure; `Streams.Holds.close`: the stream is
  closed with its resources;
- `Streams.Holds.closeAll`: **a closed stream stays what it is**, whatever is closed behind it.
-/

namespace Stencil

namespace RowStream

/-- The stream gives these rows, and then fails. -/
def FailsAfter (e : DataError) : List Row → RowStream → Prop
  | [], r => r.fetch.1 = .error e
  | row :: rows, r => r.fetch.1 = .ok (some row) ∧ FailsAfter e rows r.fetch.2

/-- The stream with other noted calls. -/
def withCalls (calls : List Call) (r : RowStream) : RowStream := { r with calls := calls }

variable {r : RowStream}

/-- A row is fetched alike, whatever calls have been noted. -/
theorem fetch_withCalls (calls : List Call) (r : RowStream) :
    ∃ calls', (r.withCalls calls).fetch = (r.fetch.1, r.fetch.2.withCalls calls') := by
  have hreads := onlyReads_fetch r
  obtain ⟨calls', hdress⟩ := fetch_dress r.closed r.cursor.closing r.resources calls r
  refine ⟨calls', hdress.trans ?_⟩
  rw [← hreads.closed, ← hreads.closing, ← hreads.resources]
  rfl

theorem FailsAfter.withCalls {e : DataError} {rows : List Row} (h : r.FailsAfter e rows)
    (calls : List Call) : (r.withCalls calls).FailsAfter e rows := by
  induction rows generalizing r calls with
  | nil =>
    obtain ⟨calls', hfetch⟩ := fetch_withCalls calls r
    rw [FailsAfter, hfetch]
    exact h
  | cons row rows ih =>
    obtain ⟨calls', hfetch⟩ := fetch_withCalls calls r
    rw [FailsAfter, hfetch]
    exact ⟨h.1, ih h.2 calls'⟩

/-- The rows before the failure are among those that the stream can still give. -/
theorem FailsAfter.length_le {e : DataError} {rows : List Row} (h : r.FailsAfter e rows) :
    rows.length ≤ r.reserve := by
  induction rows generalizing r with
  | nil => exact Nat.zero_le _
  | cons row rows ih =>
    have hfetch := r.reserve_fetch
    rw [h.1] at hfetch
    exact Nat.lt_of_le_of_lt (ih h.2) hfetch

/-- A stream has been read, and then closed with its resources. -/
structure ReadAndClosed (before after : RowStream) : Prop where
  ended : after.Ended
  /-- The calls since then are calls that read, and behind them one close of the cursor and one of
  each resource in its order; the latest come first. -/
  calls : ∃ reads, (∀ call ∈ reads, call.isRead = true) ∧
    after.calls = (closingCalls before.resources).reverse ++ reads ++ before.calls

theorem unlessLent_of_idle {α : Type} (h : r.lent = false)
    (request : RowStream → Except DataError α × RowStream) : r.unlessLent request = request r :=
  if_neg (by rw [h]; exact Bool.false_ne_true)

end RowStream

/-! ## Among other sequences -/

namespace Streams

/-- The calls of a sequence that have been taken into the log, the latest first. -/
def logged (id : Nat) (S : Streams) : List Call := (S.log.filter (·.1 = id)).map (·.2)

/-- The sequence of a number is this row stream, with all calls that it has ever made. -/
def Holds (id : Nat) (r : RowStream) (S : Streams) : Prop :=
  ∃ calls, S.streams[id]? = some (.rows (r.withCalls calls)) ∧ r.calls = calls ++ S.logged id

namespace Holds

variable {α : Type} {id : Nat} {r r' : RowStream} {S : Streams} {absent : α}
  {send : Stream → Except DataError α × Stream}

/-- What a request leaves of the stream that it is sent to; its calls go into the log. -/
theorem of_request {stream : Stream} {calls : List Call} (hentry : S.streams[id]? = some stream)
    (hsend : (send stream).2 = .rows (r'.withCalls calls))
    (hcalls : r'.calls = calls ++ S.logged id) :
    (Streams.request absent send id S).2.Holds id r' := by
  have hlt := (List.getElem?_eq_some_iff.mp hentry).1
  have hown : ∀ e ∈ calls.map fun call => (id, call), decide (e.1 = id) = true := by
    intro e he
    obtain ⟨call, -, rfl⟩ := List.mem_map.mp he
    exact decide_eq_true rfl
  unfold Streams.request
  rw [hentry]
  dsimp only
  rw [hsend]
  refine ⟨[], List.getElem?_set_self hlt, ?_⟩
  show r'.calls = ((calls.map (id, ·) ++ S.log).filter (·.1 = id)).map (·.2)
  rw [List.filter_append, List.filter_eq_self.mpr hown, List.map_append, List.map_map, hcalls]
  exact congrArg (· ++ S.logged id) (List.map_id calls).symm

/-- A request to another sequence leaves the stream. -/
theorem of_other {other : Nat} (h : S.Holds id r) (hne : other ≠ id) :
    (Streams.request absent send other S).2.Holds id r := by
  obtain ⟨calls, hentry, hcalls⟩ := h
  unfold Streams.request
  cases hother : S.streams[other]? with
  | none => exact ⟨calls, hentry, hcalls⟩
  | some stream =>
    have hforeign : ∀ e ∈ (send stream).2.calls.map fun call => (other, call),
        ¬ decide (e.1 = id) = true := by
      intro e he
      obtain ⟨call, -, rfl⟩ := List.mem_map.mp he
      exact fun h => hne (of_decide_eq_true h)
    refine ⟨calls, (List.getElem?_set_ne hne).trans hentry, ?_⟩
    show r.calls = calls ++ (((send stream).2.calls.map (other, ·) ++ S.log).filter
      (·.1 = id)).map (·.2)
    rw [List.filter_append, List.filter_eq_nil_iff.mpr hforeign]
    exact hcalls

theorem length_le {e : DataError} {rows : List Row} (h : S.Holds id r)
    (hfails : r.FailsAfter e rows) : rows.length ≤ S.stepsLeft id := by
  obtain ⟨calls, hentry, -⟩ := h
  have hreserve : S.reserve id = r.reserve := by
    unfold Streams.reserve
    rw [hentry]
    rfl
  exact Nat.le_trans (hreserve ▸ hfails.length_le) (S.reserve_le_stepsLeft id)

/-- **The next row**, or the failure, is that of the stream, which has only been read. -/
theorem next (h : S.Holds id r) (hidle : r.lent = false) :
    ∃ calls, (S.next id).1 = r.fetch.1 ∧
      (S.next id).2.Holds id (r.fetch.2.withCalls calls) ∧
      r.OnlyReads (r.fetch.2.withCalls calls) := by
  obtain ⟨calls, hentry, hcalls⟩ := h
  obtain ⟨calls', hfetch⟩ := r.fetch_withCalls calls
  obtain ⟨made, hmade, hreads⟩ := (RowStream.onlyReads_fetch (r.withCalls calls)).calls
  rw [hfetch] at hmade
  change calls' = made ++ calls at hmade
  have hnext : Stream.next (.rows (r.withCalls calls)) =
      (r.fetch.1, .rows (r.fetch.2.withCalls calls')) := by
    have hidle' : (r.withCalls calls).lent = false := hidle
    rw [Stream.next, RowStream.next, RowStream.unlessLent_of_idle hidle', hfetch]
  have hread := r.onlyReads_fetch
  refine ⟨made ++ r.calls, ?_, of_request hentry (congrArg Prod.snd hnext) ?_,
    hread.lent, hread.closed, hread.closing, hread.resources, made, rfl, hreads⟩
  · unfold Streams.next Streams.request
    rw [hentry]
    exact congrArg Prod.fst hnext
  · rw [hmade, List.append_assoc, ← hcalls]
    rfl

/-- **Closing** the stream closes its cursor and its resources, whatever fails on the way. -/
theorem close {before : RowStream} (h : S.Holds id r) (hidle : r.lent = false)
    (hopen : r.closed = false) (hreads : before.OnlyReads r) :
    ∃ r', (S.close id).2.Holds id r' ∧ before.ReadAndClosed r' := by
  obtain ⟨calls, hentry, hcalls⟩ := h
  obtain ⟨made, hmade, hread⟩ := hreads.calls
  have hidle' : (r.withCalls calls).lent = false := hidle
  have hopen' : (r.withCalls calls).closed = false := hopen
  have hclose : (Stream.close (.rows (r.withCalls calls))).2 = .rows (RowStream.withCalls
      ((RowStream.closingCalls r.resources).reverse ++ calls)
        { r with closed := true, exhausted := true, pending := none }) := by
    rw [Stream.close, RowStream.close, RowStream.unlessLent_of_idle hidle',
      RowStream.shut_of_open hopen']
    rfl
  refine ⟨{ r with
      closed := true
      exhausted := true
      pending := none
      calls := (RowStream.closingCalls r.resources).reverse ++ r.calls },
    of_request hentry hclose ?_, ⟨hidle, rfl, rfl, rfl⟩, made, hread, ?_⟩
  · rw [hcalls, List.append_assoc]
  · rw [← hreads.resources, hmade, List.append_assoc]

/-- Closing any sequence leaves a closed stream. -/
theorem close_ended (h : S.Holds id r) (hended : r.Ended) (n : Nat) :
    (S.close n).2.Holds id r := by
  by_cases hn : n = id
  · subst hn
    obtain ⟨calls, hentry, hcalls⟩ := h
    have hended' : (r.withCalls calls).Ended :=
      ⟨hended.idle, hended.closed, hended.exhausted, hended.pending⟩
    refine of_request hentry (congrArg Stream.rows ?_) hcalls
    exact congrArg Prod.snd (hended'.act .close)
  · exact h.of_other hn

/-- **A closed stream stays what it is**, whatever is closed behind it. -/
theorem closeAll (h : S.Holds id r) (hended : r.Ended) (ids : List Nat) :
    (S.closeAll ids).Holds id r := by
  induction ids generalizing S with
  | nil => exact h
  | cons n ids ih => exact ih (h.close_ended hended n)

end Holds

end Streams

end Stencil
