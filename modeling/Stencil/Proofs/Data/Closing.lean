import Stencil.Proofs.Data.Delivery

/-!
# Closing once

A stream closes its cursor and then its resources, in the order in which they were registered, when
it is first told to close, and when it is dropped if nobody has told it before.  Requests reach the
cursor only to read; the invariant `OnlyReads` says what they leave as it is, and `Ended` what a
stream is when it has been closed.

- `StreamAction`, `StreamReply`, `RowStream.actAll`: what is done with a stream between its
  construction and its drop, which is `RowStream.drop`;
- `RowStream.closingCalls`, `RowStream.closingAnswer`: the calls of closing, and what it answers;
- `RowStream.ClosesOnce`: the calls that a stream makes in its life end with those of closing, the
  first close answers for them, and a closed stream answers as one that is exhausted;
- `RowStream.closesOnce`: **every stream closes once, and completely**.
-/

namespace Stencil

/-! ## The life of a stream -/

/-- What the holder of a stream does with it. -/
inductive StreamAction where
  | request (q : RowRequest)
  | close
  deriving DecidableEq

/-- What the holder of a stream is told. -/
inductive StreamReply where
  | reply (r : RowReply)
  | closed (answer : Except DataError Unit)

/-- What a closed stream tells: there are no rows left, and nothing to close. -/
def StreamAction.replyWhenClosed : StreamAction → StreamReply
  | .request q => .reply (q.replyFor [])
  | .close => .closed (.ok ())

/-- The calls that read rows; the others close. -/
def Call.isRead : Call → Bool
  | .advance | .labels | .value _ => true
  | .closeCursor | .closeResource _ => false

namespace RowStream

/-- A stream with resources registered one after the other. -/
def owningAll (c : Cursor) (resources : List Resource) : RowStream :=
  resources.foldl owning (ofCursor c [])

/-- Carries out an action. -/
def act (s : RowStream) : StreamAction → StreamReply × RowStream
  | .request q => (.reply (s.perform q).1, (s.perform q).2)
  | .close => (.closed s.close.1, s.close.2)

/-- Carries out actions one after the other. -/
def actAll : RowStream → List StreamAction → List StreamReply × RowStream
  | s, [] => ([], s)
  | s, a :: actions =>
    let (reply, s) := s.act a
    let (replies, s) := actAll s actions
    (reply :: replies, s)

/-- A stream that nobody holds any more is closed, and nobody is told what fails. -/
def drop (s : RowStream) : RowStream := s.shut.2

/-! ## What closing is -/

/-- The calls of closing, the earliest first: the cursor, and each resource in its order. -/
def closingCalls (resources : List Resource) : List Call :=
  .closeCursor :: (List.range resources.length).map .closeResource

/-- A failure to close is reported under the name of its stage and with its wording. -/
def closeFailure? (stage : String) : Except DataError Unit → Option DataError
  | .ok () => none
  | .error e => some (.close stage e.message)

/-- The stages of closing with what they answer: the cursor, and each resource in its order. -/
def stages (closing : Except DataError Unit) (resources : List Resource) :
    List (String × Except DataError Unit) :=
  ("cursor", closing) :: resources.map fun r => (r.stage, r.closing)

/-- What closing answers: the failure of the first stage that fails, if one does. -/
def closingAnswer (closing : Except DataError Unit) (resources : List Resource) :
    Except DataError Unit :=
  ((stages closing resources).findSome? fun stage => closeFailure? stage.1 stage.2).elim
    (.ok ()) .error

/-- Registering resources one after the other gives the stream with all of them. -/
theorem owningAll_eq (c : Cursor) (resources : List Resource) :
    owningAll c resources = ofCursor c resources := by
  have owned (registered : List Resource) : resources.foldl owning (ofCursor c registered) =
      ofCursor c (registered ++ resources) := by
    induction resources generalizing registered with
    | nil => rw [List.foldl_nil, List.append_nil]
    | cons r resources ih =>
      rw [List.append_cons]
      exact ih (registered ++ [r])
  exact owned []

theorem closeResources_eq (resources : List Resource) :
    ∀ (index : Nat) (first : Option DataError) (calls : List Call),
      closeResources resources index first calls =
        (first.or (resources.findSome? fun r => closeFailure? r.stage r.closing),
          ((List.range' index resources.length).map Call.closeResource).reverse ++ calls) := by
  induction resources with
  | nil =>
    intro index first calls
    rw [closeResources, List.findSome?_nil, Option.or_none]
    rfl
  | cons r resources ih =>
    intro index first calls
    show closeResources resources (index + 1) (first.or (closeFailure? r.stage r.closing))
      (.closeResource index :: calls) = _
    rw [ih, List.length_cons, List.range'_succ, List.map_cons, List.reverse_cons,
      List.append_assoc, List.findSome?_cons, Option.or_assoc]
    congr 2
    cases closeFailure? r.stage r.closing <;> rfl

/-- Closing for the first time makes all calls of closing, whatever fails on the way. -/
theorem shut_of_open {s : RowStream} (h : s.closed = false) :
    s.shut = (closingAnswer s.cursor.closing s.resources,
      { s with
        closed := true
        exhausted := true
        pending := none
        calls := (closingCalls s.resources).reverse ++ s.calls }) := by
  have hfirst : (closeFailure? "cursor" s.cursor.closing).or
      (s.resources.findSome? fun r => closeFailure? r.stage r.closing) =
        (stages s.cursor.closing s.resources).findSome? fun stage =>
          closeFailure? stage.1 stage.2 := by
    rw [stages, List.findSome?_cons, List.findSome?_map]
    cases closeFailure? "cursor" s.cursor.closing <;> rfl
  have hcalls : ((List.range' 0 s.resources.length).map Call.closeResource).reverse ++
      (.closeCursor :: s.calls) = (closingCalls s.resources).reverse ++ s.calls := by
    rw [closingCalls, List.reverse_cons, List.append_assoc, List.range_eq_range']
    rfl
  have hstages : closeResources s.resources 0 (closeFailure? "cursor" s.cursor.closing)
      (.closeCursor :: s.calls) =
        ((stages s.cursor.closing s.resources).findSome? fun stage =>
          closeFailure? stage.1 stage.2, (closingCalls s.resources).reverse ++ s.calls) := by
    rw [closeResources_eq, hfirst, hcalls]
  unfold shut
  rw [if_neg (by rw [h]; exact Bool.false_ne_true), closingAnswer]
  generalize (stages s.cursor.closing s.resources).findSome? _ = failed at hstages ⊢
  cases hclosing : s.cursor.closing <;>
  · rw [hclosing] at hstages
    dsimp only [closeFailure?] at hstages ⊢
    rw [hstages]
    cases failed <;> rfl

/-! ## Requests only read -/

/-- Between two states of a stream its cursor has only been read: it has not been closed, and would
answer to closing as before. -/
structure OnlyReads (s s' : RowStream) : Prop where
  lent : s'.lent = s.lent
  closed : s'.closed = s.closed
  closing : s'.cursor.closing = s.cursor.closing
  resources : s'.resources = s.resources
  calls : ∃ made, s'.calls = made ++ s.calls ∧ ∀ call ∈ made, call.isRead = true

theorem OnlyReads.refl (s : RowStream) : OnlyReads s s := ⟨rfl, rfl, rfl, rfl, [], rfl, nofun⟩

theorem OnlyReads.trans {s₁ s₂ s₃ : RowStream} (h : OnlyReads s₁ s₂) (h' : OnlyReads s₂ s₃) :
    OnlyReads s₁ s₃ := by
  obtain ⟨made, hmade, hreads⟩ := h.calls
  obtain ⟨made', hmade', hreads'⟩ := h'.calls
  refine ⟨h'.lent.trans h.lent, h'.closed.trans h.closed, h'.closing.trans h.closing,
    h'.resources.trans h.resources, made' ++ made, ?_, fun call hcall => ?_⟩
  · rw [hmade', hmade, List.append_assoc]
  · exact (List.mem_append.mp hcall).elim (hreads' call) (hreads call)

/-- A call that reads is noted, and whatever else changes has no part in closing. -/
theorem OnlyReads.noted {s s' : RowStream} (call : Call) (hcall : call.isRead = true)
    (hlent : s'.lent = s.lent) (hclosed : s'.closed = s.closed)
    (hclosing : s'.cursor.closing = s.cursor.closing) (hresources : s'.resources = s.resources)
    (hcalls : s'.calls = call :: s.calls) : OnlyReads s s' := by
  refine ⟨hlent, hclosed, hclosing, hresources, [call], hcalls, fun c hc => ?_⟩
  rw [List.mem_singleton.mp hc]
  exact hcall

theorem onlyReads_knownLabels (s : RowStream) : OnlyReads s s.knownLabels.2 := by
  have hkept : s.cursor.askLabels.2.closing = s.cursor.closing := by
    unfold Cursor.askLabels
    cases s.cursor.labelFailures <;> rfl
  unfold knownLabels
  cases s.labels with
  | some labels => exact .refl s
  | none =>
    cases hasked : s.cursor.askLabels with
    | mk answer c =>
      rw [hasked] at hkept
      cases answer <;> exact .noted .labels rfl rfl rfl hkept rfl rfl

/-- Columns are read up to the first failure; the induction is on the labels that are left. -/
theorem onlyReads_readColumns (labels : List String) :
    ∀ (index : Nat) (row : Row) (s : RowStream),
      OnlyReads s (readColumns labels index row s).2 := by
  induction labels with
  | nil =>
    intro index row s
    exact .refl s
  | cons label labels ih =>
    intro index row s
    have hnoted : OnlyReads s (s.note (.value index)) :=
      .noted (.value index) rfl rfl rfl rfl rfl rfl
    simp only [readColumns]
    cases s.cursor.column index with
    | error e => exact hnoted
    | ok value => exact hnoted.trans (ih (index + 1) _ _)

theorem onlyReads_readRow (s : RowStream) : OnlyReads s s.readRow.2 := by
  have hknown := onlyReads_knownLabels s
  unfold readRow
  cases hk : s.knownLabels with
  | mk answer s' =>
    rw [hk] at hknown
    cases answer with
    | error e => exact hknown
    | ok labels =>
      have hcolumns := onlyReads_readColumns labels 0 [] s'
      dsimp only
      cases hc : readColumns labels 0 [] s' with
      | mk row s'' =>
        rw [hc] at hcolumns
        cases row <;> exact hknown.trans hcolumns

theorem onlyReads_fetch (s : RowStream) : OnlyReads s s.fetch.2 := by
  unfold fetch
  cases s.pending with
  | some row => exact ⟨rfl, rfl, rfl, rfl, [], rfl, nofun⟩
  | none =>
    dsimp only
    by_cases hended : s.exhausted
    · rw [if_pos hended]
      exact .refl s
    · rw [if_neg hended, Cursor.advance]
      cases s.cursor.moves with
      | nil => exact .noted .advance rfl rfl rfl rfl rfl rfl
      | cons move moves =>
        cases move with
        | failure e => exact .noted .advance rfl rfl rfl rfl rfl rfl
        | row columns =>
          have hadvanced : OnlyReads s { s.note .advance with
              cursor := { s.cursor with moves := moves, columns := columns } } :=
            .noted .advance rfl rfl rfl rfl rfl rfl
          exact hadvanced.trans (onlyReads_readRow _)

theorem onlyReads_peek (s : RowStream) : OnlyReads s s.peek.2 := by
  unfold peek
  cases s.pending with
  | some row => exact .refl s
  | none =>
    have hfetch := onlyReads_fetch s
    dsimp only
    cases hf : s.fetch with
    | mk answer s' =>
      rw [hf] at hfetch
      cases answer with
      | error e => exact hfetch
      | ok row => exact ⟨hfetch.lent, hfetch.closed, hfetch.closing, hfetch.resources, hfetch.calls⟩

theorem onlyReads_unlessLent {α : Type} {request : RowStream → Except DataError α × RowStream}
    {s : RowStream} (h : OnlyReads s (request s).2) : OnlyReads s (s.unlessLent request).2 := by
  unfold unlessLent
  by_cases hlent : s.lent
  · rw [if_pos hlent]
    exact .refl s
  · rw [if_neg hlent]
    exact h

/-- **One request** only reads. -/
theorem onlyReads_perform (s : RowStream) (q : RowRequest) : OnlyReads s (s.perform q).2 := by
  have hpeek : OnlyReads s s.hasNext.2 := onlyReads_unlessLent (onlyReads_peek s)
  have hfetch : OnlyReads s s.next.2 := onlyReads_unlessLent (onlyReads_fetch s)
  cases q with
  | hasNext => exact hpeek
  | isEmpty => exact hpeek
  | nextRow =>
    show OnlyReads s s.nextRow.2
    unfold nextRow
    cases hnext : s.next with
    | mk answer s' =>
      rw [hnext] at hfetch
      rcases answer with e | _ | row <;> exact hfetch
  | next => exact hfetch
  | element iterator => exact hfetch

/-! ## Closed streams -/

/-- A stream that has been closed: the row that had been read ahead is gone. -/
structure Ended (s : RowStream) : Prop where
  idle : s.lent = false
  closed : s.closed = true
  exhausted : s.exhausted = true
  pending : s.pending = none

/-- **One action** on a closed stream changes nothing, and is answered as when no rows are left. -/
theorem Ended.act {s : RowStream} (h : Ended s) (a : StreamAction) :
    s.act a = (a.replyWhenClosed, s) := by
  have direct {α : Type} (request : RowStream → Except DataError α × RowStream) :
      s.unlessLent request = request s := if_neg (by rw [h.idle]; exact Bool.false_ne_true)
  have hfetch : s.fetch = (.ok none, s) := by
    unfold fetch
    rw [h.pending]
    exact if_pos h.exhausted
  have hpeek : s.peek = (.ok false, s) := by
    unfold peek
    rw [h.pending]
    dsimp only
    rw [hfetch]
    show (Except.ok false, { s with pending := none }) = _
    rw [← h.pending]
  cases a with
  | request q =>
    cases q with
    | hasNext =>
      rw [RowStream.act, perform, hasNext, direct, hpeek]
      rfl
    | isEmpty =>
      rw [RowStream.act, perform, hasNext, direct, hpeek]
      rfl
    | nextRow =>
      rw [RowStream.act, perform, nextRow, next, direct, hfetch]
      rfl
    | next =>
      rw [RowStream.act, perform, next, direct, hfetch]
      rfl
    | element iterator =>
      rw [RowStream.act, perform, next, direct, hfetch]
      rfl
  | close =>
    have hshut : s.shut = (.ok (), s) := if_pos h.closed
    rw [RowStream.act, close, direct, hshut]
    rfl

/-- Dropping a closed stream does nothing. -/
theorem Ended.drop {s : RowStream} (h : Ended s) : s.drop = s := by
  rw [RowStream.drop, shut, if_pos h.closed]

/-! ## Whole lives -/

theorem actAll_cons (s : RowStream) (a : StreamAction) (actions : List StreamAction) :
    s.actAll (a :: actions) = ((s.act a).1 :: ((s.act a).2.actAll actions).1,
      ((s.act a).2.actAll actions).2) := rfl

theorem actAll_append (s : RowStream) (before after : List StreamAction) :
    s.actAll (before ++ after) = ((s.actAll before).1 ++ ((s.actAll before).2.actAll after).1,
      ((s.actAll before).2.actAll after).2) := by
  induction before generalizing s with
  | nil => rfl
  | cons a before ih =>
    rw [List.cons_append, actAll_cons, actAll_cons, ih]
    rfl

theorem length_actAll (s : RowStream) (actions : List StreamAction) :
    (s.actAll actions).1.length = actions.length := by
  induction actions generalizing s with
  | nil => rfl
  | cons a actions ih => rw [actAll_cons, List.length_cons, List.length_cons, ih]

/-- An action is answered by the stream as the actions before it have left it. -/
theorem getElem?_actAll (s : RowStream) (before : List StreamAction) (a : StreamAction)
    (after : List StreamAction) :
    (s.actAll (before ++ a :: after)).1[before.length]? = some ((s.actAll before).2.act a).1 := by
  rw [actAll_append, List.getElem?_append_right (Nat.le_of_eq (length_actAll s before)),
    length_actAll, Nat.sub_self, actAll_cons]
  rfl

/-- Until it is told to close, a stream only reads; by induction on the actions. -/
theorem onlyReads_actAll (s : RowStream) {actions : List StreamAction} (h : .close ∉ actions) :
    OnlyReads s (s.actAll actions).2 := by
  induction actions generalizing s with
  | nil => exact .refl s
  | cons a actions ih =>
    obtain ⟨ha, hactions⟩ := List.ne_and_not_mem_of_not_mem_cons h
    cases a with
    | request q => exact (onlyReads_perform s q).trans (ih _ hactions)
    | close => exact absurd rfl ha

/-- Nothing changes a closed stream; by induction on the actions. -/
theorem Ended.actAll {s : RowStream} (h : Ended s) (actions : List StreamAction) :
    (s.actAll actions).2 = s := by
  induction actions with
  | nil => rfl
  | cons a actions ih => rw [actAll_cons, h.act a, ih]

variable (c : Cursor) (resources : List Resource)

/-- Before it is told to close, a stream has only been read, and would close its cursor and its
resources. -/
theorem reading_ofCursor {before : List StreamAction} (h : .close ∉ before) :
    ∃ s, ((ofCursor c resources).actAll before).2 = s ∧ s.lent = false ∧
      (∀ call ∈ s.calls, call.isRead = true) ∧
        s.shut = (closingAnswer c.closing resources,
          { s with
            closed := true
            exhausted := true
            pending := none
            calls := (closingCalls resources).reverse ++ s.calls }) := by
  have hreads := onlyReads_actAll (ofCursor c resources) h
  obtain ⟨made, hmade, hread⟩ := hreads.calls
  rw [show (ofCursor c resources).calls = [] from rfl, List.append_nil] at hmade
  refine ⟨_, rfl, hreads.lent, hmade ▸ hread, ?_⟩
  rw [shut_of_open hreads.closed, hreads.closing, hreads.resources]
  rfl

/-- The first close makes the calls of closing, and the stream is closed behind it. -/
theorem act_first_close {before : List StreamAction} (h : .close ∉ before) :
    ∃ s', ((ofCursor c resources).actAll before).2.act .close =
        (.closed (closingAnswer c.closing resources), s') ∧ Ended s' ∧
      s'.calls =
        (closingCalls resources).reverse ++ ((ofCursor c resources).actAll before).2.calls := by
  obtain ⟨s, hs, hidle, -, hshut⟩ := reading_ofCursor c resources h
  rw [hs]
  refine ⟨s.shut.2, ?_, ?_, ?_⟩
  · have direct : s.close = s.shut := if_neg (by rw [hidle]; exact Bool.false_ne_true)
    rw [act, direct]
    exact congrArg (fun answer => (StreamReply.closed answer, s.shut.2)) (congrArg Prod.fst hshut)
  · rw [hshut]
    exact ⟨hidle, rfl, rfl, rfl⟩
  · rw [hshut]

/-- A stream that has been told to close is closed. -/
theorem ended_of_close {actions : List StreamAction} (h : .close ∈ actions) :
    Ended ((ofCursor c resources).actAll actions).2 := by
  obtain ⟨before, after, rfl, hbefore⟩ := List.eq_append_cons_of_mem h
  obtain ⟨s', hact, hended, -⟩ := act_first_close c resources hbefore
  rw [actAll_append, actAll_cons, hact]
  exact (hended.actAll after).symm ▸ hended

/-- The life of a stream over a cursor with resources registered behind it: these actions, and the
drop of the stream. -/
structure ClosesOnce (c : Cursor) (resources : List Resource) (actions : List StreamAction) :
    Prop where
  /-- The calls of the whole life, drop included, are calls that read, and behind them one close of
  the cursor and one of each resource in its order. -/
  complete : ∃ reads, (∀ call ∈ reads, call.isRead = true) ∧
    ((owningAll c resources).actAll actions).2.drop.calls.reverse = reads ++ closingCalls resources
  /-- The first close makes the calls of closing, and answers with the first stage that fails. -/
  first : ∀ before after, actions = before ++ .close :: after → .close ∉ before →
    ((owningAll c resources).actAll actions).1[before.length]? =
        some (.closed (closingAnswer c.closing resources)) ∧
      ((owningAll c resources).actAll (before ++ [.close])).2.calls.reverse =
        ((owningAll c resources).actAll before).2.calls.reverse ++ closingCalls resources
  /-- Behind a close the row that was read ahead is gone, requests are answered as when no rows are
  left, another close has nothing to do, and the stream stays as it is. -/
  later : ∀ before a after, actions = before ++ a :: after → .close ∈ before →
    ((owningAll c resources).actAll actions).1[before.length]? = some a.replyWhenClosed ∧
      ((owningAll c resources).actAll before).2.pending = none ∧
      ((owningAll c resources).actAll (before ++ [a])).2 =
        ((owningAll c resources).actAll before).2

/-- **Every stream closes once, and completely**: whatever is asked of it, whatever fails, and
whether it is told to close or only dropped. -/
theorem closesOnce (c : Cursor) (resources : List Resource) (actions : List StreamAction) :
    ClosesOnce c resources actions := by
  refine ⟨?_, ?_, ?_⟩
  · rw [owningAll_eq]
    -- the calls are those before the first close, or before the drop
    have life : ∃ before, .close ∉ before ∧
        ((ofCursor c resources).actAll actions).2.drop.calls =
          (closingCalls resources).reverse ++ ((ofCursor c resources).actAll before).2.calls := by
      by_cases hclose : .close ∈ actions
      · obtain ⟨before, after, rfl, hbefore⟩ := List.eq_append_cons_of_mem hclose
        obtain ⟨s', hact, hended, hcalls⟩ := act_first_close c resources hbefore
        refine ⟨before, hbefore, ?_⟩
        rw [(ended_of_close c resources hclose).drop, actAll_append, actAll_cons, hact]
        exact (congrArg calls (hended.actAll after)).trans hcalls
      · obtain ⟨s, hs, -, -, hshut⟩ := reading_ofCursor c resources hclose
        refine ⟨actions, hclose, ?_⟩
        rw [hs, drop, hshut]
    obtain ⟨before, hbefore, hcalls⟩ := life
    obtain ⟨s, hs, -, hreads, -⟩ := reading_ofCursor c resources hbefore
    rw [hs] at hcalls
    refine ⟨s.calls.reverse, fun call hcall => hreads call (List.mem_reverse.mp hcall), ?_⟩
    rw [hcalls, List.reverse_append, List.reverse_reverse]
  · rintro before after rfl hbefore
    rw [owningAll_eq]
    obtain ⟨s', hact, -, hcalls⟩ := act_first_close c resources hbefore
    refine ⟨?_, ?_⟩
    · rw [getElem?_actAll, hact]
    · rw [actAll_append, actAll_cons, hact]
      show s'.calls.reverse = _
      rw [hcalls, List.reverse_append, List.reverse_reverse]
  · rintro before a after rfl hbefore
    rw [owningAll_eq]
    have hended := ended_of_close c resources hbefore
    refine ⟨?_, hended.pending, ?_⟩
    · rw [getElem?_actAll, hended.act]
    · rw [actAll_append, actAll_cons, hended.act]
      rfl

end RowStream

end Stencil
