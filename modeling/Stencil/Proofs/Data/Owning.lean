import Stencil.Proofs.Data.Closing
import Mathlib.Data.List.Count
import Mathlib.Data.List.Nodup
import Mathlib.Data.List.TakeWhile

/-!
# Resources registered late

A resource may be registered with a stream at any time, also between requests and behind a close.
Closing is done once, and takes the resources that are there.  So a resource is closed when it has
been registered before the first close, or before the drop if there is none; a stream that has been
closed still takes resources, and never closes them.

- `HolderAction`, `RowStream.liveAll`: what is done with a stream in its life, registering included;
- `HolderAction.openPart`: what is done up to the first close;
- `RowStream.Serving`, `RowStream.Serving.live`: **the invariant** until the first close;
- `RowStream.closesRegistered`: **a resource is closed once, or never**: once exactly when it has
  been registered before the first close.
-/

namespace Stencil

/-- What the holder of a stream does with it: a request or a close, or one more resource. -/
inductive HolderAction where
  | act (a : StreamAction)
  | own (r : Resource)

namespace HolderAction

/-- Whether an action closes the stream. -/
def closes : HolderAction → Bool
  | .act .close => true
  | _ => false

/-- The resource that an action registers. -/
def resource? : HolderAction → Option Resource
  | .own r => some r
  | .act _ => none

/-- The resources that actions register, in their order, by which they have their numbers. -/
def registered (actions : List HolderAction) : List Resource := actions.filterMap resource?

/-- The actions up to the first close. -/
def openPart (actions : List HolderAction) : List HolderAction :=
  actions.takeWhile fun a => !a.closes

theorem registered_append (before after : List HolderAction) :
    registered (before ++ after) = registered before ++ registered after := List.filterMap_append

theorem closes_of_mem_openPart {actions : List HolderAction} {a : HolderAction}
    (h : a ∈ openPart actions) : a.closes = false := by
  have hopen := List.mem_takeWhile_imp h
  rwa [Bool.not_eq_true'] at hopen

/-- Actions close nothing, or behind their open part stands the first close. -/
theorem openPart_cases (actions : List HolderAction) :
    actions = openPart actions ∨
      ∃ a after, actions = openPart actions ++ a :: after ∧ a.closes = true := by
  have hsplit : openPart actions ++ actions.dropWhile (fun a => !a.closes) = actions :=
    List.takeWhile_append_dropWhile
  cases hrest : actions.dropWhile (fun a => !a.closes) with
  | nil =>
    rw [hrest, List.append_nil] at hsplit
    exact .inl hsplit.symm
  | cons a after =>
    have hne : actions.dropWhile (fun a => !a.closes) ≠ [] := by
      rw [hrest]
      exact List.cons_ne_nil _ _
    have hfirst := List.head_dropWhile_not (fun a : HolderAction => !a.closes) hne
    simp only [hrest, List.head_cons, Bool.not_eq_false'] at hfirst
    rw [hrest] at hsplit
    exact .inr ⟨a, after, hsplit.symm, hfirst⟩

end HolderAction

namespace RowStream

open HolderAction

/-- The stream behind an action. -/
def live (s : RowStream) : HolderAction → RowStream
  | .act a => (s.act a).2
  | .own r => s.owning r

/-- The stream behind actions. -/
def liveAll (s : RowStream) (actions : List HolderAction) : RowStream := actions.foldl live s

theorem liveAll_append (s : RowStream) (before after : List HolderAction) :
    s.liveAll (before ++ after) = (s.liveAll before).liveAll after := List.foldl_append

/-- How often a resource has been closed. -/
def closings (index : Nat) (s : RowStream) : Nat := s.calls.count (.closeResource index)

/-! ## Until the first close -/

/-- A stream that has not been closed: it has only been read, and would close these resources. -/
structure Serving (resources : List Resource) (s : RowStream) : Prop where
  idle : s.lent = false
  «open» : s.closed = false
  resources : s.resources = resources
  reads : ∀ call ∈ s.calls, call.isRead = true

/-- **One action** that does not close the stream. -/
theorem Serving.live {resources : List Resource} {s : RowStream} (h : Serving resources s)
    {a : HolderAction} (ha : a.closes = false) :
    Serving (resources ++ a.resource?.toList) (s.live a) := by
  cases a with
  | own r =>
    refine ⟨h.idle, h.open, ?_, h.reads⟩
    show s.resources ++ [r] = resources ++ [r]
    rw [h.resources]
  | act a =>
    cases a with
    | close => cases ha
    | request q =>
      have hreads := onlyReads_perform s q
      obtain ⟨made, hmade, hread⟩ := hreads.calls
      refine ⟨hreads.lent.trans h.idle, hreads.closed.trans h.open, ?_, fun call hcall => ?_⟩
      · show (s.perform q).2.resources = resources ++ []
        rw [hreads.resources, h.resources, List.append_nil]
      · change call ∈ (s.perform q).2.calls at hcall
        rw [hmade] at hcall
        exact (List.mem_append.mp hcall).elim (hread call) (h.reads call)

/-- Actions that do not close the stream; by induction on them. -/
theorem Serving.liveAll {resources : List Resource} {s : RowStream} (h : Serving resources s)
    {actions : List HolderAction} (hactions : ∀ a ∈ actions, a.closes = false) :
    Serving (resources ++ registered actions) (s.liveAll actions) := by
  induction actions generalizing resources s with
  | nil =>
    rw [show registered [] = [] from rfl, List.append_nil]
    exact h
  | cons a actions ih =>
    obtain ⟨ha, hrest⟩ := List.forall_mem_cons.mp hactions
    have hlive := ih (h.live ha) hrest
    rw [List.append_assoc] at hlive
    have hregistered : registered (a :: actions) = a.resource?.toList ++ registered actions := by
      unfold registered
      rw [List.filterMap_cons]
      cases a.resource? <;> rfl
    rw [hregistered]
    exact hlive

theorem serving_ofCursor (c : Cursor) : Serving [] (ofCursor c []) := ⟨rfl, rfl, rfl, nofun⟩

/-! ## Closing -/

/-- Among the calls of closing there is one for each resource. -/
theorem count_closingCalls (resources : List Resource) (index : Nat) :
    (closingCalls resources).count (.closeResource index) =
      if index < resources.length then 1 else 0 := by
  have hinjective : Function.Injective Call.closeResource := fun _ _ h => Call.closeResource.inj h
  have hne : Call.closeCursor ≠ .closeResource index := nofun
  rw [closingCalls, List.count_cons_of_ne hne, List.count_map_of_injective _ _ hinjective,
    List.nodup_range.count]
  exact if_congr List.mem_range rfl rfl

/-- A stream that has only been read closes each of its resources when it is closed. -/
theorem Serving.closings_shut {resources : List Resource} {s : RowStream}
    (h : Serving resources s) (index : Nat) :
    s.shut.2.closings index = if index < resources.length then 1 else 0 := by
  have hreads : s.calls.count (.closeResource index) = 0 :=
    List.count_eq_zero.mpr fun hcall => Bool.noConfusion (h.reads _ hcall)
  rw [shut_of_open h.open, closings, List.count_append, List.count_reverse, hreads, h.resources,
    count_closingCalls, Nat.add_zero]

/-- **One action** on a closed stream makes no call; it is still closed when it has taken one more
resource. -/
theorem Ended.live {s : RowStream} (h : Ended s) (a : HolderAction) :
    Ended (s.live a) ∧ (s.live a).calls = s.calls := by
  cases a with
  | own r => exact ⟨⟨h.idle, h.closed, h.exhausted, h.pending⟩, rfl⟩
  | act a =>
    rw [RowStream.live, h.act a]
    exact ⟨h, rfl⟩

/-- Nothing that is done with a closed stream makes a call; by induction on the actions. -/
theorem Ended.liveAll {s : RowStream} (h : Ended s) (actions : List HolderAction) :
    Ended (s.liveAll actions) ∧ (s.liveAll actions).calls = s.calls := by
  induction actions generalizing s with
  | nil => exact ⟨h, rfl⟩
  | cons a actions ih =>
    obtain ⟨hended, hcalls⟩ := h.live a
    exact (ih hended).imp_right (·.trans hcalls)

/-- The first close ends a stream. -/
theorem Serving.ended_live {resources : List Resource} {s : RowStream} (h : Serving resources s)
    {a : HolderAction} (ha : a.closes = true) :
    s.live a = s.shut.2 ∧ Ended s.shut.2 := by
  have hclose : s.close = s.shut := if_neg (by rw [h.idle]; exact Bool.false_ne_true)
  refine ⟨?_, ?_⟩
  · cases a with
    | own r => cases ha
    | act a =>
      cases a with
      | request q => cases ha
      | close => exact congrArg Prod.snd hclose
  · rw [shut_of_open h.open]
    exact ⟨h.idle, rfl, rfl, rfl⟩

/-- **A resource is closed once, or never.**  By the time a stream is dropped it has closed the
resources that were registered before the first close, each of them once, whatever else has been
done, and none of the others.  So all are closed exactly when none has been registered behind a
close. -/
theorem closesRegistered (c : Cursor) (actions : List HolderAction) :
    (∀ index, ((ofCursor c []).liveAll actions).drop.closings index =
      if index < (registered (openPart actions)).length then 1 else 0) ∧
    ((∀ index < (registered actions).length,
        ((ofCursor c []).liveAll actions).drop.closings index = 1) ↔
      registered actions = registered (openPart actions)) := by
  have hopen : Serving (registered (openPart actions))
      ((ofCursor c []).liveAll (openPart actions)) :=
    (serving_ofCursor c).liveAll fun _ => closes_of_mem_openPart
  have hcount (index : Nat) : ((ofCursor c []).liveAll actions).drop.closings index =
      if index < (registered (openPart actions)).length then 1 else 0 := by
    rw [← hopen.closings_shut index]
    rcases openPart_cases actions with heq | ⟨a, after, heq, ha⟩
    · rw [← heq]
      rfl
    · -- behind the first close nothing is called, and neither is it by the drop
      obtain ⟨hlive, hended⟩ := hopen.ended_live ha
      obtain ⟨hended', hcalls⟩ := hended.liveAll after
      have hlife : (ofCursor c []).liveAll actions =
          RowStream.liveAll ((ofCursor c []).liveAll (openPart actions)).shut.2 after :=
        calc (ofCursor c []).liveAll actions
            = (ofCursor c []).liveAll (openPart actions ++ a :: after) := by rw [← heq]
          _ = (((ofCursor c []).liveAll (openPart actions)).live a).liveAll after :=
              liveAll_append _ _ _
          _ = _ := by rw [hlive]
      rw [hlife, hended'.drop, closings, hcalls]
      rfl
  refine ⟨hcount, fun hall => ?_, fun heq index hindex => ?_⟩
  · -- the number of the first resource behind a close would be one that is never closed
    have hlength : (registered actions).length ≤ (registered (openPart actions)).length := by
      by_contra hlt
      have hone := hall _ (Nat.lt_of_not_le hlt)
      rw [hcount, if_neg (Nat.lt_irrefl _)] at hone
      cases hone
    rcases openPart_cases actions with heq | ⟨a, after, heq, -⟩
    · exact congrArg registered heq
    · have hregistered : registered actions =
          registered (openPart actions) ++ registered (a :: after) := by
        rw [← registered_append, ← heq]
      rw [hregistered, List.length_append] at hlength
      have hnone : registered (a :: after) = [] := List.eq_nil_of_length_eq_zero (by omega)
      rw [hregistered, hnone, List.append_nil]
  · rw [hcount, if_pos (heq ▸ hindex)]

/-- **A resource that is registered behind a close is never closed**, not even when its stream is
dropped. -/
theorem closings_late :
    let actions : List HolderAction := [.act .close, .own ⟨some "late", .ok ()⟩]
    let dropped := ((ofCursor (.ofRows ["id"] []) []).liveAll actions).drop
    (registered actions).length = 1 ∧ dropped.closings 0 = 0 ∧ dropped.calls = [.closeCursor] :=
  ⟨rfl, rfl, rfl⟩

end RowStream

end Stencil
