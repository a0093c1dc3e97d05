import Stencil.Proofs.Render.Chronicle

/-!
# Orderly chronicles

A section over a sequence stands in a chronicle like a pair of brackets: it begins when the sequence
is reached and ends when it is closed, and what stands in between is orderly again.  Behind a section
that fails there is nothing more but the ends of the sections around it, with the same failure.

- `Orderly`: **the grammar of chronicles**, with the iterations numbered in the order in which they
  begin;
- `Orderly.append`: one part behind the other, when the first one has not failed;
- `Orderly.within`, `Orderly.reached_of_closed`, `Orderly.ending_of_closed`,
  `Orderly.failed_of_pulled`: what the grammar says of single entries;
- `Closes`, `ClosedOnce`, `ClosesEach`: a sequence is closed once, behind all that its section does,
  and its failure ends the render;
- `ClosedOnce.behind`, `ClosedOnce.inside`, `Orderly.closedOnce_self`: where a section may stand;
- `Orderly.closesEach`: **in an orderly chronicle every sequence is closed once.**
-/

namespace Stencil

open Body

variable {around : Option Iteration} {n m : Nat} {es fs : List Entry} {r : Except Halt Unit}
  {i : Iteration} {written : Except Halt Unit} {closing : Except DataError Unit}

/-- A chronicle from the iteration with the number `n` on up to the one with the number `m`, inside
of an iteration if there is one, with what it comes to. -/
inductive Orderly : (around : Option Iteration) → (n : Nat) → List Entry → (m : Nat) →
    Except Halt Unit → Prop where
  | done {around : Option Iteration} {n : Nat} : Orderly around n [] n (.ok ())
  | failed {around : Option Iteration} {n : Nat} (h : Halt) : Orderly around n [] n (.error h)
  | wrote {around : Option Iteration} {n m : Nat} {es : List Entry} {r : Except Halt Unit}
    (text : String) (rest : Orderly around n es m r) : Orderly around n (.wrote text :: es) m r
  | asked {around : Option Iteration} {n m : Nat} {es : List Entry} {r : Except Halt Unit} (id : Nat)
    (rest : Orderly around n es m r) : Orderly around n (.asked id :: es) m r
  /-- Only the innermost section asks its sequence for elements.  When that fails, so does the part,
  though the body for the element before comes first. -/
  | pulled {i : Iteration} {n m : Nat} {es : List Entry} {r : Except Halt Unit}
    (failure : Option DataError) (rest : Orderly (some i) n es m r)
    (fails : ∀ e, failure = some e → ∃ h, r = .error h) :
    Orderly (some i) n (.pulled i failure :: es) m r
  /-- A section, and what follows it, which is nothing when the section fails. -/
  | iterated {around : Option Iteration} {n k m : Nat} {origin : Provenance} {inside es : List Entry}
    {written r : Except Halt Unit} {closing : Except DataError Unit}
    (body : Orderly (some ⟨n, origin⟩) (n + 1) inside k written) (rest : Orderly around k es m r)
    (stops : ∀ h, ending written closing = .error h → es = [] ∧ r = .error h) :
    Orderly around n
      (.reached ⟨n, origin⟩ :: (inside ++ .closed ⟨n, origin⟩ written closing :: es)) m r

namespace Orderly

/-- Nothing at all, which may be a failure. -/
theorem nothing : Orderly around n [] n r := by
  cases r with
  | ok a => exact .done
  | error h => exact .failed h

/-- One part behind the other; the first one has not failed. -/
theorem append (h : Orderly around n es m (.ok ())) {l : Nat} (h' : Orderly around m fs l r) :
    Orderly around n (es ++ fs) l r := by
  generalize hdone : (.ok () : Except Halt Unit) = done at h
  induction h with
  | done => exact h'
  | failed => cases hdone
  | wrote text _ ih => exact .wrote text (ih h' hdone)
  | asked id _ ih => exact .asked id (ih h' hdone)
  | pulled failure _ fails ih =>
    subst hdone
    refine .pulled failure (ih h' rfl) fun e he => ?_
    obtain ⟨h, hr⟩ := fails e he
    cases hr
  | iterated body _ stops _ ih =>
    subst hdone
    rw [List.cons_append, List.append_assoc]
    exact .iterated body (ih h' rfl) fun h hending => nomatch (stops h hending).2

/-! ## Single entries -/

/-- An iteration has one of the numbers of the part, or it is the one around it, whose sequence is
asked. -/
def Within (around : Option Iteration) (n m : Nat) (e : Entry) : Prop :=
  ∀ i, e.iteration? = some i →
    (n ≤ i.number ∧ i.number < m) ∨ ((∃ failure, e = .pulled i failure) ∧ around = some i)

theorem within (h : Orderly around n es m r) : n ≤ m ∧ ∀ e ∈ es, Within around n m e := by
  induction h with
  | done | failed => exact ⟨Nat.le_refl _, fun _ he => nomatch he⟩
  | wrote text _ ih | asked id _ ih =>
    refine ⟨ih.1, fun e he => ?_⟩
    rcases List.mem_cons.mp he with rfl | he
    · intro j hj
      cases hj
    · exact ih.2 e he
  | pulled failure _ _ ih =>
    refine ⟨ih.1, fun e he => ?_⟩
    rcases List.mem_cons.mp he with rfl | he
    · rintro j hj
      obtain rfl := Option.some.inj hj
      exact .inr ⟨⟨failure, rfl⟩, rfl⟩
    · exact ih.2 e he
  | @iterated around n k m origin inside es written r closing _ _ _ inner outer =>
    obtain ⟨hinner, hinside⟩ := inner
    obtain ⟨houter, hbehind⟩ := outer
    have own {j : Iteration} (hj : some ⟨n, origin⟩ = some j) : n ≤ j.number ∧ j.number < m := by
      obtain rfl := Option.some.inj hj
      exact ⟨Nat.le_refl n, Nat.lt_of_lt_of_le hinner houter⟩
    refine ⟨by omega, fun e he j hj => ?_⟩
    rcases List.mem_cons.mp he with rfl | he
    · exact .inl (own hj)
    rcases List.mem_append.mp he with he | he
    · rcases hinside e he j hj with h | ⟨-, hsome⟩
      · exact .inl (by omega)
      · exact .inl (own hsome)
    rcases List.mem_cons.mp he with rfl | he
    · exact .inl (own hj)
    · exact (hbehind e he j hj).imp_left fun h => by omega

/-- Only sequences that have been reached are closed. -/
theorem reached_of_closed (h : Orderly around n es m r) (hc : .closed i written closing ∈ es) :
    .reached i ∈ es := by
  induction h generalizing i written closing with
  | done | failed => cases hc
  | wrote _ _ ih | asked _ _ ih | pulled _ _ _ ih =>
    exact List.mem_cons_of_mem _ (ih (by simpa using hc))
  | iterated _ _ _ inner outer =>
    simp only [List.mem_cons, List.mem_append, reduceCtorEq, false_or] at hc
    rcases hc with hc | hc | hc
    · exact List.mem_cons_of_mem _ (List.mem_append_left _ (inner hc))
    · obtain ⟨rfl, -⟩ := Entry.closed.inj hc
      exact List.mem_cons_self ..
    · exact List.mem_cons_of_mem _ (List.mem_append_right _ (List.mem_cons_of_mem _ (outer hc)))

/-- All sequences that have been reached are closed. -/
theorem closed_of_reached (h : Orderly around n es m r) (hr : .reached i ∈ es) :
    ∃ written closing, .closed i written closing ∈ es := by
  induction h generalizing i with
  | done | failed => cases hr
  | wrote _ _ ih | asked _ _ ih | pulled _ _ _ ih =>
    obtain ⟨written, closing, hc⟩ := ih (by simpa using hr)
    exact ⟨written, closing, List.mem_cons_of_mem _ hc⟩
  | @iterated around n k m origin inside es written r closing _ _ _ inner outer =>
    simp only [List.mem_cons, List.mem_append, Entry.reached.injEq, reduceCtorEq, false_or] at hr
    rcases hr with rfl | hr | hr
    · exact ⟨written, closing, by simp⟩
    · obtain ⟨written', closing', hc⟩ := inner hr
      exact ⟨written', closing', by simp [hc]⟩
    · obtain ⟨written', closing', hc⟩ := outer hr
      exact ⟨written', closing', by simp [hc]⟩

/-- A failure of a section is the one that the whole part comes to. -/
theorem ending_of_closed (h : Orderly around n es m r) (hc : .closed i written closing ∈ es)
    {e : Halt} (he : ending written closing = .error e) : r = .error e := by
  induction h generalizing i written closing with
  | done | failed => cases hc
  | wrote _ _ ih | asked _ _ ih | pulled _ _ _ ih => exact ih (by simpa using hc) he
  | iterated _ _ stops inner outer =>
    simp only [List.mem_cons, List.mem_append, reduceCtorEq, false_or] at hc
    rcases hc with hc | hc | hc
    · -- the failure is carried through the section around it
      refine (stops e ?_).2
      rw [inner hc he]
      rfl
    · obtain ⟨-, rfl, rfl⟩ := Entry.closed.inj hc
      exact (stops e he).2
    · exact outer hc he

/-- A part in which a sequence fails to give an element fails. -/
theorem failed_of_pulled {e : DataError} (h : Orderly around n es m r)
    (hp : .pulled i (some e) ∈ es) : ∃ h, r = .error h := by
  induction h with
  | done | failed => cases hp
  | wrote _ _ ih | asked _ _ ih => exact ih (by simpa using hp)
  | pulled failure _ fails ih =>
    rcases List.mem_cons.mp hp with heq | hp
    · obtain ⟨-, hfailure⟩ := Entry.pulled.inj heq
      exact fails e hfailure.symm
    · exact ih hp
  | iterated _ _ stops inner outer =>
    simp only [List.mem_cons, List.mem_append, reduceCtorEq, false_or] at hp
    rcases hp with hp | hp
    · obtain ⟨h, rfl⟩ := inner hp
      exact ⟨h, (stops h rfl).2⟩
    · exact outer hp

end Orderly

/-! ## Closing once -/

/-- How a sequence is closed that has been reached: the entries in front of that, those between
reaching and closing it, and those behind. -/
structure Closes (i : Iteration) (before inside : List Entry) (written : Except Halt Unit)
    (closing : Except DataError Unit) (after : List Entry) (r : Except Halt Unit) : Prop where
  /-- It is neither reached nor asked nor closed before or after. -/
  outside : ∀ e ∈ before ++ after, e.iteration? ≠ some i
  /-- In between it is asked for elements, and nothing else. -/
  pulls : ∀ e ∈ inside, e.iteration? = some i → ∃ failure, e = .pulled i failure
  /-- When it fails to give one, so does the section. -/
  fails : ∀ e, .pulled i (some e) ∈ inside → ∃ h, written = .error h
  /-- The sections inside close their sequences before. -/
  nested : ∀ j, .reached j ∈ inside ↔ ∃ written closing, .closed j written closing ∈ inside
  /-- A failure of a section inside is what this one comes to. -/
  carried : ∀ j written' closing' h, .closed j written' closing' ∈ inside →
    ending written' closing' = .error h → written = .error h
  /-- When the section fails, so does the render, and nothing happens any more but that the
  sequences of the sections around are closed. -/
  stops : ∀ h, ending written closing = .error h →
    r = .error h ∧ ∀ e ∈ after, ∃ j closing', e = .closed j (.error h) closing'

/-- The section of an iteration closes its sequence once. -/
def ClosedOnce (entries : List Entry) (r : Except Halt Unit) (i : Iteration) : Prop :=
  ∃ before inside written closing after,
    entries = before ++ .reached i :: (inside ++ .closed i written closing :: after) ∧
      Closes i before inside written closing after r

/-- The sequences that are reached are closed once each, and no others are closed. -/
structure ClosesEach (entries : List Entry) (r : Except Halt Unit) : Prop where
  once : ∀ i, .reached i ∈ entries → ClosedOnce entries r i
  noOther : ∀ i written closing, .closed i written closing ∈ entries → .reached i ∈ entries

/-- A section behind entries of other iterations, or of none. -/
theorem ClosedOnce.behind (front : List Entry) (h : ClosedOnce es r i)
    (hfront : ∀ e ∈ front, e.iteration? ≠ some i) : ClosedOnce (front ++ es) r i := by
  obtain ⟨before, inside, written, closing, after, rfl, closes⟩ := h
  refine ⟨front ++ before, inside, written, closing, after, by simp, { closes with outside := ?_ }⟩
  rw [List.append_assoc]
  exact List.forall_mem_append.mpr ⟨hfront, closes.outside⟩

/-- A section inside another one: a failure of it is one of the section around, behind which there is
only the closing of that one's sequence. -/
theorem ClosedOnce.inside {j : Iteration} (h : ClosedOnce fs written i) (hother : i ≠ j)
    (hes : ∀ e ∈ es, e.iteration? ≠ some i)
    (stops : ∀ h, ending written closing = .error h → es = [] ∧ r = .error h) :
    ClosedOnce (.reached j :: (fs ++ .closed j written closing :: es)) r i := by
  obtain ⟨before, inside, written', closing', after, rfl, closes⟩ := h
  have hown : some j ≠ some i := fun h => hother (Option.some.inj h).symm
  refine ⟨.reached j :: before, inside, written', closing',
    after ++ .closed j written closing :: es, by simp, { closes with outside := ?_, stops := ?_ }⟩
  · intro e he
    simp only [List.cons_append, List.mem_cons, List.mem_append] at he
    rcases he with rfl | he | he | rfl | he
    · exact hown
    · exact closes.outside e (List.mem_append_left _ he)
    · exact closes.outside e (List.mem_append_right _ he)
    · exact hown
    · exact hes e he
  · intro h hending
    obtain ⟨rfl, hclosed⟩ := closes.stops h hending
    obtain ⟨rfl, rfl⟩ := stops h rfl
    refine ⟨rfl, fun e he => ?_⟩
    rcases List.mem_append.mp he with he | he
    · exact hclosed e he
    · exact ⟨_, _, List.mem_singleton.mp he⟩

namespace Orderly

/-- The entries of a part that has other numbers are those of other iterations. -/
theorem Within.ne {e : Entry} (h : Within around n m e) (hnumber : i.number < n ∨ m ≤ i.number)
    (hout : around ≠ some i) : e.iteration? ≠ some i := by
  intro he
  rcases h i he with ⟨h₁, h₂⟩ | ⟨-, hsome⟩
  · omega
  · exact hout hsome

/-- An iteration that begins in a part has one of its numbers. -/
theorem number_of_reached (h : Orderly around n es m r) (hr : .reached i ∈ es) :
    n ≤ i.number ∧ i.number < m := by
  rcases h.within.2 _ hr i rfl with h | ⟨hpulled, -⟩
  · exact h
  · obtain ⟨_, heq⟩ := hpulled
    cases heq

/-- A section that ends with the closing of its sequence closes it once. -/
theorem closedOnce_self {k : Nat} {origin : Provenance}
    (body : Orderly (some ⟨n, origin⟩) (n + 1) fs k written) (rest : Orderly around k es m r)
    (stops : ∀ h, ending written closing = .error h → es = [] ∧ r = .error h)
    (hout : around ≠ some ⟨n, origin⟩) :
    ClosedOnce (.reached ⟨n, origin⟩ :: (fs ++ .closed ⟨n, origin⟩ written closing :: es)) r
      ⟨n, origin⟩ := by
  refine ⟨[], fs, written, closing, es, rfl, ?_, ?_, ?_, ?_, ?_, ?_⟩
  · exact fun e he => (rest.within.2 e he).ne (.inl body.within.1) hout
  · intro e he hown
    rcases body.within.2 e he _ hown with ⟨hle, -⟩ | ⟨hpulled, -⟩
    · exact absurd hle (Nat.not_succ_le_self n)
    · exact hpulled
  · exact fun e he => body.failed_of_pulled he
  · intro j
    constructor
    · exact body.closed_of_reached
    · rintro ⟨_, _, hc⟩
      exact body.reached_of_closed hc
  · exact fun j _ _ h hc hending => body.ending_of_closed hc hending
  · intro h hending
    obtain ⟨rfl, rfl⟩ := stops h hending
    exact ⟨rfl, fun _ he => nomatch he⟩

/-- A sequence that is reached is closed once.  The induction is on the grammar; the numbers of the
iterations tell the entries of one section from those of all others. -/
theorem closedOnce (h : Orderly around n es m r) (hout : ∀ j, around = some j → j.number < n)
    (hr : .reached i ∈ es) : ClosedOnce es r i := by
  induction h generalizing i with
  | done | failed => cases hr
  | wrote text _ ih =>
    exact (ih hout (by simpa using hr)).behind [.wrote text] (by simp [Entry.iteration?])
  | asked id _ ih =>
    exact (ih hout (by simpa using hr)).behind [.asked id] (by simp [Entry.iteration?])
  | @pulled j n _ es _ failure rest _ ih =>
    have hr : .reached i ∈ es := by simpa using hr
    refine (ih hout hr).behind [.pulled j failure] (List.forall_mem_singleton.mpr ?_)
    -- the section around has begun before
    rintro ⟨⟩
    exact Nat.lt_irrefl _ (Nat.lt_of_lt_of_le (hout j rfl) (rest.number_of_reached hr).1)
  | @iterated around n k m origin inside es written r closing body rest stops inner outer =>
    have hle : n < k := body.within.1
    have hother {i : Iteration} (hi : n < i.number) : i ≠ ⟨n, origin⟩ := by
      rintro rfl
      exact Nat.lt_irrefl n hi
    simp only [List.mem_cons, List.mem_append, Entry.reached.injEq, reduceCtorEq, false_or] at hr
    rcases hr with rfl | hr | hr
    · -- the section itself
      exact closedOnce_self body rest stops fun hsome => Nat.lt_irrefl n (hout _ hsome)
    · -- a section inside
      obtain ⟨hlow, hhigh⟩ := body.number_of_reached hr
      have hinner := inner (fun j hj => Option.some.inj hj ▸ Nat.lt_succ_self n) hr
      refine hinner.inside (hother hlow) (fun e he => ?_) stops
      exact (rest.within.2 e he).ne (.inl hhigh) fun hsome => Nat.lt_asymm hlow (hout i hsome)
    · -- a section behind
      obtain ⟨hlow, -⟩ := rest.number_of_reached hr
      have hown : some (⟨n, origin⟩ : Iteration) ≠ some i := fun h =>
        hother (Nat.lt_of_lt_of_le hle hlow) (Option.some.inj h).symm
      have houter := outer (fun j hj => Nat.lt_trans (hout j hj) hle) hr
      have hfront : ∀ e ∈ .reached ⟨n, origin⟩ :: (inside ++ [.closed ⟨n, origin⟩ written closing]),
          e.iteration? ≠ some i := by
        intro e he
        simp only [List.mem_cons, List.mem_append, List.not_mem_nil, or_false] at he
        rcases he with rfl | he | rfl
        · exact hown
        · exact (body.within.2 e he).ne (.inr hlow) hown
        · exact hown
      simpa using houter.behind _ hfront

/-- **In an orderly chronicle every sequence is closed once.** -/
theorem closesEach (h : Orderly around n es m r) (hout : ∀ j, around = some j → j.number < n) :
    ClosesEach es r where
  once _ hr := h.closedOnce hout hr
  noOther _ _ _ hc := h.reached_of_closed hc

end Orderly

end Stencil
