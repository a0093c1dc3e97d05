import Stencil.Proofs.Render.Scanning

/-!
# Bodies and their trees

A body is read once, marker by marker, and writes what its tree writes.  Where the body is read
again for the next element, the reader goes back to the same tokens; where it is scanned, the tree
writes nothing.

- `Mirrors`: a computation ends as a writing ends, with the same sink;
- `Renders`: a computation for bodies writes what their trees write, up to the tokens behind them;
- `Renders.repeating`: a repeating section, by the loop over its elements (`Renders.each`);
- `Renders.conditional`: a conditional or inverted section.
-/

namespace Stencil

open Markup

variable {σ : Type} {job : Job} {l : Loader} {texts : Option Bundle} {library : Library}
  {s : State σ} {ts ts' : List Token} {n : Nat} {b : Bool → Value → Run σ Exit}

/-- A computation ends as a writing ends: with the same failure and the same sink, or with an answer
that goes with the end of the writing. -/
inductive Mirrors {α : Type} (Q : α → State σ → Except RenderError Unit × σ → Prop) :
    Except Halt α × State σ → Except RenderError Unit × σ → Prop where
  | ok {a : α} {s : State σ} {out : Except RenderError Unit × σ} (h : Q a s out) :
    Mirrors Q (.ok a, s) out
  | error {e : RenderError} {s : State σ} : Mirrors Q (.error (.failed e), s) (.error e, s.sink)

namespace Mirrors

variable {α β : Type} {Q : α → State σ → Except RenderError Unit × σ → Prop}
  {R : β → State σ → Except RenderError Unit × σ → Prop}

theorem mono {Q' : α → State σ → Except RenderError Unit × σ → Prop} {x : Except Halt α × State σ}
    {y : Except RenderError Unit × σ} (h : Mirrors Q x y) (hQ : ∀ a s w, Q a s w → Q' a s w) :
    Mirrors Q' x y := by
  cases h with
  | ok h => exact .ok (hQ _ _ _ h)
  | error => exact .error

/-- Goes on behind a computation and behind a writing, after a failure of neither. -/
theorem bind {c : Run σ α} {k : α → Run σ β} {d e : Writing σ Unit}
    {w : σ} (h : Mirrors Q (c s) (d w))
    (hk : ∀ a s', c s = (.ok a, s') → Q a s' (d w) → Mirrors R (k a s') ((d >>= fun _ => e) w)) :
    Mirrors R ((c >>= k) s) ((d >>= fun _ => e) w) := by
  rw [Run.bind_apply]
  cases hc : c s with
  | mk x s' =>
    rw [hc] at h
    cases x with
    | ok a =>
      cases h with
      | ok h => exact hk a s' hc h
    | error halt =>
      -- the writing has failed as well, and neither goes on
      rw [Run.bind_apply]
      generalize d w = y at h
      cases h
      exact .error

end Mirrors

/-! ## Writings -/

section

variable [Sink σ] {w : σ}

theorem check_ok (h : Sink.failed w = false) : Writing.check w = (.ok (), w) := by
  rw [Writing.check, h]
  rfl

/-- A body asks the sink first. -/
theorem writeAll_failed (scene : Scene σ) (h : Sink.failed w = true) (nodes : List Node)
    (v : Value) :
    Node.writeAll scene nodes v w = (.error .sinkFailed, w) := by
  have hcheck : Writing.check w = (.error .sinkFailed, w) := by
    rw [Writing.check, h]
    rfl
  cases nodes with
  | nil =>
    rw [Node.writeAll]
    exact hcheck
  | cons node rest => rw [Node.writeAll, Run.bind_apply, hcheck]

theorem writeAll_cons (scene : Scene σ) (h : Sink.failed w = false) (node : Node)
    (rest : List Node) (v : Value) :
    Node.writeAll scene (node :: rest) v w =
      (Node.write scene node v >>= fun _ => Node.writeAll scene rest v) w := by
  rw [Node.writeAll, Run.bind_apply, check_ok h]

/-- The sink behind a separator. -/
def separated (separator : Option String) (first : Bool) (w : σ) : σ :=
  match first, separator with
  | false, some text => Sink.write w text
  | _, _ => w

theorem separate_apply (separator : Option String) (first : Bool) (s : State σ) :
    Body.separate separator first false s =
      (.ok (), { s with sink := separated separator first s.sink }) := by
  cases first <;> cases separator <;> rfl

/-- What goes on comes behind its separator, unless it is the first. -/
theorem behind_ok_apply (separator : Option String) (first : Bool) (next : Writing σ Unit)
    (w : σ) :
    Writing.behind (if first then none else separator) (.ok next) w =
      next (separated separator first w) := by
  cases first <;> cases separator <;> rfl

end

/-! ## Sections -/

/-- An answer goes with a writing that has come to the same sink. -/
def Writes {α : Type} (job : Job) (l : Loader) (texts : Option Bundle) (ts : List Token) (_ : α)
    (s : State σ) (out : Except RenderError Unit × σ) : Prop :=
  out = (.ok (), s.sink) ∧ Stands job l texts s ts

/-- How a body ends: without a name at the end of a template, and otherwise behind the end marker of
the section, where the sink has been asked. -/
def Ends [Sink σ] (job : Job) (l : Loader) (texts : Option Bundle) (name : Option String)
    (ts : List Token) (exit : Exit) (s : State σ) (out : Except RenderError Unit × σ) : Prop :=
  out = Writing.check s.sink ∧ Stands job l texts s ts ∧
    match name with
    | none => exit = .endOfText
    | some _ => exit = .sectionEnd ∧ Sink.failed s.sink = false

/-- A computation for bodies writes what their trees write. -/
def Renders [Sink σ] (job : Job) (l : Loader) (texts : Option Bundle) (library : Library) (n : Nat)
    (b : Bool → Value → Run σ Exit) : Prop :=
  ∀ {s : State σ} {ts ts' : List Token} {nodes : List Node} {name : Option String} {v : Value},
    Sound job s → Stands job l texts s ts → need job s < n → Spells name ts nodes ts' →
      (∀ opened, name = some opened → s.sections.head? = some opened) → ¬ s.discards →
        v.isMultiPass → Mirrors (Ends job l texts name ts') (b false v s)
          (Node.writeAll (library.scene job texts s.active) nodes v s.sink)

/-- A body that is left out writes nothing. -/
theorem Passes.mirrors {α : Type} {a : α} {x : Except Halt α × State σ}
    (h : Passes job l texts s ts a x) :
    Mirrors (Writes job l texts ts) x ((pure () : Writing σ Unit) s.sink) := by
  obtain ⟨s', rfl, hsink, st'⟩ := h
  refine .ok ⟨?_, st'⟩
  rw [hsink]
  rfl

theorem Mirrors.inScope {α : Type} {c : Run σ α} {scope : Scope}
    {out : Except RenderError Unit × σ}
    (h : Mirrors (Writes job l texts ts) (c { s with scopes := scope :: s.scopes }) out) :
    Mirrors (Writes job l texts ts) (Run.inScope scope c s) out := by
  rw [inScope_apply]
  generalize c { s with scopes := scope :: s.scopes } = x at h
  cases h with
  | error => exact .error
  | ok h => exact .ok ⟨h.1, h.2.of_shelf h.2.faces rfl ⟨rfl, rfl⟩⟩

theorem Mirrors.inSection {α : Type} {c : Run σ α} {name : String}
    {out : Except RenderError Unit × σ}
    (h : Mirrors (Writes job l texts ts) (c { s with sections := name :: s.sections }) out) :
    Mirrors (Writes job l texts ts) (Run.inSection name c s) out := by
  rw [inSection_apply]
  generalize c { s with sections := name :: s.sections } = x at h
  cases h with
  | error => exact .error
  | ok h => exact .ok ⟨h.1, h.2.of_shelf h.2.faces rfl ⟨rfl, rfl⟩⟩

namespace Renders

variable [Sink σ] {nodes : List Node} {name : String} {v : Value}

theorem closed (R : Renders job l texts library n b) (h : Sound job s)
    (st : Stands job l texts s ts) (hn : need job s < n) (hs : Spells (some name) ts nodes ts')
    (hsec : s.sections.head? = some name) (hd : ¬ s.discards) (hv : v.isMultiPass) :
    Mirrors (Writes job l texts ts') (Body.closed b name false v s)
      (Node.writeAll (library.scene job texts s.active) nodes v s.sink) := by
  have body := R h st hn hs (fun _ heq => Option.some.inj heq ▸ hsec) hd hv
  unfold Body.closed
  rw [Run.bind_apply]
  generalize Node.writeAll (library.scene job texts s.active) nodes v s.sink = out at body
  generalize b false v s = x at body
  cases body with
  | error => exact .error
  | ok hends =>
    obtain ⟨hcheck, st', rfl, hsink⟩ := hends
    rw [check_ok hsink] at hcheck
    exact .ok ⟨hcheck, st'⟩

/-! ## Sequences -/

/-- The body of the last element. -/
theorem each_last (b : Bool → Value → Run σ Exit) (name : String) (separator : Option String)
    (fuel : Nat) (first : Bool) (v : Value) (s : State σ) :
    Body.each b name separator false (fuel + 1) first (.ok v) (.list []) s =
      (Body.closed b name false v.asDictionary >>= fun _ => (pure () : Run σ Unit))
        { s with sink := separated separator first s.sink } := by
  show ((Body.separate separator first false >>= fun _ =>
    Body.closed b name false v.asDictionary >>= fun _ => (pure () : Run σ Unit)) s) = _
  rw [Run.bind_apply, separate_apply]

/-- The body of an element before another one. -/
theorem each_more (b : Bool → Value → Run σ Exit) (name : String) (separator : Option String)
    (fuel : Nat) (first : Bool) (v : Value) (x : Except DataError Value)
    (rest : List (Except DataError Value)) (s : State σ) :
    Body.each b name separator false (fuel + 1) first (.ok v) (.list (x :: rest)) s =
      (Body.closed b name false v.asDictionary >>= fun _ => Body.rewind >>= fun _ =>
        Body.each b name separator false fuel false x (.list rest))
        { s with reader := s.reader.mark, sink := separated separator first s.sink } := by
  show ((Body.separate separator first false >>= fun _ =>
    Body.closed b name false v.asDictionary >>= fun _ => Body.rewind >>= fun _ =>
      Body.each b name separator false fuel false x (.list rest))
    { s with reader := s.reader.mark }) = _
  rw [Run.bind_apply, separate_apply]

omit [Sink σ] in
/-- Going back leads to the tokens that were ahead of the mark. -/
theorem faces_reset {s' : State σ} (hf : s.reader.Faces ts)
    (ha : After job { s with reader := s.reader.mark } s' s') : s'.reader.reset.Faces ts := by
  have hmarks : s'.reader.marks = s.reader.position :: s.reader.marks := ha.frame.reader.marks
  have hscript : s'.reader.reset.script = s.reader.script := by
    rw [Reader.script_reset, ha.frame.reader.script, Reader.script_mark]
  have hposition : s'.reader.reset.position = s.reader.position := by
    rw [Reader.reset, hmarks]
  obtain ⟨chars, hahead, htokens⟩ := hf
  refine ⟨chars, ?_, htokens⟩
  rw [Reader.ahead, hscript, hposition]
  exact hahead

/-- What a body writes for a value. -/
def writeFor (job : Job) (texts : Option Bundle) (library : Library) (active : List String)
    (nodes : List Node) (v : Value) : Writing σ Unit :=
  Node.writeAll (library.scene job texts active) nodes v.asDictionary

/-- What a body writes for elements, with the separator in front of all but the first. -/
def writeForAll (write : Value → Writing σ Unit) (separator : Option String) (first : Bool)
    (element : Except DataError Value) (rest : List (Except DataError Value)) : Writing σ Unit := do
  Writing.behind (if first then none else separator) (element.map write)
  (rest.map (Except.map write)).forM (Writing.behind separator)

theorem writeForAll_ok (write : Value → Writing σ Unit) (separator : Option String) (first : Bool)
    (v : Value) (rest : List (Except DataError Value)) (w : σ) :
    writeForAll write separator first (.ok v) rest w =
      (write v >>= fun _ => (rest.map (Except.map write)).forM (Writing.behind separator))
        (separated separator first w) := by
  rw [writeForAll, show (Except.ok v).map write = .ok (write v) from rfl, Run.bind_apply,
    Run.bind_apply, behind_ok_apply]

/-- The loop over the elements of a list or a series: each is written from the same tokens, up to the
first failure.  The induction is on the elements behind the first. -/
theorem each (R : Renders job l texts library n b) (L : Lockstep job n b b)
    (separator : Option String) (hs : Spells (some name) ts nodes ts') (active : List String)
    (rest : List (Except DataError Value)) :
    ∀ (fuel : Nat) (first : Bool) {element : Except DataError Value} {s : State σ}, Sound job s →
      Stands job l texts s ts → need job s < n → s.sections.head? = some name → ¬ s.discards →
      s.active = active → (∀ x, .ok x ∈ element :: rest → x.isMultiPass) → rest.length < fuel →
        Mirrors (Writes job l texts ts')
          (Body.each b name separator false fuel first element (.list rest) s)
          (writeForAll (writeFor job texts library active nodes) separator first element rest
            s.sink) := by
  induction rest with
  | nil =>
    intro fuel first element s h st hn hsec hd hactive hv hfuel
    obtain ⟨fuel, rfl⟩ : ∃ k, fuel = k + 1 := ⟨fuel - 1, by omega⟩
    cases element with
    | error e => exact .error
    | ok v =>
      have ha := (Twin.refl h).setSink (separated separator first s.sink)
      have st₁ : Stands job l texts { s with sink := separated separator first s.sink } ts :=
        st.of_shelf st.faces rfl ⟨rfl, rfl⟩
      have closed := R.closed ha.twin.left st₁ hn hs hsec hd
        (Value.isMultiPass_asDictionary (hv v (List.mem_cons_self ..)))
      rw [each_last, writeForAll_ok, ← hactive]
      refine .bind (d := writeFor job texts library s.active nodes v) closed fun _ s' _ hend => ?_
      rw [Run.bind_apply, hend.1]
      exact .ok ⟨rfl, hend.2⟩
  | cons x rest ih =>
    intro fuel first element s h st hn hsec hd hactive hv hfuel
    obtain ⟨fuel, rfl⟩ : ∃ k, fuel = k + 1 := ⟨fuel - 1, by omega⟩
    cases element with
    | error e => exact .error
    | ok v =>
      have hmark := (Twin.refl h).withReader (Reader.Same.mark (Twin.refl h).reader)
        (Reader.script_mark _)
      have ha := hmark.setSink (separated separator first s.sink)
      have st₁ : Stands job l texts
          { s with reader := s.reader.mark, sink := separated separator first s.sink } ts :=
        st.of_shelf st.faces rfl ⟨rfl, rfl⟩
      have closed := R.closed ha.twin.left st₁ hn hs hsec hd
        (Value.isMultiPass_asDictionary (hv v (List.mem_cons_self ..)))
      rw [each_more, writeForAll_ok, ← hactive]
      refine .bind (d := writeFor job texts library s.active nodes v) closed
        fun _ s₂ hclosed ⟨hend, st₂⟩ => ?_
      -- the reader goes back, and the next element follows behind the separator
      have hafter := ha.trans ((L.closed ha.twin hn name false _).diagonal hclosed)
      have hback := Lockstep.rewind_after hafter
      have st₃ : Stands job l texts { s₂ with reader := s₂.reader.reset } ts :=
        st₂.of_shelf (faces_reset st.faces hafter) rfl ⟨rfl, rfl⟩
      have hn₃ := Nat.lt_of_le_of_lt (hback.need_le h) hn
      have hsec₃ : s₂.sections.head? = some name := by
        rw [hback.frame.sections]
        exact hsec
      have hd₃ : ¬ State.discards { s₂ with reader := s₂.reader.reset } := by
        rw [State.discards, hback.frame.discarding]
        exact hd
      have next := ih fuel false hback.twin.left st₃ hn₃ hsec₃ hd₃
        (hback.frame.active.trans hactive) (fun y hy => hv y (List.mem_cons_of_mem _ hy))
        (Nat.lt_of_succ_lt_succ hfuel)
      rw [← hactive] at next
      have hthen : (writeFor job texts library s.active nodes v >>= fun _ =>
            ((x :: rest).map (Except.map (writeFor job texts library s.active nodes))).forM
              (Writing.behind separator)) (separated separator first s.sink) =
          writeForAll (writeFor job texts library s.active nodes) separator false x rest s₂.sink := by
        rw [Run.bind_apply, hend]
        rfl
      rw [hthen]
      exact next

/-- The body of a section for all elements of a list or a series. -/
theorem iterated (R : Renders job l texts library n b) (S : Scans job l texts n b)
    (L : Lockstep job n b b) (h : Sound job s) (st : Stands job l texts s ts) (hn : need job s < n)
    (separator : Option String) (hs : Spells (some name) ts nodes ts')
    (hsec : s.sections.head? = some name) {items : List (Except DataError Value)}
    (hv : ∀ x, .ok x ∈ items → x.isMultiPass) :
    Mirrors (Writes job l texts ts') (Body.iterated b name separator false (.list items) s)
      (Writing.joined separator
        (items.map (Except.map (writeFor job texts library s.active nodes))) s.sink) := by
  cases items with
  | nil => exact (S.scan h st hn hs hsec).mirrors
  | cons x rest =>
    have hpush : Sound job { s with scopes := .caching [] :: s.scopes } :=
      h.pushScope fun _ heq => (Scope.caching.inj heq).symm
    have st₁ : Stands job l texts { s with scopes := .caching [] :: s.scopes } ts :=
      st.of_shelf st.faces rfl ⟨rfl, rfl⟩
    have loop := R.each L separator hs s.active rest (rest.length + 2) true hpush st₁
      hn hsec (by simp [State.discards, Scope.isDiscarding]) rfl hv
      (Nat.lt_succ_of_lt (Nat.lt_succ_self _))
    show Mirrors _ (Run.inScope (.caching [])
      (Body.each b name separator false (rest.length + 2) true x (.list rest)) s) _
    exact Mirrors.inScope loop

/-- There is nothing to close behind a list or a series. -/
theorem sequence_list (b : Bool → Value → Run σ Exit) (name : String) (separator : Option String)
    (items : List (Except DataError Value)) (s : State σ) :
    Body.sequence b name separator false (.list items) s =
      Body.iterated b name separator false (.list items) s := by
  rw [Body.sequence_apply]
  cases Body.iterated b name separator false (.list items) s with
  | mk x s' => cases x <;> rfl

theorem repeating (R : Renders job l texts library n b) (S : Scans job l texts n b)
    (L : Lockstep job n b b) (h : Sound job s) (st : Stands job l texts s ts) (hn : need job s < n)
    {m : Marker} (hs : Spells (some m.name) ts nodes ts') (hv : v.isMultiPass) :
    Mirrors (Writes job l texts ts') (Body.repeating b m false v s)
      (Node.write (library.scene job texts s.active)
        (.block (.repeating m.separator) m.name nodes) v s.sink) := by
  have hpush := (Twin.refl h).setSections (m.name :: s.sections)
  have st₁ : Stands job l texts { s with sections := m.name :: s.sections } ts :=
    st.of_shelf st.faces rfl ⟨rfl, rfl⟩
  refine Mirrors.inSection ?_
  rw [Node.write]
  cases hfound : v.lookup (Body.pathOf m.name) with
  | none => exact (S.scan hpush.left st₁ hn hs rfl).mirrors
  | some found =>
    have hmulti := Value.isMultiPass_of_lookup _ hv hfound
    have written {items : List (Except DataError Value)} (hitems : found.items? = some items) :=
      sequence_list b m.name m.separator items _ ▸ R.iterated S L hpush.left st₁ hn m.separator hs
        rfl (Value.isMultiPass_of_items? hmulti hitems)
    cases found with
    | null => exact (S.scan hpush.left st₁ hn hs rfl).mirrors
    | list items => exact written rfl
    | series items => exact written rfl
    | stream id => cases hmulti
    | _ => exact .error

/-! ## Conditions -/

omit [Sink σ] in
theorem holds_apply {found : Value} (hv : found.isMultiPass) (s : State σ) :
    Body.holds (some found) s = (.ok found.isTrue, s) := by
  cases found with
  | stream id => cases hv
  | scalar x => cases x <;> rfl
  | list items => cases items <;> rfl
  | _ => rfl

/-- A conditional or inverted section writes its body, or leaves it out. -/
theorem conditional (R : Renders job l texts library n b) (S : Scans job l texts n b)
    (h : Sound job s) (st : Stands job l texts s ts) (hn : need job s < n) (hd : ¬ s.discards)
    {m : Marker} (hs : Spells (some m.name) ts nodes ts') (hv : v.isMultiPass) (inverted : Bool) :
    Mirrors (Writes job l texts ts') (Body.conditional b m inverted false v s)
      (Node.write (library.scene job texts s.active)
        (.block (if inverted then .inverted else .conditional) m.name nodes) v s.sink) := by
  have hpush := (Twin.refl h).setSections (m.name :: s.sections)
  have st₁ : Stands job l texts { s with sections := m.name :: s.sections } ts :=
    st.of_shelf st.faces rfl ⟨rfl, rfl⟩
  have skipped := (S.scan hpush.left st₁ hn hs rfl).mirrors
  have written {v : Value} (hv : v.isMultiPass) :=
    R.closed hpush.left st₁ hn hs rfl hd hv
  refine Mirrors.inSection ?_
  cases hfound : v.lookup (Body.pathOf m.name) with
  | none =>
    -- nothing stands for false, and an inverted section is written for the dictionary around it
    cases inverted with
    | false =>
      rw [if_neg Bool.false_ne_true, Node.write, hfound]
      exact skipped
    | true =>
      rw [if_pos rfl, Node.write, hfound]
      exact written hv
  | some found =>
    have hmulti := Value.isMultiPass_of_lookup _ hv hfound
    rw [Run.bind_apply, holds_apply hmulti]
    cases inverted with
    | false =>
      rw [if_neg Bool.false_ne_true, Node.write, hfound]
      dsimp only
      cases found.isTrue with
      | false => exact skipped
      | true => exact written (Value.isMultiPass_asDictionary hmulti)
    | true =>
      rw [if_pos rfl, Node.write, hfound]
      dsimp only
      cases found.isTrue with
      | false => exact written hv
      | true => exact skipped

end Renders

end Stencil
