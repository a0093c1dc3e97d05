import Stencil.Proofs.Render.Standing
import Stencil.Proofs.Text.Cut
import Stencil.Proofs.Value.Lookup

/-!
# Bodies that are only scanned

A body is scanned for a dictionary without values, so that every section in it is scanned as well,
but for the inverted ones, whose bodies are read without being written.

- `Scans`: scanning comes to the token behind the end of the body, with the sink as it was;
- `Scans.scan`, `Scans.skipped`: a section whose body is left out;
- `Scans.step`: **one more marker**.
-/

namespace Stencil

open Markup

variable {σ : Type} {job : Job} {l : Loader} {texts : Option Bundle} {s : State σ}
  {ts ts' : List Token} {n : Nat} {b : Bool → Value → Run σ Exit}

/-! ## Looking up nothing -/

theorem Body.pathOf_ne_nil (name : String) : pathOf name ≠ [] := by
  unfold pathOf
  split
  · exact List.cons_ne_nil _ _
  · exact mt List.map_eq_nil_iff.mp (Text.splitAt_ne_nil '.' name.toList)

/-- The dictionary without values answers nothing but null. -/
theorem Value.lookup_own_null {path : List String} (h : path ≠ []) :
    (Value.own .null).lookup path = none ∨ (Value.own .null).lookup path = some .null := by
  obtain ⟨key, path, rfl⟩ := List.exists_cons_of_ne_nil h
  rw [lookup_cons, get?]
  split
  · cases path with
    | nil => exact .inr rfl
    | cons key' path => exact .inl (lookup_cons key' path .null)
  · exact .inl rfl

/-- A section over nothing is left out. -/
theorem Body.repeating_null [Sink σ] (b : Bool → Value → Run σ Exit) (m : Marker) (muted : Bool) :
    repeating b m muted (.own .null) = Run.inSection m.name (scan b m.name) := by
  unfold repeating
  rcases Value.lookup_own_null (pathOf_ne_nil m.name) with h | h <;> rw [h]

/-- Nothing does not hold. -/
theorem Body.conditional_null (b : Bool → Value → Run σ Exit) (m : Marker)
    (inverted muted : Bool) :
    conditional b m inverted muted (.own .null) = Run.inSection m.name
      (if inverted then closed b m.name muted (.own .null) else scan b m.name) := by
  unfold conditional
  rcases Value.lookup_own_null (pathOf_ne_nil m.name) with h | h <;> rw [h] <;>
    cases inverted <;> rfl

theorem Body.Reference.path_ne_nil {name : String} {keys : List String}
    (h : ofName name = .path keys) : keys ≠ [] := by
  unfold ofName at h
  split at h
  · cases h
  · cases h
  · rw [← path.inj h]
    exact pathOf_ne_nil name

/-- A variable of the dictionary without values stands for a text, or for nothing. -/
theorem Scene.resolve_own_null (scene : Scene σ) (name : String) :
    ∃ found, scene.resolve (.own .null) name = .ok found := by
  unfold resolve
  cases hr : Body.Reference.ofName name with
  | text key => exact ⟨_, rfl⟩
  | setting key => exact ⟨_, rfl⟩
  | path keys =>
    dsimp only
    rcases Value.lookup_own_null (Body.Reference.path_ne_nil hr) with h | h <;> rw [h] <;>
      exact ⟨_, rfl⟩

/-! ## Scanning -/

/-- A computation that leaves the sink as it was, and stands before these tokens. -/
def Passes {α : Type} (job : Job) (l : Loader) (texts : Option Bundle) (s : State σ)
    (ts : List Token) (a : α) (x : Except Halt α × State σ) : Prop :=
  ∃ s', x = (.ok a, s') ∧ s'.sink = s.sink ∧ Stands job l texts s' ts

/-- A computation for bodies that scans them: it comes to the token behind the end of the body, and
leaves the sink as it was. -/
def Scans (job : Job) (l : Loader) (texts : Option Bundle) (n : Nat)
    (b : Bool → Value → Run σ Exit) : Prop :=
  ∀ {s : State σ} {ts ts' : List Token} {nodes : List Node} {name : String},
    Sound job s → Stands job l texts s ts → need job s < n → Spells (some name) ts nodes ts' →
      s.sections.head? = some name → s.discards →
        Passes job l texts s ts' .sectionEnd (b true (.own .null) s)

namespace Scans

theorem closed (S : Scans job l texts n b) (h : Sound job s) (st : Stands job l texts s ts)
    (hn : need job s < n) {nodes : List Node} {name : String}
    (hs : Spells (some name) ts nodes ts') (hsec : s.sections.head? = some name)
    (hd : s.discards) :
    Passes job l texts s ts' () (Body.closed b name true (.own .null) s) := by
  obtain ⟨s', happly, hsink, st'⟩ := S h st hn hs hsec hd
  refine ⟨s', ?_, hsink, st'⟩
  unfold Body.closed
  rw [Run.bind_apply, happly]
  rfl

/-- The body of a section is left out. -/
theorem scan (S : Scans job l texts n b) (h : Sound job s) (st : Stands job l texts s ts)
    (hn : need job s < n) {nodes : List Node} {name : String}
    (hs : Spells (some name) ts nodes ts') (hsec : s.sections.head? = some name) :
    Passes job l texts s ts' () (Body.scan b name s) := by
  have hpush : Sound job { s with scopes := .discarding :: s.scopes } :=
    h.pushScope fun _ heq => nomatch heq
  have st₀ : Stands job l texts { s with scopes := .discarding :: s.scopes } ts :=
    st.of_shelf st.faces rfl ⟨rfl, rfl⟩
  obtain ⟨s', happly, hsink, st'⟩ := S.closed hpush st₀ hn hs hsec rfl
  refine ⟨{ s' with scopes := s'.scopes.tail }, ?_, hsink, ?_⟩
  · unfold Body.scan
    rw [inScope_apply, happly]
  · exact st'.of_shelf st'.faces rfl ⟨rfl, rfl⟩

/-- A section in which nothing is done but to leave out its body. -/
theorem skipped (S : Scans job l texts n b) (h : Sound job s) (st : Stands job l texts s ts)
    (hn : need job s < n) {nodes : List Node} {name : String}
    (hs : Spells (some name) ts nodes ts') :
    Passes job l texts s ts' () (Run.inSection name (Body.scan b name) s) := by
  have hpush := (Twin.refl h).setSections (name :: s.sections)
  have st₀ : Stands job l texts { s with sections := name :: s.sections } ts :=
    st.of_shelf st.faces rfl ⟨rfl, rfl⟩
  obtain ⟨s', happly, hsink, st'⟩ := S.scan hpush.left st₀ hn hs rfl
  refine ⟨{ s' with sections := s'.sections.tail }, ?_, hsink, ?_⟩
  · rw [inSection_apply, happly]
  · exact st'.of_shelf st'.faces rfl ⟨rfl, rfl⟩

/-- The end of a computation without an answer. -/
theorem passes_none {α : Type} {c : Run σ α} {a : α} (h : Passes job l texts s ts a (c s)) :
    Passes job l texts s ts none ((c >>= fun _ => (pure none : Run σ (Option Exit))) s) := by
  obtain ⟨s', happly, hsink, st'⟩ := h
  refine ⟨s', ?_, hsink, st'⟩
  rw [Run.bind_apply, happly]
  rfl

variable [Sink σ] {f : Body.Opener σ}

/-- A section within a body that is scanned. -/
theorem block (S : Scans job l texts n b) (h : Sound job s) (st : Stands job l texts s ts)
    (hn : need job s < n) {m : Marker} {kind : BlockKind} {nodes : List Node}
    (hk : BlockKind.ofMarker? m = some kind) (hs : Spells (some m.name) ts nodes ts')
    (hd : s.discards) :
    Passes job l texts s ts' none (Body.obey b f job true (.own .null) m s) := by
  have skipped := S.skipped h st hn hs
  have left : Passes job l texts s ts' ()
      (Body.conditional b m false true (.own .null) s) := by
    rw [Body.conditional_null]
    exact skipped
  -- an inverted section is read as if it were written, by the body that scans
  have entered : Passes job l texts s ts' ()
      (Body.conditional b m true true (.own .null) s) := by
    have hpush := (Twin.refl h).setSections (m.name :: s.sections)
    have st₀ : Stands job l texts { s with sections := m.name :: s.sections } ts :=
      st.of_shelf st.faces rfl ⟨rfl, rfl⟩
    obtain ⟨s', happly, hsink, st'⟩ := S.closed hpush.left st₀ hn hs rfl hd
    refine ⟨{ s' with sections := s'.sections.tail }, ?_, hsink, ?_⟩
    · rw [Body.conditional_null, if_pos rfl, inSection_apply, happly]
    · exact st'.of_shelf st'.faces rfl ⟨rfl, rfl⟩
  unfold BlockKind.ofMarker? at hk
  unfold Body.obey
  cases hkind : m.kind <;> rw [hkind] at hk
  case repeating =>
    rw [← Body.repeating_null b m true] at skipped
    exact passes_none skipped
  case conditional => exact passes_none left
  case inverted => exact passes_none entered
  all_goals cases hk

/-- A variable in a body that is scanned. -/
theorem substitute (st : Stands job l texts s ts) (m : Marker) :
    Passes job l texts s ts () (Body.substitute job true (.own .null) m s) := by
  obtain ⟨s', hresolve, hsink, st'⟩ := resolve_apply st (fun _ _ => pure ()) (.own .null) m.name
  obtain ⟨found, hfound⟩ :=
    (⟨job, texts, fun _ _ => pure ()⟩ : Scene σ).resolve_own_null m.name
  refine ⟨s', ?_, hsink, st'⟩
  unfold Body.substitute
  rw [Run.bind_apply, hresolve, hfound]
  cases found <;> rfl

/-- A marker in a body that is scanned ends the body, or the body goes on behind what the marker
stands for. -/
theorem obey (S : Scans job l texts n b) (h : Sound job s) (st : Stands job l texts s ts)
    (hn : need job s < n) {m : Marker} {nodes : List Node} {name : String}
    (hs : Spells (some name) (.marker m :: ts) nodes ts') (hsec : s.sections.head? = some name)
    (hd : s.discards) :
    Passes job l texts s ts' (some .sectionEnd) (Body.obey b f job true (.own .null) m s) ∨
      ∃ later nodes', Passes job l texts s later none (Body.obey b f job true (.own .null) m s) ∧
        Spells (some name) later nodes' ts' := by
  cases hs with
  | close hk =>
    exact .inl ⟨s, obey_sectionEnd hk hsec true _, rfl, st⟩
  | comment hk h =>
    refine .inr ⟨ts, _, ⟨s, ?_, rfl, st⟩, h⟩
    unfold Body.obey
    rw [hk]
    rfl
  | value hk h =>
    refine .inr ⟨ts, _, ?_, h⟩
    unfold Body.obey
    rw [hk]
    exact passes_none (substitute st m)
  | included hk h =>
    refine .inr ⟨ts, _, ?_, h⟩
    unfold Body.obey
    rw [hk]
    exact passes_none ⟨s, (included_apply ..).trans (if_pos hd), rfl, st⟩
  | block hk hbody hs => exact .inr ⟨_, _, S.block h st hn hk hbody hd, hs⟩

/-- Copying finds the next marker of a body that is scanned.  The induction is on the fuel, which
covers what can be reached. -/
theorem copyText (n : Nat) :
    ∀ {s : State σ} {ts : List Token} {nodes : List Node} {name : String},
      s.reader.Valid → s.reader.Faces ts → s.reader.reach < n → Spells (some name) ts nodes ts' →
        ∃ m later nodes' r, Run.copyText true n s = (.ok (some m), { s with reader := r }) ∧
          r.Faces later ∧ Spells (some name) (.marker m :: later) nodes' ts' := by
  induction n with
  | zero =>
    intro s ts nodes name _ _ hn
    exact absurd hn (Nat.not_lt_zero _)
  | succ n ih =>
    intro s ts nodes name hv hf hn hs
    have taken := copyText_token (n := n) hv hf (.inl rfl : true = true ∨ _)
    generalize hx : Run.copyText true (n + 1) s = x at taken
    cases taken with
    | finish => cases hs
    | brace =>
      cases hs with
      | text hs => cases hs
    | marker hv' hf' => exact ⟨_, _, _, _, rfl, hf', hs⟩
    | text hv' hf' hr =>
      cases hs with
      | text hs => exact ih hv' hf' (Nat.lt_of_lt_of_le hr (Nat.le_of_lt_succ hn)) hs

/-- **One more marker** of a body that is scanned. -/
theorem step (S : Scans job l texts n b) (L : Lockstep job n b b) (hf : Body.Opens job f) :
    Scans job l texts (n + 1) (Body.step b f job) := by
  intro s ts ts' nodes name h st hn hs hsec hd
  have hlen := Nat.lt_succ_of_le (Reader.length_chars_ahead h.valid)
  obtain ⟨m, later, nodes', r, hcopy, hfaces, hs'⟩ :=
    copyText (s.reader.charsLeft + 1) h.valid st.faces hlen hs
  have copied := (agree_copyText true _ (.refl h) hlen hlen).diagonal hcopy
  have ha := copied.after
  have st₁ : Stands job l texts { s with reader := r } later := st.of_shelf hfaces rfl ⟨rfl, rfl⟩
  have hn₁ := Nat.lt_of_lt_of_le (copied.need_lt rfl) (Nat.le_of_lt_succ hn)
  unfold Passes
  rw [step_apply, hcopy]
  dsimp only
  rw [Run.bind_apply]
  rcases S.obey (f := f) ha.twin.left st₁ hn₁ hs' hsec hd with
    ⟨s₂, hobey, hsink, st₂⟩ | ⟨rest, nodes₂, ⟨s₂, hobey, hsink, st₂⟩, hs₂⟩
  · rw [hobey]
    exact ⟨s₂, rfl, hsink, st₂⟩
  · have agree := L.obey hf hf ha.twin hn₁ (copied.target m rfl) true (.own .null)
    have hobeyed := agree.diagonal hobey
    have hn₂ := Nat.lt_of_le_of_lt (hobeyed.need_le ha.twin.left) hn₁
    have hsec₂ : s₂.sections.head? = some name := by
      rw [hobeyed.frame.sections]
      exact hsec
    have hd₂ : s₂.discards := by
      rw [State.discards, hobeyed.frame.discarding]
      exact hd
    obtain ⟨s₃, hrest, hsink₃, st₃⟩ := S hobeyed.twin.left st₂ hn₂ hs₂ hsec₂ hd₂
    rw [hobey]
    exact ⟨s₃, hrest, hsink₃.trans hsink, st₃⟩

end Scans

end Stencil
