import Stencil.Proofs.Input.Pointer
import Stencil.Proofs.Render.Cuts
import Stencil.Proofs.Render.Structure

/-!
# Reading is told by the text

A body may be written many times, once, or not at all, and its included templates may be read or left
out.  Whatever is made of it, writing a template from some place comes to the same end, at the same
place, and everything that has been put on a stack on the way has been taken off again.

- `State.Restored`: the stacks of a state as they were before;
- `Reader.Landed`: a reader behind some of the tokens ahead of another one;
- `Returns`: computations that leave the stacks as they were, and their reader behind whole tokens;
- `Returns.loops`: **a body that is read again and again** is read from the same mark;
- `Returns.write`: whole bodies come back;
- `Body.write_determined`: **two writes from one place of one text end alike**, whatever they write.
-/

namespace Stencil

open Markup

variable {σ α β : Type}

/-! ## Coming back -/

/-- A reader that has read some of the tokens ahead of another one. -/
def Reader.Landed (r r' : Reader) : Prop :=
  ∃ ts rest, r.Moved r' rest ∧ r.ahead.Cuts ts rest

theorem Reader.Landed.refl {r : Reader} (h : r.Valid) : r.Landed r :=
  ⟨[], r.ahead, ⟨h, .refl r, rfl⟩, .nil _⟩

theorem Reader.Landed.trans {r r' r'' : Reader} (h : r.Landed r') (h' : r'.Landed r'') :
    r.Landed r'' := by
  obtain ⟨ts, rest, hmoved, hcuts⟩ := h
  obtain ⟨ts', rest', hmoved', hcuts'⟩ := h'
  rw [hmoved.ahead] at hcuts'
  exact ⟨ts ++ ts', rest', hmoved.trans hmoved', hcuts.trans hcuts'⟩

theorem Reader.Landed.valid {r r' : Reader} (h : r.Landed r') : r'.Valid := by
  obtain ⟨ts, rest, hmoved, -⟩ := h
  exact hmoved.valid

/-- Going back to a mark leads to where the mark was made. -/
theorem Reader.Landed.reset {r r' : Reader} (h : r.mark.Landed r') : r.Landed r'.reset := by
  obtain ⟨ts, rest, hmoved, -⟩ := h
  have hmarks : r'.marks = r.position :: r.marks := hmoved.onward.marks
  have hscript : r'.reset.script = r.script := by
    rw [script_reset, hmoved.onward.script, script_mark]
  have hposition : r'.reset.position = r.position := by
    simp only [Reader.reset, hmarks]
  refine ⟨[], r.ahead, ⟨hmoved.valid.reset, ⟨hscript, ?_, Nat.le_of_eq hposition.symm⟩, ?_⟩, .nil _⟩
  · simp only [Reader.reset, hmarks]
  · rw [ahead, hscript, hposition]
    rfl

/-- The stacks of a state, but for the marks of its reader. -/
structure State.SameStacks (s s' : State σ) : Prop where
  sections : s'.sections = s.sections
  active : s'.active = s.active
  scopes : s'.scopes.length = s.scopes.length

/-- All stacks are as they were before. -/
structure State.Restored (s s' : State σ) : Prop extends s.SameStacks s' where
  marks : s'.reader.marks = s.reader.marks

/-- What a computation leaves behind.  About a reader that is not valid nothing is said. -/
structure State.Returned (s s' : State σ) : Prop extends s.SameStacks s' where
  landed : s.reader.Valid → s.reader.Landed s'.reader

namespace State.Returned

variable {s s' s'' : State σ}

/-- Neither the reader nor the stacks matter to what has been done. -/
theorem of_eq (hr : s'.reader = s.reader) (h : s.SameStacks s') : s.Returned s' :=
  ⟨h, fun hv => hr.symm ▸ .refl hv⟩

theorem refl (s : State σ) : s.Returned s := .of_eq rfl ⟨rfl, rfl, rfl⟩

theorem trans (h : s.Returned s') (h' : s'.Returned s'') : s.Returned s'' where
  sections := h'.sections.trans h.sections
  active := h'.active.trans h.active
  scopes := h'.scopes.trans h.scopes
  landed hv := (h.landed hv).trans (h'.landed (h.landed hv).valid)

/-- Behind a mark the reader goes back to where it was. -/
theorem rewound (h : State.Returned { s with reader := s.reader.mark } s') :
    s.Returned { s' with reader := s'.reader.reset } :=
  ⟨⟨h.sections, h.active, h.scopes⟩, fun hv => (h.landed hv.mark).reset⟩

end State.Returned

/-! ## Copying -/

/-- A computation that changes the reader and the sink only. -/
def Run.Copying (c : Run σ α) : Prop :=
  ∀ s, ∃ r w, (c s).2 = { s with reader := r, sink := w }

namespace Run.Copying

theorem pure (a : α) : Copying (Pure.pure a : Run σ α) := fun s => ⟨s.reader, s.sink, rfl⟩

theorem bind {c : Run σ α} {k : α → Run σ β} (hc : Copying c) (hk : ∀ a, Copying (k a)) :
    Copying (c >>= k) := by
  intro s
  obtain ⟨r, w, hstate⟩ := hc s
  rw [bind_apply]
  generalize c s = x at hstate
  obtain ⟨answer, s₁⟩ := x
  obtain rfl : s₁ = { s with reader := r, sink := w } := hstate
  cases answer with
  | error e => exact ⟨r, w, rfl⟩
  | ok a => exact hk a _

theorem copies [Sink σ] : Compositional.Copies (OfFirst fun _ (c : Run σ _) => Copying c) where
  answer := pure
  halt _ := fun s => ⟨s.reader, s.sink, rfl⟩
  bind := bind
  readChar := by
    intro s
    unfold Run.readChar
    split <;> exact ⟨_, s.sink, rfl⟩
  readMarker := by
    intro s
    unfold Run.readMarker
    split <;> exact ⟨_, s.sink, rfl⟩
  checkSink muted := by
    intro s
    rw [checkSink_apply]
    split <;> exact ⟨s.reader, s.sink, rfl⟩
  emit muted text := by
    intro s
    cases muted <;> exact ⟨s.reader, _, rfl⟩

end Run.Copying

/-! ## Computations that come back -/

theorem Run.exists_of_bind_eq_ok {c : Run σ α} {k : α → Run σ β} {s s' : State σ} {b : β}
    (h : (c >>= k) s = (.ok b, s')) :
    ∃ a s₁, c s = (.ok a, s₁) ∧ k a s₁ = (.ok b, s') := by
  rw [Run.bind_apply] at h
  generalize c s = x at h
  obtain ⟨answer, s₁⟩ := x
  cases answer with
  | ok a => exact ⟨a, s₁, rfl, h⟩
  | error e => cases h

/-- A computation that leaves the stacks as they were, and its reader behind whole tokens, if it
comes to an answer. -/
def Returns (c : Run σ α) : Prop :=
  ∀ s a s', c s = (.ok a, s') → s.Returned s'

namespace Returns

theorem pure (a : α) : Returns (Pure.pure a : Run σ α) := by
  intro s b s' h
  obtain ⟨-, rfl⟩ := Prod.mk.inj h
  exact .refl s

theorem bind {c : Run σ α} {k : α → Run σ β} (hc : Returns c) (hk : ∀ a, Returns (k a)) :
    Returns (c >>= k) := by
  intro s b s' h
  obtain ⟨a, s₁, hrun, hrest⟩ := Run.exists_of_bind_eq_ok h
  exact (hc _ _ _ hrun).trans (hk a _ _ _ hrest)

theorem compositional : Compositional (OfFirst fun _ (c : Run σ _) => Returns c) where
  answer := pure
  halt _ := fun _ _ _ h => by cases h
  bind := bind

/-- A computation that asks sequences only. -/
theorem consulting {c : Run σ α} (hc : Consults c) : Returns c := by
  intro s a s' h
  rw [hc.of_eq h]
  exact .of_eq rfl ⟨rfl, rfl, rfl⟩

theorem look : Returns (get : Run σ (State σ)) := by
  intro s a s' h
  obtain ⟨-, rfl⟩ := Prod.mk.inj h
  exact .refl s

theorem texts (job : Job) : Returns (Run.texts job : Run σ (Option Bundle)) := by
  intro s a s' h
  obtain ⟨shelf, happly, -⟩ := texts_apply (congrArg Prod.fst h)
  rw [happly] at h
  obtain ⟨-, rfl⟩ := Prod.mk.inj h
  exact .of_eq rfl ⟨rfl, rfl, rfl⟩

/-- A scope is opened and closed again. -/
theorem inScope {c : Run σ α} (h : Returns c) (scope : Scope) : Returns (Run.inScope scope c) := by
  intro s a s' hrun
  rw [inScope_apply] at hrun
  cases hc : c { s with scopes := scope :: s.scopes } with
  | mk answer s₁ =>
    rw [hc] at hrun
    cases answer with
    | error e => cases hrun
    | ok a =>
      obtain ⟨-, rfl⟩ := Prod.mk.inj hrun
      have inner := h _ _ _ hc
      refine ⟨⟨inner.sections, inner.active, ?_⟩, inner.landed⟩
      rw [List.length_tail, inner.scopes]
      rfl

theorem inSection {c : Run σ α} (h : Returns c) (name : String) :
    Returns (Run.inSection name c) := by
  intro s a s' hrun
  rw [inSection_apply] at hrun
  cases hc : c { s with sections := name :: s.sections } with
  | mk answer s₁ =>
    rw [hc] at hrun
    cases answer with
    | error e => cases hrun
    | ok a =>
      obtain ⟨-, rfl⟩ := Prod.mk.inj hrun
      have inner := h _ _ _ hc
      refine ⟨⟨?_, inner.active, inner.scopes⟩, inner.landed⟩
      rw [inner.sections]
      rfl

/-! ## Sections -/

/-- A body that is read again: what goes on behind it starts from the same place. -/
theorem again {c : Run σ α} {k : Run σ β} (hc : Returns c) (hk : Returns k) :
    Returns (Body.markIf true >>= fun _ => c >>= fun _ => Body.rewind >>= fun _ => k) := by
  intro s b s' h
  obtain ⟨_, s₁, hmark, h⟩ := Run.exists_of_bind_eq_ok h
  obtain ⟨_, s₂, hbody, h⟩ := Run.exists_of_bind_eq_ok h
  obtain ⟨_, s₃, hrewind, h⟩ := Run.exists_of_bind_eq_ok h
  obtain ⟨-, rfl⟩ := Prod.mk.inj hmark
  obtain ⟨-, rfl⟩ := Prod.mk.inj hrewind
  exact (hc _ _ _ hbody).rewound.trans (hk _ _ _ h)

variable [Sink σ]

theorem emit (muted : Bool) (text : String) : Returns (Run.emit muted text : Run σ Unit) := by
  intro s a s' h
  cases muted with
  | true => exact pure () _ _ _ h
  | false =>
    obtain ⟨-, rfl⟩ := Prod.mk.inj h
    exact .of_eq rfl ⟨rfl, rfl, rfl⟩

/-- **A body that is read again and again** is read from the same mark. -/
theorem loops : Compositional.Loops (OfFirst fun _ (c : Run σ _) => Returns c) where
  toCompositional := compositional
  scanning h := h.inScope _
  inSection name h := h.inSection name
  holds found := consulting (Body.consults_holds found)
  caching h := h.inScope _
  bound e := consulting (Body.consults_bound e)
  pull e := by
    rw [Body.pull_silent]
    exact consulting (Body.consults_next e)
  again := again
  closing {b _ name separator muted e} h := by
    intro s a s' hrun
    rw [Body.sequence_apply] at hrun
    cases hbody : Body.iterated b name separator muted e s with
    | mk answer s₁ =>
      rw [hbody] at hrun
      cases answer with
      | error halt => cases hrun
      | ok _ =>
        obtain ⟨-, rfl⟩ := Prod.mk.inj hrun
        exact (h _ _ _ hbody).trans (.of_eq rfl ⟨rfl, rfl, rfl⟩)

/-! ## Included templates -/

omit [Sink σ] in
theorem takeReader (name : String) : Returns (Body.takeReader name : Run σ (Option Reader)) := by
  intro s kept s' h
  obtain ⟨kept', scopes, htake, hscopes, -⟩ := Body.takeReader_apply name s
  rw [htake] at h
  obtain ⟨-, rfl⟩ := Prod.mk.inj h
  refine .of_eq rfl ⟨rfl, rfl, ?_⟩
  simpa using congrArg List.length hscopes

omit [Sink σ] in
theorem keepReader (name : String) (r : Reader) :
    Returns (Body.keepReader name r : Run σ Unit) := by
  intro s a s' h
  obtain ⟨scopes, hkeep, hscopes, -⟩ := Body.keepReader_apply name r s
  rw [hkeep] at h
  obtain ⟨-, rfl⟩ := Prod.mk.inj h
  refine .of_eq rfl ⟨rfl, rfl, ?_⟩
  simpa using congrArg List.length hscopes

omit [Sink σ] in
theorem reopen (resolved : String) (kept : Option Reader) :
    Returns (Body.reopen resolved kept : Run σ Reader) := by
  cases kept with
  | some r => exact pure _
  | none =>
    intro s r s' h
    change Run.openReader .includeNotFound resolved s = _ at h
    rw [Body.openReader_apply] at h
    split at h
    · obtain ⟨-, rfl⟩ := Prod.mk.inj h
      exact .of_eq rfl ⟨rfl, rfl, rfl⟩
    · cases h

omit [Sink σ] in
/-- The template around an included one goes on with its own reader and its own sections. -/
theorem templates : Compositional.Templates (OfFirst fun _ (c : Run σ _) => Returns c) where
  toCompositional := compositional
  look h := bind look fun s => h s s ⟨rfl, rfl, rfl, rfl⟩
  reaching _ := pure ()
  supplied _ _ := pure ()
  takeReader := takeReader
  keepReader := keepReader
  inTemplate {b _ muted v} resolved r h := by
    intro s r' s' hrun
    rw [inTemplate_apply] at hrun
    cases hbody : b muted v (s.enter resolved r) with
    | mk answer inner =>
      rw [hbody] at hrun
      cases answer with
      | error e => cases hrun
      | ok exit =>
        obtain ⟨-, rfl⟩ := Prod.mk.inj hrun
        exact .of_eq rfl ⟨rfl, rfl, (h _ _ _ hbody).scopes⟩

/-! ## Markers -/

/-- Copying reads token by token, by induction on the fuel. -/
theorem landed_copyText (muted : Bool) (n : Nat) :
    ∀ {s s' : State σ} {found : Option Marker}, s.reader.Valid →
      Run.copyText muted n s = (.ok found, s') → s.reader.Landed s'.reader := by
  induction n with
  | zero =>
    intro s s' found _ h
    cases h
  | succ n ih =>
    intro s s' found hv h
    by_cases hsink : muted ∨ Sink.failed s.sink = false
    · have takes := copyText_takes n hv hsink
      generalize ht : s.reader.ahead.token = first at takes
      rw [h] at takes
      generalize hx : ((.ok found, s') : Except Halt (Option Marker) × State σ) = x at takes
      have one {r : Reader} {token : Token} {rest : Script} (hr : s.reader.Moved r rest)
          (ht : s.reader.ahead.token = .ok (some (token, rest))) : s.reader.Landed r :=
        ⟨[token], rest, hr, .cons ht (.nil rest)⟩
      cases takes with
      | failure => cases hx
      | finish hr =>
        obtain ⟨-, rfl⟩ := Prod.mk.inj hx
        -- at the end there is no token
        have hnil : s.reader.ahead = [] := Script.eq_nil_of_pieces (Script.pieces_end ht)
        exact ⟨[], [], hr, hnil ▸ .nil _⟩
      | marker hr hlt =>
        obtain ⟨-, rfl⟩ := Prod.mk.inj hx
        exact one hr ht
      | text hr hlt => exact (one hr ht).trans (ih hr.valid hx.symm)
      | brace hr =>
        obtain ⟨-, rfl⟩ := Prod.mk.inj hx
        exact one hr ht
    · -- the sink has failed before anything is read
      obtain ⟨rfl, hfailed⟩ : muted = false ∧ Sink.failed s.sink = true := by
        simpa using hsink
      rw [copyText_failed hfailed] at h
      cases h

theorem copyText (muted : Bool) (n : Nat) :
    Returns (Run.copyText muted n : Run σ (Option Marker)) := by
  intro s found s' h
  obtain ⟨r, w, hstate⟩ := Run.Copying.copies.copyText muted n s
  rw [h] at hstate
  obtain rfl : s' = { s with reader := r, sink := w } := hstate
  exact ⟨⟨rfl, rfl, rfl⟩, fun hv => landed_copyText muted n hv h⟩

/-- Writing a template leaves the stacks as they were. -/
theorem write (job : Job) (n : Nat) (muted : Bool) (v : Value) :
    Returns (Body.write job n muted v : Run σ Exit) := by
  have separate := compositional.separate (σ := σ) emit
  have resolve (v : Value) (name : String) :=
    compositional.resolve (σ := σ) (pure ()) (texts job) v name
  refine templates.write loops.toSections rfl copyText ?_ ?_ reopen n muted v
  · exact fun muted v m => compositional.substitute emit muted (resolve v m.name)
  · exact fun B name separator muted e =>
      loops.sequence (loops.closed B) (separate separator) name muted e

end Returns

/-! ## Two writes -/

namespace Reader

variable {r : Reader}

theorem position_le (h : r.Valid) : r.position ≤ r.script.text.length := by
  rw [script, Script.text_append, Script.text_ofChars, List.length_append]
  exact Nat.le_add_right_of_le h.position

/-- A place of a text is told by what is behind it. -/
theorem position_eq (h : r.Valid) : r.position = r.script.text.length - r.ahead.text.length := by
  have hle := position_le h
  rw [text_ahead h, List.length_drop]
  omega

end Reader

namespace Body

/-- The text ahead tells where writing ends, and with which exit. -/
theorem write_told [Sink σ] {job : Job} {n : Nat} {muted : Bool} {v : Value} {s s' : State σ}
    {exit : Exit} (hs : s.reader.Valid) (hrun : write job n muted v s = (.ok exit, s')) :
    ∃ ts, (Script.ofChars s.reader.ahead.text).Cuts ts (.ofChars s'.reader.ahead.text) ∧
      outline (Script.ofChars s.reader.ahead.text).pieces.failure s.sections []
          (Script.ofChars s.reader.ahead.text).pieces.tokens =
        .ok (exit, (Script.ofChars s'.reader.ahead.text).pieces.tokens) := by
  obtain ⟨ts, rest, hmoved, hcuts⟩ := (Returns.write job n muted v s exit s' hrun).landed hs
  have follows := goesByText_write job n hs s.sections muted v s rfl rfl
  rw [hrun] at follows
  cases follows with
  | answer htold hread hsections =>
    rw [← hread.tokens_eq] at htold
    change _ = Except.ok (exit, s'.reader.ahead.pieces.tokens) at htold
    rw [hmoved.ahead] at htold ⊢
    exact ⟨ts, hcuts.text, hcuts.outline_text htold⟩

/-- **Two writes from one place of one text end alike**, in whatever states, for whatever
dictionaries, into whatever sinks: with the same exit and at the same place, and everything that has
been put on a stack has been taken off again. -/
theorem write_determined {τ : Type} [Sink σ] [Sink τ] {job job' : Job} {n n' : Nat}
    {muted muted' : Bool} {v v' : Value} {s s₁ : State σ} {t t₁ : State τ} {exit exit' : Exit}
    (hs : s.reader.Valid) (ht : t.reader.Valid)
    (htext : s.reader.script.text = t.reader.script.text)
    (hposition : s.reader.position = t.reader.position) (hsections : s.sections = t.sections)
    (hrun : write job n muted v s = (.ok exit, s₁))
    (hrun' : write job' n' muted' v' t = (.ok exit', t₁)) :
    exit = exit' ∧ s₁.reader.position = t₁.reader.position ∧ s.Restored s₁ ∧ t.Restored t₁ := by
  have hahead : s.reader.ahead.text = t.reader.ahead.text := by
    rw [Reader.text_ahead hs, Reader.text_ahead ht, htext, hposition]
  obtain ⟨ts, hcuts, htold⟩ := write_told hs hrun
  obtain ⟨ts', hcuts', htold'⟩ := write_told ht hrun'
  rw [hahead] at hcuts htold
  rw [hsections, htold'] at htold
  obtain ⟨hexit, htokens⟩ := Prod.mk.inj (Except.ok.inj htold)
  -- the same number of tokens has been read, so that the same text is left
  have hpieces : ts ++ _ = ts' ++ _ :=
    congrArg Pieces.tokens (hcuts.pieces.symm.trans hcuts'.pieces)
  rw [htokens] at hpieces
  obtain rfl := List.append_cancel_right hpieces
  have hrest : s₁.reader.ahead.text = t₁.reader.ahead.text := by
    rw [← Script.text_ofChars s₁.reader.ahead.text, hcuts.unique hcuts', Script.text_ofChars]
  have returned := Returns.write job n muted v s exit s₁ hrun
  have returned' := Returns.write job' n' muted' v' t exit' t₁ hrun'
  obtain ⟨_, _, moved, -⟩ := returned.landed hs
  obtain ⟨_, _, moved', -⟩ := returned'.landed ht
  refine ⟨hexit.symm, ?_, ⟨returned.toSameStacks, moved.onward.marks⟩,
    ⟨returned'.toSameStacks, moved'.onward.marks⟩⟩
  rw [Reader.position_eq moved.valid, Reader.position_eq moved'.valid, hrest, moved.onward.script,
    moved'.onward.script, htext]

/-- The rest of a section's body, which is written for a list, and scanned with another mark
pending. -/
theorem write_determined_rest :
    let text := "\x7b\x7b#a\x7d\x7d<{{.}}>\x7b\x7b>note\x7d\x7d{{/a}}{{/of}}!"
    let job : Job := ⟨"page", .builtins, none, ⟨.default, 0⟩, none, []⟩
    let v : Value := .record [("a", .list [.scalar (.text "x"), .scalar (.text "y")])]
    let s : State String := ⟨"", .ofSource (.ofText text), .empty,
      .ofLoader (.memory [("note", "n")]), none, [.caching []], ["of"], ["page"]⟩
    let t : State Null := ⟨.null, (Reader.ofSource (.ofText text)).mark, .empty,
      .ofLoader (.memory []), none, [.discarding, .caching []], ["of"], ["page"]⟩
    let x : Except Halt Exit × State String := write job 5 false v s
    let y : Except Halt Exit × State Null := write job 7 true (.record []) t
    (s.reader.Valid ∧ t.reader.Valid ∧ s.reader.script.text = t.reader.script.text ∧
      s.reader.position = t.reader.position ∧ s.sections = t.sections ∧
      x = (.ok .sectionEnd, x.2) ∧ y = (.ok .sectionEnd, y.2)) ∧
    (Exit.sectionEnd = Exit.sectionEnd ∧ x.2.reader.position = y.2.reader.position ∧
      s.Restored x.2 ∧ t.Restored y.2) := by
  intro text job v s t x y
  have hs : s.reader.Valid := Reader.valid_ofSource _
  have ht : t.reader.Valid := (Reader.valid_ofSource _).mark
  have hx : x.1 = .ok .sectionEnd := by decide +kernel
  have hy : y.1 = .ok .sectionEnd := by decide +kernel
  have hrun : x = (.ok .sectionEnd, x.2) := by rw [← hx, Prod.eta]
  have hrun' : y = (.ok .sectionEnd, y.2) := by rw [← hy, Prod.eta]
  exact ⟨⟨hs, ht, rfl, rfl, rfl, hrun, hrun'⟩,
    write_determined hs ht rfl rfl rfl hrun hrun'⟩

end Body

end Stencil
