import Stencil.Proofs.Render.Outline
import Stencil.Proofs.Render.Standing
import Stencil.Proofs.Render.Watched

/-!
# Well-formed for every value

Whether the markers of a template can be read and its sections nest does not depend on the value
that is rendered.  A body may be written once, for each element of a sequence, or only be scanned:
it comes to the same end, which is the one that its outline tells.

- `RenderError.isStructural`: the failures that a template alone is to blame for;
- `Quiet`: computations that stay where they are in the template;
- `Goes`: computations that end where they are told to, or fail as they are told;
- `Goes.repeating`, `Goes.conditional`: sections, however often their bodies are read;
- `Goes.step`: **one more marker**;
- `Template.write_structure`: **a template that has been rendered once never fails for its
  structure**, whatever the value.
-/

namespace Stencil

open Markup

/-- The failures that a template alone is to blame for. -/
def RenderError.isStructural : RenderError → Bool
  | .unexpectedEnd | .improperlyTerminated | .invalidMarker => true
  | .invalidClosingSection _ _ | .unmatchedSectionEnd _ | .unterminatedSection _ => true
  | _ => false

namespace Markup

/-- Whether a token includes a template. -/
def Token.includes : Token → Bool
  | .text _ => false
  | .marker m => m.kind = .include

/-- Tokens that include no template. -/
def Alone (ts : List Token) : Prop := ∀ token ∈ ts, token.includes = false

instance (ts : List Token) : Decidable (Alone ts) := inferInstanceAs (Decidable (∀ _ ∈ ts, _))

theorem Alone.kind_ne {ts : List Token} {m : Marker} (h : Alone ts) (hm : .marker m ∈ ts) :
    m.kind ≠ .include := of_decide_eq_false (h _ hm)

theorem Alone.suffix {ts ts' : List Token} (h : Alone ts) (hs : ts' <:+ ts) : Alone ts' :=
  fun token hm => h token (hs.subset hm)

end Markup

variable {σ α β : Type} {alone : Prop}

/-! ## Staying -/

/-- What a computation comes to that stays where it is in the template.  If it is `alone`, without
the text of another template, it does not fail for the structure. -/
inductive Stays (alone : Prop) (s : State σ) : Except Halt α × State σ → Prop where
  | answer {a : α} {s' : State σ} (hr : s'.reader = s.reader) (hs : s'.sections = s.sections) :
    Stays alone s (.ok a, s')
  | failure {halt : Halt} {s' : State σ}
    (h : alone → ∀ e, halt = .failed e → e.isStructural = false) : Stays alone s (.error halt, s')

/-- A computation that stays where it is. -/
def Quiet (alone : Prop) (c : Run σ α) : Prop := ∀ s, Stays alone s (c s)

namespace Quiet

theorem pure (a : α) : Quiet alone (Pure.pure a : Run σ α) := fun _ => .answer rfl rfl

theorem bind {c : Run σ α} {k : α → Run σ β} (hc : Quiet alone c)
    (hk : ∀ a, Quiet alone (k a)) : Quiet alone (c >>= k) := by
  intro s
  have first := hc s
  rw [Run.bind_apply]
  generalize c s = x at first
  cases first with
  | failure h => exact .failure h
  | @answer a s₁ hr hs =>
    have second := hk a s₁
    dsimp only
    generalize k a s₁ = y at second
    cases second with
    | failure h => exact .failure h
    | answer hr' hs' => exact .answer (hr'.trans hr) (hs'.trans hs)

theorem fail {e : RenderError} (h : e.isStructural = false) :
    Quiet alone (Run.fail e : Run σ α) := by
  intro s
  refine .failure fun _ e' heq => ?_
  rw [← Halt.failed.inj heq]
  exact h

theorem answered (x : Except DataError α) : Quiet alone (Run.answered x : Run σ α) := by
  cases x with
  | ok a => exact pure a
  | error e => exact fail rfl

theorem request (send : Streams → α × Streams) : Quiet alone (Run.request send : Run σ α) :=
  fun _ => .answer rfl rfl

theorem texts (job : Job) : Quiet alone (Run.texts job : Run σ (Option Bundle)) := by
  intro s
  unfold Run.texts
  split
  · exact .answer rfl rfl
  · split
    · exact .answer rfl rfl
    · split
      · exact .answer rfl rfl
      · refine .failure fun _ e heq => ?_
        rw [← Halt.failed.inj heq]
        rfl

theorem resolve (job : Job) (v : Value) (name : String) :
    Quiet alone (Body.resolve job v name : Run σ (Option Scalar)) := by
  unfold Body.resolve
  simp only [Run.unheard_bind]
  split
  · exact bind (texts job) fun _ => pure _
  · exact pure _
  · split
    · exact pure _
    · exact pure _
    · exact pure _
    · exact fail rfl

theorem next (e : Body.Elements) :
    Quiet alone (e.next : Run σ (Option (Except DataError Value) × Body.Elements)) := by
  unfold Body.Elements.next
  split
  · exact pure _
  · exact pure _
  · refine bind (request _) fun answer => ?_
    split <;> exact pure _

theorem bound (e : Body.Elements) : Quiet alone (e.bound : Run σ Nat) := by
  unfold Body.Elements.bound
  split
  · exact pure _
  · exact fun _ => .answer rfl rfl

theorem holds (found : Option Value) : Quiet alone (Body.holds found : Run σ Bool) := by
  unfold Body.holds
  simp only [Run.unheard_bind]
  split
  · exact pure _
  · exact pure _
  · exact pure _
  · split
    · refine bind ?_ fun answer => answered answer
      unfold Body.Elements.nonempty
      split
      · exact pure _
      · exact request _
    · exact pure _

variable [Sink σ]

theorem emit (muted : Bool) (text : String) : Quiet alone (Run.emit muted text : Run σ Unit) := by
  intro s
  cases muted <;> exact .answer rfl rfl

theorem separate (separator : Option String) (first muted : Bool) :
    Quiet alone (Body.separate separator first muted : Run σ Unit) := by
  unfold Body.separate
  split
  · exact emit muted _
  · exact pure _

theorem substitute (job : Job) (muted : Bool) (v : Value) (m : Marker) :
    Quiet alone (Body.substitute job muted v m : Run σ Unit) := by
  unfold Body.substitute
  refine bind (resolve job v m.name) fun found => ?_
  cases found with
  | none => exact pure _
  | some value => exact emit muted _

omit [Sink σ] in
/-- An included template is read by another reader.  Only what it fails for may be its own
structure. -/
theorem included (b : Bool → Value → Run σ Exit) (job : Job) (name : String) (muted : Bool)
    (v : Value) : Quiet False (Body.included b Body.reopen job name muted v) := by
  have opener (resolved : String) (kept : Option Reader) :
      Quiet False (Body.reopen resolved kept : Run σ Reader) := by
    cases kept with
    | some r => exact pure _
    | none =>
      intro s
      show Stays False s (Run.openReader .includeNotFound resolved s)
      rw [Body.openReader_apply]
      split
      · exact .answer rfl rfl
      · exact .failure nofun
  have template (resolved : String) (r : Reader) :
      Quiet False (Body.inTemplate b resolved r muted v) := by
    intro s
    rw [inTemplate_apply]
    split
    · exact .answer rfl rfl
    · exact .failure nofun
  have take : Quiet False (Body.takeReader name : Run σ (Option Reader)) := by
    intro s
    obtain ⟨kept, scopes, htake, -⟩ := Body.takeReader_apply name s
    rw [htake]
    exact .answer rfl rfl
  have keep (r : Reader) : Quiet False (Body.keepReader name r : Run σ Unit) := by
    intro s
    obtain ⟨scopes, hkeep, -⟩ := Body.keepReader_apply name r s
    rw [hkeep]
    exact .answer rfl rfl
  have look : Quiet False (get : Run σ (State σ)) := fun _ => .answer rfl rfl
  unfold Body.included
  simp only [Run.unheard_bind]
  refine bind look fun s => ?_
  split
  · exact pure _
  · unfold Body.entering
    simp only [Run.unheard_bind]
    refine bind take fun kept => bind look fun s => ?_
    split
    · exact fail rfl
    · exact bind (opener _ kept) fun r => bind (template _ r) keep

end Quiet

/-! ## Going on -/

/-- What a computation comes to that goes as it is told, from a reader and within sections: to an
answer behind the same tokens, or to a failure.  If it is `alone`, a failure for the structure is
the one that is told. -/
inductive Follows (alone : Prop) (r : Reader) (sections : List String) (told : Telling α) :
    Except Halt α × State σ → Prop where
  | answer {a : α} {ts : List Token} {s : State σ} (h : told = .ok (a, ts))
    (hr : r.ReadTo s.reader ts) (hs : s.sections = sections) :
    Follows alone r sections told (.ok a, s)
  | failure {halt : Halt} {s : State σ}
    (h : alone → ∀ e, halt = .failed e → e.isStructural → told = .error e) :
    Follows alone r sections told (.error halt, s)

/-- A computation that goes as it is told. -/
def Goes (alone : Prop) (r : Reader) (sections : List String) (told : Telling α)
    (c : Run σ α) : Prop :=
  ∀ s, s.reader = r → s.sections = sections → Follows alone r sections told (c s)

/-- A computation for bodies that goes as the outline tells. -/
def GoesByText (b : Bool → Value → Run σ Exit) : Prop :=
  ∀ {r : Reader}, r.Valid → ∀ (sections : List String) (muted : Bool) (v : Value),
    Goes (Alone r.tokens) r sections (outline r.failure sections [] r.tokens) (b muted v)

variable {r : Reader} {sections : List String}

/-- Reading on goes together with what has been read. -/
theorem Follows.trans {told : Telling α} {r' : Reader} {ts : List Token} (hr : r.ReadTo r' ts)
    {x : Except Halt α × State σ} (h : Follows alone r' sections told x) :
    Follows alone r sections told x := by
  cases h with
  | failure h => exact .failure h
  | answer h hr' hs => exact .answer h (hr.trans hr') hs

theorem Follows.failed {told : Telling α} {e : RenderError} {s : State σ} (h : told = .error e) :
    Follows alone r sections told (.error (.failed e), s) := by
  refine .failure fun _ e' heq _ => ?_
  rw [← Halt.failed.inj heq]
  exact h

/-- A failure that is not one for the structure. -/
theorem Follows.failed_other {told : Telling α} {e : RenderError} {s : State σ}
    (h : e.isStructural = false) : Follows alone r sections told (.error (.failed e), s) := by
  refine .failure fun _ e' heq hs => ?_
  rw [← Halt.failed.inj heq, h] at hs
  cases hs

namespace Goes

variable {told : Telling α}

theorem pure {ts : List Token} (h : r.Valid) (ht : r.tokens = ts) (a : α) :
    Goes alone r sections (.ok (a, ts)) (Pure.pure a : Run σ α) := by
  rintro s rfl hs
  subst ht
  exact .answer rfl (.refl h) hs

theorem mono {alone' : Prop} {c : Run σ α} (h : Goes alone r sections told c)
    (ha : alone' → alone) : Goes alone' r sections told c := by
  intro s hr hs
  have inner := h s hr hs
  generalize c s = x at inner ⊢
  cases inner with
  | answer h hr hs => exact .answer h hr hs
  | failure h => exact .failure fun h' => h (ha h')

theorem bind {c : Run σ α} {k : α → Run σ β} {next : α → List Token → Telling β}
    (h : Goes alone r sections told c)
    (hk : ∀ a ts r', told = .ok (a, ts) → r.ReadTo r' ts →
      Goes alone r' sections (next a ts) (k a)) :
    Goes alone r sections (andThen told next) (c >>= k) := by
  intro s hr hs
  have first := h s hr hs
  rw [Run.bind_apply]
  generalize c s = x at first
  cases first with
  | failure h =>
    refine .failure fun ha e heq hs => ?_
    rw [h ha e heq hs]
    rfl
  | @answer a ts s' htold hr' hs' =>
    rw [htold]
    exact (hk a ts s'.reader htold hr' s' rfl hs').trans hr'

/-- Behind a computation that stays where it is. -/
theorem behind {c : Run σ β} {k : β → Run σ α} (hc : Quiet alone c)
    (hk : ∀ a, Goes alone r sections told (k a)) : Goes alone r sections told (c >>= k) := by
  intro s hr hs
  have first := hc s
  rw [Run.bind_apply]
  generalize c s = x at first
  cases first with
  | failure h =>
    refine .failure fun ha e heq hs => ?_
    rw [h ha e heq] at hs
    cases hs
  | answer hr' hs' => exact hk _ _ (hr'.trans hr) (hs'.trans hs)

theorem inScope {c : Run σ α} (h : Goes alone r sections told c) (scope : Scope) :
    Goes alone r sections told (Run.inScope scope c) := by
  intro s hr hs
  have inner := h { s with scopes := scope :: s.scopes } hr hs
  rw [inScope_apply]
  generalize c { s with scopes := scope :: s.scopes } = x at inner
  cases inner with
  | failure h => exact .failure h
  | answer h hr hs => exact .answer h hr hs

theorem inSection {c : Run σ α} {name : String} (h : Goes alone r (name :: sections) told c) :
    Goes alone r sections told (Run.inSection name c) := by
  intro s hr hs
  have inner := h { s with sections := name :: s.sections } hr (congrArg (name :: ·) hs)
  rw [inSection_apply]
  generalize c { s with sections := name :: s.sections } = x at inner
  cases inner with
  | failure h => exact .failure h
  | answer h hr hs => exact .answer h hr (congrArg List.tail hs)

/-! ## Sections -/

variable {b : Bool → Value → Run σ Exit} {job : Job}

theorem closed (B : GoesByText b) (h : r.Valid) (name : String) (muted : Bool) (v : Value) :
    Goes (Alone r.tokens) r sections (Markup.behind r.failure sections name r.tokens)
      (Body.closed b name muted v) := by
  refine bind (B h sections muted v) fun exit ts r' _ hr => ?_
  cases exit with
  | sectionEnd => exact pure hr.valid hr.tokens_eq ()
  | endOfText => exact fun _ _ _ => .failed rfl

theorem scan (B : GoesByText b) (h : r.Valid) (name : String) :
    Goes (Alone r.tokens) r sections (Markup.behind r.failure sections name r.tokens)
      (Body.scan b name) :=
  inScope (closed B h name true (.own .null)) .discarding

/-- A body that is read again: what goes on behind it starts from the same place. -/
theorem again (B : GoesByText b) (h : r.Valid) {name : String} {muted : Bool} {v : Value}
    {separate k : Run σ Unit} (hsep : Quiet (Alone r.tokens) separate)
    (hk : ∀ r', r.ReadTo r' r.tokens → Goes (Alone r.tokens) r' sections
      (Markup.behind r.failure sections name r.tokens) k) :
    Goes (Alone r.tokens) r sections (Markup.behind r.failure sections name r.tokens)
      (Body.markIf true >>= fun _ => separate >>= fun _ =>
        Body.closed b name muted v >>= fun _ => Body.rewind >>= fun _ => k) := by
  intro s hr hs
  -- up to the end of the body the reader is ahead of a mark
  have body : Goes (Alone r.tokens) r.mark sections
      (Markup.behind r.failure sections name r.tokens)
      (separate >>= fun _ => Body.closed b name muted v) :=
    behind hsep fun _ => closed B h.mark name muted v
  have inner := body { s with reader := s.reader.mark } (congrArg Reader.mark hr) hs
  have hmark : (Body.markIf true : Run σ Unit) s = (.ok (), { s with reader := s.reader.mark }) :=
    rfl
  rw [Run.bind_apply, hmark]
  dsimp only
  rw [Run.bind_apply] at inner ⊢
  generalize separate { s with reader := s.reader.mark } = x at inner ⊢
  obtain ⟨answer, s₁⟩ := x
  cases answer with
  | error halt =>
    cases inner with
    | failure h => exact .failure h
  | ok _ =>
    dsimp only at inner ⊢
    rw [Run.bind_apply]
    generalize Body.closed b name muted v s₁ = x at inner ⊢
    cases inner with
    | failure h => exact .failure h
    | @answer _ ts s₂ _ hr₂ hs₂ =>
      have back := hr₂.reset
      exact (hk _ back { s₂ with reader := s₂.reader.reset } rfl hs₂).trans back

variable [Sink σ]

/-- The loop over the elements, by induction on its fuel.  The body has the same outline for each of
them. -/
theorem each (B : GoesByText b) (name : String) (separator : Option String) (muted : Bool)
    (fuel : Nat) :
    ∀ (first : Bool) (element : Except DataError Value) (rest : Body.Elements) {r : Reader},
      r.Valid →
        Goes (Alone r.tokens) r sections (Markup.behind r.failure sections name r.tokens)
          (Body.each b name separator muted fuel first element rest) := by
  induction fuel with
  | zero =>
    intro first element rest r _ s _ _
    exact .failure nofun
  | succ fuel ih =>
    intro first element rest r h
    unfold Body.each
    simp only [Body.pull_silent]
    refine behind (.answered element) fun v => behind (.next rest) fun next => ?_
    obtain ⟨following, rest'⟩ := next
    cases following with
    | none =>
      refine behind (.pure ()) fun _ => behind (.separate separator first muted) fun _ => ?_
      rw [bind_pure_unit]
      exact closed B h name muted _
    | some element =>
      refine again B h (.separate separator first muted) fun r' hr => ?_
      have next := ih false element rest' hr.valid
      rw [hr.failure_eq, hr.tokens_eq] at next
      exact next

theorem iterated (B : GoesByText b) (h : r.Valid) (name : String) (separator : Option String)
    (muted : Bool) (e : Body.Elements) :
    Goes (Alone r.tokens) r sections (Markup.behind r.failure sections name r.tokens)
      (Body.iterated b name separator muted e) := by
  unfold Body.iterated
  simp only [Body.pull_silent]
  refine behind (.bound e) fun fuel => behind (.next e) fun next => ?_
  obtain ⟨first, rest⟩ := next
  cases first with
  | none => exact scan B h name
  | some element => exact inScope (each B name separator muted fuel true element rest h) _

/-- Closing a sequence fails for its data only. -/
theorem sequence (B : GoesByText b) (h : r.Valid) (name : String) (separator : Option String)
    (muted : Bool) (e : Body.Elements) :
    Goes (Alone r.tokens) r sections (Markup.behind r.failure sections name r.tokens)
      (Body.sequence b name separator muted e) := by
  intro s hr hs
  have elements := iterated B h name separator muted e s hr hs
  rw [Body.sequence_apply]
  generalize Body.iterated b name separator muted e s = x at elements
  cases elements with
  | failure h => exact .failure h
  | @answer _ ts s' htold hr' hs' =>
    dsimp only
    cases (e.closing s'.streams).1 with
    | ok _ => exact .answer htold hr' hs'
    | error e => exact .failed_other rfl

theorem repeating (B : GoesByText b) (h : r.Valid) (m : Marker) (muted : Bool) (v : Value) :
    Goes (Alone r.tokens) r sections
      (Markup.behind r.failure (m.name :: sections) m.name r.tokens)
      (Body.repeating b m muted v) := by
  refine inSection ?_
  split
  · exact scan B h m.name
  · exact scan B h m.name
  · split
    · exact sequence B h m.name m.separator muted _
    · exact fun _ _ _ => .failed_other rfl

omit [Sink σ] in
theorem conditional (B : GoesByText b) (h : r.Valid) (m : Marker) (inverted muted : Bool)
    (v : Value) :
    Goes (Alone r.tokens) r sections
      (Markup.behind r.failure (m.name :: sections) m.name r.tokens)
      (Body.conditional b m inverted muted v) := by
  refine inSection (behind (.holds _) fun holds => ?_)
  split
  · exact closed B h m.name muted _
  · exact closed B h m.name muted v
  · exact scan B h m.name

/-! ## Markers -/

omit [Sink σ] in
/-- A section, and the body goes on behind it. -/
theorem block {c : Run σ Unit} {told : Telling Unit} (h : Goes alone r sections told c) :
    Goes alone r sections (andThen told fun _ ts => .ok (none, ts))
      (c >>= fun _ => (Pure.pure none : Run σ (Option Exit))) :=
  bind h fun _ _ _ _ hr => pure hr.valid hr.tokens_eq none

/-- A marker comes to what is told of it, and does not fail for another template if none is included
by it or behind it. -/
theorem obey (B : GoesByText b) (h : r.Valid) (m : Marker) (muted : Bool) (v : Value) :
    Goes (m.kind ≠ .include ∧ Alone r.tokens) r sections (Markup.told r.failure sections m r.tokens)
      (Body.obey b Body.reopen job muted v m) := by
  unfold Body.obey Markup.told
  cases hk : m.kind with
  | comment => exact pure h rfl none
  | «variable» => exact behind (.substitute job muted v m) fun _ => pure h rfl none
  | repeating => exact block ((repeating B h m muted v).mono And.right)
  | conditional => exact block ((conditional B h m false muted v).mono And.right)
  | inverted => exact block ((conditional B h m true muted v).mono And.right)
  | «include» =>
    have bare : Goes False r sections (.ok (none, r.tokens))
        (Body.included b Body.reopen job m.name muted v >>= fun _ =>
          (Pure.pure none : Run σ (Option Exit))) :=
      behind (.included b job m.name muted v) fun _ => pure h rfl none
    exact bare.mono fun h => h.1 rfl
  | sectionEnd =>
    rintro s rfl hs
    dsimp only
    rw [Run.map_apply, sectionEnd_apply, hs]
    cases sections with
    | nil => exact .failed rfl
    | cons opened outer =>
      unfold closing
      dsimp only
      by_cases hname : opened = m.name
      · rw [if_pos hname, if_pos hname]
        exact pure h rfl _ s rfl hs
      · rw [if_neg hname, if_neg hname]
        exact .failed rfl

/-- **One more marker**: the outline goes from marker to marker as the render does. -/
theorem step (B : GoesByText b) : GoesByText (Body.step b Body.reopen job) := by
  intro r h sections muted v s hr hs
  have hreach := Nat.lt_succ_of_le (Reader.length_chars_ahead h)
  subst hr
  have copies := copyText_copies muted (s.reader.charsLeft + 1) h hreach
  rw [step_apply, outline_eq]
  generalize Run.copyText muted (s.reader.charsLeft + 1) s = x at copies ⊢
  cases copies with
  | stopped => exact .failed_other rfl
  | failure hm =>
    rw [hm]
    exact .failed rfl
  | @next m ts r w hm hr =>
    rw [hm]
    cases m with
    | none => exact .answer rfl hr hs
    | some m =>
      have hsuffix := (nextMarker_suffix hm).1 m rfl
      have alone : Alone s.reader.tokens → m.kind ≠ .include ∧ Alone r.tokens := by
        intro ha
        refine ⟨ha.kind_ne (hsuffix.subset (List.mem_cons_self ..)), ?_⟩
        rw [hr.tokens_eq]
        exact ha.suffix hr.suffix
      -- behind the marker the body ends, or goes on with what is told
      have rest : Goes (m.kind ≠ .include ∧ Alone r.tokens) r sections
          (further r.failure sections m r.tokens)
          (Body.obey b Body.reopen job muted v m >>= goOn b muted v) := by
        refine bind (obey B hr.valid m muted v) fun exit ts' r' _ hr' => ?_
        cases exit with
        | some exit => exact pure hr'.valid hr'.tokens_eq exit
        | none =>
          have body := B hr'.valid sections muted v
          rw [hr'.failure_eq, hr'.tokens_eq] at body
          exact body.mono fun h => h.2.suffix hr'.suffix
      have goes := rest.mono alone { s with reader := r, sink := w } rfl hs
      rw [hr.failure_eq, hr.tokens_eq] at goes
      exact goes.trans hr

end Goes

/-- A body goes as its outline tells, by induction on the fuel. -/
theorem Body.goesByText_write [Sink σ] (job : Job) (n : Nat) :
    GoesByText (write job n : Bool → Value → Run σ Exit) := by
  induction n with
  | zero =>
    intro r _ sections muted v s _ _
    exact .failure nofun
  | succ n ih => exact Goes.step ih

/-! ## Whole renders -/

/-- The resource of a name can be opened and read as a text. -/
def Loader.Holds (l : Loader) (name text : String) : Prop :=
  ∃ source, l.openNamed name = .ok source ∧ source.readText = .ok text

namespace Template

/-- The pieces of the text of a template. -/
def piecesOf (text : String) : Pieces := (Script.ofChars text.toList).pieces

variable {τ : Type} [Sink σ] [Sink τ]

/-- A render goes as the outline of its template tells. -/
theorem write_follows (t : Template) (o : RenderOptions) {v : Value} {start : Rendered σ}
    {text : String} (hv : v.isNull = false) (htext : start.shelf.loader.Holds t.name text) :
    match (t.write o v start).1 with
    | .ok () => ∃ found, outline (piecesOf text).failure [] [] (piecesOf text).tokens = .ok found
    | .error halt => Alone (piecesOf text).tokens → ∀ e, halt = .failed e → e.isStructural →
      outline (piecesOf text).failure [] [] (piecesOf text).tokens = .error e := by
  obtain ⟨source, hopen, hread⟩ := htext
  have hahead : (Reader.ofSource source).ahead = Script.ofChars text.toList :=
    Reader.script_of_readText hread
  have goes := (Goes.inScope (Body.goesByText_write (t.job o) (Body.fuelFor start.shelf.loader)
    (Reader.valid_ofSource source) [] false v.asDictionary) (.caching []))
      (t.started start source) rfl rfl
  rw [Reader.failure, Reader.tokens, hahead] at goes
  show match (t.writeBy Body.write o v start).1 with | .ok () => _ | .error halt => _
  rw [writeBy_apply, hv, writeDictionary_apply, hopen]
  dsimp only
  unfold behindOpening
  rw [if_neg Bool.false_ne_true, Run.bind_apply, Run.discard_apply]
  generalize Run.inScope (.caching []) (Body.write (t.job o) (Body.fuelFor start.shelf.loader) false
    v.asDictionary) (t.started start source) = x at goes ⊢
  cases goes with
  | failure h => exact h
  | @answer exit ts s h =>
    -- the sink is asked once more
    dsimp only
    rw [checkSink_apply]
    by_cases hfailed : (!false && Sink.failed s.sink) = true
    · rw [if_pos hfailed]
      intro _ e heq hs
      rw [← Halt.failed.inj heq] at hs
      cases hs
    · rw [if_neg hfailed]
      exact ⟨_, h⟩

/-- **A template that has been rendered once never fails for its structure**: with whatever value,
options and resources its text is rendered, as long as it includes no other one. -/
theorem write_structure {t t' : Template} {o o' : RenderOptions} {v v' : Value}
    {start : Rendered σ} {start' : Rendered τ} {text : String}
    (htext : start.shelf.loader.Holds t.name text)
    (htext' : start'.shelf.loader.Holds t'.name text) (halone : Alone (piecesOf text).tokens)
    (hv : v.isNull = false) (hok : (t.write o v start).1 = .ok ()) {e : RenderError}
    (he : (t'.write o' v' start').1 = .error (.failed e)) : e.isStructural = false := by
  have first := t.write_follows o hv htext
  rw [hok] at first
  obtain ⟨found, hfound⟩ := first
  cases hv' : v'.isNull with
  | true =>
    -- null is written without opening the template
    rw [write, writeBy_apply, if_pos hv'] at he
    cases he
  | false =>
    have second := t'.write_follows o' hv' htext'
    rw [he] at second
    cases hs : e.isStructural with
    | false => rfl
    | true =>
      have htold := second halone e rfl hs
      rw [hfound] at htold
      cases htold

/-- A list that is written, and a value in its place that is no list. -/
theorem write_structure_list :
    let t : Template := ⟨"page", "text/plain", none, none⟩
    let o : RenderOptions := ⟨⟨.default, 0⟩, none, []⟩
    let text := "[\x7b\x7b#of\x7d\x7d{{.}}{{^x}}-{{/x}},{{/of}}]"
    let start : Rendered String := ⟨"", ⟨[], []⟩, .ofLoader (.memory [("page", text)])⟩
    let v : Value := .record [("of", .list [.scalar (.text "a"), .null])]
    let v' : Value := .record [("of", .scalar (.text "a"))]
    (start.shelf.loader.Holds t.name text ∧ Alone (piecesOf text).tokens ∧ v.isNull = false ∧
      (t.write o v start).1 = .ok () ∧
      (t.write o v' start).1 = .error (.failed (.invalidSection "of"))) ∧
    (RenderError.invalidSection "of").isStructural = false := by
  intro t o text start v v'
  have htext : start.shelf.loader.Holds t.name text :=
    ⟨.ofText text, rfl, Source.readText_ofText text⟩
  have halone : Alone (piecesOf text).tokens := by decide +kernel
  have hok : (t.write o v start).1 = .ok () := by decide +kernel
  have he : (t.write o v' start).1 = .error (.failed (.invalidSection "of")) := by decide +kernel
  exact ⟨⟨htext, halone, rfl, hok, he⟩, write_structure htext htext halone rfl hok he⟩

end Template

end Stencil
