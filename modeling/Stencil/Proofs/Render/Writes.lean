import Stencil.Proofs.Render.Outline
import Stencil.Proofs.Render.Standing
import Stencil.Proofs.Render.Watched

/-!
# Every write of a render

A render writes in three places only: the text between markers, separators, and variables.  So what
holds of all that the tokens of its templates may lead to holds of every piece that it writes,
however it goes on and however it ends.

- `Written`: a sink to which only pieces with some property have been written;
- `Leads`: what tokens with some property may lead to: pieces, and the tokens of included templates;
- `Reader.Offers`, `Offering`: **the invariant**: all that readers can still read are such tokens,
  also behind going back;
- `Permitted`, `Keeps`: computations that write such pieces, and keep the invariant;
- `Keeps.step`: **one more marker**;
- `Template.write_written`: **whatever a render writes is such a piece**.
-/

namespace Stencil

open Markup

variable {σ α β : Type} {p : String → Prop} {P : Token → Prop}

/-! ## What is written -/

section Written

variable [Sink σ] {w w' w'' : σ}

/-- A sink behind writing some pieces, all of them with this property. -/
def Written (p : String → Prop) (w w' : σ) : Prop :=
  ∃ pieces : List String, w' = pieces.foldl Sink.write w ∧ ∀ piece ∈ pieces, p piece

theorem Written.refl (w : σ) : Written p w w := ⟨[], rfl, fun _ h => nomatch h⟩

theorem Written.one (w : σ) {text : String} (h : p text) : Written p w (Sink.write w text) :=
  ⟨[text], rfl, fun _ hm => List.mem_singleton.mp hm ▸ h⟩

theorem Written.trans (h : Written p w w') (h' : Written p w' w'') : Written p w w'' := by
  obtain ⟨pieces, rfl, hp⟩ := h
  obtain ⟨pieces', rfl, hp'⟩ := h'
  refine ⟨pieces ++ pieces', List.foldl_append.symm, fun piece hm => ?_⟩
  rcases List.mem_append.mp hm with hm | hm
  · exact hp piece hm
  · exact hp' piece hm

/-- Copied characters are written one by one. -/
theorem written_copied (muted : Bool) {chars : List Char} (h : ∀ c ∈ chars, p (String.singleton c))
    (w : σ) : Written p w (copied muted chars w) := by
  cases muted with
  | true => exact .refl w
  | false =>
    refine ⟨chars.map String.singleton, ?_, fun piece hm => ?_⟩
    · rw [List.foldl_map]
      rfl
    · obtain ⟨c, hc, rfl⟩ := List.mem_map.mp hm
      exact h c hc

end Written

/-! ## What may be read -/

/-- What tokens with the property `P` may lead to: pieces with the property `p`, and included
templates of such tokens. -/
structure Leads (job : Job) (l : Loader) (P : Token → Prop) (p : String → Prop) : Prop where
  text : ∀ chars, P (.text chars) → ∀ c ∈ chars, p (String.singleton c)
  separator : ∀ m text, P (.marker m) → m.separator = some text → p text
  value : ∀ m value, P (.marker m) → m.kind = .variable →
    p ((Body.chain job m).foldl (Body.modified job) value).display
  included : ∀ m source, P (.marker m) → m.kind = .include →
    l.openNamed (resolveRelative job.template m.name) = .ok source →
      ∀ token ∈ (Reader.ofSource source).tokens, P token

/-- The tokens that a reader would read from a place of its script. -/
def Reader.tokensFrom (r : Reader) (n : Nat) : List Token :=
  (Script.pieces (r.script.drop n)).tokens

/-- A reader that reads only tokens with the property `P`, from where it is, and from each place
that it may go back to. -/
structure Reader.Offers (P : Token → Prop) (r : Reader) : Prop where
  valid : r.Valid
  tokens : ∀ n ∈ r.position :: 0 :: r.marks, ∀ token ∈ r.tokensFrom n, P token

namespace Reader.Offers

variable {r r' : Reader}

theorem ahead (h : r.Offers P) {token : Token} (ht : token ∈ r.tokens) : P token :=
  h.tokens _ (List.mem_cons_self ..) token ht

theorem ofSource {source : Source} (h : ∀ token ∈ (Reader.ofSource source).tokens, P token) :
    (Reader.ofSource source).Offers P := by
  refine ⟨valid_ofSource source, fun n hn => ?_⟩
  obtain rfl : n = 0 := by simpa [Reader.ofSource] using hn
  exact h

theorem mark (h : r.Offers P) : r.mark.Offers P := by
  refine ⟨h.valid.mark, fun n hn => ?_⟩
  rw [tokensFrom, script_mark]
  refine h.tokens n ?_
  simp only [Reader.mark, List.mem_cons] at hn ⊢
  rcases hn with hn | hn | hn | hn
  · exact .inl hn
  · exact .inr (.inl hn)
  · exact .inl hn
  · exact .inr (.inr hn)

/-- Going back leads to a mark, or to the start. -/
theorem reset (h : r.Offers P) : r.reset.Offers P := by
  refine ⟨h.valid.reset, fun n hn => ?_⟩
  rw [tokensFrom, script_reset]
  refine h.tokens n ?_
  cases hm : r.marks with
  | nil =>
    simp only [Reader.reset, hm, List.mem_cons] at hn ⊢
    rcases hn with hn | hn | hn
    · exact .inr (.inl hn)
    · exact .inr (.inl hn)
    · exact .inr (.inr hn)
  | cons first marks =>
    simp only [Reader.reset, hm, List.mem_cons] at hn ⊢
    rcases hn with hn | hn | hn
    · exact .inr (.inr (.inl hn))
    · exact .inr (.inl hn)
    · exact .inr (.inr (.inr hn))

theorem readTo (h : r.Offers P) {ts : List Token} (hr : r.ReadTo r' ts) : r'.Offers P := by
  refine ⟨hr.valid, fun n hn => ?_⟩
  rcases List.mem_cons.mp hn with rfl | hn
  · intro token ht
    have hts := hr.tokens_eq
    exact h.ahead (hr.suffix.subset (hts ▸ ht))
  · rw [tokensFrom, hr.onward.script]
    rw [hr.onward.marks] at hn
    exact h.tokens n (List.mem_cons_of_mem _ hn)

end Reader.Offers

/-- All readers of a state offer only tokens with the property `P`. -/
structure Offering (l : Loader) (P : Token → Prop) (s : State σ) : Prop where
  reader : s.reader.Offers P
  kept : ∀ readers, .caching readers ∈ s.scopes → ∀ e ∈ readers, e.2.Offers P
  loader : s.shelf.loader = l

/-! ## Computations -/

variable [Sink σ] {l : Loader} {job : Job} {Q : α → Prop} {R : β → Prop}

/-- What a computation comes to that writes pieces with the property `p` only: after an answer, all
readers still offer tokens with the property `P`. -/
inductive Permitted (l : Loader) (P : Token → Prop) (p : String → Prop) (Q : α → Prop) (w : σ) :
    Except Halt α × State σ → Prop where
  | answer {a : α} {s : State σ} (hw : Written p w s.sink) (hs : Offering l P s) (ha : Q a) :
    Permitted l P p Q w (.ok a, s)
  | failure {halt : Halt} {s : State σ} (hw : Written p w s.sink) :
    Permitted l P p Q w (.error halt, s)

/-- A computation that writes such pieces, from a state with such readers. -/
def Keeps (l : Loader) (P : Token → Prop) (p : String → Prop) (Q : α → Prop) (c : Run σ α) : Prop :=
  ∀ s, Offering l P s → Permitted l P p Q s.sink (c s)

/-- Anything may be answered. -/
abbrev Anything : α → Prop := fun _ => True

namespace Keeps

theorem pure {a : α} (ha : Q a) : Keeps l P p Q (Pure.pure a : Run σ α) :=
  fun s hs => .answer (.refl s.sink) hs ha

theorem bind {c : Run σ α} {k : α → Run σ β} (h : Keeps l P p Q c)
    (hk : ∀ a, Q a → Keeps l P p R (k a)) : Keeps l P p R (c >>= k) := by
  intro s hs
  have first := h s hs
  rw [Run.bind_apply]
  generalize c s = x at first
  cases first with
  | failure hw => exact .failure hw
  | @answer a s' hw hs' ha =>
    have second := hk a ha s' hs'
    dsimp only
    generalize k a s' = y at second
    cases second with
    | failure hw' => exact .failure (hw.trans hw')
    | answer hw' hs' hb => exact .answer (hw.trans hw') hs' hb

theorem fail (e : RenderError) : Keeps l P p Q (Run.fail e : Run σ α) :=
  fun s _ => .failure (.refl s.sink)

theorem compositional : Compositional (OfFirst fun _ (c : Run σ _) => Keeps l P p Anything c) where
  answer _ := pure trivial
  halt _ := fun s _ => .failure (.refl s.sink)
  bind h hk := bind h fun a _ => hk a

/-- A computation that asks sequences only. -/
theorem consulting {c : Run σ α} (hc : Consults c) : Keeps l P p Anything c := by
  intro s hs
  rw [show c s = ((c s).1, { s with streams := (c s).2.streams }) from Prod.ext rfl (hc s s rfl).2]
  cases (c s).1 with
  | ok a => exact .answer (.refl s.sink) ⟨hs.reader, hs.kept, hs.loader⟩ trivial
  | error e => exact .failure (.refl s.sink)

theorem emit (muted : Bool) {text : String} (h : p text) :
    Keeps l P p Anything (Run.emit muted text : Run σ Unit) := by
  intro s hs
  cases muted with
  | true => exact .answer (.refl s.sink) hs trivial
  | false => exact .answer (.one s.sink h) ⟨hs.reader, hs.kept, hs.loader⟩ trivial

theorem inSection {c : Run σ α} (h : Keeps l P p Q c) (name : String) :
    Keeps l P p Q (Run.inSection name c) := by
  intro s hs
  have inner := h { s with sections := name :: s.sections } ⟨hs.reader, hs.kept, hs.loader⟩
  rw [inSection_apply]
  generalize c { s with sections := name :: s.sections } = x at inner
  cases inner with
  | failure hw => exact .failure hw
  | answer hw hs ha => exact .answer hw ⟨hs.reader, hs.kept, hs.loader⟩ ha

/-- A scope that keeps no readers yet may be opened. -/
theorem inScope {c : Run σ α} (h : Keeps l P p Q c) {scope : Scope}
    (hscope : ∀ readers, scope = .caching readers → readers = []) :
    Keeps l P p Q (Run.inScope scope c) := by
  intro s hs
  have hpush : Offering l P { s with scopes := scope :: s.scopes } := by
    refine ⟨hs.reader, fun readers hr e he => ?_, hs.loader⟩
    rcases List.mem_cons.mp hr with heq | hr
    · rw [hscope readers heq.symm] at he
      cases he
    · exact hs.kept readers hr e he
  have inner := h _ hpush
  rw [inScope_apply]
  generalize c { s with scopes := scope :: s.scopes } = x at inner
  cases inner with
  | failure hw => exact .failure hw
  | answer hw hs ha =>
    refine .answer hw ⟨hs.reader, fun readers hr => ?_, hs.loader⟩ ha
    exact hs.kept readers (List.mem_of_mem_tail hr)

/-! ## Sections -/

theorem mark : Keeps l P p Anything (Body.markIf true : Run σ Unit) :=
  fun s hs => .answer (.refl s.sink) ⟨hs.reader.mark, hs.kept, hs.loader⟩ trivial

theorem rewind : Keeps l P p Anything (Body.rewind : Run σ Unit) :=
  fun s hs => .answer (.refl s.sink) ⟨hs.reader.reset, hs.kept, hs.loader⟩ trivial

theorem separate {separator : Option String} (h : ∀ text, separator = some text → p text)
    (first muted : Bool) :
    Keeps l P p Anything (Body.separate separator first muted : Run σ Unit) := by
  unfold Body.separate
  split
  · exact emit muted (h _ rfl)
  · exact pure trivial

/-- Closing a sequence writes nothing, also behind a failure of the body. -/
theorem loops : Compositional.Loops (OfFirst fun _ (c : Run σ _) => Keeps l P p Anything c) where
  toCompositional := compositional
  scanning h := h.inScope fun _ heq => nomatch heq
  inSection name h := h.inSection name
  holds found := consulting (Body.consults_holds found)
  caching h := h.inScope fun _ heq => (Scope.caching.inj heq).symm
  bound e := consulting (Body.consults_bound e)
  pull e := by
    rw [Body.pull_silent]
    exact consulting (Body.consults_next e)
  again h hk := bind mark fun _ _ => bind h fun _ _ => bind rewind fun _ _ => hk
  closing {b _ name separator muted e} h := by
    intro s hs
    have body := h s hs
    rw [Body.sequence_apply]
    generalize Body.iterated b name separator muted e s = x at body
    cases body with
    | failure hw => exact .failure hw
    | @answer _ s' hw hs' =>
      dsimp only
      cases (e.closing s'.streams).1 with
      | error e => exact .failure hw
      | ok _ => exact .answer hw ⟨hs'.reader, hs'.kept, hs'.loader⟩ trivial

variable {b : Bool → Value → Run σ Exit}

/-! ## Variables -/

theorem texts (job : Job) : Keeps l P p Anything (Run.texts job : Run σ (Option Bundle)) := by
  intro s hs
  cases hx : (Run.texts job s).1 with
  | ok found =>
    obtain ⟨shelf, happly, hloader⟩ := texts_apply hx
    rw [happly]
    exact .answer (.refl s.sink) ⟨hs.reader, hs.kept, hloader.trans hs.loader⟩ trivial
  | error halt =>
    rw [show Run.texts job s = (.error halt, (Run.texts job s).2) from Prod.ext hx rfl]
    refine .failure ?_
    rw [(texts_keeps job s).1]
    exact .refl s.sink

theorem substitute (L : Leads job l P p) {m : Marker} (hm : P (.marker m)) (hk : m.kind = .variable)
    (muted : Bool) (v : Value) :
    Keeps l P p Anything (Body.substitute job muted v m : Run σ Unit) := by
  unfold Body.substitute
  have consulting : Keeps l P p Anything (Run.notice .consulting : Run σ Unit) := pure trivial
  have found : Keeps l P p Anything (Body.resolve job v m.name : Run σ _) :=
    compositional.resolve consulting (texts job) v m.name
  refine bind found fun found _ => ?_
  cases found with
  | none => exact pure trivial
  | some value => exact emit muted (L.value m value hm hk)

/-! ## Included templates -/

theorem takeReader (name : String) :
    Keeps l P p (fun kept => ∀ r, kept = some r → r.Offers P)
      (Body.takeReader name : Run σ (Option Reader)) := by
  intro s hs
  obtain ⟨kept, scopes, htake, -, hbefore, hkept⟩ := Body.takeReader_apply name s
  rw [htake]
  refine .answer (.refl s.sink) ⟨hs.reader, fun readers hr e he => ?_, hs.loader⟩ fun r heq => ?_
  · obtain ⟨readers', hr', he'⟩ := hbefore e ⟨readers, hr, he⟩
    exact hs.kept readers' hr' e he'
  · obtain ⟨readers, hr, he⟩ := hkept r heq
    exact hs.kept readers hr _ he

theorem keepReader (name : String) {r : Reader} (h : r.Offers P) :
    Keeps l P p Anything (Body.keepReader name r : Run σ Unit) := by
  intro s hs
  obtain ⟨scopes, hkeep, -, hbefore⟩ := Body.keepReader_apply name r s
  rw [hkeep]
  refine .answer (.refl s.sink) ⟨hs.reader, fun readers hr e he => ?_, hs.loader⟩ trivial
  rcases hbefore e ⟨readers, hr, he⟩ with rfl | ⟨readers', hr', he'⟩
  · exact h
  · exact hs.kept readers' hr' e he'

theorem reopen {resolved : String} {kept : Option Reader}
    (hopen : ∀ source, l.openNamed resolved = .ok source →
      ∀ token ∈ (Reader.ofSource source).tokens, P token)
    (hkept : ∀ r, kept = some r → r.Offers P) :
    Keeps l P p (fun r => r.Offers P) (Body.reopen resolved kept : Run σ Reader) := by
  cases kept with
  | some r => exact pure (hkept r rfl).reset
  | none =>
    intro s hs
    show Permitted l P p _ s.sink (Run.openReader .includeNotFound resolved s)
    rw [Body.openReader_apply, hs.loader]
    cases ho : l.openNamed resolved with
    | error e => exact .failure (.refl s.sink)
    | ok source =>
      exact .answer (.refl s.sink) ⟨hs.reader, hs.kept, hs.loader⟩ (.ofSource (hopen source ho))

/-- The template around an included one goes on with its own reader. -/
theorem inTemplate (B : ∀ muted v, Keeps l P p Anything (b muted v)) (resolved : String)
    {r : Reader} (h : r.Offers P) (muted : Bool) (v : Value) :
    Keeps l P p (fun r => r.Offers P) (Body.inTemplate b resolved r muted v) := by
  intro s hs
  have body := B muted v (s.enter resolved r) ⟨h, hs.kept, hs.loader⟩
  rw [inTemplate_apply]
  generalize b muted v (s.enter resolved r) = x at body
  cases body with
  | failure hw => exact .failure hw
  | answer hw hs' => exact .answer hw ⟨hs.reader, hs'.kept, hs'.loader⟩ hs'.reader

theorem included (B : ∀ muted v, Keeps l P p Anything (b muted v)) {name : String}
    (hopen : ∀ source, l.openNamed (resolveRelative job.template name) = .ok source →
      ∀ token ∈ (Reader.ofSource source).tokens, P token) (muted : Bool) (v : Value) :
    Keeps l P p Anything (Body.included b Body.reopen job name muted v) := by
  have look : Keeps l P p Anything (get : Run σ (State σ)) :=
    fun s hs => .answer (.refl s.sink) hs trivial
  unfold Body.included
  simp only [Run.unheard_bind]
  refine bind look fun s _ => ?_
  split
  · exact pure trivial
  · unfold Body.entering
    simp only [Run.unheard_bind]
    refine bind (takeReader name) fun kept hkept => bind look fun s _ => ?_
    split
    · exact fail _
    · refine bind (reopen hopen hkept) fun r hr => ?_
      exact bind (inTemplate B _ hr muted v) fun r hr => keepReader name hr

/-! ## Markers -/

/-- Copying writes texts that are offered, and comes to a marker that is offered. -/
theorem copyText (L : Leads job l P p) (muted : Bool) {s : State σ} (hs : Offering l P s) :
    Permitted l P p (fun found => ∀ m, found = some m → P (.marker m)) s.sink
      (Run.copyText muted (s.reader.charsLeft + 1) s) := by
  have hreach := Nat.lt_succ_of_le (Reader.length_chars_ahead hs.reader.valid)
  have copies := copyText_copies muted (s.reader.charsLeft + 1) hs.reader.valid hreach
  have written {w : σ} (hw : s.CopiedTo muted w) : Written p s.sink w := by
    obtain ⟨chars, rfl, hc⟩ := hw
    refine written_copied muted (fun c hmem => ?_) s.sink
    obtain ⟨text, ht, hmem⟩ := hc c hmem
    exact L.text text (hs.reader.ahead ht) c hmem
  generalize Run.copyText muted (s.reader.charsLeft + 1) s = x at copies
  cases copies with
  | stopped _ hw => exact .failure (written hw)
  | failure _ hw => exact .failure (written hw)
  | next hm hr _ hw =>
    refine .answer (written hw) ⟨hs.reader.readTo hr, hs.kept, hs.loader⟩ fun m heq => ?_
    have hmarker := (nextMarker_suffix hm).1 m heq
    exact hs.reader.ahead (hmarker.subset (List.mem_cons_self ..))

theorem obey (L : Leads job l P p) (B : ∀ muted v, Keeps l P p Anything (b muted v)) {m : Marker}
    (hm : P (.marker m)) (muted : Bool) (v : Value) :
    Keeps l P p Anything (Body.obey b Body.reopen job muted v m) := by
  have closed (name : String) (muted : Bool) (v : Value) :
      Keeps l P p Anything (Body.closed b name muted v) :=
    compositional.closed (c := b) B name muted v
  have repeating : Keeps l P p Anything (Body.repeating b m muted v) := by
    refine loops.repeating (c := b) closed m muted v fun e => ?_
    exact loops.sequence closed (separate fun text => L.separator m text hm) m.name muted e
  have conditional (inverted : Bool) : Keeps l P p Anything
      (Body.conditional b m inverted muted v) :=
    loops.conditional (c := b) closed m inverted muted v
  unfold Body.obey
  cases hk : m.kind with
  | comment => exact pure trivial
  | «variable» => exact bind (substitute L hm hk muted v) fun _ _ => pure trivial
  | repeating => exact bind repeating fun _ _ => pure trivial
  | conditional => exact bind (conditional false) fun _ _ => pure trivial
  | inverted => exact bind (conditional true) fun _ _ => pure trivial
  | «include» =>
    have hopen := fun source => L.included m source hm hk
    exact bind (included B hopen muted v) fun _ _ => pure trivial
  | sectionEnd =>
    intro s hs
    dsimp only
    rw [Run.map_apply, sectionEnd_apply]
    cases s.sections with
    | nil => exact .failure (.refl s.sink)
    | cons opened outer =>
      dsimp only
      by_cases hname : opened = m.name
      · rw [if_pos hname]
        exact .answer (.refl s.sink) hs trivial
      · rw [if_neg hname]
        exact .failure (.refl s.sink)

/-- **One more marker.** -/
theorem step (L : Leads job l P p) (B : ∀ muted v, Keeps l P p Anything (b muted v))
    (muted : Bool) (v : Value) :
    Keeps l P p Anything (Body.step b Body.reopen job muted v) := by
  intro s hs
  have copied := copyText L muted hs
  rw [step_apply]
  generalize Run.copyText muted (s.reader.charsLeft + 1) s = x at copied
  cases copied with
  | failure hw => exact .failure hw
  | @answer found s' hw hs' hfound =>
    cases found with
    | none => exact .answer hw hs' trivial
    | some m =>
      have rest : Keeps l P p Anything
          (Body.obey b Body.reopen job muted v m >>= goOn b muted v) := by
        refine bind (obey L B (hfound m rfl) muted v) fun exit _ => ?_
        cases exit with
        | none => exact B muted v
        | some exit => exact pure trivial
      have later := rest s' hs'
      dsimp only
      generalize (Body.obey b Body.reopen job muted v m >>= goOn b muted v) s' = y at later
      cases later with
      | failure hw' => exact .failure (hw.trans hw')
      | answer hw' hs'' ha => exact .answer (hw.trans hw') hs'' ha

end Keeps

/-- Bodies write such pieces, by induction on the fuel. -/
theorem Body.keeps_write (L : Leads job l P p) (n : Nat) (muted : Bool) (v : Value) :
    Keeps l P p Anything (write job n muted v : Run σ Exit) := by
  induction n generalizing muted v with
  | zero => exact fun s _ => .failure (.refl s.sink)
  | succ n ih => exact Keeps.step L ih muted v

/-- **Whatever a render writes is such a piece**, also when it fails. -/
theorem Template.write_written {t : Template} {o : RenderOptions} {start : Rendered σ}
    (L : Leads (t.job o) start.shelf.loader P p)
    (h : ∀ source, start.shelf.loader.openNamed t.name = .ok source →
      ∀ token ∈ (Reader.ofSource source).tokens, P token) (v : Value) :
    Written p start.sink (t.write o v start).2.sink := by
  show Written p start.sink (t.writeBy Body.write o v start).2.sink
  rw [writeBy_apply, writeDictionary_apply]
  split
  · exact .refl start.sink
  · cases ho : start.shelf.loader.openNamed t.name with
    | error e => exact .refl start.sink
    | ok source =>
      have hoffering : Offering start.shelf.loader P (t.started start source) :=
        ⟨.ofSource (h source ho), (fun _ hm => nomatch hm), rfl⟩
      have body := (Keeps.inScope (Body.keeps_write L (Body.fuelFor start.shelf.loader) false
        v.asDictionary) fun _ heq => (Scope.caching.inj heq).symm) _ hoffering
      dsimp only
      unfold behindOpening
      rw [Run.bind_apply, Run.discard_apply]
      generalize Run.inScope (.caching []) (Body.write (t.job o) (Body.fuelFor start.shelf.loader)
        false v.asDictionary) (t.started start source) = x at body
      cases body with
      | failure hw => exact hw
      | @answer _ s hw =>
        -- asking the sink once more writes nothing
        dsimp only
        rw [checkSink_apply]
        by_cases hf : (!false && Sink.failed s.sink) = true
        · rw [if_pos hf]
          exact hw
        · rw [if_neg hf]
          exact hw

end Stencil
