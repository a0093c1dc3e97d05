import Stencil.Proofs.Render.Outline
import Stencil.Proofs.Render.Scanning
import Stencil.Proofs.Render.Watched

/-!
# Bodies that are left out

The body of a section that is left out is scanned for its end.  No text of it is written, its own
sections are scanned in turn, and the templates that it includes are not opened.  Its variables are
looked up all the same.  One that stands for a text has the texts of the template looked for, and
that may open property lists and fail.

- `Markup.AsksText`: a variable that stands for a text is met on the way to what is told;
- `Untouched`, `Leaves`: what scanning leaves as it was, but for the texts it has looked for;
- `Scanned`: what scanning comes to: an answer, a failure that the outline tells, or the one of
  looking for the texts;
- `Scanned.step`: **one more marker**;
- `Body.obey_skipped`: **a section that is left out writes nothing**, opens nothing but texts, and
  fails for the template alone or for the texts;
- `Template.write_skipped_text`: a text that cannot be had ends a render, though it stands in a body
  that is left out.
-/

namespace Stencil

open Markup

/-- A variable that stands for a text. -/
def Marker.asksText (m : Marker) : Bool :=
  match m.kind, Body.Reference.ofName m.name with
  | .variable, .text _ => true
  | _, _ => false

namespace Markup

variable {α β : Type}

/-- A text is asked for on the way to what is told: what is told to lie behind, if anything, is
behind the marker that asks. -/
def AsksText (told : Telling α) (ts : List Token) : Prop :=
  ∃ m rest, m.asksText ∧ .marker m :: rest <:+ ts ∧
    ∀ a later, told = .ok (a, later) → later <:+ rest

theorem AsksText.andThen {told : Telling α} {next : α → List Token → Telling β} {ts : List Token}
    (h : AsksText told ts)
    (hnext : ∀ a rest b later, next a rest = .ok (b, later) → later <:+ rest) :
    AsksText (andThen told next) ts := by
  obtain ⟨m, rest, hm, hs, hlater⟩ := h
  refine ⟨m, rest, hm, hs, fun b later hb => ?_⟩
  cases told with
  | error e => cases hb
  | ok found => exact (hnext _ _ b later hb).trans (hlater _ _ rfl)

theorem AsksText.behind {told : Telling α} {ts ts' : List Token} (h : AsksText told ts)
    (hs : ts <:+ ts') : AsksText told ts' := by
  obtain ⟨m, rest, hm, hm', hlater⟩ := h
  exact ⟨m, rest, hm, hm'.trans hs, hlater⟩

end Markup

variable {σ α β : Type} {job : Job} {asks : Prop} {s s' s'' : State σ}

/-! ## What is left as it was -/

/-- A state with all but the place in the template as it was. -/
structure Untouched (s s' : State σ) : Prop where
  sink : s'.sink = s.sink
  streams : s'.streams = s.streams
  shelf : s'.shelf = s.shelf
  bundle : s'.bundle = s.bundle
  active : s'.active = s.active

theorem Untouched.refl (s : State σ) : Untouched s s := ⟨rfl, rfl, rfl, rfl, rfl⟩

theorem Untouched.trans (h : Untouched s s') (h' : Untouched s' s'') : Untouched s s'' :=
  ⟨h'.sink.trans h.sink, h'.streams.trans h.streams, h'.shelf.trans h.shelf,
    h'.bundle.trans h.bundle, h'.active.trans h.active⟩

/-- The texts are looked for in the same way in every place of the template. -/
theorem texts_untouched (job : Job) (h : Untouched s s') :
    (Run.texts job s').1 = (Run.texts job s).1 ∧
      Untouched (Run.texts job s).2 (Run.texts job s').2 := by
  unfold Run.texts
  rw [h.bundle, h.shelf]
  cases s.bundle with
  | some found => exact ⟨rfl, h⟩
  | none =>
    cases job.bundle with
    | some given => exact ⟨rfl, h.sink, h.streams, rfl, rfl, h.active⟩
    | none =>
      dsimp only
      cases s.shelf.bundle (bundleBase job.template) job.settings.locale with
      | mk found shelf =>
        cases found with
        | ok found => exact ⟨rfl, h.sink, h.streams, rfl, rfl, h.active⟩
        | error e => exact ⟨rfl, h.sink, h.streams, rfl, rfl, h.active⟩

/-- Texts that have been found are not looked for again. -/
theorem texts_found {found : Option Bundle} (h : (Run.texts job s).1 = .ok found)
    (hu : Untouched (Run.texts job s).2 s') : Run.texts job s' = (.ok found, s') := by
  obtain ⟨shelf, happly, -⟩ := texts_apply h
  have hb := hu.bundle
  rw [happly] at hb
  unfold Run.texts
  rw [hb]

/-- All is left as it was, unless texts were asked for and have been found. -/
def Leaves (job : Job) (asks : Prop) (s s' : State σ) : Prop :=
  Untouched s s' ∨
    asks ∧ (∃ found, (Run.texts job s).1 = .ok found) ∧ Untouched (Run.texts job s).2 s'

theorem Leaves.trans (h : Leaves job asks s s') (h' : Leaves job asks s' s'') :
    Leaves job asks s s'' := by
  rcases h with hu | ⟨ha, ⟨found, hfound⟩, hu⟩
  · rcases h' with hu' | ⟨ha, ⟨found, hfound⟩, hu'⟩
    · exact .inl (hu.trans hu')
    · have same := texts_untouched job hu
      exact .inr ⟨ha, ⟨found, same.1.symm.trans hfound⟩, same.2.trans hu'⟩
  · refine .inr ⟨ha, ⟨found, hfound⟩, ?_⟩
    rcases h' with hu' | ⟨-, -, hu'⟩
    · exact hu.trans hu'
    · rw [texts_found hfound hu] at hu'
      exact hu.trans hu'

theorem Leaves.mono {asks' : Prop} (h : Leaves job asks s s') (ha : asks → asks') :
    Leaves job asks' s s' := h.imp_right fun h => ⟨ha h.1, h.2⟩

theorem Leaves.sink (h : Leaves job asks s s') : s'.sink = s.sink := by
  rcases h with hu | ⟨-, -, hu⟩
  · exact hu.sink
  · exact hu.sink.trans (texts_keeps job s).1

theorem Leaves.streams (h : Leaves job asks s s') : s'.streams = s.streams := by
  rcases h with hu | ⟨-, -, hu⟩
  · exact hu.streams
  · exact hu.streams.trans (texts_keeps job s).2

theorem Leaves.shelf (h : Leaves job asks s s') :
    s'.shelf = s.shelf ∨ asks ∧ s'.shelf = (Run.texts job s).2.shelf :=
  h.imp Untouched.shelf fun h => ⟨h.1, h.2.2.shelf⟩

/-! ## Scanning -/

/-- What scanning comes to, from a state in which something is told by the tokens ahead. -/
inductive Scanned (job : Job) (asks : Prop) (s : State σ) (told : Telling α) :
    Except Halt α × State σ → Prop where
  | answer {a : α} {ts : List Token} {s' : State σ} (h : told = .ok (a, ts))
    (hr : s.reader.ReadTo s'.reader ts) (hsec : s'.sections = s.sections)
    (hsc : s'.scopes = s.scopes) (hl : Leaves job asks s s') :
    Scanned job asks s told (.ok a, s')
  | failure {e : RenderError} {s' : State σ} (h : told = .error e) (hl : Leaves job asks s s') :
    Scanned job asks s told (.error (.failed e), s')
  /-- The texts cannot be had. -/
  | untold {halt : Halt} {s' : State σ} (ha : asks) (h : (Run.texts job s).1 = .error halt)
    (hu : Untouched (Run.texts job s).2 s') : Scanned job asks s told (.error halt, s')

/-- What scanning comes to if texts are looked for only where the tokens ahead ask for them. -/
def Skimmed (job : Job) (s : State σ) (told : Telling α) (x : Except Halt α × State σ) : Prop :=
  Scanned job (AsksText told s.reader.tokens) s told x

/-- A computation for bodies that scans them, given fuel for what can be reached. -/
def Skims (job : Job) (n : Nat) (b : Bool → Value → Run σ Exit) : Prop :=
  ∀ {s : State σ}, s.reader.Valid → s.reader.reach < n → s.discards →
    Skimmed job s (outline s.reader.failure s.sections [] s.reader.tokens) (b true (.own .null) s)

namespace Scanned

variable {told : Telling α}

theorem pure {ts : List Token} (h : s.reader.Valid) (ht : s.reader.tokens = ts) (a : α) :
    Scanned job asks s (.ok (a, ts)) ((Pure.pure a : Run σ α) s) := by
  subst ht
  exact .answer rfl (.refl h) rfl rfl (.inl (.refl s))

theorem mono {asks' : Prop} {x : Except Halt α × State σ} (h : Scanned job asks s told x)
    (ha : asks → asks') : Scanned job asks' s told x := by
  cases h with
  | answer h hr hsec hsc hl => exact .answer h hr hsec hsc (hl.mono ha)
  | failure h hl => exact .failure h (hl.mono ha)
  | untold h ht hu => exact .untold (ha h) ht hu

/-- Scanning goes on behind what has been read. -/
theorem behind {ts : List Token} {x : Except Halt α × State σ} (h : Scanned job asks s' told x)
    (hr : s.reader.ReadTo s'.reader ts) (hsec : s'.sections = s.sections)
    (hsc : s'.scopes = s.scopes) (hl : Leaves job asks s s') : Scanned job asks s told x := by
  cases h with
  | answer h hr' hsec' hsc' hl' =>
    exact .answer h (hr.trans hr') (hsec'.trans hsec) (hsc'.trans hsc) (hl.trans hl')
  | failure h hl' => exact .failure h (hl.trans hl')
  | untold ha h hu =>
    rcases hl with hl | ⟨-, ⟨found, hfound⟩, hl⟩
    · have same := texts_untouched job hl
      exact .untold ha (same.1.symm.trans h) (same.2.trans hu)
    · -- found once, they are there
      rw [texts_found hfound hl] at h
      cases h

theorem bind {c : Run σ α} {k : α → Run σ β} {next : α → List Token → Telling β}
    (h : Scanned job asks s told (c s))
    (hk : ∀ a ts s', told = .ok (a, ts) → s.reader.ReadTo s'.reader ts →
      s'.sections = s.sections → s'.scopes = s.scopes → Scanned job asks s' (next a ts) (k a s')) :
    Scanned job asks s (andThen told next) ((c >>= k) s) := by
  rw [Run.bind_apply]
  generalize c s = x at h
  cases h with
  | answer h hr hsec hsc hl =>
    rw [h]
    exact (hk _ _ _ h hr hsec hsc).behind hr hsec hsc hl
  | failure h hl =>
    rw [h]
    exact .failure rfl hl
  | untold ha h hu => exact .untold ha h hu

/-- Behind an answer that is told to lie where the render stands. -/
theorem answered {a : α} {ts : List Token} {told : Telling β} {c : Run σ α} {k : α → Run σ β}
    (h : Scanned job asks s (.ok (a, ts)) (c s))
    (hk : ∀ s', s.reader.ReadTo s'.reader ts → Scanned job asks s' told (k a s')) :
    Scanned job asks s told ((c >>= k) s) := by
  show Scanned job asks s (andThen (.ok (a, ts)) fun _ _ => told) ((c >>= k) s)
  refine bind h fun a' ts' s' heq hr _ _ => ?_
  obtain ⟨rfl, rfl⟩ := Prod.mk.inj (Except.ok.inj heq)
  exact hk s' hr

/-- Scanning between two changes of what is around it. -/
theorem within (s₁ : State σ) (back : State σ → State σ) (hu : Untouched s s₁)
    (hr : s₁.reader = s.reader)
    (hback : ∀ s' : State σ, s'.sections = s₁.sections → s'.scopes = s₁.scopes →
      Untouched s' (back s') ∧ (back s').reader = s'.reader ∧ (back s').sections = s.sections ∧
        (back s').scopes = s.scopes)
    (x : Except Halt α × State σ) :
    Scanned job asks s₁ told x → Scanned job asks s told (match x with
      | (.ok a, s') => (.ok a, back s')
      | (.error e, s') => (.error e, s')) := by
  intro h
  cases h with
  | @answer a ts s' h hr' hsec hsc hl =>
    obtain ⟨hu', hr'', hsec', hsc'⟩ := hback s' hsec hsc
    refine .answer h ?_ hsec' hsc' ((Leaves.trans (.inl hu) hl).trans (.inl hu'))
    rw [hr'', ← hr]
    exact hr'
  | failure h hl => exact .failure h (Leaves.trans (.inl hu) hl)
  | untold ha h hu' =>
    have same := texts_untouched job hu
    exact .untold ha (same.1.symm.trans h) (same.2.trans hu')

theorem inScope {c : Run σ α} {scope : Scope}
    (h : Scanned job asks { s with scopes := scope :: s.scopes } told
      (c { s with scopes := scope :: s.scopes })) :
    Scanned job asks s told (Run.inScope scope c s) := by
  rw [inScope_apply]
  refine within (s := s) { s with scopes := scope :: s.scopes }
    (fun s' => { s' with scopes := s'.scopes.tail }) ⟨rfl, rfl, rfl, rfl, rfl⟩ rfl
    (fun s' hsec hsc => ⟨⟨rfl, rfl, rfl, rfl, rfl⟩, rfl, hsec, ?_⟩) _ h
  exact congrArg List.tail hsc

theorem inSection {c : Run σ α} {name : String}
    (h : Scanned job asks { s with sections := name :: s.sections } told
      (c { s with sections := name :: s.sections })) :
    Scanned job asks s told (Run.inSection name c s) := by
  rw [inSection_apply]
  refine within (s := s) { s with sections := name :: s.sections }
    (fun s' => { s' with sections := s'.sections.tail }) ⟨rfl, rfl, rfl, rfl, rfl⟩ rfl
    (fun s' hsec hsc => ⟨⟨rfl, rfl, rfl, rfl, rfl⟩, rfl, ?_, hsc⟩) _ h
  exact congrArg List.tail hsec

end Scanned

/-! ## Sections -/

namespace Skimmed

variable {told : Telling α} {n : Nat} {b : Bool → Value → Run σ Exit}

theorem bind {c : Run σ α} {k : α → Run σ β} {next : α → List Token → Telling β}
    (h : Skimmed job s told (c s))
    (hnext : ∀ a rest b later, next a rest = .ok (b, later) → later <:+ rest)
    (hk : ∀ a ts s', told = .ok (a, ts) → s.reader.ReadTo s'.reader ts →
      s'.sections = s.sections → s'.scopes = s.scopes → Skimmed job s' (next a ts) (k a s')) :
    Skimmed job s (andThen told next) ((c >>= k) s) := by
  refine Scanned.bind (h.mono fun ha => ha.andThen hnext) fun a ts s' htold hr hsec hsc => ?_
  refine (hk a ts s' htold hr hsec hsc).mono fun ha => ?_
  rw [htold]
  rw [hr.tokens_eq] at ha
  exact ha.behind hr.suffix

theorem inScope {c : Run σ α} {scope : Scope}
    (h : Skimmed job { s with scopes := scope :: s.scopes } told
      (c { s with scopes := scope :: s.scopes })) :
    Skimmed job s told (Run.inScope scope c s) := Scanned.inScope h

theorem inSection {c : Run σ α} {name : String}
    (h : Skimmed job { s with sections := name :: s.sections } told
      (c { s with sections := name :: s.sections })) :
    Skimmed job s told (Run.inSection name c s) := Scanned.inSection h

theorem closed (B : Skims job n b) (h : s.reader.Valid) (hn : s.reader.reach < n) (hd : s.discards)
    (name : String) :
    Skimmed job s (Markup.behind s.reader.failure s.sections name s.reader.tokens)
      (Body.closed b name true (.own .null) s) := by
  refine bind (B h hn hd) (fun exit rest a later hlater => ?_) fun exit ts s' _ hr _ _ => ?_
  · cases exit with
    | endOfText => cases hlater
    | sectionEnd => exact suffix_of_ok hlater
  · cases exit with
    | sectionEnd => exact .pure hr.valid hr.tokens_eq ()
    | endOfText => exact .failure rfl (.inl (.refl s'))

/-- The body of a section is scanned wherever it stands. -/
theorem scan (B : Skims job n b) (h : s.reader.Valid) (hn : s.reader.reach < n) (name : String) :
    Skimmed job s (Markup.behind s.reader.failure s.sections name s.reader.tokens)
      (Body.scan b name s) :=
  inScope (closed B (s := { s with scopes := .discarding :: s.scopes }) h hn rfl name)

/-- A section within a body that is scanned: an inverted one is read as if it were written, by the
body that scans. -/
theorem inside (B : Skims job n b) (h : s.reader.Valid) (hn : s.reader.reach < n) (hd : s.discards)
    (name : String) (inverted : Bool) :
    Skimmed job s (Markup.behind s.reader.failure (name :: s.sections) name s.reader.tokens)
      (Run.inSection name
        (if inverted then Body.closed b name true (.own .null) else Body.scan b name) s) := by
  refine inSection ?_
  cases inverted with
  | true => exact closed B (s := { s with sections := name :: s.sections }) h hn hd name
  | false => exact scan B (s := { s with sections := name :: s.sections }) h hn name

end Skimmed

/-! ## Markers -/

namespace Scanned

theorem texts (h : s.reader.Valid) (ha : asks) :
    ∃ found, Scanned job asks s (.ok (found, s.reader.tokens)) (Run.texts job s) := by
  cases hx : (Run.texts job s).1 with
  | ok found =>
    obtain ⟨shelf, happly, -⟩ := texts_apply hx
    have hu : Untouched (Run.texts job s).2
        { s with shelf := shelf, bundle := some found } := by
      rw [happly]
      exact .refl _
    rw [happly]
    exact ⟨found, .answer rfl (.refl h) rfl rfl (.inr ⟨ha, ⟨found, hx⟩, hu⟩)⟩
  | error halt =>
    refine ⟨none, ?_⟩
    rw [show Run.texts job s = (.error halt, (Run.texts job s).2) from Prod.ext hx rfl]
    exact .untold ha hx (.refl _)

/-- The name of a variable stands for a text, or for something that is known already. -/
theorem resolve (h : s.reader.Valid) {m : Marker} (hm : m.kind = .variable) :
    ∃ found, Scanned job m.asksText s (.ok (found, s.reader.tokens))
      (Body.resolve job (.own .null) m.name s) := by
  unfold Body.resolve
  simp only [Run.unheard_bind]
  cases href : Body.Reference.ofName m.name with
  | text key =>
    have ha : m.asksText = true := by
      unfold Marker.asksText
      rw [hm, href]
    obtain ⟨found, hfound⟩ := texts h ha
    exact ⟨_, answered hfound fun s' hr => pure hr.valid hr.tokens_eq _⟩
  | setting key => exact ⟨_, pure h rfl _⟩
  | path keys =>
    have hkeys : keys ≠ [] := Body.Reference.path_ne_nil href
    refine ⟨none, ?_⟩
    dsimp only
    rcases Value.lookup_own_null hkeys with hl | hl <;> rw [hl] <;> exact pure h rfl none

variable [Sink σ]

/-- A variable is not written. -/
theorem substitute (h : s.reader.Valid) {m : Marker} (hm : m.kind = .variable) :
    Scanned job m.asksText s (.ok ((), s.reader.tokens))
      (Body.substitute job true (.own .null) m s) := by
  obtain ⟨found, hfound⟩ := resolve h hm
  refine answered hfound fun s' hr => ?_
  cases found <;> exact pure hr.valid hr.tokens_eq ()

/-- A marker in a body that is scanned comes to what is told of it. -/
theorem obey {n : Nat} {b : Bool → Value → Run σ Exit} {f : Body.Opener σ} (B : Skims job n b)
    (h : s.reader.Valid) (hn : s.reader.reach < n) (hd : s.discards) (m : Marker) :
    let told := Markup.told s.reader.failure s.sections m s.reader.tokens
    Scanned job (m.asksText ∨ AsksText told s.reader.tokens) s told
      (Body.obey b f job true (.own .null) m s) := by
  have block (inverted : Bool) :
      Skimmed job s
        (andThen (Markup.behind s.reader.failure (m.name :: s.sections) m.name s.reader.tokens)
          fun _ ts => .ok (none, ts))
        ((Run.inSection m.name (if inverted then Body.closed b m.name true (.own .null)
          else Body.scan b m.name) >>= fun _ => (Pure.pure none : Run σ (Option Exit))) s) := by
    refine (Skimmed.inside B h hn hd m.name inverted).bind (fun _ _ _ _ => suffix_of_ok) ?_
    exact fun _ _ _ _ hr _ _ => .pure hr.valid hr.tokens_eq none
  unfold Markup.told Body.obey
  cases hk : m.kind with
  | comment => exact pure h rfl none
  | «variable» =>
    exact (answered (substitute h hk) fun s' hr => pure hr.valid hr.tokens_eq none).mono .inl
  | repeating =>
    dsimp only
    rw [Body.repeating_null]
    exact (block false).mono .inr
  | conditional =>
    dsimp only
    rw [Body.conditional_null]
    exact (block false).mono .inr
  | inverted =>
    dsimp only
    rw [Body.conditional_null]
    exact (block true).mono .inr
  | «include» =>
    dsimp only
    rw [Run.bind_apply, included_apply, if_pos hd]
    exact pure h rfl none
  | sectionEnd =>
    dsimp only
    rw [Run.map_apply, sectionEnd_apply]
    unfold closing
    cases s.sections with
    | nil => exact .failure rfl (.inl (.refl s))
    | cons opened outer =>
      dsimp only
      by_cases hname : opened = m.name
      · rw [if_pos hname, if_pos hname]
        exact pure h rfl _
      · rw [if_neg hname, if_neg hname]
        exact .failure rfl (.inl (.refl s))

/-- A marker and what goes on behind it. -/
theorem further {n : Nat} {b : Bool → Value → Run σ Exit} {f : Body.Opener σ} (B : Skims job n b)
    (h : s.reader.Valid) (hn : s.reader.reach < n) (hd : s.discards) (m : Marker) :
    let told := Markup.further s.reader.failure s.sections m s.reader.tokens
    Scanned job (m.asksText ∨ AsksText told s.reader.tokens) s told
      ((Body.obey b f job true (.own .null) m >>= goOn b true (.own .null)) s) := by
  have first := obey (f := f) B h hn hd m
  refine bind (first.mono (Or.imp_right fun ha => ha.andThen fun _ _ _ _ => goesOn_suffix))
    fun exit ts s' htold hr hsec hsc => ?_
  cases exit with
  | some exit => exact pure hr.valid hr.tokens_eq exit
  | none =>
    have hreach := Nat.lt_of_le_of_lt (hr.onward.reach_le h hr.valid) hn
    have hd' : s'.discards := by
      rw [State.discards, hsc]
      exact hd
    have body := B hr.valid hreach hd'
    rw [Skimmed, hsec, hr.failure_eq, hr.tokens_eq] at body
    refine body.mono fun ha => .inr ?_
    rw [Markup.further, htold]
    exact ha.behind hr.suffix

/-- **One more marker.** -/
theorem step {n : Nat} {b : Bool → Value → Run σ Exit} {f : Body.Opener σ} (B : Skims job n b) :
    Skims job (n + 1) (Body.step b f job) := by
  intro s h hn hd
  have copies := copyText_copies true (s.reader.charsLeft + 1) h
    (Nat.lt_succ_of_le (Reader.length_chars_ahead h))
  unfold Skimmed
  rw [step_apply, outline_eq]
  generalize Run.copyText true (s.reader.charsLeft + 1) s = x at copies
  cases copies with
  | stopped hmuted => cases hmuted
  | failure hm hw =>
    rw [hm]
    exact .failure rfl (.inl ⟨hw.eq, rfl, rfl, rfl, rfl⟩)
  | @next m ts r w hm hr hlt hw =>
    have left {asks : Prop} : Leaves job asks s { s with reader := r, sink := w } :=
      .inl ⟨hw.eq, rfl, rfl, rfl, rfl⟩
    rw [hm]
    cases m with
    | none => exact .answer rfl hr rfl rfl left
    | some m =>
      have hmarker := (nextMarker_suffix hm).1 m rfl
      have hreach := Nat.lt_of_lt_of_le (hlt rfl) (Nat.le_of_lt_succ hn)
      have rest := further (f := f) B (s := { s with reader := r, sink := w }) hr.valid hreach hd m
      dsimp only at rest
      rw [hr.failure_eq, hr.tokens_eq] at rest
      have asked (ha : m.asksText ∨ AsksText (Markup.further s.reader.failure s.sections m ts) ts) :
          AsksText (Markup.further s.reader.failure s.sections m ts) s.reader.tokens := by
        rcases ha with ha | ha
        · exact ⟨m, ts, ha, hmarker, fun _ _ hlater => further_suffix hlater⟩
        · exact ha.behind hr.suffix
      exact (rest.mono asked).behind hr rfl rfl left

end Scanned

/-- Bodies are scanned, by induction on the fuel. -/
theorem Body.skims_write [Sink σ] (job : Job) (n : Nat) :
    Skims job n (write job n : Bool → Value → Run σ Exit) := by
  induction n with
  | zero =>
    intro s _ hn
    exact absurd hn (Nat.not_lt_zero _)
  | succ n ih => exact Scanned.step ih

/-! ## Sections that are left out -/

namespace Body

/-- How a section comes to be left out: it repeats nothing, or is not taken.  Behind the state in
front of the section is the one in which its value has been asked for. -/
inductive Skips (m : Marker) (v : Value) (s : State σ) : State σ → Prop where
  | absent (hk : m.kind = .repeating)
    (hv : v.lookup (pathOf m.name) = none ∨ v.lookup (pathOf m.name) = some .null) : Skips m v s s
  | empty {found : Value} {e e' : Elements} {s' : State σ} (hk : m.kind = .repeating)
    (hv : v.lookup (pathOf m.name) = some found) (he : elements? found = some e)
    (hn : e.next s = (.ok (none, e'), s')) : Skips m v s s'
  | untaken {s' : State σ} (hk : m.kind = .conditional)
    (hh : holds (v.lookup (pathOf m.name)) s = (.ok false, s')) : Skips m v s s'
  | inverted {s' : State σ} (hk : m.kind = .inverted)
    (hh : holds (v.lookup (pathOf m.name)) s = (.ok true, s')) : Skips m v s s'

/-- The sequence of a repeating section fails when it is closed. -/
def ClosingFails (m : Marker) (v : Value) (streams : Streams) (e : DataError) : Prop :=
  m.kind = .repeating ∧ ∃ id, v.lookup (pathOf m.name) = some (.stream id) ∧
    (Streams.close id streams).1 = .error e

variable {m : Marker} {v : Value} {n : Nat}

theorem Skips.streams_eq (h : Skips m v s s') : s' = { s with streams := s'.streams } := by
  cases h with
  | absent => rfl
  | empty _ _ _ hn => exact (consults_next _).of_eq hn
  | untaken _ hh => exact (consults_holds _).of_eq hh
  | inverted _ hh => exact (consults_holds _).of_eq hh

variable [Sink σ] {b : Bool → Value → Run σ Exit} {f : Opener σ} {muted : Bool}

omit [Sink σ] in
/-- A conditional or inverted section that is left out is scanned where its value has been asked
for. -/
theorem conditional_skipped {inverted : Bool}
    (hh : holds (v.lookup (pathOf m.name)) s = (.ok inverted, s')) :
    conditional b m inverted muted v s = Run.inSection m.name (scan b m.name) s' := by
  have hh' := (consults_holds _).inside hh m.name
  unfold conditional
  rw [inSection_apply, inSection_apply, Run.bind_apply, hh']
  cases inverted <;> rfl

/-- The body of a section over a sequence without elements is scanned. -/
theorem iterated_skipped {name : String} {separator : Option String} {e e' : Elements}
    (hn : e.next s = (.ok (none, e'), s')) :
    iterated b name separator muted e s = scan b name s' := by
  have hbound : ∃ fuel, e.bound s = (.ok fuel, s) := by
    cases e <;> exact ⟨_, rfl⟩
  obtain ⟨fuel, hbound⟩ := hbound
  unfold iterated
  simp only [pull_silent]
  rw [Run.bind_apply, hbound]
  dsimp only
  rw [Run.bind_apply, hn]

/-- What a section comes to that is left out, given what scanning its body comes to. -/
structure LeftOut (m : Marker) (v : Value) (scanned : Except Halt Unit × State σ)
    (done : Except Halt (Option Exit) × State σ) : Prop where
  sink : done.2.sink = scanned.2.sink
  shelf : done.2.shelf = scanned.2.shelf
  reader : done.2.reader = scanned.2.reader
  result : done.1 = scanned.1.map (fun _ => none) ∨
    scanned.1 = .ok () ∧ ∃ e, ClosingFails m v scanned.2.streams e ∧
      done.1 = .error (.failed (.source e))

omit [Sink σ] in
theorem LeftOut.of_eq {c : Run σ Unit} {scanned : Except Halt Unit × State σ} (h : c s = scanned) :
    LeftOut m v scanned ((c >>= fun _ => (Pure.pure none : Run σ (Option Exit))) s) := by
  rw [Run.bind_apply, h]
  obtain ⟨x, s'⟩ := scanned
  cases x <;> exact ⟨rfl, rfl, rfl, .inl rfl⟩

/-- A repeating section without elements: its sequence is closed behind the body. -/
theorem sequence_skipped {found : Value} {e e' : Elements} (hk : m.kind = .repeating)
    (hv : v.lookup (pathOf m.name) = some found) (he : elements? found = some e)
    (hn : e.next s = (.ok (none, e'), s')) :
    LeftOut m v (Run.inSection m.name (scan b m.name) s')
      ((repeating b m muted v >>= fun _ => (Pure.pure none : Run σ (Option Exit))) s) := by
  have hn' := (consults_next e).inside hn m.name
  have hrep : repeating b m muted v =
      Run.inSection m.name (sequence b m.name m.separator muted e) := by
    unfold repeating
    rw [hv]
    cases found with
    | list items | series items | stream id => rw [← Option.some.inj he]; rfl
    | _ => cases he
  -- only a single-pass sequence can fail when it is closed
  have hfails (streams : Streams) (failure : DataError)
      (h : (e.closing streams).1 = .error failure) : ClosingFails m v streams failure := by
    cases found with
    | list items | series items =>
      rw [← Option.some.inj he] at h
      cases h
    | stream id =>
      rw [← Option.some.inj he] at h
      exact ⟨hk, id, hv, h⟩
    | _ => cases he
  rw [hrep, Run.bind_apply, inSection_apply, inSection_apply, sequence_apply, iterated_skipped hn']
  generalize scan b m.name { s' with sections := m.name :: s'.sections } = x
  obtain ⟨x, s₂⟩ := x
  cases x with
  | error halt => exact ⟨rfl, rfl, rfl, .inl rfl⟩
  | ok _ =>
    dsimp only
    cases hx : (e.closing s₂.streams).1 with
    | ok _ => exact ⟨rfl, rfl, rfl, .inl rfl⟩
    | error failure => exact ⟨rfl, rfl, rfl, .inr ⟨rfl, failure, hfails _ _ hx, rfl⟩⟩

/-- A section that is left out is scanned where its value has been asked for. -/
theorem Skips.leftOut (h : Skips m v s s') :
    LeftOut m v (Run.inSection m.name (scan b m.name) s') (obey b f job muted v m s) := by
  unfold obey
  cases h with
  | absent hk hv =>
    rw [hk]
    refine .of_eq (congrFun (congrArg (Run.inSection m.name) ?_) s)
    rcases hv with hv | hv <;> rw [hv]
  | empty hk hv he hn =>
    rw [hk]
    exact sequence_skipped hk hv he hn
  | untaken hk hh =>
    rw [hk]
    exact .of_eq (conditional_skipped hh)
  | inverted hk hh =>
    rw [hk]
    exact .of_eq (conditional_skipped hh)

/-- **A section that is left out writes nothing.**  It opens nothing but texts, and those only where
a variable in it asks for one.  It fails as the template ahead tells, or because the texts cannot be
had; otherwise the render is behind its end, unless its sequence then fails to close. -/
theorem obey_skipped (hskips : Skips m v s s') (h : s.reader.Valid) (hn : s.reader.reach < n) :
    let told := behind s.reader.failure (m.name :: s.sections) m.name s.reader.tokens
    let asks := AsksText told s.reader.tokens
    let done := obey (write job n) reopen job muted v m s
    done.2.sink = s.sink ∧
      (done.2.shelf = s.shelf ∨ asks ∧ done.2.shelf = (Run.texts job s').2.shelf) ∧
      match done.1 with
      | .ok exit =>
        exit = none ∧ ∃ ts, told = .ok ((), ts) ∧ s.reader.ReadTo done.2.reader ts
      | .error halt =>
        (∃ e, told = .error e ∧ halt = .failed e) ∨
        (asks ∧ (Run.texts job s').1 = .error halt) ∨
        ∃ e, ClosingFails m v s'.streams e ∧ halt = .failed (.source e) := by
  have left : LeftOut m v (Run.inSection m.name (scan (write job n) m.name) s')
    (obey (write job n) reopen job muted v m s) := hskips.leftOut
  have hs := hskips.streams_eq
  have hreader : s'.reader = s.reader := by rw [hs]
  have hsections : s'.sections = s.sections := by rw [hs]
  have hsink : s'.sink = s.sink := by rw [hs]
  have hshelf : s'.shelf = s.shelf := by rw [hs]
  have scanned : Skimmed job s'
      (behind s'.reader.failure (m.name :: s'.sections) m.name s'.reader.tokens)
      (Run.inSection m.name (scan (write job n) m.name) s') :=
    .inSection (.scan (s := { s' with sections := m.name :: s'.sections })
      (skims_write job n) (hreader ▸ h) (hreader ▸ hn) m.name)
  rw [Skimmed, hreader, hsections] at scanned
  intro told asks done
  rw [left.sink, left.shelf, left.reader, ← hsink, ← hshelf]
  have result := left.result
  generalize Run.inSection m.name (scan (write job n) m.name) s' = x at scanned result ⊢
  cases scanned with
  | answer htold hr _ _ hl =>
    rw [hreader] at hr
    rw [hl.streams] at result
    refine ⟨hl.sink, hl.shelf, ?_⟩
    rcases result with result | ⟨-, e, hfails, result⟩
    · rw [result]
      exact ⟨rfl, _, htold, hr⟩
    · rw [result]
      exact .inr (.inr ⟨e, hfails, rfl⟩)
  | failure htold hl =>
    refine ⟨hl.sink, hl.shelf, ?_⟩
    rcases result with result | ⟨hok, -⟩
    · rw [result]
      exact .inl ⟨_, htold, rfl⟩
    · cases hok
  | untold ha htexts hu =>
    refine ⟨hu.sink.trans (texts_keeps job s').1, .inr ⟨ha, hu.shelf⟩, ?_⟩
    rcases result with result | ⟨hok, -⟩
    · rw [result]
      exact .inr (.inl ⟨ha, htexts⟩)
    · cases hok

/-- A conditional section over an empty list, with a variable that asks for a text and a template
that does not exist in it. -/
theorem obey_skipped_list :
    let t : Template := ⟨"page", "text/plain", none, none⟩
    let o : RenderOptions := ⟨⟨.default, 0⟩, none, []⟩
    let start : Rendered String := ⟨"[", ⟨[], []⟩, .ofLoader (.memory [("page.properties", "a=b")])⟩
    let m : Marker := ⟨.conditional, "x", none, []⟩
    let v : Value := .record [("x", .list [])]
    let s := t.started start (.ofText "a{{>absent}}{{^b}}{{@a}}{{/b}}{{/x}}]")
    let done := obey (write (t.job o) 40) reopen (t.job o) false v m s
    (Skips m v s s ∧ s.reader.Valid ∧ s.reader.reach < 40) ∧
      done.2.sink = s.sink ∧ done.1 = .ok none ∧
      done.2.shelf.opened = ["page.properties", "page"] := by
  intro t o start m v s done
  have hpath : pathOf m.name = ["x"] := by decide +kernel
  have hskips : Skips m v s s := by
    refine .untaken rfl ?_
    rw [hpath]
    rfl
  have hvalid : s.reader.Valid := Reader.valid_ofSource _
  have hreach : s.reader.reach < 40 := by decide +kernel
  have hsink : done.2.sink = s.sink := (obey_skipped hskips hvalid hreach).1
  refine ⟨⟨hskips, hvalid, hreach⟩, hsink, ?_, ?_⟩
  · decide +kernel
  · decide +kernel

end Body

/-- **A text that cannot be had ends a render**, though it stands in a body that is left out.  One
that can be had is opened for it. -/
theorem Template.write_skipped_text :
    let t : Template := ⟨"t.html", "text/html", none, none⟩
    let o : RenderOptions := ⟨⟨.default, 0⟩, none, []⟩
    let text := "[{{?x}}{{@greeting}}{{/x}}]"
    let v : Value := .record [("o", .list [])]
    let denied : IoError := .of .permissionDenied "denied"
    let start (texts : Except IoError Source) : Rendered String := ⟨"", ⟨[], []⟩, .ofLoader
      (.scripted [("t.html", .ok (.ofText text)), ("t.properties", texts)])⟩
    v.lookup ["x"] = none ∧
      (t.write o v (start (.error denied))).1 = .error (.failed (.io denied)) ∧
      (t.write o v (start (.error denied))).2.sink = "[" ∧
      (t.write o v (start (.ok (.ofText "")))).1 = .ok () ∧
      (t.write o v (start (.ok (.ofText "")))).2.shelf.opened = ["t.properties", "t.html"] := by
  decide +kernel

end Stencil
