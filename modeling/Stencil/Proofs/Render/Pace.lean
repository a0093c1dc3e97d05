import Stencil.Proofs.Render.Aloof
import Stencil.Proofs.Render.Compositional
import Stencil.Proofs.Render.Standing
import Stencil.Proofs.Render.Watched

/-!
# Two sinks, one render

The sink cannot be seen in what a render does, until it has failed: the render asks for that before
it reads on, so a failed sink ends it before anything else happens.  Here the same render is carried
out for two sinks, which may both be told of what happens; the second one may fail when the first
does not.

- `Coupling`: two sinks that are level as long as they are told the same, until the second fails;
- `Outcome`: what the same computation comes to for both;
- `Silent`: computations that do not know the sink;
- `Halts`: computations that end at once when the sink has failed;
- `InPace`: computations that stay in pace; `InPace.bind` is the rule for one after the other;
- `Bodies.step`: **one more marker**;
- `Template.write_inPace`: whole renders stay in pace, up to the failure of the second.
-/

namespace Stencil

open Body

variable {σ τ α β : Type}

/-- A state with another sink. -/
def State.withSink (s : State σ) (w : τ) : State τ := s.reseat w s.streams

/-! ## Computations that do not know the sink -/

/-- The same computation for both sinks, which leaves them alone. -/
def Silent (c : Run σ α) (d : Run τ α) : Prop :=
  ∀ s w, d (s.withSink w) = ((c s).1, (c s).2.withSink w) ∧ (c s).2.sink = s.sink

theorem Aloof.silent {c : Run σ α} {d : Run τ α} (h : Aloof c d) : Silent c d := by
  intro s w
  obtain ⟨hd, hsink, hstreams⟩ := h s w s.streams
  refine ⟨?_, hsink⟩
  rw [State.withSink, State.withSink, hd, hstreams]

namespace Silent

theorem bind {c : Run σ α} {d : Run τ α} {k : α → Run σ β} {l : α → Run τ β} (h : Silent c d)
    (hk : ∀ a, Silent (k a) (l a)) : Silent (c >>= k) (d >>= l) := by
  intro s w
  obtain ⟨hd, hsink⟩ := h s w
  rw [Run.bind_apply, Run.bind_apply, hd]
  generalize c s = x at hsink
  obtain ⟨answer, s'⟩ := x
  cases answer with
  | error e => exact ⟨rfl, hsink⟩
  | ok a =>
    obtain ⟨hl, hsink'⟩ := hk a s' w
    exact ⟨hl, hsink'.trans hsink⟩

theorem compositional : Compositional fun _ (c : Run σ _) (d : Run τ _) => Silent c d where
  answer a := (Aloof.pure a).silent
  halt _ := fun _ _ => ⟨rfl, rfl⟩
  bind := bind

theorem requests : Compositional.Requests fun _ (c : Run σ _) (d : Run τ _) => Silent c d where
  toCompositional := compositional
  stepsLeft _ := fun _ _ => ⟨rfl, rfl⟩
  nextRow _ := fun _ _ => ⟨rfl, rfl⟩
  hasNext _ := fun _ _ => ⟨rfl, rfl⟩

/-- A test does not know the sinks, where these do not listen. -/
theorem holds (found : Option Value) :
    Silent (Body.holds found : Run σ Bool) (Body.holds found : Run τ Bool) :=
  requests.holds (fun _ => (Aloof.pure ()).silent) found

end Silent

/-! ## Sinks that have failed -/

section

variable [Sink τ]

/-- A computation that ends at once when the sink has failed. -/
def Halts (d : Run τ α) : Prop :=
  ∀ t : State τ, Sink.failed t.sink = true → ∃ e t', d t = (.error e, t') ∧ t'.sink = t.sink

theorem Halts.bind {d : Run τ α} (h : Halts d) (l : α → Run τ β) : Halts (d >>= l) := by
  intro t ht
  obtain ⟨e, t', hd, hsink⟩ := h t ht
  refine ⟨e, t', ?_, hsink⟩
  rw [Run.bind_apply, hd]

/-- A sink that has failed is asked before anything else is done. -/
theorem halts_copyText (n : Nat) : Halts (Run.copyText false n : Run τ (Option Marker)) := by
  intro t ht
  cases n with
  | zero => exact ⟨.exhausted, t, rfl, rfl⟩
  | succ n => exact ⟨_, t, copyText_failed ht, rfl⟩

theorem halts_checkSink : Halts (Run.checkSink false : Run τ Unit) := by
  intro t ht
  refine ⟨.failed .sinkFailed, t, ?_, rfl⟩
  rw [checkSink_apply, ht]
  rfl

end

/-! ## Coupled sinks -/

variable [Sink σ] [Sink τ] [Observer σ] [Observer τ]

/-- How two sinks go along that are told the same: they are `level` until the second breaks, which
ends its render; from then on the first one gets `ahead`.  A brace and the character behind it are
written with no question between them.  What may still happen in a render whose sink has broken are
the leaving of scopes and the closing of sequences, and they must not bring the sinks apart. -/
structure Coupling (σ τ : Type) [Sink σ] [Sink τ] [Observer σ] [Observer τ] where
  level : σ → τ → Prop
  broken : σ → τ → Prop
  ahead : σ → τ → Prop
  failed_level {w : σ} {x : τ} : level w x → Sink.failed w = Sink.failed x
  failed_broken {w : σ} {x : τ} : broken w x → Sink.failed x = true
  write {w : σ} {x : τ} (text : String) : level w x →
    level (Sink.write w text) (Sink.write x text) ∨ broken (Sink.write w text) (Sink.write x text)
  brace {w : σ} {x : τ} (c : Char) : level w x →
    level (Sink.write (Sink.write w "\x7b") (String.singleton c))
      (Sink.write (Sink.write x "\x7b") (String.singleton c)) ∨
    broken (Sink.write (Sink.write w "\x7b") (String.singleton c))
      (Sink.write (Sink.write x "\x7b") (String.singleton c))
  notice {w : σ} {x : τ} (occasion : Occasion) :
    level w x → level (Observer.notice occasion w) (Observer.notice occasion x)
  leaving {w : σ} {x : τ} :
    broken w x → broken (Observer.notice .leaving w) (Observer.notice .leaving x)
  ahead_broken {w : σ} {x : τ} : broken w x → ahead w x
  ahead_write {w : σ} {x : τ} (text : String) : ahead w x → ahead (Sink.write w text) x
  ahead_notice {w : σ} {x : τ} (occasion : Occasion) :
    ahead w x → ahead (Observer.notice occasion w) x
  ahead_closed {w : σ} {x : τ} (written : Except Halt Unit) (closing : Except DataError Unit) :
    ahead w x → ahead w (Observer.notice (.closed written closing) x)

variable {K : Coupling σ τ} {T : α → Prop} {U : β → Prop}

/-- What a computation comes to for two sinks.  Both have come to the same and are level; or the
second has broken with the last write, and the answer has the property `T`; or the second run has
ended, and the first one has gone on. -/
inductive Outcome (K : Coupling σ τ) (T : α → Prop) :
    Except Halt α × State σ → Except Halt α × State τ → Prop where
  | level {s : State σ} {w : τ} (x : Except Halt α) (h : K.level s.sink w) :
    Outcome K T (x, s) (x, s.withSink w)
  | broken {s : State σ} {w : τ} {a : α} (ha : T a) (h : K.broken s.sink w) :
    Outcome K T (.ok a, s) (.ok a, s.withSink w)
  | ahead {s : State σ} {t : State τ} (x : Except Halt α) (e : Halt) (h : K.ahead s.sink t.sink) :
    Outcome K T (x, s) (.error e, t)

/-- No answer: a computation never answers right behind a write that has broken the second sink. -/
abbrev Never : α → Prop := fun _ => False

/-- A computation that stays in pace from level sinks on.  When the first run goes on alone, it
stays ahead. -/
structure InPace (K : Coupling σ τ) (T : α → Prop) (c : Run σ α) (d : Run τ α) : Prop where
  outcome : ∀ s w, K.level s.sink w → Outcome K T (c s) (d (s.withSink w))
  ahead : ∀ s w, K.ahead s.sink w → K.ahead (c s).2.sink w

/-- What follows a write that has broken the second sink. -/
def Settles (K : Coupling σ τ) (T : α → Prop) (c : Run σ α) (d : Run τ α) : Prop :=
  ∀ s w, K.broken s.sink w → Outcome K T (c s) (d (s.withSink w))

namespace Settles

/-- The second run ends at once, and the first one goes on. -/
theorem of_halts {T' : α → Prop} {c : Run σ α} {d : Run τ α} (hc : InPace K T c d) (hd : Halts d) :
    Settles K T' c d := by
  intro s w h
  obtain ⟨e, t', heq, hsink⟩ := hd (s.withSink w) (K.failed_broken h)
  rw [heq]
  refine .ahead _ e ?_
  rw [hsink]
  exact hc.ahead s w (K.ahead_broken h)

/-- Nothing is written that could be told. -/
theorem of_aloof {c : Run σ α} {d : Run τ α} (h : Aloof c d)
    (hT : ∀ s a, (c s).1 = .ok a → T a) : Settles K T c d := by
  intro s w hbroken
  obtain ⟨hd, hsink⟩ := h.silent s w
  have hanswer := hT s
  rw [hd]
  rw [← hsink] at hbroken
  generalize c s = x at hbroken hanswer
  obtain ⟨answer, s'⟩ := x
  cases answer with
  | ok a => exact .broken (hanswer a rfl) hbroken
  | error e => exact .ahead _ e (K.ahead_broken hbroken)

end Settles

namespace InPace

variable {c : Run σ α} {d : Run τ α} {k : α → Run σ β} {l : α → Run τ β}

theorem of_silent (h : Silent c d) : InPace K T c d where
  outcome := by
    intro s w hlevel
    obtain ⟨hd, hsink⟩ := h s w
    rw [hd]
    rw [← hsink] at hlevel
    exact .level _ hlevel
  ahead := by
    intro s w hahead
    rw [(h s w).2]
    exact hahead

theorem of_aloof (h : Aloof c d) : InPace K T c d := of_silent h.silent

theorem mono {T' : α → Prop} (h : InPace K T c d) (hT : ∀ a, T a → T' a) : InPace K T' c d where
  outcome := by
    intro s w hlevel
    have outcome := h.outcome s w hlevel
    generalize c s = x at outcome
    generalize d (s.withSink w) = y at outcome
    cases outcome with
    | level x h => exact .level x h
    | broken ha h => exact .broken (hT _ ha) h
    | ahead x e h => exact .ahead x e h
  ahead := h.ahead

/-- One computation behind the other: when the second sink has broken in the first one, the other
one must settle it. -/
theorem bind (h : InPace K T c d) (hk : ∀ a, InPace K U (k a) (l a))
    (hT : ∀ a, T a → Settles K U (k a) (l a)) : InPace K U (c >>= k) (d >>= l) where
  outcome := by
    intro s w hlevel
    have outcome := h.outcome s w hlevel
    rw [Run.bind_apply, Run.bind_apply]
    generalize c s = x at outcome
    generalize d (s.withSink w) = y at outcome
    cases outcome with
    | @level s' w' x h =>
      cases x with
      | error e => exact .level _ h
      | ok a => exact (hk a).outcome s' w' h
    | broken ha h => exact hT _ ha _ _ h
    | @ahead s' t' x e h =>
      cases x with
      | error e' => exact .ahead _ e h
      | ok a =>
        have later := (hk a).ahead s' t'.sink h
        dsimp only
        generalize k a s' = x at later
        exact .ahead x.1 e later
  ahead := by
    intro s w hahead
    have first := h.ahead s w hahead
    rw [Run.bind_apply]
    generalize c s = x at first
    obtain ⟨answer, s'⟩ := x
    cases answer with
    | error e => exact first
    | ok a => exact (hk a).ahead s' w first

/-- The first of the two never answers behind a breaking write. -/
theorem andThen (h : InPace K Never c d) (hk : ∀ a, InPace K U (k a) (l a)) :
    InPace K U (c >>= k) (d >>= l) := h.bind hk fun _ ha => ha.elim

/-- The first of the two does not know the sink. -/
theorem behind (h : Aloof c d) (hk : ∀ a, InPace K U (k a) (l a)) :
    InPace K U (c >>= k) (d >>= l) := (of_aloof h).andThen hk

/-- The second of the two does not know the sink. -/
theorem before (h : InPace K T c d) (hk : ∀ a, Aloof (k a) (l a)) (hU : ∀ a, T a → ∀ b, U b) :
    InPace K U (c >>= k) (d >>= l) :=
  h.bind (fun a => of_aloof (hk a)) fun a ha => .of_aloof (hk a) fun _ b _ => hU a ha b

theorem map (h : InPace K T c d) (f : α → β) (hU : ∀ a, T a → U (f a)) :
    InPace K U (f <$> c) (f <$> d) where
  outcome := by
    intro s w hlevel
    have outcome := h.outcome s w hlevel
    rw [Run.map_apply, Run.map_apply]
    generalize c s = x at outcome
    generalize d (s.withSink w) = y at outcome
    cases outcome with
    | level x h => cases x <;> exact .level _ h
    | broken ha h => exact .broken (hU _ ha) h
    | ahead x e h => cases x <;> exact .ahead _ e h
  ahead := by
    intro s w hahead
    have first := h.ahead s w hahead
    rw [Run.map_apply]
    generalize c s = x at first
    obtain ⟨answer, s'⟩ := x
    cases answer <;> exact first

/-- Looking at the state. -/
theorem look {k : State σ → Run σ β} {l : State τ → Run τ β}
    (h : ∀ s w, InPace K U (k s) (l (s.withSink w))) : InPace K U (get >>= k) (get >>= l) where
  outcome := fun s w => (h s w).outcome s w
  ahead := fun s w => (h s w).ahead s w

/-- Both sinks are told. -/
theorem notice (occasion : Occasion) :
    InPace K Never (Run.notice occasion) (Run.notice occasion) where
  outcome := fun s _ h => .level (s := s.told occasion) (.ok ()) (K.notice occasion h)
  ahead := fun _ _ h => K.ahead_notice occasion h

/-- Something is pushed before a computation, and popped behind it. -/
theorem around {push pop : State σ → State σ} {push' pop' : State τ → State τ}
    (hpush : Aloof (modify push : Run σ Unit) (modify push' : Run τ Unit))
    (hpop : Aloof (modify pop : Run σ Unit) (modify pop' : Run τ Unit)) (h : InPace K T c d) :
    InPace K T (do modify push; let a ← c; modify pop; pure a)
      (do modify push'; let a ← d; modify pop'; pure a) := by
  have popped (a : α) := hpop.bind fun _ => Aloof.pure (σ := σ) (τ := τ) a
  refine behind hpush fun _ => h.bind (fun a => of_aloof (popped a)) fun a ha => ?_
  refine .of_aloof (popped a) fun s a' heq => ?_
  rw [← Except.ok.inj heq]
  exact ha

/-- A scope may be left behind a breaking write. -/
theorem inScope (h : InPace K T c d) (scope : Scope) :
    InPace K T (Run.inScope scope c) (Run.inScope scope d) where
  outcome := by
    intro s w hlevel
    have outcome := h.outcome (s.push scope) (Observer.notice (.entering scope) w)
      (K.notice _ hlevel)
    rw [inScope_told, inScope_told,
      show (s.withSink w).push scope =
        (s.push scope).withSink (Observer.notice (.entering scope) w) from rfl]
    generalize c (s.push scope) = x at outcome
    generalize d ((s.push scope).withSink (Observer.notice (.entering scope) w)) = y at outcome
    cases outcome with
    | @level s' w' x h =>
      cases x with
      | error e => exact .level _ h
      | ok a => exact .level (s := s'.pop) (.ok a) (K.notice .leaving h)
    | @broken s' w' a ha h => exact .broken (s := s'.pop) ha (K.leaving h)
    | @ahead s' t' x e h =>
      cases x with
      | error e' => exact .ahead _ e h
      | ok a => exact .ahead (s := s'.pop) (.ok a) e (K.ahead_notice .leaving h)
  ahead := by
    intro s w hahead
    have inner := h.ahead (s.push scope) w (K.ahead_notice _ hahead)
    rw [inScope_told]
    generalize c (s.push scope) = x at inner
    obtain ⟨answer, s'⟩ := x
    cases answer with
    | error e => exact inner
    | ok a => exact K.ahead_notice .leaving inner

theorem inSection (h : InPace K T c d) (name : String) :
    InPace K T (Run.inSection name c) (Run.inSection name d) :=
  around (fun _ _ _ => ⟨rfl, rfl, rfl⟩) (fun _ _ _ => ⟨rfl, rfl, rfl⟩) h

/-! ## Writing -/

/-- A write breaks the second sink, or leaves both level. -/
theorem emit (muted : Bool) (text : String) :
    InPace K (fun _ => muted = false) (Run.emit muted text) (Run.emit muted text) := by
  cases muted with
  | true => exact of_aloof (.pure ())
  | false =>
    refine ⟨fun s _ hlevel => ?_, fun _ _ hahead => K.ahead_write text hahead⟩
    rcases K.write text hlevel with h | h
    · exact .level (s := { s with sink := Sink.write s.sink text }) (.ok ()) h
    · exact .broken (s := { s with sink := Sink.write s.sink text }) rfl h

/-- A brace and the character behind it. -/
theorem emitBrace (muted : Bool) (c : Char) :
    InPace K (fun _ => muted = false)
      (Run.emit muted "\x7b" >>= fun _ => Run.emit muted (String.singleton c))
      (Run.emit muted "\x7b" >>= fun _ => Run.emit muted (String.singleton c)) := by
  cases muted with
  | true => exact of_aloof (.pure ())
  | false =>
    refine ⟨fun s _ hlevel => ?_, fun _ _ hahead => K.ahead_write _ (K.ahead_write _ hahead)⟩
    let sink := Sink.write (Sink.write s.sink "\x7b") (String.singleton c)
    rcases K.brace c hlevel with h | h
    · exact .level (s := { s with sink := sink }) (.ok ()) h
    · exact .broken (s := { s with sink := sink }) rfl h

theorem checkSink (muted : Bool) :
    InPace K Never (Run.checkSink muted) (Run.checkSink muted) where
  outcome := by
    intro s w hlevel
    rw [checkSink_apply, checkSink_apply]
    show Outcome K Never _ (if !muted && Sink.failed w then _ else _)
    rw [← K.failed_level hlevel]
    split
    · exact .level _ hlevel
    · exact .level _ hlevel
  ahead := by
    intro s w hahead
    rw [checkSink_apply]
    split <;> exact hahead

/-- Copying reads on only when the sink has not failed, so that it answers behind a breaking write
at the end of the text only. -/
theorem copyText (muted : Bool) (n : Nat) :
    InPace K (fun found => muted = false ∧ found = none) (Run.copyText muted n)
      (Run.copyText muted n) := by
  induction n with
  | zero => exact of_aloof .exhausted
  | succ n ih =>
    -- copying goes on behind a write, but not when the sink has failed
    have goOn {c : Run σ Unit} {d : Run τ Unit} (h : InPace K (fun _ => muted = false) c d) :
        InPace K (fun found => muted = false ∧ found = none) (c >>= fun _ => Run.copyText muted n)
          (d >>= fun _ => Run.copyText muted n) := by
      refine h.bind (fun _ => ih) fun _ hmuted => ?_
      subst hmuted
      exact .of_halts ih (halts_copyText n)
    rw [Run.copyText, Run.copyText]
    refine (checkSink muted).andThen fun _ => behind .readChar fun first => ?_
    cases first with
    | none => exact of_aloof (.pure none)
    | some c =>
      dsimp only
      by_cases hc : c = '{'
      · rw [if_pos hc, if_pos hc]
        refine behind .readChar fun second => ?_
        cases second with
        | none =>
          refine (emit muted "\x7b").bind (fun _ => of_aloof (.pure none)) fun _ hmuted => ?_
          exact fun s w h => .broken ⟨hmuted, rfl⟩ h
        | some c =>
          dsimp only
          by_cases hc : c = '{'
          · rw [if_pos hc, if_pos hc]
            exact (of_aloof (T := Never) .readMarker).map some fun _ ha => ha.elim
          · rw [if_neg hc, if_neg hc, ← bind_assoc, ← bind_assoc]
            exact goOn (emitBrace muted c)
      · rw [if_neg hc, if_neg hc]
        exact goOn (emit muted _)

/-! ## Looking up -/

/-- Computations that never answer behind a breaking write. -/
theorem compositional :
    Compositional fun _ (c : Run σ _) (d : Run τ _) => InPace K Never c d where
  answer a := of_aloof (.pure a)
  halt e := of_silent (Silent.compositional.halt e)
  bind := andThen

theorem requests :
    Compositional.Requests fun _ (c : Run σ _) (d : Run τ _) => InPace K Never c d where
  toCompositional := compositional
  stepsLeft id := of_silent (Silent.requests.stepsLeft id)
  nextRow id := of_silent (Silent.requests.nextRow id)
  hasNext id := of_silent (Silent.requests.hasNext id)

theorem sections :
    Compositional.Sections fun _ (c : Run σ _) (d : Run τ _) => InPace K Never c d where
  toCompositional := compositional
  scanning h := h.inScope _
  inSection name h := h.inSection name
  holds := requests.holds fun _ => notice _

theorem resolve (job : Job) (v : Value) (name : String) :
    InPace K Never (Body.resolve job v name) (Body.resolve job v name) :=
  compositional.resolve (notice _) (of_aloof (.texts job)) v name

theorem substitute (job : Job) (muted : Bool) (v : Value) (m : Marker) :
    InPace K (fun _ => muted = false) (Body.substitute job muted v m)
      (Body.substitute job muted v m) := by
  refine (resolve job v m.name).andThen fun found => ?_
  cases found with
  | none => exact of_aloof (.pure ())
  | some value => exact emit muted _

/-- A sequence is asked for its next element. -/
theorem pull (elements : Elements) :
    InPace K Never (Body.pull elements) (Body.pull elements) := by
  refine (notice .pulling).andThen fun _ => (requests.next elements).andThen fun answer => ?_
  exact (notice _).andThen fun _ => of_aloof (.pure _)

theorem reopen (resolved : String) (kept : Option Reader) :
    InPace K Never (Body.reopen resolved kept) (Body.reopen resolved kept) := by
  cases kept with
  | some r => exact of_aloof (.pure _)
  | none => exact (notice _).andThen fun _ => of_aloof (.openReader _ _)

end InPace

/-! ## Bodies -/

/-- Bodies that stay in pace.  They answer behind a breaking write at the end of the text only, and
they end at once when the sink has failed. -/
structure Bodies (K : Coupling σ τ) (b : Bool → Value → Run σ Exit)
    (c : Bool → Value → Run τ Exit) : Prop where
  inPace : ∀ muted v,
    InPace K (fun exit => muted = false ∧ exit = .endOfText) (b muted v) (c muted v)
  halts : ∀ v, Halts (c false v)

namespace Bodies

variable {b : Bool → Value → Run σ Exit} {c : Bool → Value → Run τ Exit}

/-- A body that answers behind a breaking write has no end marker. -/
theorem closed (B : Bodies K b c) (name : String) (muted : Bool) (v : Value) :
    InPace K Never (Body.closed b name muted v) (Body.closed c name muted v) := by
  refine (B.inPace muted v).bind (fun exit => ?_) fun exit hexit => ?_
  · cases exit with
    | sectionEnd => exact .of_aloof (.pure ())
    | endOfText => exact .of_aloof (.fail _)
  · rw [hexit.2]
    exact fun s w h => .ahead _ _ (K.ahead_broken h)

theorem halts_closed (B : Bodies K b c) (name : String) (v : Value) :
    Halts (Body.closed c name false v) := (B.halts v).bind _

/-! ### Sequences -/

/-- The loop over the elements, by induction on its fuel.  The next element is asked for before the
separator is written, and behind the separator the body asks the sink. -/
theorem each (B : Bodies K b c) (name : String) (separator : Option String) (muted : Bool)
    (fuel : Nat) :
    ∀ (first : Bool) (element : Except DataError Value) (rest : Elements),
      InPace K Never (Body.each b name separator muted fuel first element rest)
        (Body.each c name separator muted fuel first element rest) := by
  induction fuel with
  | zero => exact fun _ _ _ => .of_aloof .exhausted
  | succ fuel ih =>
    intro first element rest
    unfold Body.each
    refine .behind (.answered element) fun v => (InPace.pull rest).andThen fun following => ?_
    obtain ⟨following, rest⟩ := following
    have separated : InPace K (fun _ => muted = false) (Body.separate separator first muted)
        (Body.separate separator first muted) := by
      unfold Body.separate
      split
      · exact .emit muted _
      · exact .of_aloof (.pure ())
    -- the body for this element, and what follows it
    have written (more : Bool) {x : Run σ Unit} {y : Run τ Unit} (h : InPace K Never x y) :
        InPace K Never
          (do
            markIf more
            Body.separate separator first muted
            Body.closed b name muted v.asDictionary
            x)
          (do
            markIf more
            Body.separate separator first muted
            Body.closed c name muted v.asDictionary
            y) := by
      have body := (B.closed name muted v.asDictionary).andThen fun _ => h
      refine .behind (.markIf more) fun _ => separated.bind (fun _ => body) fun _ hmuted => ?_
      subst hmuted
      exact .of_halts body ((B.halts_closed name _).bind _)
    cases following with
    | none => exact written false (.of_aloof (.pure ()))
    | some element => exact written true (.behind .rewind fun _ => ih false element rest)

theorem iterated (B : Bodies K b c) (name : String) (separator : Option String) (muted : Bool)
    (elements : Elements) :
    InPace K Never (Body.iterated b name separator muted elements)
      (Body.iterated c name separator muted elements) := by
  refine (InPace.requests.bound elements).andThen fun fuel => ?_
  refine (InPace.pull elements).andThen fun following => ?_
  obtain ⟨first, rest⟩ := following
  cases first with
  | none => exact InPace.sections.scan B.closed name
  | some element => exact (B.each name separator muted fuel true element rest).inScope _

/-- Closing a sequence does not know the sink, and happens behind a failure as well. -/
theorem sequence (B : Bodies K b c) (name : String) (separator : Option String) (muted : Bool)
    (elements : Elements) :
    InPace K Never (Body.sequence b name separator muted elements)
      (Body.sequence c name separator muted elements) where
  outcome := by
    intro s w hlevel
    let reached := Occasion.reached elements
    have outcome := (B.iterated name separator muted elements).outcome (s.told reached)
      (Observer.notice reached w) (K.notice reached hlevel)
    rw [Body.sequence_told, Body.sequence_told]
    change Outcome K Never _ (Body.iterated c name separator muted elements
      ((s.withSink w).told reached)) at outcome
    generalize Body.iterated b name separator muted elements (s.told reached) = x at outcome
    generalize Body.iterated c name separator muted elements ((s.withSink w).told reached) = y
      at outcome
    cases outcome with
    | @level s' w' x h => exact .level (s := elements.shut x s') _ (K.notice _ h)
    | broken ha => exact ha.elim
    | @ahead s' t' x e h =>
      exact .ahead (s := elements.shut x s') _ e (K.ahead_closed _ _ (K.ahead_notice _ h))
  ahead := by
    intro s w hahead
    have inner := (B.iterated name separator muted elements).ahead (s.told (.reached elements)) w
      (K.ahead_notice _ hahead)
    rw [Body.sequence_told]
    exact K.ahead_notice _ inner

/-! ### Included templates -/

/-- An included template ends where its body ends, also behind a breaking write. -/
theorem inTemplate (B : Bodies K b c) (resolved : String) (r : Reader) (muted : Bool) (v : Value) :
    InPace K (fun _ => muted = false) (Body.inTemplate b resolved r muted v)
      (Body.inTemplate c resolved r muted v) where
  outcome := by
    intro s w hlevel
    have outcome := (B.inPace muted v).outcome (s.enter resolved r) w hlevel
    rw [inTemplate_apply, inTemplate_apply,
      show (s.withSink w).enter resolved r = (s.enter resolved r).withSink w from rfl]
    generalize b muted v (s.enter resolved r) = x at outcome
    generalize c muted v ((s.enter resolved r).withSink w) = y at outcome
    cases outcome with
    | @level inner w' x h =>
      cases x with
      | error e => exact .level _ h
      | ok exit => exact .level (s := s.leave inner) (.ok inner.reader) h
    | @broken inner w' exit ha h =>
      exact .broken (s := s.leave inner) (a := inner.reader) ha.1 h
    | @ahead inner t' x e h =>
      cases x with
      | error e' => exact .ahead _ e h
      | ok exit => exact .ahead (s := s.leave inner) (.ok inner.reader) e h
  ahead := by
    intro s w hahead
    have inner := (B.inPace muted v).ahead (s.enter resolved r) w hahead
    rw [inTemplate_apply]
    generalize b muted v (s.enter resolved r) = x at inner
    obtain ⟨answer, s'⟩ := x
    cases answer <;> exact inner

theorem entering (B : Bodies K b c) (job : Job) (name : String) (muted : Bool) (v : Value) :
    InPace K (fun _ => muted = false) (Body.entering b Body.reopen job name muted v)
      (Body.entering c Body.reopen job name muted v) := by
  refine .behind (.takeReader name) fun kept => InPace.look fun s w => ?_
  rw [show (s.withSink w).active = s.active from rfl]
  by_cases hactive : s.active.contains (resolveRelative job.template name) = true
  · rw [if_pos hactive, if_pos hactive]
    exact .of_aloof (.fail _)
  · rw [if_neg hactive, if_neg hactive]
    refine (InPace.reopen _ kept).andThen fun r => (InPace.notice _).andThen fun _ => ?_
    exact (B.inTemplate _ r muted v).before (.keepReader name) fun _ hmuted _ => hmuted

theorem included (B : Bodies K b c) (job : Job) (name : String) (muted : Bool) (v : Value) :
    InPace K (fun _ => muted = false) (Body.included b Body.reopen job name muted v)
      (Body.included c Body.reopen job name muted v) := by
  refine (InPace.notice _).andThen fun _ => InPace.look fun s w => ?_
  rw [show (s.withSink w).scopes = s.scopes from rfl]
  have enter := B.entering (K := K) job name muted v
  cases s.scopes with
  | nil => exact enter
  | cons scope _ =>
    cases scope with
    | discarding => exact .of_aloof (.pure ())
    | caching _ => exact enter

/-! ### Markers -/

/-- What a marker comes to, when the second sink has broken in it: the body goes on. -/
theorem obey (B : Bodies K b c) (job : Job) (muted : Bool) (v : Value) (m : Marker) :
    InPace K (fun exit => muted = false ∧ exit = none) (Body.obey b Body.reopen job muted v m)
      (Body.obey c Body.reopen job muted v m) := by
  have none_behind {x : Run σ Unit} {y : Run τ Unit} (h : InPace K (fun _ => muted = false) x y) :
      InPace K (fun exit : Option Exit => muted = false ∧ exit = none)
        (x >>= fun _ => pure none) (y >>= fun _ => pure none) :=
    h.bind (fun _ => .of_aloof (.pure none)) fun _ hmuted _ _ h => .broken ⟨hmuted, rfl⟩ h
  have repeating := InPace.sections.repeating B.closed m muted v
    (B.sequence m.name m.separator muted)
  have conditional (inverted : Bool) := InPace.sections.conditional B.closed m inverted muted v
  unfold Body.obey
  cases m.kind with
  | comment => exact .of_aloof (.pure none)
  | «variable» => exact none_behind (.substitute job muted v m)
  | repeating => exact none_behind (repeating.mono fun _ h => h.elim)
  | conditional => exact none_behind ((conditional false).mono fun _ h => h.elim)
  | inverted => exact none_behind ((conditional true).mono fun _ h => h.elim)
  | «include» => exact none_behind (B.included job m.name muted v)
  | sectionEnd => exact (InPace.of_aloof (T := Never) (.sectionEnd m.name)).map some nofun

/-- **One more marker**: the text in front of it, the marker, and the body behind it, which asks the
sink first. -/
theorem step (B : Bodies K b c) (job : Job) :
    Bodies K (Body.step b Body.reopen job) (Body.step c Body.reopen job) where
  inPace := by
    intro muted v
    refine InPace.look fun s w => ?_
    rw [show (s.withSink w).reader = s.reader from rfl]
    refine (InPace.copyText muted _).bind (fun found => ?_) fun found hfound => ?_
    · cases found with
      | none => exact .of_aloof (.pure _)
      | some m =>
        refine (B.obey job muted v m).bind (fun exit => ?_) fun exit hexit => ?_
        · cases exit with
          | some exit => exact .of_aloof (.pure _)
          | none => exact B.inPace muted v
        · obtain ⟨rfl, rfl⟩ := hexit
          exact .of_halts (B.inPace false v) (B.halts v)
    · obtain ⟨rfl, rfl⟩ := hfound
      exact fun _ _ h => .broken ⟨rfl, rfl⟩ h
  halts := by
    intro v t ht
    exact (halts_copyText (t.reader.charsLeft + 1)).bind _ t ht

/-- Bodies stay in pace, by induction on the fuel. -/
theorem write (job : Job) (n : Nat) : Bodies K (Body.write job n) (Body.write job n) := by
  induction n with
  | zero => exact ⟨fun _ _ => .of_aloof .exhausted, fun _ t _ => ⟨.exhausted, t, rfl, rfl⟩⟩
  | succ n ih => exact ih.step job

end Bodies

/-! ## Whole renders -/

/-- What a render has come to, with another sink. -/
def Rendered.withSink (r : Rendered σ) (w : τ) : Rendered τ :=
  { sink := w, streams := r.streams, shelf := r.shelf }

/-- What a render comes to for two sinks: to the same, or the second one has failed. -/
inductive Finish (K : Coupling σ τ) :
    Except Halt Unit × Rendered σ → Except Halt Unit × Rendered τ → Prop where
  | level {r : Rendered σ} {w : τ} (x : Except Halt Unit) (h : K.level r.sink w) :
    Finish K (x, r) (x, r.withSink w)
  | ahead {r : Rendered σ} {r' : Rendered τ} (x : Except Halt Unit) (e : Halt)
    (h : K.ahead r.sink r'.sink) : Finish K (x, r) (.error e, r')

/-- **Whole renders stay in pace**, up to the failure of the second sink. -/
theorem Template.write_inPace (t : Template) (o : RenderOptions) (v : Value)
    {start : Rendered σ} {w : τ} (h : K.level start.sink w) :
    Finish K (t.write o v start) (t.write o v (start.withSink w)) := by
  unfold write
  rw [writeBy_apply, writeBy_apply]
  by_cases hnull : v.isNull
  · rw [if_pos hnull, if_pos hnull]
    exact .level _ h
  · rw [if_neg hnull, if_neg hnull, writeDictionary_apply, writeDictionary_apply]
    rw [show (start.withSink w).shelf = start.shelf from rfl]
    cases start.shelf.loader.openNamed t.name with
    | error e => exact .level (r := start) _ h
    | ok source =>
      -- behind the body the sink is asked once more
      have behind : InPace K Never
          (behindOpening Body.write (t.job o) v.asDictionary (fuelFor start.shelf.loader))
          (behindOpening Body.write (t.job o) v.asDictionary (fuelFor start.shelf.loader)) := by
        have body := ((Bodies.write (K := K) (t.job o) (fuelFor start.shelf.loader)).inPace false
          v.asDictionary).inScope (.caching [])
        refine (body.map (U := fun _ => True) _ fun _ _ => trivial).bind
          (fun _ => .checkSink false) fun _ _ => ?_
        exact .of_halts (.checkSink false) halts_checkSink
      have outcome := behind.outcome (t.started start source) w h
      change Outcome K Never _ (behindOpening Body.write (t.job o) v.asDictionary
        (fuelFor start.shelf.loader) (t.started (start.withSink w) source)) at outcome
      dsimp only
      generalize behindOpening Body.write (t.job o) v.asDictionary
        (fuelFor start.shelf.loader) (t.started start source) = x at outcome
      generalize behindOpening Body.write (t.job o) v.asDictionary
        (fuelFor start.shelf.loader) (t.started (start.withSink w) source) = y at outcome
      cases outcome with
      | @level s' w' x h => exact .level (r := ⟨s'.sink, s'.streams, s'.shelf⟩) x h
      | broken ha => exact ha.elim
      | ahead x e h => exact .ahead x e h

end Stencil
