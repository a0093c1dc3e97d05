import Stencil.Proofs.Render.Meaning
import Stencil.Proofs.Render.Twin

/-!
# Pieces of a template

A render takes a template apart token by token, and what it takes does not depend on the value. 
Here the script of a reader is cut into its tokens, up to its end or to the first failure: one of
the source, or a marker that cannot be read.

- `Script.token`: the first token of a script, and what is behind it;
- `Script.pieces`: all of its tokens, and the failure behind them;
- `Reader.Moved`: a reader that has been read up to a rest of its script;
- `copyText_takes`: **copying takes the first token of what lies ahead**.
-/

namespace Stencil

open Markup

namespace Markup

/-- What a script consists of: its tokens up to its end, or up to a failure. -/
structure Pieces where
  tokens : List Token
  failure : Option RenderError
  deriving DecidableEq

/-- One more token in front. -/
def Pieces.cons (token : Token) (p : Pieces) : Pieces := { p with tokens := token :: p.tokens }

end Markup

/-! ## Cutting a script -/

namespace Script

/-- A script is a feed like itself. -/
theorem paired_self : Feed.Paired (fun a b : Script => a = b) List.length where
  left := by
    rintro a _ rfl
    exact ⟨Nat.le_refl _, Nat.le_refl _⟩
  next := by
    rintro a _ rfl
    show Together _ _ (a.first, a.tail) (a.first, a.tail)
    cases a with
    | nil => exact .ok ⟨rfl, fun h => nomatch h⟩
    | cons e es =>
      cases e with
      | ok c => exact .ok ⟨rfl, fun _ => Nat.lt_succ_self _⟩
      | error e => exact .error trivial

theorem length_read {es rest : Script} {m : Marker} (h : Marker.read es = (.ok m, rest)) :
    rest.length < es.length := by
  have pair := paired_self.read (a := es) rfl
  rw [h] at pair
  cases pair with
  | ok h => exact h.2

/-- The first token of a script and what is behind it; nothing at the end.  An opening brace that
opens no marker goes with the character behind it. -/
def token : Script → Except RenderError (Option (Token × Script))
  | [] => .ok none
  | .error e :: _ => .error (.io e)
  | .ok c :: rest =>
    if c = '{' then
      match rest with
      | [] => .ok (some (.text [c], []))
      | .error e :: _ => .error (.io e)
      | .ok d :: rest =>
        if d = '{' then
          match Marker.read rest with
          | (.ok m, rest) => .ok (some (.marker m, rest))
          | (.error e, _) => .error e
        else .ok (some (.text [c, d], rest))
    else .ok (some (.text [c], rest))

theorem length_token {es rest : Script} {token : Token}
    (h : es.token = .ok (some (token, rest))) : rest.length < es.length := by
  have rest_of {t t' : Token} {r r' : Script}
      (h : (.ok (some (t, r)) : Except RenderError (Option (Token × Script))) = .ok (some (t', r'))) :
      r = r' := (Prod.mk.inj (Option.some.inj (Except.ok.inj h))).2
  unfold Script.token at h
  split at h
  · cases h
  · cases h
  · split at h
    · split at h
      · rw [← rest_of h]
        exact Nat.succ_pos _
      · cases h
      · split at h
        · split at h
          · rename_i hm
            rw [← rest_of h]
            exact Nat.lt_succ_of_lt (Nat.lt_succ_of_lt (length_read hm))
          · cases h
        · rw [← rest_of h]
          exact Nat.lt_succ_of_lt (Nat.lt_succ_self _)
    · rw [← rest_of h]
      exact Nat.lt_succ_self _

/-- The characters of a text, as a script, are a feed like the text. -/
theorem paired_ofChars : Feed.Paired (fun es cs => es = ofChars cs) List.length where
  left := by
    rintro _ cs rfl
    exact ⟨Nat.le_refl _, Nat.le_of_eq (length_ofChars cs)⟩
  next := by
    rintro _ cs rfl
    cases cs with
    | nil => exact .ok ⟨rfl, fun h => nomatch h⟩
    | cons c cs => exact .ok ⟨rfl, fun _ => Nat.lt_succ_self _⟩

/-- A text without failures has the tokens of its characters. -/
theorem token_ofChars {c : Char} {rest rest' : List Char} {t : Token}
    (h : Token.first? c rest = some (t, rest')) :
    (ofChars (c :: rest)).token = .ok (some (t, ofChars rest')) := by
  have found {x y : Token × List Char} (h : some x = some y) :
      (.ok (some (x.1, ofChars x.2)) : Except RenderError (Option (Token × Script))) =
        .ok (some (y.1, ofChars y.2)) := by
    rw [Option.some.inj h]
  unfold Token.first? at h
  by_cases hc : c = '{'
  · rw [if_pos hc] at h
    cases rest with
    | nil => exact (if_pos hc).trans (found h)
    | cons d rest =>
      refine (if_pos hc).trans ?_
      dsimp only at h
      by_cases hd : d = '{'
      · rw [if_pos hd] at h
        refine (if_pos hd).trans ?_
        have pair := paired_ofChars.read (b := rest) rfl
        change Together _ _ (Marker.read (ofChars rest)) _ at pair
        show (match Marker.read (ofChars rest) with
          | (.ok m, rest) => .ok (some (.marker m, rest))
          | (.error e, _) => .error e : Except RenderError (Option (Token × Script))) = _
        generalize Marker.read (ofChars rest) = x at pair ⊢
        generalize Marker.read rest = y at pair h
        cases pair with
        | error _ => cases h
        | ok hr =>
          rw [hr.1]
          exact found h
      · rw [if_neg hd] at h
        exact (if_neg hd).trans (found h)
  · rw [if_neg hc] at h
    exact (if_neg hc).trans (found h)

/-- The pieces of a script, at most `fuel` of them. -/
def cut : (fuel : Nat) → Script → Pieces
  | 0, _ => ⟨[], none⟩
  | fuel + 1, es =>
    match es.token with
    | .error e => ⟨[], some e⟩
    | .ok none => ⟨[], none⟩
    | .ok (some (token, rest)) => (cut fuel rest).cons token

/-- The pieces of a script. -/
def pieces (es : Script) : Pieces := cut (es.length + 1) es

/-- Fuel above the length is enough. -/
theorem cut_of_length_lt (n : Nat) :
    ∀ {m : Nat} {es : Script}, es.length < n → es.length < m → cut n es = cut m es := by
  induction n with
  | zero =>
    intro m es hn
    exact absurd hn (Nat.not_lt_zero _)
  | succ n ih =>
    intro m es hn hm
    obtain ⟨m, rfl⟩ : ∃ k, m = k + 1 := ⟨m - 1, by omega⟩
    rw [cut, cut]
    cases ht : es.token with
    | error e => rfl
    | ok found =>
      cases found with
      | none => rfl
      | some found =>
        obtain ⟨token, rest⟩ := found
        have hlen := length_token ht
        dsimp only
        rw [ih (by omega) (by omega : rest.length < m)]

theorem pieces_eq (es : Script) :
    es.pieces = match es.token with
      | .error e => ⟨[], some e⟩
      | .ok none => ⟨[], none⟩
      | .ok (some (token, rest)) => rest.pieces.cons token := by
  rw [pieces, cut]
  cases ht : es.token with
  | error e => rfl
  | ok found =>
    cases found with
    | none => rfl
    | some found =>
      obtain ⟨token, rest⟩ := found
      dsimp only
      rw [pieces, cut_of_length_lt _ (length_token ht) (Nat.lt_succ_self _)]

theorem pieces_cons {es rest : Script} {token : Token}
    (h : es.token = .ok (some (token, rest))) : es.pieces = rest.pieces.cons token := by
  rw [pieces_eq, h]

theorem pieces_end {es : Script} (h : es.token = .ok none) : es.pieces = ⟨[], none⟩ := by
  rw [pieces_eq, h]

theorem pieces_failed {es : Script} {e : RenderError} (h : es.token = .error e) :
    es.pieces = ⟨[], some e⟩ := by
  rw [pieces_eq, h]

end Script

/-! ## Moving on -/

/-- A reader that has been read up to a rest of its script. -/
structure Reader.Moved (r r' : Reader) (rest : Script) : Prop where
  valid : r'.Valid
  onward : r.Onward r'
  ahead : r'.ahead = rest

theorem Reader.Moved.trans {r r' r'' : Reader} {rest rest' : Script} (h : r.Moved r' rest)
    (h' : r'.Moved r'' rest') : r.Moved r'' rest' :=
  ⟨h'.valid, h.onward.trans h'.onward, h'.ahead⟩

variable {σ : Type} {s : State σ}

theorem readChar_apply (hv : s.reader.Valid) :
    match s.reader.ahead with
    | [] => ∃ r, Run.readChar s = (.ok none, { s with reader := r }) ∧ s.reader.Moved r []
    | .ok c :: es =>
      ∃ r, Run.readChar s = (.ok (some c), { s with reader := r }) ∧ s.reader.Moved r es
    | .error e :: _ => ∃ r, Run.readChar s = (.error (.failed (.io e)), { s with reader := r }) := by
  have step := Reader.read_ahead hv
  unfold Run.readChar
  cases ha : s.reader.ahead with
  | nil =>
    rw [ha] at step
    obtain ⟨r, hread, hv', hon, hahead, -⟩ := step
    rw [hread]
    exact ⟨r, rfl, hv', hon, hahead⟩
  | cons e es =>
    rw [ha] at step
    cases e with
    | ok c =>
      obtain ⟨r, hread, hv', hon, hahead, -⟩ := step
      rw [hread]
      exact ⟨r, rfl, hv', hon, hahead⟩
    | error e =>
      obtain ⟨r, hread⟩ := step
      rw [hread]
      exact ⟨r, rfl⟩

/-- A marker is read as from the script. -/
theorem readMarker_apply (hv : s.reader.Valid) :
    match Marker.read s.reader.ahead with
    | (.ok m, rest) => ∃ r, Run.readMarker s = (.ok m, { s with reader := r }) ∧
      s.reader.Moved r rest ∧ r.reach < s.reader.reach
    | (.error e, _) => ∃ r, Run.readMarker s = (.error (.failed e), { s with reader := r }) := by
  have pair := (Reader.paired_script s.reader).read ⟨hv, .refl _, rfl⟩
  unfold Run.readMarker
  generalize Marker.read s.reader = x at pair
  generalize Marker.read s.reader.ahead = y at pair
  cases pair with
  | ok h => exact ⟨_, rfl, ⟨h.1.1, h.1.2.1, h.1.2.2⟩, h.2⟩
  | error _ => exact ⟨_, rfl⟩

/-! ## Copying -/

variable [Sink σ]

/-- The sink behind copied characters. -/
def copied (muted : Bool) (chars : List Char) (w : σ) : σ :=
  if muted then w else (Writing.putAll chars w).2

theorem emit_apply (muted : Bool) (c : Char) (s : State σ) :
    Run.emit muted (String.singleton c) s =
      (.ok (), { s with sink := copied muted [c] s.sink }) := by
  cases muted <;> rfl

theorem copied_cons (muted : Bool) (c : Char) (chars : List Char) (w : σ) :
    copied muted chars (copied muted [c] w) = copied muted (c :: chars) w := by
  cases muted <;> rfl

/-- A sink that has failed ends copying, unless bodies are only scanned. -/
theorem copyText_failed {n : Nat} (h : Sink.failed s.sink) :
    Run.copyText false (n + 1) s = (.error (.failed .sinkFailed), s) := by
  rw [Run.copyText, Run.bind_apply, checkSink_apply, if_pos (by rw [h]; rfl)]

/-- What copying comes to behind the first token of what lies ahead. -/
inductive Takes (muted : Bool) (n : Nat) (s : State σ) :
    Except RenderError (Option (Token × Script)) → Except Halt (Option Marker) × State σ → Prop where
  | failure {e : RenderError} {r : Reader} :
    Takes muted n s (.error e) (.error (.failed e), { s with reader := r })
  | finish {r : Reader} (hr : s.reader.Moved r []) :
    Takes muted n s (.ok none) (.ok none, { s with reader := r })
  | marker {r : Reader} {m : Marker} {rest : Script} (hr : s.reader.Moved r rest)
    (hlt : r.reach < s.reader.reach) :
    Takes muted n s (.ok (some (.marker m, rest))) (.ok (some m), { s with reader := r })
  | text {r : Reader} {chars : List Char} {rest : Script} (hr : s.reader.Moved r rest)
    (hlt : r.reach < s.reader.reach) :
    Takes muted n s (.ok (some (.text chars, rest)))
      (Run.copyText muted n { s with reader := r, sink := copied muted chars s.sink })
  /-- An opening brace at the end of the template. -/
  | brace {r : Reader} {chars : List Char} (hr : s.reader.Moved r []) :
    Takes muted n s (.ok (some (.text chars, [])))
      (.ok none, { s with reader := r, sink := copied muted chars s.sink })

/-- **Copying takes the first token of what lies ahead**, unless the sink has failed. -/
theorem copyText_takes {muted : Bool} (n : Nat) (hv : s.reader.Valid)
    (hsink : muted ∨ Sink.failed s.sink = false) :
    Takes muted n s s.reader.ahead.token (Run.copyText muted (n + 1) s) := by
  have hcheck : Run.checkSink muted s = (.ok (), s) := by
    rw [checkSink_apply]
    refine if_neg ?_
    rcases hsink with h | h <;> rw [h] <;> simp
  -- reading a character lowers what can be reached
  have lower {r r' : Reader} {c : Char} {es : Script} (ha : r.ahead = .ok c :: es)
      (hm : r.Moved r' es) : r'.reach < r.reach := by
    rw [Reader.reach, Reader.reach, ha, hm.ahead]
    exact Nat.lt_succ_self _
  have first := readChar_apply hv
  rw [Run.copyText, Run.bind_apply, hcheck]
  dsimp only
  rw [Run.bind_apply]
  cases ha : s.reader.ahead with
  | nil =>
    -- the end of the template
    rw [ha] at first
    obtain ⟨r, hread, hr⟩ := first
    rw [hread]
    exact .finish hr
  | cons e rest =>
    rw [ha] at first
    cases e with
    | error e =>
      obtain ⟨r, hread⟩ := first
      rw [hread]
      exact .failure
    | ok c =>
      obtain ⟨r, hread, hr⟩ := first
      have hlt := lower ha hr
      rw [hread]
      unfold Script.token
      dsimp only
      by_cases hc : c = '{'
      · rw [if_pos hc, if_pos hc, Run.bind_apply]
        have second := readChar_apply (s := { s with reader := r }) hr.valid
        dsimp only at second
        rw [hr.ahead] at second
        cases rest with
        | nil =>
          -- a brace at the end
          obtain ⟨r', hread', hr'⟩ := second
          rw [hread']
          dsimp only
          rw [show "\x7b" = String.singleton '{' from rfl, Run.bind_apply, emit_apply, ← hc]
          exact .brace (hr.trans hr')
        | cons e rest =>
          cases e with
          | error e =>
            obtain ⟨r', hread'⟩ := second
            rw [hread']
            exact .failure
          | ok d =>
            obtain ⟨r', hread', hr'⟩ := second
            have hlt' := Nat.lt_trans (lower hr.ahead hr') hlt
            rw [hread']
            dsimp only
            by_cases hd : d = '{'
            · -- the start of a marker
              have third := readMarker_apply (s := { s with reader := r' }) hr'.valid
              dsimp only at third
              rw [hr'.ahead] at third
              rw [if_pos hd, if_pos hd, Run.map_apply]
              cases hm : Marker.read rest with
              | mk answer rest' =>
                rw [hm] at third
                cases answer with
                | error e =>
                  obtain ⟨r₂, hmarker⟩ := third
                  rw [hmarker]
                  exact .failure
                | ok m =>
                  obtain ⟨r₂, hmarker, hr₂, hlt₂⟩ := third
                  rw [hmarker]
                  exact .marker (hr.trans (hr'.trans hr₂)) (Nat.lt_trans hlt₂ hlt')
            · -- a brace in front of another character, both of them text
              rw [if_neg hd, if_neg hd, show "\x7b" = String.singleton '{' from rfl, Run.bind_apply,
                emit_apply]
              dsimp only
              rw [Run.bind_apply, emit_apply, copied_cons, ← hc]
              exact .text (hr.trans hr') hlt'
      · -- any other character
        rw [if_neg hc, if_neg hc, Run.bind_apply, emit_apply]
        exact .text hr hlt

end Stencil
