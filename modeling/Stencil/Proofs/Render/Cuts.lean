import Stencil.Proofs.Render.Outline

/-!
# Scripts cut at their tokens

A body ends behind some of the tokens ahead of its reader.  How many these are, and what lies behind
them, is told by the text alone: a failure of the source behind the end of the body changes nothing,
and no two places of a text are behind the same number of tokens.

- `Script.Cuts`: a script that starts with some tokens, and what is behind them;
- `Script.Cuts.unique`: a script is cut in one way only;
- `Script.Cuts.text`: **a text is cut like its script**, for all that failures may come behind;
- `Script.Cuts.outline_text`: what the outline tells of a script is what it tells of its text.
-/

namespace Stencil

open Markup

namespace Script

/-- A script that starts with these tokens, and what is behind them. -/
inductive Cuts : Script → List Token → Script → Prop where
  | nil (es : Script) : Cuts es [] es
  | cons {es rest rest' : Script} {token : Token} {ts : List Token}
    (ht : es.token = .ok (some (token, rest))) (h : Cuts rest ts rest') :
    Cuts es (token :: ts) rest'

namespace Cuts

variable {es rest rest' : Script} {ts ts' : List Token}

theorem trans (h : Cuts es ts rest) (h' : Cuts rest ts' rest') : Cuts es (ts ++ ts') rest' := by
  induction h with
  | nil => exact h'
  | cons ht _ ih => exact .cons ht (ih h')

theorem pieces (h : Cuts es ts rest) :
    es.pieces = ⟨ts ++ rest.pieces.tokens, rest.pieces.failure⟩ := by
  induction h with
  | nil => rfl
  | cons ht _ ih =>
    rw [pieces_cons ht, ih]
    rfl

/-- The same tokens are cut off at one place only. -/
theorem unique (h : Cuts es ts rest) (h' : Cuts es ts rest') : rest = rest' := by
  induction h with
  | nil => cases h' with | nil => rfl
  | cons ht _ ih =>
    cases h' with
    | cons ht' h' =>
      rw [ht] at ht'
      obtain ⟨-, rfl⟩ := Prod.mk.inj (Option.some.inj (Except.ok.inj ht'))
      exact ih h'

end Cuts

/-! ## Markers of a text

As long as no failure is met, a script is read like its text. -/

variable {es rest : Script}

/-- The first character of a script is the one of its text. -/
theorem next_text {c : Char} (h : Feed.next es = (.ok (some c), rest)) :
    es = .ok c :: rest ∧ Feed.next (ofChars es.text) = (.ok (some c), ofChars rest.text) := by
  cases es with
  | nil => cases h
  | cons e es =>
    cases e with
    | error e => cases h
    | ok c' =>
      obtain ⟨hc, rfl⟩ := Prod.mk.inj h
      obtain rfl := Option.some.inj (Except.ok.inj hc)
      exact ⟨rfl, rfl⟩

theorem readText_text (n : Nat) :
    ∀ {m : Nat} {es : Script} {cs : List Char}, Marker.readText n es = (.ok cs, rest) →
      es.text.length < m → Marker.readText m (ofChars es.text) = (.ok cs, ofChars rest.text) := by
  induction n with
  | zero =>
    intro m es cs h
    cases h
  | succ n ih =>
    intro m es cs h hm
    obtain ⟨m, rfl⟩ : ∃ k, m = k + 1 := ⟨m - 1, by omega⟩
    unfold Marker.readText at h
    split at h
    · cases h
    · cases h
    · rename_i c es' hnext
      obtain ⟨rfl, htext⟩ := next_text hnext
      have hlt : es'.text.length < m := Nat.lt_of_succ_lt_succ hm
      unfold Marker.readText
      rw [htext]
      dsimp only
      split at h
      · rename_i hc
        obtain ⟨hcs, rfl⟩ := Prod.mk.inj h
        rw [if_pos hc, hcs]
      · rename_i hc
        rw [if_neg hc]
        split at h
        · cases h
        · rename_i hread
          obtain ⟨hcs, rfl⟩ := Prod.mk.inj h
          rw [ih hread hlt, ← hcs]

theorem readKind_text {k : MarkerKind × List Char} (h : Marker.readKind es = (.ok k, rest)) :
    Marker.readKind (ofChars es.text) = (.ok k, ofChars rest.text) := by
  unfold Marker.readKind at h
  split at h
  · cases h
  · cases h
  · rename_i first es' hnext
    obtain ⟨rfl, htext⟩ := next_text hnext
    unfold Marker.readKind
    rw [htext]
    dsimp only at h ⊢
    split at h
    · rename_i hc
      obtain ⟨hk, rfl⟩ := Prod.mk.inj h
      rw [if_pos hc, hk]
    · rename_i hc
      rw [if_neg hc]
      split at h
      · cases h
      · rename_i text _ hread
        obtain ⟨hk, rfl⟩ := Prod.mk.inj h
        have hlen : es'.text.length < Feed.left (ofChars es'.text) + 1 :=
          Nat.lt_succ_of_le (Nat.le_of_eq (length_ofChars _).symm)
        rw [readText_text _ hread hlen, ← hk]

theorem read_text {m : Marker} (h : Marker.read es = (.ok m, rest)) :
    Marker.read (ofChars es.text) = (.ok m, ofChars rest.text) := by
  unfold Marker.read at h
  split at h
  · cases h
  · rename_i kind text es' hkind
    unfold Marker.read
    rw [readKind_text hkind]
    dsimp only at h ⊢
    split at h
    · cases h
    · rename_i hempty
      rw [if_neg hempty]
      split at h
      · cases h
      · cases h
      · rename_i c es'' hnext
        rw [(next_text hnext).2]
        dsimp only
        split at h
        · rename_i hc
          rw [if_pos hc]
          cases hparse : Marker.parse kind text with
          | none =>
            rw [hparse] at h
            cases h
          | some m' =>
            rw [hparse] at h
            obtain ⟨hm, rfl⟩ := Prod.mk.inj h
            dsimp only
            rw [hm]
        · cases h

/-! ## Tokens of a text -/

/-- A marker begins behind two braces. -/
theorem token_braces {m : Marker} (h : Marker.read es = (.ok m, rest)) :
    Script.token (.ok '{' :: .ok '{' :: es) = .ok (some (.marker m, rest)) := by
  simp only [Script.token, if_true, h]

theorem token_text {token : Token} (h : es.token = .ok (some (token, rest))) :
    (ofChars es.text).token = .ok (some (token, ofChars rest.text)) := by
  have found {x y : Token × Script}
      (h : (.ok (some x) : Except RenderError (Option (Token × Script))) = .ok (some y)) :
      (.ok (some (x.1, ofChars x.2.text)) : Except RenderError (Option (Token × Script))) =
        .ok (some (y.1, ofChars y.2.text)) := by
    rw [Option.some.inj (Except.ok.inj h)]
  cases es with
  | nil => cases h
  | cons e es =>
    cases e with
    | error e => cases h
    | ok c =>
      unfold Script.token at h
      dsimp only at h
      by_cases hc : c = '{'
      · rw [if_pos hc] at h
        cases es with
        | nil => exact (if_pos hc).trans (found h)
        | cons e es =>
          cases e with
          | error e => cases h
          | ok d =>
            dsimp only at h
            by_cases hd : d = '{'
            · rw [if_pos hd] at h
              subst hc hd
              cases hread : Marker.read es with
              | mk answer rest' =>
                rw [hread] at h
                cases answer with
                | error e => cases h
                | ok m => exact (token_braces (read_text hread)).trans (found h)
            · rw [if_neg hd] at h
              exact (if_pos hc).trans ((if_neg hd).trans (found h))
      · rw [if_neg hc] at h
        exact (if_neg hc).trans (found h)

/-- Nothing has a first token but the end. -/
theorem eq_nil_of_pieces (h : es.pieces = ⟨[], none⟩) : es = [] := by
  rw [pieces_eq] at h
  cases ht : es.token with
  | error e =>
    rw [ht] at h
    cases h
  | ok found =>
    rw [ht] at h
    cases found with
    | some found => cases h
    | none =>
      unfold Script.token at ht
      split at ht
      · rfl
      · cases ht
      · split at ht
        · split at ht
          · cases ht
          · cases ht
          · split at ht
            · split at ht <;> cases ht
            · cases ht
        · cases ht

end Script

/-! ## The outline of a text -/

namespace Markup

variable {failure : Option RenderError} {outer : List String}

/-- Behind an end marker nothing matters any more. -/
theorem outline_sectionEnd {ts rest : List Token} :
    ∀ {inner : List String}, outline failure outer inner ts = .ok (.sectionEnd, rest) →
      ∃ front, ts = front ++ rest ∧ ∀ failure' rest',
        outline failure' outer inner (front ++ rest') = .ok (.sectionEnd, rest') := by
  induction ts with
  | nil =>
    intro inner h
    cases failure with
    | some e => cases h
    | none => cases inner <;> cases h
  | cons token ts ih =>
    intro inner h
    -- a token that does not end the body stands in front of what is behind it
    have on {inner' : List String} (h : outline failure outer inner' ts = .ok (.sectionEnd, rest))
        (hstep : ∀ failure' ts', outline failure' outer inner (token :: ts') =
          outline failure' outer inner' ts') :
        ∃ front, token :: ts = front ++ rest ∧ ∀ failure' rest',
          outline failure' outer inner (front ++ rest') = .ok (.sectionEnd, rest') := by
      obtain ⟨front, rfl, hfront⟩ := ih h
      exact ⟨token :: front, rfl, fun failure' rest' => (hstep _ _).trans (hfront failure' rest')⟩
    cases token with
    | text chars => exact on h fun _ _ => rfl
    | marker m =>
      have hstep := fun failure' => outline_marker failure' outer inner m
      rw [hstep] at h
      cases hk : m.kind with
      | comment | «variable» | «include» | repeating | conditional | inverted =>
        simp only [hk] at h hstep
        exact on h hstep
      | sectionEnd =>
        simp only [hk] at h hstep
        cases hc : closing (inner ++ outer) m.name with
        | error e =>
          rw [hc] at h
          cases h
        | ok _ =>
          simp only [hc] at h hstep
          cases inner with
          | cons opened inner => exact on h hstep
          | nil =>
            obtain ⟨-, rfl⟩ := Prod.mk.inj (Except.ok.inj h)
            exact ⟨[.marker m], rfl, fun failure' rest' => hstep failure' rest'⟩

/-- A body that is not ended by a marker goes up to the end. -/
theorem outline_endOfText {ts rest : List Token} :
    ∀ {inner : List String}, outline failure outer inner ts = .ok (.endOfText, rest) →
      failure = none ∧ rest = [] := by
  induction ts with
  | nil =>
    intro inner h
    cases failure with
    | some e => cases h
    | none =>
      cases inner with
      | cons name inner => cases h
      | nil => exact ⟨rfl, (Prod.mk.inj (Except.ok.inj h)).2.symm⟩
  | cons token ts ih =>
    intro inner h
    cases token with
    | text chars => exact ih h
    | marker m =>
      rw [outline_marker] at h
      cases hk : m.kind with
      | comment | «variable» | «include» | repeating | conditional | inverted =>
        rw [hk] at h
        exact ih h
      | sectionEnd =>
        rw [hk] at h
        cases hc : closing (inner ++ outer) m.name with
        | error e =>
          rw [hc] at h
          cases h
        | ok _ =>
          rw [hc] at h
          cases inner with
          | cons opened inner => exact ih h
          | nil => cases h

end Markup

namespace Script.Cuts

variable {es rest : Script} {ts : List Token}

/-- **A text is cut like its script.** -/
theorem text (h : Cuts es ts rest) : Cuts (ofChars es.text) ts (ofChars rest.text) := by
  induction h with
  | nil es => exact .nil _
  | cons ht _ ih => exact .cons (token_text ht) ih

/-- What the outline tells of a script that is read up to here is what it tells of its text. -/
theorem outline_text (h : Cuts es ts rest) {outer : List String} {exit : Exit}
    (ho : outline es.pieces.failure outer [] es.pieces.tokens = .ok (exit, rest.pieces.tokens)) :
    outline (ofChars es.text).pieces.failure outer [] (ofChars es.text).pieces.tokens =
      .ok (exit, (ofChars rest.text).pieces.tokens) := by
  have hpieces := h.pieces
  cases exit with
  | sectionEnd =>
    obtain ⟨front, heq, hfront⟩ := outline_sectionEnd ho
    rw [hpieces] at heq
    obtain rfl : ts = front := List.append_cancel_right heq
    rw [h.text.pieces]
    exact hfront _ _
  | endOfText =>
    -- the whole script has been read, so that there are no failures in it
    obtain ⟨hfailure, hnil⟩ := outline_endOfText ho
    rw [hpieces] at hfailure
    obtain rfl : rest = [] := eq_nil_of_pieces (by
      show Pieces.mk rest.pieces.tokens rest.pieces.failure = _
      rw [hnil, hfailure])
    rw [show es.pieces = (ofChars es.text).pieces by rw [hpieces, h.text.pieces]; rfl] at ho
    exact ho

end Script.Cuts

end Stencil
