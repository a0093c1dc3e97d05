import Stencil.Proofs.Input.Source
import Stencil.Render.Marker

/-!
# Markers from different readers

Two readers that give the same characters give the same markers, whatever they have decoded so far
and however much fuel that makes them reckon with.  One of the two may as well be the list of the
characters itself.

- `Together`: two computations with the same result and related states;
- `Feed.Paired`: a relation of feeds that give the same characters and stay related;
- `Feed.Paired.read`: **related feeds give the same marker**, or fail in the same way;
- `Reader.Same`, `Reader.Onward`: readers with the same script, position and marks; a reader further
  on in its script.
-/

namespace Stencil

/-- Two computations with the same result: their states are related by `Q` after an answer, and by
`E` after a failure. -/
inductive Together {ε α σ τ : Type} (Q : α → σ → τ → Prop) (E : ε → σ → τ → Prop) :
    Except ε α × σ → Except ε α × τ → Prop where
  | ok {a : α} {s : σ} {t : τ} (h : Q a s t) : Together Q E (.ok a, s) (.ok a, t)
  | error {e : ε} {s : σ} {t : τ} (h : E e s t) : Together Q E (.error e, s) (.error e, t)

section

variable {ε α σ τ : Type} {Q Q' : α → σ → τ → Prop} {E E' : ε → σ → τ → Prop}

theorem Together.imp (hQ : ∀ a s t, Q a s t → Q' a s t) (hE : ∀ e s t, E e s t → E' e s t)
    {x : Except ε α × σ} {y : Except ε α × τ} (h : Together Q E x y) : Together Q' E' x y := by
  cases h with
  | ok h => exact .ok (hQ _ _ _ h)
  | error h => exact .error (hE _ _ _ h)

end

instance : Feed Script := ⟨fun es => (es.first, es.tail), List.length⟩

instance : Feed (List Char) := ⟨fun cs => (.ok cs.head?, cs.tail), List.length⟩

/-! ## Related feeds -/

/-- A relation of feeds that give the same characters and stay related as long as nothing fails.
`count` bounds the characters in front of the end or of a failure. -/
structure Feed.Paired {φ ψ : Type} [Feed φ] [Feed ψ] (R : φ → ψ → Prop) (count : φ → Nat) :
    Prop where
  left : ∀ {a b}, R a b → count a ≤ Feed.left a ∧ count a ≤ Feed.left b
  next : ∀ {a b}, R a b →
    Together (fun c a' b' => R a' b' ∧ (c.isSome → count a' < count a)) (fun _ _ _ => True)
      (Feed.next a) (Feed.next b)

namespace Feed.Paired

variable {φ ψ : Type} [Feed φ] [Feed ψ] {R : φ → ψ → Prop} {count : φ → Nat}

/-- Fuel above the count is enough, and more of it changes nothing. -/
theorem readText (p : Paired R count) (n : Nat) :
    ∀ {m : Nat} {a : φ} {b : ψ}, R a b → count a < n → count a < m →
      Together (fun _ a' b' => R a' b' ∧ count a' < count a) (fun _ _ _ => True)
        (Marker.readText n a) (Marker.readText m b) := by
  induction n with
  | zero =>
    intro m a b _ hn
    exact absurd hn (Nat.not_lt_zero _)
  | succ n ih =>
    intro m a b hab hn hm
    obtain ⟨m, rfl⟩ : ∃ k, m = k + 1 := ⟨m - 1, by omega⟩
    have step := p.next hab
    simp only [Marker.readText]
    cases hx : Feed.next a with
    | mk answer a' =>
      cases hy : Feed.next b with
      | mk answer' b' =>
        rw [hx, hy] at step
        cases step with
        | error _ => exact .error trivial
        | @ok c? _ _ h =>
          obtain ⟨hR, hcount⟩ := h
          cases c? with
          | none => exact .error trivial
          | some c =>
            have hlt := hcount rfl
            by_cases hc : c = '}'
            · simp only [if_pos hc]
              exact .ok ⟨hR, hlt⟩
            · simp only [if_neg hc]
              have rest := ih (m := m) hR (by omega) (by omega)
              cases hx' : Marker.readText n a' with
              | mk text a'' =>
                cases hy' : Marker.readText m b' with
                | mk text' b'' =>
                  rw [hx', hy'] at rest
                  cases rest with
                  | error _ => exact .error trivial
                  | ok h => exact .ok ⟨h.1, Nat.lt_trans h.2 hlt⟩

theorem readKind (p : Paired R count) {a : φ} {b : ψ} (hab : R a b) :
    Together (fun _ a' b' => R a' b' ∧ count a' < count a) (fun _ _ _ => True)
      (Marker.readKind a) (Marker.readKind b) := by
  have step := p.next hab
  simp only [Marker.readKind]
  cases hx : Feed.next a with
  | mk answer a' =>
    cases hy : Feed.next b with
    | mk answer' b' =>
      rw [hx, hy] at step
      cases step with
      | error _ => exact .error trivial
      | @ok c? _ _ h =>
        obtain ⟨hR, hcount⟩ := h
        cases c? with
        | none => exact .error trivial
        | some c =>
          have hlt := hcount rfl
          by_cases hc : MarkerKind.ofChar c = .variable ∧ c = '}'
          · -- nothing stands between the braces
            simp only [if_pos hc]
            exact .ok ⟨hR, hlt⟩
          · simp only [if_neg hc]
            obtain ⟨h₁, h₂⟩ := p.left hR
            have htext : Together _ _ (Marker.readText (Feed.left a' + 1) a')
                (Marker.readText (Feed.left b' + 1) b') :=
              p.readText _ hR (Nat.lt_succ_of_le h₁) (Nat.lt_succ_of_le h₂)
            cases hx' : Marker.readText (Feed.left a' + 1) a' with
            | mk text a'' =>
              cases hy' : Marker.readText (Feed.left b' + 1) b' with
              | mk text' b'' =>
                rw [hx', hy'] at htext
                cases htext with
                | error _ => exact .error trivial
                | ok h => exact .ok ⟨h.1, Nat.lt_trans h.2 hlt⟩

/-- **Related feeds give the same marker**, and are related behind it; or they fail in the same
way. -/
theorem read (p : Paired R count) {a : φ} {b : ψ} (hab : R a b) :
    Together (fun _ a' b' => R a' b' ∧ count a' < count a) (fun _ _ _ => True)
      (Marker.read a) (Marker.read b) := by
  have hkind := p.readKind hab
  simp only [Marker.read]
  cases hx : Marker.readKind a with
  | mk answer a' =>
    cases hy : Marker.readKind b with
    | mk answer' b' =>
      rw [hx, hy] at hkind
      cases hkind with
      | error _ => exact .error trivial
      | @ok k _ _ h =>
        obtain ⟨hR, hlt⟩ := h
        obtain ⟨kind, text⟩ := k
        dsimp only
        by_cases hempty : text.isEmpty
        · simp only [if_pos hempty]
          exact .error trivial
        · simp only [if_neg hempty]
          have step := p.next hR
          cases hx' : Feed.next a' with
          | mk answer a'' =>
            cases hy' : Feed.next b' with
            | mk answer' b'' =>
              rw [hx', hy'] at step
              cases step with
              | error _ => exact .error trivial
              | @ok c? _ _ h =>
                obtain ⟨hR', hcount⟩ := h
                cases c? with
                | none => exact .error trivial
                | some c =>
                  have hlt' := hcount rfl
                  by_cases hc : c = '}'
                  · -- the second closing brace: what stands before it is the same text
                    simp only [if_pos hc]
                    cases Marker.parse kind text with
                    | none => exact .error trivial
                    | some m => exact .ok ⟨hR', Nat.lt_trans hlt' hlt⟩
                  · simp only [if_neg hc]
                    exact .error trivial

end Feed.Paired

/-! ## Readers -/

namespace Reader

/-- A reader further on in its script, with the same marks. -/
structure Onward (r r' : Reader) : Prop where
  script : r'.script = r.script
  marks : r'.marks = r.marks
  position : r.position ≤ r'.position

theorem Onward.refl (r : Reader) : Onward r r := ⟨rfl, rfl, Nat.le_refl _⟩

theorem Onward.trans {r r' r'' : Reader} (h : Onward r r') (h' : Onward r' r'') : Onward r r'' :=
  ⟨h'.script.trans h.script, h'.marks.trans h.marks, Nat.le_trans h.position h'.position⟩

/-- Two readers that cannot be told apart by reading and going back. -/
structure Same (a b : Reader) : Prop where
  left : a.Valid
  right : b.Valid
  script : a.script = b.script
  position : a.position = b.position
  marks : a.marks = b.marks

theorem Same.ahead {a b : Reader} (h : Same a b) : a.ahead = b.ahead := by
  rw [Reader.ahead, Reader.ahead, h.script, h.position]

/-- The characters that can be read before a failure or the end. -/
def reach (r : Reader) : Nat := r.ahead.chars.length

/-- What a read gives, in terms of what lies ahead. -/
theorem read_ahead {r : Reader} (h : r.Valid) :
    match r.ahead with
    | [] => ∃ r', r.read = (.ok none, r') ∧ r'.Valid ∧ Onward r r' ∧ r'.ahead = [] ∧
      r'.position = r.position
    | .ok c :: es => ∃ r', r.read = (.ok (some c), r') ∧ r'.Valid ∧ Onward r r' ∧ r'.ahead = es ∧
      r'.position = r.position + 1
    | .error e :: _ => ∃ r', r.read = (.error e, r') := by
  have reads := reads_read h
  cases hr : r.read with
  | mk answer r' =>
    rw [hr] at reads
    cases reads with
    | @char c es _ ha hv hs hp hm =>
      rw [ha]
      refine ⟨r', rfl, hv, ⟨hs, hm, hp ▸ Nat.le_succ _⟩, ?_, hp⟩
      rw [ahead, hs, hp, ← List.tail_drop]
      exact congrArg List.tail ha
    | done ha hv hs hp hm =>
      rw [ha]
      refine ⟨r', rfl, hv, ⟨hs, hm, Nat.le_of_eq hp.symm⟩, ?_, hp⟩
      rw [ahead, hs, hp]
      exact ha
    | failed ha =>
      rw [ha]
      exact ⟨r', rfl⟩

/-- A reader and the list of what lies ahead of it are related feeds. -/
theorem paired_script (r : Reader) :
    Feed.Paired (fun a es => a.Valid ∧ Onward r a ∧ a.ahead = es) reach where
  left := by
    rintro a es ⟨hv, -, rfl⟩
    exact ⟨length_chars_ahead hv, Script.length_chars_le _⟩
  next := by
    rintro a es ⟨hv, hon, rfl⟩
    have step := read_ahead hv
    show Together _ _ a.read (a.ahead.first, a.ahead.tail)
    cases ha : a.ahead with
    | nil =>
      rw [ha] at step
      obtain ⟨a', hr, hv', hon', ha', -⟩ := step
      rw [hr]
      exact .ok ⟨⟨hv', hon.trans hon', ha'⟩, fun h => nomatch h⟩
    | cons e es =>
      rw [ha] at step
      cases e with
      | ok c =>
        obtain ⟨a', hr, hv', hon', ha', -⟩ := step
        rw [hr]
        refine .ok ⟨⟨hv', hon.trans hon', ha'⟩, fun _ => ?_⟩
        rw [reach, reach, ha', ha]
        exact Nat.lt_succ_self _
      | error e =>
        obtain ⟨a', hr⟩ := step
        rw [hr]
        exact .error trivial

/-- Readers that cannot be told apart are related feeds. -/
theorem paired_same (r : Reader) :
    Feed.Paired (fun a b => Same a b ∧ Onward r a) reach where
  left := by
    rintro a b ⟨h, -⟩
    refine ⟨length_chars_ahead h.left, ?_⟩
    rw [reach, h.ahead]
    exact length_chars_ahead h.right
  next := by
    rintro a b ⟨h, hon⟩
    have first := read_ahead h.left
    have second := read_ahead h.right
    rw [← h.ahead] at second
    show Together _ _ a.read b.read
    cases ha : a.ahead with
    | nil =>
      rw [ha] at first second
      obtain ⟨a', hra, hva, hona, -, hpa⟩ := first
      obtain ⟨b', hrb, hvb, honb, -, hpb⟩ := second
      rw [hra, hrb]
      refine .ok ⟨⟨⟨hva, hvb, ?_, ?_, ?_⟩, hon.trans hona⟩, fun h => nomatch h⟩
      · rw [hona.script, honb.script, h.script]
      · rw [hpa, hpb, h.position]
      · rw [hona.marks, honb.marks, h.marks]
    | cons e es =>
      rw [ha] at first second
      cases e with
      | ok c =>
        obtain ⟨a', hra, hva, hona, haa, hpa⟩ := first
        obtain ⟨b', hrb, hvb, honb, -, hpb⟩ := second
        rw [hra, hrb]
        refine .ok ⟨⟨⟨hva, hvb, ?_, ?_, ?_⟩, hon.trans hona⟩, fun _ => ?_⟩
        · rw [hona.script, honb.script, h.script]
        · rw [hpa, hpb, h.position]
        · rw [hona.marks, honb.marks, h.marks]
        · rw [reach, reach, haa, ha]
          exact Nat.lt_succ_self _
      | error e =>
        obtain ⟨a', hra⟩ := first
        obtain ⟨b', hrb⟩ := second
        rw [hra, hrb]
        exact .error trivial

end Reader

end Stencil
