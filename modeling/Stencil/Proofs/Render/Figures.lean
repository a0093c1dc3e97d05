import Stencil.Proofs.Number.Shortest
import Stencil.Proofs.Render.Escaping
import Mathlib.Tactic.IntervalCases

/-!
# Numbers in variables

A variable writes the figures of a number, and no escaper changes them.  A point among them tells a
binary64 number from an integer, for all numbers up to a size from which only the shortest digits are
written.

- `Number.Binary64.Vast`: the numbers that are written without a point although they are no integers;
- `Numeral.display_binary_eq`: **the figures of a finite binary64 number**, around its point;
- `Escape.escape_figures`: escapers leave figures as they are;
- `Body.substitute_number`: **what a variable writes for a number**, and which numbers it may be taken
  for;
- `Body.substitute_number_vast`: the least of the others, which is written like an integer.
-/

namespace Stencil

open Number

/-! ## Figures -/

/-- A whole number of at least `10 ^ 16` in magnitude. -/
def Number.Binary64.Vast (x : Binary64) : Prop :=
  (∃ z : ℤ, x.value = z) ∧ 10 ^ 16 ≤ |x.value|

/-- A text with a point, and digits behind it. -/
def Fractional (text : List Char) : Prop :=
  ∃ whole fraction, text = whole ++ '.' :: fraction ∧ '.' ∉ whole ∧ fraction ≠ [] ∧
    ∀ c ∈ fraction, c.isDigit = true

namespace Number.Binary64

variable {x : Binary64}

/-- What tells the two forms of whole numbers apart. -/
theorem vast_iff (hfinite : x.isFinite = true) :
    x.Vast ↔ x.isWhole = true ∧ ¬x.numerator / x.denominator < Numeral.plainFrom := by
  have hleast : ((Numeral.plainFrom : ℕ) : ℚ) = 10 ^ 16 := by norm_num [Numeral.plainFrom]
  rw [Vast, isWhole_iff hfinite, div_lt_iff_abs_value, hleast, not_lt]

/-- The shortest text of a magnitude: digits in front of a point, and digits behind it unless the
number is vast. -/
theorem positional_shortest_eq (hfinite : x.isFinite = true)
    (h : (x.isWhole && x.numerator / x.denominator < Numeral.plainFrom) = false) :
    ∃ whole fraction, x.shortest.positional = whole ++ fractionPart '.' fraction ∧ whole ≠ [] ∧
      (fraction = [] ↔ x.Vast) ∧ ∀ c ∈ whole ++ fraction, c.isDigit = true := by
  by_cases hvast : x.Vast
  · obtain ⟨-, hlarge⟩ := (vast_iff hfinite).mp hvast
    have hscale := shortest_scale_nonneg (not_lt.mp hlarge)
    refine ⟨decimal (x.shortest.digits * Nat.pow 10 x.shortest.scale.toNat), [], ?_, ?_,
      iff_of_true rfl hvast, ?_⟩
    · rw [Decimal.positional, if_pos hscale]
      exact (List.append_nil _).symm
    · exact List.ne_nil_of_length_pos Nat.length_toDigits_pos
    · rw [List.append_nil]
      exact fun c hc => isDigit_of_mem_decimal hc
  · -- a whole number would be one that is written with a zero behind its point
    have hfraction : x.numerator % x.denominator ≠ 0 := by
      intro hmod
      have hwhole : x.isWhole = true := by simp [isWhole, hfinite, hmod]
      rw [hwhole, Bool.true_and, decide_eq_false_iff_not] at h
      exact hvast ((vast_iff hfinite).mpr ⟨hwhole, h⟩)
    have hscale := shortest_scale_neg hfraction
    obtain ⟨whole, fraction, htext, hwhole, hplaces, hdigits⟩ :=
      withPoint_eq (-x.shortest.scale).toNat x.shortest.digits
    refine ⟨whole, fraction, ?_, hwhole, iff_of_false ?_ hvast, hdigits⟩
    · rw [Decimal.positional, if_neg (not_le.mpr hscale), htext]
    · refine List.ne_nil_of_length_pos ?_
      rw [hplaces]
      omega

end Number.Binary64

namespace Numeral

open Binary64

variable {x : Binary64}

/-- **The figures of a finite binary64 number**: its sign, digits in front of a point, and digits
behind it unless the number is vast. -/
theorem display_binary_eq (hfinite : x.isFinite = true) :
    ∃ whole fraction, (binary x).display =
        (if x.negative then ['-'] else []) ++ (whole ++ fractionPart '.' fraction) ∧
      whole ≠ [] ∧ (fraction = [] ↔ x.Vast) ∧ ∀ c ∈ whole ++ fraction, c.isDigit = true := by
  have hnumber := isNaN_of_isFinite hfinite
  rw [display]
  cases h : (x.isWhole && x.numerator / x.denominator < plainFrom) with
  | true =>
    obtain ⟨hwhole, hsmall⟩ := Bool.and_eq_true_iff.mp h
    have hvast : ¬x.Vast := fun hvast =>
      ((vast_iff hfinite).mp hvast).2 (of_decide_eq_true hsmall)
    obtain ⟨whole, fraction, htext, hne, hplaces, hdigits⟩ :
        ∃ whole fraction, x.fixedMagnitude 1 = whole ++ fractionPart '.' fraction ∧ _ :=
      withPoint_eq 1 (halfEven (x.numerator * Nat.pow 10 1) x.denominator)
    refine ⟨whole, fraction, ?_, hne, iff_of_false ?_ hvast, hdigits⟩
    · rw [if_pos rfl, fixed, hfinite, htext]
      cases x.negative <;> rfl
    · exact List.ne_nil_of_length_pos (hplaces ▸ Nat.one_pos)
  | false =>
    have hsignificand : x.significand ≠ 0 := by
      intro hzero
      have hnumerator : x.numerator = 0 := by rw [numerator, hzero, Nat.zero_mul]
      simp [isWhole, hfinite, hnumerator, plainFrom] at h
    obtain ⟨whole, fraction, htext, hne, hvast, hdigits⟩ := positional_shortest_eq hfinite h
    have hmagnitude : x.plainMagnitude = whole ++ fractionPart '.' fraction := by
      simp [plainMagnitude, hnumber, hfinite, hsignificand, htext]
    refine ⟨whole, fraction, ?_, hne, hvast, hdigits⟩
    rw [if_neg Bool.false_ne_true, plain, hnumber, hmagnitude]
    cases x.negative <;> rfl

/-- What is written for a number that is not finite. -/
theorem display_binary_of_not_finite (h : x.isFinite = false) :
    (binary x).display ∈ ["NaN".toList, "inf".toList, "-inf".toList] := by
  have hwhole : x.isWhole = false := by rw [isWhole, h, Bool.false_and]
  rw [display, hwhole, Bool.false_and, if_neg Bool.false_ne_true, plain, plainMagnitude, h]
  cases x.isNaN <;> cases x.negative <;> simp

/-- An integer is written with digits behind its sign. -/
theorem display_integer {n : Numeral} (h : n.isInteger = true) :
    ∀ c ∈ n.display, c.isDigit = true ∨ c = '-' := by
  intro c hc
  cases n with
  | signed n =>
    rw [display, signedDecimal] at hc
    split at hc
    · rcases List.mem_cons.mp hc with rfl | hc
      · exact .inr rfl
      · exact .inl (isDigit_of_mem_decimal hc)
    · exact .inl (isDigit_of_mem_decimal hc)
  | unsigned n => exact .inl (isDigit_of_mem_decimal hc)
  | binary x => cases h

/-- Figures are digits, signs, points, and the letters of what is no finite number. -/
theorem display_figures (n : Numeral) :
    ∀ c ∈ n.display, c.isDigit = true ∨ c ∈ "-.NaNinf".toList := by
  cases hinteger : n.isInteger with
  | true =>
    intro c hc
    rcases display_integer hinteger c hc with hdigit | rfl
    · exact .inl hdigit
    · exact .inr (by decide)
  | false =>
    obtain ⟨x, rfl⟩ : ∃ x, n = binary x := by
      cases n with
      | binary x => exact ⟨x, rfl⟩
      | signed n => cases hinteger
      | unsigned n => cases hinteger
    intro c hc
    cases hfinite : x.isFinite with
    | true =>
      obtain ⟨whole, fraction, htext, -, -, hdigits⟩ := display_binary_eq hfinite
      rw [htext] at hc
      rcases List.mem_append.mp hc with hc | hc
      · split at hc
        · exact .inr (List.mem_singleton.mp hc ▸ by decide)
        · cases hc
      · rcases List.mem_append.mp hc with hc | hc
        · exact .inl (hdigits c (List.mem_append_left _ hc))
        · unfold fractionPart at hc
          split at hc
          · cases hc
          · rcases List.mem_cons.mp hc with rfl | hc
            · exact .inr (by decide)
            · exact .inl (hdigits c (List.mem_append_right _ hc))
    | false =>
      have hletters : ∀ text ∈ ["NaN".toList, "inf".toList, "-inf".toList],
          text.all (· ∈ "-.NaNinf".toList) = true := by
        decide
      have hall := hletters _ (display_binary_of_not_finite hfinite)
      exact .inr (of_decide_eq_true (List.all_eq_true.mp hall c hc))

end Numeral

/-! ## Escapers -/

namespace Escape

theorem mem_of_isDigit {c : Char} (h : c.isDigit = true) : c ∈ "0123456789".toList := by
  have hrange : 48 ≤ c.toNat ∧ c.toNat ≤ 57 := by
    simpa [Char.isDigit, UInt32.le_iff_toNat_le] using h
  rw [← Char.ofNat_toNat c]
  generalize c.toNat = n at hrange
  obtain ⟨hleast, hgreatest⟩ := hrange
  interval_cases n <;> decide

/-- No escaper changes a figure. -/
theorem figure_eq {c : Char} (h : c.isDigit = true ∨ c ∈ "-.NaNinf".toList) :
    ∀ escape ∈ [markupChar, jsonChar, csvChar, formChar], escape c = [c] := by
  have hall : ("0123456789".toList ++ "-.NaNinf".toList).all (fun c =>
      ∀ escape ∈ [markupChar, jsonChar, csvChar, formChar], escape c = [c]) = true := by
    decide +kernel
  refine of_decide_eq_true (List.all_eq_true.mp hall c (List.mem_append.mpr ?_))
  rcases h with h | h
  · exact .inl (mem_of_isDigit h)
  · exact .inr h

/-- The escapers that are always there. -/
def escapers : List (String → String) := [markup, json, csv, form]

/-- No escaper changes a number. -/
theorem escape_figures {escape : String → String} (h : escape ∈ escapers) (n : Numeral) :
    escape (String.ofList n.display) = String.ofList n.display := by
  have every {escapeChar : Char → List Char}
      (hmem : escapeChar ∈ [markupChar, jsonChar, csvChar, formChar]) :
      everyChar escapeChar (String.ofList n.display) = String.ofList n.display := by
    have hself : n.display.flatMap escapeChar = n.display.flatMap ([·]) :=
      List.flatMap_congr fun c hc => figure_eq (n.display_figures c hc) escapeChar hmem
    rw [everyChar, String.toList_ofList, hself, List.flatMap_singleton']
  simp only [escapers, List.mem_cons, List.not_mem_nil, or_false] at h
  rcases h with rfl | rfl | rfl | rfl
  · exact every (by simp)
  · exact every (by simp)
  · exact every (by simp)
  · exact every (by simp)

end Escape

/-! ## Variables -/

namespace Numeral

variable {x : Binary64}

/-- A point is written for every finite binary64 number that is not vast. -/
theorem display_fractional (hfinite : x.isFinite = true) (h : ¬x.Vast) :
    Fractional (binary x).display := by
  obtain ⟨whole, fraction, htext, -, hvast, hdigits⟩ := display_binary_eq hfinite
  have hfraction : fraction ≠ [] := mt hvast.mp h
  refine ⟨(if x.negative then ['-'] else []) ++ whole, fraction, ?_, ?_, hfraction,
    fun c hc => hdigits c (List.mem_append_right _ hc)⟩
  · rw [htext, fractionPart, if_neg hfraction, List.append_assoc]
  · intro hmem
    rcases List.mem_append.mp hmem with hmem | hmem
    · split at hmem
      · exact absurd (List.mem_singleton.mp hmem) (by decide)
      · cases hmem
    · exact absurd (hdigits _ (List.mem_append_left _ hmem)) (by decide)

/-- No point is written for a vast one. -/
theorem point_not_mem_display_vast (hfinite : x.isFinite = true) (h : x.Vast) :
    '.' ∉ (binary x).display := by
  obtain ⟨whole, fraction, htext, -, hvast, hdigits⟩ := display_binary_eq hfinite
  obtain rfl := hvast.mpr h
  rw [htext, fractionPart, if_pos rfl]
  intro hmem
  rcases List.mem_append.mp hmem with hmem | hmem
  · split at hmem
    · exact absurd (List.mem_singleton.mp hmem) (by decide)
    · cases hmem
  · exact absurd (hdigits _ hmem) (by decide)

/-- No point is written for an integer. -/
theorem point_not_mem_display_integer {n : Numeral} (h : n.isInteger = true) :
    '.' ∉ n.display := by
  intro hmem
  rcases display_integer h _ hmem with hdigit | hminus
  · exact absurd hdigit (by decide)
  · exact absurd hminus (by decide)

/-- An integer is only taken for a vast number. -/
theorem vast_of_display_eq {n : Numeral} (h : n.isInteger = true)
    (heq : n.display = (binary x).display) : x.isFinite = true ∧ x.Vast := by
  cases hfinite : x.isFinite with
  | true =>
    refine ⟨rfl, ?_⟩
    by_contra hvast
    obtain ⟨whole, fraction, htext, -⟩ := display_fractional hfinite hvast
    refine point_not_mem_display_integer h ?_
    rw [heq, htext]
    exact List.mem_append_right _ List.mem_cons_self
  | false =>
    -- the texts of what is not finite have letters
    have hletter : ∀ text ∈ ["NaN".toList, "inf".toList, "-inf".toList],
        text.all (fun c => c.isDigit = true ∨ c = '-') = false := by
      decide
    have hall : (binary x).display.all (fun c => c.isDigit = true ∨ c = '-') = true :=
      List.all_eq_true.mpr fun c hc => decide_eq_true (display_integer h c (heq ▸ hc))
    rw [hletter _ (display_binary_of_not_finite hfinite)] at hall
    cases hall

end Numeral

namespace Body

variable {σ : Type} [Sink σ]

/-- A default modifier of a job is an escaper. -/
def EscapesOnly (job : Job) : Prop :=
  ∀ name m, job.defaultModifier = some name → job.registry.resolve? name = some m →
    ∃ escape ∈ Escape.escapers, m = .escaping escape

/-- Without modifiers a number is written as it is. -/
theorem display_chain_number {job : Job} (hjob : EscapesOnly job) {m : Marker}
    (hm : m.modifiers = []) (n : Numeral) :
    ((chain job m).foldl (modified job) (.number n)).display = String.ofList n.display := by
  cases hdefault : job.defaultModifier with
  | none => rw [chain, hm, hdefault]; rfl
  | some name =>
    cases hresolve : job.registry.resolve? name with
    | none =>
      rw [chain, hm, hdefault]
      show (modified job (.number n) ⟨name, none⟩).display = _
      rw [modified, hresolve]
      rfl
    | some modifier =>
      obtain ⟨escape, hescape, rfl⟩ := hjob name modifier hdefault hresolve
      rw [display_chain hdefault hresolve, hm]
      exact Escape.escape_figures hescape n

/-- **What a variable without modifiers writes for a number.**  For a finite binary64 number it has a
point and digits behind it, unless the number is vast; then, and for integers, it has none.  So an
integer is written as some binary64 number is only if that number is vast. -/
theorem substitute_number {job : Job} (hjob : EscapesOnly job) {m : Marker} (hm : m.modifiers = [])
    {v : Value} {n : Numeral} {s s' : State σ}
    (hfound : resolve job v m.name s = (.ok (some (.number n)), s')) :
    substitute job false v m s =
        (.ok (), { s' with sink := Sink.write s.sink (String.ofList n.display) }) ∧
      (∀ x, n = .binary x → x.isFinite = true →
        (¬x.Vast → Fractional n.display) ∧ (x.Vast → '.' ∉ n.display)) ∧
      (n.isInteger = true → '.' ∉ n.display ∧
        ∀ x, n.display = (Numeral.binary x).display → x.isFinite = true ∧ x.Vast) := by
  have hsink : s'.sink = s.sink := by
    have keeps := resolve_keeps job v m.name s
    rwa [hfound] at keeps
  refine ⟨?_, ?_, fun hinteger => ⟨Numeral.point_not_mem_display_integer hinteger,
    fun x heq => Numeral.vast_of_display_eq hinteger heq⟩⟩
  · rw [substitute, Run.bind_apply, hfound]
    dsimp only
    rw [display_chain_number hjob hm, ← hsink]
    rfl
  · rintro x rfl hfinite
    exact ⟨Numeral.display_fractional hfinite, Numeral.point_not_mem_display_vast hfinite⟩

/-- A price in a page, whose escaper leaves it as it is. -/
theorem substitute_number_price :
    let x : Binary64 := ⟨0x40934A0000000000⟩
    let job : Job := ⟨"page.html", .builtins, some "^html", ⟨.default, 0⟩, none, []⟩
    let m : Marker := ⟨.variable, "price", none, []⟩
    let v : Value := .record [("price", .scalar (.number (.binary x)))]
    let s : State String := ⟨"$", .ofSource [], .empty, .ofLoader (.memory []), none, [], [], []⟩
    (EscapesOnly job ∧ m.modifiers = [] ∧
      resolve job v m.name s = (.ok (some (.number (.binary x))), s)) ∧
    substitute job false v m s = (.ok (), { s with sink := "$1234.5" }) ∧
      Fractional (Numeral.binary x).display := by
  intro x job m v s
  have hjob : EscapesOnly job := by
    intro name m hdefault hresolve
    obtain rfl := Option.some.inj hdefault
    obtain rfl := Option.some.inj hresolve
    exact ⟨Escape.markup, by simp [Escape.escapers], rfl⟩
  have hfound : resolve job v m.name s = (.ok (some (.number (.binary x))), s) := by
    have hchars : m.name.toList = ['p', 'r', 'i', 'c', 'e'] := by decide +kernel
    have hpath : pathOf m.name = ["price"] := by decide +kernel
    have hname : Reference.ofName m.name = .path ["price"] := by
      rw [Reference.ofName, hchars, hpath]
      rfl
    rw [resolve, hname]
    rfl
  obtain ⟨hwritten, hpoint, -⟩ := substitute_number hjob rfl hfound
  have hfinite : x.isFinite = true := by decide
  have hvast : ¬x.Vast := by
    have hwhole : x.isWhole = false := by decide +kernel
    rw [Binary64.vast_iff hfinite, hwhole]
    exact fun h => Bool.false_ne_true h.1
  have htext : Sink.write s.sink (String.ofList (Numeral.binary x).display) = "$1234.5" := by
    decide +kernel
  rw [htext] at hwritten
  exact ⟨⟨hjob, rfl, hfound⟩, hwritten, (hpoint x rfl hfinite).1 hvast⟩

/-- **The least vast number is written like an integer**, and without a point. -/
theorem substitute_number_vast :
    let x : Binary64 := ⟨0x4341C37937E08000⟩
    let job : Job := ⟨"page", .builtins, none, ⟨.default, 0⟩, none, []⟩
    let s : State String := ⟨"", .ofSource [], .empty, .ofLoader (.memory []), none, [], [], []⟩
    let written (n : Numeral) : String :=
      (substitute job false (.record [("n", .scalar (.number n))]) ⟨.variable, "n", none, []⟩ s).2.sink
    x.isFinite = true ∧ x.value = 10 ^ 16 ∧ written (.binary x) = "10000000000000000" ∧
      '.' ∉ (written (.binary x)).toList ∧ ¬Fractional (written (.binary x)).toList ∧
      written (.signed 10000000000000000) = written (.binary x) := by
  intro x job s written
  have hpoint : '.' ∉ (written (.binary x)).toList := by decide +kernel
  refine ⟨by decide, ?_, by decide +kernel, hpoint, ?_, by decide +kernel⟩
  · have hparts : (x.negative, x.significand, x.exponent) = (false, 5000000000000000, 1) := by
      decide
    obtain ⟨hnegative, hsignificand, hexponent⟩ := Prod.mk.inj hparts |>.imp id Prod.mk.inj
    rw [Binary64.value, hnegative, hsignificand, hexponent]
    norm_num
  · rintro ⟨whole, fraction, htext, -⟩
    refine hpoint ?_
    rw [htext]
    exact List.mem_append_right _ List.mem_cons_self

end Body

end Stencil
