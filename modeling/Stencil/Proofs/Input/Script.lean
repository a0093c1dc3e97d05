import Stencil.Input.Reader
import Stencil.Proofs.Input.Pages
import Stencil.Proofs.Input.Utf8

/-!
# The script of a reader

All that can ever be read from a reader is one list: the characters of its source in order, and
between them the failures that are still to be reported.  A reader is a position in that list.

- `Source.script`: the list of a source, behind bytes that are no complete character yet;
- `Reader.script`, `Reader.ahead`: the list of a reader, and what lies ahead of its position;
- `Reader.reads_read`: **reading takes what lies ahead**: a character and the position moves on, the
  end, or a failure, which is taken off the list;
- `Reader.Filled`, `Reader.Reads`: all that asking the source, and reading, can do.
-/

namespace Stencil

/-- Characters, and the failures that are reported between them. -/
abbrev Script := List (Except IoError Char)

namespace Script

/-- The answer of a reader that stands in front of the list. -/
def first : Script → Except IoError (Option Char)
  | [] => .ok none
  | .ok c :: _ => .ok (some c)
  | .error e :: _ => .error e

/-- The characters in front of the first failure. -/
def chars : Script → List Char
  | .ok c :: es => c :: chars es
  | _ => []

/-- All characters. -/
def text (es : Script) : List Char := es.filterMap Except.toOption

/-- All failures. -/
def failures : Script → List IoError
  | [] => []
  | .ok _ :: es => failures es
  | .error e :: es => e :: failures es

/-- Characters without failures. -/
def ofChars (cs : List Char) : Script := cs.map .ok

@[simp] theorem chars_ofChars_append (cs : List Char) (es : Script) :
    chars (ofChars cs ++ es) = cs ++ chars es := by
  induction cs with
  | nil => rfl
  | cons c cs ih => exact congrArg (c :: ·) ih

@[simp] theorem text_append (es fs : Script) : text (es ++ fs) = text es ++ text fs :=
  List.filterMap_append ..

@[simp] theorem text_ofChars (cs : List Char) : text (ofChars cs) = cs := by
  induction cs with
  | nil => rfl
  | cons c cs ih => exact congrArg (c :: ·) ih

@[simp] theorem failures_append (es fs : Script) :
    failures (es ++ fs) = failures es ++ failures fs := by
  induction es with
  | nil => rfl
  | cons e es ih => cases e <;> simp [failures, ih]

@[simp] theorem failures_ofChars (cs : List Char) : failures (ofChars cs) = [] := by
  induction cs with
  | nil => rfl
  | cons c cs ih => exact ih

@[simp] theorem length_ofChars (cs : List Char) : (ofChars cs).length = cs.length :=
  List.length_map ..

/-- A list without failures is its text. -/
theorem eq_ofChars_of_failures {es : Script} (h : failures es = []) : es = ofChars (text es) := by
  induction es with
  | nil => rfl
  | cons e es ih =>
    cases e with
    | ok c => exact congrArg (Except.ok c :: ·) (ih h)
    | error e => cases h

theorem length_chars_le (es : Script) : (chars es).length ≤ es.length := by
  induction es with
  | nil => exact Nat.le_refl 0
  | cons e es ih =>
    cases e with
    | ok c => exact Nat.succ_le_succ ih
    | error e => exact Nat.zero_le _

end Script

namespace Source

/-- What is read from a source behind bytes that are no complete character yet. -/
def script : Source → (left : List UInt8) → Script
  | [], left => if left.isEmpty then [] else [.error .invalidUtf8]
  | .bytes [] :: _, left => if left.isEmpty then [] else [.error .invalidUtf8]
  | .bytes (b :: bs) :: rest, left =>
    match Utf8.decode (left ++ b :: bs) with
    | some (cs, left) => Script.ofChars cs ++ script rest left
    | none => .error .invalidUtf8 :: script rest (left ++ b :: bs)
  | .failure e :: rest, left =>
    if e.kind = .interrupted then script rest left else .error e :: script rest left

/-- The bytes that a source gives before its end. -/
def delivered : Source → List UInt8
  | [] => []
  | .bytes [] :: _ => []
  | .bytes (b :: bs) :: rest => b :: bs ++ delivered rest
  | .failure _ :: rest => delivered rest

/-- The failures of a source before its end, interruptions apart. -/
def failures : Source → List IoError
  | [] => []
  | .bytes [] :: _ => []
  | .bytes (_ :: _) :: rest => failures rest
  | .failure e :: rest => if e.kind = .interrupted then failures rest else e :: failures rest

end Source

namespace Reader

/-- The characters decoded so far. -/
def decoded (r : Reader) : List Char := r.pages.toList

/-- What the source will still give. -/
def coming (r : Reader) : Script := r.source.elim [] (·.script r.undecoded)

/-- All that can be read from the start on. -/
def script (r : Reader) : Script := .ofChars r.decoded ++ r.coming

/-- What can be read from the position on. -/
def ahead (r : Reader) : Script := r.script.drop r.position

/-- The pages are regular, no position lies behind them, and a source that has told its end has been
given up. -/
structure Valid (r : Reader) : Prop where
  regular : r.pages.Regular
  position : r.position ≤ r.decoded.length
  marks : ∀ m ∈ r.marks, m ≤ r.decoded.length
  settled : .bytes [] ∈ r.heard → r.source = none

theorem ahead_eq {r : Reader} (h : r.Valid) :
    r.ahead = .ofChars (r.decoded.drop r.position) ++ r.coming := by
  rw [ahead, script, List.drop_append_of_le_length (by
    rw [Script.length_ofChars]
    exact h.position), Script.ofChars, Script.ofChars, List.map_drop]

theorem valid_ofSource (s : Source) : (ofSource s).Valid :=
  ⟨Pages.regular_empty, Nat.le_refl 0, fun _ h => (List.not_mem_nil h).elim,
    fun h => (List.not_mem_nil h).elim⟩

theorem Valid.mark {r : Reader} (h : r.Valid) : r.mark.Valid := by
  refine ⟨h.regular, h.position, fun m hm => ?_, h.settled⟩
  rcases List.mem_cons.mp hm with rfl | hm
  · exact h.position
  · exact h.marks m hm

theorem Valid.reset {r : Reader} (h : r.Valid) : r.reset.Valid := by
  unfold Reader.reset
  cases hm : r.marks with
  | nil => exact ⟨h.regular, Nat.zero_le _, by simp, h.settled⟩
  | cons p marks =>
    have hmarks := h.marks
    rw [hm] at hmarks
    exact ⟨h.regular, hmarks p (List.mem_cons_self ..),
      fun m h' => hmarks m (List.mem_cons_of_mem _ h'), h.settled⟩

theorem Valid.close {r : Reader} (h : r.Valid) : r.close.Valid :=
  ⟨h.regular, h.position, h.marks, fun _ => rfl⟩

@[simp] theorem script_mark (r : Reader) : r.mark.script = r.script := rfl

@[simp] theorem script_reset (r : Reader) : r.reset.script = r.script := by
  unfold Reader.reset
  cases r.marks <;> rfl

/-! ## Filling the pages -/

/-- What asking the source does: characters pass from those to come to the decoded ones, or a
failure is taken off.  The position and the marks stay. -/
structure Filled (r : Reader) (answer : Except IoError Unit) (r' : Reader) : Prop where
  valid : r'.Valid
  position : r'.position = r.position
  marks : r'.marks = r.marks
  calls : r'.callsLeft < r.callsLeft
  moved : match answer with
    | .ok () => ∃ cs, r'.decoded = r.decoded ++ cs ∧ r.coming = .ofChars cs ++ r'.coming
    | .error e => r'.decoded = r.decoded ∧ r.coming = .error e :: r'.coming

/-- The characters, the position and the marks are the same. -/
structure Kept (r r' : Reader) : Prop where
  pages : r'.pages = r.pages
  position : r'.position = r.position
  marks : r'.marks = r.marks

theorem Kept.decoded {r r' : Reader} (k : Kept r r') : r'.decoded = r.decoded :=
  congrArg Pages.toList k.pages

theorem Kept.valid {r r' : Reader} (k : Kept r r') (h : r.Valid)
    (hs : .bytes [] ∈ r'.heard → r'.source = none) : r'.Valid := by
  refine ⟨k.pages ▸ h.regular, ?_, fun m hm => ?_, hs⟩
  · rw [k.position, k.decoded]
    exact h.position
  · rw [k.decoded]
    exact h.marks m (k.marks ▸ hm)

/-- The source has ended: bytes that are left over are a failure. -/
theorem filled_ended {r r' : Reader} (h : r.Valid) (k : Kept r r')
    (hu : r'.undecoded = r.undecoded) (hcalls : 1 < r.callsLeft)
    (hcoming : r.coming = if r.undecoded.isEmpty then [] else [.error .invalidUtf8]) :
    Filled r r'.ended.1 r'.ended.2 := by
  refine
    { valid := Kept.valid ⟨k.pages, k.position, k.marks⟩ h fun _ => rfl
      position := k.position
      marks := k.marks
      calls := hcalls
      moved := ?_ }
  simp only [ended, hu]
  cases hempty : r.undecoded.isEmpty with
  | true =>
    refine ⟨[], ?_, ?_⟩
    · rw [List.append_nil]
      exact k.decoded
    · rw [hcoming, hempty]
      rfl
  | false =>
    refine ⟨k.decoded, ?_⟩
    rw [hcoming, hempty]
    rfl

/-- Bytes have come: what they complete is decoded. -/
theorem filled_accept {r r' : Reader} {b : UInt8} {bs : List UInt8} {rest : Source}
    (h : r.Valid) (k : Kept r r') (hu : r'.undecoded = r.undecoded)
    (hs : r'.source = some rest) (hheard : .bytes [] ∉ r'.heard)
    (hcalls : rest.length + 2 < r.callsLeft)
    (hcoming : r.coming = Source.script (.bytes (b :: bs) :: rest) r.undecoded) :
    Filled r (r'.accept (b :: bs)).1 (r'.accept (b :: bs)).2 := by
  rw [Source.script] at hcoming
  simp only [accept, hu]
  cases hd : Utf8.decode (r.undecoded ++ b :: bs) with
  | some p =>
    obtain ⟨cs, left⟩ := p
    obtain ⟨hreg, hlist⟩ := h.regular.foldl_push cs
    rw [hd] at hcoming
    refine
      { valid := ⟨?_, ?_, fun m hm => ?_, fun hm => (hheard hm).elim⟩
        position := k.position
        marks := k.marks
        calls := by simpa only [callsLeft, hs] using hcalls
        moved := ⟨cs, ?_, ?_⟩ }
    · show (cs.foldl Pages.push r'.pages).Regular
      rw [k.pages]
      exact hreg
    · show r'.position ≤ (cs.foldl Pages.push r'.pages).toList.length
      rw [k.position, k.pages, hlist, List.length_append]
      exact Nat.le_add_right_of_le h.position
    · show m ≤ (cs.foldl Pages.push r'.pages).toList.length
      rw [k.pages, hlist, List.length_append]
      exact Nat.le_add_right_of_le (h.marks m (k.marks ▸ hm))
    · show (cs.foldl Pages.push r'.pages).toList = _
      rw [k.pages, hlist]
      rfl
    · rw [hcoming]
      simp only [coming, hs]
      rfl
  | none =>
    rw [hd] at hcoming
    refine
      { valid := Kept.valid ⟨k.pages, k.position, k.marks⟩ h fun hm => (hheard hm).elim
        position := k.position
        marks := k.marks
        calls := by simpa only [callsLeft, hs] using hcalls
        moved := ⟨k.decoded, ?_⟩ }
    rw [hcoming]
    simp only [coming, hs]
    rfl

/-- The induction is on the answers of the source; what has been heard grows with interruptions. -/
theorem filled_fillFrom {r : Reader} (h : r.Valid) :
    ∀ {deliveries : Source} {r' : Reader}, Kept r r' → r'.undecoded = r.undecoded →
      .bytes [] ∉ r'.heard → deliveries.length + 1 < r.callsLeft →
        r.coming = deliveries.script r.undecoded →
          Filled r (fillFrom deliveries r').1 (fillFrom deliveries r').2
  | [], r', k, hu, _, hcalls, hcoming =>
    filled_ended h ⟨k.pages, k.position, k.marks⟩ hu hcalls hcoming
  | .bytes [] :: rest, r', k, hu, _, hcalls, hcoming =>
    filled_ended h ⟨k.pages, k.position, k.marks⟩ hu
      (Nat.lt_of_le_of_lt (Nat.le_add_left ..) hcalls) hcoming
  | .bytes (b :: bs) :: rest, r', k, hu, hheard, hcalls, hcoming =>
    filled_accept h ⟨k.pages, k.position, k.marks⟩ hu rfl
      (fun hm => (List.mem_cons.mp hm).elim (fun hm => nomatch hm) hheard) hcalls hcoming
  | .failure e :: rest, r', k, hu, hheard, hcalls, hcoming => by
    have hheard' : .bytes [] ∉ Delivery.failure e :: r'.heard := fun hm =>
      (List.mem_cons.mp hm).elim (fun hm => nomatch hm) hheard
    rw [fillFrom]
    rw [Source.script] at hcoming
    by_cases he : e.kind = .interrupted
    · -- the source is asked again, and nothing is reported
      rw [if_pos he] at hcoming
      simp only [if_pos he]
      exact filled_fillFrom h ⟨k.pages, k.position, k.marks⟩ hu hheard'
        (Nat.lt_of_le_of_lt (Nat.le_succ _) hcalls) hcoming
    · rw [if_neg he] at hcoming
      simp only [if_neg he]
      refine
        { valid := Kept.valid ⟨k.pages, k.position, k.marks⟩ h fun hm => (hheard' hm).elim
          position := k.position
          marks := k.marks
          calls := hcalls
          moved := ⟨k.decoded, ?_⟩ }
      rw [hcoming]
      show _ = .error e :: Source.script rest r'.undecoded
      rw [hu]

theorem filled_fill {r : Reader} (h : r.Valid) {s : Source} (hs : r.source = some s) :
    Filled r r.fill.1 r.fill.2 := by
  have hcoming : r.coming = s.script r.undecoded := by
    rw [coming, hs]
    rfl
  have hheard : .bytes [] ∉ r.heard := fun hm => by
    have := h.settled hm
    rw [hs] at this
    cases this
  rw [fill, hs]
  refine filled_fillFrom h ⟨rfl, rfl, rfl⟩ rfl hheard ?_ hcoming
  rw [callsLeft, hs]
  exact Nat.lt_succ_self _

/-! ## Reading -/

/-- Everything that reading one character can do. -/
inductive Reads (r : Reader) : Except IoError (Option Char) → Reader → Prop where
  | char {c : Char} {es : Script} {r' : Reader} (ahead : r.ahead = .ok c :: es) (valid : r'.Valid)
      (script : r'.script = r.script) (position : r'.position = r.position + 1)
      (marks : r'.marks = r.marks) : Reads r (.ok (some c)) r'
  | done {r' : Reader} (ahead : r.ahead = []) (valid : r'.Valid) (script : r'.script = r.script)
      (position : r'.position = r.position) (marks : r'.marks = r.marks) : Reads r (.ok none) r'
  | failed {e : IoError} {es : Script} {r' : Reader} (ahead : r.ahead = .error e :: es)
      (valid : r'.Valid) (script : r'.script = r.script.take r.position ++ es)
      (position : r'.position = r.position) (marks : r'.marks = r.marks) : Reads r (.error e) r'

/-- Filling does not change what is read when nothing has been lost by it. -/
theorem Reads.of_filled {r r' : Reader} {cs : List Char} (hd : r'.decoded = r.decoded ++ cs)
    (hc : r.coming = .ofChars cs ++ r'.coming) (hp : r'.position = r.position)
    (hm : r'.marks = r.marks) {answer : Except IoError (Option Char)} {r'' : Reader}
    (h : Reads r' answer r'') : Reads r answer r'' := by
  have hscript : r'.script = r.script := by
    rw [script, script, hd, hc, Script.ofChars, Script.ofChars, Script.ofChars, List.map_append,
      List.append_assoc]
  have hahead : r'.ahead = r.ahead := by
    rw [ahead, ahead, hscript, hp]
  cases h with
  | char ha hv hs hpos hmarks =>
    exact .char (hahead ▸ ha) hv (hs.trans hscript) (hp ▸ hpos) (hmarks.trans hm)
  | done ha hv hs hpos hmarks =>
    exact .done (hahead ▸ ha) hv (hs.trans hscript) (hpos.trans hp) (hmarks.trans hm)
  | failed ha hv hs hpos hmarks =>
    rw [hscript, hp] at hs
    exact .failed (hahead ▸ ha) hv hs (hpos.trans hp) (hmarks.trans hm)

/-- The induction is on the number of times that the pages are filled. -/
theorem reads_readWithin :
    ∀ {fuel : Nat} {r : Reader}, r.Valid → r.callsLeft ≤ fuel →
      Reads r (r.readWithin fuel).1 (r.readWithin fuel).2
  | 0, r, _, hf => by
    have : 0 < r.callsLeft := by
      rw [callsLeft]
      split <;> exact Nat.succ_pos _
    omega
  | fuel + 1, r, h, hf => by
    have hcount := h.regular.length_toList
    rw [readWithin]
    by_cases hlt : r.position < r.pages.count
    · -- the character is in the pages already
      have hlt' : r.position < r.decoded.length := hcount ▸ hlt
      have hget : r.pages.get? r.position = some r.decoded[r.position] := by
        rw [Pages.get?_eq h.regular]
        exact List.getElem?_eq_getElem hlt'
      rw [if_pos hlt, hget]
      have hahead : r.ahead = .ok r.decoded[r.position] ::
          (Script.ofChars (r.decoded.drop (r.position + 1)) ++ r.coming) := by
        rw [ahead_eq h, List.drop_eq_getElem_cons hlt']
        rfl
      exact .char hahead ⟨h.regular, hlt', h.marks, h.settled⟩ rfl rfl rfl
    · rw [if_neg hlt]
      have hend : r.position = r.decoded.length := Nat.le_antisymm h.position (by
        rw [decoded, hcount]
        exact Nat.le_of_not_lt hlt)
      cases hs : r.source with
      | none =>
        refine .done ?_ h rfl rfl rfl
        rw [ahead_eq h, hend, List.drop_length, coming, hs]
        rfl
      | some s =>
        have filled := filled_fill h hs
        have hmoved := filled.moved
        cases hfill : r.fill with
        | mk answer r' =>
          rw [hfill] at filled hmoved
          cases answer with
          | ok u =>
            -- what has come may be no whole character, so the pages may have to be filled again
            obtain ⟨cs, hd, hc⟩ := hmoved
            refine (reads_readWithin filled.valid ?_).of_filled hd hc filled.position filled.marks
            exact Nat.le_of_lt_succ (Nat.lt_of_lt_of_le filled.calls hf)
          | error e =>
            obtain ⟨hd, hc⟩ := hmoved
            have hahead : r.ahead = .error e :: r'.coming := by
              rw [ahead_eq h, hend, List.drop_length, hc]
              rfl
            refine .failed hahead filled.valid ?_ filled.position filled.marks
            rw [script, script, hd, hend, List.take_left' (Script.length_ofChars _)]

/-- **Reading takes what lies ahead**: a character, and the position moves on; the end; or a
failure, which is taken off while the position stays. -/
theorem reads_read {r : Reader} (h : r.Valid) : Reads r r.read.1 r.read.2 :=
  reads_readWithin h (Nat.le_refl _)

end Reader

end Stencil
