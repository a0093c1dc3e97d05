import Stencil.Proofs.Render.Pieces
import Stencil.Proofs.Text.Cut

/-!
# The grammar of markers

A marker is its sign and its text, and two closing braces.  The text of a marker that is no comment
is a name, with a separator in brackets if the marker starts a repeating section, and modifiers, each
behind a colon and with an equals sign in front of its argument.

- `Marker.Cuts`: the sign and the text in front of the first closing brace;
- `Marker.Grammatical`: which texts are those of a marker;
- `Marker.spelled`: how a marker is written;
- `Reader.readsMarker`: **reading a marker takes what is grammatical and nothing else**, stops behind
  it, and what has been taken is how the marker is written.
-/

namespace Stencil

/-! ## How markers are written -/

/-- What a marker of this kind starts with. -/
def MarkerKind.sign : MarkerKind → List Char
  | .variable => []
  | .repeating => ['#']
  | .conditional => ['?']
  | .inverted => ['^']
  | .sectionEnd => ['/']
  | .include => ['>']
  | .comment => ['!']

/-- A modifier behind its colon, with an equals sign in front of its argument. -/
def ModifierCall.spelled (c : ModifierCall) : List Char :=
  ':' :: c.name.toList ++ c.argument.elim [] fun argument => '=' :: argument.toList

/-- What a marker starts with, its name, its separator in brackets and its modifiers. -/
def Marker.spelled (m : Marker) : List Char :=
  m.kind.sign ++ m.name.toList ++
    (m.separator.elim [] fun separator => '[' :: separator.toList ++ [']']) ++
    m.modifiers.flatMap ModifierCall.spelled

namespace Marker

/-! ## The grammar -/

/-- Characters that begin with the sign of a kind and a text, and the first closing brace.  The first
character of a variable is no sign. -/
structure Cuts (cs : List Char) (kind : MarkerKind) (text behind : List Char) : Prop where
  whole : cs = kind.sign ++ text ++ '}' :: behind
  unclosed : '}' ∉ text
  unsigned : kind = .variable → ∀ c ∈ text.head?, MarkerKind.ofChar c = .variable

/-- The text of a marker. -/
structure Grammatical (kind : MarkerKind) (text : List Char) : Prop where
  filled : text ≠ []
  /-- There is a name in front of the first colon. -/
  named : kind ≠ .comment → text.takeWhile (· ≠ ':') ≠ []
  /-- Behind each colon, up to the next one, there is a name in front of the first equals sign. -/
  called : kind ≠ .comment → ∀ before behind, text = before ++ ':' :: behind →
    (behind.takeWhile (· ≠ ':')).takeWhile (· ≠ '=') ≠ []
  /-- There is a name in front of the separator. -/
  separated : kind = .repeating → ∀ separator, '[' ∉ separator →
    text.takeWhile (· ≠ ':') ≠ '[' :: separator ++ [']']

/-- Characters that begin with a marker and its two closing braces. -/
def Accepted (cs : List Char) : Prop :=
  ∃ kind text rest, Cuts cs kind text ('}' :: rest) ∧ Grammatical kind text

/-- Characters that begin with the text of a marker and a single closing brace. -/
def LoneBrace (cs : List Char) : Prop :=
  ∃ kind text behind, Cuts cs kind text behind ∧ text ≠ [] ∧ behind.head? ≠ some '}'

/-! ## Up to the closing brace -/

theorem sign_ofChar {c : Char} (h : MarkerKind.ofChar c ≠ .variable) :
    (MarkerKind.ofChar c).sign = [c] := by
  revert h
  unfold MarkerKind.ofChar
  split <;> intro h
  case h_7 => exact absurd rfl h
  all_goals rfl

/-- Only a variable has no sign. -/
theorem sign_spec (kind : MarkerKind) :
    kind = .variable ∨
      ∃ c, kind.sign = [c] ∧ MarkerKind.ofChar c = kind ∧ kind ≠ .variable := by
  cases kind with
  | «variable» => exact .inl rfl
  | _ => exact .inr ⟨_, rfl, rfl, nofun⟩

/-- What holds a closing brace has a sign and a text in front of the first one. -/
theorem exists_cuts {cs : List Char} (h : '}' ∈ cs) :
    ∃ kind text behind, Cuts cs kind text behind := by
  cases hsplit : Text.splitOnce '}' cs with
  | none => exact absurd h (Text.splitOnce_eq_none.mp hsplit)
  | some parts =>
    obtain ⟨before, behind⟩ := parts
    obtain ⟨rfl, hbefore⟩ := Text.splitOnce_eq_some.mp hsplit
    cases before with
    | nil => exact ⟨.variable, [], behind, rfl, hbefore, fun _ _ h => nomatch h⟩
    | cons c before =>
      by_cases hc : MarkerKind.ofChar c = .variable
      · refine ⟨.variable, c :: before, behind, rfl, hbefore, fun _ d hd => ?_⟩
        rw [← Option.some.inj hd]
        exact hc
      · refine ⟨MarkerKind.ofChar c, before, behind, ?_, ?_, fun h => absurd h hc⟩
        · rw [sign_ofChar hc]
          rfl
        · exact fun hm => hbefore (List.mem_cons_of_mem _ hm)

/-- Reading the text of a marker from a list of characters. -/
theorem readText_cons (fuel : Nat) (c : Char) (cs : List Char) :
    readText (fuel + 1) (c :: cs) =
      if c = '}' then (.ok [], cs)
      else match readText fuel cs with
        | (.error e, rest) => (.error e, rest)
        | (.ok text, rest) => (.ok (c :: text), rest) := by
  simp only [readText, Feed.next, List.head?_cons, List.tail_cons]
  cases readText fuel cs with
  | mk answer rest => cases answer <;> rfl

/-- Reading the kind and the text of a marker from a list of characters. -/
theorem readKind_cons (c : Char) (cs : List Char) :
    readKind (c :: cs) =
      if MarkerKind.ofChar c = .variable ∧ c = '}' then (.ok (MarkerKind.ofChar c, []), cs)
      else match readText (cs.length + 1) cs with
        | (.error e, rest) => (.error e, rest)
        | (.ok text, rest) => (.ok (MarkerKind.ofChar c,
            if MarkerKind.ofChar c = .variable then c :: text else text), rest) := by
  simp only [readKind, Feed.next, Feed.left, List.head?_cons, List.tail_cons]
  cases readText (cs.length + 1) cs with
  | mk answer rest => cases answer <;> rfl

/-- The text in front of a closing brace is read as it stands. -/
theorem readText_closed {text : List Char} (h : '}' ∉ text) (behind : List Char) :
    ∀ fuel, text.length < fuel → readText fuel (text ++ '}' :: behind) = (.ok text, behind) := by
  induction text with
  | nil =>
    intro fuel hfuel
    obtain ⟨fuel, rfl⟩ : ∃ k, fuel = k + 1 := ⟨fuel - 1, by omega⟩
    rw [List.nil_append, readText_cons, if_pos rfl]
  | cons c text ih =>
    intro fuel hfuel
    obtain ⟨fuel, rfl⟩ : ∃ k, fuel = k + 1 := ⟨fuel - 1, by omega⟩
    obtain ⟨hc, htext⟩ := List.ne_and_not_mem_of_not_mem_cons h
    rw [List.cons_append, readText_cons, if_neg (Ne.symm hc),
      ih htext fuel (Nat.lt_of_succ_lt_succ hfuel)]

theorem readText_unclosed {cs : List Char} (h : '}' ∉ cs) :
    ∀ fuel, cs.length < fuel → readText fuel cs = (.error .unexpectedEnd, []) := by
  induction cs with
  | nil =>
    intro fuel hfuel
    obtain ⟨fuel, rfl⟩ : ∃ k, fuel = k + 1 := ⟨fuel - 1, by omega⟩
    rfl
  | cons c cs ih =>
    intro fuel hfuel
    obtain ⟨fuel, rfl⟩ : ∃ k, fuel = k + 1 := ⟨fuel - 1, by omega⟩
    obtain ⟨hc, hcs⟩ := List.ne_and_not_mem_of_not_mem_cons h
    rw [readText_cons, if_neg (Ne.symm hc), ih hcs fuel (Nat.lt_of_succ_lt_succ hfuel)]

theorem Cuts.readKind {cs : List Char} {kind : MarkerKind} {text behind : List Char}
    (h : Cuts cs kind text behind) : Marker.readKind cs = (.ok (kind, text), behind) := by
  obtain ⟨rfl, hunclosed, hunsigned⟩ := h
  have long (text : List Char) : text.length < (text ++ '}' :: behind).length + 1 := by
    rw [List.length_append]
    omega
  rcases sign_spec kind with rfl | ⟨c, hsign, hc, hne⟩
  · cases text with
    | nil => rfl
    | cons c text =>
      -- the first character belongs to the text
      obtain ⟨hbrace, htext⟩ := List.ne_and_not_mem_of_not_mem_cons hunclosed
      have hc : MarkerKind.ofChar c = .variable := hunsigned rfl c rfl
      show Marker.readKind (c :: (text ++ '}' :: behind)) = _
      rw [readKind_cons, if_neg fun h => hbrace h.2.symm, readText_closed htext _ _ (long text), hc]
      rfl
  · rw [hsign]
    show Marker.readKind (c :: (text ++ '}' :: behind)) = _
    rw [readKind_cons, hc, if_neg fun h => hne h.1, readText_closed hunclosed _ _ (long text)]
    dsimp only
    rw [if_neg hne]

theorem readKind_unclosed {cs : List Char} (h : '}' ∉ cs) :
    ∃ rest, Marker.readKind cs = (.error .unexpectedEnd, rest) := by
  cases cs with
  | nil => exact ⟨[], rfl⟩
  | cons c cs =>
    obtain ⟨hc, hcs⟩ := List.ne_and_not_mem_of_not_mem_cons h
    rw [readKind_cons, if_neg fun h => hc h.2.symm, readText_unclosed hcs _ (Nat.lt_succ_self _)]
    exact ⟨[], rfl⟩

/-! ## Names, separators and modifiers -/

/-- The name of a modifier is its part of the marker up to the first equals sign, behind which stands
the argument. -/
theorem parseCall_spec (part : List Char) : ∃ argument : Option String,
    part = part.takeWhile (· ≠ '=') ++
        argument.elim [] (fun argument => '=' :: argument.toList) ∧
      parseCall part = if (part.takeWhile (· ≠ '=')).isEmpty then none
        else some ⟨String.ofList (part.takeWhile (· ≠ '=')), argument⟩ := by
  unfold parseCall
  cases hsplit : Text.splitOnce '=' part with
  | some parts =>
    obtain ⟨name, argument⟩ := parts
    obtain ⟨rfl, hname⟩ := Text.splitOnce_eq_some.mp hsplit
    rw [Text.takeWhile_append_cons hname]
    refine ⟨some (String.ofList argument), ?_, rfl⟩
    rw [Option.elim_some, String.toList_ofList]
  | none =>
    rw [Text.takeWhile_of_not_mem (Text.splitOnce_eq_none.mp hsplit)]
    exact ⟨none, (List.append_nil _).symm, rfl⟩

/-- A modifier that is read is written as its part of the marker. -/
theorem spelled_of_parseCall {part : List Char} {c : ModifierCall} (h : parseCall part = some c) :
    c.spelled = ':' :: part ∧ part.takeWhile (· ≠ '=') ≠ [] := by
  obtain ⟨argument, hpart, hcall⟩ := parseCall_spec part
  rw [hcall] at h
  split at h
  · cases h
  · next hne =>
    obtain rfl := Option.some.inj h
    refine ⟨?_, fun heq => hne (List.isEmpty_iff.mpr heq)⟩
    unfold ModifierCall.spelled
    dsimp only
    rw [String.toList_ofList, List.cons_append]
    exact congrArg (':' :: ·) hpart.symm

/-- A modifier that is refused has no name. -/
theorem takeWhile_of_parseCall {part : List Char} (h : parseCall part = none) :
    part.takeWhile (· ≠ '=') = [] := by
  obtain ⟨argument, -, hcall⟩ := parseCall_spec part
  rw [hcall] at h
  split at h
  · next hempty => exact List.isEmpty_iff.mp hempty
  · cases h

/-- A separator is what stands in brackets at the end, from the last opening one on. -/
theorem splitSeparator_spec (name : List Char) :
    (∃ bare separator, '[' ∉ separator ∧ name = bare ++ '[' :: separator ++ [']'] ∧
        splitSeparator name = (bare, some separator)) ∨
      (splitSeparator name = (name, none) ∧
        ∀ separator, '[' ∉ separator → name ≠ '[' :: separator ++ [']']) := by
  unfold splitSeparator
  split
  · next rest hreverse =>
    have hname : name = rest.reverse ++ [']'] := by
      rw [← List.reverse_reverse name, hreverse, List.reverse_cons]
    cases hsplit : Text.splitLast '[' name with
    | some parts =>
      obtain ⟨bare, behind⟩ := parts
      obtain ⟨heq, hbehind⟩ := Text.splitLast_eq_some.mp hsplit
      -- the closing bracket stands behind the opening one
      have hlast : ∃ separator, behind = separator ++ [']'] := by
        rcases List.eq_nil_or_concat behind with rfl | ⟨separator, d, rfl⟩
        · rw [hname] at heq
          exact absurd (List.append_inj_right' heq rfl) (by decide)
        · rw [List.concat_eq_append] at heq ⊢
          rw [hname, ← List.cons_append, ← List.append_assoc] at heq
          exact ⟨separator, congrArg _ (List.append_inj_right' heq rfl).symm⟩
      obtain ⟨separator, rfl⟩ := hlast
      refine .inl ⟨bare, separator, fun hm => hbehind (List.mem_append_left _ hm), ?_, ?_⟩
      · rw [heq]
        simp
      · simp
    | none =>
      refine .inr ⟨rfl, fun separator _ heq => Text.splitLast_eq_none.mp hsplit ?_⟩
      rw [heq]
      exact List.mem_cons_self ..
  · next hreverse =>
    refine .inr ⟨rfl, fun separator _ heq => ?_⟩
    refine hreverse (separator.reverse ++ ['[']) ?_
    rw [heq]
    simp

/-- The name of a marker and its separator are its text up to the first colon.  Nothing but a
separator leaves no name. -/
theorem naming_spec (kind : MarkerKind) (name : List Char) :
    ∃ bare separator,
      (if kind = .repeating then splitSeparator name else (name, none)) = (bare, separator) ∧
        name = bare ++ separator.elim [] (fun separator => '[' :: separator ++ [']']) ∧
          (bare = [] ↔ name = [] ∨ kind = .repeating ∧
            ∃ separator, '[' ∉ separator ∧ name = '[' :: separator ++ [']']) := by
  by_cases hr : kind = .repeating
  · rw [if_pos hr]
    rcases splitSeparator_spec name with ⟨bare, separator, hopen, heq, hs⟩ | ⟨hs, hsep⟩
    · refine ⟨bare, some separator, hs, heq.trans (List.append_assoc ..), ?_, ?_⟩
      · rintro rfl
        exact .inr ⟨hr, separator, hopen, heq⟩
      · rintro (hempty | ⟨-, separator', hopen', heq'⟩)
        · exact (List.append_eq_nil_iff.mp (List.append_eq_nil_iff.mp (heq ▸ hempty)).1).1
        · -- an opening bracket in front of the last one would belong to the separator
          have hinit := List.append_inj_left' (heq.symm.trans heq') rfl
          cases bare with
          | nil => rfl
          | cons c bare =>
            rw [(List.cons.inj hinit).2.symm] at hopen'
            exact absurd (List.mem_append_right _ (List.mem_cons_self ..)) hopen'
    · refine ⟨name, none, hs, (List.append_nil _).symm, .inl, ?_⟩
      rintro (hempty | ⟨-, separator, hopen, heq⟩)
      · exact hempty
      · exact absurd heq (hsep separator hopen)
  · refine ⟨name, none, if_neg hr, (List.append_nil _).symm, .inl, ?_⟩
    rintro (hempty | ⟨h, -⟩)
    · exact hempty
    · exact absurd h hr

/-- Modifiers that are read are written as their parts of the marker; the induction is on the
parts. -/
theorem spelled_of_mapM {parts : List (List Char)} {calls : List ModifierCall}
    (h : parts.mapM parseCall = some calls) :
    calls.flatMap ModifierCall.spelled = parts.flatMap (':' :: ·) ∧
      ∀ part ∈ parts, part.takeWhile (· ≠ '=') ≠ [] := by
  induction parts generalizing calls with
  | nil =>
    obtain rfl : [] = calls := Option.some.inj h
    exact ⟨rfl, fun _ hm => nomatch hm⟩
  | cons part parts ih =>
    rw [List.mapM_cons] at h
    obtain ⟨call, hcall, h⟩ := Option.bind_eq_some_iff.mp h
    obtain ⟨rest, hrest, h⟩ := Option.bind_eq_some_iff.mp h
    obtain rfl := Option.some.inj h
    obtain ⟨hspelled, hname⟩ := spelled_of_parseCall hcall
    obtain ⟨hspelled', hnames⟩ := ih hrest
    refine ⟨?_, fun p hp => ?_⟩
    · rw [List.flatMap_cons, List.flatMap_cons, hspelled, hspelled']
    · rcases List.mem_cons.mp hp with rfl | hp
      · exact hname
      · exact hnames p hp

/-- When modifiers are refused, one of them has no name. -/
theorem exists_of_mapM {parts : List (List Char)} (h : parts.mapM parseCall = none) :
    ∃ part ∈ parts, part.takeWhile (· ≠ '=') = [] := by
  induction parts with
  | nil => cases h
  | cons part parts ih =>
    cases hcall : parseCall part with
    | none => exact ⟨part, List.mem_cons_self .., takeWhile_of_parseCall hcall⟩
    | some call =>
      cases hrest : parts.mapM parseCall with
      | none =>
        obtain ⟨part', hm, hname⟩ := ih hrest
        exact ⟨part', List.mem_cons_of_mem _ hm, hname⟩
      | some rest =>
        rw [List.mapM_cons, hcall, hrest] at h
        cases h

/-! ## The text of a marker -/

/-- The name in front of the first colon, and the parts behind each colon. -/
theorem parse_eq {kind : MarkerKind} (hk : kind ≠ .comment) {text : List Char}
    {parts : List (List Char)} (h : Text.splitAt ':' text = text.takeWhile (· ≠ ':') :: parts) :
    parse kind text =
      if (text.takeWhile (· ≠ ':')).isEmpty then none
      else (parts.mapM parseCall).bind fun calls =>
        let (name, separator) :=
          if kind = .repeating then splitSeparator (text.takeWhile (· ≠ ':'))
          else (text.takeWhile (· ≠ ':'), none)
        if name.isEmpty then none
        else some ⟨kind, String.ofList name, separator.map String.ofList, calls⟩ := by
  rw [parse, if_neg hk, h]
  rfl

/-- Every part behind a colon has a name, as the grammar asks. -/
theorem called_iff {text : List Char} {parts : List (List Char)}
    (h : Text.splitAt ':' text = text.takeWhile (· ≠ ':') :: parts) :
    (∀ part ∈ parts, part.takeWhile (· ≠ '=') ≠ []) ↔
      ∀ before behind, text = before ++ ':' :: behind →
        (behind.takeWhile (· ≠ ':')).takeWhile (· ≠ '=') ≠ [] := by
  have hparts (part : List Char) : part ∈ parts ↔ ∃ before behind,
      text = before ++ ':' :: behind ∧ part = behind.takeWhile (· ≠ ':') := by
    rw [← Text.mem_tail_splitAt, h, List.tail_cons]
  constructor
  · intro hnames before behind heq
    exact hnames _ ((hparts _).mpr ⟨before, behind, heq, rfl⟩)
  · intro hcalled part hm
    obtain ⟨before, behind, heq, rfl⟩ := (hparts part).mp hm
    exact hcalled before behind heq

/-- A text that is read as a marker is grammatical, and written as the marker is. -/
theorem spelled_of_parse {kind : MarkerKind} {text : List Char} {m : Marker} (hfilled : text ≠ [])
    (h : parse kind text = some m) : m.spelled = kind.sign ++ text ∧ Grammatical kind text := by
  by_cases hk : kind = .comment
  · subst hk
    rw [parse, if_pos rfl] at h
    obtain rfl := Option.some.inj h
    refine ⟨?_, hfilled, fun h => absurd rfl h, fun h => absurd rfl h, nofun⟩
    simp [spelled]
  · obtain ⟨parts, hsplit, htext⟩ := Text.splitAt_eq ':' text
    obtain ⟨bare, separator, hnaming, hname, hbare⟩ := naming_spec kind (text.takeWhile (· ≠ ':'))
    rw [parse_eq hk hsplit, hnaming] at h
    by_cases hempty : text.takeWhile (· ≠ ':') = []
    · rw [if_pos (List.isEmpty_iff.mpr hempty)] at h
      cases h
    rw [if_neg (mt List.isEmpty_iff.mp hempty)] at h
    obtain ⟨calls, hcalls, h⟩ := Option.bind_eq_some_iff.mp h
    obtain ⟨hspelled, hnames⟩ := spelled_of_mapM hcalls
    dsimp only at h
    by_cases hb : bare = []
    · rw [if_pos (List.isEmpty_iff.mpr hb)] at h
      cases h
    rw [if_neg (mt List.isEmpty_iff.mp hb)] at h
    obtain rfl := Option.some.inj h
    refine ⟨?_, hfilled, fun _ => hempty, fun _ => (called_iff hsplit).mp hnames, ?_⟩
    · rw [htext, hname, ← hspelled]
      cases separator <;> simp [spelled]
    · exact fun hr separator hopen heq => hb (hbare.mpr (.inr ⟨hr, separator, hopen, heq⟩))

/-- A text that is refused is not grammatical. -/
theorem not_grammatical_of_parse {kind : MarkerKind} {text : List Char}
    (h : parse kind text = none) : ¬ Grammatical kind text := by
  intro g
  by_cases hk : kind = .comment
  · rw [parse, if_pos hk] at h
    cases h
  · obtain ⟨parts, hsplit, -⟩ := Text.splitAt_eq ':' text
    obtain ⟨bare, separator, hnaming, -, hbare⟩ := naming_spec kind (text.takeWhile (· ≠ ':'))
    rw [parse_eq hk hsplit, hnaming, if_neg (mt List.isEmpty_iff.mp (g.named hk))] at h
    cases hcalls : parts.mapM parseCall with
    | none =>
      obtain ⟨part, hm, hpart⟩ := exists_of_mapM hcalls
      exact (called_iff hsplit).mpr (g.called hk) part hm hpart
    | some calls =>
      rw [hcalls, Option.bind_some] at h
      by_cases hb : bare = []
      · rcases hbare.mp hb with hempty | ⟨hr, separator', hopen, heq⟩
        · exact g.named hk hempty
        · exact g.separated hr separator' hopen heq
      · dsimp only at h
        rw [if_neg (mt List.isEmpty_iff.mp hb)] at h
        cases h

/-! ## Whole markers -/

theorem Cuts.read {cs : List Char} {kind : MarkerKind} {text behind : List Char}
    (h : Cuts cs kind text behind) :
    Marker.read cs =
      if text.isEmpty then (.error .invalidMarker, behind)
      else match behind with
        | [] => (.error .improperlyTerminated, [])
        | c :: rest =>
          if c = '}' then ((parse kind text).elim (.error .invalidMarker) .ok, rest)
          else (.error .improperlyTerminated, rest) := by
  unfold Marker.read
  rw [h.readKind]
  dsimp only
  cases behind with
  | nil => rfl
  | cons c rest => cases parse kind text <;> rfl

theorem read_accepted {cs : List Char} (h : Accepted cs) :
    ∃ m rest, Marker.read cs = (.ok m, rest) := by
  obtain ⟨kind, text, rest, hcuts, g⟩ := h
  have hfilled : ¬ text.isEmpty := mt List.isEmpty_iff.mp g.filled
  cases hm : parse kind text with
  | none => exact absurd g (not_grammatical_of_parse hm)
  | some m =>
    refine ⟨m, rest, ?_⟩
    rw [hcuts.read, if_neg hfilled, hm]
    rfl

theorem read_unclosed {cs : List Char} (h : '}' ∉ cs) :
    ∃ rest, Marker.read cs = (.error .unexpectedEnd, rest) := by
  obtain ⟨rest, hkind⟩ := readKind_unclosed h
  refine ⟨rest, ?_⟩
  unfold Marker.read
  rw [hkind]

theorem read_loneBrace {cs : List Char} (h : LoneBrace cs) :
    ∃ rest, Marker.read cs = (.error .improperlyTerminated, rest) := by
  obtain ⟨kind, text, behind, hcuts, hfilled, halone⟩ := h
  rw [hcuts.read, if_neg (mt List.isEmpty_iff.mp hfilled)]
  cases behind with
  | nil => exact ⟨[], rfl⟩
  | cons c rest => exact ⟨rest, if_neg fun h => halone (congrArg some h)⟩

/-- A marker that is read is grammatical, and what has been taken is how it is written. -/
theorem accepted_of_read {cs rest : List Char} {m : Marker} (h : Marker.read cs = (.ok m, rest)) :
    Accepted cs ∧ cs = m.spelled ++ '}' :: '}' :: rest := by
  by_cases hclosed : '}' ∈ cs
  · obtain ⟨kind, text, behind, hcuts⟩ := exists_cuts hclosed
    rw [hcuts.read] at h
    split at h
    · cases h
    · next hfilled =>
      cases behind with
      | nil => cases h
      | cons c behind =>
        dsimp only at h
        split at h
        · next hc =>
          obtain rfl := hc
          cases hm : parse kind text with
          | none =>
            rw [hm] at h
            cases h
          | some m' =>
            rw [hm] at h
            obtain ⟨hm', rfl⟩ := Prod.mk.inj h
            obtain rfl := Except.ok.inj hm'
            obtain ⟨hspelled, g⟩ := spelled_of_parse (mt List.isEmpty_iff.mpr hfilled) hm
            exact ⟨⟨kind, text, behind, hcuts, g⟩, hspelled ▸ hcuts.whole⟩
        · cases h
  · obtain ⟨rest', hread⟩ := read_unclosed hclosed
    rw [hread] at h
    cases h

/-- Every other failure says that the text is no marker. -/
theorem invalid_of_read {cs rest : List Char} {e : RenderError} (hclosed : '}' ∈ cs)
    (halone : ¬ LoneBrace cs) (h : Marker.read cs = (.error e, rest)) : e = .invalidMarker := by
  obtain ⟨kind, text, behind, hcuts⟩ := exists_cuts hclosed
  rw [hcuts.read] at h
  split at h
  · exact (Except.error.inj (Prod.mk.inj h).1).symm
  · next hfilled =>
    have second : behind.head? = some '}' := Decidable.byContradiction fun hne =>
      halone ⟨kind, text, behind, hcuts, mt List.isEmpty_iff.mpr hfilled, hne⟩
    cases behind with
    | nil => cases second
    | cons c behind =>
      dsimp only at h
      rw [if_pos (Option.some.inj second)] at h
      cases hm : parse kind text with
      | none =>
        rw [hm] at h
        exact (Except.error.inj (Prod.mk.inj h).1).symm
      | some m =>
        rw [hm] at h
        cases (Prod.mk.inj h).1

end Marker

/-! ## Markers ahead of a reader -/

namespace Reader

/-- A reader reads the marker of the characters ahead, stands behind what has been taken of them,
and keeps its marks. -/
theorem read_marker {r : Reader} (hv : r.Valid) {cs : List Char} (h : r.ahead = .ofChars cs) :
    match Marker.read cs with
    | (.ok m, rest) => ∃ r', Marker.read r = (.ok m, r') ∧ r'.ahead = .ofChars rest ∧
        r'.marks = r.marks ∧ r'.position + rest.length = r.position + cs.length
    | (.error e, _) => ∃ r', Marker.read r = (.error e, r') := by
  have pair := (paired_script r).read (b := .ofChars cs) ⟨hv, .refl r, h⟩
  have pair' := Script.paired_ofChars.read (b := cs) rfl
  generalize Marker.read cs = z at pair' ⊢
  generalize Marker.read (Script.ofChars cs) = y at pair pair'
  generalize Marker.read r = x at pair ⊢
  cases pair' with
  | @error e es rest _ =>
    cases pair with
    | error _ => exact ⟨_, rfl⟩
  | @ok m es rest hrest =>
    cases pair with
    | @ok _ r' _ hr =>
      obtain ⟨⟨hv', hon, ha⟩, -⟩ := hr
      have ha' : r'.ahead = .ofChars rest := ha.trans hrest.1
      refine ⟨r', rfl, ha', hon.marks, ?_⟩
      -- both stand in the same script
      have hlength {r : Reader} (hv : r.Valid) {cs : List Char} (h : r.ahead = .ofChars cs) :
          r.position + cs.length = r.script.length := by
        have hle : r.position ≤ r.script.length := by
          rw [script, List.length_append, Script.length_ofChars]
          exact Nat.le_trans hv.position (Nat.le_add_right _ _)
        have hdrop : r.script.length - r.position = cs.length := by
          rw [← List.length_drop, ← Script.length_ofChars cs, ← h, ahead]
        omega
      rw [hlength hv' ha', hlength hv h, hon.script]

/-- What reading a marker makes of the characters ahead of a reader. -/
structure ReadsMarker (r : Reader) (cs : List Char) : Prop where
  /-- A marker is read where the grammar has one. -/
  accepted : (∃ m r', Marker.read r = (.ok m, r')) ↔ Marker.Accepted cs
  /-- The reader stands behind the closing braces, and what it has taken is the marker as it is
  written. -/
  spelled : ∀ m r', Marker.read r = (.ok m, r') → ∃ rest,
    cs = m.spelled ++ '}' :: '}' :: rest ∧ r'.ahead = .ofChars rest ∧
      r'.position = r.position + (m.spelled.length + 2)
  /-- Different texts of markers give different markers. -/
  distinct : ∀ (q : Reader) ds m r' q', q.Valid → q.ahead = .ofChars ds →
    Marker.read r = (.ok m, r') → Marker.read q = (.ok m, q') →
      cs.take (r'.position - r.position) = ds.take (q'.position - q.position)
  /-- There is no closing brace, or a single one behind a text, or no marker before it. -/
  refused : ∀ e r', Marker.read r = (.error e, r') →
    ('}' ∉ cs → e = .unexpectedEnd) ∧ (Marker.LoneBrace cs → e = .improperlyTerminated) ∧
      ('}' ∈ cs → ¬ Marker.LoneBrace cs → e = .invalidMarker)

/-- The reader stands behind the marker as it is written. -/
theorem spelled_of_read {r r' : Reader} (hv : r.Valid) {cs : List Char}
    (h : r.ahead = .ofChars cs) {m : Marker} (hm : Marker.read r = (.ok m, r')) :
    Marker.Accepted cs ∧ ∃ rest, cs = m.spelled ++ '}' :: '}' :: rest ∧
      r'.ahead = .ofChars rest ∧ r'.position = r.position + (m.spelled.length + 2) := by
  have reads := read_marker hv h
  cases hcs : Marker.read cs with
  | mk answer rest =>
    rw [hcs] at reads
    cases answer with
    | error e =>
      obtain ⟨q, hq⟩ := reads
      rw [hq] at hm
      cases hm
    | ok m' =>
      obtain ⟨q, hq, ha, -, hposition⟩ := reads
      rw [hq] at hm
      obtain ⟨heq, rfl⟩ := Prod.mk.inj hm
      obtain rfl := Except.ok.inj heq
      obtain ⟨haccepted, hwhole⟩ := Marker.accepted_of_read hcs
      refine ⟨haccepted, rest, hwhole, ha, ?_⟩
      rw [hwhole, List.length_append, List.length_cons, List.length_cons] at hposition
      omega

/-- **Reading a marker takes what is grammatical and nothing else.**  What has been taken is how the
marker is written, so that nothing of it is lost; and a failure tells what is missing. -/
theorem readsMarker {r : Reader} (hv : r.Valid) {cs : List Char} (h : r.ahead = .ofChars cs) :
    ReadsMarker r cs := by
  have reads := read_marker hv h
  refine ⟨⟨?_, fun haccepted => ?_⟩, fun m r' hm => (spelled_of_read hv h hm).2, ?_, ?_⟩
  · rintro ⟨m, r', hm⟩
    exact (spelled_of_read hv h hm).1
  · obtain ⟨m, rest, hm⟩ := Marker.read_accepted haccepted
    rw [hm] at reads
    obtain ⟨r', hr', -⟩ := reads
    exact ⟨m, r', hr'⟩
  · intro q ds m r' q' hv' h' hr hq
    obtain ⟨-, rest, rfl, -, hr'⟩ := spelled_of_read hv h hr
    obtain ⟨-, rest', rfl, -, hq'⟩ := spelled_of_read hv' h' hq
    have taken (rest : List Char) : (m.spelled ++ '}' :: '}' :: rest).take (m.spelled.length + 2) =
        m.spelled ++ ['}', '}'] := by
      rw [List.take_length_add_append]
      rfl
    rw [hr', hq', Nat.add_sub_cancel_left, Nat.add_sub_cancel_left, taken, taken]
  · intro e r' hr
    -- a failure of the reader is one of the characters
    have failed : ∃ rest, Marker.read cs = (.error e, rest) := by
      cases hcs : Marker.read cs with
      | mk answer rest =>
        rw [hcs] at reads
        cases answer with
        | ok m =>
          obtain ⟨q, hq, -⟩ := reads
          rw [hq] at hr
          cases hr
        | error e' =>
          obtain ⟨q, hq⟩ := reads
          rw [hq] at hr
          rw [(Prod.mk.inj hr).1]
          exact ⟨rest, rfl⟩
    obtain ⟨rest, hcs⟩ := failed
    refine ⟨fun hunclosed => ?_, fun hlone => ?_, fun hclosed halone => ?_⟩
    · obtain ⟨rest', hread⟩ := Marker.read_unclosed hunclosed
      rw [hread] at hcs
      exact (Except.error.inj (Prod.mk.inj hcs).1).symm
    · obtain ⟨rest', hread⟩ := Marker.read_loneBrace hlone
      rw [hread] at hcs
      exact (Except.error.inj (Prod.mk.inj hcs).1).symm
    · exact Marker.invalid_of_read hclosed halone hcs

/-- A section with a separator that holds brackets, and modifiers with and without an argument. -/
theorem readsMarker_separator :
    let text := "#a[b[, ]:c=d=:e\x7d\x7df"
    let r := Reader.ofSource (.ofText text)
    r.Valid ∧ r.ahead = .ofChars text.toList ∧ ReadsMarker r text.toList ∧
      (Marker.read r).1.toOption =
        some ⟨.repeating, "a[b", some ", ", [⟨"c", some "d="⟩, ⟨"e", none⟩]⟩ := by
  intro text r
  have hv : r.Valid := valid_ofSource _
  have ha : r.ahead = .ofChars text.toList := script_of_readText (Source.readText_ofText text)
  exact ⟨hv, ha, readsMarker hv ha, by decide +kernel⟩

end Reader

end Stencil
