import Stencil.Proofs.Render.Grammar
import Stencil.Proofs.Render.Watched

/-!
# Separators of repeating sections

The separator of a repeating section stands in brackets behind its name.  The marker is cut at its
colons first, and what is left is searched for an opening bracket from its end, so that a separator
comes through whole when it holds neither of the two; equals signs, closing brackets and all other
characters do no harm.

- `Marker.separated`, `Marker.ending`: the markers around the body of a section with a separator;
- `Marker.SectionName`: the names that no separator can be mistaken for a part of;
- `Marker.parse_bracketed_iff`: which separators come through the reading of a marker's text;
- `Reader.readsSeparated`: **a separator is read as it stands exactly when it holds neither a colon
  nor an opening bracket**, and what is read otherwise;
- `Template.write_separator_colon`: a section that cannot be written with a colon between its
  elements.
-/

namespace Stencil

namespace Marker

/-- The start of a repeating section with a separator, and no modifiers. -/
def separated (name separator : List Char) : Marker :=
  ⟨.repeating, String.ofList name, some (String.ofList separator), []⟩

/-- The end of a section. -/
def ending (name : List Char) : Marker := ⟨.sectionEnd, String.ofList name, none, []⟩

/-- A name of a section that holds none of the characters that structure a marker. -/
structure SectionName (name : List Char) : Prop where
  filled : name ≠ []
  colonless : ':' ∉ name
  unopened : '[' ∉ name
  unclosed : ']' ∉ name
  unbraced : '}' ∉ name

/-! ## Texts of markers -/

/-- A separator that holds no opening bracket is cut off whole, whatever the name in front of it. -/
theorem splitSeparator_bracketed {separator : List Char} (h : '[' ∉ separator) (name : List Char) :
    splitSeparator (name ++ '[' :: separator ++ [']']) = (name, some separator) := by
  have hreverse : (name ++ '[' :: separator ++ [']']).reverse =
      ']' :: (name ++ '[' :: separator).reverse := by
    rw [List.reverse_append]
    rfl
  have hlast : Text.splitLast '[' (name ++ '[' :: separator ++ [']']) =
      some (name, separator ++ [']']) := by
    refine Text.splitLast_eq_some.mpr ⟨?_, fun hm => ?_⟩
    · rw [List.append_assoc, List.cons_append]
    · rcases List.mem_append.mp hm with hm | hm
      · exact h hm
      · exact absurd hm (by decide)
  unfold splitSeparator
  rw [hreverse]
  rw [hlast]
  simp only [List.dropLast_concat]

/-- Without a colon the text is the name and, for a repeating section, the separator. -/
theorem parse_of_colonless {kind : MarkerKind} (hk : kind ≠ .comment) {text : List Char}
    (hcolon : ':' ∉ text) (hfilled : text ≠ []) :
    parse kind text =
      let (name, separator) := if kind = .repeating then splitSeparator text else (text, none)
      if name.isEmpty then none
      else some ⟨kind, String.ofList name, separator.map String.ofList, []⟩ := by
  have hsplit : Text.splitAt ':' text = text.takeWhile (· ≠ ':') :: [] := by
    rw [Text.takeWhile_of_not_mem hcolon, Text.splitAt_of_not_mem hcolon]
  rw [parse_eq hk hsplit, Text.takeWhile_of_not_mem hcolon,
    if_neg (mt List.isEmpty_iff.mp hfilled)]
  rfl

/-- Behind a colon there is a modifier, or there is no marker. -/
theorem modifiers_of_colon {kind : MarkerKind} (hk : kind ≠ .comment) {text : List Char}
    (hcolon : ':' ∈ text) {m : Marker} (h : parse kind text = some m) : m.modifiers ≠ [] := by
  obtain ⟨parts, hsplit, htext⟩ := Text.splitAt_eq ':' text
  obtain ⟨bare, separator, hnaming, -, -⟩ := naming_spec kind (text.takeWhile (· ≠ ':'))
  rw [parse_eq hk hsplit, hnaming] at h
  split at h
  · cases h
  obtain ⟨calls, hcalls, h⟩ := Option.bind_eq_some_iff.mp h
  dsimp only at h
  split at h
  · cases h
  obtain rfl := Option.some.inj h
  rintro rfl
  -- without modifiers there are no parts behind colons
  rw [← (spelled_of_mapM hcalls).1, List.flatMap_nil, List.append_nil] at htext
  rw [htext] at hcolon
  exact absurd (List.all_eq_true.mp List.all_takeWhile ':' hcolon) (by decide)

/-- A separator in brackets behind a name. -/
def bracketed (name separator : List Char) : List Char := name ++ '[' :: separator ++ [']']

theorem mem_bracketed {c : Char} (hc : c ≠ '[' ∧ c ≠ ']') {name separator : List Char} :
    c ∈ bracketed name separator ↔ c ∈ name ∨ c ∈ separator := by
  simp [bracketed, hc]

theorem SectionName.colon_mem_bracketed {name : List Char} (hname : SectionName name)
    {separator : List Char} : ':' ∈ bracketed name separator ↔ ':' ∈ separator := by
  rw [mem_bracketed (by decide)]
  exact or_iff_right hname.colonless

theorem bracketed_ne_nil (name separator : List Char) : bracketed name separator ≠ [] := by
  simp [bracketed]

theorem parse_bracketed {name separator : List Char} (hfilled : name ≠ [])
    (hcolon : ':' ∉ bracketed name separator) (hopen : '[' ∉ separator) :
    parse .repeating (bracketed name separator) = some (.separated name separator) := by
  rw [parse_of_colonless (by decide) hcolon (bracketed_ne_nil name separator), if_pos rfl,
    bracketed, splitSeparator_bracketed hopen]
  exact if_neg (mt List.isEmpty_iff.mp hfilled)

/-- The last opening bracket starts the separator. -/
theorem parse_bracketed_append {name before after : List Char} (hfilled : name ≠ [])
    (hcolon : ':' ∉ bracketed name (before ++ '[' :: after)) (hopen : '[' ∉ after) :
    parse .repeating (bracketed name (before ++ '[' :: after)) =
      some (.separated (name ++ '[' :: before) after) := by
  have hmoved : bracketed name (before ++ '[' :: after) =
      bracketed (name ++ '[' :: before) after := by
    simp [bracketed]
  rw [hmoved] at hcolon ⊢
  exact parse_bracketed (List.append_ne_nil_of_left_ne_nil hfilled _) hcolon hopen

/-- Which separators come through as they stand. -/
theorem parse_bracketed_iff {name separator : List Char} (hname : SectionName name) :
    parse .repeating (bracketed name separator) = some (.separated name separator) ↔
      ':' ∉ separator ∧ '[' ∉ separator := by
  constructor
  · intro hparse
    have hc : ':' ∉ separator := fun hc =>
      modifiers_of_colon (by decide) (hname.colon_mem_bracketed.mpr hc) hparse rfl
    refine ⟨hc, fun hopen => ?_⟩
    -- the name would end at an opening bracket
    obtain ⟨⟨before, after⟩, hlast⟩ := Option.ne_none_iff_exists'.mp
      (mt Text.splitLast_eq_none.mp (not_not_intro hopen))
    obtain ⟨rfl, hafter⟩ := Text.splitLast_eq_some.mp hlast
    rw [parse_bracketed_append hname.filled (mt hname.colon_mem_bracketed.mp hc) hafter] at hparse
    have hnames := congrArg Marker.name (Option.some.inj hparse)
    have hlists := List.append_right_eq_self.mp (String.ofList_injective hnames)
    exact List.cons_ne_nil _ _ hlists
  · rintro ⟨hc, hopen⟩
    exact parse_bracketed hname.filled (mt hname.colon_mem_bracketed.mp hc) hopen

theorem parse_ending {name : List Char} (hname : SectionName name) :
    parse .sectionEnd name = some (.ending name) := by
  rw [parse_of_colonless (by decide) hname.colonless hname.filled, if_neg (by decide)]
  exact if_neg (mt List.isEmpty_iff.mp hname.filled)

/-! ## Reading them -/

/-- What a marker that is no variable is read as. -/
theorem read_signed {kind : MarkerKind} (hk : kind ≠ .variable) {text : List Char}
    (hfilled : text ≠ []) (hunclosed : '}' ∉ text) (rest : List Char) :
    Marker.read (kind.sign ++ text ++ '}' :: '}' :: rest) =
      ((parse kind text).elim (.error .invalidMarker) .ok, rest) := by
  have hcuts : Cuts (kind.sign ++ text ++ '}' :: '}' :: rest) kind text ('}' :: rest) :=
    ⟨rfl, hunclosed, fun h => absurd h hk⟩
  rw [hcuts.read, if_neg (mt List.isEmpty_iff.mp hfilled)]
  exact if_pos rfl

end Marker

/-! ## Separators ahead of a reader -/

namespace Reader

/-- What a reader reads where a section starts with this name and this separator, and where it
ends. -/
structure ReadsSeparated (r : Reader) (name separator rest : List Char) : Prop where
  /-- The separator comes through as it stands exactly when it holds neither of the two. -/
  whole : (∃ r', Marker.read r = (.ok (.separated name separator), r')) ↔
    ':' ∉ separator ∧ '[' ∉ separator
  /-- A marker that is read ends behind the braces. -/
  behind : ∀ m r', Marker.read r = (.ok m, r') → r'.ahead = .ofChars rest
  /-- What stands in front of the last opening bracket is taken for a part of the name. -/
  cut : ':' ∉ separator → ∀ before after, separator = before ++ '[' :: after → '[' ∉ after →
    ∃ r', Marker.read r = (.ok (.separated (name ++ '[' :: before) after), r')
  /-- What stands behind a colon is taken for a modifier. -/
  called : ':' ∈ separator → ∀ m r', Marker.read r = (.ok m, r') → m.modifiers ≠ []
  /-- The end marker of the name ends the section, when it has been started under its name. -/
  ended : ∀ (q : Reader) behind, q.Valid →
    q.ahead = .ofChars ('/' :: name ++ '}' :: '}' :: behind) →
      ∃ q', Marker.read q = (.ok (.ending name), q') ∧ q'.ahead = .ofChars behind ∧
        ∀ (s : State String) outer, s.sections = (Marker.separated name separator).name :: outer →
          Body.sectionEnd (Marker.ending name).name s = (.ok .sectionEnd, s)

/-- A reader reads what its characters say, and stands behind it. -/
theorem read_signed {r : Reader} (hv : r.Valid) (kind : MarkerKind) (hk : kind ≠ .variable)
    {text rest : List Char} (hfilled : text ≠ []) (hunclosed : '}' ∉ text)
    (h : r.ahead = .ofChars (kind.sign ++ text ++ '}' :: '}' :: rest)) :
    ∃ r', Marker.read r = ((Marker.parse kind text).elim (.error .invalidMarker) .ok, r') ∧
      ((Marker.parse kind text).isSome → r'.ahead = .ofChars rest) := by
  have reads := read_marker hv h
  rw [Marker.read_signed hk hfilled hunclosed] at reads
  cases hparse : Marker.parse kind text with
  | none =>
    rw [hparse] at reads
    obtain ⟨r', hr⟩ := reads
    exact ⟨r', hr, nofun⟩
  | some m =>
    rw [hparse] at reads
    obtain ⟨r', hr, ha, -⟩ := reads
    exact ⟨r', hr, fun _ => ha⟩

/-- The end marker of a section is read as such, and ends the section if it has been started under
that name. -/
theorem read_ending {name : List Char} (hname : Marker.SectionName name) {q : Reader}
    (hq : q.Valid) {behind : List Char}
    (h : q.ahead = .ofChars ('/' :: name ++ '}' :: '}' :: behind)) :
    ∃ q', Marker.read q = (.ok (.ending name), q') ∧ q'.ahead = .ofChars behind ∧
      ∀ (s : State String) outer, s.sections = String.ofList name :: outer →
        Body.sectionEnd (Marker.ending name).name s = (.ok .sectionEnd, s) := by
  obtain ⟨q', hread, hbehind⟩ :=
    read_signed hq .sectionEnd (by decide) hname.filled hname.unbraced h
  rw [Marker.parse_ending hname] at hread hbehind
  refine ⟨q', hread, hbehind rfl, fun s outer hs => ?_⟩
  rw [sectionEnd_apply, hs]
  exact if_pos rfl

/-- **A separator is read as it stands exactly when it holds neither a colon nor an opening
bracket.**  Otherwise a part of it is taken for a part of the name or for a modifier. -/
theorem readsSeparated {r : Reader} (hv : r.Valid) {name separator rest : List Char}
    (hname : Marker.SectionName name) (hsep : '}' ∉ separator)
    (h : r.ahead = .ofChars ('#' :: name ++ '[' :: separator ++ ']' :: '}' :: '}' :: rest)) :
    ReadsSeparated r name separator rest := by
  have hunclosed : '}' ∉ Marker.bracketed name separator := by
    rw [Marker.mem_bracketed (by decide), not_or]
    exact ⟨hname.unbraced, hsep⟩
  have hahead : r.ahead = .ofChars
      (MarkerKind.repeating.sign ++ Marker.bracketed name separator ++ '}' :: '}' :: rest) := by
    rw [h]
    simp [MarkerKind.sign, Marker.bracketed]
  obtain ⟨r', hread, hbehind⟩ := read_signed hv .repeating (by decide)
    (Marker.bracketed_ne_nil name separator) hunclosed hahead
  -- the reader gives what the text of the marker is parsed to
  have reads (m : Marker) (r'' : Reader) : Marker.read r = (.ok m, r'') ↔
      Marker.parse .repeating (Marker.bracketed name separator) = some m ∧ r' = r'' := by
    rw [hread, Prod.mk.injEq]
    cases Marker.parse .repeating (Marker.bracketed name separator) <;> simp
  refine ⟨⟨?_, ?_⟩, ?_, ?_, ?_, ?_⟩
  · rintro ⟨r'', hwhole⟩
    exact (Marker.parse_bracketed_iff hname).mp ((reads _ _).mp hwhole).1
  · intro hplain
    exact ⟨r', (reads _ _).mpr ⟨(Marker.parse_bracketed_iff hname).mpr hplain, rfl⟩⟩
  · intro m r'' hm
    obtain ⟨hparse, rfl⟩ := (reads m r'').mp hm
    exact hbehind (hparse ▸ rfl)
  · rintro hc before after rfl hopen
    exact ⟨r', (reads _ _).mpr
      ⟨Marker.parse_bracketed_append hname.filled (mt hname.colon_mem_bracketed.mp hc) hopen, rfl⟩⟩
  · intro hc m r'' hm
    obtain ⟨hparse, -⟩ := (reads m r'').mp hm
    exact Marker.modifiers_of_colon (by decide) (hname.colon_mem_bracketed.mpr hc) hparse
  · intro q behind hq hq'
    exact read_ending hname hq hq'

/-- A separator with a closing bracket and an equals sign. -/
theorem readsSeparated_brackets :
    let name := "items".toList
    let separator := "=] ".toList
    let rest := "...".toList
    let r := Reader.ofSource (.ofText "#items[=] ]\x7d\x7d...")
    r.Valid ∧ Marker.SectionName name ∧ '}' ∉ separator ∧
      r.ahead = .ofChars ('#' :: name ++ '[' :: separator ++ ']' :: '}' :: '}' :: rest) ∧
        ReadsSeparated r name separator rest ∧
          (Marker.read r).1.toOption = some ⟨.repeating, "items", some "=] ", []⟩ := by
  intro name separator rest r
  have hv : r.Valid := valid_ofSource _
  have ha : r.ahead = .ofChars ('#' :: name ++ '[' :: separator ++ ']' :: '}' :: '}' :: rest) :=
    script_of_readText (Source.readText_ofText _)
  have hname : Marker.SectionName name := by constructor <;> decide
  have hsep : '}' ∉ separator := by decide
  exact ⟨hv, hname, hsep, ha, readsSeparated hv hname hsep ha, by decide +kernel⟩

end Reader

/-- A colon with a blank is no separator: the name of the section is taken to be `n[`, under which
there is nothing, and the end marker of `n` does not end it.  A semicolon is one. -/
theorem Template.write_separator_colon :
    let t : Template := ⟨"t.html", "text/html", none, none⟩
    let o : RenderOptions := ⟨⟨.default, 0⟩, none, []⟩
    let v : Value := .record [("n", .list [.scalar (.text "a"), .scalar (.text "b")])]
    let start (text : String) : Rendered String := ⟨"", ⟨[], []⟩, .ofLoader
      (.scripted [("t.html", .ok (.ofText text))])⟩
    let around (separator : String) : String :=
      "\x7b\x7b#n[" ++ separator ++ "]\x7d\x7d\x7b\x7b.\x7d\x7d\x7b\x7b/n\x7d\x7d"
    Marker.SectionName "n".toList ∧ '}' ∉ ": ".toList ∧
      (Marker.read "#n[: ]\x7d\x7d".toList).1.toOption =
        some ⟨.repeating, "n[", none, [⟨" ]", none⟩]⟩ ∧
      (t.write o v (start (around ": "))).1 =
        .error (.failed (.invalidClosingSection "n[" "n")) ∧
      (t.write o v (start (around "; "))).2.sink = "a; b" := by
  refine ⟨by constructor <;> decide, by decide, ?_⟩
  decide +kernel

end Stencil
