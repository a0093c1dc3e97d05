import Stencil.Proofs.Render.PropertyEscape

/-!
# Property lists read back

A property list is written with one entry a line, and blank lines and comments between them.

- `Properties.Line`, `Properties.LineEnd`, `Properties.document`: lines, with their ends, as a text;
- `Properties.Line.Cut`: what is left of a line when it has been cut from the text;
- `Properties.written`: the keys and values of the entries;
- `Properties.parse_document`: **what is written is read back**.
-/

namespace Stencil.Properties

open Text

/-! ## Lines -/

/-- Blanks in a line. -/
structure Indent where
  chars : List Char
  blank : ∀ c ∈ chars, isBlank c = true
  inLine : '\n' ∉ chars

/-- What a comment starts with. -/
inductive CommentSign where
  | hash
  | bang
  deriving DecidableEq

def CommentSign.char : CommentSign → Char
  | .hash => '#'
  | .bang => '!'

/-- A line of a property list. -/
inductive Line where
  /-- A key and its value, both escaped, with an equals sign between them. -/
  | entry (key value : String)
  | blank (indent : Indent)
  /-- A sign behind blanks, and any text. -/
  | comment (indent : Indent) (sign : CommentSign) (text : List Char) (inLine : '\n' ∉ text)

namespace Line

/-- The characters of a line. -/
def chars (capital : Bool) : Line → List Char
  | .entry key value => escape capital key ++ '=' :: escape capital value
  | .blank indent => indent.chars
  | .comment indent sign text _ => indent.chars ++ sign.char :: text

/-- The key and the value of an entry. -/
def pair? : Line → Option (String × String)
  | .entry key value => some (key, value)
  | _ => none

end Line

/-- How a line ends: with a line feed, and maybe a carriage return in front of it. -/
inductive LineEnd where
  | feed
  | returnFeed
  deriving DecidableEq

/-- What stands in front of the line feed. -/
def LineEnd.chars : LineEnd → List Char
  | .feed => []
  | .returnFeed => ['\r']

/-- The text of lines with their ends, and of a last line that has none. -/
def document (capital : Bool) (ended : List (Line × LineEnd)) (last : Line) : String :=
  String.ofList ((ended.map fun e => e.1.chars capital ++ e.2.chars).flatMap (· ++ ['\n']) ++
    last.chars capital)

variable {capital : Bool}

theorem Line.not_mem_chars (l : Line) : '\n' ∉ l.chars capital := by
  cases l with
  | entry key value =>
    intro hm
    rcases List.mem_append.mp hm with hm | hm
    · exact not_mem_escape capital key (by decide) hm
    · rcases List.mem_cons.mp hm with hm | hm
      · exact absurd hm (by decide)
      · exact not_mem_escape capital value (by decide) hm
  | blank indent => exact indent.inLine
  | comment indent sign text inLine =>
    intro hm
    rcases List.mem_append.mp hm with hm | hm
    · exact indent.inLine hm
    · rcases List.mem_cons.mp hm with hm | hm
      · cases sign <;> exact absurd hm (by decide)
      · exact inLine hm

/-- What is left of a line when it has been cut from the document: blanks, a comment, or the whole
entry. -/
inductive Line.Cut (capital : Bool) : Line → List Char → Prop where
  | entry (key value : String) :
    Cut capital (.entry key value) (escape capital key ++ '=' :: escape capital value)
  | blank {indent : Indent} {raw : List Char} (blank : ∀ c ∈ raw, isBlank c = true) :
    Cut capital (.blank indent) raw
  | comment {indent : Indent} {sign : CommentSign} {text : List Char} {inLine : '\n' ∉ text}
    (rest : List Char) :
    Cut capital (.comment indent sign text inLine) (indent.chars ++ sign.char :: rest)

theorem Line.cut_chars (l : Line) : Cut capital l (l.chars capital) := by
  cases l with
  | entry key value => exact .entry key value
  | blank indent => exact .blank indent.blank
  | comment indent sign text inLine => exact .comment text

/-- The carriage return in front of a line feed is dropped, or one that a line ends with itself. -/
theorem Line.cut_withoutReturn (l : Line) (e : LineEnd) :
    Cut capital l (withoutReturn (l.chars capital ++ e.chars)) := by
  cases l with
  | entry key value =>
    have hvalue : withoutReturn (escape capital value ++ e.chars) = escape capital value := by
      cases e with
      | feed =>
        rw [LineEnd.chars, List.append_nil]
        exact withoutReturn_of_not_mem (not_mem_escape capital value (by decide))
      | returnFeed => exact (withoutReturn_concat ..).trans (if_pos rfl)
    rw [chars, List.append_assoc, List.cons_append, withoutReturn_append_cons (by decide), hvalue]
    exact .entry key value
  | blank indent =>
    refine .blank fun c hc => ?_
    rcases List.mem_append.mp (mem_of_mem_withoutReturn hc) with hc | hc
    · exact indent.blank c hc
    · cases e with
      | feed => cases hc
      | returnFeed =>
        rw [List.mem_singleton.mp hc]
        decide
  | comment indent sign text inLine =>
    have hsign : sign.char ≠ '\r' := by cases sign <;> decide
    rw [chars, List.append_assoc, List.cons_append, withoutReturn_append_cons hsign]
    exact .comment _

/-- Blanks alone are a comment. -/
theorem trimStart_blanks {s : List Char} (h : ∀ c ∈ s, isBlank c = true) (rest : List Char) :
    trimStart (s ++ rest) = trimStart rest :=
  List.dropWhile_append_of_pos h

/-- A line that has been cut is left out, or joined with nothing. -/
theorem Line.Cut.joinLines {l : Line} {raw : List Char} (h : Cut capital l raw)
    (rest : List (List Char)) :
    joinLines none (raw :: rest) =
      (l.pair?.map fun e => escape capital e.1 ++ '=' :: escape capital e.2).toList ++
        joinLines none rest := by
  rw [Properties.joinLines]
  cases h with
  | entry key value =>
    -- the key starts with neither a blank nor the sign of a comment; the equals sign does neither
    have hhead : ∃ d ds, escape capital key ++ '=' :: escape capital value = d :: ds ∧
        isBlank d = false ∧ d ≠ '#' ∧ d ≠ '!' := by
      unfold escape
      cases key.toList with
      | nil => exact ⟨'=', _, rfl, by decide, by decide, by decide⟩
      | cons c cs =>
        obtain ⟨d, ds, hd, hblank, hsigns⟩ := (escaped_escapeChar capital c).head
        rw [List.flatMap_cons, hd]
        exact ⟨d, _, rfl, hblank, hsigns⟩
    have hgoes : isContinued (escape capital key ++ '=' :: escape capital value) = false := by
      rw [List.append_cons]
      exact isContinued_escape capital value (isContinued_concat (by decide) _)
    obtain ⟨d, ds, hd, hblank, hhash, hbang⟩ := hhead
    have hcomment : isComment (d :: ds) = false := by simp [isComment, hhash, hbang]
    rw [hd] at hgoes ⊢
    rw [trimStart_cons hblank, if_neg (by rw [hcomment]; exact Bool.false_ne_true),
      if_neg (by rw [hgoes]; exact Bool.false_ne_true), ← hd]
    rfl
  | blank blank =>
    have hempty : trimStart raw = [] := by
      rw [← List.append_nil raw, trimStart_blanks blank]
      rfl
    rw [hempty]
    rfl
  | @comment indent sign _ _ rest' =>
    have hsign : isBlank sign.char = false := by cases sign <;> decide
    have hcomment : isComment (sign.char :: rest') = true := by cases sign <;> rfl
    rw [trimStart_blanks indent.blank, trimStart_cons hsign, if_pos hcomment]
    rfl

/-! ## Documents -/

/-- The keys and values that are written in a document, in their order. -/
def written (ended : List (Line × LineEnd)) (last : Line) : List (String × String) :=
  (ended.map (·.1) ++ [last]).filterMap Line.pair?

/-- Nothing is left out but blank lines and comments; by induction on the lines. -/
theorem joinLines_document (ended : List (Line × LineEnd)) (last : Line) :
    joinLines none ((ended.map fun e => withoutReturn (e.1.chars capital ++ e.2.chars)) ++
        if (last.chars capital).isEmpty then [] else [last.chars capital]) =
      (written ended last).map fun e => escape capital e.1 ++ '=' :: escape capital e.2 := by
  have found (l : Line) (rest : List Line) : (l :: rest).filterMap Line.pair? =
      l.pair?.toList ++ rest.filterMap Line.pair? := by
    rw [List.filterMap_cons]
    cases l.pair? <;> rfl
  induction ended with
  | nil =>
    rw [written, List.map_nil, List.map_nil, List.nil_append, List.nil_append, found,
      List.filterMap_nil, List.append_nil]
    by_cases hempty : (last.chars capital).isEmpty
    · rw [if_pos hempty]
      -- only a blank line has no characters
      cases last with
      | entry key value => simp [Line.chars] at hempty
      | blank indent => rfl
      | comment indent sign text inLine => simp [Line.chars] at hempty
    · rw [if_neg hempty, last.cut_chars.joinLines, joinLines, List.append_nil]
      cases last.pair? <;> rfl
  | cons e ended ih =>
    rw [written] at ih ⊢
    rw [List.map_cons, List.cons_append, (e.1.cut_withoutReturn e.2).joinLines, ih, List.map_cons,
      List.cons_append, found, List.map_append]
    cases e.1.pair? <;> rfl

/-- An entry is read as the key and the value that it was written for. -/
theorem parseEntry_escape (key value : String) :
    parseEntry (escape capital key ++ '=' :: escape capital value) = (key, value) := by
  rw [parseEntry, splitEntry_escape, trimStart_escape]
  dsimp only
  rw [unescape_escape, unescape_escape]

/-- A document is read as the entries that are written in it, one after the other. -/
theorem parse_eq_ofList (ended : List (Line × LineEnd)) (last : Line) :
    parse (document capital ended last) = ⟨Fields.ofList (written ended last)⟩ := by
  have hcut : ∀ raw ∈ ended.map fun e => e.1.chars capital ++ e.2.chars, '\n' ∉ raw := by
    intro raw hraw
    obtain ⟨⟨l, e⟩, -, rfl⟩ := List.mem_map.mp hraw
    intro hm
    rcases List.mem_append.mp hm with hm | hm
    · exact l.not_mem_chars hm
    · cases e with
      | feed => cases hm
      | returnFeed => exact absurd (List.mem_singleton.mp hm) (by decide)
  rw [parse, document, String.toList_ofList, lines_flatMap hcut last.not_mem_chars, List.map_map]
  show (⟨Fields.ofList ((joinLines none ((ended.map fun e =>
    withoutReturn (e.1.chars capital ++ e.2.chars)) ++ _)).map parseEntry)⟩ : Properties) = _
  rw [joinLines_document, List.map_map]
  congr 2
  rw [← List.map_id (written ended last), List.map_map]
  exact List.map_congr_left fun e _ => parseEntry_escape e.1 e.2

/-- **What is written is read back**: a document gives each key the last value that is written for
it and nothing to any other key, and has as many entries as there are different keys. -/
theorem parse_document (capital : Bool) (ended : List (Line × LineEnd)) (last : Line) :
    (∀ key, (parse (document capital ended last)).get? key =
        (written ended last).reverse.lookup key) ∧
      (parse (document capital ended last)).entries.length =
        ((written ended last).map (·.1)).eraseDups.length := by
  rw [parse_eq_ofList]
  refine ⟨fun key => Fields.get?_ofList key _, ?_⟩
  rw [← Fields.keys_ofList, List.length_map]

/-- Entries with a blank, separators, a backslash at the end and a character of two units, between a
comment that ends with a backslash and a blank line; the first key is written again. -/
example :
    let ended : List (Line × LineEnd) :=
      [(.entry " a=" "#\\", .feed),
       (.comment ⟨[], nofun, by decide⟩ .bang ['\\'] (by decide), .feed), (.entry "😀" "", .returnFeed),
       (.blank ⟨[' '], List.forall_mem_singleton.mpr rfl, by decide⟩, .feed)]
    document true ended (.entry " a=" "é\n") =
      "\\ a\\==\\#\\\\\n!\\\n\\uD83D\\uDE00=\r\n \n\\ a\\==\\u00E9\\n" := by
  decide +kernel

end Stencil.Properties
