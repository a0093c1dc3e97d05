import Stencil.Proofs.Modifier.Escape
import Stencil.Proofs.Render.Writes

/-!
# Escaping by the extension of a template

The escaper of a template's extension stands behind all modifiers of a variable, also in the
templates that are included.  So data, texts and variables of the render cannot bring a tag or the
end of an attribute value into a markup document, whatever modifiers they pass through.

- `Template.extension`: the extension that tells the escaper;
- `Loader.Reaches`, `Markup.Token.Plain`: the templates that may be read, and tokens that bring in
  no tag of their own;
- `Body.display_chain`: the last modifier has the last word;
- `Template.write_escaped`: **the text of a markup document is harmless**, complete or not, and what
  a variable writes has ampersands only where references start.
-/

namespace Stencil

open Markup Escape

/-- The extension of a template in small letters. -/
def Template.extension (t : Template) : String :=
  String.ofList ((((Text.splitLast '.' t.name.toList).map (·.2)).getD []).map Char.toLower)

/-- The name under which a token includes a template. -/
def Markup.Token.included? : Token → Option String
  | .text _ => none
  | .marker m => if m.kind = .include then some m.name else none

/-- The templates that may be read: the first one, and those that one of them includes. -/
inductive Loader.Reaches (l : Loader) (first : String) : String → Prop where
  | first : l.Reaches first first
  | included {name name' : String} {source : Source} {token : Token} (h : l.Reaches first name)
    (ho : l.openNamed name = .ok source) (ht : token ∈ (Reader.ofSource source).tokens)
    (hn : token.included? = some name') : l.Reaches first (resolveRelative first name')

/-- Templates that include only one another are all that may be read. -/
theorem Loader.Reaches.mem {l : Loader} {first : String} {names : List String}
    (hfirst : first ∈ names)
    (hclosed : ∀ name ∈ names, ∀ source, l.openNamed name = .ok source →
      ∀ token ∈ (Reader.ofSource source).tokens, ∀ name' ∈ token.included?,
        resolveRelative first name' ∈ names) {name : String} (h : l.Reaches first name) :
    name ∈ names := by
  induction h with
  | first => exact hfirst
  | included _ ho ht hn ih => exact hclosed _ ih _ ho _ ht _ hn

/-- A token that brings in no tag: what it has written of its own is harmless. -/
def Markup.Token.Plain : Token → Prop
  | .text chars => Harmless chars
  | .marker m => ∀ text ∈ m.separator, Harmless text.toList

instance : DecidablePred Token.Plain
  | .text chars => inferInstanceAs (Decidable (Harmless chars))
  | .marker m => inferInstanceAs (Decidable (∀ text ∈ m.separator, Harmless text.toList))

/-- A token that brings in no tag, and includes only a template that may be read. -/
def Loader.Admits (l : Loader) (first : String) (token : Token) : Prop :=
  token.Plain ∧ ∀ name ∈ token.included?, l.Reaches first (resolveRelative first name)

section

variable {job : Job} {l : Loader}

/-- The tokens of a template that may be read. -/
theorem Loader.Reaches.admits {first name : String} (h : l.Reaches first name)
    (hplain : ∀ name source, l.Reaches first name → l.openNamed name = .ok source →
      ∀ token ∈ (Reader.ofSource source).tokens, token.Plain)
    {source : Source} (ho : l.openNamed name = .ok source) :
    ∀ token ∈ (Reader.ofSource source).tokens, l.Admits first token := by
  intro token ht
  exact ⟨hplain name source h ho token ht, fun _ hn => h.included ho ht hn⟩

/-- Tokens that bring in no tag lead to harmless pieces, if the values of variables do. -/
theorem leads_of_plain
    (hplain : ∀ name source, l.Reaches job.template name → l.openNamed name = .ok source →
      ∀ token ∈ (Reader.ofSource source).tokens, token.Plain)
    (hvalue : ∀ m value,
      Harmless ((Body.chain job m).foldl (Body.modified job) value).display.toList) :
    Leads job l (l.Admits job.template) (fun text => Harmless text.toList) where
  text chars h c hc := by
    intro d hd
    rw [String.toList_singleton, List.mem_singleton] at hd
    rw [hd]
    exact h.1 c hc
  separator m text h hs := h.1 text hs
  value m value _ _ := hvalue m value
  included m source h hk ho := (h.2 m.name (if_pos hk)).admits hplain ho

end

namespace Template

/-- Only the modifier behind all others changes. -/
theorem escapeByExtension_job (t : Template) (o : RenderOptions) :
    t.escapeByExtension.job o =
      { t.job o with defaultModifier := t.escapeByExtension.defaultModifier } := by
  unfold escapeByExtension
  dsimp only
  split <;> rfl

/-- The escaper of a markup document. -/
theorem defaultModifier_escapeByExtension {t : Template}
    (h : t.extension ∈ ["html", "htm", "xhtml", "xml"]) :
    ∃ name ∈ ["^html", "^xml"], t.escapeByExtension.defaultModifier = some name := by
  have escaper : ∀ extension ∈ ["html", "htm", "xhtml", "xml"],
      ∃ name ∈ ["^html", "^xml"], escaperOf extension = some name := by
    decide
  obtain ⟨name, hmem, heq⟩ := escaper _ h
  refine ⟨name, hmem, ?_⟩
  unfold escapeByExtension
  unfold extension at heq
  dsimp only
  rw [heq]

end Template

namespace Body

/-- The modifier of the render has the last word. -/
theorem display_chain {job : Job} {name : String} {escape : String → String}
    (hd : job.defaultModifier = some name)
    (hr : job.registry.resolve? name = some (.escaping escape)) (m : Marker) (value : Scalar) :
    ((chain job m).foldl (modified job) value).display =
      escape (m.modifiers.foldl (modified job) value).display := by
  unfold chain
  rw [hd, List.foldl_append]
  show (modified job (m.modifiers.foldl (modified job) value) ⟨name, none⟩).display = _
  unfold modified
  rw [hr]
  rfl

variable {σ : Type}

/-- Looking up a name writes nothing. -/
theorem resolve_keeps (job : Job) (v : Value) (name : String) (s : State σ) :
    (resolve job v name s).2.sink = s.sink := by
  unfold resolve
  simp only [Run.unheard_bind]
  cases Reference.ofName name with
  | text key =>
    have keeps := (texts_keeps job s).1
    dsimp only
    rw [Run.bind_apply]
    generalize Run.texts job s = x at keeps
    obtain ⟨x, s'⟩ := x
    cases x <;> exact keeps
  | setting key => rfl
  | path keys =>
    dsimp only
    cases v.lookup keys with
    | none => rfl
    | some found => cases found <;> rfl

/-- A variable writes one text, or none. -/
theorem substitute_sink [Sink σ] (job : Job) (muted : Bool) (v : Value) (m : Marker)
    (s : State σ) :
    (substitute job muted v m s).2.sink = s.sink ∨
      ∃ value, (substitute job muted v m s).2.sink =
        Sink.write s.sink ((chain job m).foldl (modified job) value).display := by
  have keeps := resolve_keeps job v m.name s
  unfold substitute
  rw [Run.bind_apply]
  generalize resolve job v m.name s = x at keeps
  obtain ⟨x, s'⟩ := x
  cases x with
  | error halt => exact .inl keeps
  | ok found =>
    cases found with
    | none => exact .inl keeps
    | some value =>
      cases muted with
      | true => exact .inl keeps
      | false => exact .inr ⟨value, congrArg (Sink.write · _) keeps⟩

end Body

/-- Harmless pieces make a harmless text. -/
theorem Written.harmless {w w' : String} (h : Written (fun text => Harmless text.toList) w w')
    (hw : Harmless w.toList) : Harmless w'.toList := by
  obtain ⟨pieces, rfl, hp⟩ := h
  induction pieces generalizing w with
  | nil => exact hw
  | cons piece pieces ih =>
    refine ih ?_ fun text hm => hp text (List.mem_cons_of_mem _ hm)
    show Harmless (w ++ piece).toList
    rw [String.toList_append]
    exact hw.append (hp piece (List.mem_cons_self ..))

namespace Template

variable {σ : Type} [Sink σ]

/-- **The text of a markup document is harmless**, whatever the data, the texts, the variables of
the render and the modifiers, if the templates bring in no tag of their own: a render writes
harmless pieces only, also when it fails.  What a variable writes has ampersands only where
references start. -/
theorem write_escaped {t : Template} {o : RenderOptions} {start : Rendered σ}
    (hext : t.extension ∈ ["html", "htm", "xhtml", "xml"])
    (hreg : ∀ name ∈ ["^html", "^xml"],
      (t.registry.getD .builtins).resolve? name = some (.escaping markup))
    (hplain : ∀ name source, start.shelf.loader.Reaches t.name name →
      start.shelf.loader.openNamed name = .ok source →
        ∀ token ∈ (Reader.ofSource source).tokens, token.Plain) (v : Value) :
    let escaped := t.escapeByExtension
    Written (fun text => Harmless text.toList) start.sink (escaped.write o v start).2.sink ∧
      (∀ streams shelf, shelf.loader = start.shelf.loader →
        Harmless (escaped.write o v (⟨"", streams, shelf⟩ : Rendered String)).2.sink.toList) ∧
      ∀ (s : State σ) (muted : Bool) (v : Value) (m : Marker),
        let w := (Body.substitute (escaped.job o) muted v m s).2.sink
        w = s.sink ∨
          ∃ text, w = Sink.write s.sink text ∧ Harmless text.toList ∧ Referenced text.toList := by
  intro escaped
  obtain ⟨name, hname, hdefault⟩ := defaultModifier_escapeByExtension hext
  have hjob : escaped.job o = { t.job o with defaultModifier := some name } := by
    rw [← hdefault]
    exact t.escapeByExtension_job o
  -- what a variable writes has gone through the escaper
  have display (m : Marker) (value : Scalar) :
      ∃ text, ((Body.chain (escaped.job o) m).foldl (Body.modified (escaped.job o)) value).display =
        markup text := by
    rw [hjob]
    exact ⟨_, Body.display_chain rfl (hreg name hname) m value⟩
  have harmless (m : Marker) (value : Scalar) :
      Harmless ((Body.chain (escaped.job o) m).foldl (Body.modified (escaped.job o))
        value).display.toList := by
    obtain ⟨text, heq⟩ := display m value
    rw [heq]
    exact harmless_markup text
  have hname : escaped.name = t.name := congrArg Job.template (t.escapeByExtension_job o)
  rw [← hname] at hplain
  have leads : Leads (escaped.job o) start.shelf.loader (start.shelf.loader.Admits escaped.name)
      (fun text => Harmless text.toList) := leads_of_plain hplain harmless
  have opened (source : Source) (ho : start.shelf.loader.openNamed escaped.name = .ok source) :
      ∀ token ∈ (Reader.ofSource source).tokens, start.shelf.loader.Admits escaped.name token :=
    Loader.Reaches.first.admits hplain ho
  refine ⟨write_written leads opened v, fun streams shelf hloader => ?_, fun s muted v m => ?_⟩
  · have leads' : Leads (escaped.job o) shelf.loader (start.shelf.loader.Admits escaped.name)
        (fun text => Harmless text.toList) := by
      rw [hloader]
      exact leads
    have written : Written (fun text => Harmless text.toList) ""
        (escaped.write o v (⟨"", streams, shelf⟩ : Rendered String)).2.sink := by
      refine write_written leads' (fun source ho => opened source ?_) v
      rw [← hloader]
      exact ho
    exact written.harmless fun _ hc => nomatch hc
  · rcases Body.substitute_sink (escaped.job o) muted v m s with hsame | ⟨value, hwrite⟩
    · exact .inl hsame
    · obtain ⟨text, heq⟩ := display m value
      rw [heq] at hwrite
      exact .inr ⟨markup text, hwrite, harmless_markup text, referenced_markup text⟩

/-- A tag in the data, in a text and in a variable, behind modifiers, in an included template. -/
theorem write_escaped_tags :
    let t : Template := ⟨"page.html", "text/html", none, none⟩
    let o : RenderOptions := ⟨⟨.default, 0⟩, none, [("who", .text "\"me\"")]⟩
    let page := "a & {{@title}} {{>row.html}}"
    let row := "{{.:^json}} {{$who}} \x7b\x7b"
    let start : Rendered String := ⟨"", ⟨[], []⟩, .ofLoader (.memory
      [("page.html", page), ("row.html", row), ("page.properties", "title=<b>")])⟩
    let v : Value := .scalar (.text "<i>\"")
    (t.extension ∈ ["html", "htm", "xhtml", "xml"] ∧
      (∀ name ∈ ["^html", "^xml"],
        (t.registry.getD .builtins).resolve? name = some (.escaping markup)) ∧
      ∀ name source, start.shelf.loader.Reaches t.name name →
        start.shelf.loader.openNamed name = .ok source →
          ∀ token ∈ (Reader.ofSource source).tokens, token.Plain) ∧
    Harmless (t.escapeByExtension.write o v start).2.sink.toList ∧
    (t.escapeByExtension.write o v start).2.sink =
      "a & &lt;b&gt; &lt;i&gt;\\&quot; &quot;me&quot; " := by
  intro t o page row start v
  have hext : t.extension ∈ ["html", "htm", "xhtml", "xml"] := by decide +kernel
  have hreg : ∀ name ∈ ["^html", "^xml"],
      (t.registry.getD .builtins).resolve? name = some (.escaping markup) := by
    simp only [List.forall_mem_cons]
    exact ⟨rfl, rfl, fun _ hm => nomatch hm⟩
  -- only the two documents may be read as templates, and not the texts
  have named : ∀ name ∈ ["page.html", "row.html"], ∀ source,
      start.shelf.loader.openNamed name = .ok source →
        source ∈ [Source.ofText page, .ofText row] := by
    simp only [List.forall_mem_cons]
    refine ⟨fun source ho => ?_, fun source ho => ?_, fun _ hm => nomatch hm⟩
    · obtain rfl := Except.ok.inj ho
      exact List.mem_cons_self ..
    · obtain rfl := Except.ok.inj ho
      exact List.mem_cons_of_mem _ (List.mem_cons_self ..)
  have checked : ∀ source ∈ [Source.ofText page, .ofText row],
      ∀ token ∈ (Reader.ofSource source).tokens, token.Plain ∧ ∀ name ∈ token.included?,
        resolveRelative t.name name ∈ ["page.html", "row.html"] := by
    decide +kernel
  have hplain : ∀ name source, start.shelf.loader.Reaches t.name name →
      start.shelf.loader.openNamed name = .ok source →
        ∀ token ∈ (Reader.ofSource source).tokens, token.Plain := by
    intro name source h ho token ht
    have hmem : name ∈ ["page.html", "row.html"] :=
      h.mem (List.mem_cons_self ..) fun name hm source ho token ht =>
        (checked source (named name hm source ho) token ht).2
    exact (checked source (named name hmem source ho) token ht).1
  refine ⟨⟨hext, hreg, hplain⟩, ?_, ?_⟩
  · exact (write_escaped hext hreg hplain v).1.harmless fun _ hc => nomatch hc
  · decide +kernel

end Template

end Stencil
