import Stencil.Output.Buffered
import Stencil.Render.Body

/-!
# Templates

A template is known by its name, and is opened for each render.

* `Template.escapeByExtension`: the escaper that belongs to the extension of the name;
* `Template.writeBy`: opens a template and has its body written for a value;
* `Template.write`: writes a template for a value into a sink;
* `Template.writeTo`: writes it as bytes to a writer;
* `Template.writeString`: the text it writes.

Null writes nothing, and the template is not even opened.  A value that is no dictionary stands in
its own dictionary.
-/

namespace Stencil

/-- A template with its modifiers, or those that are always there, and the modifier behind all
others (`TemplateSerializer`). -/
structure Template where
  name : String
  contentType : String
  registry : Option Registry
  defaultModifier : Option String

/-- What a render is asked for besides the template and the value. -/
structure RenderOptions where
  settings : Settings
  bundle : Option Bundle
  context : List (String × Scalar)

/-- Where a render has left all that it has used. -/
structure Rendered (σ : Type) where
  sink : σ
  streams : Streams
  shelf : Shelf

namespace Template

/-- The escaper of a file extension in small letters. -/
def escaperOf : String → Option String
  | "html" | "htm" | "xhtml" => some "^html"
  | "xml" => some "^xml"
  | "json" => some "^json"
  | "csv" => some "^csv"
  | _ => none

/-- The template with the escaper of its extension behind all other modifiers
(`escape_by_extension`); an extension without one changes nothing. -/
def escapeByExtension (t : Template) : Template :=
  let extension := (Text.splitLast '.' t.name.toList).map (·.2)
  match escaperOf (String.ofList ((extension.getD []).map Char.toLower)) with
  | some escaper => { t with defaultModifier := some escaper }
  | none => t

/-- The job of a render. -/
def job (t : Template) (o : RenderOptions) : Job :=
  { template := t.name
    registry := t.registry.getD .builtins
    defaultModifier := t.defaultModifier
    settings := o.settings
    bundle := o.bundle
    context := o.context }

variable {σ : Type} [Sink σ] [Observer σ]

/-- What writes the template of a reader for a dictionary, given a bound for the markers on the way
to where it is. -/
abbrev Writer (σ : Type) := Job → Nat → (muted : Bool) → Value → Run σ Exit

/-- Opens a template and writes it for a dictionary: `write_value` for a value that is not null,
with `write_root` in it. -/
def writeDictionary (writer : Writer σ) (job : Job) (v : Value) : Run σ Unit := do
  let reader ← Run.openReader .templateNotFound job.template
  modify fun s => { s with reader := reader }
  let fuel := Body.fuelFor (← get).shelf.loader
  discard (Run.inScope (.caching []) (writer job fuel false v))
  Run.checkSink false

/-- The state before a template is opened. -/
def initial (t : Template) (start : Rendered σ) : State σ :=
  { sink := start.sink
    reader := Reader.ofSource []
    streams := start.streams
    shelf := start.shelf
    bundle := none
    scopes := []
    sections := []
    active := [t.name] }

/-- Opens a template and has it written for a value into a sink. -/
def writeBy (writer : Writer σ) (t : Template) (o : RenderOptions) (v : Value)
    (start : Rendered σ) : Except Halt Unit × Rendered σ :=
  if v.isNull then (.ok (), start)
  else
    let (result, s) := (writeDictionary writer (t.job o) v.asDictionary).run.run (t.initial start)
    (result, ⟨s.sink, s.streams, s.shelf⟩)

/-- Writes a template for a value into a sink (`write_value`). -/
def write (t : Template) (o : RenderOptions) (v : Value) (start : Rendered σ) :
    Except Halt Unit × Rendered σ :=
  t.writeBy Body.write o v start

/-- Writes a template for a value as bytes to a writer.  A failure of the writer during the render
comes before all others; what is still buffered is written as far as it can be. -/
def writeTo {ω : Type} [ByteWriter ω] (t : Template) (o : RenderOptions) (v : Value)
    (start : Rendered ω) : Except Halt Unit × Rendered ω :=
  let buffered : Rendered (Buffered ω) := ⟨.ofWriter start.sink, start.streams, start.shelf⟩
  let (result, done) := t.write o v buffered
  let (kept, sink) := done.sink.takeError
  let (result, sink) : Except Halt Unit × Buffered ω :=
    match kept, result with
    | some e, _ => (.error (.failed (.io e)), sink)
    | none, .error halt => (.error halt, sink)
    | none, .ok () =>
      match sink.flush with
      | (.ok (), sink) => (.ok (), sink)
      | (.error e, sink) => (.error (.failed (.io e)), sink)
  (result, ⟨sink.drop, done.streams, done.shelf⟩)

/-- The text of a template for a value (`render_to_string`). -/
def writeString (t : Template) (o : RenderOptions) (v : Value) (streams : Streams) (shelf : Shelf) :
    Except Halt String × Streams × Shelf :=
  let (result, done) := t.write o v (⟨"", streams, shelf⟩ : Rendered String)
  (result.map fun _ => done.sink, done.streams, done.shelf)

end Template

end Stencil
