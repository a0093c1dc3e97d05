import Stencil.Render.Template
import Stencil.Value.Diagnostic

/-!
# Diagnostic forms of templates and options

The forms in diagnostic output name every part that is set: `Locale`, `RenderOptions` and
`TemplateSerializer` with their fields between braces.
-/

namespace Stencil

open Number Text

/-- A form with named parts between braces. -/
def diagnosticFields (name : String) (parts : List (String × String)) : String :=
  name ++ " \x7b " ++ String.intercalate ", " (parts.map fun (k, v) => k ++ ": " ++ v) ++ " \x7d"

/-- The form of an optional part. -/
def diagnosticOption : Option String → String
  | some part => diagnosticForm "Some" part
  | none => "None"

/-- The diagnostic form of a locale. -/
def Locale.diagnostic (l : Locale) : String :=
  diagnosticFields "Locale"
    [("language", quoted l.language), ("region", diagnosticOption (l.region.map quoted))]

/-- A distance from UTC: sign, hours and minutes, and seconds if there are any. -/
def diagnosticOffset (offset : Int) : String :=
  let seconds := offset.natAbs
  let minutes := padded 2 (seconds / 3600) ++ ':' :: padded 2 (seconds / 60 % 60)
  let rest := if seconds % 60 = 0 then [] else ':' :: padded 2 (seconds % 60)
  String.ofList ((if offset < 0 then '-' else '+') :: minutes ++ rest)

/-- The diagnostic form of options.  Of given texts it only tells that there are some. -/
def RenderOptions.diagnostic (o : RenderOptions) : String :=
  let context := o.context.map fun (k, v) => quoted k ++ ": " ++ v.diagnostic
  diagnosticFields "RenderOptions"
    [("locale", o.settings.locale.diagnostic),
     ("time_zone", diagnosticOffset o.settings.offset),
     ("bundle", if o.bundle.isSome then "true" else "false"),
     ("context", "\x7b" ++ String.intercalate ", " context ++ "\x7d")]

/-- The diagnostic form of a registry: its names. -/
def Registry.diagnostic (r : Registry) : String :=
  diagnosticFields "ModifierRegistry" [("modifiers", quotedList r.names)]

/-- The diagnostic form of a template, without its loader. -/
def Template.diagnostic (t : Template) : String :=
  "TemplateSerializer \x7b template: " ++ quoted t.name
    ++ ", content_type: " ++ quoted t.contentType
    ++ ", modifiers: " ++ diagnosticOption (t.registry.map Registry.diagnostic)
    ++ ", default_modifier: " ++ diagnosticOption (t.defaultModifier.map quoted)
    ++ ", .. \x7d"

end Stencil
