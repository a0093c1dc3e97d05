import Stencil.Proofs.Render.Markup
import Stencil.Proofs.Render.Loader
import Stencil.Proofs.Value.Lookup
import Stencil.Render.Template

/-!
# What trees write

The meaning of a template is read off its tree, without readers, marks or scopes: each node writes
to a sink for a value, and a body writes what its nodes write, one after the other.

- `Writing`: writes to a sink, and may fail;
- `Markup.Node.write`, `Markup.Node.writeAll`: what nodes and bodies write, given what becomes of
  included templates;
- `Library`, `Library.write`: included templates are written from their trees, but not inside
  themselves;
- `Template.writeTree`: what a template writes, by its tree;
- `Value.isMultiPass`: values that can be read any number of times.
-/

namespace Stencil

open Markup

/-! ## Values -/

mutual

/-- Whether there is no single-pass sequence in a value. -/
def Value.isMultiPass : Value → Bool
  | .null => true
  | .scalar _ => true
  | .record fields => areMultiPass fields
  | .element _ => true
  | .own v => v.isMultiPass
  | .list items => allMultiPass items
  | .series items => seriesMultiPass items
  | .stream _ => false

/-- Whether there is none in the fields of a record. -/
def Value.areMultiPass : List (String × Value) → Bool
  | [] => true
  | (_, v) :: rest => v.isMultiPass && areMultiPass rest

/-- Whether there is none in the elements of a list. -/
def Value.allMultiPass : List Value → Bool
  | [] => true
  | v :: rest => v.isMultiPass && allMultiPass rest

/-- Whether there is none in the elements of a series. -/
def Value.seriesMultiPass : List (Except DataError Value) → Bool
  | [] => true
  | .ok v :: rest => v.isMultiPass && seriesMultiPass rest
  | .error _ :: rest => seriesMultiPass rest

end

namespace Value

theorem isMultiPass_of_mem {items : List Value} (h : allMultiPass items) :
    ∀ v ∈ items, v.isMultiPass := by
  induction items with
  | nil =>
    intro v hm
    cases hm
  | cons first rest ih =>
    intro v hm
    rw [allMultiPass, Bool.and_eq_true] at h
    rcases List.mem_cons.mp hm with rfl | hm
    · exact h.1
    · exact ih h.2 v hm

theorem allMultiPass_of_forall {items : List Value} (h : ∀ v ∈ items, v.isMultiPass) :
    allMultiPass items := by
  induction items with
  | nil => rfl
  | cons first rest ih =>
    rw [allMultiPass, Bool.and_eq_true]
    exact ⟨h _ (List.mem_cons_self ..), ih fun v hm => h v (List.mem_cons_of_mem _ hm)⟩

theorem isMultiPass_of_ok_mem {items : List (Except DataError Value)} (h : seriesMultiPass items) :
    ∀ v, .ok v ∈ items → v.isMultiPass := by
  induction items with
  | nil =>
    intro v hm
    cases hm
  | cons first rest ih =>
    intro v hm
    cases first with
    | ok first =>
      rw [seriesMultiPass, Bool.and_eq_true] at h
      rcases List.mem_cons.mp hm with heq | hm
      · rw [Except.ok.inj heq]
        exact h.1
      · exact ih h.2 v hm
    | error e =>
      rw [seriesMultiPass] at h
      exact ih h v ((List.mem_cons.mp hm).resolve_left nofun)

/-- The elements of a list or of a series can be read as often as their sequence. -/
theorem isMultiPass_of_items? {found : Value} {items : List (Except DataError Value)}
    (h : found.isMultiPass) (hitems : found.items? = some items) :
    ∀ v, .ok v ∈ items → v.isMultiPass := by
  cases found with
  | list values =>
    obtain rfl := Option.some.inj hitems
    rw [isMultiPass] at h
    intro v hm
    obtain ⟨w, hw, heq⟩ := List.mem_map.mp hm
    rw [← Except.ok.inj heq]
    exact isMultiPass_of_mem h w hw
  | series elements =>
    obtain rfl := Option.some.inj hitems
    rw [isMultiPass] at h
    exact isMultiPass_of_ok_mem h
  | _ => cases hitems

theorem isMultiPass_of_get? {key : String} {fields : List (String × Value)} {v : Value}
    (h : areMultiPass fields) (hget : Fields.get? key fields = some v) : v.isMultiPass := by
  induction fields with
  | nil => cases hget
  | cons e rest ih =>
    obtain ⟨k, first⟩ := e
    rw [areMultiPass, Bool.and_eq_true] at h
    rw [Fields.get?] at hget
    split at hget
    · rw [← Option.some.inj hget]
      exact h.1
    · exact ih h.2 hget

/-- An element answers with texts, elements and lists of elements. -/
theorem isMultiPass_of_elementGet? {e : Element} {key : String} {v : Value}
    (h : elementGet? e key = some v) : v.isMultiPass := by
  unfold elementGet? at h
  split at h
  · rw [← Option.some.inj h]
    rfl
  · split at h
    · obtain ⟨text, -, rfl⟩ := Option.map_eq_some_iff.mp h
      rfl
    · split at h
      · rw [← Option.some.inj h]
        refine allMultiPass_of_forall fun v hm => ?_
        obtain ⟨inner, -, rfl⟩ := List.mem_map.mp hm
        rfl
      · obtain ⟨inner, -, rfl⟩ := Option.map_eq_some_iff.mp h
        rfl

theorem isMultiPass_of_get {key : String} {v found : Value} (h : v.isMultiPass)
    (hget : v.get? key = some found) : found.isMultiPass := by
  cases v with
  | record fields =>
    rw [isMultiPass] at h
    exact isMultiPass_of_get? h hget
  | element e => exact isMultiPass_of_elementGet? hget
  | own v =>
    rw [get?] at hget
    split at hget
    · rw [← Option.some.inj hget]
      rw [isMultiPass] at h
      exact h
    · cases hget
  | null => cases hget
  | scalar s => cases hget
  | list items => cases hget
  | series items => cases hget
  | stream id => cases hget

/-- What is found in a value can be read as often as the value. -/
theorem isMultiPass_of_lookup (path : List String) :
    ∀ {v found : Value}, v.isMultiPass → v.lookup path = some found → found.isMultiPass := by
  induction path with
  | nil =>
    intro v found h hfound
    rw [← Option.some.inj hfound]
    exact h
  | cons key path ih =>
    intro v found h hfound
    rw [lookup_cons] at hfound
    obtain ⟨inner, hinner, hfound⟩ := Option.bind_eq_some_iff.mp hfound
    exact ih (isMultiPass_of_get h hinner) hfound

theorem isMultiPass_asDictionary {v : Value} (h : v.isMultiPass) : v.asDictionary.isMultiPass := by
  unfold asDictionary
  split
  · exact h
  · rw [isMultiPass]
    exact h

end Value

/-! ## Writing to a sink -/

/-- Computations that write to a sink, and may fail. -/
abbrev Writing (σ α : Type) := ExceptT RenderError (StateM σ) α

namespace Writing

variable {σ : Type} [Sink σ]

/-- Writes a text. -/
def put (text : String) : Writing σ Unit := fun w => (.ok (), Sink.write w text)

/-- Writes characters one by one. -/
def putAll (chars : List Char) : Writing σ Unit := fun w =>
  (.ok (), chars.foldl (fun w c => Sink.write w (String.singleton c)) w)

/-- Fails when the sink has failed. -/
def check : Writing σ Unit := fun w => (if Sink.failed w then .error .sinkFailed else .ok (), w)

/-- Writes a text if there is one, and goes on.  A failure in the place of what goes on comes before
the text. -/
def behind (separator : Option String) : Except DataError (Writing σ Unit) → Writing σ Unit
  | .error e => throw (.source e)
  | .ok next => do
    match separator with
    | some text => put text
    | none => pure ()
    next

/-- Goes on after each other up to the first failure, with the separator in between. -/
def joined (separator : Option String) : List (Except DataError (Writing σ Unit)) → Writing σ Unit
  | [] => pure ()
  | first :: rest => do
    behind none first
    rest.forM (behind separator)

end Writing

/-! ## Trees -/

/-- What the trees of a render are written with: its job, its texts, and what becomes of included
templates. -/
structure Scene (σ : Type) where
  job : Job
  texts : Option Bundle
  included : (name : String) → Value → Writing σ Unit

namespace Scene

variable {σ : Type} (scene : Scene σ)

/-- The scalar that a name stands for. -/
def resolve (v : Value) (name : String) : Except RenderError (Option Scalar) :=
  match Body.Reference.ofName name with
  | .text key => .ok (some (.text ((scene.texts.bind (·.get? key)).getD key)))
  | .setting key => .ok (some ((Fields.get? key scene.job.context).getD (.text key)))
  | .path keys =>
    match v.lookup keys with
    | none | some .null => .ok none
    | some (.scalar s) => .ok (some s)
    | some _ => .error (.invalidVariable name)

/-- A scalar behind all modifiers of a variable. -/
def modified (m : Marker) (value : Scalar) : Scalar :=
  (Body.chain scene.job m).foldl (Body.modified scene.job) value

end Scene

/-- Whether a value counts as true in a conditional section. -/
def Value.isTrue : Value → Bool
  | .null => false
  | .scalar (.bool b) => b
  | .list items => !items.isEmpty
  | .series items => !items.isEmpty
  | _ => true

namespace Markup.Node

open Writing

variable {σ : Type} [Sink σ] (scene : Scene σ)

mutual

/-- What a node writes for a dictionary. -/
def write : Node → Value → Writing σ Unit
  | .text chars, _ => putAll chars
  | .comment, _ => pure ()
  | .value m, v =>
    match scene.resolve v m.name with
    | .ok (some s) => put (scene.modified m s).display
    | .ok none => pure ()
    | .error e => throw e
  | .block (.repeating separator) name body, v =>
    match v.lookup (Body.pathOf name) with
    | none | some .null => pure ()
    | some found =>
      match found.items? with
      | some items =>
        joined separator (items.map (Except.map fun item => writeAll body item.asDictionary))
      | none => throw (.invalidSection name)
  | .block .conditional name body, v =>
    match v.lookup (Body.pathOf name) with
    | some found => if found.isTrue then writeAll body found.asDictionary else pure ()
    | none => pure ()
  | .block .inverted name body, v =>
    match v.lookup (Body.pathOf name) with
    | some found => if found.isTrue then pure () else writeAll body v
    | none => writeAll body v
  | .included name, v => scene.included name v

/-- What a body writes.  Before each node and at its end the sink is asked whether it has failed. -/
def writeAll : List Node → Value → Writing σ Unit
  | [], _ => check
  | node :: rest, v => do
    check
    write node v
    writeAll rest v

end

end Markup.Node

/-! ## Libraries -/

/-- The trees of templates, by their names. -/
abbrev Library := List (String × List Node)

namespace Library

variable {σ : Type} [Sink σ] (job : Job) (texts : Option Bundle)

/-- The templates that are not being read. -/
def unread (library : Library) (active : List String) : Library :=
  library.filter fun e => e.1 ∉ active

/-- A template that is found and is not being read is one that is left. -/
theorem length_unread_cons {library : Library} {active : List String} {name : String}
    {tree : List Node} (hfind : Fields.get? name library = some tree) (h : name ∉ active) :
    (library.unread (name :: active)).length < (library.unread active).length := by
  have hsub : library.unread (name :: active) =
      (library.unread active).filter fun e => e.1 ≠ name := by
    unfold unread
    rw [List.filter_filter]
    refine List.filter_congr fun e _ => ?_
    simp only [List.mem_cons, not_or, Bool.decide_and, ne_eq]
  rw [hsub]
  refine List.length_filter_lt_length_iff_exists.mpr ⟨(name, tree), ?_, ?_⟩
  · exact List.mem_filter.mpr ⟨Fields.mem_of_get? hfind, decide_eq_true h⟩
  · simp

/-- What a body of a template writes while the active templates are being read.  An included
template is written for the dictionary around it. -/
def write (library : Library) (active : List String) (body : List Node) (v : Value) :
    Writing σ Unit :=
  let included (name : String) (v : Value) : Writing σ Unit :=
    let resolved := resolveRelative job.template name
    if h : resolved ∈ active then throw (.recursiveInclude name)
    else
      match hfind : Fields.get? resolved library with
      | some tree =>
        -- one template fewer is left to be included
        have := length_unread_cons hfind h
        write library (resolved :: active) tree v
      | none => throw (.includeNotFound resolved)
  Node.writeAll ⟨job, texts, included⟩ body v
termination_by (library.unread active).length

/-- The scene of a template while the active templates are being read. -/
def scene (library : Library) (active : List String) : Scene σ where
  job := job
  texts := texts
  included name v :=
    let resolved := resolveRelative job.template name
    if resolved ∈ active then throw (.recursiveInclude name)
    else
      match Fields.get? resolved library with
      | some tree => library.write job texts (resolved :: active) tree v
      | none => throw (.includeNotFound resolved)

theorem write_eq_writeAll (library : Library) (active : List String) (body : List Node)
    (v : Value) :
    (library.write job texts active body v : Writing σ Unit) =
      Node.writeAll (library.scene job texts active) body v := by
  rw [write]
  refine congrArg (fun included => Node.writeAll ⟨job, texts, included⟩ body v) ?_
  funext name v
  dsimp only [scene]
  split
  · rfl
  · split <;> rename_i hfind <;> rw [hfind]

end Library

/-! ## Templates -/

/-- The tree of a resource. -/
def Loader.tree? (l : Loader) (name : String) : Option (List Node) :=
  match l.openNamed name with
  | .ok source => source.readText.toOption.bind fun text => Markup.parse? text.toList
  | .error _ => none

/-- The trees of a template and of all that markers include. -/
def Loader.library (base : String) (l : Loader) : Library :=
  (base :: l.targets base).filterMap fun name => (l.tree? name).map (name, ·)

/-- The texts of a render: those that are given, or those that the loader has. -/
def Shelf.texts (shelf : Shelf) (job : Job) : Except IoError (Option Bundle) :=
  match job.bundle with
  | some given => .ok (some given)
  | none => (shelf.bundle (bundleBase job.template) job.settings.locale).1

/-- What a template writes for a value, by its tree. -/
def Template.writeTree {σ : Type} [Sink σ] (t : Template) (o : RenderOptions)
    (texts : Option Bundle) (library : Library) (v : Value) : Writing σ Unit :=
  if v.isNull then pure ()
  else
    match Fields.get? t.name library with
    | some tree => library.write (t.job o) texts [t.name] tree v.asDictionary
    | none => throw (.templateNotFound t.name)

namespace Template

variable {σ : Type} [Sink σ] {t : Template} {o : RenderOptions} {texts : Option Bundle}
  {library : Library} {v : Value}

theorem writeTree_absent (hv : ¬ v.isNull) (h : Fields.get? t.name library = none) :
    t.writeTree o texts library v = (throw (.templateNotFound t.name) : Writing σ Unit) := by
  rw [writeTree, if_neg hv, h]

theorem writeTree_found {tree : List Node} (hv : ¬ v.isNull)
    (h : Fields.get? t.name library = some tree) :
    t.writeTree o texts library v =
      (library.write (t.job o) texts [t.name] tree v.asDictionary : Writing σ Unit) := by
  rw [writeTree, if_neg hv, h]

end Template

end Stencil
