import Stencil.Bean.Property
import Stencil.Proofs.Data.Fields
import Mathlib.Data.List.Forall2
import Mathlib.Data.List.Nodup

/-!
# Skipped fields

The directives of a field that count are those of its first attribute for properties.  A field that
they skip is no property: no key of a bean reads it, and a bean is the same dictionary whatever the
field holds.  Any other field is a property, even one that a later attribute asks to skip.

* `FieldDeclaration.heeded`: the directives that count;
* `Property.ofField?_eq`: the property of a field, read off these directives;
* `Property.ofDeclaration_eq`: the properties of a declared type: those of its fields in order, then
  the computed ones;
* `Property.ofDeclaration_skips`: **a field is hidden when its first attribute skips it, and shown
  when it does not**.
-/

namespace Stencil

/-! ## The directives of a field -/

/-- A directive that a field may have. -/
inductive Directive.OfField : Directive → Prop where
  | skip : OfField (.flag "skip")
  | rename (name : String) : OfField (.assign "rename" (.text name))

/-- Whether a directive asks to skip the field. -/
def Directive.isSkip : Directive → Bool
  | .flag "skip" => true
  | _ => false

/-- The new name that a directive asks for. -/
def Directive.newName? : Directive → Option String
  | .assign "rename" (.text name) => some name
  | _ => none

/-- Where two operations in a row succeed, each of them does. -/
theorem exists_of_bind_eq_ok {α β ε : Type} {first : Except ε α} {next : α → Except ε β} {b : β}
    (h : first >>= next = .ok b) : ∃ a, first = .ok a ∧ next a = .ok b := by
  cases first with
  | error e => cases h
  | ok a => exact ⟨a, rfl, h⟩

namespace FieldOptions

theorem follow_ofField {x : Directive} (h : x.OfField) (o : FieldOptions) :
    o.follow x = .ok ⟨o.skip || x.isSkip, x.newName?.or o.rename⟩ := by
  cases h with
  | skip => simp [follow, Directive.isSkip, Directive.newName?]
  | rename name =>
    simp [follow, Literal.text?, Directive.isSkip, Directive.newName?, bind, Except.bind, pure,
      Except.pure]

/-- Directives add up: any of them may skip, and the last new name stays. -/
theorem foldlM_follow {directives : List Directive} (h : ∀ x ∈ directives, x.OfField)
    (o : FieldOptions) :
    directives.foldlM follow o =
      .ok ⟨o.skip || directives.any Directive.isSkip,
        (directives.reverse.findSome? Directive.newName?).or o.rename⟩ := by
  induction directives generalizing o with
  | nil => simp [pure, Except.pure]
  | cons x rest ih =>
    obtain ⟨hx, hrest⟩ := List.forall_mem_cons.mp h
    rw [List.foldlM_cons, follow_ofField hx]
    refine (ih hrest _).trans ?_
    rw [List.any_cons, Bool.or_assoc, List.reverse_cons, List.findSome?_append, Option.or_assoc,
      List.findSome?_singleton]

theorem ofField_of_follow {x : Directive} {o o' : FieldOptions} (h : o.follow x = .ok o') :
    x.OfField := by
  unfold follow at h
  split at h
  · exact .skip
  · next value =>
    cases value with
    | text name => exact .rename name
    | number n => cases h
    | truth b => cases h
  · cases h

/-- Where directives are followed, all of them are ones that a field may have. -/
theorem ofField_of_foldlM {directives : List Directive} {o o' : FieldOptions}
    (h : directives.foldlM follow o = .ok o') : ∀ x ∈ directives, x.OfField := by
  induction directives generalizing o with
  | nil => exact List.forall_mem_nil _
  | cons x rest ih =>
    rw [List.foldlM_cons] at h
    obtain ⟨next, hx, hrest⟩ := exists_of_bind_eq_ok h
    exact List.forall_mem_cons.mpr ⟨ofField_of_follow hx, ih hrest⟩

end FieldOptions

namespace FieldDeclaration

/-- The directives that count for a field: those of its first attribute for properties. -/
def heeded (f : FieldDeclaration) : List Directive :=
  (Attribute.directives f.attributes).head?.getD []

/-- Whether a field is skipped. -/
def isSkipped (f : FieldDeclaration) : Bool := f.heeded.any Directive.isSkip

/-- The key of a field that is shown: its last new name, or its own name in camel case. -/
def key (f : FieldDeclaration) : String :=
  (f.heeded.reverse.findSome? Directive.newName?).getD (camelCase (unmarked f.name))

theorem mem_heeded {f : FieldDeclaration} {x : Directive} (h : x ∈ f.heeded) :
    ∃ directives ∈ Attribute.directives f.attributes, x ∈ directives := by
  unfold heeded at h
  cases hfirst : (Attribute.directives f.attributes).head? with
  | none =>
    rw [hfirst] at h
    cases h
  | some directives =>
    rw [hfirst] at h
    exact ⟨directives, List.mem_of_head? hfirst, h⟩

/-- The property that shows a field. -/
def property (f : FieldDeclaration) : Property := ⟨f.key, .field f.name⟩

end FieldDeclaration

namespace Property

/-- The property of a field, read off the directives that count. -/
theorem ofField?_eq {f : FieldDeclaration} (h : ∀ x ∈ f.heeded, x.OfField) :
    ofField? f = .ok (if f.isSkipped then none else some f.property) := by
  have hoptions : FieldOptions.ofAttributes f.attributes =
      .ok ⟨f.isSkipped, f.heeded.reverse.findSome? Directive.newName?⟩ := by
    unfold FieldDeclaration.isSkipped
    unfold FieldDeclaration.heeded at h ⊢
    unfold FieldOptions.ofAttributes
    cases hlists : Attribute.directives f.attributes with
    | nil => rfl
    | cons directives later =>
      rw [hlists] at h
      refine (FieldOptions.foldlM_follow h _).trans ?_
      rw [Bool.false_or, Option.or_none]
  unfold ofField?
  rw [hoptions]
  rfl

/-! ## The properties of a type -/

/-- An operation that gives `ys` for the elements `xs`, one by one, gives `ys` for the list. -/
theorem mapM_of_forall₂ {α β ε : Type} {f : α → Except ε β} {xs : List α} {ys : List β}
    (h : List.Forall₂ (fun x y => f x = .ok y) xs ys) : xs.mapM f = .ok ys := by
  induction h with
  | nil => rfl
  | cons hx _ ih =>
    rw [List.mapM_cons, hx, ih]
    rfl

/-- The properties of a declared type: those of the fields that are not skipped, in order, then the
computed ones. -/
theorem ofDeclaration_eq [PathSyntax] {d : Declaration} {fields : List FieldDeclaration}
    {computed : List Property} (hshape : d.shape = .fields fields)
    (hfields : ∀ f ∈ fields, ∀ x ∈ f.heeded, x.OfField)
    (hcomputed : List.Forall₂ (fun x p => ofDirective x = .ok p)
      (Attribute.directives d.attributes).flatten computed) :
    ofDeclaration d =
      .ok ((fields.filter (!·.isSkipped)).map FieldDeclaration.property ++ computed) := by
  have hshown : fields.mapM ofField? =
      .ok (fields.map fun f => if f.isSkipped then none else some f.property) := by
    refine mapM_of_forall₂ (List.forall₂_map_right_iff.mpr (List.forall₂_same.mpr ?_))
    exact fun f hf => ofField?_eq (hfields f hf)
  have hkept : (fields.map fun f => if f.isSkipped then none else some f.property).filterMap id =
      (fields.filter (!·.isSkipped)).map FieldDeclaration.property := by
    rw [List.filterMap_map, ← List.filterMap_eq_map, List.filterMap_filter]
    congr 1
    funext f
    rw [Function.comp_apply]
    cases f.isSkipped <;> rfl
  unfold ofDeclaration
  rw [hshape, ← hkept]
  dsimp only
  rw [mapM_of_forall₂ hcomputed, hshown]
  rfl

/-- The property of a directive shows what a function gives. -/
theorem origin_of_ofDirective [PathSyntax] {x : Directive} {p : Property} (h : ofDirective x = .ok p) :
    ∃ function, p.origin = .computed function := by
  unfold ofDirective at h
  split at h
  · next options =>
    cases hoptions : options.foldlM takeOption (none, none) with
    | error e =>
      rw [hoptions] at h
      cases h
    | ok found =>
      rw [hoptions] at h
      obtain ⟨_ | name, _ | function⟩ := found
      · cases h
      · cases h
      · cases h
      · cases h
        exact ⟨function, rfl⟩
  · cases h

theorem origin_of_computed [PathSyntax] {directives : List Directive} {computed : List Property}
    {p : Property}
    (h : List.Forall₂ (fun x p => ofDirective x = .ok p) directives computed)
    (hp : p ∈ computed) : ∃ function, p.origin = .computed function := by
  induction h with
  | nil => cases hp
  | cons hx _ ih =>
    rcases List.mem_cons.mp hp with rfl | hp
    · exact origin_of_ofDirective hx
    · exact ih hp

end Property

/-! ## What a bean shows -/

namespace Accessors

/-- What an origin gives. -/
def value (field compute : String → Value) : Origin → Value
  | .field name => field name
  | .computed function => compute function

theorem view_eq (accessors : Accessors) (field compute : String → Value) :
    accessors.view field compute =
      .record (accessors.map fun e => (e.1, value field compute e.2)) := by
  unfold view
  congr 1

/-- The last property of a key is the one that the key gives. -/
theorem get?_view_of_last {before after : List Property} {key : String} {origin : Origin}
    (h : ∀ p ∈ after, p.key ≠ key) (field compute : String → Value) :
    ((ofProperties (before ++ ⟨key, origin⟩ :: after)).view field compute).get? key =
      some (value field compute origin) := by
  have hafter : ∀ e ∈ after.map (fun p => (p.key, p.origin)), e.1 ≠ key := by
    intro e he
    obtain ⟨p, hp, rfl⟩ := List.mem_map.mp he
    exact h p hp
  rw [view_eq, Value.get?, Fields.get?_map, ofProperties, List.map_append, List.map_cons,
    Fields.get?_ofList_of_last _ hafter]
  rfl

/-- What it means that properties hide a field. -/
structure Hides (accessors : Accessors) (name : String) : Prop where
  /-- No key reads the field. -/
  unread : ∀ key, (key, .field name) ∉ accessors
  /-- A bean is the same dictionary whatever the field holds. -/
  unseen : ∀ field field' compute : String → Value,
    (∀ other, other ≠ name → field other = field' other) →
      accessors.view field compute = accessors.view field' compute

theorem hides_of_unread {accessors : Accessors} {name : String}
    (h : ∀ key, (key, .field name) ∉ accessors) : accessors.Hides name := by
  refine ⟨h, fun field field' compute hsame => ?_⟩
  rw [view_eq, view_eq]
  congr 1
  refine List.map_congr_left fun (key, origin) hmem => ?_
  cases origin with
  | field other =>
    have hother : other ≠ name := by
      rintro rfl
      exact h key hmem
    rw [value, value, hsame other hother]
  | computed function => rfl

end Accessors

namespace Property

/-- What it means that properties show a field under a key: the field has a property of this key,
and the key gives what the field holds unless a later property takes its place. -/
def Show (properties : List Property) (key name : String) : Prop :=
  ∃ before after, properties = before ++ ⟨key, .field name⟩ :: after ∧
    ((∀ p ∈ after, p.key ≠ key) → ∀ field compute : String → Value,
      ((Accessors.ofProperties properties).view field compute).get? key = some (field name))

theorem show_of_mem {properties : List Property} {key name : String}
    (h : ⟨key, .field name⟩ ∈ properties) : Show properties key name := by
  obtain ⟨before, after, rfl⟩ := List.append_of_mem h
  exact ⟨before, after, rfl, fun hlast => Accessors.get?_view_of_last hlast⟩

/-- **A field is hidden when its first attribute skips it, and shown when it does not**: the
properties of a type with fields of different names, whose attributes are well-formed. -/
theorem ofDeclaration_skips [PathSyntax] {d : Declaration} {fields : List FieldDeclaration}
    {computed : List Property} (hshape : d.shape = .fields fields)
    (hnames : (fields.map (·.name)).Nodup)
    (hfields : ∀ f ∈ fields, ∀ directives ∈ Attribute.directives f.attributes,
      ∀ x ∈ directives, x.OfField)
    (hcomputed : List.Forall₂ (fun x p => ofDirective x = .ok p)
      (Attribute.directives d.attributes).flatten computed) :
    ∃ properties, ofDeclaration d = .ok properties ∧ ∀ f ∈ fields,
      if f.isSkipped then (Accessors.ofProperties properties).Hides f.name
      else Show properties f.key f.name := by
  have hheeded : ∀ f ∈ fields, ∀ x ∈ f.heeded, x.OfField := by
    intro f hf x hx
    obtain ⟨directives, hfirst, hx⟩ := FieldDeclaration.mem_heeded hx
    exact hfields f hf directives hfirst x hx
  refine ⟨_, ofDeclaration_eq hshape hheeded hcomputed, fun f hf => ?_⟩
  split
  · next hskipped =>
    refine Accessors.hides_of_unread fun key hmem => ?_
    obtain ⟨p, hp, heq⟩ := List.mem_map.mp (Fields.mem_of_ofList hmem)
    have horigin : p.origin = .field f.name := congrArg Prod.snd heq
    rcases List.mem_append.mp hp with hp | hp
    · -- Another field with a property has another name.
      obtain ⟨f', hf', rfl⟩ := List.mem_map.mp hp
      obtain ⟨hf', hshown⟩ := List.mem_filter.mp hf'
      have hname : f'.name = f.name := Origin.field.inj horigin
      rw [List.inj_on_of_nodup_map hnames hf' hf hname, hskipped] at hshown
      cases hshown
    · obtain ⟨function, hfunction⟩ := origin_of_computed hcomputed hp
      rw [hfunction] at horigin
      cases horigin
  · next hshown =>
    refine show_of_mem (List.mem_append_left _ (List.mem_map.mpr ⟨f, ?_, rfl⟩))
    exact List.mem_filter.mpr ⟨hf, by simpa using hshown⟩

theorem ofDeclaration_skips_account :
    ∃ properties, ofDeclaration
        ⟨.fields [⟨"user_name", [.foreign]⟩,
            ⟨"secret", [.foreign, .properties [.assign "rename" (.text "key"), .flag "skip"]]⟩,
            ⟨"owner", [.properties [.assign "rename" (.text "holder")], .foreign]⟩],
          [.properties [.group "property"
            [.assign "name" (.text "label"), .assign "with" (.text "Account :: label")]]]⟩ =
        .ok properties ∧
      Show properties "userName" "user_name" ∧
      (Accessors.ofProperties properties).Hides "secret" ∧
      Show properties "holder" "owner" := by
  obtain ⟨properties, heq, h⟩ := @ofDeclaration_skips _
    ⟨.fields [⟨"user_name", [.foreign]⟩,
        ⟨"secret", [.foreign, .properties [.assign "rename" (.text "key"), .flag "skip"]]⟩,
        ⟨"owner", [.properties [.assign "rename" (.text "holder")], .foreign]⟩],
      [.properties [.group "property"
        [.assign "name" (.text "label"), .assign "with" (.text "Account :: label")]]]⟩
    _ [⟨"label", .computed "Account::label"⟩] rfl (by decide)
    (by simp [Attribute.directives, Directive.OfField.skip, Directive.OfField.rename])
    (.cons rfl .nil)
  simp only [List.forall_mem_cons] at h
  exact ⟨properties, heq, h.1, h.2.1, h.2.2.1⟩

/-- What a later attribute asks for is not followed: the field is shown. -/
theorem ofDeclaration_laterSkip :
    ofDeclaration ⟨.fields [⟨"secret",
        [.properties [.assign "rename" (.text "id")], .properties [.flag "skip"]]⟩], []⟩ =
      .ok [⟨"id", .field "secret"⟩] ∧
    ∀ field compute : String → Value,
      ((Accessors.ofProperties [⟨"id", .field "secret"⟩]).view field compute).get? "id" =
        some (field "secret") :=
  ⟨rfl, fun _ _ => rfl⟩

end Property

end Stencil
