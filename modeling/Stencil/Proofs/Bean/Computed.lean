import Stencil.Proofs.Bean.Naming

/-!
# Computed properties

Each directive of a type with fields declares a computed property, with a name and the path of a
function; where either is given twice, the last one counts.  A directive of another form is refused,
and so is one with a text that is no path; the first refused directive is the answer to the
declaration.  All this holds whatever the syntax of paths is.

- `Directive.Declares`, `Directive.Refused`: what a directive declares, or why it is refused;
- `Property.ofDirective_eq_ok_iff`, `Property.ofDirective_eq_error_iff`: one of the two is the case
  for every directive, and is what reading it gives;
- `Property.ofDeclaration_computes`: **the computed properties of a type with fields are those that
  its directives declare**, in their order and behind the fields;
- `Property.ofDeclaration_drops`: a type of unit shape, for which no directive is read at all.
-/

namespace Stencil

namespace Directive

variable [PathSyntax]

/-! ## Options of a computed property -/

/-- An option that a computed property may have. -/
inductive OfProperty : Directive → Prop where
  | name (name : String) : OfProperty (.assign "name" (.text name))
  | function {text path : String} (h : PathSyntax.parse text = .ok path) :
      OfProperty (.assign "with" (.text text))

/-- Why an option is refused: its value is no text or no path, or it is none that a computed property
may have. -/
inductive RefusedOption : Directive → DeclarationError → Prop where
  | notText {option : String} {value : Literal} (hoption : option = "name" ∨ option = "with")
      (hvalue : ∀ s, value ≠ .text s) : RefusedOption (.assign option value) (.notText option)
  | notPath {text wording : String} (h : PathSyntax.parse text = .error wording) :
      RefusedOption (.assign "with" (.text text)) (.notPath wording)
  | unknown {x : Directive}
      (h : ∀ option value, x = .assign option value → option ≠ "name" ∧ option ≠ "with") :
      RefusedOption x .unknownPropertyOption

/-- The name that an option gives. -/
def givenName? : Directive → Option String
  | .assign "name" (.text name) => some name
  | _ => none

/-- The path that an option gives. -/
def givenPath? : Directive → Option String
  | .assign "with" (.text text) => (PathSyntax.parse text).toOption
  | _ => none

theorem ofProperty_or_refused (x : Directive) : x.OfProperty ∨ ∃ e, x.RefusedOption e := by
  by_cases h : ∃ option value, x = .assign option value ∧ (option = "name" ∨ option = "with")
  · obtain ⟨option, value, rfl, hoption⟩ := h
    cases value with
    | text s =>
      rcases hoption with rfl | rfl
      · exact .inl (.name s)
      · cases h : PathSyntax.parse s with
        | ok path => exact .inl (.function h)
        | error wording => exact .inr ⟨_, .notPath h⟩
    | number n => exact .inr ⟨_, .notText hoption (by simp)⟩
    | truth b => exact .inr ⟨_, .notText hoption (by simp)⟩
  · refine .inr ⟨_, .unknown fun option value hx => ⟨?_, ?_⟩⟩
    · rintro rfl
      exact h ⟨_, value, hx, .inl rfl⟩
    · rintro rfl
      exact h ⟨_, value, hx, .inr rfl⟩

/-! ## Directives of a type -/

/-- What a directive of a type declares: a computed property of the last name and the last path
that its options give. -/
inductive Declares : Directive → Property → Prop where
  | property {options : List Directive} {name path : String}
      (hoptions : ∀ o ∈ options, o.OfProperty)
      (hname : options.reverse.findSome? givenName? = some name)
      (hpath : options.reverse.findSome? givenPath? = some path) :
      Declares (.group "property" options) ⟨name, .computed path⟩

/-- Why a directive of a type is refused: it is something else, its first bad option is, or there is
no name or no path. -/
inductive Refused : Directive → DeclarationError → Prop where
  | unknown {x : Directive} (h : ∀ options, x ≠ .group "property" options) :
      Refused x .unknownTypeDirective
  | option {before after : List Directive} {x : Directive} {e : DeclarationError}
      (hbefore : ∀ o ∈ before, o.OfProperty) (hx : x.RefusedOption e) :
      Refused (.group "property" (before ++ x :: after)) e
  | incomplete {options : List Directive} (hoptions : ∀ o ∈ options, o.OfProperty)
      (h : options.reverse.findSome? givenName? = none ∨
        options.reverse.findSome? givenPath? = none) :
      Refused (.group "property" options) .incompleteProperty

theorem declares_or_refused (x : Directive) : (∃ p, x.Declares p) ∨ ∃ e, x.Refused e := by
  by_cases hgroup : ∃ options, x = .group "property" options
  · obtain ⟨options, rfl⟩ := hgroup
    by_cases hoptions : ∀ o ∈ options, o.OfProperty
    · cases hname : options.reverse.findSome? givenName? with
      | none => exact .inr ⟨_, .incomplete hoptions (.inl hname)⟩
      | some name =>
        cases hpath : options.reverse.findSome? givenPath? with
        | none => exact .inr ⟨_, .incomplete hoptions (.inr hpath)⟩
        | some path => exact .inl ⟨_, .property hoptions hname hpath⟩
    · obtain ⟨before, o, after, rfl, hbefore, ho⟩ := exists_first hoptions
      obtain ⟨e, he⟩ := (ofProperty_or_refused o).resolve_left ho
      exact .inr ⟨e, .option hbefore he⟩
  · exact .inr ⟨_, .unknown fun options hx => hgroup ⟨options, hx⟩⟩

end Directive

namespace Property

open Directive

section

variable [PathSyntax]

/-! ## Reading a directive -/

theorem takeOption_ofProperty {x : Directive} (h : x.OfProperty)
    (found : Option String × Option String) :
    takeOption found x = .ok (x.givenName?.or found.1, x.givenPath?.or found.2) := by
  cases h with
  | name s => rfl
  | @function text path h =>
    change (PathSyntax.parse text).mapError DeclarationError.notPath >>= _ = _
    rw [givenPath?, h]
    rfl

theorem takeOption_refused {x : Directive} {e : DeclarationError} (h : x.RefusedOption e)
    (found : Option String × Option String) : takeOption found x = .error e := by
  cases h with
  | @notText option value hoption hvalue =>
    rcases hoption with rfl | rfl <;> cases value with
    | text s => exact absurd rfl (hvalue s)
    | number n => rfl
    | truth b => rfl
  | @notPath text wording h =>
    change (PathSyntax.parse text).mapError DeclarationError.notPath >>= _ = _
    rw [h]
    rfl
  | unknown h =>
    unfold takeOption
    split
    · exact absurd rfl (h _ _ rfl).1
    · exact absurd rfl (h _ _ rfl).2
    · rfl

/-- Options add up: the last name and the last path stay. -/
theorem foldlM_takeOption {options : List Directive} (h : ∀ x ∈ options, x.OfProperty)
    (found : Option String × Option String) :
    options.foldlM takeOption found =
      .ok ((options.reverse.findSome? givenName?).or found.1,
        (options.reverse.findSome? givenPath?).or found.2) := by
  induction options generalizing found with
  | nil => rfl
  | cons x rest ih =>
    obtain ⟨hx, hrest⟩ := List.forall_mem_cons.mp h
    rw [List.foldlM_cons, takeOption_ofProperty hx]
    refine (ih hrest _).trans ?_
    rw [List.reverse_cons, List.findSome?_append, List.findSome?_append, Option.or_assoc,
      Option.or_assoc, List.findSome?_singleton, List.findSome?_singleton]

/-- The first bad option is the answer to all of them. -/
theorem foldlM_refused {before after : List Directive} {x : Directive} {e : DeclarationError}
    (hbefore : ∀ o ∈ before, o.OfProperty) (hx : x.RefusedOption e)
    (found : Option String × Option String) :
    (before ++ x :: after).foldlM takeOption found = .error e := by
  rw [List.foldlM_append, foldlM_takeOption hbefore]
  change (x :: after).foldlM takeOption _ = _
  rw [List.foldlM_cons, takeOption_refused hx]
  rfl

theorem ofDirective_of_declares {x : Directive} {p : Property} (h : x.Declares p) :
    ofDirective x = .ok p := by
  cases h with
  | property hoptions hname hpath =>
    rw [ofDirective, foldlM_takeOption hoptions, hname, hpath]
    rfl

theorem ofDirective_of_refused {x : Directive} {e : DeclarationError} (h : x.Refused e) :
    ofDirective x = .error e := by
  cases h with
  | unknown h =>
    unfold ofDirective
    split
    · exact absurd rfl (h _)
    · rfl
  | option hbefore hx =>
    rw [ofDirective, foldlM_refused hbefore hx]
    rfl
  | @incomplete options hoptions h =>
    rw [ofDirective, foldlM_takeOption hoptions]
    rcases h with h | h
    · rw [h]
      rfl
    · rw [h]
      cases options.reverse.findSome? givenName? <;> rfl

/-- Reading a directive gives the property that it declares. -/
theorem ofDirective_eq_ok_iff {x : Directive} {p : Property} :
    ofDirective x = .ok p ↔ x.Declares p := by
  refine ⟨fun h => ?_, ofDirective_of_declares⟩
  rcases x.declares_or_refused with ⟨p', hp'⟩ | ⟨e, he⟩
  · rw [ofDirective_of_declares hp'] at h
    exact Except.ok.inj h ▸ hp'
  · rw [ofDirective_of_refused he] at h
    cases h

/-- Reading a directive fails for the reason why it is refused. -/
theorem ofDirective_eq_error_iff {x : Directive} {e : DeclarationError} :
    ofDirective x = .error e ↔ x.Refused e := by
  refine ⟨fun h => ?_, ofDirective_of_refused⟩
  rcases x.declares_or_refused with ⟨p, hp⟩ | ⟨e', he'⟩
  · rw [ofDirective_of_declares hp] at h
    cases h
  · rw [ofDirective_of_refused he'] at h
    exact Except.error.inj h ▸ he'

end

/-! ## Reading them all -/

section Lists

variable {α β ε : Type} {f : α → Except ε β}

theorem forall₂_of_mapM {xs : List α} {ys : List β} (h : xs.mapM f = .ok ys) :
    List.Forall₂ (fun x y => f x = .ok y) xs ys := by
  induction xs generalizing ys with
  | nil =>
    cases h
    exact .nil
  | cons x rest ih =>
    rw [List.mapM_cons] at h
    obtain ⟨y, hx, h⟩ := exists_of_bind_eq_ok h
    obtain ⟨ys', hrest, h⟩ := exists_of_bind_eq_ok h
    cases h
    exact .cons hx (ih hrest)

/-- An operation that refuses no element does not refuse the list. -/
theorem exists_mapM {xs : List α} (h : ∀ x ∈ xs, ∃ y, f x = .ok y) : ∃ ys, xs.mapM f = .ok ys := by
  induction xs with
  | nil => exact ⟨[], rfl⟩
  | cons x rest ih =>
    obtain ⟨⟨y, hy⟩, hrest⟩ := List.forall_mem_cons.mp h
    obtain ⟨ys, hys⟩ := ih hrest
    refine ⟨y :: ys, ?_⟩
    rw [List.mapM_cons, hy, hys]
    rfl

theorem exists_of_mem_mapM {xs : List α} {ys : List β} (h : xs.mapM f = .ok ys) :
    ∀ x ∈ xs, ∃ y, f x = .ok y := by
  have hall := forall₂_of_mapM h
  clear h
  induction hall with
  | nil => exact List.forall_mem_nil _
  | cons hx _ ih => exact List.forall_mem_cons.mpr ⟨⟨_, hx⟩, ih⟩

/-- The first element that an operation refuses is the answer to all of them. -/
theorem mapM_of_error {before after : List α} {x : α} {e : ε}
    (hbefore : ∀ y ∈ before, ∃ z, f y = .ok z) (hx : f x = .error e) :
    (before ++ x :: after).mapM f = .error e := by
  induction before with
  | nil =>
    rw [List.nil_append, List.mapM_cons, hx]
    rfl
  | cons y rest ih =>
    obtain ⟨⟨z, hz⟩, hrest⟩ := List.forall_mem_cons.mp hbefore
    rw [List.cons_append, List.mapM_cons, hz, ih hrest]
    rfl

end Lists

variable {d : Declaration} {fields : List FieldDeclaration}

theorem heeded_of_ofField? {f : FieldDeclaration} {shown : Option Property}
    (h : ofField? f = .ok shown) : ∀ x ∈ f.heeded, x.OfField := by
  obtain ⟨o, hoptions, -⟩ := exists_of_bind_eq_ok h
  unfold FieldOptions.ofAttributes at hoptions
  unfold FieldDeclaration.heeded
  cases hlists : Attribute.directives f.attributes with
  | nil => exact List.forall_mem_nil _
  | cons directives later =>
    rw [hlists] at hoptions
    exact FieldOptions.ofField_of_foldlM hoptions

section

variable [PathSyntax]

/-- A type with fields that is accepted has well-formed attributes. -/
theorem exists_computed (hshape : d.shape = .fields fields) {properties : List Property}
    (h : ofDeclaration d = .ok properties) :
    (∀ f ∈ fields, ∀ x ∈ f.heeded, x.OfField) ∧
      ∃ computed, d.directives.mapM ofDirective = .ok computed := by
  unfold ofDeclaration at h
  rw [hshape] at h
  obtain ⟨computed, hcomputed, h⟩ := exists_of_bind_eq_ok h
  obtain ⟨shown, hshown, -⟩ := exists_of_bind_eq_ok h
  refine ⟨fun f hf => ?_, computed, hcomputed⟩
  obtain ⟨_, hfield⟩ := exists_of_mem_mapM hshown f hf
  exact heeded_of_ofField? hfield

/-- The properties of the fields that are not skipped, in order. -/
def ofFields (fields : List FieldDeclaration) : List Property :=
  (fields.filter (!·.isSkipped)).map FieldDeclaration.property

/-- A bad directive is the answer to the declaration. -/
theorem ofDeclaration_of_refused (hshape : d.shape = .fields fields)
    {before after : List Directive} {x : Directive} {e : DeclarationError}
    (hsplit : d.directives = before ++ x :: after) (hbefore : ∀ y ∈ before, ∃ p, y.Declares p)
    (hx : x.Refused e) : ofDeclaration d = .error e := by
  have hread : d.directives.mapM ofDirective = .error e := by
    rw [hsplit]
    refine mapM_of_error (fun y hy => ?_) (ofDirective_of_refused hx)
    exact (hbefore y hy).imp fun _ => ofDirective_of_declares
  unfold ofDeclaration
  rw [hshape]
  exact congrArg (· >>= _) hread

/-- **The computed properties of a type with fields are those that its directives declare**: an
accepted type has one for each directive, in their order and behind the fields, and the last one of
a name is what the name gives; a type with well-formed attributes is accepted; a malformed directive
is refused, and the first one gives the error. -/
theorem ofDeclaration_computes (hshape : d.shape = .fields fields) :
    (∀ properties, ofDeclaration d = .ok properties →
      ∃ computed, List.Forall₂ Declares d.directives computed ∧
        properties = ofFields fields ++ computed ∧
        ∀ before name function after, computed = before ++ ⟨name, .computed function⟩ :: after →
          (∀ p ∈ after, p.key ≠ name) → ∀ field compute : String → Value,
            ((Accessors.ofProperties properties).view field compute).get? name =
              some (compute function)) ∧
    ((∀ f ∈ fields, ∀ x ∈ f.heeded, x.OfField) → (∀ x ∈ d.directives, ∃ p, x.Declares p) →
      ∃ properties, ofDeclaration d = .ok properties) ∧
    ((∃ x ∈ d.directives, ∀ p, ¬ x.Declares p) →
      ∃ before x after e, d.directives = before ++ x :: after ∧
        (∀ y ∈ before, ∃ p, y.Declares p) ∧ x.Refused e ∧ ofDeclaration d = .error e) := by
  refine ⟨fun properties h => ?_, fun hfields hdirectives => ?_, fun hbad => ?_⟩
  · obtain ⟨hfields, computed, hread⟩ := exists_computed hshape h
    have hcomputed := forall₂_of_mapM hread
    have heq : properties = ofFields fields ++ computed :=
      Except.ok.inj (h.symm.trans (ofDeclaration_eq hshape hfields hcomputed))
    refine ⟨computed, hcomputed.imp fun _ _ => ofDirective_eq_ok_iff.mp, heq, ?_⟩
    intro before name function after hsplit hlast field compute
    rw [heq, hsplit, ← List.append_assoc]
    exact Accessors.get?_view_of_last hlast field compute
  · have hread : ∀ x ∈ d.directives, ∃ p, ofDirective x = .ok p :=
      fun x hx => (hdirectives x hx).imp fun _ => ofDirective_of_declares
    obtain ⟨computed, hcomputed⟩ := exists_mapM hread
    exact ⟨_, ofDeclaration_eq hshape hfields (forall₂_of_mapM hcomputed)⟩
  · obtain ⟨x, hx, hnone⟩ := hbad
    have hall : ¬ ∀ x ∈ d.directives, ∃ p, x.Declares p := by
      intro hall
      obtain ⟨p, hp⟩ := hall x hx
      exact hnone p hp
    obtain ⟨before, y, after, hsplit, hbefore, hy⟩ := exists_first hall
    obtain ⟨e, he⟩ := (declares_or_refused y).resolve_left hy
    exact ⟨before, y, after, e, hsplit, hbefore, he,
      ofDeclaration_of_refused hshape hsplit hbefore he⟩

end

theorem ofDeclaration_computes_account :
    ofDeclaration
        ⟨.fields [⟨"user_name", []⟩],
          [.properties [.group "property"
              [.assign "name" (.text "label"), .assign "with" (.text "Account :: label")]],
            .foreign,
            .properties [.group "property"
              [.assign "with" (.text "shown"), .assign "name" (.text "userName")]]]⟩ =
        .ok [⟨"userName", .field "user_name"⟩, ⟨"label", .computed "Account::label"⟩,
          ⟨"userName", .computed "shown"⟩] ∧
      ∀ field compute : String → Value,
        ((Accessors.ofProperties [⟨"userName", .field "user_name"⟩,
          ⟨"label", .computed "Account::label"⟩, ⟨"userName", .computed "shown"⟩]).view
            field compute).get? "userName" = some (compute "shown") := by
  refine ⟨rfl, ?_⟩
  obtain ⟨haccepted, -, -⟩ := @ofDeclaration_computes
    ⟨.fields [⟨"user_name", []⟩],
      [.properties [.group "property"
          [.assign "name" (.text "label"), .assign "with" (.text "Account :: label")]],
        .foreign,
        .properties [.group "property"
          [.assign "with" (.text "shown"), .assign "name" (.text "userName")]]]⟩ _ _ rfl
  obtain ⟨computed, -, hproperties, hlast⟩ := haccepted _ rfl
  obtain rfl := (List.cons.inj hproperties).2
  exact hlast [⟨"label", .computed "Account::label"⟩] "userName" "shown" [] rfl (by simp)

/-- A type without fields: what a good directive declares is not there, and a bad one is not
refused. -/
theorem ofDeclaration_drops :
    Declares (.group "property" [.assign "name" (.text "x"), .assign "with" (.text "f")])
        ⟨"x", .computed "f"⟩ ∧
      ofDeclaration ⟨.unit, [.properties
        [.group "property" [.assign "name" (.text "x"), .assign "with" (.text "f")]]]⟩ = .ok [] ∧
      Refused (.flag "property") .unknownTypeDirective ∧
      ofDeclaration ⟨.unit, [.properties [.flag "property"]]⟩ = .ok [] :=
  ⟨ofDirective_eq_ok_iff.mp rfl, rfl, ofDirective_eq_error_iff.mp rfl, rfl⟩

end Property

end Stencil
