import Stencil.Proofs.Bean.Skipping

/-!
# Keys of fields

A field that is given no other name stands under its own name in camel case.  Two fields may come to
the same key, since camel case does not tell how many underscores were between two words, at the
start or at the end, nor whether a capital or a digit started a word.  The later field then takes
the place of the earlier one, which no key reads.  Names in plain snake case do not collide: the
words of such a name can be read off its key.

- `isSnakeCase`, `snakeCase`: names in snake case, and the way back from camel case;
- `camelCase_injective`: **different names in snake case have different keys**;
- `Property.ofDeclaration_reads`: **a field is read under its key exactly when no later field has the
  same one**, and all fields are there when their keys are different;
- `Property.ofDeclaration_collides`: two fields with the same key.
-/

namespace Stencil

/-! ## Snake case -/

/-- Words of small letters and digits, with single underscores between them, of which each that
stands behind an underscore starts with a letter. -/
def isSnakeTail : List Char → Bool
  | [] => true
  | '_' :: c :: rest => c.isLower && isSnakeTail rest
  | c :: rest => (c.isLower || c.isDigit) && isSnakeTail rest

/-- Names in snake case: every word starts with a letter. -/
def isSnakeCase (name : String) : Bool := isSnakeTail ('_' :: name.toList)

/-- Text in camel case with an underscore in front of each capital, which becomes small. -/
def snakeFrom : List Char → List Char
  | [] => []
  | c :: rest => if c.isUpper then '_' :: c.toLower :: snakeFrom rest else c :: snakeFrom rest

/-- The name in snake case that a key in camel case comes from. -/
def snakeCase (key : String) : String := String.ofList (snakeFrom key.toList)

/-- A small letter has a capital, and is the small letter of that. -/
structure SmallLetter (c : Char) : Prop where
  ne_underscore : c ≠ '_'
  not_isUpper : c.isUpper = false
  upper_eq : Text.upper c = [c.toUpper]
  isUpper_toUpper : c.toUpper.isUpper = true
  toLower_toUpper : c.toUpper.toLower = c

theorem smallLetter {c : Char} (h : c.isLower = true) : SmallLetter c := by
  have hall : ∀ n : Fin 26,
      let c := Char.ofNat (97 + n.val)
      c ≠ '_' ∧ c.isUpper = false ∧ Text.upper c = [c.toUpper] ∧ c.toUpper.isUpper = true ∧
        c.toUpper.toLower = c := by
    decide
  have hrange : 97 ≤ c.toNat ∧ c.toNat ≤ 122 := by
    obtain ⟨hleast, hlast⟩ := Bool.and_eq_true_iff.mp h
    exact ⟨of_decide_eq_true hleast, of_decide_eq_true hlast⟩
  have hletter := hall ⟨c.toNat - 97, by omega⟩
  dsimp only at hletter
  rw [Nat.add_sub_cancel' hrange.1, Char.ofNat_toNat] at hletter
  obtain ⟨hunderscore, hsmall, hupper, hcapital, hback⟩ := hletter
  exact ⟨hunderscore, hsmall, hupper, hcapital, hback⟩

theorem digit_spec {c : Char} (h : c.isDigit = true) : c ≠ '_' ∧ c.isUpper = false := by
  have hrange : 48 ≤ c.toNat ∧ c.toNat ≤ 57 := by
    obtain ⟨hleast, hlast⟩ := Bool.and_eq_true_iff.mp h
    exact ⟨of_decide_eq_true hleast, of_decide_eq_true hlast⟩
  constructor
  · rintro rfl
    cases h
  · refine Bool.eq_false_iff.mpr fun hcapital => ?_
    have hupper : 65 ≤ c.toNat ∧ c.toNat ≤ 90 := of_decide_eq_true hcapital
    omega

theorem snakeFrom_camelFrom {s : List Char} (h : isSnakeTail s = true) :
    snakeFrom (camelFrom true false s) = s := by
  fun_induction isSnakeTail s with
  | case1 => rfl
  | case2 c rest ih =>
    obtain ⟨hc, hrest⟩ := Bool.and_eq_true_iff.mp h
    have hletter := smallLetter hc
    rw [camelFrom, if_pos rfl, camelFrom, if_neg hletter.ne_underscore, if_pos rfl, hletter.upper_eq,
      List.singleton_append, snakeFrom, if_pos hletter.isUpper_toUpper, hletter.toLower_toUpper,
      ih hrest]
  | case3 c rest _ ih =>
    obtain ⟨hc, hrest⟩ := Bool.and_eq_true_iff.mp h
    have hplain : c ≠ '_' ∧ c.isUpper = false := by
      rcases Bool.or_eq_true_iff.mp hc with hc | hc
      · exact ⟨(smallLetter hc).ne_underscore, (smallLetter hc).not_isUpper⟩
      · exact digit_spec hc
    rw [camelFrom, if_neg hplain.1, if_neg Bool.false_ne_true, snakeFrom, hplain.2,
      if_neg Bool.false_ne_true, ih hrest]

/-- The name in snake case comes back from its key. -/
theorem snakeCase_camelCase {name : String} (h : isSnakeCase name = true) :
    snakeCase (camelCase name) = name := by
  unfold isSnakeCase at h
  rw [snakeCase, camelCase, String.toList_ofList]
  conv_rhs => rw [← String.ofList_toList (s := name)]
  cases hname : name.toList with
  | nil =>
    rw [hname] at h
    cases h
  | cons c rest =>
    rw [hname, isSnakeTail] at h
    obtain ⟨hc, hrest⟩ := Bool.and_eq_true_iff.mp h
    have hletter := smallLetter hc
    rw [camelFrom, if_neg hletter.ne_underscore, if_neg Bool.false_ne_true, snakeFrom,
      hletter.not_isUpper, if_neg Bool.false_ne_true, snakeFrom_camelFrom hrest]

/-- **Different names in snake case have different keys.** -/
theorem camelCase_injective {name other : String} (h : isSnakeCase name = true)
    (hother : isSnakeCase other = true) (heq : camelCase name = camelCase other) :
    name = other := by
  rw [← snakeCase_camelCase h, ← snakeCase_camelCase hother, heq]

/-! ## First and last -/

section Lists

variable {α : Type} {p : α → Prop} {xs : List α}

/-- Where not all elements have a property, one is the first without it. -/
theorem exists_first (h : ¬ ∀ x ∈ xs, p x) :
    ∃ before x after, xs = before ++ x :: after ∧ (∀ y ∈ before, p y) ∧ ¬ p x := by
  induction xs with
  | nil => exact absurd (List.forall_mem_nil _) h
  | cons first rest ih =>
    by_cases hfirst : p first
    · have hrest : ¬ ∀ x ∈ rest, p x := fun hall => h (List.forall_mem_cons.mpr ⟨hfirst, hall⟩)
      obtain ⟨before, x, after, rfl, hbefore, hx⟩ := ih hrest
      exact ⟨first :: before, x, after, rfl, List.forall_mem_cons.mpr ⟨hfirst, hbefore⟩, hx⟩
    · exact ⟨[], first, rest, rfl, List.forall_mem_nil _, hfirst⟩

/-- Where not all elements have a property, one is the last without it. -/
theorem exists_last (h : ¬ ∀ x ∈ xs, p x) :
    ∃ before x after, xs = before ++ x :: after ∧ ¬ p x ∧ ∀ y ∈ after, p y := by
  have hreverse : ¬ ∀ x ∈ xs.reverse, p x :=
    fun hall => h fun x hx => hall x (List.mem_reverse.mpr hx)
  obtain ⟨after, x, before, hsplit, hafter, hx⟩ := exists_first hreverse
  refine ⟨before.reverse, x, after.reverse, ?_, hx, fun y hy => hafter y (List.mem_reverse.mp hy)⟩
  rw [← List.reverse_reverse xs, hsplit, List.reverse_append, List.reverse_cons, List.append_assoc,
    List.singleton_append]

end Lists

/-! ## Fields under their keys -/

/-- The directives of a type, from all its attributes for properties. -/
def Declaration.directives (d : Declaration) : List Directive :=
  (Attribute.directives d.attributes).flatten

namespace FieldDeclaration

/-- The key of a field that is given no other name. -/
def ownKey (f : FieldDeclaration) : String := camelCase (unmarked f.name)

theorem key_of_unheeded {f : FieldDeclaration} (h : f.heeded = []) : f.key = f.ownKey := by
  rw [key, h]
  rfl

end FieldDeclaration

namespace Accessors

/-- What it means that a key reads a field: it gives what the field holds. -/
def Reads (accessors : Accessors) (key name : String) : Prop :=
  ∀ field compute : String → Value,
    (accessors.view field compute).get? key = some (field name)

theorem reads_of_get? {accessors : Accessors} {key name : String}
    (h : Fields.get? key accessors = some (.field name)) : accessors.Reads key name := by
  intro field compute
  rw [view_eq, Value.get?, Fields.get?_map, h]
  rfl

end Accessors

namespace Property

/-- The entry of a field among the accessors of its type. -/
def fieldEntry (f : FieldDeclaration) : String × Origin := (f.ownKey, .field f.name)

variable {d : Declaration} {fields : List FieldDeclaration}

/-- The properties of a type whose attributes ask for nothing. -/
theorem ofDeclaration_plain [PathSyntax] (hshape : d.shape = .fields fields)
    (hfields : ∀ f ∈ fields, f.heeded = [])
    (htype : d.directives = []) :
    ∃ properties, ofDeclaration d = .ok properties ∧
      Accessors.ofProperties properties = Fields.ofList (fields.map fieldEntry) := by
  have hnone : ∀ f ∈ fields, ∀ x ∈ f.heeded, x.OfField := by
    intro f hf x hx
    rw [hfields f hf] at hx
    cases hx
  have hall : fields.filter (!·.isSkipped) = fields := by
    refine List.filter_eq_self.mpr fun f hf => ?_
    rw [FieldDeclaration.isSkipped, hfields f hf]
    rfl
  have hcomputed : List.Forall₂ (fun x p => ofDirective x = .ok p) d.directives [] := by
    rw [htype]
    exact .nil
  refine ⟨_, ofDeclaration_eq hshape hnone hcomputed, ?_⟩
  rw [hall, List.append_nil, Accessors.ofProperties, List.map_map]
  refine congrArg Fields.ofList (List.map_congr_left fun f hf => ?_)
  rw [fieldEntry, ← FieldDeclaration.key_of_unheeded (hfields f hf)]
  rfl

/-- The last field of a key is the one that the key gives. -/
theorem get?_last {before after : List FieldDeclaration} {f : FieldDeclaration}
    (h : ∀ g ∈ after, g.ownKey ≠ f.ownKey) :
    Fields.get? f.ownKey (Fields.ofList ((before ++ f :: after).map fieldEntry)) =
      some (.field f.name) := by
  have hafter : ∀ e ∈ after.map fieldEntry, e.1 ≠ f.ownKey := by
    intro e he
    obtain ⟨g, hg, rfl⟩ := List.mem_map.mp he
    exact h g hg
  rw [List.map_append, List.map_cons]
  exact Fields.get?_ofList_of_last _ hafter

/-- A field is hidden by a later one with the same key. -/
theorem hides_of_later {before after : List FieldDeclaration} {f g : FieldDeclaration}
    (hnames : ((before ++ f :: after).map (·.name)).Nodup) (hg : g ∈ after)
    (hkey : g.ownKey = f.ownKey) :
    Accessors.Hides (Fields.ofList ((before ++ f :: after).map fieldEntry)) f.name := by
  refine Accessors.hides_of_unread fun key hmem => ?_
  obtain ⟨f', hf', heq⟩ := List.mem_map.mp (Fields.mem_of_ofList hmem)
  obtain ⟨rfl, horigin⟩ := Prod.mk.inj heq
  have hf : f ∈ before ++ f :: after := List.mem_append_right _ List.mem_cons_self
  obtain rfl := List.inj_on_of_nodup_map hnames hf' hf (Origin.field.inj horigin)
  have hread := Fields.get?_of_mem (Fields.nodup_ofList _) hmem
  -- but the key gives the last field that has it
  obtain ⟨between, last, rest, rfl, hlast, hrest⟩ :=
    exists_last (p := fun g => g.ownKey ≠ f'.ownKey) fun hall => hall g hg hkey
  have hsplit : before ++ f' :: (between ++ last :: rest) =
      (before ++ f' :: between) ++ last :: rest := by simp
  rw [← of_not_not hlast] at hread hrest
  rw [hsplit] at hread hnames
  rw [get?_last hrest] at hread
  have hname : last.name = f'.name := Origin.field.inj (Option.some.inj hread)
  rw [List.map_append] at hnames
  refine (List.nodup_append.mp hnames).2.2 f'.name ?_ last.name ?_ hname.symm
  · exact List.mem_map_of_mem (List.mem_append_right _ List.mem_cons_self)
  · exact List.mem_map_of_mem List.mem_cons_self

/-- Names in snake case give different keys. -/
theorem nodup_ownKeys (hnames : (fields.map fun f => unmarked f.name).Nodup)
    (hsnake : ∀ f ∈ fields, isSnakeCase (unmarked f.name) = true) :
    (fields.map FieldDeclaration.ownKey).Nodup := by
  refine List.Nodup.map_on (fun f hf g hg hkey => ?_) (List.Nodup.of_map _ hnames)
  exact List.inj_on_of_nodup_map hnames hf hg
    (camelCase_injective (hsnake f hf) (hsnake g hg) hkey)

/-- **A field is read under its key exactly when no later field has the same one**: the bean of a
type with fields of different names, whose attributes ask for nothing.  All fields are there, in
their order, when their keys are different, as they are for names in snake case. -/
theorem ofDeclaration_reads [PathSyntax] (hshape : d.shape = .fields fields)
    (hnames : (fields.map fun f => unmarked f.name).Nodup)
    (hfields : ∀ f ∈ fields, f.heeded = [])
    (htype : d.directives = []) :
    ∃ properties, ofDeclaration d = .ok properties ∧
      (∀ before f after, fields = before ++ f :: after →
        if ∃ g ∈ after, g.ownKey = f.ownKey then
          (Accessors.ofProperties properties).Hides f.name
        else (Accessors.ofProperties properties).Reads f.ownKey f.name) ∧
      ((fields.map FieldDeclaration.ownKey).Nodup → ∀ field compute : String → Value,
        ((Accessors.ofProperties properties).view field compute).entries =
          fields.map fun f => (f.ownKey, field f.name)) ∧
      ((∀ f ∈ fields, isSnakeCase (unmarked f.name) = true) →
        (fields.map FieldDeclaration.ownKey).Nodup) := by
  obtain ⟨properties, heq, haccessors⟩ := ofDeclaration_plain hshape hfields htype
  refine ⟨properties, heq, fun before f after hsplit => ?_, fun hkeys field compute => ?_,
    nodup_ownKeys hnames⟩
  · rw [haccessors, hsplit]
    split
    · next hlater =>
      obtain ⟨g, hg, hkey⟩ := hlater
      have hwritten : (fields.map (·.name)).Nodup := by
        refine List.Nodup.of_map unmarked ?_
        rwa [List.map_map]
      rw [hsplit] at hwritten
      exact hides_of_later hwritten hg hkey
    · next hlast =>
      exact Accessors.reads_of_get? (get?_last fun g hg hkey => hlast ⟨g, hg, hkey⟩)
  · have hentries : ((fields.map fieldEntry).map (·.1)).Nodup := by
      rwa [List.map_map]
    rw [haccessors, Fields.ofList_of_nodup hentries, Accessors.view_eq, Value.entries,
      List.map_map]
    rfl

theorem ofDeclaration_reads_account :
    ∃ properties, ofDeclaration
        ⟨.fields [⟨"first_name", [.foreign]⟩, ⟨"r#type", []⟩, ⟨"zip_code2", [.properties []]⟩],
          [.foreign]⟩ = .ok properties ∧
      (Accessors.ofProperties properties).Reads "firstName" "first_name" ∧
      ∀ field compute : String → Value,
        ((Accessors.ofProperties properties).view field compute).entries =
          [("firstName", field "first_name"), ("type", field "r#type"),
            ("zipCode2", field "zip_code2")] := by
  obtain ⟨properties, heq, hone, hall, hsnake⟩ := @ofDeclaration_reads
    ⟨.fields [⟨"first_name", [.foreign]⟩, ⟨"r#type", []⟩, ⟨"zip_code2", [.properties []]⟩],
      [.foreign]⟩
    _ _ rfl (by decide) (by simp [FieldDeclaration.heeded, Attribute.directives]) rfl
  have hkeys := hsnake (by decide)
  have hread := hone [] ⟨"first_name", [.foreign]⟩
    [⟨"r#type", []⟩, ⟨"zip_code2", [.properties []]⟩] rfl
  rw [if_neg (by decide)] at hread
  exact ⟨properties, heq, hread, hall hkeys⟩

/-- Two fields with the same key: the first is hidden, although its name is different and nothing
asks to skip it. -/
theorem ofDeclaration_collides :
    ofDeclaration ⟨.fields [⟨"id", []⟩, ⟨"id_", []⟩], []⟩ =
      .ok [⟨"id", .field "id"⟩, ⟨"id", .field "id_"⟩] ∧
    Accessors.ofProperties [⟨"id", .field "id"⟩, ⟨"id", .field "id_"⟩] =
      [("id", .field "id_")] ∧
    Accessors.Hides [("id", .field "id_")] "id" :=
  ⟨rfl, rfl, Accessors.hides_of_unread (by simp)⟩

end Property

end Stencil
