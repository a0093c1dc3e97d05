import Stencil.Modifier.Configuration

/-!
# What declared names stand for

A configuration is entered into a registry name by name.  A mapping binds what its base resolves to
at that moment, so that names which are declared again later do not matter to it, not even its own.
The entries of a registry, the latest first, therefore tell what each name stands for: a walk from
the name goes from each mapping to its base among the entries *in front of* it, until it comes to an
original modifier.

- `Registry.Entry`, `Registry.Made`: what is entered under names, and the registries made in this
  way; `Registry.Made.configure` for the entries of a configuration;
- `Registry.origin?`: the walk, with the arguments of the mappings on the way;
- `Registry.Made.resolve?_eq`: a name is the original modifier at the end of its walk, with the
  nearest argument;
- `Registry.configure_denotes`: **what the names of a configuration stand for**, and that later
  entries under other names change nothing about it;
- `Registry.configure_refused`: **what a refused configuration leaves behind**: the mappings in
  front of the one that is refused.
-/

namespace Stencil

namespace Registry

variable {r r' start : Registry} {name : String} {m : Modifier}

/-! ## One entry -/

theorem resolve?_register (r : Registry) (entered : String) (m : Modifier) (name : String) :
    (r.register entered m).resolve? name = if entered = name then some m else r.resolve? name := by
  by_cases h : entered = name
  · subst h
    rw [if_pos rfl]
    exact Fields.get?_put_self entered m r.entries
  · rw [if_neg h]
    exact Fields.get?_put_of_ne (Ne.symm h) m r.entries

theorem bind?_eq_some {base : String} {argument : Option String} :
    r.bind? name base argument = some r' ↔
      ∃ m, r.resolve? base = some m ∧ r.register name (m.bound argument) = r' := by
  simp [bind?]

theorem bind?_eq_none {base : String} {argument : Option String} :
    r.bind? name base argument = none ↔ r.resolve? base = none := by
  simp [bind?]

/-! ## The entries of a registry -/

/-- What is entered under a name: an original modifier, or what a mapping refers to. -/
inductive Entry where
  | original (m : Modifier)
  | mapped (mapping : Mapping)

/-- `Made start entries r`: `r` is `start` after `entries`, the latest of which stands first. -/
inductive Made (start : Registry) : List (String × Entry) → Registry → Prop where
  | start : Made start [] start
  | original {entries : List (String × Entry)} {r : Registry} (name : String) (m : Modifier)
      (h : Made start entries r) :
      Made start ((name, .original m) :: entries) (r.register name m)
  | mapped {entries : List (String × Entry)} {r r' : Registry} (name : String) (mapping : Mapping)
      (h : Made start entries r) (hbind : r.bind? name mapping.base mapping.argument = some r') :
      Made start ((name, .mapped mapping) :: entries) r'

/-- The mappings of a configuration as entries, the latest first. -/
def declared (mappings : List (String × Mapping)) : List (String × Entry) :=
  (mappings.map fun (name, mapping) => (name, Entry.mapped mapping)).reverse

theorem declared_cons (name : String) (mapping : Mapping) (rest : List (String × Mapping)) :
    declared ((name, mapping) :: rest) = declared rest ++ [(name, .mapped mapping)] := by
  simp [declared]

@[simp] theorem length_declared (mappings : List (String × Mapping)) :
    (declared mappings).length = mappings.length := by
  simp [declared]

@[simp] theorem mem_names_declared {mappings : List (String × Mapping)} :
    name ∈ (declared mappings).map (·.1) ↔ name ∈ mappings.map (·.1) := by
  simp [declared]

/-- A name under which nothing has been entered stands for what it stood for. -/
theorem Made.resolve?_of_not_mem {entries : List (String × Entry)} (h : Made start entries r)
    (hname : name ∉ entries.map (·.1)) : r.resolve? name = start.resolve? name := by
  induction h with
  | start => rfl
  | original entered m _ ih =>
    obtain ⟨hne, hrest⟩ := List.ne_and_not_mem_of_not_mem_cons hname
    rw [resolve?_register, if_neg (Ne.symm hne), ih hrest]
  | mapped entered mapping _ hbind ih =>
    obtain ⟨hne, hrest⟩ := List.ne_and_not_mem_of_not_mem_cons hname
    obtain ⟨m, -, rfl⟩ := bind?_eq_some.mp hbind
    rw [resolve?_register, if_neg (Ne.symm hne), ih hrest]

/-- A name under which something has been entered stands for something. -/
theorem Made.isSome_resolve? {entries : List (String × Entry)} (h : Made start entries r)
    (hname : name ∈ entries.map (·.1)) : (r.resolve? name).isSome := by
  induction h with
  | start => cases hname
  | original entered m _ ih =>
    rw [resolve?_register]
    split
    · rfl
    · next hne => exact ih (by simpa [Ne.symm hne] using hname)
  | mapped entered mapping _ hbind ih =>
    obtain ⟨m, -, rfl⟩ := bind?_eq_some.mp hbind
    rw [resolve?_register]
    split
    · rfl
    · next hne => exact ih (by simpa [Ne.symm hne] using hname)

/-- A configuration that is accepted enters its mappings, one after the other. -/
theorem Made.configure {entries : List (String × Entry)} {mappings : List (String × Mapping)}
    (hmade : Made start entries r) (h : Registry.configure mappings r = (.ok (), r')) :
    Made start (declared mappings ++ entries) r' := by
  induction mappings generalizing r entries with
  | nil =>
    obtain rfl : r = r' := congrArg Prod.snd h
    exact hmade
  | cons first rest ih =>
    obtain ⟨name, mapping⟩ := first
    rw [Registry.configure] at h
    cases hbind : r.bind? name mapping.base mapping.argument with
    | none => simp [hbind] at h
    | some bound =>
      rw [hbind] at h
      have hrest := ih (hmade.mapped name mapping hbind) h
      rwa [declared_cons, List.append_assoc, List.singleton_append]

/-! ## The walk from a name -/

/-- Where a walk ends: at an original modifier, with the arguments of the mappings on the way, the
first one met in front. -/
structure Origin where
  modifier : Modifier
  arguments : List (Option String)

namespace Origin

/-- The first argument met on the way, if any mapping has one. -/
def nearest (o : Origin) : Option String := o.arguments.findSome? id

/-- The original modifier under the argument that is given, else under the nearest one. -/
def denoted (o : Origin) : Modifier :=
  fun value given settings => o.modifier value (given.or o.nearest) settings

/-- One mapping more on the way. -/
def behind (argument : Option String) (o : Origin) : Origin := ⟨o.modifier, argument :: o.arguments⟩

theorem denoted_original (m : Modifier) : (⟨m, []⟩ : Origin).denoted = m := by
  funext value given settings
  show m value (given.or none) settings = m value given settings
  rw [Option.or_none]

/-- A mapping without an argument leaves the nearest one as it is, and one with an argument has the
nearest one: in both cases an argument that is given comes first. -/
theorem denoted_behind (argument : Option String) (o : Origin) :
    (o.behind argument).denoted = o.denoted.bound argument := by
  funext value given settings
  have hnearest : (o.behind argument).nearest = argument.or o.nearest := by
    cases argument <;> rfl
  show o.modifier value (given.or (o.behind argument).nearest) settings =
    o.modifier value ((given.or argument).or o.nearest) settings
  rw [hnearest, Option.or_assoc]

end Origin

/-- The walk from a name.  It goes to the latest entry under the name, and from a mapping on to its
base, among the entries in front of that mapping.  What `start` has is taken for original. -/
def origin? (start : Registry) : List (String × Entry) → String → Option Origin
  | [], name => (start.resolve? name).map fun m => ⟨m, []⟩
  | (entered, .original m) :: earlier, name =>
    if entered = name then some ⟨m, []⟩ else origin? start earlier name
  | (entered, .mapped mapping) :: earlier, name =>
    if entered = name then (origin? start earlier mapping.base).map (.behind mapping.argument)
    else origin? start earlier name

/-- No walk meets more mappings than there are entries: every step leads to an earlier one. -/
theorem length_arguments_le {entries : List (String × Entry)} {o : Origin}
    (h : origin? start entries name = some o) : o.arguments.length ≤ entries.length := by
  fun_induction origin? start entries name generalizing o with
  | case1 name =>
    obtain ⟨m, -, rfl⟩ := Option.map_eq_some_iff.mp h
    exact Nat.le_refl 0
  | case2 =>
    obtain rfl := Option.some.inj h
    exact Nat.zero_le _
  | case4 entered mapping earlier ih =>
    obtain ⟨o, ho, rfl⟩ := Option.map_eq_some_iff.mp h
    exact Nat.succ_le_succ (ih ho)
  | case3 _ _ _ _ _ ih => exact Nat.le_succ_of_le (ih h)
  | case5 _ _ _ _ _ ih => exact Nat.le_succ_of_le (ih h)

/-- A name stands for the modifier at the end of its walk, under the nearest argument. -/
theorem Made.resolve?_eq {entries : List (String × Entry)} (h : Made start entries r)
    (name : String) : r.resolve? name = (origin? start entries name).map Origin.denoted := by
  induction h generalizing name with
  | start =>
    rw [origin?, Option.map_map]
    cases start.resolve? name with
    | none => rfl
    | some m => exact congrArg some (Origin.denoted_original m).symm
  | original entered m _ ih =>
    rw [resolve?_register, origin?]
    split
    · exact congrArg some (Origin.denoted_original m).symm
    · exact ih name
  | mapped entered mapping _ hbind ih =>
    obtain ⟨m, hbase, rfl⟩ := bind?_eq_some.mp hbind
    rw [ih] at hbase
    obtain ⟨o, ho, rfl⟩ := Option.map_eq_some_iff.mp hbase
    rw [resolve?_register, origin?, ho]
    split
    · exact congrArg some (Origin.denoted_behind mapping.argument o).symm
    · exact ih name

/-! ## Configurations -/

/-- **What the names of a configuration stand for.**  From each of them the walk comes to an
original modifier, over no more mappings than have been entered; the name is this modifier, under
the argument that is given, else under the first one met on the walk, else under none.  Nothing that
is entered later under other names, those on the walk among them, changes what it stands for. -/
theorem configure_denotes {entries : List (String × Entry)} {mappings : List (String × Mapping)}
    (hmade : Made start entries r) (h : Registry.configure mappings r = (.ok (), r')) :
    ∀ name ∈ mappings.map (·.1),
      (∃ o, origin? start (declared mappings ++ entries) name = some o ∧
        o.arguments.length ≤ mappings.length + entries.length ∧
        ∃ m, r'.resolve? name = some m ∧ ∀ value given settings,
          m value given settings =
            o.modifier value (given.or (o.arguments.findSome? id)) settings) ∧
      ∀ later r'', Made r' later r'' → name ∉ later.map (·.1) →
        r''.resolve? name = r'.resolve? name := by
  intro name hname
  refine ⟨?_, fun later r'' hlater hnot => hlater.resolve?_of_not_mem hnot⟩
  have hmade' := hmade.configure h
  have hsome : (r'.resolve? name).isSome := by
    refine hmade'.isSome_resolve? ?_
    rw [List.map_append]
    exact List.mem_append_left _ (mem_names_declared.mpr hname)
  rw [hmade'.resolve?_eq] at hsome ⊢
  obtain ⟨o, ho⟩ := Option.isSome_iff_exists.mp (Option.isSome_map ▸ hsome)
  have hlength := length_arguments_le ho
  rw [List.length_append, length_declared] at hlength
  exact ⟨o, ho, hlength, o.denoted, congrArg (Option.map Origin.denoted) ho, fun _ _ _ => rfl⟩

/-- Amounts of money as the form that needs no argument, another name for it, and that name with an
argument of its own.  Taking `format` for something else afterwards changes neither. -/
theorem configure_denotes_cash :
    let mappings : List (String × Mapping) :=
      [("format", .bound "format" (some "currency")), ("cash", .same "format"),
        ("share", .bound "cash" (some "percent"))]
    let r := (Registry.configure mappings .builtins).2
    let quarter : Scalar := .number (.binary ⟨0x3FD0000000000000⟩)
    Made .builtins [] .builtins ∧ Registry.configure mappings .builtins = (.ok (), r) ∧
      (∃ cash, (r.register "format" (.escaping Escape.csv)).resolve? "cash" = some cash ∧
        cash quarter none ⟨.default, 0⟩ = .text "$0.25") ∧
      ∃ share, r.resolve? "share" = some share ∧
        share quarter none ⟨.default, 0⟩ = .text "25%" ∧
        share quarter (some "%.1f") ⟨.default, 0⟩ = .text "0.2" := by
  intro mappings r quarter
  have hconfigure : Registry.configure mappings .builtins = (.ok (), r) := rfl
  have hdenotes := configure_denotes .start hconfigure
  refine ⟨.start, hconfigure, ?_, ?_⟩
  · obtain ⟨⟨o, ho, -, cash, hcash, hwrites⟩, hlater⟩ := hdenotes "cash" (by decide)
    obtain rfl : ⟨format, [none, some "currency"]⟩ = o := Option.some.inj ho
    have hkept := hlater _ _ (.original "format" (.escaping Escape.csv) .start) (by decide)
    refine ⟨cash, hkept.trans hcash, (hwrites ..).trans ?_⟩
    decide +kernel
  · obtain ⟨⟨o, ho, -, share, hshare, hwrites⟩, -⟩ := hdenotes "share" (by decide)
    obtain rfl : ⟨format, [some "percent", none, some "currency"]⟩ = o := Option.some.inj ho
    refine ⟨share, hshare, (hwrites ..).trans ?_, (hwrites ..).trans ?_⟩ <;> decide +kernel

/-! ## Refused configurations -/

/-- Behind mappings that are accepted, a configuration goes on with the registry they make. -/
theorem configure_append {r₁ : Registry} {before : List (String × Mapping)}
    (h : Registry.configure before r = (.ok (), r₁)) (after : List (String × Mapping)) :
    Registry.configure (before ++ after) r = Registry.configure after r₁ := by
  induction before generalizing r with
  | nil =>
    obtain rfl : r = r₁ := congrArg Prod.snd h
    rfl
  | cons first rest ih =>
    obtain ⟨name, mapping⟩ := first
    cases hbind : r.bind? name mapping.base mapping.argument with
    | none => simp [Registry.configure, hbind] at h
    | some bound =>
      simp only [Registry.configure, hbind, List.cons_append] at h ⊢
      exact ih h

/-- A configuration is refused at the first mapping whose base is not there, for that base. -/
theorem configure_eq_error {e : ConfigurationError} {mappings : List (String × Mapping)} :
    Registry.configure mappings r = (.error e, r') ↔
      ∃ before name mapping after, mappings = before ++ (name, mapping) :: after ∧
        Registry.configure before r = (.ok (), r') ∧ r'.resolve? mapping.base = none ∧
        e = .unknownBase mapping.base := by
  constructor
  · intro h
    induction mappings generalizing r with
    | nil => cases h
    | cons first rest ih =>
      obtain ⟨name, mapping⟩ := first
      cases hbind : r.bind? name mapping.base mapping.argument with
      | none =>
        simp only [Registry.configure, hbind, Prod.mk.injEq, Except.error.injEq] at h
        obtain ⟨rfl, rfl⟩ := h
        exact ⟨[], name, mapping, rest, rfl, rfl, bind?_eq_none.mp hbind, rfl⟩
      | some bound =>
        simp only [Registry.configure, hbind] at h
        obtain ⟨before, name', mapping', after, rfl, hbefore, hbase⟩ := ih h
        refine ⟨(name, mapping) :: before, name', mapping', after, rfl, ?_, hbase⟩
        simpa only [Registry.configure, hbind] using hbefore
  · rintro ⟨before, name, mapping, after, rfl, hbefore, hbase, rfl⟩
    rw [configure_append hbefore, Registry.configure, bind?_eq_none.mpr hbase]

/-- **What a refused configuration leaves behind.**  It is refused for the base of one of its
mappings, which is not there.  The mappings in front of that one stay, as if the configuration had
ended there, so that every name that none of them declares stands for what it stood for. -/
theorem configure_refused {e : ConfigurationError} {mappings : List (String × Mapping)}
    (h : Registry.configure mappings r = (.error e, r')) :
    ∃ before name mapping after, mappings = before ++ (name, mapping) :: after ∧
      e = .unknownBase mapping.base ∧ r'.resolve? mapping.base = none ∧
      Registry.configure before r = (.ok (), r') ∧
      ∀ other ∉ before.map (·.1), r'.resolve? other = r.resolve? other := by
  obtain ⟨before, name, mapping, after, hmappings, hbefore, hbase, he⟩ := configure_eq_error.mp h
  refine ⟨before, name, mapping, after, hmappings, he, hbase, hbefore, fun other hother => ?_⟩
  refine (Made.start.configure hbefore).resolve?_of_not_mem ?_
  rwa [List.append_nil, mem_names_declared]

/-- The second of three mappings is refused: the third is not looked at, and a name that only it
declares stays unknown. -/
theorem configure_refused_second :
    let mappings : List (String × Mapping) :=
      [("^html", .same "^csv"), ("x", .same "missing"), ("^xml", .same "^csv")]
    let r := (Registry.configure mappings .builtins).2
    Registry.configure mappings .builtins = (.error (.unknownBase "missing"), r) ∧
      Registry.configure [("^html", .same "^csv")] .builtins = (.ok (), r) ∧
      r.resolve? "^xml" = builtins.resolve? "^xml" ∧ r.resolve? "x" = none := by
  intro mappings r
  have hconfigure : Registry.configure mappings .builtins = (.error (.unknownBase "missing"), r) :=
    rfl
  obtain ⟨before, name, mapping, after, hmappings, he, -, hbefore, hother⟩ :=
    configure_refused hconfigure
  obtain rfl : before = [("^html", .same "^csv")] := by
    match before with
    | [] =>
      obtain ⟨⟨-, rfl⟩, -⟩ : ("^html" = name ∧ Mapping.same "^csv" = mapping) ∧ _ := by
        simpa [mappings] using hmappings
      simp [Mapping.base] at he
    | [first] =>
      obtain ⟨rfl, -⟩ := List.cons.inj hmappings
      rfl
    | [_, third] =>
      obtain ⟨-, -, ⟨-, rfl⟩, -⟩ : _ ∧ _ ∧ ("^xml" = name ∧ Mapping.same "^csv" = mapping) ∧ _ := by
        simpa [mappings] using hmappings
      simp [Mapping.base] at he
    | _ :: _ :: _ :: _ => simp [mappings] at hmappings
  exact ⟨hconfigure, hbefore, hother "^xml" (by decide), hother "x" (by decide)⟩

/-- **A refused configuration may change what a name stands for**: the escaper for HTML is that for
CSV behind it, which leaves angle brackets as they are. -/
theorem configure_refused_escapes :
    let r := (Registry.configure [("^html", .same "^csv"), ("x", .same "missing")] .builtins).2
    Registry.configure [("^html", .same "^csv"), ("x", .same "missing")] .builtins =
        (.error (.unknownBase "missing"), r) ∧
      r.resolve? "^html" ≠ builtins.resolve? "^html" := by
  intro r
  refine ⟨rfl, fun hsame => ?_⟩
  have hwritten := congrArg (Option.map (· (.text "<") none ⟨.default, 0⟩)) hsame
  exact absurd hwritten (by decide +kernel)

end Registry

end Stencil
