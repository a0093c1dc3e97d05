import Stencil.Proofs.Render.Mirror
import Stencil.Proofs.Render.Watched

/-!
# Renders and trees

What a render writes is what the tree of its template writes, and it ends as the tree does.

- `Shelved`: a name under which there is a tree in the library and its text in the loader, or
  nothing in both;
- `Renders.included`: an included template is written from its tree;
- `Renders.step`: **one more marker**, which is one more node;
- `Loader.WellFormed`: every template that can be named can be read and parsed;
- `Template.write_eq_writeTree`: **a render writes what its tree writes**.
-/

namespace Stencil

open Markup

variable {σ : Type} {job : Job} {l : Loader} {texts : Option Bundle} {library : Library}
  {s : State σ} {ts ts' : List Token} {n : Nat} {b : Bool → Value → Run σ Exit} {f : Body.Opener σ}

/-- A name under which the library has the tree of a text that the loader opens; or neither has
anything. -/
inductive Shelved (l : Loader) (library : Library) (name : String) : Prop where
  | found {source : Source} {chars : List Char} {ts : List Token} {tree : List Node}
    (hopen : l.openNamed name = .ok source)
    (hscript : (Reader.ofSource source).script = Script.ofChars chars)
    (htokens : tokens? chars = some ts) (hspells : Spells none ts tree [])
    (hfind : Fields.get? name library = some tree)
  | absent {e : IoError} (hopen : l.openNamed name = .error e) (hkind : e.kind = .notFound)
    (hfind : Fields.get? name library = none)

/-- What is known when a marker has been carried out: the nodes go on at these tokens, and the
writing has come to the same sink, which it may have asked already. -/
def Wrote [Sink σ] {α : Type} (job : Job) (l : Loader) (texts : Option Bundle) (ts : List Token)
    (answer a : α) (s : State σ) (out : Except RenderError Unit × σ) : Prop :=
  a = answer ∧ Stands job l texts s ts ∧ (out = (.ok (), s.sink) ∨ out = Writing.check s.sink)

namespace Renders

variable [Sink σ] {nodes : List Node} {name : String} {v : Value}

/-- A body asks the sink first, so that it does not matter whether it has been asked. -/
theorem writeAll_behind {scene : Scene σ} {nodes : List Node} {c : Writing σ Unit} {w w' : σ}
    (h : c w = (.ok (), w') ∨ c w = Writing.check w') :
    (c >>= fun _ => Node.writeAll scene nodes v) w = Node.writeAll scene nodes v w' := by
  rw [Run.bind_apply]
  rcases h with h | h
  · rw [h]
  · rw [h]
    by_cases hf : Sink.failed w' = true
    · rw [writeAll_failed scene hf, Writing.check, if_pos hf]
    · rw [check_ok (Bool.eq_false_iff.mpr hf)]

/-- The template of a reader is written from its tree, and the reader is kept. -/
theorem entered (R : Renders job l texts library n b) (L : Lockstep job n b b) (h : Sound job s)
    (st : Stands job l texts s ts) (hn : need job s ≤ n) (hd : ¬ s.discards) (hv : v.isMultiPass)
    (hnew : resolveRelative job.template name ∉ s.active)
    (htarget : resolveRelative job.template name ∈ s.shelf.loader.targets job.template)
    {r : Reader} (hr : r.Of s.shelf.loader (resolveRelative job.template name)) (hm : r.marks = [])
    {ts₀ : List Token} {tree : List Node} (hf : r.Faces ts₀) (hs : Spells none ts₀ tree []) :
    Mirrors (Wrote job l texts ts ())
      ((Body.inTemplate b (resolveRelative job.template name) r false v >>=
        Body.keepReader name) s)
      (library.write job texts (resolveRelative job.template name :: s.active) tree v s.sink) := by
  have he := h.enter hnew htarget hr
  have hne := Nat.lt_of_lt_of_le (need_enter he) hn
  have ste : Stands job l texts (s.enter (resolveRelative job.template name) r) ts₀ :=
    st.of_shelf hf rfl ⟨rfl, rfl⟩
  -- the body of the template, as its tree and as a twin of itself
  have body := R he ste hne hs (fun _ heq => nomatch heq) hd hv
  have agree := L (Twin.refl he) hne false v
  rw [Library.write_eq_writeAll, Run.bind_apply, inTemplate_apply]
  generalize hx : b false v (s.enter (resolveRelative job.template name) r) = x at body agree
  change Mirrors _ x (Node.writeAll (library.scene job texts
    (resolveRelative job.template name :: s.active)) tree v s.sink) at body
  generalize Node.writeAll (library.scene job texts
    (resolveRelative job.template name :: s.active)) tree v s.sink = out at body
  cases body with
  | error => exact .error
  | @ok exit inner _ hends =>
    -- the template has been read to its end, and its reader goes back into the scope
    have hi := agree.diagonal rfl
    have hleave := Lockstep.leave_after (Twin.refl h) hi
    have hkept : Body.Rewindable job inner.shelf.loader name inner.reader :=
      Lockstep.rewindable_of_after hm hi
    obtain ⟨s', hkeep, hview, -⟩ := Body.keepReader_spec (s := s.leave inner) hleave.twin.left hkept
    have sti : Stands job l texts (s.leave inner) ts :=
      hends.2.1.of_shelf st.faces rfl ⟨rfl, rfl⟩
    dsimp only
    rw [hkeep]
    refine .ok ⟨rfl, sti.of_view hview, .inr ?_⟩
    rw [show s'.sink = inner.sink from congrArg View.sink hview]
    exact hends.1

/-- An included template is found, and written for the same dictionary; or it is being read, or
there is none. -/
theorem entering (R : Renders job l texts library n b) (L : Lockstep job n b b)
    (hf : Body.Opens job f) (h : Sound job s) (st : Stands job l texts s ts) (hn : need job s ≤ n)
    (hd : ¬ s.discards) (hv : v.isMultiPass)
    (htarget : resolveRelative job.template name ∈ s.shelf.loader.targets job.template)
    (hshelved : Shelved l library (resolveRelative job.template name)) :
    Mirrors (Wrote job l texts ts ()) (Body.entering b f job name false v s)
      ((library.scene job texts s.active).included name v s.sink) := by
  -- taking the reader changes nothing that matters here
  obtain ⟨kept, s₁, htake, hview, h₁, hk⟩ := Body.takeReader_spec h name
  have hsink : s₁.sink = s.sink := congrArg View.sink hview
  have hactive : s₁.active = s.active := congrArg View.active hview
  have hloader : s₁.shelf.loader = s.shelf.loader := congrArg View.loader hview
  have hd₁ : ¬ s₁.discards := by
    rw [State.discards, show s₁.scopes.map Scope.isDiscarding = s.scopes.map Scope.isDiscarding from
      congrArg View.discarding hview]
    exact hd
  have st₁ := st.of_view hview
  have hn₁ : need job s₁ ≤ n := by
    have ha : After job s s₁ s₁ := ⟨.refl h₁, .of_view hview⟩
    exact Nat.le_trans (ha.need_le h) hn
  rw [entering_apply htake, ← hsink, ← hactive]
  dsimp only [Library.scene]
  by_cases hmem : resolveRelative job.template name ∈ s₁.active
  · rw [if_pos hmem, if_pos hmem]
    exact .error
  · rw [if_neg hmem, if_neg hmem, Run.bind_apply]
    rcases hf hk with ⟨e, hopen, hfor⟩ | ⟨source, r, shelf, hopen, hfor, halike, hvalid, hr, hp, hm⟩
    · -- there is no such template, in the loader and in the library
      rw [hloader, st.loader] at hopen
      cases hshelved with
      | found hopen' => cases hopen.symm.trans hopen'
      | absent hopen' hkind hfind =>
        obtain rfl := Except.error.inj (hopen.symm.trans hopen')
        rw [hfor, if_pos hkind, hfind]
        exact .error
    · -- the reader is at the start of the text that the library has the tree of
      have hopen' := hopen
      rw [hloader, st.loader] at hopen'
      cases hshelved with
      | absent hopen'' => cases hopen'.symm.trans hopen''
      | @found source' chars ts₀ tree hopen'' hscript htokens hspells hfind =>
        obtain rfl := Except.ok.inj (hopen'.symm.trans hopen'')
        rw [hfor, hfind]
        have ha₂ : After job s₁ { s₁ with shelf := shelf } { s₁ with shelf := shelf } :=
          (Twin.refl h₁).setShelf ⟨rfl, rfl⟩ halike.loader.symm halike.loader.symm
        have hshelf : shelf.loader = s₁.shelf.loader := halike.loader.symm
        have hfaces : r.Faces ts₀ := by
          refine ⟨chars, ?_, htokens⟩
          rw [Reader.ahead, hr, hp, hscript]
          rfl
        have st₂ : Stands job l texts { s₁ with shelf := shelf } ts :=
          st₁.of_shelf st₁.faces rfl halike
        refine R.entered L ha₂.twin.left st₂ (Nat.le_trans (ha₂.need_le h₁) hn₁) hd₁ hv hmem ?_
          ⟨hvalid, source, ?_, hr⟩ hm hfaces hspells
        · rw [hshelf, hloader]
          exact htarget
        · rw [hshelf]
          exact hopen

theorem included (R : Renders job l texts library n b) (L : Lockstep job n b b)
    (hf : Body.Opens job f) (h : Sound job s) (st : Stands job l texts s ts) (hn : need job s ≤ n)
    (hd : ¬ s.discards) (hv : v.isMultiPass)
    (htarget : resolveRelative job.template name ∈ s.shelf.loader.targets job.template)
    (hshelved : Shelved l library (resolveRelative job.template name)) :
    Mirrors (Wrote job l texts ts ()) (Body.included b f job name false v s)
      ((library.scene job texts s.active).included name v s.sink) := by
  rw [included_apply, if_neg hd]
  exact R.entering L hf h st hn hd hv htarget hshelved

/-! ## Markers -/

theorem substitute (st : Stands job l texts s ts) (m : Marker) (v : Value) :
    Mirrors (Wrote job l texts ts ()) (Body.substitute job false v m s)
      (Node.write (library.scene job texts s.active) (.value m) v s.sink) := by
  obtain ⟨s', hresolve, hsink, st'⟩ :=
    resolve_apply st (library.scene job texts s.active).included v m.name
  change Body.resolve job v m.name s =
    (((library.scene job texts s.active).resolve v m.name).mapError Halt.failed, s') at hresolve
  unfold Body.substitute
  rw [Run.bind_apply, hresolve, Node.write, ← hsink]
  cases (library.scene job texts s.active : Scene σ).resolve v m.name with
  | error e => exact .error
  | ok found =>
    cases found with
    | none => exact .ok ⟨rfl, st', .inl rfl⟩
    | some x => exact .ok ⟨rfl, st'.of_shelf st'.faces rfl ⟨rfl, rfl⟩, .inl rfl⟩

/-- A marker that ends nothing is carried out as its node is written. -/
theorem obeyed {c : Run σ Unit} {out : Except RenderError Unit × σ}
    (h : Mirrors (Wrote job l texts ts ()) (c s) out) :
    Mirrors (Wrote job l texts ts none) ((c >>= fun _ => (pure none : Run σ (Option Exit))) s)
      out := by
  rw [Run.bind_apply]
  generalize c s = x at h
  cases h with
  | error => exact .error
  | ok h => exact .ok ⟨rfl, h.2⟩

theorem wrote_of_writes {x : Except Halt Unit × State σ} {out : Except RenderError Unit × σ}
    (h : Mirrors (Writes job l texts ts) x out) : Mirrors (Wrote job l texts ts ()) x out :=
  h.mono fun _ _ _ h => ⟨rfl, h.2, .inl h.1⟩

/-- A marker that starts a node of a body is carried out as the node is written, and the body goes
on behind it. -/
theorem obey (R : Renders job l texts library n b) (S : Scans job l texts n b)
    (L : Lockstep job n b b) (hf : Body.Opens job f)
    (hlib : ∀ name ∈ l.targets job.template, Shelved l library name)
    (h : Sound job s) (st : Stands job l texts s ts) (hn : need job s < n) (hd : ¬ s.discards)
    (hv : v.isMultiPass) {m : Marker} (hm : Targeted job s.shelf.loader m) {opened : Option String}
    {node : Node} {rest : List Node} (hs : Spells opened (.marker m :: ts) (node :: rest) ts') :
    ∃ later, Spells opened later rest ts' ∧
      Mirrors (Wrote job l texts later none) (Body.obey b f job false v m s)
        (Node.write (library.scene job texts s.active) node v s.sink) := by
  cases hs with
  | comment hk hs =>
    refine ⟨ts, hs, ?_⟩
    unfold Body.obey
    rw [hk]
    exact .ok ⟨rfl, st, .inl rfl⟩
  | value hk hs =>
    refine ⟨ts, hs, ?_⟩
    unfold Body.obey
    rw [hk]
    exact obeyed (substitute st m v)
  | included hk hs =>
    refine ⟨ts, hs, ?_⟩
    have htarget := hm hk
    have hshelved := hlib _ (st.loader ▸ htarget)
    unfold Body.obey
    rw [hk]
    exact obeyed (R.included L hf h st (Nat.le_of_lt hn) hd hv htarget hshelved)
  | @block _ _ kind _ ts₁ _ body _ hk hbody hs =>
    refine ⟨ts₁, hs, ?_⟩
    unfold BlockKind.ofMarker? at hk
    unfold Body.obey
    cases hkind : m.kind <;> rw [hkind] at hk
    case repeating =>
      rw [← Option.some.inj hk]
      exact obeyed (wrote_of_writes (R.repeating S L h st hn hbody hv))
    case conditional =>
      rw [← Option.some.inj hk]
      exact obeyed (wrote_of_writes (R.conditional S h st hn hd hbody hv false))
    case inverted =>
      rw [← Option.some.inj hk]
      exact obeyed (wrote_of_writes (R.conditional S h st hn hd hbody hv true))
    all_goals cases hk

/-! ## Copying -/

/-- What is known behind copied text: the sink and the tree are where the reader is. -/
def Reached (job : Job) (texts : Option Bundle) (library : Library) (s₀ : State σ) (v : Value)
    (opened : Option String) (ts' : List Token) (m : Option Marker) (s : State σ)
    (out : Except RenderError Unit × σ) : Prop :=
  ∃ r w, s = { s₀ with reader := r, sink := w } ∧
    match m with
    | none => opened = none ∧ ts' = [] ∧ r.Faces [] ∧ out = Writing.check w
    | some m => Sink.failed w = false ∧ ∃ later nodes, r.Faces later ∧
      Spells opened (.marker m :: later) nodes ts' ∧
      out = Node.writeAll (library.scene job texts s₀.active) nodes v w

/-- Copying text writes the texts before the next marker.  The induction is on the fuel, which
covers what can be reached. -/
theorem copyText (n : Nat) :
    ∀ {s : State σ} {ts : List Token} {nodes : List Node} {opened : Option String},
      s.reader.Valid → s.reader.Faces ts → s.reader.reach < n → Spells opened ts nodes ts' →
        Mirrors (Reached job texts library s v opened ts') (Run.copyText false n s)
          (Node.writeAll (library.scene job texts s.active) nodes v s.sink) := by
  induction n with
  | zero =>
    intro s ts nodes opened _ _ hn
    exact absurd hn (Nat.not_lt_zero _)
  | succ n ih =>
    intro s ts nodes opened hvalid hf hn hs
    by_cases hfailed : Sink.failed s.sink = true
    · rw [copyText_failed hfailed, writeAll_failed _ hfailed]
      exact .error
    have hsink : Sink.failed s.sink = false := Bool.eq_false_iff.mpr hfailed
    have taken := copyText_token (n := n) hvalid hf (.inr hsink : false = true ∨ _)
    generalize hx : Run.copyText false (n + 1) s = x at taken
    cases taken with
    | @finish r _ hf' =>
      cases hs
      exact .ok ⟨r, s.sink, rfl, rfl, rfl, hf', by rw [Node.writeAll]⟩
    | @marker r m later _ hf' => exact .ok ⟨r, s.sink, rfl, hsink, later, nodes, hf', hs, rfl⟩
    | @brace r chars _ hf' =>
      cases hs with
      | text hs =>
        cases hs
        rw [writeAll_cons _ hsink, Node.write, Node.writeAll]
        exact .ok ⟨r, copied false chars s.sink, rfl, rfl, rfl, hf', rfl⟩
    | @text r chars later hvalid' hf' hr =>
      cases hs with
      | text hs =>
        have rest := ih (s := { s with reader := r, sink := copied false chars s.sink }) hvalid' hf'
          (Nat.lt_of_lt_of_le hr (Nat.le_of_lt_succ hn)) hs
        rw [writeAll_cons _ hsink, Node.write]
        refine rest.mono fun m s' out hreached => ?_
        obtain ⟨r', w, hs', hm⟩ := hreached
        exact ⟨r', w, hs', hm⟩

/-- A marker ends the body, or is carried out as the next node is written, and the body goes on. -/
theorem marker (R : Renders job l texts library n b) (S : Scans job l texts n b)
    (L : Lockstep job n b b) (hf : Body.Opens job f)
    (hlib : ∀ name ∈ l.targets job.template, Shelved l library name)
    (h : Sound job s) (st : Stands job l texts s ts) (hn : need job s < n) (hd : ¬ s.discards)
    (hv : v.isMultiPass) {m : Marker} (hm : Targeted job s.shelf.loader m) {opened : Option String}
    (hs : Spells opened (.marker m :: ts) nodes ts') (hsink : Sink.failed s.sink = false)
    (hsec : ∀ name, opened = some name → s.sections.head? = some name) :
    Mirrors (Ends job l texts opened ts') ((Body.obey b f job false v m >>= goOn b false v) s)
      (Node.writeAll (library.scene job texts s.active) nodes v s.sink) := by
  rw [Run.bind_apply]
  cases nodes with
  | nil =>
    -- no node is left, so that this is the end marker of the section
    cases hs with
    | close hk =>
      rw [obey_sectionEnd hk (hsec m.name rfl), Node.writeAll]
      exact .ok ⟨rfl, st, rfl, hsink⟩
  | cons node rest =>
    obtain ⟨behind, hs₂, obeyed⟩ := R.obey S L hf hlib h st hn hd hv hm hs
    have agree := L.obey hf hf (.refl h) hn hm false v
    rw [writeAll_cons _ hsink]
    generalize Body.obey b f job false v m s = x at obeyed agree
    generalize hout : Node.write (library.scene job texts s.active) node v s.sink = out at obeyed
    cases obeyed with
    | error =>
      rw [Run.bind_apply, hout]
      exact .error
    | @ok exit s₂ _ wrote =>
      -- the body goes on behind the node, in the same section
      obtain ⟨rfl, st₂, hend⟩ := wrote
      have ha₂ := agree.diagonal rfl
      have hactive : s₂.active = s.active := ha₂.frame.active
      have hn₂ := Nat.lt_of_le_of_lt (ha₂.need_le h) hn
      have hsec₂ : ∀ name, opened = some name → s₂.sections.head? = some name := by
        rw [ha₂.frame.sections]
        exact hsec
      have hd₂ : ¬ s₂.discards := by
        rw [State.discards, ha₂.frame.discarding]
        exact hd
      rw [writeAll_behind (hout ▸ hend), ← hactive]
      exact R ha₂.twin.left st₂ hn₂ hs₂ hsec₂ hd₂ hv

/-- **One more marker**, which is one more node. -/
theorem step (R : Renders job l texts library n b) (S : Scans job l texts n b)
    (L : Lockstep job n b b) (hf : Body.Opens job f)
    (hlib : ∀ name ∈ l.targets job.template, Shelved l library name) :
    Renders job l texts library (n + 1) (Body.step b f job) := by
  intro s ts ts' nodes opened v h st hn hs hsec hd hv
  have hlen := Nat.lt_succ_of_le (Reader.length_chars_ahead h.valid)
  have copied : Mirrors (Reached job texts library s v opened ts')
      (Run.copyText false (s.reader.charsLeft + 1) s)
      (Node.writeAll (library.scene job texts s.active) nodes v s.sink) :=
    copyText (s.reader.charsLeft + 1) h.valid st.faces hlen hs
  have agree := agree_copyText false _ (.refl h) hlen hlen
  rw [step_apply]
  generalize Run.copyText false (s.reader.charsLeft + 1) s = x at copied agree
  generalize Node.writeAll (library.scene job texts s.active) nodes v s.sink = out at copied
  cases copied with
  | error => exact .error
  | @ok m s₁ _ reached =>
    have found := agree.diagonal rfl
    obtain ⟨r, w, rfl, hm⟩ := reached
    cases m with
    | none =>
      obtain ⟨rfl, rfl, hfaces, rfl⟩ := hm
      exact .ok ⟨rfl, st.of_shelf hfaces rfl ⟨rfl, rfl⟩, rfl⟩
    | some m =>
      -- what is left of the tree is what the marker and the tokens behind it spell
      obtain ⟨hsink, later, nodes', hfaces, hs', rfl⟩ := hm
      have st₁ : Stands job l texts { s with reader := r, sink := w } later :=
        st.of_shelf hfaces rfl ⟨rfl, rfl⟩
      have hn₁ := Nat.lt_of_lt_of_le (found.need_lt rfl) (Nat.le_of_lt_succ hn)
      exact R.marker S L hf hlib found.after.twin.left st₁ hn₁ hd hv (found.target m rfl) hs' hsink
        hsec

/-- Writing a body writes what its tree writes, and scanning it writes nothing.  The induction is on
the fuel, of which every marker takes one unit. -/
theorem write (hlib : ∀ name ∈ l.targets job.template, Shelved l library name) (n : Nat) :
    Renders job l texts library n (Body.write job n : Bool → Value → Run σ Exit) ∧
      Scans job l texts n (Body.write job n : Bool → Value → Run σ Exit) := by
  induction n with
  | zero =>
    constructor
    · intro s ts ts' nodes opened v _ _ hn
      exact absurd hn (Nat.not_lt_zero _)
    · intro s ts ts' nodes name _ _ hn
      exact absurd hn (Nat.not_lt_zero _)
  | succ n ih =>
    have L : Lockstep job n (Body.write job n : Bool → Value → Run σ Exit) (Body.write job n) :=
      Body.lockstep_write job n
    obtain ⟨R, S⟩ := ih
    exact ⟨step R S L Body.opens_reopen hlib, S.step L Body.opens_reopen⟩

end Renders

/-! ## Libraries of loaders -/

namespace Loader

/-- Every template that can be named can be read and parsed, or is not there. -/
def WellFormed (base : String) (l : Loader) : Prop :=
  ∀ name ∈ base :: l.targets base, match l.openNamed name with
    | .ok source => ∃ text, source.readText = .ok text ∧ (Markup.parse? text.toList).isSome
    | .error e => e.kind = .notFound

/-- What a library has under a name of which it has been made. -/
theorem get?_filterMap (f : String → Option (List Node)) (name : String) (names : List String) :
    Fields.get? name (names.filterMap fun n => (f n).map (n, ·)) =
      if name ∈ names then f name else none := by
  induction names with
  | nil => rfl
  | cons first rest ih =>
    rw [List.filterMap_cons]
    by_cases hf : first = name
    · -- without a tree under the first of the names, there is none under the later ones
      subst hf
      rw [if_pos (List.mem_cons_self ..)]
      cases hx : f first with
      | some tree => exact if_pos rfl
      | none =>
        rw [hx] at ih
        exact ih.trans (ite_self _)
    · have hmem : name ∈ first :: rest ↔ name ∈ rest :=
        ⟨fun h => (List.mem_cons.mp h).resolve_left fun heq => hf heq.symm, List.mem_cons_of_mem _⟩
      simp only [hmem, ← ih]
      cases f first with
      | none => rfl
      | some tree => exact if_neg hf

/-- The library of a loader has the trees of its texts. -/
theorem shelved {base name : String} (h : l.WellFormed base)
    (hname : name ∈ base :: l.targets base) : Shelved l (l.library base) name := by
  have hfind : Fields.get? name (l.library base) = l.tree? name := by
    rw [library, get?_filterMap, if_pos hname]
  have hwell := h name hname
  cases hopen : l.openNamed name with
  | error e =>
    rw [hopen] at hwell
    refine .absent hopen hwell ?_
    rw [hfind, tree?, hopen]
  | ok source =>
    rw [hopen] at hwell
    obtain ⟨text, hread, hparse⟩ := hwell
    obtain ⟨tree, hparse⟩ := Option.isSome_iff_exists.mp hparse
    obtain ⟨ts, htokens, hspells⟩ := Markup.spells_of_parse? hparse
    refine .found hopen (Reader.script_of_readText hread) htokens hspells ?_
    rw [hfind, tree?, hopen]
    dsimp only
    rw [hread]
    exact hparse

/-- Texts in memory are well-formed when each of them can be parsed. -/
theorem wellFormed_memory {base : String} {entries : List (String × String)}
    (h : ∀ e ∈ entries, (Markup.parse? e.2.toList).isSome) : WellFormed base (.memory entries) := by
  intro name _
  rw [openNamed]
  cases hget : Fields.get? name entries with
  | none => rfl
  | some text => exact ⟨text, Source.readText_ofText text, h _ (Fields.mem_of_get? hget)⟩

end Loader

/-! ## Whole renders -/

namespace Template

variable [Sink σ]

omit [Sink σ] in
/-- The texts are still to be asked for when a template has just been opened. -/
theorem stands_started {t : Template} {o : RenderOptions} {start : Rendered σ} {source : Source}
    (ht : start.shelf.texts (t.job o) = .ok texts) (hf : (Reader.ofSource source).Faces ts) :
    Stands (t.job o) start.shelf.loader texts (t.started start source) ts := by
  refine ⟨hf, ?_, rfl⟩
  have asked : (Run.texts (t.job o) (t.initial start)).1 = .ok texts := by
    unfold Shelf.texts at ht
    unfold Run.texts initial
    cases hb : (t.job o).bundle with
    | some given =>
      rw [hb] at ht
      rw [← Except.ok.inj ht]
    | none =>
      rw [hb] at ht
      dsimp only at ht ⊢
      cases hx : start.shelf.bundle (bundleBase (t.job o).template) (t.job o).settings.locale with
      | mk answer shelf =>
        rw [hx] at ht
        obtain rfl : answer = .ok texts := ht
        rfl
  have same : (Run.texts (t.job o) (t.started start source)).1 =
      (Run.texts (t.job o) (t.initial start)).1 := texts_of_alike rfl ⟨rfl, rfl⟩
  exact same.trans asked

/-- A template that has been opened is written from its tree. -/
theorem mirrors_behindOpening {t : Template} {o : RenderOptions} {start : Rendered σ} {v : Value}
    {source : Source} {nodes : List Node} (hv : v.isMultiPass)
    (hl : start.shelf.loader.WellFormed t.name) (ht : start.shelf.texts (t.job o) = .ok texts)
    (hopen : start.shelf.loader.openNamed t.name = .ok source)
    (hf : (Reader.ofSource source).Faces ts) (hs : Spells none ts nodes []) :
    Mirrors (fun _ s out => out = (.ok (), s.sink))
      (behindOpening Body.write (t.job o) v (Body.fuelFor start.shelf.loader)
        (t.started start source))
      ((start.shelf.loader.library t.name).write (t.job o) texts [t.name] nodes v start.sink) := by
  have hsound := sound_started o hopen
  have hpush : Sound (t.job o) { t.started start source with
      scopes := .caching [] :: (t.started start source).scopes } :=
    hsound.pushScope fun _ heq => (Scope.caching.inj heq).symm
  have st := stands_started ht hf
  have hlib : ∀ name ∈ start.shelf.loader.targets (t.job o).template,
      Shelved start.shelf.loader (start.shelf.loader.library t.name) name :=
    fun _ hm => Loader.shelved hl (List.mem_cons_of_mem _ hm)
  obtain ⟨R, -⟩ : Renders (t.job o) start.shelf.loader texts (start.shelf.loader.library t.name)
      (Body.fuelFor start.shelf.loader)
      (Body.write (t.job o) (Body.fuelFor start.shelf.loader) : Bool → Value → Run σ Exit) ∧ _ :=
    Renders.write hlib _
  -- the body is entered with a scope of its own, and needs less than its fuel
  have hn := need_started o hopen
  have body := R hpush (st.of_shelf st.faces rfl ⟨rfl, rfl⟩) hn hs (fun _ heq => nomatch heq)
    (by simp [State.discards, Scope.isDiscarding]) hv
  unfold behindOpening
  rw [Run.bind_apply, Run.discard_apply, inScope_apply, Library.write_eq_writeAll]
  change Mirrors _ _ ((Node.writeAll ((start.shelf.loader.library t.name).scene (t.job o) texts
    [t.name]) nodes v : Writing σ Unit) start.sink) at body
  generalize (Node.writeAll ((start.shelf.loader.library t.name).scene (t.job o) texts [t.name])
    nodes v : Writing σ Unit) start.sink = out at body ⊢
  generalize (Body.write (t.job o) (Body.fuelFor start.shelf.loader) false v : Run σ Exit) _ = x
    at body ⊢
  cases body with
  | error => exact .error
  | @ok exit s _ hends =>
    -- the sink is asked once more, and answers as before
    dsimp only
    rw [checkSink_apply, hends.1, Writing.check]
    by_cases hfailed : Sink.failed s.sink = true
    · rw [if_pos (by rw [hfailed]; rfl), if_pos hfailed]
      exact .error
    · rw [if_neg (by simpa using hfailed), if_neg hfailed]
      exact .ok rfl

/-- **A render writes what its tree writes**, and ends as the tree does: for templates that are
well-formed, a value that can be read any number of times, and texts that can be found. -/
theorem write_eq_writeTree (t : Template) (o : RenderOptions) {v : Value} {start : Rendered σ}
    {texts : Option Bundle} (hv : v.isMultiPass) (hl : start.shelf.loader.WellFormed t.name)
    (ht : start.shelf.texts (t.job o) = .ok texts) :
    let tree : Writing σ Unit := t.writeTree o texts (start.shelf.loader.library t.name) v
    (t.write o v start).1 = (tree start.sink).1.mapError Halt.failed ∧
      (t.write o v start).2.sink = (tree start.sink).2 := by
  intro tree
  show (t.writeBy Body.write o v start).1 = _ ∧ (t.writeBy Body.write o v start).2.sink = _
  rw [writeBy_apply]
  by_cases hnull : v.isNull
  · have hnothing : tree = pure () := if_pos hnull
    rw [if_pos hnull, hnothing]
    exact ⟨rfl, rfl⟩
  · rw [if_neg hnull, writeDictionary_apply]
    cases Loader.shelved hl (List.mem_cons_self ..) with
    | absent hopen hkind hfind =>
      have habsent : tree = _ := writeTree_absent hnull hfind
      rw [hopen, habsent]
      dsimp only
      rw [if_pos hkind]
      exact ⟨rfl, rfl⟩
    | found hopen hscript htokens hspells hfind =>
      have mirrors := mirrors_behindOpening (o := o) (Value.isMultiPass_asDictionary hv) hl ht hopen
        ⟨_, hscript, htokens⟩ hspells
      have hfound : tree = _ := writeTree_found hnull hfind
      rw [hopen, hfound]
      dsimp only
      generalize (behindOpening Body.write (t.job o) v.asDictionary _ : Run σ Unit) _ = x
        at mirrors ⊢
      generalize (Library.write (t.job o) texts _ [t.name] _ v.asDictionary : Writing σ Unit)
        start.sink = y at mirrors ⊢
      cases mirrors with
      | error => exact ⟨rfl, rfl⟩
      | ok h =>
        rw [h]
        exact ⟨rfl, rfl⟩

/-- A list with a section of each kind in its body, and a template included for each element. -/
theorem write_eq_writeTree_list :
    let t : Template := ⟨"page", "text/plain", none, none⟩
    let o : RenderOptions := ⟨⟨.default, 0⟩, none, [("mark", .text "!")]⟩
    let shelf : Shelf := .ofLoader (.memory
      [("page", "\x7b\x7b#of[;]\x7d\x7d{{?x}}{{>row}}{{/x}}{{^x}}-{{/x}}{{/of}}"),
        ("row", "{{.}}{{$mark}}")])
    let v : Value := .record [("of", .list
      [.record [("x", .scalar (.text "a"))], .null, .record [("x", .scalar (.text "b"))]])]
    let start : Rendered String := ⟨"", ⟨[], []⟩, shelf⟩
    let tree : Writing String Unit := t.writeTree o none (shelf.loader.library t.name) v
    (v.isMultiPass ∧ shelf.loader.WellFormed t.name ∧ shelf.texts (t.job o) = .ok none) ∧
      ((t.write o v start).1 = (tree start.sink).1.mapError Halt.failed ∧
        (t.write o v start).2.sink = (tree start.sink).2) ∧
      ((t.write o v start).1, (t.write o v start).2.sink) = (.ok (), "a!;-;b!") := by
  intro t o shelf v start tree
  have hv : v.isMultiPass := rfl
  have hl : shelf.loader.WellFormed t.name := Loader.wellFormed_memory (by decide +kernel)
  have ht : shelf.texts (t.job o) = .ok none := by decide +kernel
  exact ⟨⟨hv, hl, ht⟩, write_eq_writeTree t o hv hl ht, by decide +kernel⟩

end Template

end Stencil
