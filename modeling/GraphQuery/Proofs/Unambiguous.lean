import GraphQuery.Proofs.Bookkeeping
import GraphQuery.Proofs.ExprReader

/-!
# Expressions are written in one way only

Two expressions with one text are the same. A reader who is told the names of a naming finds the
tree in the text, and so the text has no other tree. What the reader is told is possible because
names are never given twice, and it is enough because quoted names come out as they went in.

Some words could come from two trees. `NULL`, `true` and `false` are values, so no alias may be one
of them. Floats are left out, since it is not known here that two of them differ in their digits.
-/

namespace GraphQuery

open ExprReader

namespace Glossary

/-- Reads a whole text. -/
def readText (g : Glossary) (text : String) : Option Expr :=
  match Lexer.lex text.toList with
  | none => none
  | some ts =>
    match readExpr g ts.length ts with
    | some (e, []) => some e
    | _ => none

end Glossary

namespace Naming

/-- What the names of a naming stand for among these visits. -/
def glossary (n : Naming) (vs : List Visit) : Glossary where
  ref? name := (refsOf vs).find? fun r => n.nameAt r.id.index = some name
  param? name := (paramsOf vs).find? fun p => n.nameAt p.id.index = some name

/-- What is found is the only one that there is to find. -/
theorem find?_of_unique {α : Type} {p : α → Bool} {l : List α} {a : α} (ha : a ∈ l) (hp : p a)
    (hunique : ∀ b ∈ l, p b → b = a) : l.find? p = some a := by
  cases hfind : l.find? p with
  | none => exact absurd hp (by simpa using List.find?_eq_none.mp hfind a ha)
  | some b => rw [hunique b (List.mem_of_find?_eq_some hfind) (List.find?_some hfind)]

variable {arena : ArenaId} {s : Settings} {rs : List Handout} {actions : List Action}
  {vs : List Visit}

theorem mem_named {n : Naming} {v : Visit} :
    v ∈ n.named vs ↔ v ∈ vs ∧ n.nameAt v.id.index = some (n.called v) := by
  rw [named, List.mem_filter, called]
  cases n.nameAt v.id.index <;> simp

/-- At any moment of a run, the names lead back to what they were given to. -/
theorem knows_of_named (hs : s.isValid) (haliases : s.aliasStem ∉ valueWords)
    (hvariables : s.variableStem ∉ valueWords) (h : ∀ a ∈ actions, a.Within arena rs)
    (hvs : ∀ v ∈ vs, v ∈ ((fresh arena s).run actions).named (issuedBy arena rs)) :
    (((fresh arena s).run actions).glossary (issuedBy arena rs)).Knows
      ((fresh arena s).run actions).called vs := by
  obtain ⟨fs, hnamed⟩ := named_run (s := s) h
  refine ⟨fun r hr => ?_, fun p hp => ?_, fun r hr => ?_⟩
  · obtain ⟨hissued, hname⟩ := mem_named.mp (hvs _ hr)
    refine find?_of_unique (mem_refsOf.mpr hissued) (decide_eq_true hname) fun r' hr' hname' => ?_
    -- one alias belongs to one reference
    obtain ⟨hmem, heq⟩ := hnamed _ hissued _ hname
    obtain ⟨_, heq'⟩ := hnamed _ (mem_refsOf.mp hr') _ (of_decide_eq_true hname')
    have hid : r.id = r'.id := id_eq_of_alias_eq hs hmem (heq.symm.trans heq')
    exact (Visit.ref.inj
      (Arena.eq_of_id_of_mem_issueAll _ hissued (mem_refsOf.mp hr') hid)).symm
  · obtain ⟨hissued, hname⟩ := mem_named.mp (hvs _ hp)
    refine find?_of_unique (mem_paramsOf.mpr hissued) (decide_eq_true hname)
      fun p' hp' hname' => ?_
    obtain ⟨hmem, heq⟩ := hnamed _ hissued _ hname
    obtain ⟨_, heq'⟩ := hnamed _ (mem_paramsOf.mp hp') _ (of_decide_eq_true hname')
    have hid : p.id = p'.id := id_eq_of_paramName_eq hmem (heq.symm.trans heq')
    exact (Visit.param.inj
      (Arena.eq_of_id_of_mem_issueAll _ hissued (mem_paramsOf.mp hp') hid)).symm
  · obtain ⟨_, hname⟩ := mem_named.mp (hvs _ hr)
    obtain ⟨a, ha, _, haname⟩ := mem_allocated_of_nameAt hname
    rw [← haname]
    exact forall_name_run (P := (· ∉ valueWords)) (give_not_mem (by decide) haliases hvariables)
      actions [] a ha

end Naming

namespace Expr

variable {e e' : Expr} {arena : ArenaId} {s : Settings} {rs : List Handout}
  {actions : List Action} {text : String}

/-- The text of an expression whose references have names is read as the tokens of its tree. -/
theorem lex_render (hs : s.PlainStems)
    (he : ∀ v ∈ e.visits,
      v ∈ ((Naming.fresh arena s).run actions).named (issuedBy arena rs))
    (hr : (e.render.run ((Naming.fresh arena s).run actions)).1 = .ok text) :
    Lexer.lex text.toList
      = some (tokensOf ((Naming.fresh arena s).run actions).called e.pieces) := by
  obtain ⟨n', hn'⟩ : ∃ n', e.render.run ((Naming.fresh arena s).run actions) = (.ok text, n') :=
    ⟨_, Prod.ext hr rfl⟩
  obtain ⟨hvisited, _, htext⟩ := e.render_follows.ok hn'
  -- all names were there before, so rendering has changed none of them
  have hagrees : n'.Agrees ((Naming.fresh arena s).run actions).called e.visits := by
    intro v hv name hname
    have hafter : n'.nameAt v.id.index
        = some (((Naming.fresh arena s).run actions).called v) := by
      rw [hvisited]
      exact Naming.nameAt_visitAll (Naming.mem_named.mp (he v hv)).2
    exact Option.some.inj (hafter.symm.trans hname)
  rw [htext _ hagrees]
  refine lex_spell e.separated fun v hmentioned => ?_
  rw [e.mentioned] at hmentioned
  obtain ⟨a, ha, _, haname⟩ :=
    Naming.mem_allocated_of_nameAt (Naming.mem_named.mp (he v hmentioned)).2
  rw [← haname]
  exact Naming.forall_name_run (P := (Name.isPlain · = true))
    (fun m v hm => Naming.isPlain_give (hm ▸ hs) v) actions [] a ha

/-- A reader who knows the names of the naming finds the tree in the text. -/
theorem readText_render (hs : s.isValid) (haliases : s.aliasStem ∉ valueWords)
    (hvariables : s.variableStem ∉ valueWords) (h : ∀ a ∈ actions, a.Within arena rs)
    (he : ∀ v ∈ e.visits,
      v ∈ ((Naming.fresh arena s).run actions).named (issuedBy arena rs))
    (hl : FloatFree e.literals)
    (hr : (e.render.run ((Naming.fresh arena s).run actions)).1 = .ok text) :
    (((Naming.fresh arena s).run actions).glossary (issuedBy arena rs)).readText text
      = some e := by
  obtain ⟨ha, hv, hp, _⟩ := Settings.isValid_iff.mp hs
  have hlex := lex_render ⟨ha, hv, hp⟩ he hr
  have hread := e.reads (Nat.le_refl _)
    (Naming.knows_of_named hs haliases hvariables h he) hl [] ends_nil
  rw [List.append_nil] at hread
  rw [Glossary.readText, hlex]
  simp only [hread]

/-- **Expressions are uniquely readable.** At any moment of a run, two expressions over what has a
name are the same if they are rendered to the same text, whatever forms they are made of and however
deeply these are nested. -/
theorem eq_of_render_eq (hs : s.isValid) (haliases : s.aliasStem ∉ valueWords)
    (hvariables : s.variableStem ∉ valueWords) (h : ∀ a ∈ actions, a.Within arena rs)
    (he : ∀ v ∈ e.visits,
      v ∈ ((Naming.fresh arena s).run actions).named (issuedBy arena rs))
    (he' : ∀ v ∈ e'.visits,
      v ∈ ((Naming.fresh arena s).run actions).named (issuedBy arena rs))
    (hl : FloatFree e.literals) (hl' : FloatFree e'.literals)
    (hr : (e.render.run ((Naming.fresh arena s).run actions)).1 = .ok text)
    (hr' : (e'.render.run ((Naming.fresh arena s).run actions)).1 = .ok text) : e = e' := by
  have hread := readText_render hs haliases hvariables h he hl hr
  have hread' := readText_render hs haliases hvariables h he' hl' hr'
  exact Option.some.inj (hread.symm.trans hread')

/-- A node labelled `A`, a number and a point. -/
def deepHandouts : List Handout :=
  [.node ["A"], .param (.int 30), .pointParam (.obj [])]

/-- Lists, functions and a projection within a map, with keys that have to be quoted. -/
def deep : Expr :=
  let (node, a) := (Arena.empty ⟨0⟩).addNode ["A"]
  let (age, a) := a.addParam (.int 30)
  let (here, _) := a.addPointParam (.obj [])
  .map [("a, b", .list [.call (.coalesce node.reference "age" (.param age)), .literal (.int (-3))]),
    ("at", .call (.distance (.property node.reference "at") here)),
    ("true", .projection node.reference [.shorthand "name", .entry "of" (.ref node.reference)])]

/-- The same, with the references told by their numbers. -/
def deepById : Expr :=
  .map [("a, b", .list
      [.call (.coalesce ⟨⟨⟨0⟩, 0⟩, .node⟩ "age" (.param ⟨⟨⟨0⟩, 1⟩, .int 30, false⟩)),
        .literal (.int (-3))]),
    ("at", .call (.distance (.property ⟨⟨⟨0⟩, 0⟩, .node⟩ "at") ⟨⟨⟨0⟩, 2⟩, .obj [], true⟩)),
    ("true", .projection ⟨⟨⟨0⟩, 0⟩, .node⟩
      [.shorthand "name", .entry "of" (.ref ⟨⟨⟨0⟩, 0⟩, .node⟩)])]

/-- The point is named before the number. -/
def deepRun : List Action :=
  [.aliasOf ⟨⟨⟨0⟩, 0⟩, .node⟩, .paramName ⟨⟨⟨0⟩, 2⟩, .obj [], true⟩,
    .paramName ⟨⟨⟨0⟩, 1⟩, .int 30, false⟩]

/-- The text of `deep` after `deepRun`. -/
def deepText : String :=
  "\x7b\x60a, b\x60: [coalesce(this.age, $param1), -3], " ++
    "at: distance(this.at, point($param0)), true: this \x7b.name, of: this\x7d\x7d"

theorem eq_of_render_eq_deep :
    Settings.default.isValid ∧ (∀ a ∈ deepRun, a.Within ⟨0⟩ deepHandouts)
    ∧ (deep.render.run ((Naming.fresh ⟨0⟩ .default).run deepRun)).1 = .ok deepText
    ∧ deep = deepById := by
  have hwithin : ∀ a ∈ deepRun, a.Within ⟨0⟩ deepHandouts := by
    simp [deepRun, Action.Within, Action.visits, issuedBy, deepHandouts, Arena.issueAll,
      Arena.issue, Arena.addNode, Arena.addParam, Arena.addPointParam, Arena.empty, Arena.next,
      Arena.grow, NodeRef.reference]
  have hnamed : ∀ v ∈ deep.visits,
      v ∈ ((Naming.fresh ⟨0⟩ .default).run deepRun).named (issuedBy ⟨0⟩ deepHandouts) := by
    have hall : ((Naming.fresh ⟨0⟩ .default).run deepRun).named (issuedBy ⟨0⟩ deepHandouts)
        = issuedBy ⟨0⟩ deepHandouts := rfl
    rw [hall]
    simp [deep, visits, entryVisits, itemVisits, fieldVisits, FunctionCall.visits,
      DistanceSource.visits, ProjectionField.visits, issuedBy, deepHandouts, Arena.issueAll,
      Arena.issue]
  have hfloats : FloatFree deep.literals := by
    intro x hx
    simp [deep, literals, entryLiterals, itemLiterals, fieldLiterals, FunctionCall.literals,
      DistanceSource.literals, ProjectionField.literals] at hx
  have hrender : (deep.render.run ((Naming.fresh ⟨0⟩ .default).run deepRun)).1
      = .ok deepText := rfl
  exact ⟨by decide, hwithin, hrender,
    eq_of_render_eq (by decide) (by decide) (by decide) hwithin hnamed hnamed hfloats hfloats
      hrender hrender⟩

end Expr

end GraphQuery
