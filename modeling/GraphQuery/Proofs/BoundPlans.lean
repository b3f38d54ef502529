import GraphQuery.Plan.Source
import GraphQuery.Proofs.Bindings
import GraphQuery.Proofs.UsedParams

/-!
# Plans bind the parameters they use

The scope of a plan is handed out by a fresh arena, one reference for each declared name. So a
compiled plan is a query over one arena, and what holds of the parameters of such a query holds of
it. Distinct names stand for distinct parameters, so nothing is lost on the way from the names that
the statements use to the table: each used name has one entry there, with its declared value.
-/

namespace GraphQuery

/-- The entry that a key leads to is the only one with that key. -/
theorem find?_of_nodup {α β : Type} [DecidableEq β] (key : α → β) {entries : List α}
    (h : (entries.map key).Nodup) {a : α} (ha : a ∈ entries) :
    entries.find? (fun e => key e = key a) = some a := by
  cases hfind : entries.find? fun e => key e = key a with
  | none => exact absurd (List.find?_eq_none.mp hfind a ha) (by simp)
  | some b =>
    have hkey : key b = key a := by simpa using List.find?_some hfind
    rw [List.inj_on_of_nodup_map h (List.mem_of_find?_eq_some hfind) ha hkey]

namespace Plan

/-! ## What a plan declares -/

/-- What the arena hands out for an entity. -/
def EntityDecl.handout : EntityDecl → Handout
  | .node labels => .node labels
  | .relationship type => .relationship type
  | .var => .var

/-- What the arena hands out for a parameter. -/
def ParamDecl.handout (decl : ParamDecl) : Handout :=
  if decl.isPoint then .pointParam decl.value else .param decl.value

/-- All that is handed out for the declarations of a plan. -/
def handouts (plan : Plan) : List Handout :=
  (plan.entities.sorted.map fun entry => entry.2.handout)
    ++ plan.params.sorted.map fun entry => entry.2.handout

/-- The references of declared entities are handed out one after the other. -/
theorem declareEntities_issued (decls : List (String × EntityDecl)) (a : Arena) :
    (declareEntities decls a).1.map (fun entry => Visit.ref entry.2.reference)
        = a.issueAll (decls.map fun entry => entry.2.handout)
      ∧ (declareEntities decls a).2 = a.after (decls.map fun entry => entry.2.handout) := by
  induction decls generalizing a with
  | nil => exact ⟨rfl, rfl⟩
  | cons entry rest ih =>
    obtain ⟨name, _ | _ | _⟩ := entry
    all_goals
      obtain ⟨hissued, hafter⟩ := ih a.grow
      exact ⟨congrArg (_ :: ·) hissued, hafter⟩

/-- So are declared parameters, and each has its declared value. -/
theorem declareParams_issued (decls : List (String × ParamDecl)) (a : Arena) :
    (declareParams decls a).1.map (fun entry => Visit.param entry.2)
        = a.issueAll (decls.map fun entry => entry.2.handout)
      ∧ (declareParams decls a).2 = a.after (decls.map fun entry => entry.2.handout)
      ∧ (declareParams decls a).1.map (fun entry => (entry.1, entry.2.value))
        = decls.map fun entry => (entry.1, entry.2.value) := by
  induction decls generalizing a with
  | nil => exact ⟨rfl, rfl, rfl⟩
  | cons entry rest ih =>
    obtain ⟨name, value, _ | _⟩ := entry
    all_goals
      obtain ⟨hissued, hafter, hvalues⟩ := ih a.grow
      exact ⟨congrArg (_ :: ·) hissued, hafter, congrArg (_ :: ·) hvalues⟩

/-- A scope of a plan: all that it holds was handed out by one arena, and its parameters have the
declared values. -/
structure Declared (plan : Plan) (id : ArenaId) (s : Scope) : Prop where
  /-- Entities come before parameters, and nothing else was handed out. -/
  issued : s.entities.map (fun entry => Visit.ref entry.2.reference)
      ++ s.params.map (fun entry => Visit.param entry.2) = issuedBy id plan.handouts
  /-- The parameters have the declared names and values, in the order of the names. -/
  values : s.params.map (fun entry => (entry.1, entry.2.value))
    = plan.params.sorted.map fun entry => (entry.1, entry.2.value)

theorem declare_declared {plan : Plan} {id : ArenaId} {s : Scope} {a : Arena}
    (h : declare plan id = .ok (s, a)) : a.id = id ∧ Declared plan id s := by
  obtain ⟨hentities, hafter⟩ := declareEntities_issued plan.entities.sorted (.empty id)
  unfold declare at h
  simp only [] at h
  split at h
  · cases h
  · obtain ⟨rfl, rfl⟩ := Prod.mk.inj (Except.ok.inj h)
    rw [hafter]
    obtain ⟨hparams, hafter', hvalues⟩ := declareParams_issued plan.params.sorted
      ((Arena.empty id).after (plan.entities.sorted.map fun entry => entry.2.handout))
    refine ⟨?_, ?_, hvalues⟩
    · rw [hafter', Arena.after_id, Arena.after_id]
      rfl
    · rw [hentities, hparams, ← Arena.issueAll_append]
      rfl

namespace Declared

variable {plan : Plan} {id : ArenaId} {s : Scope}

theorem entity_issued (h : Declared plan id s) {entry : String × Entity}
    (he : entry ∈ s.entities) : .ref entry.2.reference ∈ issuedBy id plan.handouts := by
  rw [← h.issued]
  exact List.mem_append_left _ (List.mem_map.mpr ⟨entry, he, rfl⟩)

theorem param_issued (h : Declared plan id s) {entry : String × Param}
    (he : entry ∈ s.params) : .param entry.2 ∈ issuedBy id plan.handouts := by
  rw [← h.issued]
  exact List.mem_append_right _ (List.mem_map.mpr ⟨entry, he, rfl⟩)

/-- The parameters of a scope differ. -/
theorem nodup_ids (h : Declared plan id s) : (s.params.map fun entry => entry.2.id).Nodup := by
  have hids := Arena.nodup_issueAll (.empty id) plan.handouts
  rw [← issuedBy, ← h.issued, List.map_append, List.map_map, List.map_map] at hids
  exact hids.of_append_right

/-- A parameter of the scope was declared under its name, with its value. -/
theorem get?_of_mem (h : Declared plan id s) {name : String} {p : Param}
    (hp : (name, p) ∈ s.params) : ∃ decl, plan.params.get? name = some decl
      ∧ decl.value = p.value := by
  have hmem : (name, p.value) ∈ plan.params.sorted.map fun entry => (entry.1, entry.2.value) := by
    rw [← h.values]
    exact List.mem_map.mpr ⟨(name, p), hp, rfl⟩
  obtain ⟨⟨n, decl⟩, hdecl, heq⟩ := List.mem_map.mp hmem
  obtain ⟨rfl, hvalue⟩ := Prod.mk.inj heq
  refine ⟨decl, ?_, hvalue⟩
  rw [Table.sorted, List.mem_mergeSort] at hdecl
  rw [Table.get?, find?_of_nodup Prod.fst plan.params.nodup hdecl]
  rfl

/-- Names of the scope differ, as those of the declarations do. -/
theorem nodup_names (h : Declared plan id s) : (s.params.map Prod.fst).Nodup := by
  have hnames : s.params.map Prod.fst = plan.params.sorted.map Prod.fst := by
    have h := congrArg (List.map Prod.fst) h.values
    rwa [List.map_map, List.map_map] at h
  rw [hnames, Table.sorted]
  exact ((List.mergeSort_perm _ _).map Prod.fst).nodup_iff.mpr plan.params.nodup

end Declared

/-! ## Names of what is visited -/

/-- The name that a parameter of the scope was declared under. -/
def Scope.nameOf (s : Scope) (p : Param) : String :=
  ((s.params.find? fun entry => entry.2.id = p.id).map Prod.fst).getD ""

section Resolved

variable {plan : Plan} {id : ArenaId} {s : Scope} {names : List String} {vs : List Visit}

theorem Declared.nameOf_eq (h : Declared plan id s) {name : String} {p : Param}
    (hp : (name, p) ∈ s.params) : s.nameOf p = name := by
  rw [Scope.nameOf, find?_of_nodup (fun entry => entry.2.id) h.nodup_ids hp]
  rfl

/-- What is resolved has the names that the visited parameters were declared under. -/
theorem Resolves.names_eq (hd : Declared plan id s) (hr : Resolves s names vs) :
    names = (paramsOf vs).map s.nameOf := by
  rw [← List.forall₂_eq_eq_eq, List.forall₂_map_right_iff]
  exact hr.params.imp fun _ _ hp => (hd.nameOf_eq hp).symm

theorem Resolves.mem_params (hd : Declared plan id s) (hr : Resolves s names vs) {p : Param}
    (hp : .param p ∈ vs) : (s.nameOf p, p) ∈ s.params := by
  have hparams := hr.params
  rw [hr.names_eq hd, List.forall₂_map_left_iff, List.forall₂_same] at hparams
  exact hparams p (Naming.mem_paramsOf.mpr hp)

/-- All that is visited comes from the arena of the plan. -/
theorem Resolves.issued (hd : Declared plan id s) (hr : Resolves s names vs) {v : Visit}
    (hv : v ∈ vs) : v ∈ issuedBy id plan.handouts := by
  cases v with
  | ref r =>
    obtain ⟨entry, hentry, rfl⟩ := hr.refs r hv
    exact hd.entity_issued hentry
  | param p => exact hd.param_issued (hr.mem_params hd hv)

end Resolved

/-! ## From names to the table -/

variable {plan : Plan} {id : ArenaId} {c : Compiled} {st : Settings} {b : Built}

/-- A compiled plan visits what its statements use, in a scope of the plan. -/
theorem compile_ok (h : plan.compile id = .ok c) :
    c.arena.id = id ∧ ∃ s, Declared plan id s ∧ Resolves s plan.usedParams c.query.visits := by
  obtain ⟨⟨s, a⟩, hdeclare, h⟩ := bind_eq_ok h
  obtain ⟨cs, hcs, h⟩ := bind_eq_ok h
  obtain rfl := Except.ok.inj h
  obtain ⟨ha, hd⟩ := declare_declared hdeclare
  exact ⟨ha, s, hd, compileStatements_resolves plan.statements hcs⟩

theorem over_of_compile (h : plan.compile id = .ok c) : c.query.Over id := by
  obtain ⟨_, s, hd, hr⟩ := compile_ok h
  exact ⟨plan.handouts, fun v hv => hr.issued hd hv⟩

/-- The table of a compiled plan has one entry for each parameter name that the statements use, and
the value of the entry is the declared one. -/
theorem declared_of_build (h : plan.compile id = .ok c) (hb : c.build st = .ok b) :
    List.Forall₂ (fun name entry => ∃ decl, plan.params.get? name = some decl
        ∧ decl.value = entry.2) plan.usedParams.eraseDups b.params := by
  have ho := over_of_compile h
  obtain ⟨hid, s, hd, hr⟩ := compile_ok h
  rw [Compiled.build, hid] at hb
  have hnames : plan.usedParams.eraseDups
      = (paramsOf (firstVisits c.query.visits)).map s.nameOf := by
    rw [hr.names_eq hd]
    refine eraseDups_paramsOf (fun v hv w hw => ho.eq_of_id hv hw) fun p hp p' hp' heq => ?_
    -- the scope has no name twice
    have hmem := hr.mem_params hd hp
    have hmem' := hr.mem_params hd hp'
    exact congrArg Prod.snd (List.inj_on_of_nodup_map hd.nodup_names hmem hmem' heq)
  rw [hnames, Query.params_of_build hb, List.forall₂_map_left_iff, List.forall₂_map_right_iff,
    List.forall₂_same]
  intro p hp
  have hvisit : .param p ∈ c.query.visits := mem_of_mem_firstVisits (Naming.mem_paramsOf.mp hp)
  exact hd.get?_of_mem (hr.mem_params hd hvisit)

/-! ## All that a table binds -/

theorem compile_of_outcome (h : plan.outcome st = .ok b) :
    ∃ c, plan.compile ⟨0⟩ = .ok c ∧ c.build st = .ok b := by
  unfold outcome at h
  cases hc : plan.compile ⟨0⟩ with
  | error why => rw [hc] at h; cases h
  | ok c =>
    rw [hc] at h
    refine ⟨c, rfl, ?_⟩
    change (c.build st).mapError Failure.build = .ok b at h
    cases hb : c.build st with
    | error why => rw [hb] at h; cases h
    | ok b' =>
      rw [hb] at h
      rw [Except.ok.inj h]

/-- **The table of a build is complete and holds nothing else.** The names that a reader finds in
the text are those of the table, and every entry has the value of its parameter. For a plan, the
entries are the parameters that its statements use, each once and with its declared value. -/
theorem binds_of_readableStems (hs : st.ReadableStems) :
    (∀ (q : Query) (arena : ArenaId) (b : Built), q.Over arena → q.build arena st = .ok b →
        b.Binds q (q.buildIn (.fresh arena st)).2.called)
    ∧ ∀ (plan : Plan) (b : Built), plan.outcome st = .ok b →
        ∃ c, plan.compile ⟨0⟩ = .ok c ∧ c.query.build ⟨0⟩ st = .ok b
          ∧ b.Binds c.query (c.query.buildIn (.fresh ⟨0⟩ st)).2.called
          ∧ List.Forall₂ (fun name entry => ∃ decl, plan.params.get? name = some decl
              ∧ decl.value = entry.2) plan.usedParams.eraseDups b.params := by
  refine ⟨fun q arena b => Query.binds_of_build hs, fun plan b h => ?_⟩
  obtain ⟨c, hc, hb⟩ := compile_of_outcome h
  have hdeclared := declared_of_build hc hb
  rw [Compiled.build, (compile_ok hc).1] at hb
  exact ⟨c, hc, hb, Query.binds_of_build hs (over_of_compile hc) hb, hdeclared⟩

/-- Nodes labelled `A` that are older than a parameter says. -/
def older : Plan :=
  ⟨.ofList [("n", .node ["A"])], .ofList [("age", ⟨.int 30, false⟩)],
    [.matching ⟨⟨"n", true⟩, []⟩ false (some (.compare .gt (.property "n" "age") (.param "age"))),
      .result ⟨some "n", [], none, none, none⟩]⟩

/-- What the names of `older` stand for. -/
def olderScope : Scope :=
  ⟨[("n", .node ⟨⟨⟨0⟩, 0⟩, ["A"]⟩)], [("age", ⟨⟨⟨0⟩, 1⟩, .int 30, false⟩)]⟩

theorem older_declare : declare older ⟨0⟩ = .ok (olderScope, ⟨⟨0⟩, 2⟩) := by
  simp [declare, older, Table.ofList, Table.insert, Table.put, Table.sorted, Table.empty,
    Table.contains]
  exact ⟨rfl, rfl⟩

/-- What is built from `older`. -/
def olderBuilt : Built :=
  ⟨"MATCH (this:\x60A\x60)\nWHERE this.age > $param0\nRETURN this", [("param0", .int 30)]⟩

theorem older_outcome : older.outcome .default = .ok olderBuilt := by
  rw [outcome, compile, older_declare]
  simp [older, compileStatements, compileStatement, compileCondition, compileTerm, Bind.bind,
    Except.bind, Statement.isResult, pure, Except.pure]
  rfl

theorem readableStems_default : Settings.default.ReadableStems := by
  refine ⟨by decide, ?_, ?_⟩ <;> exact inert_of_isPlain (by decide)

theorem binds_of_readableStems_older :
    Settings.default.ReadableStems
    ∧ Query.olderBuilt.Binds Query.older (Query.older.buildIn (.fresh ⟨0⟩ .default)).2.called
    ∧ List.Forall₂ (fun name entry => ∃ decl, older.params.get? name = some decl
        ∧ decl.value = entry.2) older.usedParams.eraseDups olderBuilt.params := by
  obtain ⟨hquery, hplan⟩ := binds_of_readableStems readableStems_default
  obtain ⟨_, _, _, _, hdeclared⟩ := hplan older olderBuilt older_outcome
  exact ⟨readableStems_default, hquery _ _ _ Query.older_over Query.older_build, hdeclared⟩

/-- A node, and how many of its answers to skip. -/
def skipping : Query :=
  ⟨[.matching false ⟨.bound ⟨⟨⟨0⟩, 0⟩, []⟩, []⟩ none, .skip ⟨⟨⟨0⟩, 1⟩, .int 5, false⟩]⟩

/-- What becomes of it when the node has this alias. -/
def skipped (name : String) : Built :=
  ⟨"MATCH (" ++ name ++ ")\nSKIP $param0", [("param0", .int 5)]⟩

/-- Plain parameter names are not enough. An alias that holds their sign is read as a parameter, and
one that holds a quote hides parameters. -/
theorem unreadable_aliases_unbound :
    Name.isPlain "param" ∧ skipping.Over ⟨0⟩
    ∧ skipping.build ⟨0⟩ ⟨"$x", "var", "param", 32⟩ = .ok (skipped "$x")
    ∧ skipping.build ⟨0⟩ ⟨"\x60", "var", "param", 32⟩ = .ok (skipped "\x60")
    ∧ paramNamesOf (skipped "$x").text = ["x", "param0"]
    ∧ paramNamesOf (skipped "\x60").text = []
    ∧ ∀ called, ¬ (skipped "$x").Binds skipping called
        ∧ ¬ (skipped "\x60").Binds skipping called := by
  have hsign : paramNamesOf (skipped "$x").text = ["x", "param0"] := rfl
  have hquote : paramNamesOf (skipped "\x60").text = [] := rfl
  refine ⟨by decide, ⟨[.node [], .param (.int 5)], fun v hv => hv⟩, rfl, rfl, hsign, hquote,
    fun called => ⟨fun h => ?_, fun h => ?_⟩⟩
  · have hnames := h.names
    rw [hsign] at hnames
    exact absurd hnames (by decide)
  · have hnames := h.names
    rw [hquote] at hnames
    exact absurd hnames (by decide)

end Plan

end GraphQuery
