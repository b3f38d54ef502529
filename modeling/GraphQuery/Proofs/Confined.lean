import GraphQuery.Proofs.BoundPlans
import GraphQuery.Proofs.Walks

/-!
# References stay with their arena

A name is found by the number of a reference alone. Numbers of different arenas overlap, so a
reference from elsewhere that went through to the names would be written under the name of a
stranger. What keeps them apart is that each lookup asks for the arena first.

A build over its own arena therefore never meets a foreign reference, and a build that has to visit
one never ends in a text, whatever it has named before. The plans that compile are on the safe side:
the arena of a compiled plan has handed out all that its query refers to, also the relationships
that are written without an alias and never looked up.
-/

namespace GraphQuery

/-! ## What an arena has handed out -/

namespace Arena

variable (a : Arena)

theorem after_append (rs rs' : List Handout) :
    a.after (rs ++ rs') = (a.after rs).after rs' := by
  induction rs generalizing a with
  | nil => rfl
  | cons handout rest ih => exact ih _

theorem after_size (rs : List Handout) : (a.after rs).size = a.size + rs.length := by
  induction rs generalizing a with
  | nil => rfl
  | cons handout rest ih =>
    rw [after, ih, issue_grow, List.length_cons]
    show a.size + 1 + rest.length = a.size + (rest.length + 1)
    omega

theorem length_issueAll (rs : List Handout) : (a.issueAll rs).length = rs.length := by
  induction rs generalizing a with
  | nil => rfl
  | cons handout rest ih => exact congrArg (· + 1) (ih _)

end Arena

/-- The number of a reference is the place at which it was handed out. -/
theorem getElem?_issuedBy {arena : ArenaId} {rs : List Handout} {v : Visit}
    (h : v ∈ issuedBy arena rs) :
    (issuedBy arena rs)[v.id.index]? = some v ∧ v.id.index < rs.length := by
  obtain ⟨k, hk⟩ := List.getElem?_of_mem h
  have hindex : v.id.index = k := by
    rw [Arena.id_of_getElem?_issueAll _ hk]
    exact Nat.zero_add k
  have hlt : k < (issuedBy arena rs).length := (List.getElem?_eq_some_iff.mp hk).1
  rw [issuedBy, Arena.length_issueAll] at hlt
  rw [hindex]
  exact ⟨hk, hlt⟩

/-! ## Foreign references in a build -/

namespace Query

variable {q : Query} {n : Naming}

/-- The reference that a build rejects as foreign is one of its query. -/
theorem visit_of_buildIn {id : RefId} (h : (q.buildIn n).1 = .error (.foreign id)) :
    ∃ v ∈ q.visits, v.id = id ∧ id.arena ≠ n.arena := by
  have hvisit := visit_of_foreign (buildIn_eq_error_iff.mp h)
  rwa [visitsOf_steps] at hvisit

/-- A build that ends in a text has visited references of its own arena only. -/
theorem arena_of_buildIn {b : Built} (h : (q.buildIn n).1 = .ok b) :
    ∀ v ∈ q.visits, v.id.arena = n.arena := by
  unfold buildIn at h
  rcases hr : q.render.run n with ⟨_ | text, n'⟩ <;> rw [hr] at h
  · cases h
  · exact (q.render_follows.ok hr).2.1

/-- Over its own arena a build ends in a text or in a defect of the query. -/
theorem buildIn_of_local (h : ∀ v ∈ q.visits, v.id.arena = n.arena) :
    (∃ b, (q.buildIn n).1 = .ok b) ∨ ∃ why, (q.buildIn n).1 = .error (.defect why) := by
  rcases hb : (q.buildIn n).1 with (why | id) | b
  · exact Or.inr ⟨why, rfl⟩
  · obtain ⟨v, hv, rfl, hforeign⟩ := visit_of_buildIn hb
    exact absurd (h v hv) hforeign
  · exact Or.inl ⟨b, rfl⟩

/-- With a foreign reference to visit, a build ends in a defect that comes first, or rejects such a
reference. -/
theorem buildIn_of_foreign {v : Visit} (hv : v ∈ q.visits) (ha : v.id.arena ≠ n.arena) :
    (∃ why, (q.buildIn n).1 = .error (.defect why))
      ∨ ∃ w ∈ q.visits, w.id.arena ≠ n.arena ∧ (q.buildIn n).1 = .error (.foreign w.id) := by
  rcases hb : (q.buildIn n).1 with (why | id) | b
  · exact Or.inl ⟨why, rfl⟩
  · obtain ⟨w, hw, rfl, hforeign⟩ := visit_of_buildIn hb
    exact Or.inr ⟨w, hw, hforeign, rfl⟩
  · exact absurd (arena_of_buildIn hb v hv) ha

end Query

/-! ## All that a query refers to -/

mutual

/-- The relationships of all patterns, with an alias or without. -/
def Predicate.relationships : Predicate → List RelationshipRef
  | .compare _ _ _ => []
  | .isNull _ => []
  | .isNotNull _ => []
  | .group _ operands => Predicate.operandRelationships operands
  | .not operand => operand.relationships
  | .existsIn body => Clause.bodyRelationships body

/-- The relationships in the operands of a group. -/
def Predicate.operandRelationships : List Predicate → List RelationshipRef
  | [] => []
  | operand :: rest => operand.relationships ++ Predicate.operandRelationships rest

/-- The relationships of a clause: those of its pattern, then those of its condition. -/
def Clause.relationships : Clause → List RelationshipRef
  | .matching _ pattern none => pattern.hops.map Hop.relationship
  | .matching _ pattern (some condition) =>
    pattern.hops.map Hop.relationship ++ condition.relationships
  | .call body => Clause.bodyRelationships body
  | .create _ _ => []
  | .withAll => []
  | .withItems _ => []
  | .set _ _ => []
  | .orderBy _ => []
  | .skip _ => []
  | .limit _ => []
  | .result _ => []

/-- The relationships of all clauses of a body. -/
def Clause.bodyRelationships : List Clause → List RelationshipRef
  | [] => []
  | clause :: rest => clause.relationships ++ Clause.bodyRelationships rest

end

/-- All references and parameters of a query: what a build visits, and the relationships that it
only writes the type of. -/
def Query.references (q : Query) : List Visit :=
  q.visits ++ (Clause.bodyRelationships q.clauses).map fun r => .ref r.reference

namespace Plan

variable {s : Scope}

/-- The relationships come from the scope. -/
def Scope.Provides (s : Scope) (rs : List RelationshipRef) : Prop :=
  ∀ r ∈ rs, ∃ e ∈ s.entities, e.2.reference = r.reference

namespace Scope.Provides

variable {rs rs' : List RelationshipRef}

theorem nil (s : Scope) : s.Provides [] :=
  fun _ h => absurd h List.not_mem_nil

theorem append (h : s.Provides rs) (h' : s.Provides rs') : s.Provides (rs ++ rs') :=
  List.forall_mem_append.mpr ⟨h, h'⟩

end Scope.Provides

theorem compileHops_provides {uses : List HopUse} {hops : List Hop}
    (h : uses.mapM (compileHop s) = .ok hops) : s.Provides (hops.map Hop.relationship) := by
  induction uses generalizing hops with
  | nil =>
    obtain rfl := Except.ok.inj h
    exact .nil s
  | cons use rest ih =>
    rw [List.mapM_cons] at h
    obtain ⟨hop, hcompiled, h⟩ := bind_eq_ok h
    obtain ⟨others, hothers, h⟩ := bind_eq_ok h
    obtain rfl := Except.ok.inj h
    -- the relationship is looked up first, whether it has an alias or not
    obtain ⟨r, hr, hcompiled⟩ := bind_eq_ok hcompiled
    obtain ⟨target, _, hcompiled⟩ := bind_eq_ok hcompiled
    obtain rfl := Except.ok.inj hcompiled
    exact List.forall_mem_cons.mpr ⟨Scope.mem_of_relationship hr, ih hothers⟩

theorem compilePattern_provides {use : PatternUse} {p : Pattern}
    (h : compilePattern s use = .ok p) : s.Provides (p.hops.map Hop.relationship) := by
  obtain ⟨start, _, h⟩ := bind_eq_ok h
  obtain ⟨hops, hhops, h⟩ := bind_eq_ok h
  obtain rfl := Except.ok.inj h
  exact compileHops_provides hhops

mutual

theorem compileCondition_provides (c : Condition) {p : Predicate}
    (h : compileCondition s c = .ok p) : s.Provides p.relationships := by
  match c, h with
  -- terms have no patterns in them
  | .compare operator lhs rhs, h =>
    obtain ⟨l, _, h⟩ := bind_eq_ok h
    obtain ⟨r, _, h⟩ := bind_eq_ok h
    obtain rfl := Except.ok.inj h
    exact .nil s
  | .isNull expr, h =>
    obtain ⟨e, _, h⟩ := bind_eq_ok h
    obtain rfl := Except.ok.inj h
    exact .nil s
  | .isNotNull expr, h =>
    obtain ⟨e, _, h⟩ := bind_eq_ok h
    obtain rfl := Except.ok.inj h
    exact .nil s
  | .group junction operands, h =>
    obtain ⟨ps, hps, h⟩ := bind_eq_ok h
    obtain rfl := Except.ok.inj h
    exact compileConditions_provides operands hps
  | .not operand, h =>
    obtain ⟨q, hq, h⟩ := bind_eq_ok h
    obtain rfl := Except.ok.inj h
    have hoperand := compileCondition_provides operand hq
    exact hoperand
  | .existsIn statements, h =>
    obtain ⟨body, hbody, h⟩ := bind_eq_ok h
    obtain rfl := Except.ok.inj h
    exact compileStatements_provides statements hbody

theorem compileConditions_provides (operands : List Condition) {ps : List Predicate}
    (h : compileConditions s operands = .ok ps) :
    s.Provides (Predicate.operandRelationships ps) := by
  match operands, h with
  | [], h =>
    obtain rfl := Except.ok.inj h
    exact .nil s
  | operand :: rest, h =>
    obtain ⟨p, hp, h⟩ := bind_eq_ok h
    obtain ⟨others, hothers, h⟩ := bind_eq_ok h
    obtain rfl := Except.ok.inj h
    exact (compileCondition_provides operand hp).append (compileConditions_provides rest hothers)

theorem compileStatement_provides (st : Statement) {c : Clause}
    (h : compileStatement s st = .ok c) : s.Provides c.relationships := by
  match st, h with
  | .matching pattern optional none, h =>
    obtain ⟨p, hp, h⟩ := bind_eq_ok h
    obtain rfl := Except.ok.inj h
    exact compilePattern_provides hp
  | .matching pattern optional (some condition), h =>
    obtain ⟨p, hp, h⟩ := bind_eq_ok h
    obtain ⟨c, hc, h⟩ := bind_eq_ok h
    obtain rfl := Except.ok.inj h
    exact (compilePattern_provides hp).append (compileCondition_provides condition hc)
  | .call statements, h =>
    obtain ⟨body, hbody, h⟩ := bind_eq_ok h
    obtain rfl := Except.ok.inj h
    exact compileStatements_provides statements hbody
  -- no other statement has a pattern with a relationship
  | .create _ _, h =>
    obtain ⟨n, _, h⟩ := bind_eq_ok h
    obtain ⟨es, _, h⟩ := bind_eq_ok h
    obtain rfl := Except.ok.inj h
    exact .nil s
  | .withAll, h =>
    obtain rfl := Except.ok.inj h
    exact .nil s
  | .withItems _, h =>
    obtain ⟨is, _, h⟩ := bind_eq_ok h
    obtain rfl := Except.ok.inj h
    exact .nil s
  | .set _ _, h =>
    obtain ⟨r, _, h⟩ := bind_eq_ok h
    obtain ⟨es, _, h⟩ := bind_eq_ok h
    obtain rfl := Except.ok.inj h
    exact .nil s
  | .orderBy _, h =>
    obtain ⟨is, _, h⟩ := bind_eq_ok h
    obtain rfl := Except.ok.inj h
    exact .nil s
  | .skip _, h =>
    obtain ⟨p, _, h⟩ := bind_eq_ok h
    obtain rfl := Except.ok.inj h
    exact .nil s
  | .limit _, h =>
    obtain ⟨p, _, h⟩ := bind_eq_ok h
    obtain rfl := Except.ok.inj h
    exact .nil s
  | .result _, h =>
    obtain ⟨r, _, h⟩ := bind_eq_ok h
    obtain rfl := Except.ok.inj h
    exact .nil s

theorem compileStatements_provides {index : Nat} (statements : List Statement)
    {cs : List Clause} (h : compileStatements s index statements = .ok cs) :
    s.Provides (Clause.bodyRelationships cs) := by
  match statements, h with
  | [], h =>
    obtain rfl := Except.ok.inj h
    exact .nil s
  | statement :: rest, h =>
    rw [compileStatements] at h
    split at h
    · cases h
    · obtain ⟨c, hc, h⟩ := bind_eq_ok h
      obtain ⟨others, hothers, h⟩ := bind_eq_ok h
      obtain rfl := Except.ok.inj h
      exact (compileStatement_provides statement hc).append
        (compileStatements_provides rest hothers)

end

/-! ## Compiled plans -/

variable {plan : Plan} {id : ArenaId} {c : Compiled}

/-- The arena of a plan has handed out its declarations and nothing else. -/
theorem arena_of_declare {a : Arena} (h : declare plan id = .ok (s, a)) :
    a = (Arena.empty id).after plan.handouts := by
  unfold declare at h
  simp only [] at h
  split at h
  · cases h
  · obtain ⟨_, rfl⟩ := Prod.mk.inj (Except.ok.inj h)
    rw [(declareParams_issued _ _).2.1, (declareEntities_issued _ _).2, handouts,
      Arena.after_append]

/-- All that a compiled plan refers to was handed out for its declarations. -/
theorem references_of_compile (h : plan.compile id = .ok c) :
    c.arena = (Arena.empty id).after plan.handouts
    ∧ ∀ v ∈ c.query.references, v ∈ issuedBy id plan.handouts := by
  obtain ⟨⟨s, a⟩, hdeclare, h⟩ := bind_eq_ok h
  obtain ⟨cs, hcs, h⟩ := bind_eq_ok h
  obtain rfl := Except.ok.inj h
  obtain ⟨_, hd⟩ := declare_declared hdeclare
  refine ⟨arena_of_declare hdeclare, List.forall_mem_append.mpr ⟨fun v hv => ?_, fun v hv => ?_⟩⟩
  · exact (compileStatements_resolves plan.statements hcs).issued hd hv
  · obtain ⟨r, hr, rfl⟩ := List.mem_map.mp hv
    obtain ⟨entry, hentry, hreference⟩ := compileStatements_provides plan.statements hcs r hr
    rw [← hreference]
    exact hd.entity_issued hentry

end Plan

/-- **References stay with their arena.** A build over its own arena never meets a foreign
reference. A foreign reference is never resolved to a name, not even where its number has one, and a
build that has to visit it ends in no text. All that a compiled plan refers to stands in the arena
of the plan under its number, with its kind, so that building it never meets a foreign reference
either. -/
theorem confined :
    (∀ (q : Query) (arena : ArenaId) (s : Settings), (∀ v ∈ q.visits, v.id.arena = arena) →
      (∃ b, q.build arena s = .ok b) ∨ ∃ why, q.build arena s = .error (.defect why))
    ∧ (∀ (q : Query) (n : Naming) (v : Visit), v ∈ q.visits → v.id.arena ≠ n.arena →
      n.lookUp v = (.error (.foreign v.id), n)
      ∧ ((∃ why, (q.buildIn n).1 = .error (.defect why))
        ∨ ∃ w ∈ q.visits, w.id.arena ≠ n.arena ∧ (q.buildIn n).1 = .error (.foreign w.id)))
    ∧ ∀ (plan : Plan) (id : ArenaId) (c : Plan.Compiled), plan.compile id = .ok c →
      (∀ v ∈ c.query.references, v.id.arena = c.arena.id ∧ v.id.index < c.arena.size
        ∧ (issuedBy c.arena.id plan.handouts)[v.id.index]? = some v)
      ∧ ∀ s, (∃ b, c.build s = .ok b) ∨ ∃ why, c.build s = .error (.defect why) := by
  refine ⟨fun q arena s h => Query.buildIn_of_local (n := .fresh arena s) h,
    fun q n v hv ha => ⟨Naming.lookUp_foreign ha, Query.buildIn_of_foreign hv ha⟩, ?_⟩
  intro plan id c h
  -- the compiled query refers to what was handed out for the declarations
  obtain ⟨harena, hissued⟩ := Plan.references_of_compile h
  have hid : c.arena.id = id := (Plan.compile_ok h).1
  have hplace : ∀ v ∈ c.query.references, v.id.arena = c.arena.id ∧ v.id.index < c.arena.size
      ∧ (issuedBy c.arena.id plan.handouts)[v.id.index]? = some v := by
    intro v hv
    obtain ⟨hget, hlt⟩ := getElem?_issuedBy (hissued v hv)
    rw [hid]
    refine ⟨Arena.arena_of_mem_issueAll _ (hissued v hv), ?_, hget⟩
    rw [harena, Arena.after_size]
    exact Nat.lt_of_lt_of_le hlt (Nat.le_add_left _ _)
  refine ⟨hplace, fun s => Query.buildIn_of_local (n := .fresh c.arena.id s) fun v hv => ?_⟩
  exact (hplace v (List.mem_append_left _ hv)).1

/-- Nodes that know somebody, along a relationship without an alias. -/
def Plan.knowing : Plan :=
  ⟨.ofList [("a", .node ["A"]), ("k", .relationship (some "KNOWS"))], .empty,
    [.matching ⟨⟨"a", true⟩, [⟨"k", .outgoing, false, ⟨"a", false⟩⟩]⟩ false none,
      .result ⟨some "a", [], none, none, none⟩]⟩

/-- Its query, over the node and the relationship that an arena hands out first. -/
def Plan.knowingQuery : Query :=
  let (node, a) := (Arena.empty ⟨0⟩).addNode ["A"]
  let (relationship, _) := a.addRelationship (some "KNOWS")
  ⟨[.matching false ⟨.declared node, [⟨relationship, .outgoing, false, .bound node⟩]⟩ none,
    .result ⟨.entity node.reference [], none⟩]⟩

theorem Plan.knowing_compile : knowing.compile ⟨0⟩ = .ok ⟨⟨⟨0⟩, 2⟩, knowingQuery⟩ := by
  have hdeclare : declare knowing ⟨0⟩
      = .ok (⟨[("a", .node ⟨⟨⟨0⟩, 0⟩, ["A"]⟩), ("k", .relationship ⟨⟨⟨0⟩, 1⟩, some "KNOWS"⟩)], []⟩,
        ⟨⟨0⟩, 2⟩) := by
    have hsorted : knowing.entities.sorted
        = [("a", .node ["A"]), ("k", .relationship (some "KNOWS"))] :=
      List.mergeSort_of_pairwise (by decide)
    have hparams : knowing.params.sorted = [] := List.mergeSort_of_pairwise .nil
    rw [declare, hsorted, hparams]
    rfl
  rw [compile, hdeclare]
  rfl

/-- A naming of another arena that has given a name to the first number. -/
def Naming.elsewhere : Naming :=
  (fresh ⟨1⟩ .default).visit (.ref ⟨⟨⟨1⟩, 0⟩, .node⟩)

theorem confined_knowing :
    Naming.elsewhere.nameAt 0 = some "this"
    ∧ (Visit.ref ⟨⟨⟨0⟩, 0⟩, .node⟩ ∈ Query.older.visits
      ∧ Naming.elsewhere.lookUp (.ref ⟨⟨⟨0⟩, 0⟩, .node⟩)
        = (.error (.foreign ⟨⟨0⟩, 0⟩), Naming.elsewhere))
    ∧ ((∀ v ∈ Query.older.visits, v.id.arena = ⟨0⟩)
      ∧ ((∃ b, Query.older.build ⟨0⟩ .default = .ok b)
        ∨ ∃ why, Query.older.build ⟨0⟩ .default = .error (.defect why)))
    ∧ Plan.knowing.compile ⟨0⟩ = .ok ⟨⟨⟨0⟩, 2⟩, Plan.knowingQuery⟩
    ∧ Visit.ref ⟨⟨⟨0⟩, 1⟩, .relationship⟩ ∈ Plan.knowingQuery.references
    ∧ (issuedBy ⟨0⟩ Plan.knowing.handouts)[1]? = some (.ref ⟨⟨⟨0⟩, 1⟩, .relationship⟩) := by
  obtain ⟨hlocal, hforeign, hplan⟩ := confined
  have holder : ∀ v ∈ Query.older.visits, v.id.arena = ⟨0⟩ := fun v hv =>
    Query.older_over.arena_eq hv
  have hvisit : Visit.ref ⟨⟨⟨0⟩, 0⟩, .node⟩ ∈ Query.older.visits := List.mem_cons_self
  have hreference : Visit.ref ⟨⟨⟨0⟩, 1⟩, .relationship⟩ ∈ Plan.knowingQuery.references :=
    List.mem_append_right _ List.mem_cons_self
  exact ⟨rfl, ⟨hvisit, (hforeign _ Naming.elsewhere _ hvisit (by decide)).1⟩,
    ⟨holder, hlocal _ _ _ holder⟩, Plan.knowing_compile, hreference,
    ((hplan _ _ _ Plan.knowing_compile).1 _ hreference).2.2⟩

end GraphQuery
