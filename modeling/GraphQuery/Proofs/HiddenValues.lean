import GraphQuery.Proofs.BoundPlans
import GraphQuery.Proofs.Carries
import GraphQuery.Proofs.SameBuild

/-!
# Values stay out of the text

Two plans may differ in the values of their parameters and in nothing else. They are then one plan
once the values are forgotten, and to forget the values before the outcome or after it makes no
difference: neither the compilation nor the build ever looks at one. So both plans fail alike, or
both give the same text, and each value comes out where it was put in.

The same holds of two queries with the same references.
-/

namespace GraphQuery

/-- Related lists are related member by member. -/
theorem forall₂_mem {α β : Type} {R : α → β → Prop} {as : List α} {bs : List β}
    (h : List.Forall₂ R as bs) : List.Forall₂ (fun a b => a ∈ as ∧ b ∈ bs ∧ R a b) as bs := by
  have hright := (List.forall₂_and_left bs as).mpr ⟨fun b hb => hb, h.flip⟩
  exact (List.forall₂_and_left as bs).mpr ⟨fun a ha => ha, hright.flip⟩

/-- Outcomes that are equal up to `g`. -/
theorem cases_of_map_eq {ε α β : Type} {g : α → β} {m m' : Except ε α} (h : m.map g = m'.map g) :
    (∃ why, m = .error why ∧ m' = .error why)
    ∨ ∃ a a', m = .ok a ∧ m' = .ok a' ∧ g a = g a' := by
  cases m with
  | error why =>
    cases m' with
    | error why' => exact Or.inl ⟨why, rfl, congrArg _ (Except.error.inj h).symm⟩
    | ok a' => cases h
  | ok a =>
    cases m' with
    | error why' => cases h
    | ok a' => exact Or.inr ⟨a, a', rfl, rfl, Except.ok.inj h⟩

/-- Keeps every reference and no value. -/
def forgetting : Relabelling :=
  ⟨id, fun _ => .null⟩

/-- The query with nothing bound to its parameters. -/
def Query.withoutValues (q : Query) : Query :=
  q.relabel forgetting

/-- The text, and a table that has only names. -/
def Built.withoutValues (b : Built) : Built :=
  b.mapValues forgetting.value

theorem Built.same_of_withoutValues {b b' : Built} (h : b.withoutValues = b'.withoutValues) :
    b'.text = b.text ∧ b'.params.map Prod.fst = b.params.map Prod.fst := by
  have hnames : ∀ b : Built, b.withoutValues.params.map Prod.fst = b.params.map Prod.fst := by
    intro b
    rw [withoutValues, mapValues, List.map_map]
    rfl
  have htext := congrArg Built.text h.symm
  exact ⟨htext, by rw [← hnames b', ← hnames b, h]⟩

theorem forgetting_faithful (arena : ArenaId) (vs : List Visit) :
    forgetting.Faithful arena vs :=
  ⟨fun _ _ => Iff.rfl, fun _ _ _ _ h => h⟩

theorem Fault.relabel_forgetting (fault : Fault) : fault.relabel forgetting = fault := by
  cases fault <;> rfl

namespace Query

variable {q q' : Query} {arena : ArenaId} {s : Settings} {b b' : Built}

/-- Forgetting the values before a build is forgetting them after it. -/
theorem build_withoutValues (q : Query) (arena : ArenaId) (s : Settings) :
    q.withoutValues.build arena s = (q.build arena s).map Built.withoutValues := by
  rw [withoutValues, build_relabel (forgetting_faithful arena q.visits)]
  cases q.build arena s with
  | error fault => exact congrArg _ fault.relabel_forgetting
  | ok b => rfl

/-- What comes of two queries that differ in values only: the same failure, or two outcomes that
differ in values only. -/
theorem build_cases (h : q.withoutValues = q'.withoutValues) (arena : ArenaId) (s : Settings) :
    (∃ fault, q.build arena s = .error fault ∧ q'.build arena s = .error fault)
    ∨ ∃ b b', q.build arena s = .ok b ∧ q'.build arena s = .ok b'
        ∧ b.withoutValues = b'.withoutValues := by
  have hsame : (q.build arena s).map Built.withoutValues
      = (q'.build arena s).map Built.withoutValues := by
    rw [← build_withoutValues, h, build_withoutValues]
  exact cases_of_map_eq hsame

/-- What is visited first is called what the list of first visits says. -/
theorem called_of_first (hb : q.build arena s = .ok b) {v : Visit}
    (hv : v ∈ firstVisits q.visits) :
    (q.buildIn (.fresh arena s)).2.called v = Naming.namesOf s (firstVisits q.visits) v := by
  obtain ⟨hn, _, harena, _⟩ := build_ok hb
  have hname := Naming.nameAt_ofVisits (s := s) (d := 0)
    (fun w hw => harena w (mem_of_mem_firstVisits hw)) (nodup_firstVisits q.visits) hv
  rw [hn, Naming.visitAll_fresh harena, Naming.called, hname]
  rfl

/-- The names and the values of a table, by the parameters that are visited first. -/
theorem params_eq_called (hb : q.build arena s = .ok b) :
    b.params = (paramsOf (firstVisits q.visits)).map fun p =>
      ((q.buildIn (.fresh arena s)).2.called (.param p), p.value) := by
  rw [params_of_build hb]
  exact List.map_congr_left fun p hp => by rw [called_of_first hb (Naming.mem_paramsOf.mp hp)]

/-- One entry in the tables of two queries: it has one name, which both give to the same parameter,
and in each table it has the value of that query. -/
structure SameEntry (q q' : Query) (called called' : Names) (entry entry' : String × Json) :
    Prop where
  /-- The name does not depend on the values. -/
  name : entry'.1 = entry.1
  /-- It was given to one parameter, which has a value in each query. -/
  param : ∃ p p', .param p ∈ q.visits ∧ .param p' ∈ q'.visits
    ∧ p'.id = p.id ∧ p'.isPoint = p.isPoint
    ∧ entry = (called (.param p), p.value) ∧ entry' = (called' (.param p'), p'.value)

/-- The first parameters of both queries are the same, one by one. -/
theorem params_forall₂ (h : q.withoutValues = q'.withoutValues) :
    List.Forall₂ (fun p p' : Param => p'.id = p.id ∧ p'.isPoint = p.isPoint)
      (paramsOf (firstVisits q.visits)) (paramsOf (firstVisits q'.visits)) := by
  have hfirst : ∀ q : Query, paramsOf (firstVisits q.withoutValues.visits)
      = (paramsOf (firstVisits q.visits)).map (Param.relabel forgetting) := by
    intro q
    rw [withoutValues, visits_relabel,
      firstVisits_relabel (forgetting_faithful (⟨0⟩ : ArenaId) q.visits), paramsOf_relabel]
  have hsame := hfirst q
  rw [h, hfirst q', ← List.forall₂_eq_eq_eq, List.forall₂_map_left_iff,
    List.forall₂_map_right_iff] at hsame
  refine hsame.flip.imp fun p p' heq => ?_
  have hid := congrArg Param.id heq
  have hpoint := congrArg Param.isPoint heq
  exact ⟨hid, hpoint⟩

/-- Parameters are named in the order of their identities, so the names are the same. -/
theorem sameEntries (h : q.withoutValues = q'.withoutValues) (hb : q.build arena s = .ok b)
    (hb' : q'.build arena s = .ok b') :
    List.Forall₂ (SameEntry q q' (q.buildIn (.fresh arena s)).2.called
      (q'.buildIn (.fresh arena s)).2.called) b.params b'.params := by
  have hparams := params_forall₂ h
  have hids : (paramsOf (firstVisits q'.visits)).map Param.id
      = (paramsOf (firstVisits q.visits)).map Param.id := by
    rw [← List.forall₂_eq_eq_eq, List.forall₂_map_left_iff, List.forall₂_map_right_iff]
    exact hparams.flip.imp fun _ _ hp => hp.1
  have hvisit : ∀ {q : Query} {p : Param}, p ∈ paramsOf (firstVisits q.visits) →
      .param p ∈ q.visits := fun hp =>
    mem_of_mem_firstVisits (Naming.mem_paramsOf.mp hp)
  rw [params_eq_called hb, params_eq_called hb', List.forall₂_map_left_iff,
    List.forall₂_map_right_iff]
  refine (forall₂_mem hparams).imp fun p p' ⟨hp, hp', hid, hpoint⟩ => ⟨?_, p, p', hvisit hp,
    hvisit hp', hid, hpoint, rfl, rfl⟩
  rw [called_of_first hb (Naming.mem_paramsOf.mp hp),
    called_of_first hb' (Naming.mem_paramsOf.mp hp'), Naming.namesOf_param, Naming.namesOf_param,
    hids, hid]

end Query

namespace Plan

/-! ## Plans -/

/-- The same entries under the same names, each changed by `g`. -/
def Table.map {α β : Type} (g : α → β) (t : Table α) : Table β where
  entries := t.entries.map fun entry => (entry.1, g entry.2)
  nodup := by
    rw [List.map_map]
    exact t.nodup

theorem Table.sorted_map {α β : Type} (g : α → β) (t : Table α) :
    (t.map g).sorted = t.sorted.map fun entry => (entry.1, g entry.2) := by
  have hmap := List.map_mergeSort (l := t.entries) (f := fun entry => (entry.1, g entry.2))
    (r := fun a b => a.1 ≤ b.1) (s := fun a b => a.1 ≤ b.1) fun _ _ _ _ => rfl
  exact hmap.symm

/-- Whether a parameter is a point counts, which point it is does not. -/
def ParamDecl.withoutValue (decl : ParamDecl) : ParamDecl :=
  ⟨.null, decl.isPoint⟩

end Plan

/-- The plan with nothing bound to its parameters. -/
def Plan.withoutValues (plan : Plan) : Plan :=
  { plan with params := plan.params.map Plan.ParamDecl.withoutValue }

namespace Plan

/-- The scope with nothing bound to its parameters. -/
def Scope.withoutValues (s : Scope) : Scope :=
  ⟨s.entities, s.params.map fun entry => (entry.1, entry.2.relabel forgetting)⟩

theorem declareParams_withoutValue (decls : List (String × ParamDecl)) (a : Arena) :
    declareParams (decls.map fun entry => (entry.1, entry.2.withoutValue)) a
      = ((declareParams decls a).1.map fun entry => (entry.1, entry.2.relabel forgetting),
        (declareParams decls a).2) := by
  induction decls generalizing a with
  | nil => rfl
  | cons entry rest ih =>
    obtain ⟨name, value, _ | _⟩ := entry
    all_goals
      have hparams := congrArg Prod.fst (ih a.grow)
      have harena := congrArg Prod.snd (ih a.grow)
      exact Prod.ext (congrArg (_ :: ·) hparams) harena

theorem declare_withoutValues (plan : Plan) (id : ArenaId) :
    declare plan.withoutValues id
      = (declare plan id).map fun declared => (declared.1.withoutValues, declared.2) := by
  have hfind : ((plan.params.sorted.map fun entry => (entry.1, entry.2.withoutValue)).find?
        fun entry => plan.entities.contains entry.1)
      = (plan.params.sorted.find? fun entry => plan.entities.contains entry.1).map
        fun entry => (entry.1, entry.2.withoutValue) :=
    List.find?_map
  unfold declare withoutValues
  simp only [Table.sorted_map, hfind, declareParams_withoutValue]
  cases plan.params.sorted.find? fun entry => plan.entities.contains entry.1 with
  | some entry => rfl
  | none => rfl

/-- Both scopes know the same names. -/
theorem Scope.matches_withoutValues (s : Scope) :
    Scope.Matches True id forgetting s s.withoutValues := by
  have hentity : ∀ e : Entity, e.relabel forgetting = e := by
    rintro (_ | _ | _) <;> rfl
  have hfind : ∀ name, (s.withoutValues.params.find? fun entry => entry.1 = name)
      = (s.params.find? fun entry => entry.1 = name).map
        fun entry => (entry.1, entry.2.relabel forgetting) := fun name => List.find?_map
  constructor
  · -- entities have no values to forget
    intro name e he
    rw [hentity]
    exact he
  · -- parameters are found under the same names
    intro name p hp
    unfold Scope.param at hp ⊢
    rw [id, hfind]
    cases hf : s.params.find? fun entry => entry.1 = name with
    | none =>
      rw [hf] at hp
      cases hp
    | some entry =>
      rw [hf] at hp
      rw [Option.map_some, ← Except.ok.inj hp]
  · -- what is missing is missed in both
    refine fun _ => ⟨fun _ => rfl, fun _ he => he, fun name why hwhy => ?_⟩
    unfold Scope.param at hwhy ⊢
    rw [hfind]
    cases hf : s.params.find? fun entry => entry.1 = name with
    | none =>
      rw [hf] at hwhy
      exact hwhy
    | some entry =>
      rw [hf] at hwhy
      cases hwhy

/-- The compiled plan with nothing bound to its parameters. -/
def Compiled.withoutValues (c : Compiled) : Compiled :=
  ⟨c.arena, c.query.withoutValues⟩

/-- Compiling looks at no value. -/
theorem compile_withoutValues (plan : Plan) (id : ArenaId) :
    plan.withoutValues.compile id = (plan.compile id).map Compiled.withoutValues := by
  unfold compile
  rw [declare_withoutValues]
  cases declare plan id with
  | error why => rfl
  | ok declared =>
    obtain ⟨s, a⟩ := declared
    -- to forget values is a relabelling that renames nothing
    have hcarries := compileStatements_carries s.matches_withoutValues 0
      (Statement.RenamesAll.refl plan.statements)
    change (compileStatements s.withoutValues 0 plan.statements >>= fun clauses =>
        Except.ok (⟨a, ⟨clauses⟩⟩ : Compiled))
      = (compileStatements s 0 plan.statements >>= fun clauses =>
        Except.ok (⟨a, ⟨clauses⟩⟩ : Compiled)).map Compiled.withoutValues
    cases hc : compileStatements s 0 plan.statements with
    | error why =>
      rw [hcarries.error trivial why hc]
      rfl
    | ok clauses =>
      rw [hcarries.ok clauses hc]
      rfl

/-- Forgetting the values of a plan is forgetting those of its table. -/
theorem outcome_withoutValues (plan : Plan) (st : Settings) :
    plan.withoutValues.outcome st = (plan.outcome st).map Built.withoutValues := by
  unfold outcome
  rw [compile_withoutValues]
  cases plan.compile ⟨0⟩ with
  | error why => rfl
  | ok c =>
    have hbuild := c.query.build_withoutValues c.arena.id st
    change (c.query.withoutValues.build c.arena.id st).mapError Failure.build
      = ((c.query.build c.arena.id st).mapError Failure.build).map Built.withoutValues
    rw [hbuild]
    cases c.query.build c.arena.id st <;> rfl

section TwoPlans

variable {plan plan' : Plan} {st : Settings} {b b' : Built}

/-- What comes of two plans that differ in values only. -/
theorem outcome_cases (h : plan.withoutValues = plan'.withoutValues) (st : Settings) :
    (∃ why, plan.outcome st = .error why ∧ plan'.outcome st = .error why)
    ∨ ∃ b b', plan.outcome st = .ok b ∧ plan'.outcome st = .ok b'
        ∧ b.withoutValues = b'.withoutValues := by
  have hsame : (plan.outcome st).map Built.withoutValues
      = (plan'.outcome st).map Built.withoutValues := by
    rw [← outcome_withoutValues, h, outcome_withoutValues]
  exact cases_of_map_eq hsame

/-- Each entry of the table has the value that the plan declares for the parameter. -/
theorem declared_of_outcome (h : plan.outcome st = .ok b) :
    List.Forall₂ (fun name entry => ∃ decl, plan.params.get? name = some decl
        ∧ decl.value = entry.2) plan.usedParams.eraseDups b.params := by
  obtain ⟨c, hc, hb⟩ := compile_of_outcome h
  exact declared_of_build hc hb

end TwoPlans

/-- **Values never influence the text.** Two plans that differ in the values of their parameters
and in nothing else fail alike, or give the same text and tables with the same names, where each
plan's value stands in the place of the same declared parameter. The same holds of two queries
whose parameters differ in their values. -/
theorem text_independent_of_values (st : Settings) :
    (∀ plan plan' : Plan, plan.withoutValues = plan'.withoutValues →
      (∃ why, plan.outcome st = .error why ∧ plan'.outcome st = .error why)
      ∨ ∃ b b', plan.outcome st = .ok b ∧ plan'.outcome st = .ok b'
          ∧ b'.text = b.text ∧ b'.params.map Prod.fst = b.params.map Prod.fst
          ∧ List.Forall₂ (fun name entry => ∃ decl, plan.params.get? name = some decl
              ∧ decl.value = entry.2) plan.usedParams.eraseDups b.params
          ∧ List.Forall₂ (fun name entry => ∃ decl, plan'.params.get? name = some decl
              ∧ decl.value = entry.2) plan.usedParams.eraseDups b'.params)
    ∧ ∀ (q q' : Query) (arena : ArenaId), q.withoutValues = q'.withoutValues →
      (∃ fault, q.build arena st = .error fault ∧ q'.build arena st = .error fault)
      ∨ ∃ b b', q.build arena st = .ok b ∧ q'.build arena st = .ok b' ∧ b'.text = b.text
          ∧ List.Forall₂ (Query.SameEntry q q' (q.buildIn (.fresh arena st)).2.called
              (q'.buildIn (.fresh arena st)).2.called) b.params b'.params := by
  constructor
  · -- plans: the statements are the same, so they use the same parameters
    intro plan plan' h
    rcases outcome_cases h st with hfail | ⟨b, b', hb, hb', hsame⟩
    · exact Or.inl hfail
    · obtain ⟨htext, hnames⟩ := Built.same_of_withoutValues hsame
      have hstatements := congrArg Plan.statements h
      change plan.statements = plan'.statements at hstatements
      have hdeclared' := declared_of_outcome hb'
      rw [usedParams, ← hstatements, ← usedParams] at hdeclared'
      exact Or.inr ⟨b, b', hb, hb', htext, hnames, declared_of_outcome hb, hdeclared'⟩
  · -- queries: the same first visits, each with the value it has in its query
    intro q q' arena h
    rcases Query.build_cases h arena st with hfail | ⟨b, b', hb, hb', hsame⟩
    · exact Or.inl hfail
    · exact Or.inr ⟨b, b', hb, hb', (Built.same_of_withoutValues hsame).1,
        Query.sameEntries h hb hb'⟩

/-- The plan with another age. -/
def olderThan (age : Json) : Plan :=
  { older with params := .ofList [("age", ⟨age, false⟩)] }

/-- A value that would end the query if it were written into it. -/
def endingValue : Json :=
  .str "0\nRETURN \x60$param0"

theorem text_independent_of_values_older :
    older.withoutValues = (olderThan endingValue).withoutValues
    ∧ (∃ b', (olderThan endingValue).outcome .default = .ok b' ∧ b'.text = olderBuilt.text
        ∧ List.Forall₂ (fun name entry => ∃ decl,
            (olderThan endingValue).params.get? name = some decl ∧ decl.value = entry.2)
          older.usedParams.eraseDups b'.params)
    ∧ Query.older.withoutValues = (Query.older.relabel ⟨id, fun _ => endingValue⟩).withoutValues
    ∧ ∃ b', (Query.older.relabel ⟨id, fun _ => endingValue⟩).build ⟨0⟩ .default = .ok b'
        ∧ b'.text = Query.olderBuilt.text := by
  obtain ⟨hplans, hqueries⟩ := text_independent_of_values .default
  have hplan : older.withoutValues = (olderThan endingValue).withoutValues := rfl
  have hquery : Query.older.withoutValues
      = (Query.older.relabel ⟨id, fun _ => endingValue⟩).withoutValues := rfl
  refine ⟨hplan, ?_, hquery, ?_⟩
  · rcases hplans _ _ hplan with ⟨why, hwhy, _⟩ | ⟨b, b', hb, hb', htext, _, _, hdeclared⟩
    · rw [older_outcome] at hwhy
      cases hwhy
    · rw [older_outcome] at hb
      rw [← Except.ok.inj hb] at htext
      exact ⟨b', hb', htext, hdeclared⟩
  · rcases hqueries _ _ ⟨0⟩ hquery with ⟨fault, hfault, _⟩ | ⟨b, b', hb, hb', htext, _⟩
    · rw [Query.older_build] at hfault
      cases hfault
    · rw [Query.older_build] at hb
      rw [← Except.ok.inj hb] at htext
      exact ⟨b', hb', htext⟩

end Plan

end GraphQuery
