import GraphQuery.Render

/-!
# What a query visits

Rendering names a reference on its first visit. Which references a query visits, and in which
order, can be read off its tree without rendering it: depth first and from left to right, into the
bodies of subqueries too, a variable after the expression it names, a named relationship before the
node it leads to, and an anonymous relationship not at all.

The second half says what visiting does to a naming. A visit gives at most one name, a name once
given stays, and neither the open subqueries nor the settings have a part in it. So a whole list of
visits can be folded over a naming, and whatever was named before is still named so afterwards.
-/

namespace GraphQuery

/-- One thing that a build names. -/
inductive Visit
  | ref (target : Reference)
  | param (target : Param)

namespace Visit

/-- The identity that is asked for, of a reference or of a parameter. -/
def id : Visit → RefId
  | ref r => r.id
  | param p => p.id

/-- The reference of a visit that asks for an alias. -/
def ref? : Visit → Option Reference
  | ref r => some r
  | param _ => none

/-- The parameter of a visit that asks for a parameter name. -/
def param? : Visit → Option Param
  | ref _ => none
  | param p => some p

end Visit

/-! ## Visits of an expression -/

mutual

/-- The visits of an expression, in the order of its text. -/
def Expr.visits : Expr → List Visit
  | .literal _ => []
  | .param p => [.param p]
  | .ref target => [.ref target]
  | .property target _ => [.ref target]
  | .call f => f.visits
  | .list items => Expr.itemVisits items
  | .map entries => Expr.entryVisits entries
  | .projection target fields => .ref target :: Expr.fieldVisits fields

/-- The visits of a call. The point of a distance comes last. -/
def FunctionCall.visits : FunctionCall → List Visit
  | .coalesce target _ fallback => .ref target :: fallback.visits
  | .distance source point => source.visits ++ [.param point]
  | .apply _ argument => argument.visits

/-- The visits of what a distance is measured from. -/
def DistanceSource.visits : DistanceSource → List Visit
  | .property target _ => [.ref target]
  | .call f => f.visits

/-- The visits of a field. A property under its own name has none, as the projection has visited its
reference. -/
def ProjectionField.visits : ProjectionField → List Visit
  | .shorthand _ => []
  | .entry _ value => value.visits

/-- The visits of the items, one item after the other. -/
def Expr.itemVisits : List Expr → List Visit
  | [] => []
  | item :: rest => item.visits ++ Expr.itemVisits rest

/-- The visits of the entries, one value after the other. -/
def Expr.entryVisits : List (String × Expr) → List Visit
  | [] => []
  | (_, value) :: rest => value.visits ++ Expr.entryVisits rest

/-- The visits of the fields, one field after the other. -/
def Expr.fieldVisits : List ProjectionField → List Visit
  | [] => []
  | field :: rest => field.visits ++ Expr.fieldVisits rest

end

/-! ## Visits of a clause -/

/-- The node of a pattern is visited whether or not its labels are written. -/
def NodePattern.visits (p : NodePattern) : List Visit :=
  [.ref p.node.reference]

/-- An anonymous relationship is not visited. -/
def Hop.arrowVisits (h : Hop) : List Visit :=
  if h.named then [.ref h.relationship.reference] else []

/-- The visits of a hop: its relationship, if it is named, and its node. -/
def Hop.visits (h : Hop) : List Visit :=
  h.arrowVisits ++ h.target.visits

/-- The visits of a pattern, from its start hop by hop. -/
def Pattern.visits (p : Pattern) : List Visit :=
  p.start.visits ++ p.hops.flatMap Hop.visits

/-- The reference whose properties are set, then the values. -/
def assignmentVisits (target : Reference) (properties : List (String × Expr)) : List Visit :=
  .ref target :: Expr.entryVisits properties

/-- The visits of a carried expression, and of its variable if it has one. -/
def WithItem.visits (item : WithItem) : List Visit :=
  match item.aliasVariable with
  | none => item.expr.visits
  | some v => item.expr.visits ++ [.ref v.reference]

/-- The visits of what is returned. -/
def ReturnTarget.visits : ReturnTarget → List Visit
  | .entity target _ => [.ref target]
  | .expr e => e.visits
  | .all => []

/-- Only an output name that is a variable visits anything. -/
def ReturnAlias.visits : ReturnAlias → List Visit
  | .name _ => []
  | .var v => [.ref v.reference]

/-- The visits of a result, its output name last. -/
def Result.visits (r : Result) : List Visit :=
  r.target.visits ++ (r.outputName.map ReturnAlias.visits).getD []

mutual

/-- The visits of a condition, those of its subqueries too. -/
def Predicate.visits : Predicate → List Visit
  | .compare _ lhs rhs => lhs.visits ++ rhs.visits
  | .isNull e => e.visits
  | .isNotNull e => e.visits
  | .group _ operands => Predicate.operandVisits operands
  | .not operand => operand.visits
  | .existsIn body => Clause.bodyVisits body

/-- The visits of the operands, one operand after the other. -/
def Predicate.operandVisits : List Predicate → List Visit
  | [] => []
  | operand :: rest => operand.visits ++ Predicate.operandVisits rest

/-- The visits of a clause, in the order in which it is rendered. -/
def Clause.visits : Clause → List Visit
  | .create node properties =>
    (NodePattern.declared node).visits ++ assignmentVisits node.reference properties
  | .matching _ pattern none => pattern.visits
  | .matching _ pattern (some condition) => pattern.visits ++ condition.visits
  | .call body => Clause.bodyVisits body
  | .withAll => []
  | .withItems items => items.flatMap WithItem.visits
  | .set target properties => assignmentVisits target properties
  | .orderBy items => items.flatMap fun item => item.expr.visits
  | .skip count => [.param count]
  | .limit count => [.param count]
  | .result r => r.visits

/-- The visits of a body, one clause after the other. -/
def Clause.bodyVisits : List Clause → List Visit
  | [] => []
  | clause :: rest => clause.visits ++ Clause.bodyVisits rest

end

/-- The visits of a query, those of its subqueries where they stand. -/
def Query.visits (q : Query) : List Visit :=
  Clause.bodyVisits q.clauses

/-! ## What a visit does -/

namespace Visit

/-- What the name of a visit is given to. -/
def role : Visit → Role
  | ref r => .ref r.kind
  | param _ => .param

end Visit

namespace Naming

/-- The name of a reference or a parameter, given on the first visit. -/
def lookUp (n : Naming) : Visit → Except Fault String × Naming
  | .ref r => n.aliasOf r
  | .param p => n.paramName p

/-- Gives the next name of its kind. -/
def give (n : Naming) : Visit → String × Naming
  | .ref r => n.giveAlias r
  | .param p => n.giveParam p

/-- The naming after a visit. -/
def visit (n : Naming) (v : Visit) : Naming :=
  (n.lookUp v).2

/-- The naming after some visits, one after the other. -/
def visitAll (n : Naming) (vs : List Visit) : Naming :=
  vs.foldl visit n

/-- The same names with this many open subqueries. -/
def withDepth (n : Naming) (d : Nat) : Naming :=
  { n with depth := d }

/-- The same names with this many open subqueries, of which there may be so many. -/
def withBounds (n : Naming) (d max : Nat) : Naming :=
  { n with settings := { n.settings with maxDepth := max }, depth := d }

@[simp] theorem visitAll_nil (n : Naming) : n.visitAll [] = n := rfl

@[simp] theorem visitAll_cons (n : Naming) (v : Visit) (vs : List Visit) :
    n.visitAll (v :: vs) = (n.visit v).visitAll vs := rfl

theorem visitAll_append (n : Naming) (vs ws : List Visit) :
    n.visitAll (vs ++ ws) = (n.visitAll vs).visitAll ws := by
  simp [visitAll, List.foldl_append]

variable {n : Naming} {v w : Visit} {name : String} {i : Nat}

/-! ### The three outcomes of a visit -/

theorem lookUp_foreign (h : v.id.arena ≠ n.arena) : n.lookUp v = (.error (.foreign v.id), n) := by
  cases v <;> simp_all [lookUp, aliasOf, paramName, Visit.id]

theorem lookUp_named (ha : v.id.arena = n.arena) (h : n.nameAt v.id.index = some name) :
    n.lookUp v = (.ok name, n) := by
  cases v <;> simp_all [lookUp, aliasOf, paramName, Visit.id]

theorem lookUp_unnamed (ha : v.id.arena = n.arena) (h : n.nameAt v.id.index = none) :
    n.lookUp v = (.ok (n.give v).1, (n.give v).2) := by
  cases v <;> simp_all [lookUp, aliasOf, paramName, give, Visit.id]

/-- A visit from elsewhere is refused, a named one finds its name, and any other gets the next
one. -/
theorem visit_cases (n : Naming) (v : Visit) :
    (v.id.arena ≠ n.arena ∧ n.visit v = n)
    ∨ (v.id.arena = n.arena ∧ (∃ name, n.nameAt v.id.index = some name) ∧ n.visit v = n)
    ∨ (v.id.arena = n.arena ∧ n.nameAt v.id.index = none ∧ n.visit v = (n.give v).2) := by
  by_cases ha : v.id.arena = n.arena
  · cases hn : n.nameAt v.id.index with
    | some name => exact Or.inr (Or.inl ⟨ha, ⟨name, rfl⟩, by rw [visit, lookUp_named ha hn]⟩)
    | none => exact Or.inr (Or.inr ⟨ha, rfl, by rw [visit, lookUp_unnamed ha hn]⟩)
  · exact Or.inl ⟨ha, by rw [visit, lookUp_foreign ha]⟩

/-! ### What giving a name changes -/

theorem record_allocated (n : Naming) (name : String) (value : Json) :
    (n.record name value).allocated = n.allocated := by
  unfold record; split <;> rfl

theorem record_withBounds (n : Naming) (d max : Nat) (name : String) (value : Json) :
    (n.withBounds d max).record name value = (n.record name value).withBounds d max := by
  by_cases h : (n.params.any fun entry => entry.1 == name) <;> simp [record, withBounds, h]

theorem give_allocated (n : Naming) (v : Visit) :
    (n.give v).2.allocated = n.allocated ++ [⟨v.role, v.id.index, (n.give v).1⟩] := by
  cases v with
  | ref r => rfl
  | param p => simp [give, giveParam, record_allocated, Visit.role, Visit.id]

theorem give_arena (n : Naming) (v : Visit) : (n.give v).2.arena = n.arena := by
  cases v with
  | ref r => rfl
  | param p => simp only [give, giveParam, record]; split <;> rfl

theorem give_settings (n : Naming) (v : Visit) : (n.give v).2.settings = n.settings := by
  cases v with
  | ref r => rfl
  | param p => simp only [give, giveParam, record]; split <;> rfl

theorem give_depth (n : Naming) (v : Visit) : (n.give v).2.depth = n.depth := by
  cases v with
  | ref r => rfl
  | param p => simp only [give, giveParam, record]; split <;> rfl

/-- Names are given without regard to the open subqueries and their limit. -/
theorem give_withBounds (n : Naming) (v : Visit) (d max : Nat) :
    ((n.withBounds d max).give v).2 = (n.give v).2.withBounds d max := by
  cases v with
  | ref r => rfl
  | param p =>
    simp only [give, giveParam, ← record_withBounds]
    rfl

/-! ### What a visit keeps -/

@[simp] theorem visit_arena (n : Naming) (v : Visit) : (n.visit v).arena = n.arena := by
  rcases visit_cases n v with ⟨_, h⟩ | ⟨_, _, h⟩ | ⟨_, _, h⟩ <;> rw [h]
  exact give_arena n v

@[simp] theorem visit_settings (n : Naming) (v : Visit) : (n.visit v).settings = n.settings := by
  rcases visit_cases n v with ⟨_, h⟩ | ⟨_, _, h⟩ | ⟨_, _, h⟩ <;> rw [h]
  exact give_settings n v

@[simp] theorem visit_depth (n : Naming) (v : Visit) : (n.visit v).depth = n.depth := by
  rcases visit_cases n v with ⟨_, h⟩ | ⟨_, _, h⟩ | ⟨_, _, h⟩ <;> rw [h]
  exact give_depth n v

@[simp] theorem visitAll_arena (n : Naming) (vs : List Visit) :
    (n.visitAll vs).arena = n.arena := by
  induction vs generalizing n with
  | nil => rfl
  | cons v vs ih => rw [visitAll_cons, ih, visit_arena]

@[simp] theorem visitAll_settings (n : Naming) (vs : List Visit) :
    (n.visitAll vs).settings = n.settings := by
  induction vs generalizing n with
  | nil => rfl
  | cons v vs ih => rw [visitAll_cons, ih, visit_settings]

@[simp] theorem visitAll_depth (n : Naming) (vs : List Visit) :
    (n.visitAll vs).depth = n.depth := by
  induction vs generalizing n with
  | nil => rfl
  | cons v vs ih => rw [visitAll_cons, ih, visit_depth]

theorem visit_withBounds (n : Naming) (v : Visit) (d max : Nat) :
    (n.withBounds d max).visit v = (n.visit v).withBounds d max := by
  rcases visit_cases n v with ⟨ha, h⟩ | ⟨ha, ⟨name, hn⟩, h⟩ | ⟨ha, hn, h⟩ <;> rw [h, visit]
  · rw [lookUp_foreign (n := n.withBounds d max) ha]
  · rw [lookUp_named (n := n.withBounds d max) ha hn]
  · rw [lookUp_unnamed (n := n.withBounds d max) ha hn, give_withBounds]

theorem visitAll_withBounds (n : Naming) (vs : List Visit) (d max : Nat) :
    (n.withBounds d max).visitAll vs = (n.visitAll vs).withBounds d max := by
  induction vs generalizing n with
  | nil => rfl
  | cons v vs ih => rw [visitAll_cons, visit_withBounds, ih, visitAll_cons]

theorem visitAll_withDepth (n : Naming) (vs : List Visit) (d : Nat) :
    (n.withDepth d).visitAll vs = (n.visitAll vs).withDepth d := by
  show (n.withBounds d n.settings.maxDepth).visitAll vs
    = (n.visitAll vs).withBounds d (n.visitAll vs).settings.maxDepth
  rw [visitAll_withBounds, visitAll_settings]

/-- What is true of every name that can be given stays true of all names. -/
theorem forall_name_visitAll {P : String → Prop}
    (hgive : ∀ (m : Naming) (v : Visit), m.settings = n.settings → P (m.give v).1)
    (h : ∀ a ∈ n.allocated, P a.name) (vs : List Visit) :
    ∀ a ∈ (n.visitAll vs).allocated, P a.name := by
  induction vs generalizing n with
  | nil => exact h
  | cons v vs ih =>
    rw [visitAll_cons]
    refine ih (fun m w hm => hgive m w (hm.trans (visit_settings n v))) ?_
    rcases visit_cases n v with ⟨_, hv⟩ | ⟨_, _, hv⟩ | ⟨_, _, hv⟩ <;> rw [hv]
    · exact h
    · exact h
    · rw [give_allocated]
      exact List.forall_mem_append.mpr
        ⟨h, List.forall_mem_singleton.mpr (hgive n v rfl)⟩

/-! ### Names stay -/

theorem nameAt_give (h : n.nameAt i = some name) : (n.give v).2.nameAt i = some name := by
  obtain ⟨a, ha, rfl⟩ := Option.map_eq_some_iff.mp h
  simp [nameAt, give_allocated, List.find?_append, ha]

/-- The name that was just given. -/
theorem nameAt_give_self (h : n.nameAt v.id.index = none) :
    (n.give v).2.nameAt v.id.index = some (n.give v).1 := by
  have hfind : n.allocated.find? (fun a => a.index == v.id.index) = none :=
    Option.map_eq_none_iff.mp h
  simp [nameAt, give_allocated, List.find?_append, hfind]

/-- What a lookup returns is the name from then on. -/
theorem nameAt_of_lookUp {n' : Naming} (h : n.lookUp v = (.ok name, n')) :
    v.id.arena = n.arena ∧ n' = n.visit v ∧ n'.nameAt v.id.index = some name := by
  have hn : n' = n.visit v := (congrArg Prod.snd h).symm
  by_cases ha : v.id.arena = n.arena
  · refine ⟨ha, hn, ?_⟩
    cases hi : n.nameAt v.id.index with
    | some name' =>
      obtain ⟨hname, rfl⟩ := Prod.mk.inj ((lookUp_named ha hi).symm.trans h)
      rw [hi, Except.ok.inj hname]
    | none =>
      obtain ⟨hname, rfl⟩ := Prod.mk.inj ((lookUp_unnamed ha hi).symm.trans h)
      rw [nameAt_give_self hi, Except.ok.inj hname]
  · have h' := (lookUp_foreign ha).symm.trans h
    exact absurd (Prod.mk.inj h').1 (by rintro ⟨⟩)

theorem nameAt_visit (h : n.nameAt i = some name) : (n.visit v).nameAt i = some name := by
  rcases visit_cases n v with ⟨_, hv⟩ | ⟨_, _, hv⟩ | ⟨_, _, hv⟩ <;> rw [hv]
  · exact h
  · exact h
  · exact nameAt_give h

theorem nameAt_visitAll {vs : List Visit} (h : n.nameAt i = some name) :
    (n.visitAll vs).nameAt i = some name := by
  induction vs generalizing n with
  | nil => exact h
  | cons v vs ih => exact ih (nameAt_visit h)

/-- A visit from this arena leaves its reference named. -/
theorem nameAt_visit_self (ha : v.id.arena = n.arena) :
    ∃ name, (n.visit v).nameAt v.id.index = some name := by
  rcases visit_cases n v with ⟨hne, _⟩ | ⟨_, ⟨name, hn⟩, hv⟩ | ⟨_, hn, hv⟩
  · exact absurd ha hne
  · exact ⟨name, by rw [hv, hn]⟩
  · exact ⟨(n.give v).1, by rw [hv, nameAt_give_self hn]⟩

theorem nameAt_visitAll_mem {vs : List Visit} (hv : v ∈ vs) (ha : v.id.arena = n.arena) :
    ∃ name, (n.visitAll vs).nameAt v.id.index = some name := by
  induction vs generalizing n with
  | nil => exact absurd hv (List.not_mem_nil)
  | cons w vs ih =>
    rcases List.mem_cons.mp hv with rfl | hv
    · obtain ⟨name, hn⟩ := nameAt_visit_self ha
      exact ⟨name, nameAt_visitAll (n := n.visit v) hn⟩
    · exact ih hv (by rw [visit_arena]; exact ha)

end Naming

end GraphQuery
