import GraphQuery.Proofs.OneArena
import GraphQuery.Proofs.Steps

/-!
# Rendering walks its steps

`Walks m ss` says that the step `m` of a build and the list `ss` do the same to every naming: they
fail alike, for the same reason, and name the same on the way there. So a rendering that fails in
the middle of a subquery has still made exactly the visits before its first fault, and the subquery
is closed again.

Together with the pieces of a tree, which say what a success writes, its steps say all about a
build. What comes of it depends on the steps alone, and so a build fails exactly when the walk does,
whatever has been named and whichever values there are.
-/

namespace GraphQuery

namespace Render

variable {α β : Type}

/-- A step of a build does what these steps do. -/
structure Walks (m : Render α) (ss : List Step) : Prop where
  /-- Both fail for the same reason, or neither does. -/
  outcome : ∀ n : Naming, (m.run n).1.map (fun _ => ()) = (n.walk ss).1
  /-- Both name the same; what was opened is closed also after a failure. -/
  naming : ∀ n : Naming, (m.run n).2 = (n.walk ss).2.withDepth n.depth
  /-- Steps that all succeed close what they open. -/
  closed : ∀ n : Naming, (n.walk ss).1 = .ok () → (n.walk ss).2.depth = n.depth

namespace Walks

variable {m : Render α} {ss ts : List Step}

theorem of_steps (h : Walks m ss) (hs : ss = ts) : Walks m ts :=
  hs ▸ h

theorem pure (a : α) : Walks (Pure.pure a) [] :=
  ⟨fun _ => rfl, fun _ => rfl, fun _ _ => rfl⟩

/-- After a refusal it makes no difference what would have come. -/
theorem fail (why : Defect) (ss : List Step) :
    Walks (Render.fail why : Render α) (.refuse why :: ss) := by
  refine ⟨fun _ => rfl, fun _ => rfl, fun n h => ?_⟩
  have herror : (n.walk (.refuse why :: ss)).1 = .error (.defect why) := rfl
  rw [herror] at h
  cases h

/-- A success of the one is a success of the other, with the same naming. -/
theorem walk_of_ok (h : Walks m ss) {n n' : Naming} {a : α} (hr : m.run n = (.ok a, n')) :
    n.walk ss = (.ok (), n') := by
  have hout := h.outcome n
  have hnaming := h.naming n
  rw [hr] at hout hnaming
  have hok : (n.walk ss).1 = .ok () := hout.symm
  have hdepth := h.closed n hok
  refine Prod.ext hok ?_
  have hsame : (n.walk ss).2.withDepth n.depth = (n.walk ss).2 := by
    rw [← hdepth]
    rfl
  rw [← hsame]
  exact hnaming.symm

/-- A success refuses nothing. -/
theorem refuse_not_mem (h : Walks m ss) {n n' : Naming} {a : α} (hr : m.run n = (.ok a, n'))
    (why : Defect) : .refuse why ∉ ss := by
  have hout := n.walk_fst ss
  rw [h.walk_of_ok hr] at hout
  exact GraphQuery.refuse_not_mem (eq_none_of_outcomeOf hout.symm) why

theorem walk_of_error (h : Walks m ss) {n n' : Naming} {fault : Fault}
    (hr : m.run n = (.error fault, n')) :
    (n.walk ss).1 = .error fault ∧ n' = (n.walk ss).2.withDepth n.depth := by
  have hout := h.outcome n
  have hnaming := h.naming n
  rw [hr] at hout hnaming
  exact ⟨hout.symm, hnaming⟩

/-- One step of a build after another makes the steps of both. -/
theorem bind {k : α → Render β} (hm : Walks m ss) (hk : ∀ a, Walks (k a) ts) :
    Walks (m >>= k) (ss ++ ts) := by
  -- a failure of the first ends both, and a success hands the same naming on to both
  have hcases : ∀ n, (∃ fault n', m.run n = (.error fault, n')
        ∧ (m >>= k).run n = (.error fault, n') ∧ (n.walk ss).1 = .error fault
        ∧ n' = (n.walk ss).2.withDepth n.depth ∧ n.walk (ss ++ ts) = (.error fault, (n.walk ss).2))
      ∨ ∃ a n', (m >>= k).run n = (k a).run n' ∧ n.walk (ss ++ ts) = n'.walk ts
        ∧ n'.depth = n.depth := by
    intro n
    rw [run_bind, Naming.walk_append]
    rcases hr : m.run n with ⟨fault | a, n'⟩
    · obtain ⟨hw, hn⟩ := hm.walk_of_error hr
      refine Or.inl ⟨fault, n', rfl, rfl, hw, hn, ?_⟩
      rw [show n.walk ss = (Except.error fault, (n.walk ss).2) from Prod.ext hw rfl]
    · have hw := hm.walk_of_ok hr
      have hd := hm.closed n (by rw [hw])
      rw [hw] at hd
      exact Or.inr ⟨a, n', rfl, by rw [hw], hd⟩
  constructor
  · intro n
    rcases hcases n with ⟨fault, n', _, hrun, _, _, hwalk⟩ | ⟨a, n', hrun, hwalk, _⟩
    · rw [hrun, hwalk]
      rfl
    · rw [hrun, hwalk]
      exact (hk a).outcome n'
  · intro n
    rcases hcases n with ⟨fault, n', _, hrun, _, hn, hwalk⟩ | ⟨a, n', hrun, hwalk, hd⟩
    · rw [hrun, hwalk]
      exact hn
    · rw [hrun, hwalk, ← hd]
      exact (hk a).naming n'
  · intro n hok
    rcases hcases n with ⟨fault, n', _, _, _, _, hwalk⟩ | ⟨a, n', _, hwalk, hd⟩
    · rw [hwalk] at hok
      cases hok
    · rw [hwalk] at hok ⊢
      rw [← hd]
      exact (hk a).closed n' hok

/-- A last step that only puts the text together. -/
theorem map {k : α → β} (hm : Walks m ss) : Walks (m >>= fun a => Pure.pure (k a)) ss :=
  (hm.bind fun a => pure (k a)).of_steps (List.append_nil ss)

/-- A test before the step, which may refuse it. -/
theorem guard {found : Bool} {why : Defect} {k : PUnit → Render α} (h : Walks (k ⟨⟩) ss) :
    Walks (if found = true then Render.fail why >>= k else k ⟨⟩) (refuseIf found why ++ ss) := by
  cases found with
  | true =>
    rw [if_pos rfl, fail_bind]
    exact fail why ss
  | false =>
    rw [if_neg Bool.false_ne_true]
    exact h

/-- A test by itself. -/
theorem test {found : Bool} {why : Defect} (a : α) :
    Walks (if found = true then Render.fail why else Pure.pure a) (refuseIf found why) := by
  cases found with
  | true => exact fail why []
  | false => exact pure a

theorem lookUp (v : Visit) : Walks (ExceptT.mk fun n => n.lookUp v : Render String) [.visit v] := by
  have hwalk : ∀ n : Naming, n.walk [.visit v] = ((n.lookUp v).1.map (fun _ => ()), n.visit v) := by
    intro n
    rw [Naming.walk, Naming.step, Naming.visit]
    rcases n.lookUp v with ⟨_ | _, n'⟩ <;> rfl
  refine ⟨fun n => by rw [hwalk]; rfl, fun n => ?_, fun n _ => by rw [hwalk]; exact n.visit_depth v⟩
  rw [hwalk, ← n.visit_depth v]
  rfl

theorem aliasOf (r : Reference) : Walks (Render.aliasOf r) [.visit (.ref r)] :=
  lookUp (.ref r)

theorem paramNameOf (p : Param) : Walks (Render.paramNameOf p) [.visit (.param p)] :=
  lookUp (.param p)

/-- A subquery is opened, walked and closed; a failure inside it closes it too. -/
theorem subquery (h : Walks m ss) : Walks (Render.subquery m) (.enter :: (ss ++ [.leave])) := by
  -- what there is to say about the steps, according to how they end
  have hcases : ∀ n : Naming,
      ((Render.subquery m).run n).1.map (fun _ => ()) = (n.walk (.enter :: (ss ++ [.leave]))).1
      ∧ ((Render.subquery m).run n).2
        = (n.walk (.enter :: (ss ++ [.leave]))).2.withDepth n.depth
      ∧ ((n.walk (.enter :: (ss ++ [.leave]))).1 = .ok () →
          (n.walk (.enter :: (ss ++ [.leave]))).2.depth = n.depth) := by
    intro n
    by_cases hd : n.depth + 1 > n.settings.maxDepth
    · rw [run_subquery_of_full hd, Naming.walk_full hd]
      exact ⟨rfl, rfl, fun _ => rfl⟩
    · rw [Naming.walk_enter hd, Naming.walk_append]
      rcases hr : m.run (n.withDepth (n.depth + 1)) with ⟨fault | a, n'⟩
      · obtain ⟨hw, hn⟩ := h.walk_of_error hr
        rw [run_subquery hd hr, show (n.withDepth (n.depth + 1)).walk ss
          = (.error fault, ((n.withDepth (n.depth + 1)).walk ss).2) from Prod.ext hw rfl]
        exact ⟨rfl, by rw [hn]; rfl, fun hok => by cases hok⟩
      · have hw := h.walk_of_ok hr
        have hclosed := h.closed (n.withDepth (n.depth + 1)) (by rw [hw])
        rw [hw] at hclosed
        have hdepth : n'.leave.depth = n.depth := by
          show n'.depth - 1 = n.depth
          rw [show n'.depth = n.depth + 1 from hclosed]
          rfl
        rw [run_subquery hd hr, hw]
        exact ⟨rfl, by rw [← hdepth]; rfl, fun _ => hdepth⟩
  exact ⟨fun n => (hcases n).1, fun n => (hcases n).2.1, fun n => (hcases n).2.2⟩

end Walks

end Render

open Render (Walks)

/-! ## Expressions -/

theorem renderKey_walks (key : String) : Walks (renderKey key) (keySteps key) :=
  .test _

theorem Param.render_walks (p : Param) : Walks p.render [.visit (.param p)] :=
  (Walks.paramNameOf p).map

theorem Literal.render_walks (value : Literal) : Walks value.render value.steps := by
  cases value with
  | float x =>
    rw [Literal.render, Literal.steps]
    cases x.isFinite with
    | true => exact .pure _
    | false => exact .fail _ _
  | _ => exact .pure _

theorem renderProperty_walks (target : Reference) (key : String) :
    Walks (renderProperty target key) (propertySteps target key) :=
  (renderKey_walks key).bind fun _ => (Walks.aliasOf target).map

mutual

theorem Expr.render_walks (e : Expr) : Walks e.render e.steps := by
  cases e with
  | literal value => exact value.render_walks
  | param p => exact p.render_walks
  | ref target => exact .aliasOf target
  | property target key => exact renderProperty_walks target key
  | call f => exact FunctionCall.render_walks f
  | list items => exact (Expr.renderItems_walks items).map
  | map entries => exact (Expr.renderEntries_walks entries).map
  | projection target fields =>
    exact (Walks.aliasOf target).bind fun _ => (Expr.renderFields_walks fields).map

theorem FunctionCall.render_walks (f : FunctionCall) : Walks f.render f.steps := by
  cases f with
  | coalesce target key fallback =>
    exact (renderProperty_walks target key).bind fun _ => (Expr.render_walks fallback).map
  | distance source point =>
    exact (DistanceSource.render_walks source).bind fun _ => point.render_walks.map
  | apply f argument => exact (Expr.render_walks argument).map

theorem DistanceSource.render_walks (source : DistanceSource) :
    Walks source.render source.steps := by
  cases source with
  | property target key => exact renderProperty_walks target key
  | call f => exact FunctionCall.render_walks f

theorem ProjectionField.render_walks (field : ProjectionField) :
    Walks field.render field.steps := by
  cases field with
  | shorthand key => exact (renderKey_walks key).map
  | entry key value =>
    exact (renderKey_walks key).bind fun _ => (Expr.render_walks value).map

theorem Expr.renderItems_walks (items : List Expr) :
    Walks (Expr.renderItems items) (Expr.itemSteps items) := by
  cases items with
  | nil => exact .pure _
  | cons item rest =>
    exact (Expr.render_walks item).bind fun _ => (Expr.renderItems_walks rest).map

theorem Expr.renderEntries_walks (entries : List (String × Expr)) :
    Walks (Expr.renderEntries entries) (Expr.entrySteps entries) := by
  cases entries with
  | nil => exact .pure _
  | cons entry rest =>
    obtain ⟨key, value⟩ := entry
    exact (renderKey_walks key).bind fun _ =>
      (Expr.render_walks value).bind fun _ => (Expr.renderEntries_walks rest).map

theorem Expr.renderFields_walks (fields : List ProjectionField) :
    Walks (Expr.renderFields fields) (Expr.fieldSteps fields) := by
  cases fields with
  | nil => exact .pure _
  | cons field rest =>
    exact (ProjectionField.render_walks field).bind fun _ => (Expr.renderFields_walks rest).map

end

/-! ## Patterns -/

theorem NodePattern.render_walks (p : NodePattern) : Walks p.render p.steps := by
  unfold NodePattern.render
  exact .guard (Walks.aliasOf p.node.reference).map

theorem renderType_walks (type : Option String) : Walks (renderType type) (typeSteps type) := by
  cases type with
  | none => exact .pure _
  | some type => exact .test _

theorem Hop.renderArrow_walks (h : Hop) : Walks h.renderArrow h.arrowSteps := by
  have htype : ∀ name : String, Walks (do
      let type ← renderType h.relationship.type
      return h.direction.arrow (name ++ type)) (typeSteps h.relationship.type) := fun _ =>
    (renderType_walks h.relationship.type).map
  unfold Hop.renderArrow Hop.arrowSteps
  cases h.named with
  | true => exact (Walks.aliasOf h.relationship.reference).bind htype
  | false => exact (Walks.pure "").bind htype

theorem renderHops_walks (hops : List Hop) : Walks (renderHops hops) (hops.flatMap Hop.steps) := by
  induction hops with
  | nil => exact .pure _
  | cons hop rest ih =>
    have h := hop.renderArrow_walks.bind fun arrow => hop.target.render_walks.bind fun target =>
      ih.map (k := fun others => arrow ++ target ++ others)
    refine h.of_steps ?_
    rw [List.flatMap_cons, Hop.steps, List.append_assoc]

theorem Pattern.render_walks (p : Pattern) : Walks p.render p.steps :=
  p.start.render_walks.bind fun _ => (renderHops_walks p.hops).map

/-! ## Clauses without subqueries -/

theorem renderAssignments_walks (name : String) (properties : List (String × Expr)) :
    Walks (renderAssignments name properties) (Expr.entrySteps properties) := by
  induction properties with
  | nil => exact .pure _
  | cons entry rest ih =>
    obtain ⟨key, value⟩ := entry
    exact (renderKey_walks key).bind fun _ => value.render_walks.bind fun _ => ih.map

theorem renderSet_walks (target : Reference) (properties : List (String × Expr)) :
    Walks (renderSet target properties) (setSteps target properties) := by
  unfold renderSet
  exact .guard ((Walks.aliasOf target).bind fun name =>
    (renderAssignments_walks name properties).map)

theorem renderCreate_walks (node : NodeRef) (properties : List (String × Expr)) :
    Walks (renderCreate node properties) (createSteps node properties) := by
  unfold renderCreate
  exact .guard ((NodePattern.declared node).render_walks.bind fun _ =>
    (Walks.aliasOf node.reference).bind fun name => (renderAssignments_walks name properties).map)

theorem WithItem.render_walks (item : WithItem) : Walks item.render item.steps := by
  obtain ⟨e, v⟩ := item
  cases v with
  | none => exact e.render_walks.map
  | some v => exact e.render_walks.bind fun _ => (Walks.aliasOf v.reference).map

theorem renderWithItems_walks (items : List WithItem) :
    Walks (renderWithItems items) (items.flatMap WithItem.steps) := by
  induction items with
  | nil => exact .pure _
  | cons item rest ih => exact item.render_walks.bind fun _ => ih.map

theorem renderWith_walks (items : List WithItem) : Walks (renderWith items) (withSteps items) := by
  unfold renderWith
  exact .guard (renderWithItems_walks items).map

theorem renderOrderItems_walks (items : List OrderItem) :
    Walks (renderOrderItems items) (items.flatMap fun item => item.expr.steps) := by
  induction items with
  | nil => exact .pure _
  | cons item rest ih => exact item.expr.render_walks.bind fun _ => ih.map

theorem renderOrderBy_walks (items : List OrderItem) :
    Walks (renderOrderBy items) (orderSteps items) := by
  unfold renderOrderBy
  exact .guard (renderOrderItems_walks items).map

theorem renderFields_walks (fields : List String) :
    Walks (renderFields fields) (fields.flatMap keySteps) := by
  induction fields with
  | nil => exact .pure _
  | cons key rest ih => exact (renderKey_walks key).bind fun _ => ih.map

theorem ReturnTarget.render_walks (target : ReturnTarget) : Walks target.render target.steps := by
  cases target with
  | entity target fields =>
    exact (Walks.aliasOf target).bind fun _ => (renderFields_walks fields).map
  | expr e => exact e.render_walks
  | all => exact .pure _

theorem Result.render_walks (r : Result) : Walks r.render r.steps := by
  have hname : Walks (renderReturnAlias r.outputName)
      ((r.outputName.map ReturnAlias.steps).getD []) := by
    rcases r.outputName with _ | ⟨text⟩ | v
    · exact .pure _
    · exact .pure _
    · exact (Walks.aliasOf v.reference).map
  exact r.target.render_walks.bind fun _ => hname.map

/-! ## Predicates and subqueries -/

mutual

theorem Predicate.render_walks (p : Predicate) : Walks p.render p.steps := by
  match p with
  | .compare operator lhs rhs => exact lhs.render_walks.bind fun _ => rhs.render_walks.map
  | .isNull e => exact e.render_walks.map
  | .isNotNull e => exact e.render_walks.map
  | .group junction [] => exact .fail _ _
  | .group _ [operand] =>
    exact (Predicate.render_walks operand).of_steps (List.append_nil _).symm
  | .group junction (first :: second :: rest) =>
    exact (Predicate.render_walks first).bind fun _ =>
      (Predicate.render_walks second).bind fun _ => (Predicate.renderOperands_walks rest).map
  | .not operand => exact (Predicate.render_walks operand).map
  | .existsIn body => exact (Clause.renderAll_walks body).subquery.map

theorem Predicate.renderOperands_walks (operands : List Predicate) :
    Walks (Predicate.renderOperands operands) (Predicate.operandSteps operands) := by
  match operands with
  | [] => exact .pure _
  | operand :: rest =>
    exact (Predicate.render_walks operand).bind fun _ => (Predicate.renderOperands_walks rest).map

theorem Clause.render_walks (c : Clause) : Walks c.render c.steps := by
  match c with
  | .create node properties => exact renderCreate_walks node properties
  | .matching optional pattern none => exact pattern.render_walks.map
  | .matching optional pattern (some condition) =>
    exact pattern.render_walks.bind fun _ => (Predicate.render_walks condition).map
  | .call body => exact (Clause.renderAll_walks body).subquery.map
  | .withAll => exact .pure _
  | .withItems items => exact renderWith_walks items
  | .set target properties => exact renderSet_walks target properties
  | .orderBy items => exact renderOrderBy_walks items
  | .skip count => exact count.render_walks.map
  | .limit count => exact count.render_walks.map
  | .result r => exact r.render_walks

theorem Clause.renderAll_walks (body : List Clause) :
    Walks (Clause.renderAll body) (Clause.bodySteps body) := by
  match body with
  | [] => exact .pure _
  | clause :: rest =>
    exact (Clause.render_walks clause).bind fun _ => (Clause.renderAll_walks rest).map

end

theorem Query.render_walks (q : Query) : Walks q.render q.steps :=
  (Clause.renderAll_walks q.clauses).map

/-! ## Builds -/

namespace Query

/-- **Whether and why a build fails can be read off the steps of its query.** -/
theorem buildIn_outcome (q : Query) (n : Naming) :
    (q.buildIn n).1.map (fun _ => ())
      = outcomeOf (firstFault n.arena n.settings.maxDepth n.depth q.steps) := by
  have hrun := q.render_walks.outcome n
  rw [Naming.walk_fst] at hrun
  rw [buildIn]
  rcases hq : q.render.run n with ⟨fault | text, n'⟩ <;> rw [hq] at hrun <;> exact hrun

theorem buildIn_eq_error_iff {q : Query} {n : Naming} {fault : Fault} :
    (q.buildIn n).1 = .error fault
      ↔ firstFault n.arena n.settings.maxDepth n.depth q.steps = some fault := by
  have h := q.buildIn_outcome n
  constructor
  · intro hb
    rw [hb] at h
    exact eq_some_of_outcomeOf h.symm
  · intro hf
    rw [hf] at h
    cases hb : (q.buildIn n).1 with
    | error fault' =>
      rw [hb] at h
      rw [Except.error.inj h]
    | ok b =>
      rw [hb] at h
      cases h

theorem build_eq_error_iff {q : Query} {arena : ArenaId} {s : Settings} {fault : Fault} :
    q.build arena s = .error fault ↔ firstFault arena s.maxDepth 0 q.steps = some fault :=
  buildIn_eq_error_iff

theorem exists_build_iff {q : Query} {arena : ArenaId} {s : Settings} :
    (∃ b, q.build arena s = .ok b) ↔ firstFault arena s.maxDepth 0 q.steps = none := by
  rw [Option.eq_none_iff_forall_ne_some]
  constructor
  · rintro ⟨b, hb⟩ fault hf
    rw [build_eq_error_iff.mpr hf] at hb
    cases hb
  · intro h
    cases hb : q.build arena s with
    | error fault => exact absurd (build_eq_error_iff.mp hb) (h fault)
    | ok b => exact ⟨b, rfl⟩

end Query

end GraphQuery
