import GraphQuery.Proofs.Settled

/-!
# Open subqueries

A naming counts the subqueries that are open, and a build refuses to open one too many. A rendering
can fail in the body of a subquery, in a subquery of that, or because one more subquery is refused.
A count that was left too high by such a failure would not be seen until a later rendering refuses
what it should not, and one left too low not until a later rendering opens too many.

To speak about what happens on the way, not only about what is left behind, a rendering is taken
apart into its operations: it writes, refuses, looks up a name, does one thing after another, or
does something inside a subquery. `Passes` lists the namings that the operations leave one after the
other. Only a subquery changes the count; it counts itself after the limit was asked, and no longer
once its body is done or has failed.
-/

namespace GraphQuery

namespace Render

variable {α β : Type}

/-! ## Operations -/

/-- The step is put together from the operations of a rendering. -/
inductive Composed : {α : Type} → Render α → Prop
  | pure {α : Type} (a : α) : Composed (Pure.pure a)
  | fail {α : Type} (why : Defect) : Composed (Render.fail why : Render α)
  | aliasOf (r : Reference) : Composed (Render.aliasOf r)
  | paramNameOf (p : Param) : Composed (Render.paramNameOf p)
  | bind {α β : Type} {m : Render α} {k : α → Render β} (first : Composed m)
    (next : ∀ a, Composed (k a)) : Composed (m >>= k)
  | subquery {α : Type} {body : Render α} (inner : Composed body) : Composed (Render.subquery body)

namespace Composed

variable {m : Render α}

/-- A last step that only puts the text together. -/
theorem map {k : α → β} (h : Composed m) : Composed (m >>= fun a => Pure.pure (k a)) :=
  h.bind fun _ => .pure _

/-- A test before the step, which may refuse it. -/
theorem guard {found : Bool} {why : Defect} {k : PUnit → Render α} (h : ∀ u, Composed (k u)) :
    Composed (if found = true then Render.fail why >>= k else k ⟨⟩) := by
  cases found with
  | true => exact (Composed.fail why).bind h
  | false => exact h ⟨⟩

/-- A test by itself. -/
theorem test {found : Bool} {why : Defect} (a : α) :
    Composed (if found = true then Render.fail why else Pure.pure a) := by
  cases found with
  | true => exact .fail why
  | false => exact .pure a

end Composed

/-- The namings that a step passes through after the one it starts from: each is what one more
operation has left. -/
inductive Passes : {α : Type} → Render α → Naming → List Naming → Prop
  | pure {α : Type} (a : α) (n : Naming) : Passes (Pure.pure a) n []
  | fail {α : Type} (why : Defect) (n : Naming) : Passes (Render.fail why : Render α) n []
  | aliasOf (r : Reference) (n : Naming) : Passes (Render.aliasOf r) n [(n.aliasOf r).2]
  | paramNameOf (p : Param) (n : Naming) : Passes (Render.paramNameOf p) n [(n.paramName p).2]
  /-- After a failure nothing is done any more. -/
  | stopped {α β : Type} {m : Render α} {k : α → Render β} {n n' : Naming} {ns : List Naming}
    {fault : Fault} (first : Passes m n ns) (fails : m.run n = (.error fault, n')) :
    Passes (m >>= k) n ns
  | followed {α β : Type} {m : Render α} {k : α → Render β} {n n' : Naming} {ns ns' : List Naming}
    {a : α} (first : Passes m n ns) (succeeds : m.run n = (.ok a, n'))
    (next : Passes (k a) n' ns') : Passes (m >>= k) n (ns ++ ns')
  /-- A subquery that may not be opened is not. -/
  | refused {α : Type} {body : Render α} {n n' : Naming} {fault : Fault}
    (full : n.enter = (.error fault, n')) : Passes (Render.subquery body) n [n']
  /-- One that was opened is closed whatever came of its body. -/
  | opened {α : Type} {body : Render α} {n n' : Naming} {ns : List Naming}
    (free : n.enter = (.ok (), n')) (inner : Passes body n' ns) :
    Passes (Render.subquery body) n (n' :: (ns ++ [(body.run n').2.leave]))

/-- Whatever is put together from operations passes through what they leave. -/
theorem Composed.exists_passes {m : Render α} (h : Composed m) (n : Naming) :
    ∃ ns, Passes m n ns := by
  induction h generalizing n with
  | pure a => exact ⟨_, .pure a n⟩
  | fail why => exact ⟨_, .fail why n⟩
  | aliasOf r => exact ⟨_, .aliasOf r n⟩
  | paramNameOf p => exact ⟨_, .paramNameOf p n⟩
  | @bind _ _ m k _ _ ihfirst ihnext =>
    obtain ⟨ns, hfirst⟩ := ihfirst n
    rcases hr : m.run n with ⟨fault | a, n'⟩
    · exact ⟨ns, hfirst.stopped hr⟩
    · obtain ⟨ns', hnext⟩ := ihnext a n'
      exact ⟨ns ++ ns', hfirst.followed hr hnext⟩
  | subquery _ ih =>
    rcases he : n.enter with ⟨fault | _, n'⟩
    · exact ⟨_, .refused he⟩
    · obtain ⟨ns, hinner⟩ := ih n'
      exact ⟨_, .opened he hinner⟩

end Render

/-! ## What the operations keep -/

namespace Naming

variable {n n' : Naming} {fault : Fault}

/-- A refusal to open a subquery changes nothing. -/
theorem eq_of_enter_error (full : n.enter = (.error fault, n')) : n' = n := by
  rw [enter] at full
  split at full
  · exact (Prod.mk.inj full).2.symm
  · cases full

/-- A subquery that is opened is counted, and the limit allows one more. -/
theorem eq_of_enter_ok (free : n.enter = (.ok (), n')) :
    n' = n.withDepth (n.depth + 1) ∧ n.depth + 1 ≤ n.settings.maxDepth := by
  rw [enter] at free
  split at free
  · cases free
  · rename_i hd
    exact ⟨(Prod.mk.inj free).2.symm, Nat.not_lt.mp hd⟩

end Naming

namespace Render

variable {α : Type} {m body : Render α} {n n' : Naming} {ns : List Naming} {fault : Fault}

theorem run_subquery_refused (full : n.enter = (.error fault, n')) :
    (Render.subquery body).run n = (.error fault, n') := by
  simp only [Render.subquery, ExceptT.run, ExceptT.mk, full]

theorem run_subquery_opened (free : n.enter = (.ok (), n')) :
    (Render.subquery body).run n = ((body.run n').1, (body.run n').2.leave) := by
  simp only [Render.subquery, ExceptT.run, ExceptT.mk, free]
  rfl

/-- Whatever a step has opened is closed again, and the limit stays. -/
theorem Passes.keeps (h : Passes m n ns) :
    (m.run n).2.depth = n.depth ∧ (m.run n).2.settings = n.settings := by
  induction h with
  | pure a n => exact ⟨rfl, rfl⟩
  | fail why n => exact ⟨rfl, rfl⟩
  | aliasOf r n => exact ⟨n.visit_depth (.ref r), n.visit_settings (.ref r)⟩
  | paramNameOf p n => exact ⟨n.visit_depth (.param p), n.visit_settings (.param p)⟩
  | stopped _ fails ih =>
    rw [fails] at ih
    rw [run_bind, fails]
    exact ih
  | followed _ succeeds _ ihfirst ihnext =>
    rw [succeeds] at ihfirst
    rw [run_bind, succeeds]
    exact ⟨ihnext.1.trans ihfirst.1, ihnext.2.trans ihfirst.2⟩
  | refused full =>
    obtain rfl := Naming.eq_of_enter_error full
    rw [run_subquery_refused full]
    exact ⟨rfl, rfl⟩
  | opened free _ ih =>
    -- the body is run one level deeper and, failed or not, gives that level back
    obtain ⟨rfl, -⟩ := Naming.eq_of_enter_ok free
    rw [run_subquery_opened free]
    exact ⟨congrArg (· - 1) ih.1, ih.2⟩

/-- What the last operation leaves is what the step leaves. -/
theorem Passes.last (h : Passes m n ns) : (n :: ns).getLast? = some (m.run n).2 := by
  rw [List.getLast?_cons]
  refine congrArg some ?_
  induction h with
  | pure a n => rfl
  | fail why n => rfl
  | aliasOf r n => rfl
  | paramNameOf p n => rfl
  | stopped _ fails ih =>
    rw [ih, run_bind, fails]
  | @followed _ _ _ _ _ _ _ ns' _ _ succeeds _ ihfirst ihnext =>
    rw [succeeds] at ihfirst
    rw [run_bind, succeeds, List.getLast?_append]
    -- where the second step does nothing, the first has left everything
    cases hlast : ns'.getLast? with
    | none => rw [hlast] at ihnext; exact ihfirst.trans ihnext
    | some n' => rw [hlast] at ihnext; exact ihnext
  | refused full =>
    rw [run_subquery_refused full]
    rfl
  | opened free _ _ =>
    rw [run_subquery_opened free, List.getLast?_cons, List.getLast?_concat]
    rfl

/-- Between the first operation and the last, no more than the limit is ever open, and never less
than at first. -/
theorem Passes.bounded (h : Passes m n ns) (hd : n.depth ≤ n.settings.maxDepth) :
    ∀ n' ∈ ns, n.depth ≤ n'.depth ∧ n'.depth ≤ n.settings.maxDepth := by
  induction h with
  | pure a n => exact fun _ h => absurd h List.not_mem_nil
  | fail why n => exact fun _ h => absurd h List.not_mem_nil
  | aliasOf r n =>
    have hdepth : (n.aliasOf r).2.depth = n.depth := n.visit_depth (.ref r)
    rw [List.forall_mem_singleton, hdepth]
    exact ⟨Nat.le_refl _, hd⟩
  | paramNameOf p n =>
    have hdepth : (n.paramName p).2.depth = n.depth := n.visit_depth (.param p)
    rw [List.forall_mem_singleton, hdepth]
    exact ⟨Nat.le_refl _, hd⟩
  | stopped _ _ ih => exact ih hd
  | followed first succeeds _ ihfirst ihnext =>
    -- the second step starts where the first has left the depth and the limit
    have hkeeps := first.keeps
    rw [succeeds] at hkeeps
    rw [hkeeps.1, hkeeps.2] at ihnext
    exact List.forall_mem_append.mpr ⟨ihfirst hd, ihnext hd⟩
  | refused full =>
    obtain rfl := Naming.eq_of_enter_error full
    rw [List.forall_mem_singleton]
    exact ⟨Nat.le_refl _, hd⟩
  | opened free inner ih =>
    obtain ⟨rfl, hlimit⟩ := Naming.eq_of_enter_ok free
    have hinner := ih hlimit
    have hclosed := congrArg (· - 1) inner.keeps.1
    refine List.forall_mem_cons.mpr ⟨⟨Nat.le_succ _, hlimit⟩, List.forall_mem_append.mpr
      ⟨fun n' hn' => ?_, List.forall_mem_singleton.mpr ?_⟩⟩
    · exact ⟨Nat.le_of_succ_le (hinner n' hn').1, (hinner n' hn').2⟩
    · exact ⟨Nat.le_of_eq hclosed.symm, (Nat.le_of_eq hclosed).trans hd⟩

end Render

open Render (Composed)

/-! ## Expressions and patterns -/

theorem renderKey_composed (key : String) : Composed (renderKey key) :=
  .test _

theorem Param.render_composed (p : Param) : Composed p.render :=
  (Composed.paramNameOf p).map

theorem Literal.render_composed (value : Literal) : Composed value.render := by
  cases value with
  | float x =>
    rw [Literal.render]
    split
    · exact .pure _
    · exact .fail _
  | _ => exact .pure _

theorem renderProperty_composed (target : Reference) (key : String) :
    Composed (renderProperty target key) :=
  (renderKey_composed key).bind fun _ => (Composed.aliasOf target).map

mutual

theorem Expr.render_composed (e : Expr) : Composed e.render := by
  cases e with
  | literal value => exact value.render_composed
  | param p => exact p.render_composed
  | ref target => exact .aliasOf target
  | property target key => exact renderProperty_composed target key
  | call f => exact FunctionCall.render_composed f
  | list items => exact (Expr.renderItems_composed items).map
  | map entries => exact (Expr.renderEntries_composed entries).map
  | projection target fields =>
    exact (Composed.aliasOf target).bind fun _ => (Expr.renderFields_composed fields).map

theorem FunctionCall.render_composed (f : FunctionCall) : Composed f.render := by
  cases f with
  | coalesce target key fallback =>
    exact (renderProperty_composed target key).bind fun _ => (Expr.render_composed fallback).map
  | distance source point =>
    exact (DistanceSource.render_composed source).bind fun _ => point.render_composed.map
  | apply f argument => exact (Expr.render_composed argument).map

theorem DistanceSource.render_composed (source : DistanceSource) : Composed source.render := by
  cases source with
  | property target key => exact renderProperty_composed target key
  | call f => exact FunctionCall.render_composed f

theorem ProjectionField.render_composed (field : ProjectionField) : Composed field.render := by
  cases field with
  | shorthand key => exact (renderKey_composed key).map
  | entry key value =>
    exact (renderKey_composed key).bind fun _ => (Expr.render_composed value).map

theorem Expr.renderItems_composed (items : List Expr) : Composed (Expr.renderItems items) := by
  cases items with
  | nil => exact .pure _
  | cons item rest =>
    exact (Expr.render_composed item).bind fun _ => (Expr.renderItems_composed rest).map

theorem Expr.renderEntries_composed (entries : List (String × Expr)) :
    Composed (Expr.renderEntries entries) := by
  cases entries with
  | nil => exact .pure _
  | cons entry rest =>
    obtain ⟨key, value⟩ := entry
    exact (renderKey_composed key).bind fun _ =>
      (Expr.render_composed value).bind fun _ => (Expr.renderEntries_composed rest).map

theorem Expr.renderFields_composed (fields : List ProjectionField) :
    Composed (Expr.renderFields fields) := by
  cases fields with
  | nil => exact .pure _
  | cons field rest =>
    exact (ProjectionField.render_composed field).bind fun _ =>
      (Expr.renderFields_composed rest).map

end

theorem NodePattern.render_composed (p : NodePattern) : Composed p.render := by
  unfold NodePattern.render
  exact .guard fun _ => (Composed.aliasOf p.node.reference).map

theorem renderType_composed (type : Option String) : Composed (renderType type) := by
  cases type with
  | none => exact .pure _
  | some type => exact .test _

theorem Hop.renderArrow_composed (h : Hop) : Composed h.renderArrow := by
  have htype : ∀ name : String, Composed (do
      let type ← renderType h.relationship.type
      return h.direction.arrow (name ++ type)) := fun _ =>
    (renderType_composed h.relationship.type).map
  unfold Hop.renderArrow
  cases h.named with
  | true => exact (Composed.aliasOf h.relationship.reference).bind htype
  | false => exact (Composed.pure "").bind htype

theorem renderHops_composed (hops : List Hop) : Composed (renderHops hops) := by
  induction hops with
  | nil => exact .pure _
  | cons hop rest ih =>
    exact hop.renderArrow_composed.bind fun _ => hop.target.render_composed.bind fun _ => ih.map

theorem Pattern.render_composed (p : Pattern) : Composed p.render :=
  p.start.render_composed.bind fun _ => (renderHops_composed p.hops).map

/-! ## Clauses and predicates -/

theorem renderAssignments_composed (name : String) (properties : List (String × Expr)) :
    Composed (renderAssignments name properties) := by
  induction properties with
  | nil => exact .pure _
  | cons entry rest ih =>
    obtain ⟨key, value⟩ := entry
    exact (renderKey_composed key).bind fun _ => value.render_composed.bind fun _ => ih.map

theorem renderSet_composed (target : Reference) (properties : List (String × Expr)) :
    Composed (renderSet target properties) := by
  unfold renderSet
  exact .guard fun _ => (Composed.aliasOf target).bind fun name =>
    (renderAssignments_composed name properties).map

theorem renderCreate_composed (node : NodeRef) (properties : List (String × Expr)) :
    Composed (renderCreate node properties) := by
  unfold renderCreate
  exact .guard fun _ => (NodePattern.declared node).render_composed.bind fun _ =>
    (Composed.aliasOf node.reference).bind fun name =>
      (renderAssignments_composed name properties).map

theorem WithItem.render_composed (item : WithItem) : Composed item.render := by
  obtain ⟨e, _ | v⟩ := item
  · exact e.render_composed.map
  · exact e.render_composed.bind fun _ => (Composed.aliasOf v.reference).map

theorem renderWithItems_composed (items : List WithItem) : Composed (renderWithItems items) := by
  induction items with
  | nil => exact .pure _
  | cons item rest ih => exact item.render_composed.bind fun _ => ih.map

theorem renderWith_composed (items : List WithItem) : Composed (renderWith items) := by
  unfold renderWith
  exact .guard fun _ => (renderWithItems_composed items).map

theorem renderOrderItems_composed (items : List OrderItem) : Composed (renderOrderItems items) := by
  induction items with
  | nil => exact .pure _
  | cons item rest ih => exact item.expr.render_composed.bind fun _ => ih.map

theorem renderOrderBy_composed (items : List OrderItem) : Composed (renderOrderBy items) := by
  unfold renderOrderBy
  exact .guard fun _ => (renderOrderItems_composed items).map

theorem renderFields_composed (fields : List String) : Composed (renderFields fields) := by
  induction fields with
  | nil => exact .pure _
  | cons key rest ih => exact (renderKey_composed key).bind fun _ => ih.map

theorem ReturnTarget.render_composed (target : ReturnTarget) : Composed target.render := by
  cases target with
  | entity target fields =>
    exact (Composed.aliasOf target).bind fun _ => (renderFields_composed fields).map
  | expr e => exact e.render_composed
  | all => exact .pure _

theorem Result.render_composed (r : Result) : Composed r.render := by
  have hname : Composed (renderReturnAlias r.outputName) := by
    rcases r.outputName with _ | text | v
    · exact .pure _
    · exact .pure _
    · exact (Composed.aliasOf v.reference).map
  exact r.target.render_composed.bind fun _ => hname.map

mutual

theorem Predicate.render_composed (p : Predicate) : Composed p.render := by
  match p with
  | .compare operator lhs rhs => exact lhs.render_composed.bind fun _ => rhs.render_composed.map
  | .isNull e => exact e.render_composed.map
  | .isNotNull e => exact e.render_composed.map
  | .group junction [] => exact .fail _
  | .group _ [operand] => exact Predicate.render_composed operand
  | .group junction (first :: second :: rest) =>
    exact (Predicate.render_composed first).bind fun _ =>
      (Predicate.render_composed second).bind fun _ => (Predicate.renderOperands_composed rest).map
  | .not operand => exact (Predicate.render_composed operand).map
  | .existsIn body => exact (Clause.renderAll_composed body).subquery.map

theorem Predicate.renderOperands_composed (operands : List Predicate) :
    Composed (Predicate.renderOperands operands) := by
  match operands with
  | [] => exact .pure _
  | operand :: rest =>
    exact (Predicate.render_composed operand).bind fun _ =>
      (Predicate.renderOperands_composed rest).map

theorem Clause.render_composed (c : Clause) : Composed c.render := by
  match c with
  | .create node properties => exact renderCreate_composed node properties
  | .matching optional pattern none => exact pattern.render_composed.map
  | .matching optional pattern (some condition) =>
    exact pattern.render_composed.bind fun _ => (Predicate.render_composed condition).map
  | .call body => exact (Clause.renderAll_composed body).subquery.map
  | .withAll => exact .pure _
  | .withItems items => exact renderWith_composed items
  | .set target properties => exact renderSet_composed target properties
  | .orderBy items => exact renderOrderBy_composed items
  | .skip count => exact count.render_composed.map
  | .limit count => exact count.render_composed.map
  | .result r => exact r.render_composed

theorem Clause.renderAll_composed (body : List Clause) : Composed (Clause.renderAll body) := by
  match body with
  | [] => exact .pure _
  | clause :: rest =>
    exact (Clause.render_composed clause).bind fun _ => (Clause.renderAll_composed rest).map

end

/-- Every part of a query is rendered by these operations and no others. -/
theorem Fragment.render_composed (f : Fragment) : Composed f.render := by
  cases f with
  | query q => exact (Clause.renderAll_composed q.clauses).map
  | clause c => exact Clause.render_composed c
  | predicate p => exact Predicate.render_composed p
  | withItem item => exact item.render_composed
  | orderItem item => exact (renderOrderItems_composed [item]).map
  | pattern p => exact p.render_composed
  | nodePattern p => exact p.render_composed
  | arrow hop => exact hop.renderArrow_composed
  | expr e => exact e.render_composed
  | function f => exact FunctionCall.render_composed f
  | field f => exact ProjectionField.render_composed f

/-! ## Sequences of renderings -/

namespace Naming

/-- Whether and why a part fails to be rendered is the same after whatever has been done, rendered
or failed to be rendered with the naming before. -/
theorem outcome_touchAll (n : Naming) (earlier : List Touch) (f : Fragment) :
    (f.render.run (n.touchAll earlier)).1.map (fun _ => ())
      = (f.render.run n).1.map fun _ => () := by
  obtain ⟨_, _, hwalks, -⟩ := f.render_walks_follows
  have hlater := n.extends_touchAll earlier
  rw [hwalks.outcome, hwalks.outcome, walk_fst, walk_fst, hlater.arena, hlater.settings,
    hlater.depth]

/-- **Open subqueries are counted exactly.** Whatever part of a query is rendered, in a naming with
any number of open subqueries that the limit allows, as many are open afterwards as were before, and
at no moment more than the limit or fewer than before. This holds for a success and for every
failure, wherever it comes from. So a rendering fails, and for which reason, as if nothing had been
rendered or had failed before it. -/
theorem depth_restored_and_bounded (n : Naming) (hd : n.depth ≤ n.settings.maxDepth)
    (f : Fragment) :
    (f.render.run n).2.depth = n.depth
    ∧ (∃ ns, Render.Passes f.render n ns)
    ∧ (∀ ns, Render.Passes f.render n ns →
        (n :: ns).getLast? = some (f.render.run n).2
        ∧ ∀ m ∈ n :: ns, n.depth ≤ m.depth ∧ m.depth ≤ n.settings.maxDepth)
    ∧ ∀ earlier : List Touch,
        (n.touchAll earlier).depth = n.depth
        ∧ (n.touchAll earlier).settings = n.settings
        ∧ (f.render.run (n.touchAll earlier)).1.map (fun _ => ())
          = (f.render.run n).1.map fun _ => () := by
  obtain ⟨ns, hpasses⟩ := f.render_composed.exists_passes n
  refine ⟨hpasses.keeps.1, ⟨ns, hpasses⟩, fun ns hns => ⟨hns.last, ?_⟩, fun earlier => ?_⟩
  · exact List.forall_mem_cons.mpr ⟨⟨Nat.le_refl _, hd⟩, hns.bounded hd⟩
  · have hlater := n.extends_touchAll earlier
    exact ⟨hlater.depth, hlater.settings, n.outcome_touchAll earlier f⟩

/-- A naming that allows one open subquery at a time. -/
def narrow : Naming :=
  .fresh ⟨0⟩ { Settings.default with maxDepth := 1 }

/-- A subquery, and in it another one. -/
def descent : Query :=
  ⟨[.call [.withAll, .call [.withAll]]]⟩

/-- The first rendering opens one subquery and fails to open another, and the next rendering can
still open one. -/
theorem depth_restored_and_bounded_descent :
    narrow.depth ≤ narrow.settings.maxDepth
    ∧ (descent.render.run narrow).1 = .error (.defect (.subqueryTooDeep 2 1))
    ∧ (descent.render.run narrow).2.depth = 0
    ∧ (∃ ns, Render.Passes descent.render narrow ns ∧ ∀ m ∈ ns, m.depth ≤ 1)
    ∧ ((Clause.call [.withAll]).render.run (narrow.touch (.render (.query descent)))).1.map
        (fun _ => ()) = .ok () := by
  have hroom : narrow.depth ≤ narrow.settings.maxDepth := Nat.zero_le 1
  obtain ⟨hdepth, ⟨ns, hpasses⟩, hmoments, -⟩ :=
    depth_restored_and_bounded narrow hroom (.query descent)
  obtain ⟨-, -, -, hlater⟩ :=
    depth_restored_and_bounded narrow hroom (.clause (.call [.withAll]))
  refine ⟨hroom, rfl, hdepth, ⟨ns, hpasses, fun m hm => ?_⟩, ?_⟩
  · exact ((hmoments ns hpasses).2 m (List.mem_cons_of_mem _ hm)).2
  · exact (hlater [.render (.query descent)]).2.2

end Naming

end GraphQuery
