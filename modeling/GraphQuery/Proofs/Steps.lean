import GraphQuery.Proofs.Visits

/-!
# The steps of a rendering

The visits of a tree say what a rendering names when it succeeds. They do not say where it stops
when it fails. For that the checks have to stand between the visits, in the order in which both are
made: a key is judged before its reference is visited, a type after its relationship, the number of
open subqueries before the body of the next one.

The steps of a tree are this list. Walking it from a naming, up to the first step that fails, makes
the visits before that step and no others. Why a walk fails can be told without any names at all:
from the arena of the build, the limit, and the number of open subqueries.
-/

namespace GraphQuery

/-- One thing that a rendering does to a naming, or the reason for which it stops. -/
inductive Step
  | visit (target : Visit)
  | refuse (why : Defect)
  /-- Opens a subquery. -/
  | enter
  /-- Closes it again. -/
  | leave

/-- What a step visits, if it is a visit. -/
def Step.visit? : Step → Option Visit
  | visit v => some v
  | refuse _ | enter | leave => none

/-- The visits among some steps. -/
def visitsOf (ss : List Step) : List Visit :=
  ss.filterMap Step.visit?

@[simp] theorem visitsOf_nil : visitsOf [] = [] := rfl

@[simp] theorem visitsOf_visit (v : Visit) (ss : List Step) :
    visitsOf (.visit v :: ss) = v :: visitsOf ss := rfl

@[simp] theorem visitsOf_refuse (why : Defect) (ss : List Step) :
    visitsOf (.refuse why :: ss) = visitsOf ss := rfl

@[simp] theorem visitsOf_enter (ss : List Step) : visitsOf (.enter :: ss) = visitsOf ss := rfl

@[simp] theorem visitsOf_leave (ss : List Step) : visitsOf (.leave :: ss) = visitsOf ss := rfl

@[simp] theorem visitsOf_append (ss ts : List Step) :
    visitsOf (ss ++ ts) = visitsOf ss ++ visitsOf ts :=
  List.filterMap_append

/-- Refuses what has a defect. -/
def refuseIf (found : Bool) (why : Defect) : List Step :=
  if found then [.refuse why] else []

@[simp] theorem visitsOf_refuseIf (found : Bool) (why : Defect) :
    visitsOf (refuseIf found why) = [] := by
  cases found <;> rfl

/-! ## Steps of an expression -/

/-- An empty key is refused. -/
def keySteps (key : String) : List Step :=
  refuseIf key.isEmpty .emptyPropertyKey

/-- A literal visits nothing. A float is refused unless it is finite. -/
def Literal.steps : Literal → List Step
  | null => []
  | bool _ => []
  | int _ => []
  | float x => refuseIf (!x.isFinite) (.nonFiniteLiteral x)

/-- The key is judged first. -/
def propertySteps (target : Reference) (key : String) : List Step :=
  keySteps key ++ [.visit (.ref target)]

mutual

/-- The steps of an expression, its parts from left to right. -/
def Expr.steps : Expr → List Step
  | .literal value => value.steps
  | .param p => [.visit (.param p)]
  | .ref target => [.visit (.ref target)]
  | .property target key => propertySteps target key
  | .call f => f.steps
  | .list items => Expr.itemSteps items
  | .map entries => Expr.entrySteps entries
  | .projection target fields => .visit (.ref target) :: Expr.fieldSteps fields

/-- The steps of a call. The point of a distance is visited last. -/
def FunctionCall.steps : FunctionCall → List Step
  | .coalesce target key fallback => propertySteps target key ++ fallback.steps
  | .distance source point => source.steps ++ [.visit (.param point)]
  | .apply _ argument => argument.steps

/-- The steps of what a distance is measured from. -/
def DistanceSource.steps : DistanceSource → List Step
  | .property target key => propertySteps target key
  | .call f => f.steps

/-- The steps of a field: its key is judged before its value is gone through. -/
def ProjectionField.steps : ProjectionField → List Step
  | .shorthand key => keySteps key
  | .entry key value => keySteps key ++ value.steps

/-- The steps of the items, one item after the other. -/
def Expr.itemSteps : List Expr → List Step
  | [] => []
  | item :: rest => item.steps ++ Expr.itemSteps rest

/-- The steps of the entries. Each key is judged before its value is gone through. -/
def Expr.entrySteps : List (String × Expr) → List Step
  | [] => []
  | (key, value) :: rest => keySteps key ++ (value.steps ++ Expr.entrySteps rest)

/-- The steps of the fields, one field after the other. -/
def Expr.fieldSteps : List ProjectionField → List Step
  | [] => []
  | field :: rest => field.steps ++ Expr.fieldSteps rest

end

/-! ## Steps of a clause -/

/-- Empty labels are refused before the node is visited. -/
def NodePattern.steps (p : NodePattern) : List Step :=
  refuseIf (p.node.labels.any String.isEmpty) .emptyLabel ++ [.visit (.ref p.node.reference)]

/-- An empty type is refused, and no type is as good as any. -/
def typeSteps : Option String → List Step
  | none => []
  | some type => refuseIf type.isEmpty .emptyLabel

/-- An empty type is refused after the relationship was visited. -/
def Hop.arrowSteps (h : Hop) : List Step :=
  (if h.named then [.visit (.ref h.relationship.reference)] else [])
    ++ typeSteps h.relationship.type

/-- The steps of a hop: its arrow, then the node it leads to. -/
def Hop.steps (h : Hop) : List Step :=
  h.arrowSteps ++ h.target.steps

/-- The steps of a pattern, from its start hop by hop. -/
def Pattern.steps (p : Pattern) : List Step :=
  p.start.steps ++ p.hops.flatMap Hop.steps

/-- The reference is visited once, before all of its assignments. -/
def assignmentSteps (target : Reference) (properties : List (String × Expr)) : List Step :=
  .visit (.ref target) :: Expr.entrySteps properties

/-- The steps of a CREATE. The node is visited by its pattern, and once more for its assignments
even where there are none. -/
def createSteps (node : NodeRef) (properties : List (String × Expr)) : List Step :=
  refuseIf node.labels.isEmpty .missingLabels
    ++ ((NodePattern.declared node).steps ++ assignmentSteps node.reference properties)

/-- The steps of a SET, which is refused when it has nothing to set. -/
def setSteps (target : Reference) (properties : List (String × Expr)) : List Step :=
  refuseIf properties.isEmpty .emptySet ++ assignmentSteps target properties

/-- The steps of a carried expression. Its variable is visited last. -/
def WithItem.steps (item : WithItem) : List Step :=
  match item.aliasVariable with
  | none => item.expr.steps
  | some v => item.expr.steps ++ [.visit (.ref v.reference)]

/-- The steps of a WITH, which is refused when it has nothing to carry. -/
def withSteps (items : List WithItem) : List Step :=
  refuseIf items.isEmpty .emptyWith ++ items.flatMap WithItem.steps

/-- The steps of an ORDER BY, which is refused when it has nothing to sort by. -/
def orderSteps (items : List OrderItem) : List Step :=
  refuseIf items.isEmpty .emptyOrderBy ++ items.flatMap fun item => item.expr.steps

/-- The steps of what is returned. An entity is visited before its keys are judged. -/
def ReturnTarget.steps : ReturnTarget → List Step
  | .entity target fields => .visit (.ref target) :: fields.flatMap keySteps
  | .expr e => e.steps
  | .all => []

/-- The steps of an output name. Text given for it is not judged. -/
def ReturnAlias.steps : ReturnAlias → List Step
  | .name _ => []
  | .var v => [.visit (.ref v.reference)]

/-- The steps of a result. Its output name comes last, as it does in the text. -/
def Result.steps (r : Result) : List Step :=
  r.target.steps ++ (r.outputName.map ReturnAlias.steps).getD []

mutual

/-- The steps of a condition. An empty group is refused, and a subquery is entered and left. -/
def Predicate.steps : Predicate → List Step
  | .compare _ lhs rhs => lhs.steps ++ rhs.steps
  | .isNull e => e.steps
  | .isNotNull e => e.steps
  | .group junction [] => [.refuse (.emptyGroup junction)]
  | .group _ (first :: rest) => first.steps ++ Predicate.operandSteps rest
  | .not operand => operand.steps
  | .existsIn body => .enter :: (Clause.bodySteps body ++ [.leave])

/-- The steps of the operands, one operand after the other. -/
def Predicate.operandSteps : List Predicate → List Step
  | [] => []
  | operand :: rest => operand.steps ++ Predicate.operandSteps rest

/-- The steps of a clause, in the order of its renderer. -/
def Clause.steps : Clause → List Step
  | .create node properties => createSteps node properties
  | .matching _ pattern none => pattern.steps
  | .matching _ pattern (some condition) => pattern.steps ++ condition.steps
  | .call body => .enter :: (Clause.bodySteps body ++ [.leave])
  | .withAll => []
  | .withItems items => withSteps items
  | .set target properties => setSteps target properties
  | .orderBy items => orderSteps items
  | .skip count => [.visit (.param count)]
  | .limit count => [.visit (.param count)]
  | .result r => r.steps

/-- The steps of a body, one clause after the other. -/
def Clause.bodySteps : List Clause → List Step
  | [] => []
  | clause :: rest => clause.steps ++ Clause.bodySteps rest

end

/-- The steps of a query. They begin outside of all subqueries. -/
def Query.steps (q : Query) : List Step :=
  Clause.bodySteps q.clauses

/-! ## The visits among the steps -/

theorem visitsOf_keySteps (key : String) : visitsOf (keySteps key) = [] :=
  visitsOf_refuseIf _ _

theorem visitsOf_propertySteps (target : Reference) (key : String) :
    visitsOf (propertySteps target key) = [.ref target] := by
  rw [propertySteps, visitsOf_append, visitsOf_keySteps]
  rfl

mutual

theorem Expr.visitsOf_steps (e : Expr) : visitsOf e.steps = e.visits := by
  cases e with
  | literal value => cases value <;> simp [Expr.steps, Expr.visits, Literal.steps]
  | param p => rfl
  | ref target => rfl
  | property target key => exact visitsOf_propertySteps target key
  | call f => exact FunctionCall.visitsOf_steps f
  | list items => exact Expr.visitsOf_itemSteps items
  | map entries => exact Expr.visitsOf_entrySteps entries
  | projection target fields => exact congrArg (_ :: ·) (Expr.visitsOf_fieldSteps fields)

theorem FunctionCall.visitsOf_steps (f : FunctionCall) : visitsOf f.steps = f.visits := by
  cases f with
  | coalesce target key fallback =>
    have hfallback := Expr.visitsOf_steps fallback
    rw [FunctionCall.steps, visitsOf_append, visitsOf_propertySteps, hfallback]
    rfl
  | distance source point =>
    have hsource := DistanceSource.visitsOf_steps source
    rw [FunctionCall.steps, visitsOf_append, hsource]
    rfl
  | apply f argument => exact Expr.visitsOf_steps argument

theorem DistanceSource.visitsOf_steps (source : DistanceSource) :
    visitsOf source.steps = source.visits := by
  cases source with
  | property target key => exact visitsOf_propertySteps target key
  | call f => exact FunctionCall.visitsOf_steps f

theorem ProjectionField.visitsOf_steps (field : ProjectionField) :
    visitsOf field.steps = field.visits := by
  cases field with
  | shorthand key => exact visitsOf_keySteps key
  | entry key value =>
    have hvalue := Expr.visitsOf_steps value
    rw [ProjectionField.steps, visitsOf_append, visitsOf_keySteps, hvalue]
    rfl

theorem Expr.visitsOf_itemSteps (items : List Expr) :
    visitsOf (Expr.itemSteps items) = Expr.itemVisits items := by
  cases items with
  | nil => rfl
  | cons item rest =>
    have hitem := Expr.visitsOf_steps item
    have hrest := Expr.visitsOf_itemSteps rest
    rw [Expr.itemSteps, visitsOf_append, hitem, hrest]
    rfl

theorem Expr.visitsOf_entrySteps (entries : List (String × Expr)) :
    visitsOf (Expr.entrySteps entries) = Expr.entryVisits entries := by
  cases entries with
  | nil => rfl
  | cons entry rest =>
    obtain ⟨key, value⟩ := entry
    have hvalue := Expr.visitsOf_steps value
    have hrest := Expr.visitsOf_entrySteps rest
    rw [Expr.entrySteps, visitsOf_append, visitsOf_append, visitsOf_keySteps, hvalue, hrest]
    rfl

theorem Expr.visitsOf_fieldSteps (fields : List ProjectionField) :
    visitsOf (Expr.fieldSteps fields) = Expr.fieldVisits fields := by
  cases fields with
  | nil => rfl
  | cons field rest =>
    have hfield := ProjectionField.visitsOf_steps field
    have hrest := Expr.visitsOf_fieldSteps rest
    rw [Expr.fieldSteps, visitsOf_append, hfield, hrest]
    rfl

end

/-- The visits of each part are the visits of all parts. -/
theorem visitsOf_flatMap {α : Type} {steps : α → List Step} {visits : α → List Visit}
    (h : ∀ a, visitsOf (steps a) = visits a) (parts : List α) :
    visitsOf (parts.flatMap steps) = parts.flatMap visits := by
  induction parts with
  | nil => rfl
  | cons part rest ih => rw [List.flatMap_cons, visitsOf_append, h, ih, List.flatMap_cons]

theorem NodePattern.visitsOf_steps (p : NodePattern) : visitsOf p.steps = p.visits := by
  rw [NodePattern.steps, visitsOf_append, visitsOf_refuseIf]
  rfl

theorem Hop.visitsOf_steps (h : Hop) : visitsOf h.steps = h.visits := by
  have htype : visitsOf (typeSteps h.relationship.type) = [] := by
    cases h.relationship.type with
    | none => rfl
    | some type => exact visitsOf_refuseIf _ _
  rw [Hop.steps, Hop.arrowSteps, Hop.visits, Hop.arrowVisits, visitsOf_append, visitsOf_append,
    htype, h.target.visitsOf_steps]
  cases h.named <;> rfl

theorem Pattern.visitsOf_steps (p : Pattern) : visitsOf p.steps = p.visits := by
  rw [Pattern.steps, Pattern.visits, visitsOf_append, p.start.visitsOf_steps,
    visitsOf_flatMap Hop.visitsOf_steps]

theorem visitsOf_assignmentSteps (target : Reference) (properties : List (String × Expr)) :
    visitsOf (assignmentSteps target properties) = assignmentVisits target properties :=
  congrArg (_ :: ·) (Expr.visitsOf_entrySteps properties)

theorem WithItem.visitsOf_steps (item : WithItem) : visitsOf item.steps = item.visits := by
  obtain ⟨e, v⟩ := item
  cases v with
  | none => exact e.visitsOf_steps
  | some v =>
    have he := e.visitsOf_steps
    rw [WithItem.steps, WithItem.visits, visitsOf_append, he]
    rfl

theorem Result.visitsOf_steps (r : Result) : visitsOf r.steps = r.visits := by
  have htarget : visitsOf r.target.steps = r.target.visits := by
    rcases r.target with ⟨target, fields⟩ | e | _
    · have hfields : visitsOf (fields.flatMap keySteps) = fields.flatMap fun _ => [] :=
        visitsOf_flatMap visitsOf_keySteps fields
      rw [ReturnTarget.steps, visitsOf_visit, hfields]
      simp [ReturnTarget.visits]
    · exact e.visitsOf_steps
    · rfl
  have hname : visitsOf ((r.outputName.map ReturnAlias.steps).getD [])
      = (r.outputName.map ReturnAlias.visits).getD [] := by
    rcases r.outputName with _ | ⟨text⟩ | v <;> rfl
  rw [Result.steps, visitsOf_append, htarget, hname]
  rfl

mutual

theorem Predicate.visitsOf_steps (p : Predicate) : visitsOf p.steps = p.visits := by
  match p with
  | .compare operator lhs rhs =>
    rw [Predicate.steps, visitsOf_append, lhs.visitsOf_steps, rhs.visitsOf_steps]
    rfl
  | .isNull e => exact e.visitsOf_steps
  | .isNotNull e => exact e.visitsOf_steps
  | .group junction [] => rfl
  | .group _ (first :: rest) =>
    have hfirst := Predicate.visitsOf_steps first
    have hrest := Predicate.visitsOf_operandSteps rest
    rw [Predicate.steps, visitsOf_append, hfirst, hrest]
    rfl
  | .not operand => exact Predicate.visitsOf_steps operand
  | .existsIn body =>
    have hbody := Clause.visitsOf_bodySteps body
    rw [Predicate.steps, visitsOf_enter, visitsOf_append, hbody]
    exact List.append_nil _

theorem Predicate.visitsOf_operandSteps (operands : List Predicate) :
    visitsOf (Predicate.operandSteps operands) = Predicate.operandVisits operands := by
  match operands with
  | [] => rfl
  | operand :: rest =>
    have hoperand := Predicate.visitsOf_steps operand
    have hrest := Predicate.visitsOf_operandSteps rest
    rw [Predicate.operandSteps, visitsOf_append, hoperand, hrest]
    rfl

theorem Clause.visitsOf_steps (c : Clause) : visitsOf c.steps = c.visits := by
  match c with
  | .create node properties =>
    rw [Clause.steps, createSteps, visitsOf_append, visitsOf_refuseIf, visitsOf_append,
      NodePattern.visitsOf_steps, visitsOf_assignmentSteps]
    rfl
  | .matching optional pattern none => exact pattern.visitsOf_steps
  | .matching optional pattern (some condition) =>
    have hcondition := Predicate.visitsOf_steps condition
    rw [Clause.steps, visitsOf_append, pattern.visitsOf_steps, hcondition]
    rfl
  -- to enter and to leave is no visit
  | .call body =>
    have hbody := Clause.visitsOf_bodySteps body
    rw [Clause.steps, visitsOf_enter, visitsOf_append, hbody]
    exact List.append_nil _
  | .withAll => rfl
  | .withItems items =>
    rw [Clause.steps, withSteps, visitsOf_append, visitsOf_refuseIf,
      visitsOf_flatMap WithItem.visitsOf_steps]
    rfl
  | .set target properties =>
    rw [Clause.steps, setSteps, visitsOf_append, visitsOf_refuseIf, visitsOf_assignmentSteps]
    rfl
  | .orderBy items =>
    rw [Clause.steps, orderSteps, visitsOf_append, visitsOf_refuseIf,
      visitsOf_flatMap fun item : OrderItem => item.expr.visitsOf_steps]
    rfl
  | .skip count => rfl
  | .limit count => rfl
  | .result r => exact r.visitsOf_steps

theorem Clause.visitsOf_bodySteps (body : List Clause) :
    visitsOf (Clause.bodySteps body) = Clause.bodyVisits body := by
  match body with
  | [] => rfl
  | clause :: rest =>
    have hclause := Clause.visitsOf_steps clause
    have hrest := Clause.visitsOf_bodySteps rest
    rw [Clause.bodySteps, visitsOf_append, hclause, hrest]
    rfl

end

theorem Query.visitsOf_steps (q : Query) : visitsOf q.steps = q.visits :=
  Clause.visitsOf_bodySteps q.clauses

/-! ## Walking -/

namespace Naming

/-- One step, and whether it fails. -/
def step (n : Naming) : Step → Except Fault Unit × Naming
  | .visit v => ((n.lookUp v).1.map fun _ => (), (n.lookUp v).2)
  | .refuse why => (.error (.defect why), n)
  | .enter => n.enter
  | .leave => (.ok (), n.leave)

/-- The steps up to the first that fails. -/
def walk (n : Naming) : List Step → Except Fault Unit × Naming
  | [] => (.ok (), n)
  | s :: rest =>
    match n.step s with
    | (.error fault, n') => (.error fault, n')
    | (.ok (), n') => n'.walk rest

/-- A walk goes on where the one before it has ended. -/
theorem walk_append (n : Naming) (ss ts : List Step) :
    n.walk (ss ++ ts) = match n.walk ss with
      | (.error fault, n') => (.error fault, n')
      | (.ok (), n') => n'.walk ts := by
  induction ss generalizing n with
  | nil => rfl
  | cons s ss ih =>
    rw [List.cons_append, walk, walk]
    rcases n.step s with ⟨_ | _, n'⟩
    · rfl
    · exact ih n'

section FirstStep

variable {n : Naming} {v : Visit} {ss : List Step}

/-- A visit from this arena finds a name, whichever it is. -/
theorem walk_visit (ha : v.id.arena = n.arena) :
    n.walk (.visit v :: ss) = (n.visit v).walk ss := by
  have hok : ∃ name, (n.lookUp v).1 = .ok name := by
    cases hn : n.nameAt v.id.index with
    | some name => exact ⟨name, by rw [lookUp_named ha hn]⟩
    | none => exact ⟨_, by rw [lookUp_unnamed ha hn]⟩
  obtain ⟨name, hname⟩ := hok
  rw [walk, step, hname]
  rfl

theorem walk_foreign (ha : v.id.arena ≠ n.arena) :
    n.walk (.visit v :: ss) = (.error (.foreign v.id), n) := by
  rw [walk, step, lookUp_foreign ha]
  rfl

theorem walk_enter (hd : ¬n.depth + 1 > n.settings.maxDepth) :
    n.walk (.enter :: ss) = (n.withDepth (n.depth + 1)).walk ss := by
  rw [walk, step, enter, if_neg hd]
  rfl

theorem walk_full (hd : n.depth + 1 > n.settings.maxDepth) :
    n.walk (.enter :: ss)
      = (.error (.defect (.subqueryTooDeep (n.depth + 1) n.settings.maxDepth)), n) := by
  rw [walk, step, enter, if_pos hd]

end FirstStep

end Naming

/-- Why some steps fail, if they do, when so many subqueries are open. No names are needed to tell
it. -/
def firstFault (arena : ArenaId) (max : Nat) : Nat → List Step → Option Fault
  | _, [] => none
  | depth, .visit v :: rest =>
    if v.id.arena = arena then firstFault arena max depth rest else some (.foreign v.id)
  | _, .refuse why :: _ => some (.defect why)
  | depth, .enter :: rest =>
    if depth + 1 > max then some (.defect (.subqueryTooDeep (depth + 1) max))
    else firstFault arena max (depth + 1) rest
  | depth, .leave :: rest => firstFault arena max (depth - 1) rest

/-- What some steps refuse first, when every visit succeeds. -/
def firstRefusal (max : Nat) : Nat → List Step → Option Defect
  | _, [] => none
  | depth, .visit _ :: rest => firstRefusal max depth rest
  | _, .refuse why :: _ => some why
  | depth, .enter :: rest =>
    if depth + 1 > max then some (.subqueryTooDeep (depth + 1) max)
    else firstRefusal max (depth + 1) rest
  | depth, .leave :: rest => firstRefusal max (depth - 1) rest

/-- Inside one arena there is no other fault than a refusal. -/
theorem firstFault_eq_firstRefusal {arena : ArenaId} (max depth : Nat) {ss : List Step}
    (h : ∀ v ∈ visitsOf ss, v.id.arena = arena) :
    firstFault arena max depth ss = (firstRefusal max depth ss).map .defect := by
  induction ss generalizing depth with
  | nil => rfl
  | cons step ss ih =>
    cases step with
    | visit v =>
      rw [firstFault, firstRefusal, if_pos (h v List.mem_cons_self)]
      exact ih depth fun w hw => h w (List.mem_cons_of_mem _ hw)
    | refuse why => rfl
    | enter =>
      rw [firstFault, firstRefusal]
      split
      · rfl
      · exact ih (depth + 1) h
    | leave => exact ih (depth - 1) h

/-- A walk that stops at a foreign reference stops at one that it was to visit. -/
theorem visit_of_foreign {arena : ArenaId} {max depth : Nat} {ss : List Step} {id : RefId}
    (h : firstFault arena max depth ss = some (.foreign id)) :
    ∃ v ∈ visitsOf ss, v.id = id ∧ id.arena ≠ arena := by
  induction ss generalizing depth with
  | nil => cases h
  | cons step ss ih =>
    cases step with
    | visit v =>
      rw [firstFault] at h
      split at h
      · -- the fault comes later
        obtain ⟨w, hw, hid⟩ := ih h
        exact ⟨w, List.mem_cons_of_mem _ hw, hid⟩
      · -- it is this visit
        rename_i hforeign
        obtain rfl := Fault.foreign.inj (Option.some.inj h)
        exact ⟨v, List.mem_cons_self, rfl, hforeign⟩
    | refuse why => cases h
    | enter =>
      rw [firstFault] at h
      split at h
      · cases h
      · exact ih h
    | leave => exact ih h

/-- Steps that do not fail refuse nothing. -/
theorem refuse_not_mem {arena : ArenaId} {max depth : Nat} {ss : List Step}
    (h : firstFault arena max depth ss = none) (why : Defect) : .refuse why ∉ ss := by
  induction ss generalizing depth with
  | nil => exact List.not_mem_nil
  | cons s ss ih =>
    intro hmem
    rcases List.mem_cons.mp hmem with rfl | hrest
    · cases h
    · cases s with
      | refuse why' => cases h
      | visit v =>
        rw [firstFault] at h
        split at h
        · exact ih h hrest
        · cases h
      | enter =>
        rw [firstFault] at h
        split at h
        · cases h
        · exact ih h hrest
      | leave => exact ih h hrest

/-- The outcome of steps that fail for this reason, or do not fail. -/
def outcomeOf : Option Fault → Except Fault Unit
  | none => .ok ()
  | some fault => .error fault

theorem eq_none_of_outcomeOf {found : Option Fault} (h : outcomeOf found = .ok ()) :
    found = none := by
  cases found with
  | none => rfl
  | some fault => cases h

theorem eq_some_of_outcomeOf {found : Option Fault} {fault : Fault}
    (h : outcomeOf found = .error fault) : found = some fault := by
  cases found with
  | none => cases h
  | some fault' => exact congrArg some (Except.error.inj h)

namespace Naming

/-- **How a walk ends depends on no name.** -/
theorem walk_fst (n : Naming) (ss : List Step) :
    (n.walk ss).1 = outcomeOf (firstFault n.arena n.settings.maxDepth n.depth ss) := by
  induction ss generalizing n with
  | nil => rfl
  | cons s ss ih =>
    cases s with
    | visit v =>
      have hrest := ih (n.visit v)
      rw [visit_arena, visit_settings, visit_depth] at hrest
      -- a visit fails only for the arena
      by_cases ha : v.id.arena = n.arena
      · rw [walk_visit ha, firstFault, if_pos ha]
        exact hrest
      · rw [walk_foreign ha, firstFault, if_neg ha]
        rfl
    | refuse why => rfl
    | enter =>
      -- a subquery fails only for the limit
      by_cases hd : n.depth + 1 > n.settings.maxDepth
      · rw [walk_full hd, firstFault, if_pos hd]
        rfl
      · rw [walk_enter hd, firstFault, if_neg hd]
        exact ih (n.withDepth (n.depth + 1))
    | leave => exact ih n.leave

end Naming

end GraphQuery
