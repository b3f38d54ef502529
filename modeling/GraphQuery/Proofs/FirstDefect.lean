import GraphQuery.Proofs.HiddenValues

/-!
# The first defect of a query

A build gives names and finds faults on the same way, and each clause, pattern and expression mixes
the two in an order of its own. Nevertheless a build over one arena fails for one reason only: the
query has a defect. Which one it is can be told from the tree. It is the first that is met when the
tree is gone through depth first and from left to right, and the number of open subqueries is all
that has to be kept in mind on the way.

So neither the names given before, nor the stems they are made of, nor the values of the parameters
have a say in whether and how a build fails. The limit on open subqueries has one, but only while
there are subqueries that it refuses: a query that can be built is built the same under every larger
limit.
-/

namespace GraphQuery

/-! ## Defects of an expression -/

/-- The defect, where it is found. -/
def defectIf (found : Bool) (why : Defect) : Option Defect :=
  if found then some why else none

/-- A key may not be empty. -/
def keyDefect (key : String) : Option Defect :=
  defectIf key.isEmpty .emptyPropertyKey

/-- Only a float can be a literal that has no text. -/
def Literal.firstDefect : Literal → Option Defect
  | null => none
  | bool _ => none
  | int _ => none
  | float x => defectIf (!x.isFinite) (.nonFiniteLiteral x)

mutual

/-- The first defect of an expression, its parts gone through from left to right. -/
def Expr.firstDefect : Expr → Option Defect
  | .literal value => value.firstDefect
  | .param _ => none
  | .ref _ => none
  | .property _ key => keyDefect key
  | .call f => f.firstDefect
  | .list items => Expr.itemDefect items
  | .map entries => Expr.entryDefect entries
  | .projection _ fields => Expr.fieldDefect fields

/-- The first defect of a call. In a coalesce the key stands before the fallback. -/
def FunctionCall.firstDefect : FunctionCall → Option Defect
  | .coalesce _ key fallback => (keyDefect key).or fallback.firstDefect
  | .distance source _ => source.firstDefect
  | .apply _ argument => argument.firstDefect

/-- The first defect of what a distance is measured from. The point it leads to has none. -/
def DistanceSource.firstDefect : DistanceSource → Option Defect
  | .property _ key => keyDefect key
  | .call f => f.firstDefect

/-- The first defect of a field: its key, then its value. -/
def ProjectionField.firstDefect : ProjectionField → Option Defect
  | .shorthand key => keyDefect key
  | .entry key value => (keyDefect key).or value.firstDefect

/-- The first defect of the items. -/
def Expr.itemDefect : List Expr → Option Defect
  | [] => none
  | item :: rest => item.firstDefect.or (Expr.itemDefect rest)

/-- The first defect of the entries. Each key is looked at before its value. -/
def Expr.entryDefect : List (String × Expr) → Option Defect
  | [] => none
  | (key, value) :: rest => (keyDefect key).or (value.firstDefect.or (Expr.entryDefect rest))

/-- The first defect of the fields. -/
def Expr.fieldDefect : List ProjectionField → Option Defect
  | [] => none
  | field :: rest => field.firstDefect.or (Expr.fieldDefect rest)

end

/-! ## Defects of a clause -/

/-- The labels count also where they are not written. -/
def NodePattern.firstDefect (p : NodePattern) : Option Defect :=
  defectIf (p.node.labels.any String.isEmpty) .emptyLabel

/-- So does the type of a relationship without an alias. -/
def Hop.firstDefect (h : Hop) : Option Defect :=
  (defectIf (h.relationship.type.any String.isEmpty) .emptyLabel).or h.target.firstDefect

/-- The first defect of a pattern, from its start along the steps. -/
def Pattern.firstDefect (p : Pattern) : Option Defect :=
  p.start.firstDefect.or (p.hops.findSome? Hop.firstDefect)

/-- The first defect of a CREATE. A node without labels is refused before anything else is looked
at. -/
def createDefect (node : NodeRef) (properties : List (String × Expr)) : Option Defect :=
  (defectIf node.labels.isEmpty .missingLabels).or
    ((NodePattern.declared node).firstDefect.or (Expr.entryDefect properties))

/-- The first defect of a SET. That there is nothing to set is found first. -/
def setDefect (properties : List (String × Expr)) : Option Defect :=
  (defectIf properties.isEmpty .emptySet).or (Expr.entryDefect properties)

/-- The first defect of a WITH. That there is nothing to carry is found first. -/
def withDefect (items : List WithItem) : Option Defect :=
  (defectIf items.isEmpty .emptyWith).or (items.findSome? fun item => item.expr.firstDefect)

/-- The first defect of an ORDER BY. That there is nothing to sort by is found first. -/
def orderDefect (items : List OrderItem) : Option Defect :=
  (defectIf items.isEmpty .emptyOrderBy).or (items.findSome? fun item => item.expr.firstDefect)

/-- The first defect of what is returned. The properties listed for an entity are keys. -/
def ReturnTarget.firstDefect : ReturnTarget → Option Defect
  | .entity _ fields => fields.findSome? keyDefect
  | .expr e => e.firstDefect
  | .all => none

mutual

/-- The first defect where `depth` subqueries are open and `max` may be. -/
def Predicate.firstDefect (max depth : Nat) : Predicate → Option Defect
  | .compare _ lhs rhs => lhs.firstDefect.or rhs.firstDefect
  | .isNull e => e.firstDefect
  | .isNotNull e => e.firstDefect
  | .group junction operands =>
    (defectIf operands.isEmpty (.emptyGroup junction)).or
      (Predicate.operandDefect max depth operands)
  | .not operand => operand.firstDefect max depth
  | .existsIn body =>
    if depth < max then Clause.bodyDefect max (depth + 1) body
    else some (.subqueryTooDeep (max + 1) max)

/-- The first defect of the operands, all at the same depth. -/
def Predicate.operandDefect (max depth : Nat) : List Predicate → Option Defect
  | [] => none
  | operand :: rest => (operand.firstDefect max depth).or (Predicate.operandDefect max depth rest)

/-- The first defect of a clause. A pattern stands before its condition, and a subquery is entered
only if the limit allows. -/
def Clause.firstDefect (max depth : Nat) : Clause → Option Defect
  | .create node properties => createDefect node properties
  | .matching _ pattern none => pattern.firstDefect
  | .matching _ pattern (some condition) =>
    pattern.firstDefect.or (condition.firstDefect max depth)
  | .call body =>
    if depth < max then Clause.bodyDefect max (depth + 1) body
    else some (.subqueryTooDeep (max + 1) max)
  | .withAll => none
  | .withItems items => withDefect items
  | .set _ properties => setDefect properties
  | .orderBy items => orderDefect items
  | .skip _ => none
  | .limit _ => none
  | .result r => r.target.firstDefect

/-- The first defect of a body, its clauses all at the same depth. -/
def Clause.bodyDefect (max depth : Nat) : List Clause → Option Defect
  | [] => none
  | clause :: rest => (clause.firstDefect max depth).or (Clause.bodyDefect max depth rest)

end

/-- The first defect of a query in which `max` subqueries may be open at a time. -/
def Query.firstDefect (q : Query) (max : Nat) : Option Defect :=
  Clause.bodyDefect max 0 q.clauses

/-! ## Finding defects in steps -/

/-- Steps refuse first what was found, if anything was, and else what the steps after them do. -/
def Finds (max depth : Nat) (ss : List Step) (found : Option Defect) : Prop :=
  ∀ rest, firstRefusal max depth (ss ++ rest) = found.or (firstRefusal max depth rest)

namespace Finds

variable {max depth : Nat} {ss ts : List Step} {found found' : Option Defect}

theorem nil : Finds max depth [] none :=
  fun _ => rfl

theorem refuseIf (wrong : Bool) (why : Defect) :
    Finds max depth (refuseIf wrong why) (defectIf wrong why) := by
  cases wrong <;> exact fun _ => rfl

theorem append (h : Finds max depth ss found) (h' : Finds max depth ts found') :
    Finds max depth (ss ++ ts) (found.or found') := by
  intro rest
  rw [List.append_assoc, h, h', Option.or_assoc]

/-- Visits find nothing. -/
theorem visit (v : Visit) (h : Finds max depth ss found) :
    Finds max depth (.visit v :: ss) found :=
  h

theorem visitLast (h : Finds max depth ss found) (v : Visit) :
    Finds max depth (ss ++ [.visit v]) found := by
  intro rest
  rw [List.append_assoc, h]
  rfl

theorem flatMap {α : Type} {steps : α → List Step} {defect : α → Option Defect}
    (h : ∀ part, Finds max depth (steps part) (defect part)) (parts : List α) :
    Finds max depth (parts.flatMap steps) (parts.findSome? defect) := by
  induction parts with
  | nil => exact nil
  | cons part rest ih =>
    have hparts := (h part).append ih
    rw [List.findSome?_cons]
    cases hpart : defect part <;> rw [hpart] at hparts <;> exact hparts

/-- The limit is judged before the body. -/
theorem subquery (hd : depth ≤ max) (h : depth < max → Finds max (depth + 1) ss found) :
    Finds max depth (.enter :: (ss ++ [.leave]))
      (if depth < max then found else some (.subqueryTooDeep (max + 1) max)) := by
  intro rest
  rw [List.cons_append, firstRefusal]
  by_cases hlt : depth < max
  · -- the body is gone through one level deeper, and closing it leads back to this level
    rw [if_neg (Nat.not_lt.mpr hlt), if_pos hlt, List.append_assoc, h hlt]
    rfl
  · -- all subqueries that may be open are, so one more would make the limit and one
    have heq : depth = max := Nat.le_antisymm hd (Nat.not_lt.mp hlt)
    rw [if_pos (Nat.lt_succ_of_le (Nat.not_lt.mp hlt)), if_neg hlt, heq]
    rfl

end Finds

/-! ## What the steps of a tree find -/

section Trees

variable {max depth : Nat}

theorem propertySteps_finds (target : Reference) (key : String) :
    Finds max depth (propertySteps target key) (keyDefect key) :=
  .visitLast (.refuseIf _ _) _

theorem Literal.steps_finds (value : Literal) :
    Finds max depth value.steps value.firstDefect := by
  cases value with
  | null => exact .nil
  | bool b => exact .nil
  | int i => exact .nil
  | float x => exact .refuseIf _ _

mutual

theorem Expr.steps_finds (e : Expr) : Finds max depth e.steps e.firstDefect := by
  cases e with
  | literal value => exact value.steps_finds
  | param p => exact .visit _ .nil
  | ref target => exact .visit _ .nil
  | property target key => exact propertySteps_finds target key
  | call f => exact FunctionCall.steps_finds f
  | list items => exact Expr.itemSteps_finds items
  | map entries => exact Expr.entrySteps_finds entries
  | projection target fields => exact .visit _ (Expr.fieldSteps_finds fields)

theorem FunctionCall.steps_finds (f : FunctionCall) : Finds max depth f.steps f.firstDefect := by
  cases f with
  | coalesce target key fallback =>
    exact (propertySteps_finds target key).append (Expr.steps_finds fallback)
  | distance source point => exact (DistanceSource.steps_finds source).visitLast _
  | apply f argument => exact Expr.steps_finds argument

theorem DistanceSource.steps_finds (source : DistanceSource) :
    Finds max depth source.steps source.firstDefect := by
  cases source with
  | property target key => exact propertySteps_finds target key
  | call f => exact FunctionCall.steps_finds f

theorem ProjectionField.steps_finds (field : ProjectionField) :
    Finds max depth field.steps field.firstDefect := by
  cases field with
  | shorthand key => exact .refuseIf _ _
  | entry key value => exact .append (.refuseIf _ _) (Expr.steps_finds value)

theorem Expr.itemSteps_finds (items : List Expr) :
    Finds max depth (Expr.itemSteps items) (Expr.itemDefect items) := by
  cases items with
  | nil => exact .nil
  | cons item rest => exact (Expr.steps_finds item).append (Expr.itemSteps_finds rest)

theorem Expr.entrySteps_finds (entries : List (String × Expr)) :
    Finds max depth (Expr.entrySteps entries) (Expr.entryDefect entries) := by
  cases entries with
  | nil => exact .nil
  | cons entry rest =>
    exact .append (.refuseIf _ _) ((Expr.steps_finds entry.2).append (Expr.entrySteps_finds rest))

theorem Expr.fieldSteps_finds (fields : List ProjectionField) :
    Finds max depth (Expr.fieldSteps fields) (Expr.fieldDefect fields) := by
  cases fields with
  | nil => exact .nil
  | cons field rest => exact (ProjectionField.steps_finds field).append (Expr.fieldSteps_finds rest)

end

theorem NodePattern.steps_finds (p : NodePattern) : Finds max depth p.steps p.firstDefect :=
  .visitLast (.refuseIf _ _) _

theorem Hop.steps_finds (h : Hop) : Finds max depth h.steps h.firstDefect := by
  have htype : Finds max depth (typeSteps h.relationship.type)
      (defectIf (h.relationship.type.any String.isEmpty) .emptyLabel) := by
    cases h.relationship.type with
    | none => exact .nil
    | some type => exact .refuseIf _ _
  -- the alias that may stand before the type finds nothing
  have harrow : Finds max depth h.arrowSteps
      (defectIf (h.relationship.type.any String.isEmpty) .emptyLabel) := by
    rw [Hop.arrowSteps]
    cases h.named with
    | true => exact .visit _ htype
    | false => exact htype
  exact harrow.append h.target.steps_finds

theorem Pattern.steps_finds (p : Pattern) : Finds max depth p.steps p.firstDefect :=
  p.start.steps_finds.append (.flatMap Hop.steps_finds p.hops)

theorem assignmentSteps_finds (target : Reference) (properties : List (String × Expr)) :
    Finds max depth (assignmentSteps target properties) (Expr.entryDefect properties) :=
  .visit _ (Expr.entrySteps_finds properties)

theorem WithItem.steps_finds (item : WithItem) :
    Finds max depth item.steps item.expr.firstDefect := by
  obtain ⟨e, _ | v⟩ := item
  · exact e.steps_finds
  · exact e.steps_finds.visitLast _

theorem ReturnTarget.steps_finds (target : ReturnTarget) :
    Finds max depth target.steps target.firstDefect := by
  cases target with
  | entity target fields => exact .visit _ (.flatMap (fun _ => .refuseIf _ _) fields)
  | expr e => exact e.steps_finds
  | all => exact .nil

/-- An output name has no defect. -/
theorem Result.steps_finds (r : Result) : Finds max depth r.steps r.target.firstDefect := by
  have hunnamed : Finds max depth (r.target.steps ++ []) r.target.firstDefect := by
    rw [List.append_nil]
    exact r.target.steps_finds
  rw [Result.steps]
  rcases r.outputName with _ | text | v
  · exact hunnamed
  · exact hunnamed
  · exact r.target.steps_finds.visitLast _

end Trees

mutual

theorem Predicate.steps_finds {max depth : Nat} (hd : depth ≤ max) (p : Predicate) :
    Finds max depth p.steps (p.firstDefect max depth) := by
  match p with
  | .compare operator lhs rhs => exact lhs.steps_finds.append rhs.steps_finds
  | .isNull e => exact e.steps_finds
  | .isNotNull e => exact e.steps_finds
  | .group junction [] => exact fun _ => rfl
  | .group junction (first :: rest) =>
    exact (Predicate.steps_finds hd first).append (Predicate.operandSteps_finds hd rest)
  | .not operand => exact Predicate.steps_finds hd operand
  | .existsIn body => exact .subquery hd fun hlt => Clause.bodySteps_finds hlt body

theorem Predicate.operandSteps_finds {max depth : Nat} (hd : depth ≤ max)
    (operands : List Predicate) : Finds max depth (Predicate.operandSteps operands)
      (Predicate.operandDefect max depth operands) := by
  match operands with
  | [] => exact .nil
  | operand :: rest =>
    exact (Predicate.steps_finds hd operand).append (Predicate.operandSteps_finds hd rest)

theorem Clause.steps_finds {max depth : Nat} (hd : depth ≤ max) (c : Clause) :
    Finds max depth c.steps (c.firstDefect max depth) := by
  match c with
  | .create node properties =>
    exact .append (.refuseIf _ _) ((NodePattern.declared node).steps_finds.append
      (assignmentSteps_finds node.reference properties))
  | .matching optional pattern none => exact pattern.steps_finds
  | .matching optional pattern (some condition) =>
    exact pattern.steps_finds.append (Predicate.steps_finds hd condition)
  | .call body => exact .subquery hd fun hlt => Clause.bodySteps_finds hlt body
  | .withAll => exact .nil
  | .withItems items => exact .append (.refuseIf _ _) (.flatMap WithItem.steps_finds items)
  | .set target properties =>
    exact .append (.refuseIf _ _) (assignmentSteps_finds target properties)
  | .orderBy items =>
    exact .append (.refuseIf _ _) (.flatMap (fun item => item.expr.steps_finds) items)
  | .skip count => exact .visit _ .nil
  | .limit count => exact .visit _ .nil
  | .result r => exact r.steps_finds

theorem Clause.bodySteps_finds {max depth : Nat} (hd : depth ≤ max) (body : List Clause) :
    Finds max depth (Clause.bodySteps body) (Clause.bodyDefect max depth body) := by
  match body with
  | [] => exact .nil
  | clause :: rest => exact (Clause.steps_finds hd clause).append (Clause.bodySteps_finds hd rest)

end

/-! ## Builds -/

/-- Steps that are not refused under a limit are not refused under a larger one. -/
theorem firstFault_eq_none_of_le {arena : ArenaId} {max max' depth : Nat} {ss : List Step}
    (hmax : max ≤ max') (h : firstFault arena max depth ss = none) :
    firstFault arena max' depth ss = none := by
  induction ss generalizing depth with
  | nil => rfl
  | cons step ss ih =>
    cases step with
    | visit v =>
      rw [firstFault] at h ⊢
      split at h
      · rw [if_pos ‹_›]
        exact ih h
      · cases h
    | refuse why => cases h
    | enter =>
      rw [firstFault] at h ⊢
      split at h
      · cases h
      · rw [if_neg (by omega)]
        exact ih h
    | leave => exact ih h

namespace Query

variable {q q' : Query} {arena : ArenaId} {s : Settings} {b : Built}

/-- What the steps of a query refuse first is its first defect. -/
theorem firstRefusal_eq_bodyDefect (q : Query) {max depth : Nat} (hd : depth ≤ max) :
    firstRefusal max depth q.steps = Clause.bodyDefect max depth q.clauses := by
  have hfinds := Clause.bodySteps_finds hd q.clauses []
  rwa [List.append_nil, firstRefusal, Option.or_none] at hfinds

/-- No step fails for a value. -/
theorem firstFault_withoutValues (q : Query) (arena : ArenaId) (max : Nat) :
    firstFault arena max 0 q.withoutValues.steps = firstFault arena max 0 q.steps := by
  have hfault : Fault.relabel forgetting = id := funext Fault.relabel_forgetting
  rw [withoutValues, firstFault_relabel_steps q (forgetting_faithful arena q.visits), hfault,
    Option.map_id, id]

/-- Rendered in any naming of its arena, a query fails for its first defect and nothing else. -/
theorem buildIn_eq_error_iff_bodyDefect (hq : ∀ v ∈ q.visits, v.id.arena = arena) {n : Naming}
    (harena : n.arena = arena) (hd : n.depth ≤ n.settings.maxDepth) {fault : Fault} :
    (q.buildIn n).1 = .error fault
      ↔ ∃ why, Clause.bodyDefect n.settings.maxDepth n.depth q.clauses = some why
          ∧ .defect why = fault := by
  rw [buildIn_eq_error_iff, harena,
    firstFault_eq_firstRefusal _ _ (by rwa [q.visitsOf_steps]), q.firstRefusal_eq_bodyDefect hd,
    Option.map_eq_some_iff]

/-- Where the limit was large enough, a larger one makes no difference. -/
theorem build_of_le (hb : q.build arena s = .ok b) {max : Nat} (hmax : s.maxDepth ≤ max) :
    q.build arena { s with maxDepth := max } = .ok b := by
  have hnone := firstFault_eq_none_of_le hmax (exists_build_iff.mp ⟨b, hb⟩)
  obtain ⟨b', hb'⟩ := exists_build_iff (s := { s with maxDepth := max }).mpr hnone
  obtain ⟨-, hparams, -, htext⟩ := build_ok hb
  obtain ⟨-, hparams', -, htext'⟩ := build_ok hb'
  -- the final namings differ in their limit only, so the same names agree with both
  have hnaming : (Naming.fresh arena { s with maxDepth := max }).visitAll q.visits
      = ((Naming.fresh arena s).visitAll q.visits).withBounds 0 max :=
    Naming.visitAll_withBounds (.fresh arena s) q.visits 0 max
  have hagrees := ((Naming.fresh arena s).visitAll q.visits).agrees_called q.visits
  have hsame : b'.text = b.text := by
    rw [htext _ hagrees]
    exact htext' _ (by rw [hnaming]; exact hagrees)
  have hsame' : b'.params = b.params := by
    rw [hparams, hparams', hnaming]
    rfl
  rw [hb']
  exact congrArg Except.ok (congrArg₂ Built.mk hsame hsame')

/-- **A build over one arena fails exactly for the first defect of its query.** The same goes for a
rendering in any naming of the arena, whatever has been named there, from as many open subqueries as
there are. Two queries that differ in values only fail alike under any two settings with the same
limit; and what has been built once is built the same under every larger limit. -/
theorem build_fails_for_firstDefect (hq : ∀ v ∈ q.visits, v.id.arena = arena) :
    (∀ (s : Settings) (fault : Fault), q.build arena s = .error fault
        ↔ ∃ why, q.firstDefect s.maxDepth = some why ∧ .defect why = fault)
    ∧ (∀ n : Naming, n.arena = arena → n.depth ≤ n.settings.maxDepth → ∀ fault,
        (q.buildIn n).1 = .error fault
          ↔ ∃ why, Clause.bodyDefect n.settings.maxDepth n.depth q.clauses = some why
              ∧ .defect why = fault)
    ∧ (∀ (q' : Query) (s s' : Settings) (fault : Fault), q.withoutValues = q'.withoutValues →
        s.maxDepth = s'.maxDepth →
        (q.build arena s = .error fault ↔ q'.build arena s' = .error fault))
    ∧ ∀ (s : Settings) (b : Built) (max : Nat), q.build arena s = .ok b → s.maxDepth ≤ max →
        q.build arena { s with maxDepth := max } = .ok b := by
  refine ⟨?_, ?_, ?_, ?_⟩
  · -- a build starts from the fresh naming
    intro s fault
    exact buildIn_eq_error_iff_bodyDefect hq (n := .fresh arena s) rfl (Nat.zero_le _)
  · intro n harena hd fault
    exact buildIn_eq_error_iff_bodyDefect hq harena hd
  · -- without values the two have the same steps, and the stems have no part in them
    intro q' s s' fault hvalues hmax
    rw [build_eq_error_iff, build_eq_error_iff, ← firstFault_withoutValues, hvalues, hmax,
      firstFault_withoutValues]
  · -- a larger limit refuses nothing more
    intro s b max hb hmax
    exact build_of_le hb hmax

/-- What `older` seeks first, and then a subquery in a subquery with nothing to order by. -/
def unordered : Query :=
  ⟨older.clauses.take 1 ++ [.call [.call [.orderBy []]]]⟩

/-- Other stems and the same limit. -/
def shortStems : Settings :=
  { Settings.default with aliasStem := "n", variableStem := "v", paramStem := "p" }

theorem build_fails_for_firstDefect_unordered :
    (∀ v ∈ unordered.visits, v.id.arena = ⟨0⟩)
    ∧ unordered.build ⟨0⟩ .default = .error (.defect .emptyOrderBy)
    ∧ unordered.build ⟨0⟩ { Settings.default with maxDepth := 1 }
      = .error (.defect (.subqueryTooDeep 2 1))
    ∧ ((older.buildIn (.fresh ⟨0⟩ .default)).2.arena = ⟨0⟩
      ∧ (older.buildIn (.fresh ⟨0⟩ .default)).2.depth ≤ 32
      ∧ (unordered.buildIn (older.buildIn (.fresh ⟨0⟩ .default)).2).1
        = .error (.defect .emptyOrderBy))
    ∧ (unordered.withoutValues = unordered.withoutValues.withoutValues
      ∧ unordered.withoutValues.build ⟨0⟩ shortStems = .error (.defect .emptyOrderBy))
    ∧ older.build ⟨0⟩ { Settings.default with maxDepth := 64 } = .ok olderBuilt := by
  have harena : ∀ v ∈ unordered.visits, v.id.arena = ⟨0⟩ := by decide
  obtain ⟨hbuild, hin, hvalues, -⟩ := build_fails_for_firstDefect harena
  have hfails : unordered.build ⟨0⟩ .default = .error (.defect .emptyOrderBy) :=
    (hbuild _ _).mpr ⟨_, rfl, rfl⟩
  obtain ⟨-, -, -, hlimit⟩ := build_fails_for_firstDefect fun _ hv => older_over.arena_eq hv
  refine ⟨harena, hfails, (hbuild _ _).mpr ⟨_, rfl, rfl⟩, ?_, ?_, ?_⟩
  · exact ⟨rfl, Nat.zero_le _, (hin _ rfl (Nat.zero_le _) _).mpr ⟨_, rfl, rfl⟩⟩
  · exact ⟨rfl, (hvalues _ .default shortStems _ rfl rfl).mp hfails⟩
  · exact hlimit _ _ 64 older_build (by decide)

end Query

end GraphQuery
