import GraphQuery.Proofs.FirstDefect

/-!
# Parts that have to be there

Some parts of a query may not be empty: a key, a label, the assignments of a SET. Each is looked at
by the function that writes it, and a query is written by many functions. Here the parts are listed
instead, from the tree alone and at any depth, together with what is asked of each. A build over one
arena succeeds exactly when all of them are filled and no more subqueries are open at a time than
the limit allows.

So what a build does not look at makes no difference to it. Two things that a query of any use has
are not among the parts: the body of a subquery may be empty, and so may be everything that a name
is given to by `RETURN *`. Such a query is built, and its text is none that could be run.
-/

namespace GraphQuery

/-! ## Parts -/

/-- A part of a query of which something is asked. -/
inductive Part
  | key (key : String)
  | label (label : String)
  | type (type : String)
  /-- The labels of a node that is created. -/
  | created (labels : List String)
  | assignments (properties : List (String × Expr))
  | carried (items : List WithItem)
  | sorted (items : List OrderItem)
  | operands (junction : Junction) (operands : List Predicate)
  | number (value : Float)

namespace Part

/-- Whether the part holds what it has to. -/
def isFilled : Part → Bool
  | key k => !k.isEmpty
  | label l => !l.isEmpty
  | type t => !t.isEmpty
  | created labels => !labels.isEmpty
  | assignments properties => !properties.isEmpty
  | carried items => !items.isEmpty
  | sorted items => !items.isEmpty
  | operands _ ps => !ps.isEmpty
  | number x => x.isFinite

/-- What a query has when the part is not filled. -/
def defect : Part → Defect
  | key _ => .emptyPropertyKey
  | label _ => .emptyLabel
  | type _ => .emptyLabel
  | created _ => .missingLabels
  | assignments _ => .emptySet
  | carried _ => .emptyWith
  | sorted _ => .emptyOrderBy
  | operands junction _ => .emptyGroup junction
  | number x => .nonFiniteLiteral x

end Part

/-- Of the literals only a float can be wrong. -/
def Literal.parts : Literal → List Part
  | null => []
  | bool _ => []
  | int _ => []
  | float x => [.number x]

mutual

/-- The keys and numbers of an expression. -/
def Expr.parts : Expr → List Part
  | .literal value => value.parts
  | .param _ => []
  | .ref _ => []
  | .property _ key => [.key key]
  | .call f => f.parts
  | .list items => Expr.itemParts items
  | .map entries => Expr.entryParts entries
  | .projection _ fields => Expr.fieldParts fields

/-- The keys and numbers among the arguments of a call. -/
def FunctionCall.parts : FunctionCall → List Part
  | .coalesce _ key fallback => .key key :: fallback.parts
  | .distance source _ => source.parts
  | .apply _ argument => argument.parts

/-- The key of the property, or the parts of the call. -/
def DistanceSource.parts : DistanceSource → List Part
  | .property _ key => [.key key]
  | .call f => f.parts

/-- The key of a field, and the parts of its value. -/
def ProjectionField.parts : ProjectionField → List Part
  | .shorthand key => [.key key]
  | .entry key value => .key key :: value.parts

/-- The parts of the items. -/
def Expr.itemParts : List Expr → List Part
  | [] => []
  | item :: rest => item.parts ++ Expr.itemParts rest

/-- The keys of the entries and the parts of their values. -/
def Expr.entryParts : List (String × Expr) → List Part
  | [] => []
  | (key, value) :: rest => .key key :: (value.parts ++ Expr.entryParts rest)

/-- The parts of the fields. -/
def Expr.fieldParts : List ProjectionField → List Part
  | [] => []
  | field :: rest => field.parts ++ Expr.fieldParts rest

end

/-- All labels of a node, whether the pattern writes them or not. -/
def NodePattern.parts (p : NodePattern) : List Part :=
  p.node.labels.map .label

/-- The type of a relationship, if it has one, and the labels of the node it leads to. -/
def Hop.parts (h : Hop) : List Part :=
  h.relationship.type.toList.map .type ++ h.target.parts

/-- The labels and types along a pattern. -/
def Pattern.parts (p : Pattern) : List Part :=
  p.start.parts ++ p.hops.flatMap Hop.parts

/-- The keys listed for an entity, or the parts of an expression. -/
def ReturnTarget.parts : ReturnTarget → List Part
  | .entity _ fields => fields.map .key
  | .expr e => e.parts
  | .all => []

mutual

/-- The operands of each group are a part themselves, beside the parts in them. -/
def Predicate.parts : Predicate → List Part
  | .compare _ lhs rhs => lhs.parts ++ rhs.parts
  | .isNull e => e.parts
  | .isNotNull e => e.parts
  | .group junction operands => .operands junction operands :: Predicate.operandParts operands
  | .not operand => operand.parts
  | .existsIn body => Clause.bodyParts body

/-- The parts of the operands. -/
def Predicate.operandParts : List Predicate → List Part
  | [] => []
  | operand :: rest => operand.parts ++ Predicate.operandParts rest

/-- The parts of a clause. What a clause may not be without is a part itself, beside the parts in
it. -/
def Clause.parts : Clause → List Part
  | .create node properties =>
    .created node.labels :: (node.labels.map .label ++ Expr.entryParts properties)
  | .matching _ pattern none => pattern.parts
  | .matching _ pattern (some condition) => pattern.parts ++ condition.parts
  | .call body => Clause.bodyParts body
  | .withAll => []
  | .withItems items => .carried items :: items.flatMap fun item => item.expr.parts
  | .set _ properties => .assignments properties :: Expr.entryParts properties
  | .orderBy items => .sorted items :: items.flatMap fun item => item.expr.parts
  | .skip _ => []
  | .limit _ => []
  | .result r => r.target.parts

/-- The parts of all clauses of a body. -/
def Clause.bodyParts : List Clause → List Part
  | [] => []
  | clause :: rest => clause.parts ++ Clause.bodyParts rest

end

/-- All parts of a query, those in its subqueries too. -/
def Query.parts (q : Query) : List Part :=
  Clause.bodyParts q.clauses

/-! ## Subqueries -/

mutual

/-- The bodies of the subqueries in a condition, at any depth. -/
def Predicate.bodies : Predicate → List (List Clause)
  | .compare _ _ _ => []
  | .isNull _ => []
  | .isNotNull _ => []
  | .group _ operands => Predicate.operandBodies operands
  | .not operand => operand.bodies
  | .existsIn body => body :: Clause.bodiesIn body

/-- The bodies of the subqueries in the operands. -/
def Predicate.operandBodies : List Predicate → List (List Clause)
  | [] => []
  | operand :: rest => operand.bodies ++ Predicate.operandBodies rest

/-- The bodies of the subqueries in a clause. Only a condition and a CALL have any. -/
def Clause.bodies : Clause → List (List Clause)
  | .matching _ _ (some condition) => condition.bodies
  | .call body => body :: Clause.bodiesIn body
  | .matching _ _ none | .create _ _ | .withAll | .withItems _ | .set _ _ | .orderBy _ | .skip _
  | .limit _ | .result _ => []

/-- The bodies of the subqueries in some clauses, not counting these clauses themselves. -/
def Clause.bodiesIn : List Clause → List (List Clause)
  | [] => []
  | clause :: rest => clause.bodies ++ Clause.bodiesIn rest

end

/-- The bodies of all subqueries of a query, at any depth. -/
def Query.bodies (q : Query) : List (List Clause) :=
  Clause.bodiesIn q.clauses

mutual

/-- How many subqueries of a condition are one in the other. -/
def Predicate.nesting : Predicate → Nat
  | .compare _ _ _ => 0
  | .isNull _ => 0
  | .isNotNull _ => 0
  | .group _ operands => Predicate.operandNesting operands
  | .not operand => operand.nesting
  | .existsIn body => Clause.bodyNesting body + 1

/-- The deepest of the operands decides. -/
def Predicate.operandNesting : List Predicate → Nat
  | [] => 0
  | operand :: rest => max operand.nesting (Predicate.operandNesting rest)

/-- How many subqueries of a clause are one in the other. A CALL is one itself. -/
def Clause.nesting : Clause → Nat
  | .matching _ _ (some condition) => condition.nesting
  | .call body => Clause.bodyNesting body + 1
  | .matching _ _ none | .create _ _ | .withAll | .withItems _ | .set _ _ | .orderBy _ | .skip _
  | .limit _ | .result _ => 0

/-- The deepest of the clauses decides. -/
def Clause.bodyNesting : List Clause → Nat
  | [] => 0
  | clause :: rest => max clause.nesting (Clause.bodyNesting rest)

end

/-- How many subqueries of a query are one in the other. -/
def Query.nesting (q : Query) : Nat :=
  Clause.bodyNesting q.clauses

/-- Nothing is missing from a query: all parts are filled, no subquery is empty, and only what is
returned by itself is named. -/
structure Query.Complete (q : Query) : Prop where
  /-- Whatever may not be empty is not. -/
  filled : ∀ part ∈ q.parts, part.isFilled
  /-- No subquery is without clauses. -/
  bodies : ∀ body ∈ q.bodies, body ≠ []
  /-- `RETURN *` has no name, in the query or in a subquery. -/
  unnamed : ∀ body ∈ q.clauses :: q.bodies, ∀ r, .result r ∈ body → r.target = .all →
    r.outputName = none

/-! ## The defect of an unfilled part -/

/-- What was found where `depth` subqueries are open and `limit` may be: nothing, if all the parts
are filled and there is room for as many subqueries more; else the defect of one of them, or that
one subquery is too many. -/
structure Judges (limit depth : Nat) (found : Option Defect) (parts : List Part) (nesting : Nat) :
    Prop where
  /-- Nothing is found exactly when nothing is missing and there is room. -/
  eq_none_iff : found = none ↔ (∀ part ∈ parts, part.isFilled) ∧ depth + nesting ≤ limit
  /-- What is found is the defect of one of the parts, or that there is no room. -/
  of_some : ∀ {why}, found = some why →
    (∃ part ∈ parts, part.isFilled = false ∧ why = part.defect)
      ∨ limit < depth + nesting ∧ why = .subqueryTooDeep (limit + 1) limit

namespace Judges

variable {limit depth a b : Nat} {found found' : Option Defect} {ps qs : List Part}

theorem nil (hd : depth ≤ limit) : Judges limit depth none [] 0 :=
  ⟨by simpa using hd, fun h => by cases h⟩

/-- One part is judged by a test for what it lacks. -/
theorem part (hd : depth ≤ limit) (p : Part) {lacking : Bool} (hp : p.isFilled = !lacking) :
    Judges limit depth (defectIf lacking p.defect) [p] 0 := by
  cases lacking with
  | false => exact ⟨by simpa [defectIf, hp] using hd, fun h => by cases h⟩
  | true =>
    refine ⟨by simp [defectIf, hp], fun h => .inl ⟨p, List.mem_singleton_self p, hp, ?_⟩⟩
    exact (Option.some.inj h).symm

/-- What is found first is found; the parts of both are judged, and both need room. -/
theorem or (h : Judges limit depth found ps a) (h' : Judges limit depth found' qs b) :
    Judges limit depth (found.or found') (ps ++ qs) (max a b) := by
  constructor
  · -- there is room for both when there is room for each by itself
    have hroom : depth + max a b ≤ limit ↔ depth + a ≤ limit ∧ depth + b ≤ limit := by omega
    rw [Option.or_eq_none_iff, h.eq_none_iff, h'.eq_none_iff, List.forall_mem_append, hroom,
      and_and_and_comm]
  · intro why hwhy
    rcases Option.or_eq_some_iff.mp hwhy with hfound | ⟨-, hfound⟩
    · rcases h.of_some hfound with ⟨p, hp, hpart⟩ | ⟨hdeep, hpart⟩
      · exact .inl ⟨p, List.mem_append_left _ hp, hpart⟩
      · exact .inr ⟨by omega, hpart⟩
    · rcases h'.of_some hfound with ⟨p, hp, hpart⟩ | ⟨hdeep, hpart⟩
      · exact .inl ⟨p, List.mem_append_right _ hp, hpart⟩
      · exact .inr ⟨by omega, hpart⟩

/-- The limit is judged before the body. -/
theorem subquery (hd : depth ≤ limit)
    (h : depth < limit → Judges limit (depth + 1) found ps a) :
    Judges limit depth (if depth < limit then found else some (.subqueryTooDeep (limit + 1) limit))
      ps (a + 1) := by
  by_cases hlt : depth < limit
  · -- the subquery that is open for the body is one that the whole nests
    have hbody := h hlt
    have hdepth : depth + 1 + a = depth + (a + 1) := by omega
    rw [if_pos hlt]
    exact ⟨hdepth ▸ hbody.eq_none_iff, hdepth ▸ hbody.of_some⟩
  · -- the body is not looked at, since its subquery is already one too many
    have hfull : limit < depth + (a + 1) := by omega
    rw [if_neg hlt]
    refine ⟨by simp; omega, fun h => .inr ⟨hfull, (Option.some.inj h).symm⟩⟩

/-- Parts of one kind are judged together, where one of them has what all of them might have. -/
theorem all {α : Type} {p : α → Part} {lacking : α → Bool} {why : Defect} (hd : depth ≤ limit)
    (hp : ∀ x, (p x).isFilled = !lacking x) (hwhy : ∀ x, (p x).defect = why) (xs : List α) :
    Judges limit depth (defectIf (xs.any lacking) why) (xs.map p) 0 := by
  constructor
  · rw [List.forall_mem_map]
    cases hany : xs.any lacking with
    | true =>
      obtain ⟨x, hx, hlacking⟩ := List.any_eq_true.mp hany
      refine iff_of_false (by simp [defectIf]) fun h => ?_
      exact absurd (h.1 x hx) (by simp [hp, hlacking])
    | false => simpa [defectIf, hd, hp] using hany
  · intro why' h
    cases hany : xs.any lacking with
    | true =>
      obtain ⟨x, hx, hlacking⟩ := List.any_eq_true.mp hany
      rw [hany] at h
      refine .inl ⟨p x, List.mem_map_of_mem hx, by simp [hp, hlacking], ?_⟩
      exact (Option.some.inj h).symm.trans (hwhy x).symm
    | false =>
      rw [hany] at h
      cases h

/-- Parts of the same shape are judged one after the other. -/
theorem flatMap {α : Type} {defect : α → Option Defect} {parts : α → List Part}
    (hd : depth ≤ limit) (h : ∀ x, Judges limit depth (defect x) (parts x) 0) (xs : List α) :
    Judges limit depth (xs.findSome? defect) (xs.flatMap parts) 0 := by
  induction xs with
  | nil => exact nil hd
  | cons x rest ih =>
    have hrest := (h x).or ih
    rw [List.findSome?_cons]
    cases hx : defect x <;> rw [hx] at hrest <;> exact hrest

end Judges

/-! ## What the parts of a tree are judged by -/

section Trees

variable {limit depth : Nat}

theorem keyDefect_judges (hd : depth ≤ limit) (key : String) :
    Judges limit depth (keyDefect key) [.key key] 0 :=
  .part hd (.key key) rfl

theorem Literal.firstDefect_judges (hd : depth ≤ limit) (value : Literal) :
    Judges limit depth value.firstDefect value.parts 0 := by
  cases value with
  | float x => exact .part hd (.number x) (Bool.not_not _).symm
  | _ => exact .nil hd

mutual

theorem Expr.firstDefect_judges (hd : depth ≤ limit) (e : Expr) :
    Judges limit depth e.firstDefect e.parts 0 := by
  cases e with
  | literal value => exact value.firstDefect_judges hd
  | param p => exact .nil hd
  | ref target => exact .nil hd
  | property target key => exact keyDefect_judges hd key
  | call f => exact FunctionCall.firstDefect_judges hd f
  | list items => exact Expr.itemDefect_judges hd items
  | map entries => exact Expr.entryDefect_judges hd entries
  | projection target fields => exact Expr.fieldDefect_judges hd fields

theorem FunctionCall.firstDefect_judges (hd : depth ≤ limit) (f : FunctionCall) :
    Judges limit depth f.firstDefect f.parts 0 := by
  cases f with
  | coalesce target key fallback =>
    exact (keyDefect_judges hd key).or (Expr.firstDefect_judges hd fallback)
  | distance source point => exact DistanceSource.firstDefect_judges hd source
  | apply f argument => exact Expr.firstDefect_judges hd argument

theorem DistanceSource.firstDefect_judges (hd : depth ≤ limit) (source : DistanceSource) :
    Judges limit depth source.firstDefect source.parts 0 := by
  cases source with
  | property target key => exact keyDefect_judges hd key
  | call f => exact FunctionCall.firstDefect_judges hd f

theorem ProjectionField.firstDefect_judges (hd : depth ≤ limit) (field : ProjectionField) :
    Judges limit depth field.firstDefect field.parts 0 := by
  cases field with
  | shorthand key => exact keyDefect_judges hd key
  | entry key value => exact (keyDefect_judges hd key).or (Expr.firstDefect_judges hd value)

theorem Expr.itemDefect_judges (hd : depth ≤ limit) (items : List Expr) :
    Judges limit depth (Expr.itemDefect items) (Expr.itemParts items) 0 := by
  cases items with
  | nil => exact .nil hd
  | cons item rest =>
    exact (Expr.firstDefect_judges hd item).or (Expr.itemDefect_judges hd rest)

theorem Expr.entryDefect_judges (hd : depth ≤ limit) (entries : List (String × Expr)) :
    Judges limit depth (Expr.entryDefect entries) (Expr.entryParts entries) 0 := by
  cases entries with
  | nil => exact .nil hd
  | cons entry rest =>
    obtain ⟨key, value⟩ := entry
    exact (keyDefect_judges hd key).or
      ((Expr.firstDefect_judges hd value).or (Expr.entryDefect_judges hd rest))

theorem Expr.fieldDefect_judges (hd : depth ≤ limit) (fields : List ProjectionField) :
    Judges limit depth (Expr.fieldDefect fields) (Expr.fieldParts fields) 0 := by
  cases fields with
  | nil => exact .nil hd
  | cons field rest =>
    exact (ProjectionField.firstDefect_judges hd field).or (Expr.fieldDefect_judges hd rest)

end

theorem NodePattern.firstDefect_judges (hd : depth ≤ limit) (p : NodePattern) :
    Judges limit depth p.firstDefect p.parts 0 :=
  Judges.all (p := Part.label) hd (fun _ => rfl) (fun _ => rfl) p.node.labels

theorem Hop.firstDefect_judges (hd : depth ≤ limit) (h : Hop) :
    Judges limit depth h.firstDefect h.parts 0 := by
  have htype : Judges limit depth (defectIf (h.relationship.type.any String.isEmpty) .emptyLabel)
      (h.relationship.type.toList.map .type) 0 := by
    cases h.relationship.type with
    | none => exact .nil hd
    | some type => exact .part hd (.type type) rfl
  exact htype.or (h.target.firstDefect_judges hd)

theorem Pattern.firstDefect_judges (hd : depth ≤ limit) (p : Pattern) :
    Judges limit depth p.firstDefect p.parts 0 :=
  (p.start.firstDefect_judges hd).or (.flatMap hd (Hop.firstDefect_judges hd) p.hops)

theorem ReturnTarget.firstDefect_judges (hd : depth ≤ limit) (target : ReturnTarget) :
    Judges limit depth target.firstDefect target.parts 0 := by
  cases target with
  | entity target fields =>
    rw [ReturnTarget.parts, List.map_eq_flatMap]
    exact .flatMap hd (keyDefect_judges hd) fields
  | expr e => exact e.firstDefect_judges hd
  | all => exact .nil hd

end Trees

mutual

theorem Predicate.firstDefect_judges {limit depth : Nat} (hd : depth ≤ limit) (p : Predicate) :
    Judges limit depth (p.firstDefect limit depth) p.parts p.nesting := by
  match p with
  | .compare operator lhs rhs =>
    exact (lhs.firstDefect_judges hd).or (rhs.firstDefect_judges hd)
  | .isNull e => exact e.firstDefect_judges hd
  | .isNotNull e => exact e.firstDefect_judges hd
  | .group junction operands =>
    have hgroup := Judges.part hd (.operands junction operands) rfl
    have hall := hgroup.or (Predicate.operandDefect_judges hd operands)
    rwa [Nat.zero_max] at hall
  | .not operand => exact Predicate.firstDefect_judges hd operand
  | .existsIn body => exact .subquery hd fun hlt => Clause.bodyDefect_judges hlt body

theorem Predicate.operandDefect_judges {limit depth : Nat} (hd : depth ≤ limit)
    (operands : List Predicate) :
    Judges limit depth (Predicate.operandDefect limit depth operands)
      (Predicate.operandParts operands) (Predicate.operandNesting operands) := by
  match operands with
  | [] => exact .nil hd
  | operand :: rest =>
    exact (Predicate.firstDefect_judges hd operand).or (Predicate.operandDefect_judges hd rest)

theorem Clause.firstDefect_judges {limit depth : Nat} (hd : depth ≤ limit) (c : Clause) :
    Judges limit depth (c.firstDefect limit depth) c.parts c.nesting := by
  match c with
  | .create node properties =>
    -- what the clause itself may not lack is found before anything in it
    have hcreated := Judges.part hd (.created node.labels) rfl
    exact hcreated.or (((NodePattern.declared node).firstDefect_judges hd).or
      (Expr.entryDefect_judges hd properties))
  | .matching optional pattern none => exact pattern.firstDefect_judges hd
  | .matching optional pattern (some condition) =>
    have hall := (pattern.firstDefect_judges hd).or (Predicate.firstDefect_judges hd condition)
    rwa [Nat.zero_max] at hall
  | .call body => exact .subquery hd fun hlt => Clause.bodyDefect_judges hlt body
  | .withAll => exact .nil hd
  | .withItems items =>
    have hcarried := Judges.part hd (.carried items) rfl
    exact hcarried.or (.flatMap hd (fun item => item.expr.firstDefect_judges hd) items)
  | .set target properties =>
    have hassigned := Judges.part hd (.assignments properties) rfl
    exact hassigned.or (Expr.entryDefect_judges hd properties)
  | .orderBy items =>
    have hsorted := Judges.part hd (.sorted items) rfl
    exact hsorted.or (.flatMap hd (fun item => item.expr.firstDefect_judges hd) items)
  | .skip count => exact .nil hd
  | .limit count => exact .nil hd
  | .result r => exact r.target.firstDefect_judges hd

theorem Clause.bodyDefect_judges {limit depth : Nat} (hd : depth ≤ limit) (body : List Clause) :
    Judges limit depth (Clause.bodyDefect limit depth body) (Clause.bodyParts body)
      (Clause.bodyNesting body) := by
  match body with
  | [] => exact .nil hd
  | clause :: rest =>
    exact (Clause.firstDefect_judges hd clause).or (Clause.bodyDefect_judges hd rest)

end

/-! ## Builds -/

namespace Query

variable {q : Query} {arena : ArenaId} {s : Settings}

theorem firstDefect_judges (q : Query) (limit : Nat) :
    Judges limit 0 (q.firstDefect limit) q.parts q.nesting :=
  Clause.bodyDefect_judges (Nat.zero_le limit) q.clauses

/-- Over one arena a build fails for the first defect and for nothing else. -/
theorem build_eq_error_iff_firstDefect (hq : ∀ v ∈ q.visits, v.id.arena = arena) {fault : Fault} :
    q.build arena s = .error fault
      ↔ ∃ why, q.firstDefect s.maxDepth = some why ∧ .defect why = fault :=
  buildIn_eq_error_iff_bodyDefect hq (n := .fresh arena s) rfl (Nat.zero_le _)

theorem exists_build_iff_firstDefect (hq : ∀ v ∈ q.visits, v.id.arena = arena) :
    (∃ b, q.build arena s = .ok b) ↔ q.firstDefect s.maxDepth = none := by
  cases hb : q.build arena s with
  | error fault =>
    obtain ⟨why, hwhy, -⟩ := (build_eq_error_iff_firstDefect hq).mp hb
    simp [hwhy]
  | ok b =>
    refine iff_of_true ⟨b, rfl⟩ (Option.eq_none_iff_forall_ne_some.mpr fun why hwhy => ?_)
    have herror := (build_eq_error_iff_firstDefect (s := s) hq).mpr ⟨why, hwhy, rfl⟩
    rw [hb] at herror
    cases herror

/-- **A build succeeds exactly when every part is filled** and the query nests no deeper than the
limit, and otherwise names a part that is not. So all that a query that was built can miss is the
body of a subquery, or what a name is given to by `RETURN *`. -/
theorem build_iff_filled (q : Query) (arena : ArenaId) (s : Settings) :
    ((∃ b, q.build arena s = .ok b)
        ↔ (∀ v ∈ q.visits, v.id.arena = arena) ∧ (∀ part ∈ q.parts, part.isFilled)
          ∧ q.nesting ≤ s.maxDepth)
    ∧ (∀ fault, (∀ v ∈ q.visits, v.id.arena = arena) → q.build arena s = .error fault →
        (∃ part ∈ q.parts, part.isFilled = false ∧ fault = .defect part.defect)
          ∨ s.maxDepth < q.nesting
            ∧ fault = .defect (.subqueryTooDeep (s.maxDepth + 1) s.maxDepth))
    ∧ ∀ b, q.build arena s = .ok b →
        (q.Complete ↔ (∀ body ∈ q.bodies, body ≠ []) ∧ ∀ body ∈ q.clauses :: q.bodies, ∀ r,
          .result r ∈ body → r.target = .all → r.outputName = none) := by
  have hjudges := q.firstDefect_judges s.maxDepth
  have hiff : (∃ b, q.build arena s = .ok b)
      ↔ (∀ v ∈ q.visits, v.id.arena = arena) ∧ (∀ part ∈ q.parts, part.isFilled)
        ∧ q.nesting ≤ s.maxDepth := by
    constructor
    · rintro ⟨b, hb⟩
      -- a foreign reference would have stopped the build, so the criterion of local ones applies
      have hlocal := (build_ok hb).2.2.1
      have hnone := (exists_build_iff_firstDefect hlocal).mp ⟨b, hb⟩
      rw [hjudges.eq_none_iff, Nat.zero_add] at hnone
      exact ⟨hlocal, hnone⟩
    · rintro ⟨hlocal, hfilled⟩
      rw [exists_build_iff_firstDefect hlocal, hjudges.eq_none_iff, Nat.zero_add]
      exact hfilled
  refine ⟨hiff, ?_, ?_⟩
  · intro fault hlocal hfault
    obtain ⟨why, hwhy, rfl⟩ := (build_eq_error_iff_firstDefect hlocal).mp hfault
    rcases hjudges.of_some hwhy with ⟨part, hpart, hunfilled, rfl⟩ | ⟨hdeep, rfl⟩
    · exact .inl ⟨part, hpart, hunfilled, rfl⟩
    · exact .inr ⟨by rwa [Nat.zero_add] at hdeep, rfl⟩
  · intro b hb
    have hfilled := (hiff.mp ⟨b, hb⟩).2.1
    exact ⟨fun h => ⟨h.bodies, h.unnamed⟩, fun ⟨hbodies, hunnamed⟩ => ⟨hfilled, hbodies, hunnamed⟩⟩

/-- A subquery without a clause, once called and once asked about, and everything under a name. -/
theorem incomplete_built :
    ((Query.build ⟨[.call []]⟩ ⟨0⟩ .default).map Built.text).toOption = some "CALL \x7b  \x7d"
    ∧ ((Query.build ⟨[.matching false ⟨.declared ⟨⟨⟨0⟩, 0⟩, []⟩, []⟩ (some (.existsIn []))]⟩ ⟨0⟩
        .default).map Built.text).toOption = some "MATCH (this)\nWHERE EXISTS \x7b\n\n\x7d"
    ∧ ((Query.build ⟨[.result ⟨.all, some (.name "x")⟩]⟩ ⟨0⟩ .default).map Built.text).toOption
      = some "RETURN * AS x"
    ∧ ¬∀ (q : Query) (arena : ArenaId) (s : Settings) (b : Built),
      q.build arena s = .ok b → q.Complete := by
  refine ⟨by decide +kernel, by decide +kernel, by decide +kernel, fun h => ?_⟩
  have hmem : [] ∈ Query.bodies ⟨[.call []]⟩ := List.mem_singleton_self []
  exact (h ⟨[.call []]⟩ ⟨0⟩ .default ⟨"CALL \x7b  \x7d", []⟩ rfl).bodies [] hmem rfl

end Query

end GraphQuery
