import GraphQuery.Proofs.Tokens
import GraphQuery.Proofs.Walks

/-!
# Queries under other identities and values

An identity says which mentions are mentions of the same thing, and a value is bound to a parameter
and never looked at. So a query may give its references other identities, and its parameters other
values, and what is built from it stays what it was: the same text, or the same refusal.

A relabelling says which identity takes the place of each and which value the place of each value.
It acts on a tree by replacing references where they stand, and the steps and the pieces of the new
tree are those of the old one, relabelled one by one. Both ways to speak about a build, by its steps
when it fails and by its pieces when it succeeds, then come down to lists.
-/

namespace GraphQuery

/-- Other identities for references and other values for parameters. -/
structure Relabelling where
  id : RefId → RefId
  value : Json → Json

variable {f : Relabelling}

/-! ## Relabelled trees -/

/-- The same kind of reference under another identity. -/
def Reference.relabel (f : Relabelling) (r : Reference) : Reference :=
  ⟨f.id r.id, r.kind⟩

/-- The same labels under another identity. -/
def NodeRef.relabel (f : Relabelling) (n : NodeRef) : NodeRef :=
  ⟨f.id n.id, n.labels⟩

/-- The same type under another identity. -/
def RelationshipRef.relabel (f : Relabelling) (r : RelationshipRef) : RelationshipRef :=
  ⟨f.id r.id, r.type⟩

/-- A variable under another identity, which is all there is to it. -/
def VariableRef.relabel (f : Relabelling) (v : VariableRef) : VariableRef :=
  ⟨f.id v.id⟩

/-- A parameter with another identity and value. Whether it is a point stays, since that is
written. -/
def Param.relabel (f : Relabelling) (p : Param) : Param :=
  ⟨f.id p.id, f.value p.value, p.isPoint⟩

mutual

/-- The expression with other identities. Keys and literals stay. -/
def Expr.relabel (f : Relabelling) : Expr → Expr
  | .literal value => .literal value
  | .param p => .param (p.relabel f)
  | .ref target => .ref (target.relabel f)
  | .property target key => .property (target.relabel f) key
  | .call function => .call (function.relabel f)
  | .list items => .list (Expr.relabelItems f items)
  | .map entries => .map (Expr.relabelEntries f entries)
  | .projection target fields => .projection (target.relabel f) (Expr.relabelFields f fields)

/-- The same call of other references. -/
def FunctionCall.relabel (f : Relabelling) : FunctionCall → FunctionCall
  | .coalesce target key fallback => .coalesce (target.relabel f) key (fallback.relabel f)
  | .distance source point => .distance (source.relabel f) (point.relabel f)
  | .apply function argument => .apply function (argument.relabel f)

/-- The same source of another reference. -/
def DistanceSource.relabel (f : Relabelling) : DistanceSource → DistanceSource
  | .property target key => .property (target.relabel f) key
  | .call function => .call (function.relabel f)

/-- The same field, with its value relabelled if it has one. -/
def ProjectionField.relabel (f : Relabelling) : ProjectionField → ProjectionField
  | .shorthand key => .shorthand key
  | .entry key value => .entry key (value.relabel f)

/-- The items, each relabelled in its place. -/
def Expr.relabelItems (f : Relabelling) : List Expr → List Expr
  | [] => []
  | item :: rest => item.relabel f :: Expr.relabelItems f rest

/-- The entries, each value relabelled under its key. -/
def Expr.relabelEntries (f : Relabelling) : List (String × Expr) → List (String × Expr)
  | [] => []
  | (key, value) :: rest => (key, value.relabel f) :: Expr.relabelEntries f rest

/-- The fields, each relabelled in its place. -/
def Expr.relabelFields (f : Relabelling) : List ProjectionField → List ProjectionField
  | [] => []
  | field :: rest => field.relabel f :: Expr.relabelFields f rest

end

/-- The node of a pattern, relabelled. -/
def NodePattern.relabel (f : Relabelling) (p : NodePattern) : NodePattern :=
  ⟨p.node.relabel f, p.withLabels⟩

/-- A step in the same direction, along another relationship to another node. -/
def Hop.relabel (f : Relabelling) (h : Hop) : Hop :=
  ⟨h.relationship.relabel f, h.direction, h.named, h.target.relabel f⟩

/-- A pattern of the same shape through other references. -/
def Pattern.relabel (f : Relabelling) (p : Pattern) : Pattern :=
  ⟨p.start.relabel f, p.hops.map (Hop.relabel f)⟩

/-- The carried expression and its variable, both relabelled. -/
def WithItem.relabel (f : Relabelling) (item : WithItem) : WithItem :=
  ⟨item.expr.relabel f, item.aliasVariable.map (VariableRef.relabel f)⟩

/-- The sort key, relabelled. The order stays. -/
def OrderItem.relabel (f : Relabelling) (item : OrderItem) : OrderItem :=
  ⟨item.expr.relabel f, item.direction⟩

/-- What is returned, relabelled. The listed properties are keys and stay. -/
def ReturnTarget.relabel (f : Relabelling) : ReturnTarget → ReturnTarget
  | .entity target fields => .entity (target.relabel f) fields
  | .expr e => .expr (e.relabel f)
  | .all => .all

/-- An output name. Only the alias of a variable can change. -/
def ReturnAlias.relabel (f : Relabelling) : ReturnAlias → ReturnAlias
  | .name text => .name text
  | .var v => .var (v.relabel f)

/-- The result, relabelled together with its output name. -/
def Result.relabel (f : Relabelling) (r : Result) : Result :=
  ⟨r.target.relabel f, r.outputName.map (ReturnAlias.relabel f)⟩

mutual

/-- A condition of the same shape over other references. -/
def Predicate.relabel (f : Relabelling) : Predicate → Predicate
  | .compare operator lhs rhs => .compare operator (lhs.relabel f) (rhs.relabel f)
  | .isNull e => .isNull (e.relabel f)
  | .isNotNull e => .isNotNull (e.relabel f)
  | .group junction operands => .group junction (Predicate.relabelOperands f operands)
  | .not operand => .not (operand.relabel f)
  | .existsIn body => .existsIn (Clause.relabelBody f body)

/-- The operands, each relabelled in its place. -/
def Predicate.relabelOperands (f : Relabelling) : List Predicate → List Predicate
  | [] => []
  | operand :: rest => operand.relabel f :: Predicate.relabelOperands f rest

/-- A clause of the same kind over other references. -/
def Clause.relabel (f : Relabelling) : Clause → Clause
  | .create node properties => .create (node.relabel f) (Expr.relabelEntries f properties)
  | .matching optional pattern none => .matching optional (pattern.relabel f) none
  | .matching optional pattern (some condition) =>
    .matching optional (pattern.relabel f) (some (condition.relabel f))
  | .call body => .call (Clause.relabelBody f body)
  | .withAll => .withAll
  | .withItems items => .withItems (items.map (WithItem.relabel f))
  | .set target properties => .set (target.relabel f) (Expr.relabelEntries f properties)
  | .orderBy items => .orderBy (items.map (OrderItem.relabel f))
  | .skip count => .skip (count.relabel f)
  | .limit count => .limit (count.relabel f)
  | .result r => .result (r.relabel f)

/-- The clauses of a body, each relabelled in its place. -/
def Clause.relabelBody (f : Relabelling) : List Clause → List Clause
  | [] => []
  | clause :: rest => clause.relabel f :: Clause.relabelBody f rest

end

/-- The query with other identities and values, and nothing else changed. -/
def Query.relabel (f : Relabelling) (q : Query) : Query :=
  ⟨Clause.relabelBody f q.clauses⟩

/-! ## Relabelled lists -/

/-- A visit of the relabelled reference or parameter. -/
def Visit.relabel (f : Relabelling) : Visit → Visit
  | ref r => ref (r.relabel f)
  | param p => param (p.relabel f)

/-- A step of the relabelled tree. Refusals stay, and so do the ends of subqueries. -/
def Step.relabel (f : Relabelling) : Step → Step
  | visit v => visit (v.relabel f)
  | refuse why => refuse why
  | enter => enter
  | leave => leave

/-- A piece of the relabelled tree. Only names that a build gives can change. -/
def Piece.relabel (f : Relabelling) : Piece → Piece
  | aliasOf r => aliasOf (r.relabel f)
  | param p => param (p.relabel f)
  | piece => piece

/-- A foreign reference is refused under its new identity. -/
def Fault.relabel (f : Relabelling) : Fault → Fault
  | defect why => defect why
  | foreign i => foreign (f.id i)

@[simp] theorem Visit.id_relabel (v : Visit) : (v.relabel f).id = f.id v.id := by
  cases v <;> rfl

theorem visitsOf_relabel (ss : List Step) :
    visitsOf (ss.map (Step.relabel f)) = (visitsOf ss).map (Visit.relabel f) := by
  induction ss with
  | nil => rfl
  | cons s ss ih =>
    cases s with
    | visit v => exact congrArg (_ :: ·) ih
    | refuse why => exact ih
    | enter => exact ih
    | leave => exact ih

theorem paramsOf_relabel (vs : List Visit) :
    paramsOf (vs.map (Visit.relabel f)) = (paramsOf vs).map (Param.relabel f) := by
  induction vs with
  | nil => rfl
  | cons v vs ih =>
    cases v with
    | ref r => exact ih
    | param p => exact congrArg (_ :: ·) ih

/-- Spelling relabelled pieces is spelling the old ones with what the new ones are called. -/
theorem spell_relabel (names : Names) (ps : List Piece) :
    spell names (ps.map (Piece.relabel f)) = spell (fun v => names (v.relabel f)) ps := by
  have hpiece : ∀ p : Piece, (p.relabel f).text names = p.text fun v => names (v.relabel f) := by
    intro p
    cases p <;> rfl
  induction ps with
  | nil => rfl
  | cons p ps ih => rw [List.map_cons, spell_cons, spell_cons, hpiece, ih]

theorem map_intercalate {α β : Type} (g : α → β) (sep : List α) (parts : List (List α)) :
    (sep.intercalate parts).map g = (sep.map g).intercalate (parts.map (List.map g)) := by
  induction parts with
  | nil => rfl
  | cons part parts ih =>
    cases parts with
    | nil => simp [List.intercalate]
    | cons other parts =>
      rw [List.intercalate_cons_cons, List.map_append, List.map_append, ih, List.map_cons,
        List.map_cons, List.map_cons, List.intercalate_cons_cons]

/-- Several lists of pieces at once. -/
abbrev relabelParts (f : Relabelling) (parts : List (List Piece)) : List (List Piece) :=
  parts.map (List.map (Piece.relabel f))

theorem commaSeparated_relabel (parts : List (List Piece)) :
    commaSeparated (relabelParts f parts) = (commaSeparated parts).map (Piece.relabel f) := by
  rw [commaSeparated, commaSeparated, map_intercalate]
  rfl

theorem bracketed_relabel (left right : Mark) (parts : List (List Piece)) :
    bracketed left right (relabelParts f parts)
      = (bracketed left right parts).map (Piece.relabel f) := by
  rw [bracketed, commaSeparated_relabel, bracketed, List.map_cons, List.map_append]
  rfl

/-! ## Steps -/

theorem refuseIf_relabel (found : Bool) (why : Defect) :
    (refuseIf found why).map (Step.relabel f) = refuseIf found why := by
  cases found <;> rfl

theorem propertySteps_relabel (target : Reference) (key : String) :
    propertySteps (target.relabel f) key = (propertySteps target key).map (Step.relabel f) := by
  rw [propertySteps, propertySteps, List.map_append, keySteps, refuseIf_relabel]
  rfl

mutual

theorem Expr.steps_relabel (e : Expr) :
    (e.relabel f).steps = e.steps.map (Step.relabel f) := by
  cases e with
  | literal value =>
    cases value with
    | float x => exact (refuseIf_relabel _ _).symm
    | _ => rfl
  | param p => rfl
  | ref target => rfl
  | property target key => exact propertySteps_relabel target key
  | call function => exact FunctionCall.steps_relabel function
  | list items => exact Expr.itemSteps_relabel items
  | map entries => exact Expr.entrySteps_relabel entries
  | projection target fields => exact congrArg (_ :: ·) (Expr.fieldSteps_relabel fields)

theorem FunctionCall.steps_relabel (function : FunctionCall) :
    (function.relabel f).steps = function.steps.map (Step.relabel f) := by
  cases function with
  | coalesce target key fallback =>
    have hfallback := Expr.steps_relabel fallback
    rw [FunctionCall.relabel, FunctionCall.steps, propertySteps_relabel, hfallback,
      FunctionCall.steps, List.map_append]
  | distance source point =>
    have hsource := DistanceSource.steps_relabel source
    rw [FunctionCall.relabel, FunctionCall.steps, hsource, FunctionCall.steps, List.map_append]
    rfl
  | apply function argument => exact Expr.steps_relabel argument

theorem DistanceSource.steps_relabel (source : DistanceSource) :
    (source.relabel f).steps = source.steps.map (Step.relabel f) := by
  cases source with
  | property target key => exact propertySteps_relabel target key
  | call function => exact FunctionCall.steps_relabel function

theorem ProjectionField.steps_relabel (field : ProjectionField) :
    (field.relabel f).steps = field.steps.map (Step.relabel f) := by
  cases field with
  | shorthand key => exact (refuseIf_relabel _ _).symm
  | entry key value =>
    have hvalue := Expr.steps_relabel value
    rw [ProjectionField.relabel, ProjectionField.steps, hvalue, ProjectionField.steps,
      List.map_append, keySteps, refuseIf_relabel]

theorem Expr.itemSteps_relabel (items : List Expr) :
    Expr.itemSteps (Expr.relabelItems f items) = (Expr.itemSteps items).map (Step.relabel f) := by
  cases items with
  | nil => rfl
  | cons item rest =>
    have hitem := Expr.steps_relabel item
    have hrest := Expr.itemSteps_relabel rest
    rw [Expr.relabelItems, Expr.itemSteps, hitem, hrest, Expr.itemSteps, List.map_append]

theorem Expr.entrySteps_relabel (entries : List (String × Expr)) :
    Expr.entrySteps (Expr.relabelEntries f entries)
      = (Expr.entrySteps entries).map (Step.relabel f) := by
  cases entries with
  | nil => rfl
  | cons entry rest =>
    obtain ⟨key, value⟩ := entry
    have hvalue := Expr.steps_relabel value
    have hrest := Expr.entrySteps_relabel rest
    rw [Expr.relabelEntries, Expr.entrySteps, hvalue, hrest, Expr.entrySteps, List.map_append,
      List.map_append, keySteps, refuseIf_relabel]

theorem Expr.fieldSteps_relabel (fields : List ProjectionField) :
    Expr.fieldSteps (Expr.relabelFields f fields)
      = (Expr.fieldSteps fields).map (Step.relabel f) := by
  cases fields with
  | nil => rfl
  | cons field rest =>
    have hfield := ProjectionField.steps_relabel field
    have hrest := Expr.fieldSteps_relabel rest
    rw [Expr.relabelFields, Expr.fieldSteps, hfield, hrest, Expr.fieldSteps, List.map_append]

end

/-- What holds of each part holds of all parts together. -/
theorem flatMap_relabel {α : Type} {relabel : α → α} {steps : α → List Step}
    (h : ∀ a, steps (relabel a) = (steps a).map (Step.relabel f)) (parts : List α) :
    (parts.map relabel).flatMap steps = (parts.flatMap steps).map (Step.relabel f) := by
  induction parts with
  | nil => rfl
  | cons part rest ih =>
    rw [List.map_cons, List.flatMap_cons, h, ih, List.flatMap_cons, List.map_append]

theorem NodePattern.steps_relabel (p : NodePattern) :
    (p.relabel f).steps = p.steps.map (Step.relabel f) := by
  rw [NodePattern.steps, NodePattern.steps, List.map_append, refuseIf_relabel]
  rfl

theorem Hop.steps_relabel (h : Hop) : (h.relabel f).steps = h.steps.map (Step.relabel f) := by
  have htype : (typeSteps h.relationship.type).map (Step.relabel f)
      = typeSteps h.relationship.type := by
    cases h.relationship.type with
    | none => rfl
    | some type => exact refuseIf_relabel _ _
  have hname : (if h.named then [Step.visit (.ref (h.relationship.relabel f).reference)] else [])
      = (if h.named then [Step.visit (.ref h.relationship.reference)] else []).map
        (Step.relabel f) := by
    cases h.named <;> rfl
  rw [Hop.steps, Hop.steps, List.map_append, Hop.arrowSteps, Hop.arrowSteps, List.map_append,
    htype, ← hname, ← NodePattern.steps_relabel]
  rfl

theorem Pattern.steps_relabel (p : Pattern) :
    (p.relabel f).steps = p.steps.map (Step.relabel f) := by
  rw [Pattern.steps, Pattern.steps, List.map_append, ← NodePattern.steps_relabel,
    ← flatMap_relabel Hop.steps_relabel]
  rfl

theorem assignmentSteps_relabel (target : Reference) (properties : List (String × Expr)) :
    assignmentSteps (target.relabel f) (Expr.relabelEntries f properties)
      = (assignmentSteps target properties).map (Step.relabel f) :=
  congrArg (_ :: ·) (Expr.entrySteps_relabel properties)

theorem isEmpty_relabelEntries (properties : List (String × Expr)) :
    (Expr.relabelEntries f properties).isEmpty = properties.isEmpty := by
  cases properties <;> rfl

theorem WithItem.steps_relabel (item : WithItem) :
    (item.relabel f).steps = item.steps.map (Step.relabel f) := by
  obtain ⟨e, v⟩ := item
  cases v with
  | none => exact e.steps_relabel
  | some v =>
    have he := e.steps_relabel (f := f)
    show (e.relabel f).steps ++ [Step.visit (.ref (v.relabel f).reference)]
      = (e.steps ++ [Step.visit (.ref v.reference)]).map (Step.relabel f)
    rw [he, List.map_append]
    rfl

theorem Result.steps_relabel (r : Result) :
    (r.relabel f).steps = r.steps.map (Step.relabel f) := by
  have htarget : (r.target.relabel f).steps = r.target.steps.map (Step.relabel f) := by
    rcases r.target with ⟨target, fields⟩ | e | _
    · have hkeys : (fields.map id).flatMap keySteps
          = (fields.flatMap keySteps).map (Step.relabel f) :=
        flatMap_relabel (fun key => (refuseIf_relabel key.isEmpty _).symm) fields
      rw [List.map_id] at hkeys
      exact congrArg (_ :: ·) hkeys
    · exact e.steps_relabel
    · rfl
  have hname : ((r.outputName.map (ReturnAlias.relabel f)).map ReturnAlias.steps).getD []
      = ((r.outputName.map ReturnAlias.steps).getD []).map (Step.relabel f) := by
    rcases r.outputName with _ | ⟨text⟩ | v <;> rfl
  rw [Result.steps, Result.steps, List.map_append, ← htarget, ← hname]
  rfl

mutual

theorem Predicate.steps_relabel (p : Predicate) :
    (p.relabel f).steps = p.steps.map (Step.relabel f) := by
  match p with
  | .compare operator lhs rhs =>
    rw [Predicate.relabel, Predicate.steps, lhs.steps_relabel, rhs.steps_relabel, Predicate.steps,
      List.map_append]
  | .isNull e => exact e.steps_relabel
  | .isNotNull e => exact e.steps_relabel
  | .group junction [] => rfl
  | .group _ (first :: rest) =>
    have hfirst := Predicate.steps_relabel first
    have hrest := Predicate.operandSteps_relabel rest
    rw [Predicate.relabel, Predicate.relabelOperands, Predicate.steps, hfirst, hrest,
      Predicate.steps, List.map_append]
  | .not operand => exact Predicate.steps_relabel operand
  | .existsIn body =>
    have hbody := Clause.bodySteps_relabel body
    rw [Predicate.relabel, Predicate.steps, hbody, Predicate.steps, List.map_cons, List.map_append]
    rfl

theorem Predicate.operandSteps_relabel (operands : List Predicate) :
    Predicate.operandSteps (Predicate.relabelOperands f operands)
      = (Predicate.operandSteps operands).map (Step.relabel f) := by
  match operands with
  | [] => rfl
  | operand :: rest =>
    have hoperand := Predicate.steps_relabel operand
    have hrest := Predicate.operandSteps_relabel rest
    rw [Predicate.relabelOperands, Predicate.operandSteps, hoperand, hrest,
      Predicate.operandSteps, List.map_append]

theorem Clause.steps_relabel (c : Clause) :
    (c.relabel f).steps = c.steps.map (Step.relabel f) := by
  match c with
  | .create node properties =>
    have hassignments := assignmentSteps_relabel (f := f) node.reference properties
    have hpattern := (NodePattern.declared node).steps_relabel (f := f)
    rw [Clause.steps, createSteps, List.map_append, List.map_append, refuseIf_relabel,
      ← hassignments, ← hpattern]
    rfl
  | .matching optional pattern none => exact pattern.steps_relabel
  | .matching optional pattern (some condition) =>
    have hcondition := Predicate.steps_relabel condition
    rw [Clause.relabel, Clause.steps, pattern.steps_relabel, hcondition, Clause.steps,
      List.map_append]
  | .call body =>
    have hbody := Clause.bodySteps_relabel body
    rw [Clause.relabel, Clause.steps, hbody, Clause.steps, List.map_cons, List.map_append]
    rfl
  | .withAll => rfl
  | .withItems items =>
    rw [Clause.relabel, Clause.steps, withSteps, List.isEmpty_map,
      flatMap_relabel WithItem.steps_relabel, Clause.steps, withSteps, List.map_append,
      refuseIf_relabel]
  | .set target properties =>
    rw [Clause.relabel, Clause.steps, setSteps, isEmpty_relabelEntries, assignmentSteps_relabel,
      Clause.steps, setSteps, List.map_append, refuseIf_relabel]
  | .orderBy items =>
    rw [Clause.relabel, Clause.steps, orderSteps, List.isEmpty_map,
      flatMap_relabel fun item : OrderItem => item.expr.steps_relabel, Clause.steps, orderSteps,
      List.map_append, refuseIf_relabel]
  | .skip count => rfl
  | .limit count => rfl
  | .result r => exact r.steps_relabel

theorem Clause.bodySteps_relabel (body : List Clause) :
    Clause.bodySteps (Clause.relabelBody f body)
      = (Clause.bodySteps body).map (Step.relabel f) := by
  match body with
  | [] => rfl
  | clause :: rest =>
    have hclause := Clause.steps_relabel clause
    have hrest := Clause.bodySteps_relabel rest
    rw [Clause.relabelBody, Clause.bodySteps, hclause, hrest, Clause.bodySteps, List.map_append]

end

theorem Query.steps_relabel (q : Query) : (q.relabel f).steps = q.steps.map (Step.relabel f) :=
  Clause.bodySteps_relabel q.clauses

theorem Query.visits_relabel (q : Query) :
    (q.relabel f).visits = q.visits.map (Visit.relabel f) := by
  rw [← visitsOf_steps, steps_relabel, visitsOf_relabel, visitsOf_steps]

/-! ## Pieces -/

theorem Param.pieces_relabel (p : Param) :
    (p.relabel f).pieces = p.pieces.map (Piece.relabel f) := by
  obtain ⟨i, value, _ | _⟩ := p <;> rfl

mutual

theorem Expr.pieces_relabel (e : Expr) :
    (e.relabel f).pieces = e.pieces.map (Piece.relabel f) := by
  cases e with
  | literal value => rfl
  | param p => exact p.pieces_relabel
  | ref target => rfl
  | property target key => rfl
  | call function => exact FunctionCall.pieces_relabel function
  | list items =>
    have hitems := Expr.itemPieces_relabel items
    rw [Expr.relabel, Expr.pieces, hitems, bracketed_relabel]
    rfl
  | map entries =>
    have hentries := Expr.entryPieces_relabel entries
    rw [Expr.relabel, Expr.pieces, hentries, bracketed_relabel]
    rfl
  | projection target fields =>
    have hfields := Expr.fieldPieces_relabel fields
    rw [Expr.relabel, Expr.pieces, hfields, bracketed_relabel]
    rfl

theorem FunctionCall.pieces_relabel (function : FunctionCall) :
    (function.relabel f).pieces = function.pieces.map (Piece.relabel f) := by
  cases function with
  | coalesce target key fallback =>
    have hfallback := Expr.pieces_relabel fallback
    have harguments := bracketed_relabel (f := f) .roundOpen .roundClose
      [propertyPieces target key, fallback.pieces]
    rw [FunctionCall.relabel, FunctionCall.pieces, hfallback, FunctionCall.pieces, List.map_cons,
      ← harguments]
    rfl
  | distance source point =>
    have hsource := DistanceSource.pieces_relabel source
    have harguments := bracketed_relabel (f := f) .roundOpen .roundClose
      [source.pieces, point.pieces]
    rw [FunctionCall.relabel, FunctionCall.pieces, hsource, point.pieces_relabel,
      FunctionCall.pieces, List.map_cons, ← harguments]
    rfl
  | apply function argument =>
    have hargument := Expr.pieces_relabel argument
    have harguments := bracketed_relabel (f := f) .roundOpen .roundClose [argument.pieces]
    rw [FunctionCall.relabel, FunctionCall.pieces, hargument, FunctionCall.pieces, List.map_cons,
      ← harguments]
    rfl

theorem DistanceSource.pieces_relabel (source : DistanceSource) :
    (source.relabel f).pieces = source.pieces.map (Piece.relabel f) := by
  cases source with
  | property target key => rfl
  | call function => exact FunctionCall.pieces_relabel function

theorem ProjectionField.pieces_relabel (field : ProjectionField) :
    (field.relabel f).pieces = field.pieces.map (Piece.relabel f) := by
  cases field with
  | shorthand key => rfl
  | entry key value =>
    have hvalue := Expr.pieces_relabel value
    rw [ProjectionField.relabel, ProjectionField.pieces, hvalue]
    rfl

theorem Expr.itemPieces_relabel (items : List Expr) :
    Expr.itemPieces (Expr.relabelItems f items) = relabelParts f (Expr.itemPieces items) := by
  cases items with
  | nil => rfl
  | cons item rest =>
    have hitem := Expr.pieces_relabel item
    have hrest := Expr.itemPieces_relabel rest
    rw [Expr.relabelItems, Expr.itemPieces, hitem, hrest]
    rfl

theorem Expr.entryPieces_relabel (entries : List (String × Expr)) :
    Expr.entryPieces (Expr.relabelEntries f entries)
      = relabelParts f (Expr.entryPieces entries) := by
  cases entries with
  | nil => rfl
  | cons entry rest =>
    obtain ⟨key, value⟩ := entry
    have hvalue := Expr.pieces_relabel value
    have hrest := Expr.entryPieces_relabel rest
    rw [Expr.relabelEntries, Expr.entryPieces, hvalue, hrest]
    rfl

theorem Expr.fieldPieces_relabel (fields : List ProjectionField) :
    Expr.fieldPieces (Expr.relabelFields f fields)
      = relabelParts f (Expr.fieldPieces fields) := by
  cases fields with
  | nil => rfl
  | cons field rest =>
    have hfield := ProjectionField.pieces_relabel field
    have hrest := Expr.fieldPieces_relabel rest
    rw [Expr.relabelFields, Expr.fieldPieces, hfield, hrest]
    rfl

end

theorem labelPieces_relabel (names : List String) :
    (labelPieces names).map (Piece.relabel f) = labelPieces names := by
  induction names with
  | nil => rfl
  | cons name rest ih => exact congrArg (fun ps => _ :: _ :: ps) ih

theorem NodePattern.pieces_relabel (p : NodePattern) :
    (p.relabel f).pieces = p.pieces.map (Piece.relabel f) := by
  have hlabels : (if p.withLabels then labelPieces p.node.labels else []).map (Piece.relabel f)
      = if p.withLabels then labelPieces p.node.labels else [] := by
    cases p.withLabels with
    | true => exact labelPieces_relabel _
    | false => rfl
  rw [NodePattern.pieces, NodePattern.pieces, List.map_cons, List.map_cons, List.map_append,
    hlabels]
  rfl

theorem Direction.pieces_relabel (d : Direction) (inner : List Piece) :
    d.pieces (inner.map (Piece.relabel f)) = (d.pieces inner).map (Piece.relabel f) := by
  cases d <;> simp [Direction.pieces, Piece.relabel]

theorem Hop.pieces_relabel (h : Hop) : (h.relabel f).pieces = h.pieces.map (Piece.relabel f) := by
  have htype : (typePieces h.relationship.type).map (Piece.relabel f)
      = typePieces h.relationship.type := by
    cases h.relationship.type <;> rfl
  have hname : (if h.named then [Piece.aliasOf (h.relationship.relabel f).reference] else [])
      = (if h.named then [Piece.aliasOf h.relationship.reference] else []).map
        (Piece.relabel f) := by
    cases h.named <;> rfl
  rw [Hop.pieces, Hop.pieces, List.map_append, Hop.arrowPieces, Hop.arrowPieces,
    ← Direction.pieces_relabel, List.map_append, htype, ← hname, ← NodePattern.pieces_relabel]
  rfl

theorem Pattern.pieces_relabel (p : Pattern) :
    (p.relabel f).pieces = p.pieces.map (Piece.relabel f) := by
  have hhops : (p.hops.map (Hop.relabel f)).flatMap Hop.pieces
      = (p.hops.flatMap Hop.pieces).map (Piece.relabel f) := by
    induction p.hops with
    | nil => rfl
    | cons hop rest ih =>
      rw [List.map_cons, List.flatMap_cons, hop.pieces_relabel, ih, List.flatMap_cons,
        List.map_append]
  rw [Pattern.pieces, Pattern.pieces, List.map_append, ← NodePattern.pieces_relabel, ← hhops]
  rfl

theorem assignmentPieces_relabel (target : Reference) (properties : List (String × Expr)) :
    assignmentPieces (target.relabel f) (Expr.relabelEntries f properties)
      = relabelParts f (assignmentPieces target properties) := by
  induction properties with
  | nil => rfl
  | cons entry rest ih =>
    obtain ⟨key, value⟩ := entry
    have hvalue := value.pieces_relabel (f := f)
    rw [assignmentPieces, Expr.relabelEntries, List.map_cons, ← assignmentPieces, ih,
      assignmentPieces]
    simp [hvalue, propertyPieces, Piece.relabel, assignmentPieces]

theorem setPieces_relabel (target : Reference) (properties : List (String × Expr)) :
    setPieces (target.relabel f) (Expr.relabelEntries f properties)
      = (setPieces target properties).map (Piece.relabel f) := by
  rw [setPieces, assignmentPieces_relabel, setPieces, List.map_cons, List.map_cons,
    map_intercalate]
  rfl

theorem createPieces_relabel (node : NodeRef) (properties : List (String × Expr)) :
    createPieces (node.relabel f) (Expr.relabelEntries f properties)
      = (createPieces node properties).map (Piece.relabel f) := by
  have hnode := (NodePattern.declared node).pieces_relabel (f := f)
  have hset : (if (Expr.relabelEntries f properties).isEmpty then []
        else .lineBreak :: setPieces (node.relabel f).reference (Expr.relabelEntries f properties))
      = (if properties.isEmpty then []
        else .lineBreak :: setPieces node.reference properties).map (Piece.relabel f) := by
    rw [isEmpty_relabelEntries]
    cases properties.isEmpty with
    | true => rfl
    | false => exact congrArg (_ :: ·) (setPieces_relabel node.reference properties)
  rw [createPieces, hset, createPieces, List.map_cons, List.map_cons, List.map_append, ← hnode]
  rfl

theorem WithItem.pieces_relabel (item : WithItem) :
    (item.relabel f).pieces = item.pieces.map (Piece.relabel f) := by
  obtain ⟨e, v⟩ := item
  cases v with
  | none => exact e.pieces_relabel
  | some v =>
    have he := e.pieces_relabel (f := f)
    show (e.relabel f).pieces ++ ([.space, .word .named, .space,
        .aliasOf (v.relabel f).reference] : List Piece)
      = (e.pieces ++ ([.space, .word .named, .space, .aliasOf v.reference] : List Piece)).map
        (Piece.relabel f)
    rw [he, List.map_append]
    rfl

theorem OrderItem.pieces_relabel (item : OrderItem) :
    (item.relabel f).pieces = item.pieces.map (Piece.relabel f) := by
  have he := item.expr.pieces_relabel (f := f)
  rw [OrderItem.pieces, OrderItem.pieces, List.map_append, ← he]
  rfl

theorem ReturnTarget.pieces_relabel (target : ReturnTarget) :
    (target.relabel f).pieces = target.pieces.map (Piece.relabel f) := by
  rcases target with ⟨target, fields⟩ | e | _
  · cases fields with
    | nil => rfl
    | cons key rest =>
      have hkeys : (key :: rest).map (fun key => [Piece.mark .dot, .given key])
          = relabelParts f ((key :: rest).map fun key => [.mark .dot, .given key]) := by
        rw [relabelParts, List.map_map]
        rfl
      have hfields := bracketed_relabel (f := f) .curlyOpen .curlyClose
        ((key :: rest).map fun key => [Piece.mark .dot, .given key])
      rw [← hkeys] at hfields
      exact congrArg (fun ps => _ :: _ :: ps) hfields
  · exact e.pieces_relabel
  · rfl

theorem Result.pieces_relabel (r : Result) :
    (r.relabel f).pieces = r.pieces.map (Piece.relabel f) := by
  have hname : ((r.outputName.map (ReturnAlias.relabel f)).map ReturnAlias.pieces).getD []
      = ((r.outputName.map ReturnAlias.pieces).getD []).map (Piece.relabel f) := by
    rcases r.outputName with _ | ⟨text⟩ | v
    · rfl
    · cases h : text.isEmpty <;> simp [ReturnAlias.relabel, ReturnAlias.pieces, h, Piece.relabel]
    · rfl
  rw [Result.pieces, Result.pieces, List.map_cons, List.map_cons, List.map_append, ← hname,
    ← r.target.pieces_relabel]
  rfl

theorem matchPieces_relabel (optional : Bool) (pattern : Pattern) :
    matchPieces optional (pattern.relabel f)
      = (matchPieces optional pattern).map (Piece.relabel f) := by
  rw [matchPieces, pattern.pieces_relabel, matchPieces, List.map_append]
  cases optional <;> rfl

theorem Comparison.pieces_relabel (c : Comparison) :
    c.pieces.map (Piece.relabel f) = c.pieces := by
  cases c <;> rfl

/-- Whether a group has more than one operand does not depend on identities. -/
theorem Predicate.isJoined_relabel (p : Predicate) : (p.relabel f).isJoined = p.isJoined := by
  match p with
  | .group junction [] => rfl
  | .group junction [operand] =>
    have hoperand := Predicate.isJoined_relabel operand
    exact hoperand
  | .group junction (_ :: _ :: _) => rfl
  | .compare _ _ _ => rfl
  | .isNull _ => rfl
  | .isNotNull _ => rfl
  | .not _ => rfl
  | .existsIn _ => rfl

theorem Predicate.operandOf_relabel (p : Predicate) (ps : List Piece) :
    (p.relabel f).operandOf (ps.map (Piece.relabel f))
      = (p.operandOf ps).map (Piece.relabel f) := by
  rw [operandOf, isJoined_relabel, operandOf]
  cases p.isJoined <;> simp [Piece.relabel]

mutual

theorem Predicate.pieces_relabel (p : Predicate) :
    (p.relabel f).pieces = p.pieces.map (Piece.relabel f) := by
  match p with
  | .compare operator lhs rhs =>
    rw [Predicate.relabel, Predicate.pieces, lhs.pieces_relabel, rhs.pieces_relabel,
      ← operator.pieces_relabel (f := f), Predicate.pieces, List.map_append, List.map_cons,
      List.map_append]
    rfl
  | .isNull e =>
    rw [Predicate.relabel, Predicate.pieces, e.pieces_relabel, Predicate.pieces, List.map_append]
    rfl
  | .isNotNull e =>
    rw [Predicate.relabel, Predicate.pieces, e.pieces_relabel, Predicate.pieces, List.map_append]
    rfl
  | .group _ [] => rfl
  | .group _ [operand] => exact Predicate.pieces_relabel operand
  | .group junction (first :: second :: rest) =>
    have hfirst := Predicate.pieces_relabel first
    have hsecond := Predicate.pieces_relabel second
    have hrest := Predicate.operandPieces_relabel rest
    rw [Predicate.relabel, Predicate.relabelOperands, Predicate.relabelOperands,
      Predicate.pieces, hfirst, hsecond, hrest, Predicate.operandOf_relabel,
      Predicate.operandOf_relabel, Predicate.pieces, map_intercalate]
    rfl
  | .not operand =>
    have hoperand := Predicate.pieces_relabel operand
    rw [Predicate.relabel, Predicate.pieces, hoperand, Predicate.pieces, List.map_cons,
      List.map_cons, List.map_cons, List.map_append]
    rfl
  | .existsIn body =>
    have hbody := Clause.bodyPieces_relabel body
    rw [Predicate.relabel, Predicate.pieces, hbody, Predicate.pieces]
    simp only [List.map_cons, List.map_append, map_intercalate]
    rfl

theorem Predicate.operandPieces_relabel (operands : List Predicate) :
    Predicate.operandPieces (Predicate.relabelOperands f operands)
      = relabelParts f (Predicate.operandPieces operands) := by
  match operands with
  | [] => rfl
  | operand :: rest =>
    have hoperand := Predicate.pieces_relabel operand
    have hrest := Predicate.operandPieces_relabel rest
    rw [Predicate.relabelOperands, Predicate.operandPieces, hoperand, hrest,
      Predicate.operandOf_relabel]
    rfl

theorem Clause.pieces_relabel (c : Clause) :
    (c.relabel f).pieces = c.pieces.map (Piece.relabel f) := by
  match c with
  | .create node properties => exact createPieces_relabel node properties
  | .matching optional pattern none => exact matchPieces_relabel optional pattern
  | .matching optional pattern (some condition) =>
    have hcondition := Predicate.pieces_relabel condition
    rw [Clause.relabel, Clause.pieces, matchPieces_relabel, hcondition, Clause.pieces,
      List.map_append]
    rfl
  | .call body =>
    have hbody := Clause.bodyPieces_relabel body
    rw [Clause.relabel, Clause.pieces, hbody, Clause.pieces]
    simp only [List.map_cons, List.map_append, map_intercalate]
    rfl
  | .withAll => rfl
  -- item by item the pieces are the relabelled ones
  | .withItems items =>
    have hitems : (items.map (WithItem.relabel f)).map WithItem.pieces
        = relabelParts f (items.map WithItem.pieces) := by
      rw [List.map_map, relabelParts, List.map_map]
      exact List.map_congr_left fun item _ => item.pieces_relabel
    rw [Clause.relabel, Clause.pieces, hitems, commaSeparated_relabel]
    rfl
  | .set target properties => exact setPieces_relabel target properties
  | .orderBy items =>
    have hitems : (items.map (OrderItem.relabel f)).map OrderItem.pieces
        = relabelParts f (items.map OrderItem.pieces) := by
      rw [List.map_map, relabelParts, List.map_map]
      exact List.map_congr_left fun item _ => item.pieces_relabel
    rw [Clause.relabel, Clause.pieces, hitems, commaSeparated_relabel]
    rfl
  | .skip count => exact congrArg (fun ps => _ :: _ :: ps) count.pieces_relabel
  | .limit count => exact congrArg (fun ps => _ :: _ :: ps) count.pieces_relabel
  | .result r => exact r.pieces_relabel

theorem Clause.bodyPieces_relabel (body : List Clause) :
    Clause.bodyPieces (Clause.relabelBody f body)
      = relabelParts f (Clause.bodyPieces body) := by
  match body with
  | [] => rfl
  | clause :: rest =>
    have hclause := Clause.pieces_relabel clause
    have hrest := Clause.bodyPieces_relabel rest
    rw [Clause.relabelBody, Clause.bodyPieces, hclause, hrest]
    rfl

end

theorem Query.textUnder_relabel (names : Names) (q : Query) :
    (q.relabel f).textUnder names = q.textUnder fun v => names (v.relabel f) := by
  have hpieces : (q.relabel f).pieces = q.pieces.map (Piece.relabel f) := by
    rw [pieces, relabel, Clause.bodyPieces_relabel, pieces, map_intercalate]
    rfl
  rw [textUnder, hpieces, spell_relabel, textUnder]

end GraphQuery
