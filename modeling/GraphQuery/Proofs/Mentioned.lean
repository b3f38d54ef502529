import GraphQuery.Proofs.FirstVisits

/-!
# The pieces mention what is visited

The pieces of a query and its visits are read off the tree separately. They tell the same: what a
piece mentions is visited, and the parameters come in the same order and equally often in both.
References do not come equally often, since an alias that is looked up once can be written before
every property that is set.
-/

namespace GraphQuery

/-- The reference or the parameter whose name a piece is. -/
def Piece.visit? : Piece → Option Visit
  | aliasOf r => some (.ref r)
  | param p => some (.param p)
  | space | lineBreak | mark _ | word _ | label _ | given _ | literal _ => none

/-- All that some pieces mention. -/
def mentioned (ps : List Piece) : List Visit :=
  ps.filterMap Piece.visit?

@[simp] theorem mentioned_nil : mentioned [] = [] := rfl

@[simp] theorem mentioned_cons (p : Piece) (ps : List Piece) :
    mentioned (p :: ps) = p.visit?.toList ++ mentioned ps := by
  rw [mentioned, List.filterMap_cons]
  cases p.visit? <;> rfl

@[simp] theorem mentioned_append (ps qs : List Piece) :
    mentioned (ps ++ qs) = mentioned ps ++ mentioned qs :=
  List.filterMap_append

/-- What stands between the parts mentions nothing. -/
theorem mentioned_intercalate {sep : List Piece} (hsep : mentioned sep = [])
    (parts : List (List Piece)) :
    mentioned (sep.intercalate parts) = parts.flatMap mentioned := by
  induction parts with
  | nil => rfl
  | cons part parts ih =>
    cases parts with
    | nil => simp [List.intercalate]
    | cons other parts =>
      rw [List.intercalate_cons_cons, mentioned_append, mentioned_append, ih, hsep]
      simp

theorem mentioned_commaSeparated (parts : List (List Piece)) :
    mentioned (commaSeparated parts) = parts.flatMap mentioned :=
  mentioned_intercalate rfl parts

theorem mentioned_bracketed (left right : Mark) (parts : List (List Piece)) :
    mentioned (bracketed left right parts) = parts.flatMap mentioned := by
  simp [bracketed, mentioned_commaSeparated, Piece.visit?]

/-! ## Expressions mention what they visit -/

theorem Param.mentioned (p : Param) : mentioned p.pieces = [.param p] := by
  unfold Param.pieces
  split <;> rfl

mutual

theorem Expr.mentioned (e : Expr) : mentioned e.pieces = e.visits := by
  cases e with
  | literal value => rfl
  | param p => exact p.mentioned
  | ref target => rfl
  | property target key => rfl
  | call f => exact FunctionCall.mentioned f
  | list items =>
    rw [Expr.pieces, mentioned_bracketed]
    exact Expr.mentioned_items items
  | map entries =>
    rw [Expr.pieces, mentioned_bracketed]
    exact Expr.mentioned_entries entries
  | projection target fields =>
    have hfields := Expr.mentioned_fields fields
    simp [Expr.pieces, Expr.visits, mentioned_bracketed, Piece.visit?, hfields]

theorem FunctionCall.mentioned (f : FunctionCall) : mentioned f.pieces = f.visits := by
  cases f with
  | coalesce target key fallback =>
    have hfallback := Expr.mentioned fallback
    simp [FunctionCall.pieces, FunctionCall.visits, mentioned_bracketed, propertyPieces,
      Piece.visit?, hfallback]
  | distance source point =>
    have hsource := DistanceSource.mentioned source
    simp [FunctionCall.pieces, FunctionCall.visits, mentioned_bracketed, Piece.visit?, hsource,
      point.mentioned]
  | apply f argument =>
    have hargument := Expr.mentioned argument
    simp [FunctionCall.pieces, FunctionCall.visits, mentioned_bracketed, Piece.visit?, hargument]

theorem DistanceSource.mentioned (source : DistanceSource) :
    mentioned source.pieces = source.visits := by
  cases source with
  | property target key => rfl
  | call f => exact FunctionCall.mentioned f

theorem ProjectionField.mentioned (field : ProjectionField) :
    mentioned field.pieces = field.visits := by
  cases field with
  | shorthand key => rfl
  | entry key value => exact Expr.mentioned value

theorem Expr.mentioned_items (items : List Expr) :
    (Expr.itemPieces items).flatMap mentioned = Expr.itemVisits items := by
  cases items with
  | nil => rfl
  | cons item rest =>
    rw [Expr.itemPieces, List.flatMap_cons, Expr.mentioned item, Expr.mentioned_items rest]
    rfl

theorem Expr.mentioned_entries (entries : List (String × Expr)) :
    (Expr.entryPieces entries).flatMap mentioned = Expr.entryVisits entries := by
  cases entries with
  | nil => rfl
  | cons entry rest =>
    obtain ⟨key, value⟩ := entry
    have hvalue := Expr.mentioned value
    have hrest := Expr.mentioned_entries rest
    simp [Expr.entryPieces, Expr.entryVisits, Piece.visit?, hvalue, hrest]

theorem Expr.mentioned_fields (fields : List ProjectionField) :
    (Expr.fieldPieces fields).flatMap mentioned = Expr.fieldVisits fields := by
  cases fields with
  | nil => rfl
  | cons field rest =>
    rw [Expr.fieldPieces, List.flatMap_cons, ProjectionField.mentioned field,
      Expr.mentioned_fields rest]
    rfl

end

/-! ## Clauses mention what they visit -/

/-- Some visits repeat others: they come from among them, and the parameters are the same. -/
structure Echo (us vs : List Visit) : Prop where
  /-- Nothing is visited here that was not visited there. -/
  visited : ∀ v ∈ us, v ∈ vs
  /-- Parameters come in the same order, and as often. -/
  params : paramsOf us = paramsOf vs

namespace Echo

variable {us us' vs vs' : List Visit}

theorem of_eq (h : us = vs) : Echo us vs :=
  h ▸ ⟨fun _ hv => hv, rfl⟩

theorem append (h : Echo us vs) (h' : Echo us' vs') : Echo (us ++ us') (vs ++ vs') := by
  refine ⟨fun v hv => ?_, by rw [paramsOf_append, paramsOf_append, h.params, h'.params]⟩
  rcases List.mem_append.mp hv with hv | hv
  · exact List.mem_append_left _ (h.visited v hv)
  · exact List.mem_append_right _ (h'.visited v hv)

end Echo

theorem NodePattern.mentioned (p : NodePattern) : mentioned p.pieces = p.visits := by
  have hlabels : ∀ names : List String, GraphQuery.mentioned (labelPieces names) = [] := by
    intro names
    induction names with
    | nil => rfl
    | cons name rest ih =>
      rw [labelPieces, List.flatMap_cons, mentioned_append]
      exact ih
  by_cases h : p.withLabels <;>
    simp [NodePattern.pieces, NodePattern.visits, h, hlabels, Piece.visit?]

theorem Hop.mentioned (h : Hop) : mentioned h.pieces = h.visits := by
  have htype : GraphQuery.mentioned (typePieces h.relationship.type) = [] := by
    cases h.relationship.type <;> rfl
  have harrow : ∀ inner,
      GraphQuery.mentioned (h.direction.pieces inner) = GraphQuery.mentioned inner := by
    intro inner
    cases h.direction <;> simp [Direction.pieces, Piece.visit?]
  rw [Hop.pieces, Hop.visits, mentioned_append, NodePattern.mentioned, Hop.arrowPieces, harrow,
    mentioned_append, htype]
  by_cases hn : h.named <;> simp [Hop.arrowVisits, hn, Piece.visit?]

theorem Pattern.mentioned (p : Pattern) : mentioned p.pieces = p.visits := by
  have hhops : ∀ hops : List Hop,
      GraphQuery.mentioned (hops.flatMap Hop.pieces) = hops.flatMap Hop.visits := by
    intro hops
    induction hops with
    | nil => rfl
    | cons hop rest ih =>
      rw [List.flatMap_cons, List.flatMap_cons, mentioned_append, Hop.mentioned, ih]
  rw [Pattern.pieces, Pattern.visits, mentioned_append, NodePattern.mentioned, hhops]

/-- The alias is written before every property, though it is looked up once. -/
theorem echo_assignments (target : Reference) (properties : List (String × Expr)) :
    Echo (properties.flatMap fun entry => .ref target :: entry.2.visits)
      (assignmentVisits target properties) := by
  rw [assignmentVisits]
  induction properties with
  | nil => exact ⟨by simp, rfl⟩
  | cons entry rest ih =>
    obtain ⟨key, value⟩ := entry
    rw [List.flatMap_cons, Expr.entryVisits, ← List.cons_append]
    refine ⟨fun v hv => ?_, ?_⟩
    · rcases List.mem_append.mp hv with hv | hv
      · exact List.mem_append_left _ hv
      · rcases List.mem_cons.mp (ih.visited v hv) with rfl | hv
        · exact List.mem_append_left _ List.mem_cons_self
        · exact List.mem_append_right _ hv
    · rw [paramsOf_append, paramsOf_append, ih.params]
      rfl

theorem echo_set (target : Reference) (properties : List (String × Expr)) :
    Echo (mentioned (setPieces target properties)) (assignmentVisits target properties) := by
  have hset : mentioned (setPieces target properties)
      = properties.flatMap fun entry => .ref target :: entry.2.visits := by
    simp [setPieces, mentioned_intercalate, assignmentPieces, List.flatMap_map, propertyPieces,
      Piece.visit?, Expr.mentioned]
  rw [hset]
  exact echo_assignments target properties

theorem echo_create (node : NodeRef) (properties : List (String × Expr)) :
    Echo (mentioned (createPieces node properties))
      ((NodePattern.declared node).visits ++ assignmentVisits node.reference properties) := by
  have hpieces : mentioned (createPieces node properties)
      = mentioned (NodePattern.declared node).pieces
        ++ mentioned (if properties.isEmpty then []
            else .lineBreak :: setPieces node.reference properties) := by
    simp [createPieces, Piece.visit?]
  rw [hpieces, NodePattern.mentioned]
  refine (Echo.of_eq rfl).append ?_
  cases properties with
  | nil => exact ⟨by simp, rfl⟩
  | cons entry rest => exact echo_set _ _

theorem WithItem.mentioned (item : WithItem) : mentioned item.pieces = item.visits := by
  obtain ⟨e, v⟩ := item
  cases v <;> simp [WithItem.pieces, WithItem.visits, Piece.visit?, Expr.mentioned]

theorem Result.mentioned (r : Result) : mentioned r.pieces = r.visits := by
  have htarget : GraphQuery.mentioned r.target.pieces = r.target.visits := by
    rcases r.target with ⟨target, fields⟩ | e | _
    · by_cases hf : fields.isEmpty <;>
        simp [ReturnTarget.pieces, ReturnTarget.visits, hf, mentioned_bracketed,
          List.flatMap_map, Piece.visit?]
    · exact Expr.mentioned e
    · rfl
  have hname : GraphQuery.mentioned ((r.outputName.map ReturnAlias.pieces).getD [])
      = (r.outputName.map ReturnAlias.visits).getD [] := by
    rcases r.outputName with _ | ⟨text⟩ | v
    · rfl
    · by_cases ht : text.isEmpty <;>
        simp [ReturnAlias.pieces, ReturnAlias.visits, ht, Piece.visit?]
    · rfl
  simp [Result.pieces, Result.visits, Piece.visit?, htarget, hname]

theorem mentioned_match (optional : Bool) (pattern : Pattern) :
    mentioned (matchPieces optional pattern) = pattern.visits := by
  cases optional <;> simp [matchPieces, Piece.visit?, pattern.mentioned]

theorem mentioned_comparison (c : Comparison) : mentioned c.pieces = [] := by
  cases c <;> rfl

theorem mentioned_operandOf (p : Predicate) (ps : List Piece) :
    mentioned (p.operandOf ps) = mentioned ps := by
  unfold Predicate.operandOf
  split
  · simp [Piece.visit?]
  · rfl

mutual

theorem Predicate.echo (p : Predicate) : Echo (mentioned p.pieces) p.visits := by
  match p with
  | .compare operator lhs rhs =>
    refine .of_eq ?_
    simp [Predicate.pieces, Predicate.visits, mentioned_comparison, Expr.mentioned, Piece.visit?]
  | .isNull e =>
    refine .of_eq ?_
    simp [Predicate.pieces, Predicate.visits, Expr.mentioned, Piece.visit?]
  | .isNotNull e =>
    refine .of_eq ?_
    simp [Predicate.pieces, Predicate.visits, Expr.mentioned, Piece.visit?]
  | .group _ [] => exact .of_eq rfl
  | .group _ [operand] =>
    have h := Predicate.echo operand
    simpa [Predicate.pieces, Predicate.visits, Predicate.operandVisits] using h
  | .group junction (first :: second :: rest) =>
    have h := (Predicate.echo first).append
      ((Predicate.echo second).append (Predicate.echo_operands rest))
    rw [Predicate.pieces, mentioned_intercalate rfl]
    simpa [mentioned_operandOf, Predicate.visits, Predicate.operandVisits] using h
  | .not operand =>
    have h := Predicate.echo operand
    simpa [Predicate.pieces, Predicate.visits, Piece.visit?] using h
  | .existsIn body =>
    have h := Clause.echo_body body
    simpa [Predicate.pieces, Predicate.visits, Piece.visit?, mentioned_intercalate] using h

theorem Predicate.echo_operands (operands : List Predicate) :
    Echo ((Predicate.operandPieces operands).flatMap mentioned)
      (Predicate.operandVisits operands) := by
  match operands with
  | [] => exact .of_eq rfl
  | operand :: rest =>
    have h := (Predicate.echo operand).append (Predicate.echo_operands rest)
    simpa [Predicate.operandPieces, Predicate.operandVisits, mentioned_operandOf] using h

theorem Clause.echo (c : Clause) : Echo (mentioned c.pieces) c.visits := by
  match c with
  | .create node properties => exact echo_create node properties
  | .matching optional pattern none => exact .of_eq (mentioned_match optional pattern)
  | .matching optional pattern (some condition) =>
    have h := (Echo.of_eq (mentioned_match optional pattern)).append (Predicate.echo condition)
    simpa [Clause.pieces, Clause.visits, Piece.visit?] using h
  | .call body =>
    have h := Clause.echo_body body
    simpa [Clause.pieces, Clause.visits, Piece.visit?, mentioned_intercalate] using h
  | .withAll => exact .of_eq rfl
  | .withItems items =>
    refine .of_eq ?_
    simp [Clause.pieces, Clause.visits, mentioned_commaSeparated, List.flatMap_map,
      WithItem.mentioned, Piece.visit?]
  | .set target properties => exact echo_set target properties
  | .orderBy items =>
    refine .of_eq ?_
    simp [Clause.pieces, Clause.visits, mentioned_commaSeparated, List.flatMap_map,
      OrderItem.pieces, Expr.mentioned, Piece.visit?]
  | .skip count => exact .of_eq count.mentioned
  | .limit count => exact .of_eq count.mentioned
  | .result r => exact .of_eq r.mentioned

theorem Clause.echo_body (body : List Clause) :
    Echo ((Clause.bodyPieces body).flatMap mentioned) (Clause.bodyVisits body) := by
  match body with
  | [] => exact .of_eq rfl
  | clause :: rest => exact (Clause.echo clause).append (Clause.echo_body rest)

end

/-- **The pieces of a query mention what the query visits**, and its parameters one by one. -/
theorem Query.echo (q : Query) : Echo (mentioned q.pieces) q.visits := by
  rw [Query.pieces, mentioned_intercalate rfl]
  exact Clause.echo_body q.clauses

end GraphQuery
