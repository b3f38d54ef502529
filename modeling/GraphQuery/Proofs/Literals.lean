import GraphQuery.Proofs.Pieces

/-!
# The literals of a text

Of the pieces of a text the literals are those that come from the inline values of a plan. Every
construct has the literals of its parts, in their order: what it adds are marks, words, aliases and
names.
-/

namespace GraphQuery

/-! ## Literals among pieces -/

/-- The inline value a piece writes, if it writes one. -/
def Piece.literal? : Piece → Option Literal
  | literal value => some value
  | space | lineBreak | mark _ | word _ | aliasOf _ | param _ | label _ | given _ => none

/-- The literals among some pieces. -/
def literalsOf (ps : List Piece) : List Literal :=
  ps.filterMap Piece.literal?

@[simp] theorem literalsOf_nil : literalsOf [] = [] := rfl

@[simp] theorem literalsOf_literal (value : Literal) (ps : List Piece) :
    literalsOf (.literal value :: ps) = value :: literalsOf ps := rfl

@[simp] theorem literalsOf_append (ps qs : List Piece) :
    literalsOf (ps ++ qs) = literalsOf ps ++ literalsOf qs :=
  List.filterMap_append

@[simp] theorem literalsOf_space (ps : List Piece) : literalsOf (.space :: ps) = literalsOf ps :=
  rfl

@[simp] theorem literalsOf_lineBreak (ps : List Piece) :
    literalsOf (.lineBreak :: ps) = literalsOf ps := rfl

@[simp] theorem literalsOf_mark (m : Mark) (ps : List Piece) :
    literalsOf (.mark m :: ps) = literalsOf ps := rfl

@[simp] theorem literalsOf_word (k : Keyword) (ps : List Piece) :
    literalsOf (.word k :: ps) = literalsOf ps := rfl

@[simp] theorem literalsOf_aliasOf (r : Reference) (ps : List Piece) :
    literalsOf (.aliasOf r :: ps) = literalsOf ps := rfl

@[simp] theorem literalsOf_given (name : String) (ps : List Piece) :
    literalsOf (.given name :: ps) = literalsOf ps := rfl

/-- Each literal stands where it is counted. -/
theorem exists_of_getElem?_literalsOf {ps : List Piece} {i : Nat} {l : Literal}
    (h : (literalsOf ps)[i]? = some l) :
    ∃ before after, ps = before ++ .literal l :: after ∧ (literalsOf before).length = i := by
  induction ps generalizing i with
  | nil => cases h
  | cons p ps ih =>
    cases p with
    | literal value =>
      rw [literalsOf_literal] at h
      cases i with
      | zero =>
        obtain rfl := Option.some.inj h
        exact ⟨[], ps, rfl, rfl⟩
      | succ i =>
        obtain ⟨before, after, rfl, hi⟩ := @ih i h
        exact ⟨.literal value :: before, after, rfl, congrArg Nat.succ hi⟩
    | _ =>
      obtain ⟨before, after, rfl, hi⟩ := @ih i h
      exact ⟨_ :: before, after, rfl, hi⟩

/-- What stands between the parts has no literals. -/
theorem literalsOf_intercalate {sep : List Piece} (hsep : literalsOf sep = [])
    (parts : List (List Piece)) :
    literalsOf (sep.intercalate parts) = parts.flatMap literalsOf := by
  induction parts with
  | nil => rfl
  | cons part parts ih =>
    cases parts with
    | nil => simp
    | cons other parts =>
      rw [List.intercalate_cons_cons, literalsOf_append, literalsOf_append, hsep, ih,
        List.append_nil]
      rfl

@[simp] theorem literalsOf_lines (parts : List (List Piece)) :
    literalsOf ([Piece.lineBreak].intercalate parts) = parts.flatMap literalsOf :=
  literalsOf_intercalate rfl parts

@[simp] theorem literalsOf_commaSeparated (parts : List (List Piece)) :
    literalsOf (commaSeparated parts) = parts.flatMap literalsOf :=
  literalsOf_intercalate rfl parts

@[simp] theorem literalsOf_bracketed (left right : Mark) (parts : List (List Piece)) :
    literalsOf (bracketed left right parts) = parts.flatMap literalsOf := by
  simp [bracketed]

theorem Param.literalsOf_pieces (p : Param) : literalsOf p.pieces = [] := by
  rw [Param.pieces]
  split <;> rfl

theorem literalsOf_property (target : Reference) (key : String) :
    literalsOf (propertyPieces target key) = [] := rfl

theorem NodePattern.literalsOf_pieces (p : NodePattern) : literalsOf p.pieces = [] := by
  have hlabels : ∀ names : List String, literalsOf (labelPieces names) = [] := by
    intro names
    induction names with
    | nil => rfl
    | cons name names ih =>
      rw [labelPieces, List.flatMap_cons, literalsOf_append]
      exact ih
  rw [NodePattern.pieces, literalsOf_mark, literalsOf_aliasOf, literalsOf_append]
  -- a node is written with its labels or without them
  split
  · rw [hlabels]
    rfl
  · rfl

theorem Direction.literalsOf_pieces (d : Direction) (inner : List Piece) :
    literalsOf (d.pieces inner) = literalsOf inner := by
  cases d <;> simp [Direction.pieces]

theorem Hop.literalsOf_pieces (h : Hop) : literalsOf h.pieces = [] := by
  rw [Hop.pieces, Hop.arrowPieces, literalsOf_append, h.target.literalsOf_pieces,
    Direction.literalsOf_pieces]
  cases h.named <;> cases h.relationship.type <;> rfl

theorem Pattern.literalsOf_pieces (p : Pattern) : literalsOf p.pieces = [] := by
  have hhops : ∀ hops : List Hop, literalsOf (hops.flatMap Hop.pieces) = [] := by
    intro hops
    induction hops with
    | nil => rfl
    | cons hop hops ih => rw [List.flatMap_cons, literalsOf_append, hop.literalsOf_pieces, ih]; rfl
  rw [Pattern.pieces, literalsOf_append, p.start.literalsOf_pieces, hhops]
  rfl

theorem literalsOf_match (optional : Bool) (pattern : Pattern) :
    literalsOf (matchPieces optional pattern) = [] := by
  rw [matchPieces, literalsOf_append]
  cases optional <;> simp [pattern.literalsOf_pieces]

/-- The values of some entries, in their order. -/
def entryLiterals (entries : List (String × Expr)) : List Literal :=
  entries.flatMap fun entry => literalsOf entry.2.pieces

theorem literalsOf_set (target : Reference) (properties : List (String × Expr)) :
    literalsOf (setPieces target properties) = entryLiterals properties := by
  rw [setPieces, literalsOf_word, literalsOf_space, literalsOf_intercalate rfl, assignmentPieces,
    List.flatMap_map]
  rfl

theorem literalsOf_create (node : NodeRef) (properties : List (String × Expr)) :
    literalsOf (createPieces node properties) = entryLiterals properties := by
  rw [createPieces, literalsOf_word, literalsOf_space, literalsOf_append,
    NodePattern.literalsOf_pieces]
  cases properties with
  | nil => rfl
  | cons entry rest => exact literalsOf_set node.reference (entry :: rest)

/-- Of a projection only the entries have literals. -/
theorem literalsOf_projection (target : Reference) (fields : List String)
    (entries : List (String × Expr)) :
    literalsOf (Expr.pieces (.projection target (fields.map .shorthand
        ++ entries.map fun entry => ProjectionField.entry entry.1 entry.2)))
      = entryLiterals entries := by
  rw [Expr.pieces, literalsOf_aliasOf, literalsOf_space, literalsOf_bracketed]
  -- the fields come first and add nothing, so the induction on them ends at the entries
  induction fields with
  | cons field rest ih => exact ih
  | nil =>
    induction entries with
    | nil => rfl
    | cons entry rest ih =>
      rw [List.map_nil, List.nil_append] at ih ⊢
      rw [List.map_cons, Expr.fieldPieces, List.flatMap_cons, ih]
      rfl

theorem WithItem.literalsOf_pieces (item : WithItem) :
    literalsOf item.pieces = literalsOf item.expr.pieces := by
  obtain ⟨e, _ | v⟩ := item
  · rfl
  · simp [WithItem.pieces]

theorem OrderItem.literalsOf_pieces (item : OrderItem) :
    literalsOf item.pieces = literalsOf item.expr.pieces := by
  simp [OrderItem.pieces]

theorem Result.literalsOf_pieces (r : Result) :
    literalsOf r.pieces = literalsOf r.target.pieces := by
  have hname : literalsOf ((r.outputName.map ReturnAlias.pieces).getD []) = [] := by
    rcases r.outputName with _ | ⟨text⟩ | v
    · rfl
    · rw [Option.map_some, Option.getD_some, ReturnAlias.pieces]
      split <;> rfl
    · rfl
  rw [Result.pieces, literalsOf_word, literalsOf_space, literalsOf_append, hname, List.append_nil]

theorem literalsOf_entity (target : Reference) (fields : List String) :
    literalsOf (ReturnTarget.entity target fields).pieces = [] := by
  rw [ReturnTarget.pieces, literalsOf_aliasOf]
  split
  · rfl
  · rw [literalsOf_space, literalsOf_bracketed, List.flatMap_map]
    simp

/-- Parentheses around an operand have no literals. -/
theorem Predicate.literalsOf_operandOf (p : Predicate) (ps : List Piece) :
    literalsOf (p.operandOf ps) = literalsOf ps := by
  rw [Predicate.operandOf]
  split <;> simp

theorem literalsOf_group (junction : Junction) (operands : List Predicate) :
    literalsOf (Predicate.group junction operands).pieces
      = (Predicate.operandPieces operands).flatMap literalsOf := by
  match operands with
  | [] => rfl
  | [operand] =>
    simp [Predicate.pieces, Predicate.operandPieces, Predicate.literalsOf_operandOf]
  | first :: second :: rest =>
    rw [Predicate.pieces, literalsOf_intercalate rfl]
    rfl

theorem literalsOf_compare (operator : Comparison) (lhs rhs : Expr) :
    literalsOf (Predicate.compare operator lhs rhs).pieces
      = literalsOf lhs.pieces ++ literalsOf rhs.pieces := by
  have hoperator : literalsOf operator.pieces = [] := by cases operator <;> rfl
  simp [Predicate.pieces, hoperator]

/-- The braces of a subquery and the breaks between its clauses have no literals. -/
theorem literalsOf_existsIn (body : List Clause) :
    literalsOf (Predicate.existsIn body).pieces = (Clause.bodyPieces body).flatMap literalsOf := by
  simp [Predicate.pieces]

theorem literalsOf_call (body : List Clause) :
    literalsOf (Clause.call body).pieces = (Clause.bodyPieces body).flatMap literalsOf := by
  simp [Clause.pieces]

end GraphQuery
