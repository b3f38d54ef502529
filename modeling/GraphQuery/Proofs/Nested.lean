import GraphQuery.Proofs.Pieces

/-!
# Brackets are nested

The reader of a condition passes over what stands between brackets without looking into it: the
arguments of a call, the body of an `EXISTS`, a group in parentheses. That takes no more than that
every bracket is closed, by one of its own kind and in the right order, in every predicate, every
clause of a subquery and every expression. Names from outside cannot spoil this: they are pieces of
their own, and no piece but a sign is a bracket.

The arrows of a pattern are made of dashes and of the signs for less and greater, so they do not
count.
-/

namespace GraphQuery

/-- The bracket that closes this one. -/
def Mark.closing? : Mark → Option Mark
  | roundOpen => some roundClose
  | squareOpen => some squareClose
  | curlyOpen => some curlyClose
  | _ => none

/-- Round, square and curly brackets. The dashes and arrowheads of a pattern are none. -/
def Mark.isBracket : Mark → Bool
  | roundOpen | roundClose | squareOpen | squareClose | curlyOpen | curlyClose => true
  | _ => false

/-- Whether the piece is a sign that opens or closes a bracket. -/
def Piece.isBracket : Piece → Bool
  | mark m => m.isBracket
  | _ => false

/-- Whatever is opened among these pieces is closed among them. -/
inductive Nested : List Piece → Prop
  | nil : Nested []
  | atom {p : Piece} (plain : p.isBracket = false) : Nested [p]
  | append {ps qs : List Piece} (first : Nested ps) (second : Nested qs) : Nested (ps ++ qs)
  | wrap {left right : Mark} {ps : List Piece} (closes : left.closing? = some right)
    (inner : Nested ps) : Nested (.mark left :: (ps ++ [.mark right]))

namespace Nested

variable {p : Piece} {ps qs : List Piece} {parts : List (List Piece)}

theorem cons (hp : p.isBracket = false) (h : Nested ps) : Nested (p :: ps) :=
  (atom hp).append h

theorem intercalate {sep : List Piece} (hsep : Nested sep) (h : ∀ part ∈ parts, Nested part) :
    Nested (sep.intercalate parts) :=
  intercalate_of_forall nil (fun _ _ hps hqs => hps.append (hsep.append hqs)) h

theorem commaSeparated (h : ∀ part ∈ parts, Nested part) :
    Nested (GraphQuery.commaSeparated parts) :=
  intercalate (cons rfl (atom rfl)) h

theorem bracketed {left right : Mark} (hclose : left.closing? = some right)
    (h : ∀ part ∈ parts, Nested part) : Nested (GraphQuery.bracketed left right parts) :=
  wrap hclose (commaSeparated h)

theorem lines (h : ∀ part ∈ parts, Nested part) :
    Nested ([Piece.lineBreak].intercalate parts) :=
  intercalate (atom rfl) h

theorem flatMap {α : Type} {f : α → List Piece} (h : ∀ a, Nested (f a)) (as : List α) :
    Nested (as.flatMap f) := by
  induction as with
  | nil => exact nil
  | cons a rest ih =>
    rw [List.flatMap_cons]
    exact (h a).append ih

end Nested

/-! ## Expressions -/

theorem Param.nested (p : Param) : Nested p.pieces := by
  unfold Param.pieces
  split
  · have harguments : Nested (.mark .roundOpen :: ([.param p] ++ [.mark .roundClose])) :=
      .wrap rfl (.atom rfl)
    exact .cons rfl harguments
  · exact .atom rfl

theorem nested_property (target : Reference) (key : String) :
    Nested (propertyPieces target key) :=
  .cons rfl (.cons rfl (.atom rfl))

mutual

theorem Expr.nested (e : Expr) : Nested e.pieces := by
  cases e with
  | literal value => exact .atom rfl
  | param p => exact p.nested
  | ref target => exact .atom rfl
  | property target key => exact nested_property target key
  | call f => exact FunctionCall.nested f
  | list items => exact .bracketed rfl (Expr.items_nested items)
  | map entries => exact .bracketed rfl (Expr.entries_nested entries)
  | projection target fields =>
    exact .cons rfl (.cons rfl (.bracketed rfl (Expr.fields_nested fields)))

theorem FunctionCall.nested (f : FunctionCall) : Nested f.pieces := by
  cases f with
  | coalesce target key fallback =>
    refine .cons rfl (.bracketed rfl ?_)
    simpa using ⟨nested_property target key, Expr.nested fallback⟩
  | distance source point =>
    refine .cons rfl (.bracketed rfl ?_)
    simpa using ⟨DistanceSource.nested source, point.nested⟩
  | apply f argument =>
    refine .cons rfl (.bracketed rfl ?_)
    simpa using Expr.nested argument

theorem DistanceSource.nested (source : DistanceSource) : Nested source.pieces := by
  cases source with
  | property target key => exact nested_property target key
  | call f => exact FunctionCall.nested f

theorem ProjectionField.nested (field : ProjectionField) : Nested field.pieces := by
  cases field with
  | shorthand key => exact .cons rfl (.atom rfl)
  | entry key value => exact .cons rfl (.cons rfl (.cons rfl (Expr.nested value)))

theorem Expr.items_nested (items : List Expr) : ∀ part ∈ Expr.itemPieces items, Nested part := by
  cases items with
  | nil => exact fun _ h => absurd h List.not_mem_nil
  | cons item rest =>
    exact List.forall_mem_cons.mpr ⟨Expr.nested item, Expr.items_nested rest⟩

theorem Expr.entries_nested (entries : List (String × Expr)) :
    ∀ part ∈ Expr.entryPieces entries, Nested part := by
  cases entries with
  | nil => exact fun _ h => absurd h List.not_mem_nil
  | cons entry rest =>
    obtain ⟨key, value⟩ := entry
    exact List.forall_mem_cons.mpr
      ⟨.cons rfl (.cons rfl (.cons rfl (Expr.nested value))), Expr.entries_nested rest⟩

theorem Expr.fields_nested (fields : List ProjectionField) :
    ∀ part ∈ Expr.fieldPieces fields, Nested part := by
  cases fields with
  | nil => exact fun _ h => absurd h List.not_mem_nil
  | cons field rest =>
    exact List.forall_mem_cons.mpr ⟨ProjectionField.nested field, Expr.fields_nested rest⟩

end

/-! ## Patterns -/

theorem NodePattern.nested (p : NodePattern) : Nested p.pieces := by
  refine .wrap rfl (.cons rfl ?_)
  split
  · exact .flatMap (fun _ => .cons rfl (.atom rfl)) _
  · exact .nil

/-- The square brackets of an arrow are closed before its head comes. -/
theorem Direction.nested (d : Direction) {inner : List Piece} (h : Nested inner) :
    Nested (d.pieces inner) := by
  have hline : ∀ rest, Nested rest →
      Nested (.mark .dash :: .mark .squareOpen :: (inner ++ .mark .squareClose :: rest)) := by
    intro rest hrest
    have hwrapped : Nested (.mark .squareOpen :: (inner ++ [.mark .squareClose])) := .wrap rfl h
    have hall := Nested.cons (p := .mark .dash) rfl (hwrapped.append hrest)
    rwa [List.cons_append, List.append_assoc, List.singleton_append] at hall
  cases d with
  | outgoing => exact hline _ (.cons rfl (.atom rfl))
  | incoming => exact .cons rfl (hline _ (.atom rfl))
  | undirected => exact hline _ (.atom rfl)

theorem Hop.nested (h : Hop) : Nested h.pieces := by
  have hname : Nested (if h.named then [.aliasOf h.relationship.reference] else []) := by
    split
    · exact .atom rfl
    · exact .nil
  have htype : Nested (typePieces h.relationship.type) := by
    cases h.relationship.type with
    | none => exact .nil
    | some type => exact .cons rfl (.atom rfl)
  exact (Direction.nested _ (hname.append htype)).append h.target.nested

theorem Pattern.nested (p : Pattern) : Nested p.pieces :=
  p.start.nested.append (.flatMap Hop.nested p.hops)

/-! ## Clauses without subqueries -/

theorem nested_set (target : Reference) (properties : List (String × Expr)) :
    Nested (setPieces target properties) := by
  refine .cons rfl (.cons rfl (.intercalate (.cons rfl (.atom rfl)) fun part hpart => ?_))
  obtain ⟨entry, _, rfl⟩ := List.mem_map.mp hpart
  exact (nested_property _ _).append (.cons rfl (.cons rfl (.cons rfl entry.2.nested)))

theorem nested_create (node : NodeRef) (properties : List (String × Expr)) :
    Nested (createPieces node properties) := by
  refine .cons rfl (.cons rfl ((NodePattern.declared node).nested.append ?_))
  split
  · exact .nil
  · exact .cons rfl (nested_set _ _)

theorem WithItem.nested (item : WithItem) : Nested item.pieces := by
  obtain ⟨e, v⟩ := item
  cases v with
  | none => exact e.nested
  | some v => exact e.nested.append (.cons rfl (.cons rfl (.cons rfl (.atom rfl))))

theorem OrderItem.nested (item : OrderItem) : Nested item.pieces :=
  item.expr.nested.append (.cons rfl (.atom rfl))

theorem ReturnTarget.nested (target : ReturnTarget) : Nested target.pieces := by
  cases target with
  | entity target fields =>
    refine .cons rfl ?_
    split
    · exact .nil
    · refine .cons rfl (.bracketed rfl fun part hpart => ?_)
      obtain ⟨key, _, rfl⟩ := List.mem_map.mp hpart
      exact .cons rfl (.atom rfl)
  | expr e => exact e.nested
  | all => exact .atom rfl

theorem Result.nested (r : Result) : Nested r.pieces := by
  have hname : Nested ((r.outputName.map ReturnAlias.pieces).getD []) := by
    rcases r.outputName with _ | ⟨text⟩ | v
    · exact .nil
    · rw [Option.map_some, Option.getD_some, ReturnAlias.pieces]
      split
      · exact .nil
      · exact .cons rfl (.cons rfl (.cons rfl (.atom rfl)))
    · exact .cons rfl (.cons rfl (.cons rfl (.atom rfl)))
  exact .cons rfl (.cons rfl (r.target.nested.append hname))

theorem nested_match (optional : Bool) (pattern : Pattern) :
    Nested (matchPieces optional pattern) := by
  have hpattern : Nested (.word .matching :: .space :: pattern.pieces) :=
    .cons rfl (.cons rfl pattern.nested)
  cases optional with
  | false => exact hpattern
  | true => exact .cons rfl (.cons rfl hpattern)

/-! ## Predicates and subqueries -/

theorem Comparison.nested (c : Comparison) : Nested c.pieces := by
  cases c <;> first
    | exact .atom rfl
    | exact .cons rfl (.atom rfl)
    | exact .cons rfl (.cons rfl (.atom rfl))

theorem Predicate.nested_operandOf (p : Predicate) {ps : List Piece} (h : Nested ps) :
    Nested (p.operandOf ps) := by
  unfold Predicate.operandOf
  split
  · exact .wrap rfl h
  · exact h

/-- The braces of a subquery, with a blank on the inside of each. -/
theorem nested_subquery {parts : List (List Piece)} {blank : Piece}
    (hblank : blank.isBracket = false) (h : ∀ part ∈ parts, Nested part) :
    Nested (.mark .curlyOpen :: blank
      :: ([Piece.lineBreak].intercalate parts ++ [blank, .mark .curlyClose])) := by
  have hinner : Nested (blank :: ([Piece.lineBreak].intercalate parts ++ [blank])) :=
    .cons hblank ((Nested.lines h).append (.atom hblank))
  have hall : Nested (.mark .curlyOpen
      :: ((blank :: ([Piece.lineBreak].intercalate parts ++ [blank])) ++ [.mark .curlyClose])) :=
    .wrap rfl hinner
  rwa [List.cons_append, List.append_assoc] at hall

mutual

theorem Predicate.nested (p : Predicate) : Nested p.pieces := by
  match p with
  | .compare operator lhs rhs =>
    exact lhs.nested.append (.cons rfl (operator.nested.append (.cons rfl rhs.nested)))
  | .isNull e => exact e.nested.append (.cons rfl (.cons rfl (.cons rfl (.atom rfl))))
  | .isNotNull e =>
    exact e.nested.append (.cons rfl (.cons rfl (.cons rfl (.cons rfl (.cons rfl (.atom rfl))))))
  | .group _ [] => exact .nil
  | .group _ [operand] => exact Predicate.nested operand
  | .group junction (first :: second :: rest) =>
    have hoperands := List.forall_mem_cons.mpr ⟨first.nested_operandOf (Predicate.nested first),
      List.forall_mem_cons.mpr ⟨second.nested_operandOf (Predicate.nested second),
        Predicate.operands_nested rest⟩⟩
    exact .intercalate (.cons rfl (.cons rfl (.atom rfl))) hoperands
  | .not operand => exact .cons rfl (.cons rfl (.wrap rfl (Predicate.nested operand)))
  | .existsIn body =>
    exact .cons rfl (.cons rfl (nested_subquery rfl (Clause.body_nested body)))

theorem Predicate.operands_nested (operands : List Predicate) :
    ∀ part ∈ Predicate.operandPieces operands, Nested part := by
  match operands with
  | [] => exact fun _ h => absurd h List.not_mem_nil
  | operand :: rest =>
    exact List.forall_mem_cons.mpr ⟨operand.nested_operandOf (Predicate.nested operand),
      Predicate.operands_nested rest⟩

theorem Clause.nested (c : Clause) : Nested c.pieces := by
  match c with
  | .create node properties => exact nested_create node properties
  | .matching optional pattern none => exact nested_match optional pattern
  | .matching optional pattern (some condition) =>
    exact (nested_match optional pattern).append
      (.cons rfl (.cons rfl (.cons rfl (Predicate.nested condition))))
  | .call body => exact .cons rfl (.cons rfl (nested_subquery rfl (Clause.body_nested body)))
  | .withAll => exact .cons rfl (.cons rfl (.atom rfl))
  | .withItems items =>
    refine .cons rfl (.cons rfl (.commaSeparated fun part hpart => ?_))
    obtain ⟨item, _, rfl⟩ := List.mem_map.mp hpart
    exact item.nested
  | .set target properties => exact nested_set target properties
  | .orderBy items =>
    refine .cons rfl (.cons rfl (.cons rfl (.cons rfl (.commaSeparated fun part hpart => ?_))))
    obtain ⟨item, _, rfl⟩ := List.mem_map.mp hpart
    exact item.nested
  | .skip count => exact .cons rfl (.cons rfl count.nested)
  | .limit count => exact .cons rfl (.cons rfl count.nested)
  | .result r => exact r.nested

/-- The body of a subquery, line by line. -/
theorem Clause.body_nested (body : List Clause) :
    ∀ part ∈ Clause.bodyPieces body, Nested part := by
  match body with
  | [] => exact fun _ h => absurd h List.not_mem_nil
  | clause :: rest =>
    exact List.forall_mem_cons.mpr ⟨Clause.nested clause, Clause.body_nested rest⟩

end

end GraphQuery
