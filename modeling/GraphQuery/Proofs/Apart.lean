import GraphQuery.Proofs.Pieces
import Mathlib.Data.List.Chain

/-!
# Pieces stay apart

A reader of the text cuts it into words, numbers and signs without knowing the pieces it was made
of. Two pieces could run together in three ways: two words would make one word, two quoted names
with nothing between them would make one name with a quote in it, and a number would take up a point
or a dash that follows it.

None of this happens. In the pieces of every tree, whatever is more than a single sign stands
between blanks and signs, and a number is never followed by a point or a dash. Blanks and all other
signs are neutral: what stands on the two sides of one of them can be judged by itself, and nearly
every place where a query is put together has one.
-/

namespace GraphQuery

namespace Piece

/-- Whether a piece is more than a blank or a sign. -/
def isSolid : Piece → Bool
  | space | lineBreak | mark _ => false
  | word _ | aliasOf _ | param _ | label _ | given _ | literal _ => true

/-- Whether the piece is an inline value. -/
def isLiteral : Piece → Bool
  | literal _ => true
  | _ => false

/-- Whether a piece cuts off anything on both sides of it. -/
def isNeutral : Piece → Bool
  | space | lineBreak => true
  | mark m => m != .dot && m != .dash
  | _ => false

/-- One piece may follow another. -/
structure Apart (p q : Piece) : Prop where
  /-- Of two words or names the second would be read as part of the first. -/
  solid : p.isSolid → q.isSolid = false
  /-- A number would go on with a point or a minus too. -/
  number : p.isLiteral → q.isNeutral

theorem isSolid_of_isNeutral {p : Piece} (hp : p.isNeutral) : p.isSolid = false := by
  cases p <;> first | rfl | exact absurd hp (by simp [isNeutral])

theorem isLiteral_of_not_isSolid {p : Piece} (hp : p.isSolid = false) : p.isLiteral = false := by
  cases p <;> first | rfl | exact absurd hp (by simp [isSolid])

theorem Apart.of_neutral_left {p q : Piece} (hp : p.isNeutral) : p.Apart q := by
  have hs := isSolid_of_isNeutral hp
  exact ⟨by simp [hs], by simp [isLiteral_of_not_isSolid hs]⟩

theorem Apart.of_neutral_right {p q : Piece} (hq : q.isNeutral) : p.Apart q :=
  ⟨fun _ => isSolid_of_isNeutral hq, fun _ => hq⟩

end Piece

/-- No two neighbours run together. -/
def Separated (ps : List Piece) : Prop :=
  ps.IsChain Piece.Apart

section Neutral

variable {p z : Piece} {ps qs : List Piece}

@[simp] theorem separated_nil : Separated [] := .nil

theorem separated_cons (hz : z.isNeutral) : Separated (z :: ps) ↔ Separated ps := by
  rw [Separated, List.isChain_cons]
  exact ⟨fun h => h.2, fun h => ⟨fun _ _ => .of_neutral_left hz, h⟩⟩

theorem separated_cons_cons (hz : z.isNeutral) : Separated (p :: z :: ps) ↔ Separated ps := by
  rw [Separated, List.isChain_cons_cons]
  exact ⟨fun h => (separated_cons hz).mp h.2,
    fun h => ⟨.of_neutral_right hz, (separated_cons hz).mpr h⟩⟩

/-- What stands on the two sides of a neutral piece can be judged by itself. -/
theorem separated_append (hz : z.isNeutral) :
    Separated (ps ++ z :: qs) ↔ Separated ps ∧ Separated qs := by
  rw [Separated, List.isChain_append]
  constructor
  · exact fun ⟨hps, hqs, _⟩ => ⟨hps, (separated_cons hz).mp hqs⟩
  · rintro ⟨hps, hqs⟩
    refine ⟨hps, (separated_cons hz).mpr hqs, fun x _ y hy => ?_⟩
    obtain rfl := Option.some.inj hy
    exact .of_neutral_right hz

theorem separated_intercalate {sep : List Piece} {parts : List (List Piece)}
    (hsep : ∀ ps qs, Separated ps → Separated qs → Separated (ps ++ (sep ++ qs)))
    (h : ∀ part ∈ parts, Separated part) : Separated (sep.intercalate parts) :=
  intercalate_of_forall separated_nil hsep h

theorem separated_commaSeparated {parts : List (List Piece)}
    (h : ∀ part ∈ parts, Separated part) : Separated (commaSeparated parts) := by
  refine separated_intercalate (fun ps qs hps hqs => ?_) h
  exact (separated_append rfl).mpr ⟨hps, (separated_cons rfl).mpr hqs⟩

theorem separated_lines {parts : List (List Piece)} (h : ∀ part ∈ parts, Separated part) :
    Separated ([Piece.lineBreak].intercalate parts) :=
  separated_intercalate (fun _ _ hps hqs => (separated_append rfl).mpr ⟨hps, hqs⟩) h

theorem separated_bracketed {left right : Mark} {parts : List (List Piece)}
    (hl : (Piece.mark left).isNeutral) (hr : (Piece.mark right).isNeutral)
    (h : ∀ part ∈ parts, Separated part) : Separated (bracketed left right parts) :=
  (separated_cons hl).mpr ((separated_append hr).mpr ⟨separated_commaSeparated h, .nil⟩)

/-- A word and its arguments. -/
theorem separated_call {parts : List (List Piece)} (p : Piece)
    (h : ∀ part ∈ parts, Separated part) :
    Separated (p :: bracketed .roundOpen .roundClose parts) :=
  (separated_cons_cons rfl).mpr ((separated_append rfl).mpr ⟨separated_commaSeparated h, .nil⟩)

end Neutral

/-! ## Expressions -/

theorem Param.separated (p : Param) : Separated p.pieces := by
  unfold Param.pieces
  split
  · exact (separated_cons_cons rfl).mpr ((separated_cons_cons rfl).mpr .nil)
  · exact .singleton _

theorem separated_property (target : Reference) (key : String) :
    Separated (propertyPieces target key) :=
  List.isChain_cons_cons.mpr ⟨⟨fun _ => rfl, by rintro ⟨⟩⟩,
    List.isChain_cons_cons.mpr ⟨⟨by rintro ⟨⟩, by rintro ⟨⟩⟩, .singleton _⟩⟩

mutual

theorem Expr.separated (e : Expr) : Separated e.pieces := by
  cases e with
  | literal value => exact .singleton _
  | param p => exact p.separated
  | ref target => exact .singleton _
  | property target key => exact separated_property target key
  | call f => exact FunctionCall.separated f
  | list items => exact separated_bracketed rfl rfl (Expr.items_separated items)
  | map entries => exact separated_bracketed rfl rfl (Expr.entries_separated entries)
  | projection target fields =>
    exact (separated_cons_cons rfl).mpr
      (separated_bracketed rfl rfl (Expr.fields_separated fields))

theorem FunctionCall.separated (f : FunctionCall) : Separated f.pieces := by
  cases f with
  | coalesce target key fallback =>
    refine separated_call _ ?_
    simpa using ⟨separated_property target key, Expr.separated fallback⟩
  | distance source point =>
    refine separated_call _ ?_
    simpa using ⟨DistanceSource.separated source, point.separated⟩
  | apply f argument =>
    refine separated_call _ ?_
    simpa using Expr.separated argument

theorem DistanceSource.separated (source : DistanceSource) : Separated source.pieces := by
  cases source with
  | property target key => exact separated_property target key
  | call f => exact FunctionCall.separated f

theorem ProjectionField.separated (field : ProjectionField) : Separated field.pieces := by
  cases field with
  | shorthand key => exact List.isChain_cons_cons.mpr ⟨⟨by rintro ⟨⟩, by rintro ⟨⟩⟩, .singleton _⟩
  | entry key value =>
    exact (separated_cons_cons rfl).mpr ((separated_cons rfl).mpr (Expr.separated value))

theorem Expr.items_separated (items : List Expr) :
    ∀ part ∈ Expr.itemPieces items, Separated part := by
  cases items with
  | nil => exact fun _ h => absurd h List.not_mem_nil
  | cons item rest =>
    exact List.forall_mem_cons.mpr ⟨Expr.separated item, Expr.items_separated rest⟩

theorem Expr.entries_separated (entries : List (String × Expr)) :
    ∀ part ∈ Expr.entryPieces entries, Separated part := by
  cases entries with
  | nil => exact fun _ h => absurd h List.not_mem_nil
  | cons entry rest =>
    obtain ⟨key, value⟩ := entry
    exact List.forall_mem_cons.mpr
      ⟨(separated_cons_cons rfl).mpr ((separated_cons rfl).mpr (Expr.separated value)),
        Expr.entries_separated rest⟩

theorem Expr.fields_separated (fields : List ProjectionField) :
    ∀ part ∈ Expr.fieldPieces fields, Separated part := by
  cases fields with
  | nil => exact fun _ h => absurd h List.not_mem_nil
  | cons field rest =>
    exact List.forall_mem_cons.mpr ⟨ProjectionField.separated field, Expr.fields_separated rest⟩

end

/-! ## Patterns -/

/-- Every label comes after a colon. -/
theorem separated_labels (p : Piece) (names : List String) :
    Separated (p :: labelPieces names) := by
  induction names generalizing p with
  | nil => exact .singleton p
  | cons name rest ih => exact (separated_cons_cons rfl).mpr (ih _)

/-- A node ends in a bracket, so anything may follow it. -/
theorem NodePattern.separated_append (p : NodePattern) {ps : List Piece} (h : Separated ps) :
    Separated (p.pieces ++ ps) := by
  have hinner : Separated (.aliasOf p.node.reference
      :: if p.withLabels then labelPieces p.node.labels else []) := by
    split
    · exact separated_labels _ _
    · exact .singleton _
  rw [NodePattern.pieces, ← List.cons_append, ← List.cons_append, List.append_assoc]
  exact (separated_cons rfl).mpr ((GraphQuery.separated_append rfl).mpr ⟨hinner, h⟩)

theorem Direction.separated (d : Direction) {inner : List Piece} (h : Separated inner) :
    Separated (d.pieces inner) := by
  cases d with
  | outgoing =>
    exact (separated_cons_cons rfl).mpr ((GraphQuery.separated_append rfl).mpr
      ⟨h, (separated_cons_cons rfl).mpr .nil⟩)
  | incoming =>
    exact (separated_cons rfl).mpr ((separated_cons_cons rfl).mpr
      ((GraphQuery.separated_append rfl).mpr ⟨h, .singleton _⟩))
  | undirected =>
    exact (separated_cons_cons rfl).mpr ((GraphQuery.separated_append rfl).mpr
      ⟨h, .singleton _⟩)

theorem Hop.separated (h : Hop) : Separated h.arrowPieces := by
  refine Direction.separated _ ?_
  cases h.relationship.type with
  | none =>
    rw [typePieces, List.append_nil]
    split
    · exact .singleton _
    · exact .nil
  | some type =>
    refine (separated_append rfl).mpr ⟨?_, .singleton _⟩
    split
    · exact .singleton _
    · exact .nil

theorem separated_hops (hops : List Hop) : Separated (hops.flatMap Hop.pieces) := by
  induction hops with
  | nil => exact .nil
  | cons hop rest ih =>
    -- the node begins with a bracket, and so cuts the arrow off
    have hnode := NodePattern.separated_append hop.target ih
    rw [List.flatMap_cons, Hop.pieces, List.append_assoc]
    rw [NodePattern.pieces] at hnode ⊢
    exact (separated_append rfl).mpr ⟨hop.separated, (separated_cons rfl).mp hnode⟩

theorem Pattern.separated (p : Pattern) : Separated p.pieces :=
  p.start.separated_append (separated_hops p.hops)

/-! ## Clauses without subqueries -/

theorem separated_set (target : Reference) (properties : List (String × Expr)) :
    Separated (setPieces target properties) := by
  refine (separated_cons_cons rfl).mpr (separated_intercalate ?_ ?_)
  · intro ps qs hps hqs
    exact (separated_append rfl).mpr ⟨hps, (separated_cons rfl).mpr hqs⟩
  · intro part hpart
    obtain ⟨entry, _, rfl⟩ := List.mem_map.mp hpart
    refine (separated_append rfl).mpr ⟨separated_property _ _, ?_⟩
    exact (separated_cons rfl).mpr ((separated_cons rfl).mpr (Expr.separated entry.2))

theorem separated_create (node : NodeRef) (properties : List (String × Expr)) :
    Separated (createPieces node properties) := by
  refine (separated_cons_cons rfl).mpr (NodePattern.separated_append _ ?_)
  split
  · exact .nil
  · exact (separated_cons rfl).mpr (separated_set _ _)

theorem WithItem.separated (item : WithItem) : Separated item.pieces := by
  obtain ⟨e, v⟩ := item
  cases v with
  | none => exact Expr.separated e
  | some v =>
    exact (separated_append rfl).mpr
      ⟨Expr.separated e, (separated_cons_cons rfl).mpr (.singleton _)⟩

theorem OrderItem.separated (item : OrderItem) : Separated item.pieces :=
  (separated_append rfl).mpr ⟨Expr.separated item.expr, .singleton _⟩

theorem ReturnTarget.separated (target : ReturnTarget) : Separated target.pieces := by
  cases target with
  | entity target fields =>
    rw [ReturnTarget.pieces]
    split
    · exact .singleton _
    · refine (separated_cons_cons rfl).mpr (separated_bracketed rfl rfl fun part hpart => ?_)
      obtain ⟨key, _, rfl⟩ := List.mem_map.mp hpart
      exact ProjectionField.separated (.shorthand key)
  | expr e => exact Expr.separated e
  | all => exact .singleton _

/-- Whatever output name there is comes after a blank. -/
theorem Result.separated (r : Result) : Separated r.pieces := by
  refine (separated_cons_cons rfl).mpr ?_
  rcases r.outputName with _ | ⟨text⟩ | ⟨v⟩
  · rw [Option.map_none, Option.getD_none, List.append_nil]
    exact r.target.separated
  · rw [Option.map_some, Option.getD_some, ReturnAlias.pieces]
    split
    · rw [List.append_nil]
      exact r.target.separated
    · exact (separated_append rfl).mpr
        ⟨r.target.separated, (separated_cons_cons rfl).mpr (.singleton _)⟩
  · exact (separated_append rfl).mpr
      ⟨r.target.separated, (separated_cons_cons rfl).mpr (.singleton _)⟩

theorem separated_match (optional : Bool) (pattern : Pattern) :
    Separated (matchPieces optional pattern) := by
  have hpattern : Separated (.word .matching :: .space :: pattern.pieces) :=
    (separated_cons_cons rfl).mpr pattern.separated
  cases optional with
  | false => exact hpattern
  | true => exact (separated_cons_cons rfl).mpr hpattern

/-! ## Predicates and subqueries -/

theorem Comparison.separated (c : Comparison) : Separated c.pieces := by
  cases c <;> first
    | exact .singleton _
    | exact (separated_cons_cons rfl).mpr .nil
    | exact (separated_cons_cons rfl).mpr (.singleton _)

theorem Predicate.separated_operandOf (p : Predicate) {ps : List Piece} (h : Separated ps) :
    Separated (p.operandOf ps) := by
  unfold Predicate.operandOf
  split
  · exact (separated_cons rfl).mpr ((separated_append rfl).mpr ⟨h, .nil⟩)
  · exact h

mutual

theorem Predicate.separated (p : Predicate) : Separated p.pieces := by
  match p with
  -- blanks and signs are neutral, so only what stands between them has to be looked at
  | .compare operator lhs rhs =>
    exact (separated_append rfl).mpr ⟨lhs.separated,
      (separated_append rfl).mpr ⟨operator.separated, rhs.separated⟩⟩
  | .isNull e =>
    exact (separated_append rfl).mpr ⟨e.separated, (separated_cons_cons rfl).mpr (.singleton _)⟩
  | .isNotNull e =>
    exact (separated_append rfl).mpr ⟨e.separated,
      (separated_cons_cons rfl).mpr ((separated_cons_cons rfl).mpr (.singleton _))⟩
  | .group _ [] => exact .nil
  | .group _ [operand] => exact Predicate.separated operand
  | .group junction (first :: second :: rest) =>
    refine separated_intercalate (fun ps qs hps hqs => ?_) (List.forall_mem_cons.mpr
      ⟨first.separated_operandOf (Predicate.separated first), List.forall_mem_cons.mpr
        ⟨second.separated_operandOf (Predicate.separated second),
          Predicate.operands_separated rest⟩⟩)
    exact (separated_append rfl).mpr ⟨hps, (separated_cons_cons rfl).mpr hqs⟩
  | .not operand =>
    exact (separated_cons_cons rfl).mpr ((separated_cons rfl).mpr
      ((separated_append rfl).mpr ⟨Predicate.separated operand, .nil⟩))
  | .existsIn body =>
    refine (separated_cons_cons rfl).mpr ((separated_cons rfl).mpr ((separated_cons rfl).mpr ?_))
    exact (separated_append rfl).mpr
      ⟨separated_lines (Clause.body_separated body), .singleton _⟩

theorem Predicate.operands_separated (operands : List Predicate) :
    ∀ part ∈ Predicate.operandPieces operands, Separated part := by
  match operands with
  | [] => exact fun _ h => absurd h List.not_mem_nil
  | operand :: rest =>
    exact List.forall_mem_cons.mpr ⟨operand.separated_operandOf (Predicate.separated operand),
      Predicate.operands_separated rest⟩

theorem Clause.separated (c : Clause) : Separated c.pieces := by
  match c with
  | .create node properties => exact separated_create node properties
  | .matching optional pattern none => exact separated_match optional pattern
  | .matching optional pattern (some condition) =>
    exact (separated_append rfl).mpr ⟨separated_match optional pattern,
      (separated_cons_cons rfl).mpr (Predicate.separated condition)⟩
  | .call body =>
    refine (separated_cons_cons rfl).mpr ((separated_cons rfl).mpr ((separated_cons rfl).mpr ?_))
    exact (separated_append rfl).mpr
      ⟨separated_lines (Clause.body_separated body), .singleton _⟩
  | .withAll => exact (separated_cons_cons rfl).mpr (.singleton _)
  | .withItems items =>
    refine (separated_cons_cons rfl).mpr (separated_commaSeparated fun part hpart => ?_)
    obtain ⟨item, _, rfl⟩ := List.mem_map.mp hpart
    exact item.separated
  | .set target properties => exact separated_set target properties
  | .orderBy items =>
    refine (separated_cons_cons rfl).mpr ((separated_cons_cons rfl).mpr
      (separated_commaSeparated fun part hpart => ?_))
    obtain ⟨item, _, rfl⟩ := List.mem_map.mp hpart
    exact item.separated
  | .skip count => exact (separated_cons_cons rfl).mpr count.separated
  | .limit count => exact (separated_cons_cons rfl).mpr count.separated
  | .result r => exact r.separated

theorem Clause.body_separated (body : List Clause) :
    ∀ part ∈ Clause.bodyPieces body, Separated part := by
  match body with
  | [] => exact fun _ h => absurd h List.not_mem_nil
  | clause :: rest =>
    exact List.forall_mem_cons.mpr ⟨Clause.separated clause, Clause.body_separated rest⟩

end

/-- **No two pieces of a query run together**, whatever the query is made of. -/
theorem Query.separated (q : Query) : Separated q.pieces :=
  separated_lines (Clause.body_separated q.clauses)

end GraphQuery
