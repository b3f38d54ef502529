import GraphQuery.Proofs.Visits

/-!
# The pieces of a query text

A query can be written down without naming anything: as a list of pieces, each of which is a blank,
a mark, a fixed word, a literal, a name that comes from outside, or a place where the name of a
reference or of a parameter is still to be filled in. Which pieces a tree consists of depends on the
tree alone.

Once somebody says what every reference and parameter is called, the pieces spell a text. This is a
second way to write a query: it keeps no state and refuses nothing.
-/

namespace GraphQuery

/-- What each reference and each parameter is called. -/
abbrev Names :=
  Visit → String

/-! ## Fixed words and marks -/

/-- The words of the query language that a text can hold. -/
inductive Keyword
  | create
  | set
  | optional
  | matching
  | condition
  | call
  | carry
  | named
  | order
  | orderedBy
  | sort (direction : SortDirection)
  | skip
  | limit
  | result
  | is
  | negation
  | null
  | join (junction : Junction)
  | existence
  | contains
  | starts
  | ends
  | membership
  | point
  | coalesce
  | distance
  | function (function : UnaryFunction)
deriving DecidableEq

namespace Keyword

/-- How a fixed word is written. -/
def text : Keyword → String
  | create => "CREATE"
  | set => "SET"
  | optional => "OPTIONAL"
  | matching => "MATCH"
  | condition => "WHERE"
  | call => "CALL"
  | carry => "WITH"
  | named => "AS"
  | order => "ORDER"
  | orderedBy => "BY"
  | sort .asc => "ASC"
  | sort .desc => "DESC"
  | skip => "SKIP"
  | limit => "LIMIT"
  | result => "RETURN"
  | is => "IS"
  | negation => "NOT"
  | null => "NULL"
  | join .and => "AND"
  | join .or => "OR"
  | existence => "EXISTS"
  | contains => "CONTAINS"
  | starts => "STARTS"
  | ends => "ENDS"
  | membership => "IN"
  | point => "point"
  | coalesce => "coalesce"
  | distance => "distance"
  | function .collect => "collect"
  | function .count => "count"
  | function .min => "min"
  | function .max => "max"
  | function .avg => "avg"
  | function .sum => "sum"
  | function .size => "size"
  | function .toLower => "toLower"
  | function .toUpper => "toUpper"

/-! Rendering writes the same words, wherever a tree says which. -/

@[simp] theorem text_sort (direction : SortDirection) :
    (sort direction).text = direction.keyword := by
  cases direction <;> rfl

@[simp] theorem text_join (junction : Junction) : (join junction).text = junction.keyword := by
  cases junction <;> rfl

@[simp] theorem text_function (f : UnaryFunction) : (function f).text = f.name := by
  cases f <;> rfl

/-- Every fixed word could stand as a name without quotes. -/
theorem isPlain_text (k : Keyword) : Name.isPlain k.text = true := by
  cases k with
  | sort direction => cases direction <;> decide
  | join junction => cases junction <;> decide
  | function f => cases f <;> decide
  | _ => decide

end Keyword

/-- The punctuation of the query language, one character each. -/
inductive Mark
  | roundOpen
  | roundClose
  | squareOpen
  | squareClose
  | curlyOpen
  | curlyClose
  | comma
  | dot
  | colon
  | equal
  | less
  | greater
  | tilde
  | dash
  | star
deriving DecidableEq

/-- The character that the sign is written with. -/
def Mark.char : Mark → Char
  | roundOpen => '('
  | roundClose => ')'
  | squareOpen => '['
  | squareClose => ']'
  | curlyOpen => '\x7b'
  | curlyClose => '\x7d'
  | comma => ','
  | dot => '.'
  | colon => ':'
  | equal => '='
  | less => '<'
  | greater => '>'
  | tilde => '~'
  | dash => '-'
  | star => '*'

/-! ## Pieces -/

/-- The smallest part of a text that is still known for what it is: a sign, a fixed word, a given
name, or something from outside. -/
inductive Piece
  | space
  | lineBreak
  | mark (mark : Mark)
  | word (word : Keyword)
  /-- The alias of a reference. -/
  | aliasOf (target : Reference)
  /-- The name of a parameter, after the sign that makes it one. -/
  | param (target : Param)
  /-- A name from outside that is always quoted. -/
  | label (name : String)
  /-- A name from outside that is quoted where it is not plain. -/
  | given (name : String)
  | literal (value : Literal)

/-- A literal as it stands in query text. -/
def Literal.text : Literal → String
  | null => "NULL"
  | bool b => if b then "true" else "false"
  | int n => toString n
  | float x => Decimal.text .query x

/-- How a piece is written, under the names of a build. Only here does a name from outside meet the
rules of quoting. -/
def Piece.text (names : Names) : Piece → String
  | space => " "
  | lineBreak => "\n"
  | mark m => String.singleton m.char
  | word k => k.text
  | aliasOf r => names (.ref r)
  | param p => "$" ++ names (.param p)
  | label name => Name.quoted name
  | given name => Name.written name
  | literal value => value.text

/-- The text of some pieces under a naming. -/
def spell (names : Names) (ps : List Piece) : String :=
  String.join (ps.map (Piece.text names))

@[simp] theorem spell_nil (names : Names) : spell names [] = "" := rfl

@[simp] theorem spell_cons (names : Names) (p : Piece) (ps : List Piece) :
    spell names (p :: ps) = p.text names ++ spell names ps := by
  simp [spell]

@[simp] theorem spell_append (names : Names) (ps qs : List Piece) :
    spell names (ps ++ qs) = spell names ps ++ spell names qs := by
  simp [spell]

/-- Joining pieces and then spelling them is spelling them and then joining the texts. -/
theorem spell_intercalate (names : Names) (sep : List Piece) (parts : List (List Piece)) :
    spell names (sep.intercalate parts)
      = (spell names sep).intercalate (parts.map (spell names)) := by
  induction parts with
  | nil => simp [List.intercalate]
  | cons part parts ih =>
    cases parts with
    | nil => simp [List.intercalate]
    | cons other parts =>
      rw [List.intercalate_cons_cons, spell_append, ih]
      simp [String.intercalate_cons_cons, String.append_assoc]

/-- What holds of all parts, and of two lists joined where it holds of both, holds of all parts
joined. -/
theorem intercalate_of_forall {P : List Piece → Prop} {sep : List Piece} (hnil : P [])
    (hjoin : ∀ ps qs, P ps → P qs → P (ps ++ (sep ++ qs))) {parts : List (List Piece)}
    (h : ∀ part ∈ parts, P part) : P (sep.intercalate parts) := by
  induction parts with
  | nil => exact hnil
  | cons part parts ih =>
    have hpart := h part List.mem_cons_self
    have hparts : ∀ part ∈ parts, P part := fun part hmem =>
      h part (List.mem_cons_of_mem _ hmem)
    cases parts with
    | nil =>
      rw [List.intercalate_singleton]
      exact hpart
    | cons other parts =>
      rw [List.intercalate_cons_cons, List.append_assoc]
      exact hjoin _ _ hpart (ih hparts)

/-- Parts with commas between them. -/
def commaSeparated (parts : List (List Piece)) : List Piece :=
  [.mark .comma, .space].intercalate parts

/-- Parts between brackets, with commas between them. -/
def bracketed (left right : Mark) (parts : List (List Piece)) : List Piece :=
  .mark left :: (commaSeparated parts ++ [.mark right])

theorem spell_commaSeparated (names : Names) (parts : List (List Piece)) :
    spell names (commaSeparated parts) = ", ".intercalate (parts.map (spell names)) := by
  rw [commaSeparated, spell_intercalate]
  rfl

/-! ## Pieces of an expression -/

/-- A parameter, wrapped where its value is a point. -/
def Param.pieces (p : Param) : List Piece :=
  if p.isPoint then [.word .point, .mark .roundOpen, .param p, .mark .roundClose] else [.param p]

/-- A property of a reference. -/
def propertyPieces (target : Reference) (key : String) : List Piece :=
  [.aliasOf target, .mark .dot, .given key]

mutual

/-- An expression as pieces, with no name decided yet. -/
def Expr.pieces : Expr → List Piece
  | .literal value => [.literal value]
  | .param p => p.pieces
  | .ref target => [.aliasOf target]
  | .property target key => propertyPieces target key
  | .call f => f.pieces
  | .list items => bracketed .squareOpen .squareClose (Expr.itemPieces items)
  | .map entries => bracketed .curlyOpen .curlyClose (Expr.entryPieces entries)
  | .projection target fields =>
    .aliasOf target :: .space :: bracketed .curlyOpen .curlyClose (Expr.fieldPieces fields)

/-- A call: the word of its function and the arguments between parentheses. -/
def FunctionCall.pieces : FunctionCall → List Piece
  | .coalesce target key fallback =>
    .word .coalesce
      :: bracketed .roundOpen .roundClose [propertyPieces target key, fallback.pieces]
  | .distance source point =>
    .word .distance :: bracketed .roundOpen .roundClose [source.pieces, point.pieces]
  | .apply f argument => .word (.function f) :: bracketed .roundOpen .roundClose [argument.pieces]

/-- What a distance is measured from, as pieces. -/
def DistanceSource.pieces : DistanceSource → List Piece
  | .property target key => propertyPieces target key
  | .call f => f.pieces

/-- A field of a projection, with a point before a property and a colon behind a key. -/
def ProjectionField.pieces : ProjectionField → List Piece
  | .shorthand key => [.mark .dot, .given key]
  | .entry key value => .given key :: .mark .colon :: .space :: value.pieces

/-- The items of a list, kept apart for the commas between them. -/
def Expr.itemPieces : List Expr → List (List Piece)
  | [] => []
  | item :: rest => item.pieces :: Expr.itemPieces rest

/-- The entries of a map, kept apart for the commas between them. -/
def Expr.entryPieces : List (String × Expr) → List (List Piece)
  | [] => []
  | (key, value) :: rest =>
    (.given key :: .mark .colon :: .space :: value.pieces) :: Expr.entryPieces rest

/-- The fields of a projection, kept apart for the commas between them. -/
def Expr.fieldPieces : List ProjectionField → List (List Piece)
  | [] => []
  | field :: rest => field.pieces :: Expr.fieldPieces rest

end

/-! ## Pieces of a pattern -/

/-- The labels of a node, each after a colon. -/
def labelPieces (names : List String) : List Piece :=
  names.flatMap fun name => [.mark .colon, .label name]

/-- A node between parentheses, with its labels where it is declared. -/
def NodePattern.pieces (p : NodePattern) : List Piece :=
  .mark .roundOpen :: .aliasOf p.node.reference
    :: ((if p.withLabels then labelPieces p.node.labels else []) ++ [.mark .roundClose])

/-- The type after its colon. It is quoted only where it is not plain. -/
def typePieces : Option String → List Piece
  | none => []
  | some type => [.mark .colon, .given type]

/-- The line of a relationship, with its arrow head if it has a direction. -/
def Direction.pieces (d : Direction) (inner : List Piece) : List Piece :=
  match d with
  | outgoing => .mark .dash :: .mark .squareOpen
      :: (inner ++ [.mark .squareClose, .mark .dash, .mark .greater])
  | incoming => .mark .less :: .mark .dash :: .mark .squareOpen
      :: (inner ++ [.mark .squareClose, .mark .dash])
  | undirected => .mark .dash :: .mark .squareOpen
      :: (inner ++ [.mark .squareClose, .mark .dash])

/-- The line of a relationship. One that is not named has nothing but its type between the
brackets. -/
def Hop.arrowPieces (h : Hop) : List Piece :=
  h.direction.pieces
    ((if h.named then [.aliasOf h.relationship.reference] else [])
      ++ typePieces h.relationship.type)

/-- A step of a pattern: the line and the node it leads to. -/
def Hop.pieces (h : Hop) : List Piece :=
  h.arrowPieces ++ h.target.pieces

/-- A pattern, with no blank anywhere in it. -/
def Pattern.pieces (p : Pattern) : List Piece :=
  p.start.pieces ++ p.hops.flatMap Hop.pieces

/-! ## Pieces of a clause -/

/-- The assignments to properties of a reference. -/
def assignmentPieces (target : Reference) (properties : List (String × Expr)) :
    List (List Piece) :=
  properties.map fun (key, value) =>
    propertyPieces target key ++ .space :: .mark .equal :: .space :: value.pieces

/-- Assignments on lines of their own, after the word that opens them. -/
def setPieces (target : Reference) (properties : List (String × Expr)) : List Piece :=
  .word .set :: .space
    :: [.mark .comma, .lineBreak].intercalate (assignmentPieces target properties)

/-- A new node and, on lines of their own, its first properties. -/
def createPieces (node : NodeRef) (properties : List (String × Expr)) : List Piece :=
  .word .create :: .space :: ((NodePattern.declared node).pieces
    ++ if properties.isEmpty then [] else .lineBreak :: setPieces node.reference properties)

/-- An expression carried on, with its variable behind it. -/
def WithItem.pieces (item : WithItem) : List Piece :=
  match item.aliasVariable with
  | none => item.expr.pieces
  | some v => item.expr.pieces ++ [.space, .word .named, .space, .aliasOf v.reference]

/-- A sort key with its order behind it. -/
def OrderItem.pieces (item : OrderItem) : List Piece :=
  item.expr.pieces ++ [.space, .word (.sort item.direction)]

/-- What is returned. The listed properties of an entity stand in curly brackets. -/
def ReturnTarget.pieces : ReturnTarget → List Piece
  | .entity target fields =>
    .aliasOf target :: if fields.isEmpty then []
      else .space :: bracketed .curlyOpen .curlyClose
        (fields.map fun key => [.mark .dot, .given key])
  | .expr e => e.pieces
  | .all => [.mark .star]

/-- The output name; an empty one is left out. -/
def ReturnAlias.pieces : ReturnAlias → List Piece
  | .name text => if text.isEmpty then [] else [.space, .word .named, .space, .given text]
  | .var v => [.space, .word .named, .space, .aliasOf v.reference]

/-- A result: the word, what is returned, and its output name. -/
def Result.pieces (r : Result) : List Piece :=
  .word .result :: .space
    :: (r.target.pieces ++ (r.outputName.map ReturnAlias.pieces).getD [])

/-- The words that open a match. -/
def matchPieces (optional : Bool) (pattern : Pattern) : List Piece :=
  (if optional then [.word .optional, .space] else [])
    ++ .word .matching :: .space :: pattern.pieces

/-- The sign or the words between two compared expressions. -/
def Comparison.pieces : Comparison → List Piece
  | eq => [.mark .equal]
  | ne => [.mark .less, .mark .greater]
  | lt => [.mark .less]
  | lte => [.mark .less, .mark .equal]
  | gt => [.mark .greater]
  | gte => [.mark .greater, .mark .equal]
  | contains => [.word .contains]
  | startsWith => [.word .starts, .space, .word .carry]
  | endsWith => [.word .ends, .space, .word .carry]
  | inList => [.word .membership]
  | matchesPattern => [.mark .equal, .mark .tilde]

/-- An operand of a group: a group inside a group stands in parentheses. -/
def Predicate.operandOf (p : Predicate) (ps : List Piece) : List Piece :=
  if p.isJoined then .mark .roundOpen :: (ps ++ [.mark .roundClose]) else ps

mutual

/-- A condition as pieces. A group of one is written as its operand, without the junction. -/
def Predicate.pieces : Predicate → List Piece
  | .compare operator lhs rhs =>
    lhs.pieces ++ .space :: (operator.pieces ++ .space :: rhs.pieces)
  | .isNull e => e.pieces ++ [.space, .word .is, .space, .word .null]
  | .isNotNull e => e.pieces ++ [.space, .word .is, .space, .word .negation, .space, .word .null]
  | .group _ [] => []
  | .group _ [operand] => operand.pieces
  | .group junction (first :: second :: rest) =>
    [.space, .word (.join junction), .space].intercalate
      (first.operandOf first.pieces :: second.operandOf second.pieces
        :: Predicate.operandPieces rest)
  | .not operand =>
    .word .negation :: .space :: .mark .roundOpen :: (operand.pieces ++ [.mark .roundClose])
  | .existsIn body =>
    .word .existence :: .space :: .mark .curlyOpen :: .lineBreak
      :: ([.lineBreak].intercalate (Clause.bodyPieces body) ++ [.lineBreak, .mark .curlyClose])

/-- The operands of a group, each in parentheses where it needs them. -/
def Predicate.operandPieces : List Predicate → List (List Piece)
  | [] => []
  | operand :: rest => operand.operandOf operand.pieces :: Predicate.operandPieces rest

/-- A clause as pieces. The body of a CALL stands between curly brackets, one clause to a line. -/
def Clause.pieces : Clause → List Piece
  | .create node properties => createPieces node properties
  | .matching optional pattern none => matchPieces optional pattern
  | .matching optional pattern (some condition) =>
    matchPieces optional pattern
      ++ .lineBreak :: .word .condition :: .space :: condition.pieces
  | .call body =>
    .word .call :: .space :: .mark .curlyOpen :: .space
      :: ([.lineBreak].intercalate (Clause.bodyPieces body) ++ [.space, .mark .curlyClose])
  | .withAll => [.word .carry, .space, .mark .star]
  | .withItems items => .word .carry :: .space :: commaSeparated (items.map WithItem.pieces)
  | .set target properties => setPieces target properties
  | .orderBy items =>
    .word .order :: .space :: .word .orderedBy :: .space
      :: commaSeparated (items.map OrderItem.pieces)
  | .skip count => .word .skip :: .space :: count.pieces
  | .limit count => .word .limit :: .space :: count.pieces
  | .result r => r.pieces

/-- The clauses of a body, kept apart for the line breaks between them. -/
def Clause.bodyPieces : List Clause → List (List Piece)
  | [] => []
  | clause :: rest => clause.pieces :: Clause.bodyPieces rest

end

/-- The pieces of a query, each clause on a line of its own. -/
def Query.pieces (q : Query) : List Piece :=
  [.lineBreak].intercalate (Clause.bodyPieces q.clauses)

/-- The text of a query under a fixed naming. -/
def Query.textUnder (names : Names) (q : Query) : String :=
  spell names q.pieces

end GraphQuery
