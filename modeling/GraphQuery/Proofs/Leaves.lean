import GraphQuery.Proofs.Formula
import GraphQuery.Proofs.Nested
import GraphQuery.Proofs.Tokens

/-!
# What a reader takes for a leaf

A reader of a condition looks for the words that join and negate, and for parentheses around
everything. Expressions have brackets and names of their own, so it has to be shown that none of
them is taken for the structure of the condition.

Brackets are no danger, since they are nested: a reader who enters one comes out where it is closed,
and on the way there no word counts. Quoted names are tokens of another kind, and a key comes after
a point. What remains are the names that a build gives. They are words that stand in the open, so
they may not be the operators themselves.
-/

namespace GraphQuery

open Formula (Whole Atomic)

/-! ## Tokens of pieces -/

/-- The tokens of some pieces. Blanks and line breaks have none. -/
def tokensOf (names : Names) (ps : List Piece) : List Token :=
  ps.flatMap (Piece.tokens names)

section

variable {names : Names}

@[simp] theorem tokensOf_nil : tokensOf names [] = [] := rfl

@[simp] theorem tokensOf_cons (p : Piece) (ps : List Piece) :
    tokensOf names (p :: ps) = p.tokens names ++ tokensOf names ps :=
  List.flatMap_cons

@[simp] theorem tokensOf_append (ps qs : List Piece) :
    tokensOf names (ps ++ qs) = tokensOf names ps ++ tokensOf names qs :=
  List.flatMap_append

theorem tokensOf_intercalate (sep : List Piece) (parts : List (List Piece)) :
    tokensOf names (sep.intercalate parts)
      = (tokensOf names sep).intercalate (parts.map (tokensOf names)) := by
  induction parts with
  | nil => rfl
  | cons part parts ih =>
    cases parts with
    | nil => simp [List.intercalate]
    | cons other parts =>
      rw [List.intercalate_cons_cons, tokensOf_append, tokensOf_append, ih]
      simp [List.intercalate_cons_cons]

theorem tokensOf_wrapped (left right : Mark) (ps : List Piece) (ts : List Token) :
    tokensOf names (.mark left :: (ps ++ [.mark right])) ++ ts
      = .mark left.char :: (tokensOf names ps ++ .mark right.char :: ts) := by
  simp [Piece.tokens]

/-! ## Reading past brackets -/

theorem Mark.isBracket_token (m : Mark) : (Token.mark m.char).isBracket = m.isBracket := by
  cases m <;> decide

theorem signedTokens_isBracket (text : List Char) :
    ∀ t ∈ signedTokens text, t.isBracket = false := by
  unfold signedTokens
  split
  · exact List.forall_mem_cons.mpr ⟨by decide, List.forall_mem_singleton.mpr rfl⟩
  · exact List.forall_mem_singleton.mpr rfl

/-- Only a bracket has a bracket among its tokens. -/
theorem Piece.isBracket_tokens {p : Piece} (h : p.isBracket = false) :
    ∀ t ∈ p.tokens names, t.isBracket = false := by
  cases p with
  | space | lineBreak => exact fun _ ht => absurd ht List.not_mem_nil
  | mark m => exact List.forall_mem_singleton.mpr (m.isBracket_token.trans h)
  | word k => exact List.forall_mem_singleton.mpr rfl
  | aliasOf r => exact List.forall_mem_singleton.mpr rfl
  | param p => exact List.forall_mem_cons.mpr ⟨by decide, List.forall_mem_singleton.mpr rfl⟩
  | label name => exact List.forall_mem_singleton.mpr rfl
  | given name =>
    refine List.forall_mem_singleton.mpr ?_
    unfold Token.ofName
    split <;> rfl
  | literal value =>
    cases value with
    | null => exact List.forall_mem_singleton.mpr rfl
    | bool b => exact List.forall_mem_singleton.mpr rfl
    | int n => exact signedTokens_isBracket _
    | float x => exact signedTokens_isBracket _

/-- An opening bracket opens one more, and the bracket that closes it closes that one. -/
theorem Mark.depthAfter_closing {left right : Mark} (h : left.closing? = some right) (d : Nat) :
    (Token.mark left.char).depthAfter d = d + 1
    ∧ (Token.mark right.char).depthAfter (d + 1) = d := by
  cases left with
  | roundOpen | squareOpen | curlyOpen =>
    obtain rfl := Option.some.inj h
    exact ⟨rfl, rfl⟩
  | _ => cases h

/-- Nested pieces do not close what was open before them. -/
theorem Nested.untilClosed_append {ps : List Piece} {ts inner after : List Token} {d : Nat}
    (h : Nested ps) (hts : Formula.untilClosed d ts = some (inner, after)) :
    Formula.untilClosed d (tokensOf names ps ++ ts)
      = some (tokensOf names ps ++ inner, after) := by
  induction h generalizing d ts inner with
  | nil => exact hts
  | @atom p plain =>
    rw [tokensOf_cons, tokensOf_nil, List.append_nil]
    exact Formula.untilClosed_append (Piece.isBracket_tokens plain) hts
  | append _ _ ihps ihqs =>
    rw [tokensOf_append, List.append_assoc, List.append_assoc]
    exact ihps (ihqs hts)
  | @wrap left right ps closes _ ih =>
    obtain ⟨hleft, hright⟩ := Mark.depthAfter_closing closes d
    have hopen : ¬(d = 0 ∧ Token.mark left.char = .mark ')') := by
      rintro ⟨rfl, heq⟩
      rw [heq] at hleft
      exact absurd hleft (by decide)
    have hinside : ¬(d + 1 = 0 ∧ Token.mark right.char = .mark ')') := fun h =>
      absurd h.1 (Nat.succ_ne_zero d)
    -- one level deeper the closing bracket is a token like any other
    have hlast : Formula.untilClosed (d + 1) (.mark right.char :: ts)
        = some (.mark right.char :: inner, after) := by
      rw [Formula.untilClosed, if_neg hinside, hright, hts]
      rfl
    rw [tokensOf_wrapped, tokensOf_wrapped, Formula.untilClosed, if_neg hopen, hleft, ih hlast]
    rfl

/-- Within brackets no word of nested pieces is an operator. Whether a key comes next depends on the
last of them, but it makes no difference there. -/
theorem Nested.outline_append (names : Names) {ps : List Piece} (h : Nested ps) (d : Nat)
    (key : Bool) (ts : List Token) :
    ∃ key', Formula.outline (d + 1) key (tokensOf names ps ++ ts)
      = (tokensOf names ps).map (·, false) ++ Formula.outline (d + 1) key' ts := by
  induction h generalizing d key ts with
  | nil => exact ⟨key, rfl⟩
  | @atom p plain =>
    rw [tokensOf_cons, tokensOf_nil, List.append_nil]
    exact Formula.outline_append (Piece.isBracket_tokens plain) d key ts
  | @append ps qs _ _ ihps ihqs =>
    obtain ⟨key', hps⟩ := ihps d key (tokensOf names qs ++ ts)
    obtain ⟨key'', hqs⟩ := ihqs d key' ts
    refine ⟨key'', ?_⟩
    rw [tokensOf_append, List.append_assoc, hps, hqs, List.map_append, List.append_assoc]
  -- inside it is one bracket deeper, and after it as deep as before
  | @wrap left right ps closes _ ih =>
    obtain ⟨hleft, hright⟩ := Mark.depthAfter_closing closes (d + 1)
    obtain ⟨key', hps⟩ := ih (d + 1) (Token.mark left.char == .mark '.')
      (.mark right.char :: ts)
    refine ⟨Token.mark right.char == .mark '.', ?_⟩
    rw [tokensOf_wrapped, Formula.outline, hleft, hps, Formula.outline, hright]
    simp [Piece.tokens]

/-- What is wrapped in brackets is whole. -/
theorem Nested.whole {left right : Mark} {ps : List Piece} (h : Nested ps)
    (hclose : left.closing? = some right) (j : Junction) :
    Whole j (tokensOf names (.mark left :: (ps ++ [.mark right]))) := by
  obtain ⟨hleft, hright⟩ := Mark.depthAfter_closing hclose 0
  have hdot : Token.mark right.char ≠ .mark '.' := by
    intro heq
    rw [heq] at hright
    exact absurd hright (by decide)
  have houtline : ∀ us, Formula.outline 0 false
      (tokensOf names (.mark left :: (ps ++ [.mark right])) ++ us)
        = (.mark left.char, true) :: ((tokensOf names ps).map (·, false)
          ++ (.mark right.char, false) :: Formula.outline 0 false us) := by
    intro us
    obtain ⟨key', hps⟩ := h.outline_append names 0 (Token.mark left.char == .mark '.')
      (.mark right.char :: us)
    rw [tokensOf_wrapped, Formula.outline, hleft, hps, Formula.outline, hright,
      beq_false_of_ne hdot]
    rfl
  have hnone := houtline []
  rw [List.append_nil] at hnone
  refine ⟨fun us => ?_, ?_⟩
  · rw [houtline, hnone]
    simp [Formula.outline]
  · -- only the opening bracket could be an operator, and it is no word
    rw [hnone]
    simp [Formula.joint, Formula.outline]

/-! ## Expressions -/

/-- The words that join and negate. -/
def operators : List String :=
  ["AND", "OR", "NOT"]

/-- A reader takes for a junction the word that a text has for it. -/
theorem joiner_eq_text (j : Junction) : Formula.joiner j = (Keyword.join j).text := by
  cases j <;> rfl

theorem joiner_mem_operators (j : Junction) : Formula.joiner j ∈ operators := by
  cases j <;> decide

theorem whole_word {w : String} (hw : w ∉ operators) (j : Junction) : Whole j [.word w] := by
  refine .token rfl nofun fun heq => ?_
  rw [Token.word.inj heq] at hw
  exact hw (joiner_mem_operators j)

theorem atomic_word {w : String} (hw : w ∉ operators) : Atomic [.word w] := by
  refine ⟨whole_word hw, .word w, [], rfl, fun heq => ?_, nofun⟩
  rw [Token.word.inj heq] at hw
  exact hw (by decide)

theorem whole_bracketed {left right : Mark} {parts : List (List Piece)}
    (hclose : left.closing? = some right) (h : ∀ part ∈ parts, Nested part) (j : Junction) :
    Whole j (tokensOf names (bracketed left right parts)) :=
  (Nested.commaSeparated h).whole hclose j

/-- A word and its arguments. -/
theorem atomic_call {k : Keyword} {parts : List (List Piece)} (hk : k.text ∉ operators)
    (h : ∀ part ∈ parts, Nested part) :
    Atomic (tokensOf names (.word k :: bracketed .roundOpen .roundClose parts)) := by
  rw [tokensOf_cons]
  exact (atomic_word hk).append (whole_bracketed rfl h)

theorem atomic_signedTokens (text : List Char) : Atomic (signedTokens text) := by
  have hnumber : ∀ (digits : String) (j : Junction), Whole j [.number digits] := fun _ _ =>
    .token rfl nofun nofun
  have hdash : Atomic [.mark '-'] :=
    ⟨fun _ => .token rfl (by decide) nofun, _, _, rfl, nofun, by decide⟩
  unfold signedTokens
  split
  · exact hdash.append (hnumber _)
  · exact ⟨hnumber _, _, _, rfl, nofun, nofun⟩

theorem Literal.atomic (value : Literal) : Atomic value.tokens := by
  cases value with
  | null => exact atomic_word (by decide)
  | bool b => cases b <;> exact atomic_word (by decide)
  | int n => exact atomic_signedTokens _
  | float x => exact atomic_signedTokens _

theorem Param.atomic (p : Param) (hname : names (.param p) ∉ operators) :
    Atomic (tokensOf names p.pieces) := by
  unfold Param.pieces
  split
  · have hword : Atomic [.word Keyword.point.text] := atomic_word (by decide)
    have hinner : Nested [.param p] := .atom rfl
    exact hword.append (hinner.whole rfl)
  · have hdollar : Atomic [.mark '$'] :=
      ⟨fun _ => .token rfl (by decide) nofun, _, _, rfl, nofun, by decide⟩
    exact hdollar.append (whole_word hname)

section

variable (hnames : ∀ v, names v ∉ operators)

include hnames

theorem atomic_property (target : Reference) (key : String) :
    Atomic (tokensOf names (propertyPieces target key)) := by
  -- an unquoted key may be any word, also one that joins elsewhere
  have hkey : ∀ j, Whole j [.mark '.', Token.ofName key] := by
    intro j
    unfold Token.ofName
    split
    · exact .key rfl nofun
    · exact .key rfl nofun
  exact (atomic_word (hnames (.ref target))).append hkey

theorem Expr.atomic (e : Expr) : Atomic (tokensOf names e.pieces) := by
  cases e with
  | literal value =>
    rw [Expr.pieces, tokensOf_cons, tokensOf_nil, List.append_nil]
    exact value.atomic
  | param p => exact p.atomic (hnames _)
  | ref target => exact atomic_word (hnames _)
  | property target key => exact atomic_property hnames target key
  | call f =>
    cases f with
    | coalesce target key fallback =>
      exact atomic_call (by decide) (by simpa using ⟨nested_property target key, fallback.nested⟩)
    | distance source point =>
      exact atomic_call (by decide) (by simpa using ⟨source.nested, point.nested⟩)
    | apply f argument =>
      exact atomic_call (by cases f <;> decide) (by simpa using argument.nested)
  -- between brackets everything is nested, so no word in them counts
  | list items =>
    exact ⟨whole_bracketed rfl (Expr.items_nested items), _, _, rfl, nofun, by decide⟩
  | map entries =>
    exact ⟨whole_bracketed rfl (Expr.entries_nested entries), _, _, rfl, nofun, by decide⟩
  | projection target fields =>
    exact (atomic_word (hnames (.ref target))).append
      (whole_bracketed rfl (Expr.fields_nested fields))

end

/-! ## Comparisons, null tests and subqueries -/

theorem Comparison.whole (c : Comparison) (j : Junction) : Whole j (tokensOf names c.pieces) := by
  have hpieces : ∀ t ∈ tokensOf names c.pieces,
      t.depthAfter 0 = 0 ∧ t ≠ .mark '.' ∧ t ≠ .word (Formula.joiner j) := by
    cases c <;> cases j <;> simp [Comparison.pieces, Piece.tokens] <;> decide
  exact .tokens hpieces

section

variable (hnames : ∀ v, names v ∉ operators)

include hnames

theorem Predicate.atomic_compare (operator : Comparison) (lhs rhs : Expr) :
    Atomic (tokensOf names (Predicate.compare operator lhs rhs).pieces) := by
  rw [Predicate.pieces, tokensOf_append, tokensOf_cons, tokensOf_append, tokensOf_cons]
  exact (lhs.atomic hnames).append fun j =>
    (operator.whole j).append ((rhs.atomic hnames).whole j)

theorem Predicate.atomic_isNull (e : Expr) :
    Atomic (tokensOf names (Predicate.isNull e).pieces) := by
  rw [Predicate.pieces, tokensOf_append]
  exact (e.atomic hnames).append fun j =>
    .tokens (by cases j <;> simp [Piece.tokens, Keyword.text] <;> decide)

/-- The NOT in the middle of a test joins nothing, and does not lead. -/
theorem Predicate.atomic_isNotNull (e : Expr) :
    Atomic (tokensOf names (Predicate.isNotNull e).pieces) := by
  rw [Predicate.pieces, tokensOf_append]
  exact (e.atomic hnames).append fun j =>
    .tokens (by cases j <;> simp [Piece.tokens, Keyword.text] <;> decide)

omit hnames in
/-- Whatever is asked inside the braces is out of sight. -/
theorem Predicate.atomic_existsIn (body : List Clause) :
    Atomic (tokensOf names (Predicate.existsIn body).pieces) := by
  have hword : Atomic [.word Keyword.existence.text] := atomic_word (by decide)
  have hlines := Nested.lines (Clause.body_nested body)
  have hinner : Nested (.lineBreak
      :: ([Piece.lineBreak].intercalate (Clause.bodyPieces body) ++ [.lineBreak])) :=
    .cons rfl (hlines.append (.atom rfl))
  -- the line breaks belong to what is between the braces
  have hpieces : (Predicate.existsIn body).pieces = .word .existence :: .space
      :: .mark .curlyOpen :: ((.lineBreak :: ([Piece.lineBreak].intercalate (Clause.bodyPieces body)
        ++ [.lineBreak])) ++ [.mark .curlyClose]) := by
    simp [Predicate.pieces]
  rw [hpieces, tokensOf_cons, tokensOf_cons]
  exact hword.append (hinner.whole rfl)

end

/-! ## Parentheses around everything -/

/-- A pair of parentheses around everything can be left out. -/
theorem Nested.read_enclosed {ps : List Piece} (h : Nested ps) :
    Formula.read (tokensOf names (.mark .roundOpen :: (ps ++ [.mark .roundClose])))
      = Formula.read (tokensOf names ps) := by
  have hclosed : Formula.untilClosed 0 (tokensOf names ps ++ [.mark ')'])
      = some (tokensOf names ps, []) := by
    have hlast : Formula.untilClosed 0 [.mark ')'] = some ([], []) := rfl
    rw [h.untilClosed_append hlast, List.append_nil]
  have htokens : tokensOf names (.mark .roundOpen :: (ps ++ [.mark .roundClose]))
      = .mark '(' :: (tokensOf names ps ++ [.mark ')']) := by
    rw [← List.append_nil (tokensOf names (_ :: _)), tokensOf_wrapped]
    rfl
  have hwhole : ∀ j, Whole j (.mark '(' :: (tokensOf names ps ++ [.mark ')'])) := fun j =>
    htokens ▸ h.whole rfl j
  rw [htokens, Formula.read_of_whole hwhole, Formula.enclosed?, if_pos rfl, hclosed]
  rfl

end

end GraphQuery
