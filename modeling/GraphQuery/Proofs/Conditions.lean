import GraphQuery.Proofs.Leaves
import GraphQuery.Proofs.Runs
import GraphQuery.Proofs.Walks

/-!
# Conditions keep their structure

Which operands of a condition need parentheses is decided on the tree, by a recursion that looks
through groups of one. What is written is decided by another, which leaves those groups out. A text
that came out with a pair of parentheses too few would still be a condition, but another one.

The two recursions agree. A reader of the text who knows only the precedence of the operators finds
the leaves of the tree in their order, and joins and negates them as the tree does. So whatever
truth the leaves have, the text as it is read has the truth of the tree.
-/

namespace GraphQuery

open Formula (Whole Atomic)

section

variable {names : Names}

/-! ## The structure of a predicate -/

mutual

/-- The comparisons, null tests and subqueries of a predicate, in the order of the text. -/
def Predicate.leaves : Predicate → List Predicate
  | .compare operator lhs rhs => [.compare operator lhs rhs]
  | .isNull e => [.isNull e]
  | .isNotNull e => [.isNotNull e]
  | .group _ operands => Predicate.operandLeaves operands
  | .not operand => operand.leaves
  | .existsIn body => [.existsIn body]

/-- The leaves of the operands, one operand after the other. -/
def Predicate.operandLeaves : List Predicate → List Predicate
  | [] => []
  | operand :: rest => operand.leaves ++ Predicate.operandLeaves rest

end

mutual

/-- The truth of a predicate, where the `i`-th of its leaves is as true as `ν` says of `k + i`. -/
def Predicate.truthFrom (ν : Nat → Bool) (k : Nat) : Predicate → Bool
  | .compare _ _ _ => ν k
  | .isNull _ => ν k
  | .isNotNull _ => ν k
  | .group junction operands => junction.holds (Predicate.operandTruths ν k operands)
  | .not operand => !operand.truthFrom ν k
  | .existsIn _ => ν k

/-- The truths of operands. Each takes up the numbering where the one before it ends. -/
def Predicate.operandTruths (ν : Nat → Bool) (k : Nat) : List Predicate → List Bool
  | [] => []
  | operand :: rest =>
    operand.truthFrom ν k :: Predicate.operandTruths ν (k + operand.leaves.length) rest

end

/-- The truth of a predicate under truth values for its leaves. -/
def Predicate.truth (ν : Nat → Bool) (p : Predicate) : Bool :=
  p.truthFrom ν 0

mutual

/-- What a reader makes of a predicate: a group of one is its operand. -/
def Predicate.formula (names : Names) : Predicate → Formula
  | .compare operator lhs rhs => .leaf (tokensOf names (Predicate.compare operator lhs rhs).pieces)
  | .isNull e => .leaf (tokensOf names (Predicate.isNull e).pieces)
  | .isNotNull e => .leaf (tokensOf names (Predicate.isNotNull e).pieces)
  | .group _ [operand] => operand.formula names
  | .group junction operands => .joined junction (Predicate.operandFormulas names operands)
  | .not operand => .not (operand.formula names)
  | .existsIn body => .leaf (tokensOf names (Predicate.existsIn body).pieces)

/-- What a reader makes of the operands, each by itself. -/
def Predicate.operandFormulas (names : Names) : List Predicate → List Formula
  | [] => []
  | operand :: rest => operand.formula names :: Predicate.operandFormulas names rest

end

mutual

theorem Predicate.leaves_formula (p : Predicate) :
    (p.formula names).leaves = p.leaves.map fun leaf => tokensOf names leaf.pieces := by
  match p with
  | .compare _ _ _ => rfl
  | .isNull _ => rfl
  | .isNotNull _ => rfl
  | .group _ [] => rfl
  | .group _ [operand] =>
    have hoperand := Predicate.leaves_formula operand
    rw [Predicate.formula, hoperand, Predicate.leaves, Predicate.operandLeaves,
      Predicate.operandLeaves, List.append_nil]
  | .group _ (first :: second :: rest) =>
    exact Predicate.leavesOfAll_operandFormulas (first :: second :: rest)
  | .not operand => exact Predicate.leaves_formula operand
  | .existsIn _ => rfl

theorem Predicate.leavesOfAll_operandFormulas (operands : List Predicate) :
    Formula.leavesOfAll (Predicate.operandFormulas names operands)
      = (Predicate.operandLeaves operands).map fun leaf => tokensOf names leaf.pieces := by
  match operands with
  | [] => rfl
  | operand :: rest =>
    have hoperand := Predicate.leaves_formula operand
    have hrest := Predicate.leavesOfAll_operandFormulas rest
    rw [Predicate.operandFormulas, Formula.leavesOfAll, hoperand, hrest, Predicate.operandLeaves,
      List.map_append]

end

/-- One operand alone holds as the group of it does. -/
theorem Junction.holds_singleton (j : Junction) (b : Bool) : j.holds [b] = b := by
  cases j <;> cases b <;> rfl

mutual

theorem Predicate.truthFrom_formula (ν : Nat → Bool) (k : Nat) (p : Predicate) :
    (p.formula names).truthFrom ν k = p.truthFrom ν k := by
  match p with
  | .compare _ _ _ => rfl
  | .isNull _ => rfl
  | .isNotNull _ => rfl
  | .group _ [] => rfl
  | .group junction [operand] =>
    have hoperand := Predicate.truthFrom_formula ν k operand
    rw [Predicate.formula, hoperand, Predicate.truthFrom, Predicate.operandTruths,
      Predicate.operandTruths, Junction.holds_singleton]
  | .group junction (first :: second :: rest) =>
    have hoperands := Predicate.truthsFrom_operandFormulas ν k (first :: second :: rest)
    exact congrArg junction.holds hoperands
  | .not operand => exact congrArg Bool.not (Predicate.truthFrom_formula ν k operand)
  | .existsIn _ => rfl

theorem Predicate.truthsFrom_operandFormulas (ν : Nat → Bool) (k : Nat)
    (operands : List Predicate) :
    Formula.truthsFrom ν k (Predicate.operandFormulas names operands)
      = Predicate.operandTruths ν k operands := by
  match operands with
  | [] => rfl
  | operand :: rest =>
    have hoperand := Predicate.truthFrom_formula ν k operand
    have hrest := Predicate.truthsFrom_operandFormulas ν (k + operand.leaves.length) rest
    have hlength : (operand.formula names).leaves.length = operand.leaves.length := by
      rw [Predicate.leaves_formula, List.length_map]
    rw [Predicate.operandFormulas, Formula.truthsFrom, hoperand, hlength, hrest,
      Predicate.operandTruths]

end

/-! ## Predicates are read as they are -/

section

variable (hnames : ∀ v, names v ∉ operators)

include hnames

/-- What is not written as a group of two or more can be an operand as it is, however many groups of
one there are around it. -/
theorem Predicate.whole (p : Predicate) (h : p.isJoined = false) (j : Junction) :
    Whole j (tokensOf names p.pieces) := by
  match p with
  | .compare operator lhs rhs => exact (Predicate.atomic_compare hnames operator lhs rhs).whole j
  | .isNull e => exact (Predicate.atomic_isNull hnames e).whole j
  | .isNotNull e => exact (Predicate.atomic_isNotNull hnames e).whole j
  | .group _ [] => exact .nil j
  | .group _ [operand] => exact Predicate.whole operand h j
  | .group _ (_ :: _ :: _) => cases h
  | .not operand =>
    have hword : Whole j [.word "NOT"] := .token rfl nofun (by cases j <;> decide)
    exact hword.append (operand.nested.whole rfl j)
  | .existsIn body => exact (Predicate.atomic_existsIn body).whole j

theorem Predicate.whole_operandOf (p : Predicate) (j : Junction) :
    Whole j (tokensOf names (p.operandOf p.pieces)) := by
  unfold Predicate.operandOf
  split
  · exact p.nested.whole rfl j
  · rename_i hjoined
    exact p.whole hnames (Bool.eq_false_iff.mpr hjoined) j

omit hnames in
theorem Predicate.read_operandOf (p : Predicate) :
    Formula.read (tokensOf names (p.operandOf p.pieces))
      = Formula.read (tokensOf names p.pieces) := by
  unfold Predicate.operandOf
  split
  · exact p.nested.read_enclosed
  · rfl

theorem Predicate.operands_whole (operands : List Predicate) (j : Junction) :
    ∀ part ∈ (Predicate.operandPieces operands).map (tokensOf names), Whole j part := by
  induction operands with
  | nil => exact fun _ h => absurd h List.not_mem_nil
  | cons operand rest ih => exact List.forall_mem_cons.mpr ⟨operand.whole_operandOf hnames j, ih⟩

end

mutual

/-- **A reader finds the structure of the tree**, except that a group of one is its operand. -/
theorem Predicate.read_tokens (hnames : ∀ v, names v ∉ operators) (p : Predicate)
    (h : ∀ why, .refuse why ∉ p.steps) :
    Formula.read (tokensOf names p.pieces) = p.formula names := by
  match p with
  | .compare operator lhs rhs =>
    exact (Predicate.atomic_compare hnames operator lhs rhs).read_eq_leaf
  | .isNull e => exact (Predicate.atomic_isNull hnames e).read_eq_leaf
  | .isNotNull e => exact (Predicate.atomic_isNotNull hnames e).read_eq_leaf
  | .group junction [] => exact absurd List.mem_cons_self (h (.emptyGroup junction))
  | .group _ [operand] =>
    exact Predicate.read_tokens hnames operand fun why hmem => h why (List.mem_append_left _ hmem)
  | .group junction (first :: second :: rest) =>
    -- parentheses make every operand whole, and reading an operand takes them off again
    have hoperands := Predicate.read_operands hnames (first :: second :: rest) h
    have hparts := Predicate.operands_whole hnames (first :: second :: rest)
    have hpieces : tokensOf names (Predicate.group junction (first :: second :: rest)).pieces
        = [.word (Formula.joiner junction)].intercalate
          ((Predicate.operandPieces (first :: second :: rest)).map (tokensOf names)) := by
      rw [joiner_eq_text]
      exact tokensOf_intercalate _ _
    rw [hpieces, Formula.read_joined hparts (by simp [Predicate.operandPieces]), hoperands]
    rfl
  | .not operand =>
    have hoperand := Predicate.read_tokens hnames operand h
    have hwhole : ∀ j, Whole j
        (tokensOf names (.mark .roundOpen :: (operand.pieces ++ [.mark .roundClose]))) :=
      operand.nested.whole rfl
    have hnot := Formula.read_not hwhole
    rw [operand.nested.read_enclosed, hoperand] at hnot
    exact hnot
  | .existsIn body => exact (Predicate.atomic_existsIn body).read_eq_leaf

theorem Predicate.read_operands (hnames : ∀ v, names v ∉ operators) (operands : List Predicate)
    (h : ∀ why, .refuse why ∉ Predicate.operandSteps operands) :
    ((Predicate.operandPieces operands).map (tokensOf names)).map Formula.read
      = Predicate.operandFormulas names operands := by
  match operands with
  | [] => rfl
  | operand :: rest =>
    have hoperand := Predicate.read_tokens hnames operand fun why hmem =>
      h why (List.mem_append_left _ hmem)
    have hrest := Predicate.read_operands hnames rest fun why hmem =>
      h why (List.mem_append_right _ hmem)
    rw [Predicate.operandPieces, List.map_cons, List.map_cons, operand.read_operandOf, hoperand,
      hrest, Predicate.operandFormulas]

end

end

/-! ## Names of a run -/

namespace Naming

variable {s : Settings}

theorem give_not_mem_operators (ha : s.aliasStem ∉ operators) (hv : s.variableStem ∉ operators)
    (n : Naming) (v : Visit) (hn : n.settings = s) : (n.give v).1 ∉ operators :=
  give_not_mem (by decide) ha hv n v hn

/-- If no name is an operator, nothing is called like one. -/
theorem called_not_mem_operators {n : Naming} (h : ∀ a ∈ n.allocated, a.name ∉ operators)
    (v : Visit) : n.called v ∉ operators := by
  rw [called]
  cases hname : n.nameAt v.id.index with
  | none => decide
  | some name =>
    obtain ⟨a, ha, _, rfl⟩ := mem_allocated_of_nameAt hname
    exact h a ha

end Naming

namespace Predicate

variable {p : Predicate} {arena : ArenaId} {s : Settings} {actions : List Action} {text : String}
  {n : Naming}

/-- Under plain stems a text is read as the tokens of its tree. -/
theorem lex_render (hs : s.PlainStems)
    (hr : p.render.run ((Naming.fresh arena s).run actions) = (.ok text, n)) :
    Lexer.lex text.toList = some (tokensOf n.called p.pieces) := by
  obtain ⟨hn, harena, htext⟩ := p.render_follows.ok hr
  rw [htext n.called (n.agrees_called p.visits)]
  refine lex_spell p.separated fun v hmentioned => ?_
  have hvisited := p.echo.visited v hmentioned
  obtain ⟨name, hname⟩ := Naming.nameAt_visitAll_mem hvisited (harena v hvisited)
  rw [← hn] at hname
  obtain ⟨a, ha, _, rfl⟩ := Naming.mem_allocated_of_nameAt hname
  rw [Naming.called, hname]
  rw [hn] at ha
  exact Naming.forall_name_run (P := (Name.isPlain · = true))
    (fun m v hm => Naming.isPlain_give (hm ▸ hs) v) actions p.visits a ha

/-- **Boolean structure survives rendering.** When a predicate is rendered at any moment of a run,
under valid settings whose aliases do not begin with an operator, a reader of the text finds the
leaves of the tree, in their order. Whatever truth these have, the condition as it is read has the
truth of the tree.

To the reader no word inside brackets is an operator, and none between quotes. A word right after a
point is a key, also where it is one of AND, OR and NOT. -/
theorem read_render (hs : s.isValid) (haliases : s.aliasStem ∉ operators)
    (hvariables : s.variableStem ∉ operators)
    (hr : p.render.run ((Naming.fresh arena s).run actions) = (.ok text, n)) :
    ∃ ts, Lexer.lex text.toList = some ts
      ∧ (Formula.read ts).leaves = p.leaves.map (fun leaf => tokensOf n.called leaf.pieces)
      ∧ ∀ ν, (Formula.read ts).truth ν = p.truth ν := by
  have hplain : s.PlainStems := by
    obtain ⟨ha, hv, hp, _⟩ := Settings.isValid_iff.mp hs
    exact ⟨ha, hv, hp⟩
  have hnames : ∀ v, n.called v ∉ operators := by
    refine Naming.called_not_mem_operators ?_
    rw [(p.render_follows.ok hr).1]
    exact Naming.forall_name_run (P := (· ∉ operators))
      (Naming.give_not_mem_operators haliases hvariables) actions p.visits
  -- empty groups would have been refused
  have hread := p.read_tokens hnames (p.render_walks.refuse_not_mem hr)
  refine ⟨_, lex_render hplain hr, ?_, fun ν => ?_⟩
  · rw [hread, p.leaves_formula]
  · rw [hread]
    exact p.truthFrom_formula ν 0

/-- A condition with keys that look like operators, with groups of one around groups of two, and
with operators of its own in a subquery. -/
def tangled : Predicate :=
  let (node, a) := (Arena.empty ⟨0⟩).addNode ["A"]
  let (age, _) := a.addParam (.int 30)
  let compare operator key := Predicate.compare operator (.property node.reference key) (.param age)
  let isNull := Predicate.isNull (.property node.reference "OR")
  let isNotNull := Predicate.isNotNull (.property node.reference "b")
  let inner := Predicate.group .or [compare .lt "AND", compare .gt "NOT"]
  .group .or
    [.group .and [.group .or [.group .and
      [compare .eq "a AND b", .group .and [.group .or [.not (.group .or [isNull, isNotNull]),
        .existsIn [.matching false ⟨.bound node, []⟩ (some inner)]]]]]],
      .group .and [compare .ne "a"]]

/-- The text of `tangled`, where words of the language stand for keys and in quoted names. -/
def tangledText : String :=
  "(this.\x60a AND b\x60 = $param0 AND (NOT (this.OR IS NULL OR this.b IS NOT NULL) OR " ++
    "EXISTS \x7b\nMATCH (this)\nWHERE this.AND < $param0 OR this.NOT > $param0\n\x7d)) OR " ++
    "this.a <> $param0"

set_option maxRecDepth 4000 in
theorem tangled_render :
    (tangled.render.run ((Naming.fresh ⟨0⟩ .default).run [])).1 = .ok tangledText := rfl

theorem read_render_tangled :
    Settings.default.isValid ∧ Settings.default.aliasStem ∉ operators
    ∧ Settings.default.variableStem ∉ operators
    ∧ (tangled.render.run ((Naming.fresh ⟨0⟩ .default).run [])).1 = .ok tangledText
    ∧ ∃ ts, Lexer.lex tangledText.toList = some ts ∧ (Formula.read ts).leaves.length = 5
      ∧ ∀ ν, (Formula.read ts).truth ν = ((ν 0 && (!(ν 1 || ν 2) || ν 3)) || ν 4) := by
  have hr : tangled.render.run ((Naming.fresh ⟨0⟩ .default).run [])
      = (.ok tangledText, (tangled.render.run ((Naming.fresh ⟨0⟩ .default).run [])).2) :=
    Prod.ext tangled_render rfl
  obtain ⟨ts, hlex, hleaves, htruth⟩ := read_render (by decide) (by decide) (by decide) hr
  refine ⟨by decide, by decide, by decide, tangled_render, ts, hlex, ?_, fun ν => ?_⟩
  · rw [hleaves]
    rfl
  · rw [htruth]
    simp [tangled, truth, truthFrom, operandTruths, leaves, operandLeaves, Junction.holds]

end Predicate

end GraphQuery
