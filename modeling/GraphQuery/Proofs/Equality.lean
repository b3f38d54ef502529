import GraphQuery.Proofs.ExprReader
import GraphQuery.Proofs.OneArena

/-!
# Equal queries

Two queries are equal when they have the same shape, the same names and the same identities. What a
reference bears beyond its identity has no part in it: its kind, or the value of a parameter and
whether that is a point. A build does look at these. It numbers aliases from the stem of their kind,
and it writes points and records values.

Over one arena there is nothing to miss. Each identity was handed out once, together with all that
it bears, so equal references are the same reference. Equal queries are then the same query, one
part after the other, and what is built from them cannot differ.

Floats are left out, since the two zeros are equal and are written differently.
-/

namespace GraphQuery

/-! ## The literals of a query -/

/-- The literals of what is returned. An entity is returned without any. -/
def ReturnTarget.literals : ReturnTarget → List Literal
  | .entity _ _ => []
  | .expr e => e.literals
  | .all => []

mutual

/-- The literals of a condition, those of its subqueries too. -/
def Predicate.literals : Predicate → List Literal
  | .compare _ lhs rhs => lhs.literals ++ rhs.literals
  | .isNull e => e.literals
  | .isNotNull e => e.literals
  | .group _ operands => Predicate.operandLiterals operands
  | .not operand => operand.literals
  | .existsIn body => Clause.bodyLiterals body

/-- The literals of the operands, one after the other. -/
def Predicate.operandLiterals : List Predicate → List Literal
  | [] => []
  | operand :: rest => operand.literals ++ Predicate.operandLiterals rest

/-- The literals of a clause, in the order of its text. -/
def Clause.literals : Clause → List Literal
  | .create _ properties => Expr.entryLiterals properties
  | .matching _ _ none => []
  | .matching _ _ (some condition) => condition.literals
  | .call body => Clause.bodyLiterals body
  | .withAll => []
  | .withItems items => items.flatMap fun item => item.expr.literals
  | .set _ properties => Expr.entryLiterals properties
  | .orderBy items => items.flatMap fun item => item.expr.literals
  | .skip _ => []
  | .limit _ => []
  | .result r => r.target.literals

/-- The literals of all clauses of a body. -/
def Clause.bodyLiterals : List Clause → List Literal
  | [] => []
  | clause :: rest => clause.literals ++ Clause.bodyLiterals rest

end

/-- All literals of a query, those in its subqueries too. -/
def Query.literals (q : Query) : List Literal :=
  Clause.bodyLiterals q.clauses

/-! ## What may be compared -/

/-- Of two trees, what both visit was handed out by one arena, and no literal of the first is a
float. -/
structure Comparable (arena : ArenaId) (rs : List Handout) (vs vs' : List Visit)
    (ls : List Literal) : Prop where
  /-- All that the first tree visits was handed out. -/
  first : vs ⊆ issuedBy arena rs
  /-- And so was all that the second visits, by the same arena. -/
  second : vs' ⊆ issuedBy arena rs
  floatFree : FloatFree ls

variable {arena : ArenaId} {rs : List Handout}

namespace Comparable

variable {us us' vs vs' : List Visit} {ks ls : List Literal}

/-- The parts of two trees may be compared one by one. -/
theorem left (h : Comparable arena rs (us ++ vs) (us' ++ vs') (ks ++ ls)) :
    Comparable arena rs us us' ks :=
  ⟨(List.append_subset.mp h.first).1, (List.append_subset.mp h.second).1, h.floatFree.left⟩

theorem right (h : Comparable arena rs (us ++ vs) (us' ++ vs') (ks ++ ls)) :
    Comparable arena rs vs vs' ls :=
  ⟨(List.append_subset.mp h.first).2, (List.append_subset.mp h.second).2, h.floatFree.right⟩

theorem tail {v v' : Visit} (h : Comparable arena rs (v :: vs) (v' :: vs') ls) :
    Comparable arena rs vs vs' ls :=
  have hparts : Comparable arena rs ([v] ++ vs) ([v'] ++ vs') ([] ++ ls) := h
  hparts.right

/-- Equal references of one arena are the same reference. -/
theorem eq_of_ref {a b : Reference} (h : Comparable arena rs (.ref a :: vs) (.ref b :: vs') ls)
    (heq : a == b) : a = b := by
  have hid : a.id = b.id := LawfulBEq.eq_of_beq heq
  have ha := h.first List.mem_cons_self
  have hb := h.second List.mem_cons_self
  exact Visit.ref.inj (Arena.eq_of_id_of_mem_issueAll _ ha hb hid)

/-- Equal parameters of one arena bear the same value. -/
theorem eq_of_param {p q : Param} (h : Comparable arena rs (.param p :: vs) (.param q :: vs') ls)
    (heq : p == q) : p = q := by
  have hid : p.id = q.id := LawfulBEq.eq_of_beq heq
  have hp := h.first List.mem_cons_self
  have hq := h.second List.mem_cons_self
  exact Visit.param.inj (Arena.eq_of_id_of_mem_issueAll _ hp hq hid)

end Comparable

/-- Whatever else a reference bears, it is equal to itself. -/
instance : ReflBEq Reference where
  rfl := BEq.rfl (α := RefId)

/-- Whatever value a parameter bears, it is equal to itself. -/
instance : ReflBEq Param where
  rfl := BEq.rfl (α := RefId)

/-! ## Expressions -/

theorem Expr.beq_eq (e e' : Expr) : (e == e') = e.beq e' := rfl

/-- Only floats can be equal and not the same. -/
theorem Literal.eq_of_beq {a b : Literal} (h : a == b) (hl : FloatFree [a]) : a = b := by
  cases a with
  | null =>
    cases b with
    | null => rfl
    | _ => exact absurd h Bool.false_ne_true
  | bool x =>
    cases b with
    | bool y => exact congrArg bool (LawfulBEq.eq_of_beq h)
    | _ => exact absurd h Bool.false_ne_true
  | int n =>
    cases b with
    | int m => exact congrArg int (LawfulBEq.eq_of_beq h)
    | _ => exact absurd h Bool.false_ne_true
  | float x => exact absurd List.mem_cons_self (hl x)

mutual

theorem Expr.eq_of_beq {e e' : Expr} (h : e.beq e')
    (hc : Comparable arena rs e.visits e'.visits e.literals) : e = e' := by
  -- expressions of different forms are not equal, so one case of eight is left each time
  cases e with
  | literal value =>
    cases e' with
    | literal value' =>
      rw [Expr.beq] at h
      rw [Literal.eq_of_beq h hc.floatFree]
    | _ => simp [Expr.beq] at h
  | param p =>
    cases e' with
    | param q =>
      rw [Expr.beq] at h
      rw [hc.eq_of_param h]
    | _ => simp [Expr.beq] at h
  | ref target =>
    cases e' with
    | ref target' =>
      rw [Expr.beq] at h
      rw [hc.eq_of_ref h]
    | _ => simp [Expr.beq] at h
  | property target key =>
    cases e' with
    | property target' key' =>
      rw [Expr.beq, Bool.and_eq_true] at h
      obtain ⟨htarget, hkey⟩ := h
      rw [hc.eq_of_ref htarget, LawfulBEq.eq_of_beq hkey]
    | _ => simp [Expr.beq] at h
  | call f =>
    cases e' with
    | call g =>
      rw [Expr.beq] at h
      rw [FunctionCall.eq_of_beq h hc]
    | _ => simp [Expr.beq] at h
  | list items =>
    cases e' with
    | list items' =>
      rw [Expr.beq] at h
      rw [Expr.items_eq_of_beq h hc]
    | _ => simp [Expr.beq] at h
  | map entries =>
    cases e' with
    | map entries' =>
      rw [Expr.beq] at h
      rw [Expr.entries_eq_of_beq h hc]
    | _ => simp [Expr.beq] at h
  | projection target fields =>
    cases e' with
    | projection target' fields' =>
      rw [Expr.beq, Bool.and_eq_true] at h
      obtain ⟨htarget, hfields⟩ := h
      rw [hc.eq_of_ref htarget, Expr.fields_eq_of_beq hfields hc.tail]
    | _ => simp [Expr.beq] at h
termination_by structural e

theorem FunctionCall.eq_of_beq {f g : FunctionCall} (h : f.beq g)
    (hc : Comparable arena rs f.visits g.visits f.literals) : f = g := by
  cases f with
  | coalesce target key fallback =>
    cases g with
    | coalesce target' key' fallback' =>
      rw [FunctionCall.beq, Bool.and_eq_true, Bool.and_eq_true] at h
      obtain ⟨⟨htarget, hkey⟩, hfallback⟩ := h
      rw [hc.eq_of_ref htarget, LawfulBEq.eq_of_beq hkey, Expr.eq_of_beq hfallback hc.tail]
    | _ => simp [FunctionCall.beq] at h
  | distance source point =>
    cases g with
    | distance source' point' =>
      rw [FunctionCall.beq, Bool.and_eq_true] at h
      obtain ⟨hsource, hpoint⟩ := h
      -- the point comes after the source and has no literals
      have hc' : Comparable arena rs (source.visits ++ [.param point])
          (source'.visits ++ [.param point']) (source.literals ++ []) := by
        rw [List.append_nil]
        exact hc
      rw [DistanceSource.eq_of_beq hsource hc'.left, hc'.right.eq_of_param hpoint]
    | _ => simp [FunctionCall.beq] at h
  | apply function argument =>
    cases g with
    | apply function' argument' =>
      rw [FunctionCall.beq, Bool.and_eq_true] at h
      obtain ⟨hfunction, hargument⟩ := h
      rw [LawfulBEq.eq_of_beq hfunction, Expr.eq_of_beq hargument hc]
    | _ => simp [FunctionCall.beq] at h
termination_by structural f

theorem DistanceSource.eq_of_beq {s t : DistanceSource} (h : s.beq t)
    (hc : Comparable arena rs s.visits t.visits s.literals) : s = t := by
  cases s with
  | property target key =>
    cases t with
    | property target' key' =>
      rw [DistanceSource.beq, Bool.and_eq_true] at h
      obtain ⟨htarget, hkey⟩ := h
      rw [hc.eq_of_ref htarget, LawfulBEq.eq_of_beq hkey]
    | _ => simp [DistanceSource.beq] at h
  | call f =>
    cases t with
    | call g =>
      rw [DistanceSource.beq] at h
      rw [FunctionCall.eq_of_beq h hc]
    | _ => simp [DistanceSource.beq] at h
termination_by structural s

theorem ProjectionField.eq_of_beq {x y : ProjectionField} (h : x.beq y)
    (hc : Comparable arena rs x.visits y.visits x.literals) : x = y := by
  cases x with
  | shorthand key =>
    cases y with
    | shorthand key' =>
      rw [ProjectionField.beq] at h
      rw [LawfulBEq.eq_of_beq h]
    | _ => simp [ProjectionField.beq] at h
  | entry key value =>
    cases y with
    | entry key' value' =>
      rw [ProjectionField.beq, Bool.and_eq_true] at h
      obtain ⟨hkey, hvalue⟩ := h
      rw [LawfulBEq.eq_of_beq hkey, Expr.eq_of_beq hvalue hc]
    | _ => simp [ProjectionField.beq] at h
termination_by structural x

theorem Expr.items_eq_of_beq {as bs : List Expr} (h : Expr.beqItems as bs)
    (hc : Comparable arena rs (Expr.itemVisits as) (Expr.itemVisits bs) (Expr.itemLiterals as)) :
    as = bs := by
  cases as with
  | nil =>
    cases bs with
    | nil => rfl
    | cons _ _ => simp [Expr.beqItems] at h
  | cons a as =>
    cases bs with
    | nil => simp [Expr.beqItems] at h
    | cons b bs =>
      rw [Expr.beqItems, Bool.and_eq_true] at h
      rw [Expr.eq_of_beq h.1 hc.left, Expr.items_eq_of_beq h.2 hc.right]
termination_by structural as

theorem Expr.entries_eq_of_beq {as bs : List (String × Expr)} (h : Expr.beqEntries as bs)
    (hc : Comparable arena rs (Expr.entryVisits as) (Expr.entryVisits bs)
      (Expr.entryLiterals as)) : as = bs := by
  cases as with
  | nil =>
    cases bs with
    | nil => rfl
    | cons _ _ => simp [Expr.beqEntries] at h
  | cons a as =>
    cases bs with
    | nil => simp [Expr.beqEntries] at h
    | cons b bs =>
      obtain ⟨key, value⟩ := a
      obtain ⟨key', value'⟩ := b
      rw [Expr.beqEntries, Bool.and_eq_true, Bool.and_eq_true] at h
      obtain ⟨⟨hkey, hvalue⟩, hrest⟩ := h
      rw [LawfulBEq.eq_of_beq hkey, Expr.eq_of_beq hvalue hc.left,
        Expr.entries_eq_of_beq hrest hc.right]
termination_by structural as

theorem Expr.fields_eq_of_beq {xs ys : List ProjectionField} (h : Expr.beqFields xs ys)
    (hc : Comparable arena rs (Expr.fieldVisits xs) (Expr.fieldVisits ys)
      (Expr.fieldLiterals xs)) : xs = ys := by
  cases xs with
  | nil =>
    cases ys with
    | nil => rfl
    | cons _ _ => simp [Expr.beqFields] at h
  | cons x xs =>
    cases ys with
    | nil => simp [Expr.beqFields] at h
    | cons y ys =>
      rw [Expr.beqFields, Bool.and_eq_true] at h
      rw [ProjectionField.eq_of_beq h.1 hc.left, Expr.fields_eq_of_beq h.2 hc.right]
termination_by structural xs

end

/-! ## Patterns and parts of clauses

In a pattern the labels and types are compared as well, so there nothing is left to the arena. -/

/-- Nodes are compared by identity and labels, which is all they are made of. -/
instance : LawfulBEq NodeRef where
  eq_of_beq {a b} h := by
    obtain ⟨hid, hlabels⟩ := Bool.and_eq_true_iff.mp h
    cases a
    cases b
    exact congrArg₂ NodeRef.mk (LawfulBEq.eq_of_beq hid) (LawfulBEq.eq_of_beq hlabels)
  rfl := Bool.and_eq_true_iff.mpr ⟨BEq.rfl, BEq.rfl⟩

/-- Relationships are compared by identity and type, which is all they are made of. -/
instance : LawfulBEq RelationshipRef where
  eq_of_beq {a b} h := by
    obtain ⟨hid, htype⟩ := Bool.and_eq_true_iff.mp h
    cases a
    cases b
    exact congrArg₂ RelationshipRef.mk (LawfulBEq.eq_of_beq hid) (LawfulBEq.eq_of_beq htype)
  rfl := Bool.and_eq_true_iff.mpr ⟨BEq.rfl, BEq.rfl⟩

/-- Variables are nothing but their identity. -/
instance : LawfulBEq VariableRef where
  eq_of_beq {a b} h := by
    cases a
    cases b
    exact congrArg VariableRef.mk (LawfulBEq.eq_of_beq h)
  rfl := BEq.rfl (α := RefId)

deriving instance ReflBEq, LawfulBEq for NodePattern
deriving instance ReflBEq, LawfulBEq for Hop
deriving instance ReflBEq, LawfulBEq for Pattern
deriving instance ReflBEq, LawfulBEq for ReturnAlias

/-- Items that are equal one by one are the same items. -/
theorem items_eq_of_beq {α : Type} [BEq α] {visits : α → List Visit}
    {literals : α → List Literal}
    (heq : ∀ a b, a == b → Comparable arena rs (visits a) (visits b) (literals a) → a = b)
    {as bs : List α} (h : as == bs)
    (hc : Comparable arena rs (as.flatMap visits) (bs.flatMap visits) (as.flatMap literals)) :
    as = bs := by
  induction as generalizing bs with
  | nil =>
    cases bs with
    | nil => rfl
    | cons _ _ => exact absurd h Bool.false_ne_true
  | cons a as ih =>
    cases bs with
    | nil => exact absurd h Bool.false_ne_true
    | cons b bs =>
      rw [List.cons_beq_cons, Bool.and_eq_true] at h
      rw [heq a b h.1 hc.left, ih h.2 hc.right]

/-- Entries are compared one by one. -/
theorem beqEntries_eq_beq (as bs : List (String × Expr)) :
    Expr.beqEntries as bs = (as == bs) := by
  induction as generalizing bs with
  | nil => cases bs <;> simp [Expr.beqEntries]
  | cons a as ih =>
    cases bs with
    | nil => simp [Expr.beqEntries]
    | cons b bs => rw [Expr.beqEntries, ih, List.cons_beq_cons]; rfl

theorem WithItem.eq_of_beq {a b : WithItem} (h : a == b)
    (hc : Comparable arena rs a.visits b.visits a.expr.literals) : a = b := by
  obtain ⟨e, x⟩ := a
  obtain ⟨e', x'⟩ := b
  obtain ⟨he, hx⟩ := Bool.and_eq_true_iff.mp (show (e.beq e' && x == x') = true from h)
  obtain rfl := LawfulBEq.eq_of_beq hx
  cases x with
  | none => rw [Expr.eq_of_beq he hc]
  | some v =>
    -- the variable comes after the expression and has no literals
    have hc' : Comparable arena rs (e.visits ++ [.ref v.reference])
        (e'.visits ++ [.ref v.reference]) (e.literals ++ []) := by
      rw [List.append_nil]
      exact hc
    rw [Expr.eq_of_beq he hc'.left]

theorem OrderItem.eq_of_beq {a b : OrderItem} (h : a == b)
    (hc : Comparable arena rs a.expr.visits b.expr.visits a.expr.literals) : a = b := by
  obtain ⟨e, d⟩ := a
  obtain ⟨e', d'⟩ := b
  obtain ⟨he, hd⟩ := Bool.and_eq_true_iff.mp (show (e.beq e' && d == d') = true from h)
  rw [Expr.eq_of_beq he hc, LawfulBEq.eq_of_beq hd]

theorem ReturnTarget.eq_of_beq {a b : ReturnTarget} (h : a == b)
    (hc : Comparable arena rs a.visits b.visits a.literals) : a = b := by
  cases a with
  | entity target fields =>
    cases b with
    | entity target' fields' =>
      obtain ⟨htarget, hfields⟩ := Bool.and_eq_true_iff.mp h
      rw [hc.eq_of_ref htarget, LawfulBEq.eq_of_beq hfields]
    | _ => exact absurd h Bool.false_ne_true
  | expr e =>
    cases b with
    | expr e' =>
      have he : e.beq e' := h
      rw [Expr.eq_of_beq he hc]
    | _ => exact absurd h Bool.false_ne_true
  | all =>
    cases b with
    | all => rfl
    | _ => exact absurd h Bool.false_ne_true

theorem Result.eq_of_beq {a b : Result} (h : a == b)
    (hc : Comparable arena rs a.visits b.visits a.target.literals) : a = b := by
  obtain ⟨target, name⟩ := a
  obtain ⟨target', name'⟩ := b
  obtain ⟨htarget, hname⟩ := Bool.and_eq_true_iff.mp
    (show (target == target' && name == name') = true from h)
  obtain rfl := LawfulBEq.eq_of_beq hname
  have hc' : Comparable arena rs (target.visits ++ (name.map ReturnAlias.visits).getD [])
      (target'.visits ++ (name.map ReturnAlias.visits).getD []) (target.literals ++ []) := by
    rw [List.append_nil]
    exact hc
  rw [ReturnTarget.eq_of_beq htarget hc'.left]

/-! ## Predicates and clauses -/

/-- A node is created together with its properties, which mention it once more. -/
theorem eq_of_beq_create {n m : NodeRef} {as bs : List (String × Expr)}
    (h : (Clause.create n as).beq (.create m bs))
    (hc : Comparable arena rs (Clause.create n as).visits (Clause.create m bs).visits
      (Clause.create n as).literals) : Clause.create n as = .create m bs := by
  rw [Clause.beq, Bool.and_eq_true, ← beqEntries_eq_beq] at h
  rw [LawfulBEq.eq_of_beq h.1, Expr.entries_eq_of_beq h.2 hc.tail.tail]

theorem eq_of_beq_set {a b : Reference} {as bs : List (String × Expr)}
    (h : (Clause.set a as).beq (.set b bs))
    (hc : Comparable arena rs (Clause.set a as).visits (Clause.set b bs).visits
      (Clause.set a as).literals) : Clause.set a as = .set b bs := by
  rw [Clause.beq, Bool.and_eq_true, ← beqEntries_eq_beq] at h
  rw [hc.eq_of_ref h.1, Expr.entries_eq_of_beq h.2 hc.tail]

mutual

theorem Predicate.eq_of_beq {p q : Predicate} (h : p.beq q)
    (hc : Comparable arena rs p.visits q.visits p.literals) : p = q := by
  cases p with
  | compare operator lhs rhs =>
    cases q with
    | compare operator' lhs' rhs' =>
      rw [Predicate.beq, Bool.and_eq_true, Bool.and_eq_true] at h
      obtain ⟨⟨hoperator, hlhs⟩, hrhs⟩ := h
      rw [LawfulBEq.eq_of_beq hoperator, Expr.eq_of_beq hlhs hc.left,
        Expr.eq_of_beq hrhs hc.right]
    | _ => simp [Predicate.beq] at h
  | isNull e =>
    cases q with
    | isNull e' =>
      rw [Predicate.beq] at h
      rw [Expr.eq_of_beq h hc]
    | _ => simp [Predicate.beq] at h
  | isNotNull e =>
    cases q with
    | isNotNull e' =>
      rw [Predicate.beq] at h
      rw [Expr.eq_of_beq h hc]
    | _ => simp [Predicate.beq] at h
  | group junction operands =>
    cases q with
    | group junction' operands' =>
      rw [Predicate.beq, Bool.and_eq_true] at h
      rw [LawfulBEq.eq_of_beq h.1, Predicate.operands_eq_of_beq h.2 hc]
    | _ => simp [Predicate.beq] at h
  | not operand =>
    cases q with
    | not operand' =>
      rw [Predicate.beq] at h
      rw [Predicate.eq_of_beq h hc]
    | _ => simp [Predicate.beq] at h
  | existsIn body =>
    cases q with
    | existsIn body' =>
      rw [Predicate.beq] at h
      rw [Clause.body_eq_of_beq h hc]
    | _ => simp [Predicate.beq] at h
termination_by structural p

theorem Predicate.operands_eq_of_beq {ps qs : List Predicate} (h : Predicate.beqOperands ps qs)
    (hc : Comparable arena rs (Predicate.operandVisits ps) (Predicate.operandVisits qs)
      (Predicate.operandLiterals ps)) : ps = qs := by
  cases ps with
  | nil =>
    cases qs with
    | nil => rfl
    | cons _ _ => simp [Predicate.beqOperands] at h
  | cons p ps =>
    cases qs with
    | nil => simp [Predicate.beqOperands] at h
    | cons q qs =>
      rw [Predicate.beqOperands, Bool.and_eq_true] at h
      rw [Predicate.eq_of_beq h.1 hc.left, Predicate.operands_eq_of_beq h.2 hc.right]
termination_by structural ps

theorem Clause.eq_of_beq {a b : Clause} (h : a.beq b)
    (hc : Comparable arena rs a.visits b.visits a.literals) : a = b := by
  cases a with
  | create node properties =>
    cases b with
    | create node' properties' => exact eq_of_beq_create h hc
    | _ => simp [Clause.beq] at h
  | matching isOptional pattern condition =>
    cases b with
    | matching isOptional' pattern' condition' =>
      -- two patterns are equal only if both have a condition or neither has
      cases condition with
      | none =>
        cases condition' with
        | none =>
          rw [Clause.beq, Bool.and_eq_true] at h
          rw [LawfulBEq.eq_of_beq h.1, LawfulBEq.eq_of_beq h.2]
        | some _ => simp [Clause.beq] at h
      | some p =>
        cases condition' with
        | none => simp [Clause.beq] at h
        | some q =>
          rw [Clause.beq, Bool.and_eq_true, Bool.and_eq_true] at h
          obtain ⟨⟨hoptional, hpattern⟩, hcondition⟩ := h
          have hc' : Comparable arena rs (pattern.visits ++ p.visits)
            (pattern'.visits ++ q.visits) ([] ++ p.literals) := hc
          rw [LawfulBEq.eq_of_beq hoptional, LawfulBEq.eq_of_beq hpattern,
            Predicate.eq_of_beq hcondition hc'.right]
    | _ => cases condition <;> simp [Clause.beq] at h
  | call body =>
    cases b with
    | call body' =>
      rw [Clause.beq] at h
      rw [Clause.body_eq_of_beq h hc]
    | _ => simp [Clause.beq] at h
  | withAll =>
    cases b with
    | withAll => rfl
    | _ => simp [Clause.beq] at h
  | withItems items =>
    cases b with
    | withItems items' =>
      rw [Clause.beq] at h
      rw [items_eq_of_beq (fun _ _ => WithItem.eq_of_beq) h hc]
    | _ => simp [Clause.beq] at h
  | set target properties =>
    cases b with
    | set target' properties' => exact eq_of_beq_set h hc
    | _ => simp [Clause.beq] at h
  | orderBy items =>
    cases b with
    | orderBy items' =>
      rw [Clause.beq] at h
      rw [items_eq_of_beq (fun _ _ => OrderItem.eq_of_beq) h hc]
    | _ => simp [Clause.beq] at h
  | skip count =>
    cases b with
    | skip count' =>
      rw [Clause.beq] at h
      rw [hc.eq_of_param h]
    | _ => simp [Clause.beq] at h
  | limit count =>
    cases b with
    | limit count' =>
      rw [Clause.beq] at h
      rw [hc.eq_of_param h]
    | _ => simp [Clause.beq] at h
  | result r =>
    cases b with
    | result r' =>
      rw [Clause.beq] at h
      rw [Result.eq_of_beq h hc]
    | _ => simp [Clause.beq] at h
termination_by structural a

theorem Clause.body_eq_of_beq {as bs : List Clause} (h : Clause.beqBody as bs)
    (hc : Comparable arena rs (Clause.bodyVisits as) (Clause.bodyVisits bs)
      (Clause.bodyLiterals as)) : as = bs := by
  cases as with
  | nil =>
    cases bs with
    | nil => rfl
    | cons _ _ => simp [Clause.beqBody] at h
  | cons a as =>
    cases bs with
    | nil => simp [Clause.beqBody] at h
    | cons b bs =>
      rw [Clause.beqBody, Bool.and_eq_true] at h
      rw [Clause.eq_of_beq h.1 hc.left, Clause.body_eq_of_beq h.2 hc.right]
termination_by structural as

end

/-- Clauses are compared one by one. -/
theorem beqBody_eq_beq (as bs : List Clause) : Clause.beqBody as bs = (as == bs) := by
  induction as generalizing bs with
  | nil => cases bs <;> simp [Clause.beqBody]
  | cons a as ih =>
    cases bs with
    | nil => simp [Clause.beqBody]
    | cons b bs => rw [Clause.beqBody, ih, List.cons_beq_cons]; rfl

/-! ## Queries -/

namespace Query

variable {a b : Query}

/-- Equal queries over what one arena has handed out are the same query. -/
theorem same_of_beq (ha : ∀ v ∈ a.visits, v ∈ issuedBy arena rs)
    (hb : ∀ v ∈ b.visits, v ∈ issuedBy arena rs) (hl : FloatFree a.literals) (h : a == b) :
    a = b := by
  have hc : Comparable arena rs (Clause.bodyVisits a.clauses) (Clause.bodyVisits b.clauses)
    (Clause.bodyLiterals a.clauses) := ⟨ha, hb, hl⟩
  have hbody : Clause.beqBody a.clauses b.clauses :=
    (beqBody_eq_beq a.clauses b.clauses).trans h
  exact congrArg Query.mk (Clause.body_eq_of_beq hbody hc)

/-- **Equal queries build equally.** Over what one arena has handed out, in whatever order, two
queries without floats that are equal by their identities give the same text and the same table, or
fail for the same reason, under all settings. -/
theorem build_eq_of_beq (ha : ∀ v ∈ a.visits, v ∈ issuedBy arena rs)
    (hb : ∀ v ∈ b.visits, v ∈ issuedBy arena rs) (hl : FloatFree a.literals) (h : a == b)
    (s : Settings) : a.build arena s = b.build arena s := by
  have hsame : a = b := same_of_beq ha hb hl h
  rw [hsame]

/-- The query for older nodes, with its references told by their numbers. -/
def olderByNumber : Query :=
  let node : NodeRef := ⟨⟨⟨0⟩, 0⟩, ["A"]⟩
  let condition := Predicate.compare .gt (.property ⟨⟨⟨0⟩, 0⟩, .node⟩ "age")
    (.param ⟨⟨⟨0⟩, 1⟩, .int 30, false⟩)
  ⟨[.matching false ⟨.declared node, []⟩ (some condition),
    .call [.matching false ⟨.bound node, []⟩ (some condition)],
    .result ⟨.entity ⟨⟨⟨0⟩, 0⟩, .node⟩ [], none⟩]⟩

theorem build_eq_of_beq_older :
    (older == olderByNumber) = true
    ∧ older.build ⟨0⟩ .default = .ok olderBuilt
    ∧ olderByNumber.build ⟨0⟩ .default = .ok olderBuilt := by
  have hequal : (older == olderByNumber) = true := by
    show (olderByNumber.clauses == olderByNumber.clauses) = true
    rw [← beqBody_eq_beq]
    have hresult : ((⟨.entity ⟨⟨⟨0⟩, 0⟩, .node⟩ [], none⟩ : Result)
        == ⟨.entity ⟨⟨⟨0⟩, 0⟩, .node⟩ [], none⟩) = true := rfl
    simp [olderByNumber, Clause.beqBody, Clause.beq, Predicate.beq, Expr.beq_eq, Expr.beq,
      hresult]
  have hfloats : FloatFree older.literals := by
    intro x hx
    simp [older, literals, Clause.bodyLiterals, Clause.literals, Predicate.literals,
      Expr.literals, ReturnTarget.literals] at hx
  have hsame : older.build ⟨0⟩ .default = olderByNumber.build ⟨0⟩ .default :=
    build_eq_of_beq older_issued older_issued hfloats hequal .default
  exact ⟨hequal, older_build, hsame ▸ older_build⟩

/-- A query that returns a float. -/
def returning (x : Float) : Query :=
  ⟨[.result ⟨.expr (.literal (.float x)), none⟩]⟩

/-- The two zeros are equal, and their texts differ. -/
example : (returning 0.0 == returning (-0.0)) = true
    ∧ (returning 0.0).build ⟨0⟩ .default = .ok ⟨"RETURN 0.0", []⟩
    ∧ (returning (-0.0)).build ⟨0⟩ .default = .ok ⟨"RETURN -0.0", []⟩ := by
  have hliteral : Expr.beq (.literal (.float 0.0)) (.literal (.float (-0.0))) = true := by
    rw [Expr.beq]
    decide
  have hresult : ((⟨.expr (.literal (.float 0.0)), none⟩ : Result)
      == ⟨.expr (.literal (.float (-0.0))), none⟩) = true :=
    Bool.and_eq_true_iff.mpr ⟨hliteral, rfl⟩
  refine ⟨?_, rfl, rfl⟩
  show ((returning 0.0).clauses == (returning (-0.0)).clauses) = true
  rw [← beqBody_eq_beq]
  simp [returning, Clause.beqBody, Clause.beq, hresult]

end Query

end GraphQuery
