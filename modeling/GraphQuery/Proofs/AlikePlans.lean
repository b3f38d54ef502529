import GraphQuery.Proofs.WellFormed

/-!
# Plans that differ in inline values

An inline value can stand wherever a plan has an expression, in a stored value too. Here they are
listed in the order in which a text has their literals.

To say what comes of the inline values alone, whatever else a plan is made of, it is compared with
another plan that differs from it in these values only. The two are alike: they declare the same,
and have the same statements around their inline values.
-/

namespace GraphQuery.Plan

/-! ## Inline values in the order of the text -/

mutual

/-- Stored values are read as terms; one that is no term has no inline value. -/
def Term.literals (t : Term) : List Json :=
  match t with
  | .param _ => []
  | .ref _ => []
  | .property _ _ => []
  | .literal value => [value]
  | .list items => Term.literalsOfAll items
  | .projection _ _ entries => Term.literalsOfStored entries
  | .coalesce _ _ fallback => fallback.literals
  | .distance source _ => source.literals
  | .call _ argument => argument.literals
termination_by 2 * t.weight
decreasing_by all_goals (simp only [Term.weight]; omega)

/-- The inline values of the items, one after the other. -/
def Term.literalsOfAll (items : List Term) : List Json :=
  match items with
  | [] => []
  | item :: rest => item.literals ++ Term.literalsOfAll rest
termination_by 2 * Term.weights items + 1
decreasing_by
  · simp only [Term.weights]; omega
  · have := item.weight_pos
    simp only [Term.weights]; omega

/-- The inline values among stored values. Those that are no terms are passed over. -/
def Term.literalsOfStored (entries : List (String × Json)) : List Json :=
  match entries with
  | [] => []
  | (_, value) :: rest =>
    match _ : Term.ofJson value with
    | .error _ => Term.literalsOfStored rest
    | .ok t => t.literals ++ Term.literalsOfStored rest
termination_by 2 * Json.nodesOfMembers entries + 1
decreasing_by
  · have := value.nodes_pos
    simp only [Json.nodesOfMembers]; omega
  · have := Term.weight_ofJson ‹_›
    simp only [Json.nodesOfMembers]; omega
  · have := value.nodes_pos
    simp only [Json.nodesOfMembers]; omega

end

theorem Term.literalsOfStored_cons {key : String} {value : Json} {rest : List (String × Json)}
    {t : Term} (ht : Term.ofJson value = .ok t) :
    Term.literalsOfStored ((key, value) :: rest) = t.literals ++ Term.literalsOfStored rest := by
  rw [Term.literalsOfStored]
  split
  · exact absurd (ht.symm.trans ‹_›) (by rintro ⟨⟩)
  · rw [Except.ok.inj (ht.symm.trans ‹_›)]

mutual

/-- The inline values of the expressions in a condition, those of its subqueries too. -/
def Condition.literals : Condition → List Json
  | .compare _ lhs rhs => lhs.literals ++ rhs.literals
  | .isNull expr => expr.literals
  | .isNotNull expr => expr.literals
  | .group _ operands => Condition.literalsOfAll operands
  | .not operand => operand.literals
  | .existsIn statements => Statement.literalsOfAll statements

/-- The inline values of the operands, one after the other. -/
def Condition.literalsOfAll : List Condition → List Json
  | [] => []
  | operand :: rest => operand.literals ++ Condition.literalsOfAll rest

/-- The inline values of a statement. Patterns and counts have none. -/
def Statement.literals : Statement → List Json
  | .create _ properties => Term.literalsOfStored properties
  | .matching _ _ none => []
  | .matching _ _ (some condition) => condition.literals
  | .call statements => Statement.literalsOfAll statements
  | .withAll => []
  | .withItems items => items.flatMap fun item => item.expr.literals
  | .set _ properties => Term.literalsOfStored properties
  | .orderBy items => items.flatMap fun item => item.expr.literals
  | .skip _ => []
  | .limit _ => []
  | .result use => (use.expr.map Term.literals).getD []

/-- The inline values of the statements, one after the other. -/
def Statement.literalsOfAll : List Statement → List Json
  | [] => []
  | statement :: rest => statement.literals ++ Statement.literalsOfAll rest

end

end Plan

/-- The inline values of a plan, in the order of the text. -/
def Plan.literals (plan : Plan) : List Json :=
  Plan.Statement.literalsOfAll plan.statements

namespace Plan

/-! ## Plans that differ in inline values only -/

mutual

/-- The same term but for its inline values. -/
inductive Term.Alike : Term → Term → Prop
  | param (name : String) : Term.Alike (.param name) (.param name)
  | ref (name : String) : Term.Alike (.ref name) (.ref name)
  | property (target key : String) : Term.Alike (.property target key) (.property target key)
  | literal (value value' : Json) : Term.Alike (.literal value) (.literal value')
  | list {items items' : List Term} (each : Term.AllAlike items items') :
    Term.Alike (.list items) (.list items')
  | projection (target : String) (fields : List String) {entries entries' : List (String × Json)}
    (stored : Term.StoredAlike entries entries') :
    Term.Alike (.projection target fields entries) (.projection target fields entries')
  | coalesce (target key : String) {fallback fallback' : Term}
    (alike : Term.Alike fallback fallback') :
    Term.Alike (.coalesce target key fallback) (.coalesce target key fallback')
  | distance (point : String) {source source' : Term} (alike : Term.Alike source source') :
    Term.Alike (.distance source point) (.distance source' point)
  | call (function : String) {argument argument' : Term} (alike : Term.Alike argument argument') :
    Term.Alike (.call function argument) (.call function argument')

/-- Lists of terms that are alike item by item. -/
inductive Term.AllAlike : List Term → List Term → Prop
  | nil : Term.AllAlike [] []
  | cons {item item' : Term} {rest rest' : List Term} (first : Term.Alike item item')
    (others : Term.AllAlike rest rest') : Term.AllAlike (item :: rest) (item' :: rest')

/-- Stored values under the same keys. A value that is no term stands in both. -/
inductive Term.StoredAlike : List (String × Json) → List (String × Json) → Prop
  | nil : Term.StoredAlike [] []
  | read (key : String) {value value' : Json} {t t' : Term} {rest rest' : List (String × Json)}
    (as_term : Term.ofJson value = .ok t) (as_term' : Term.ofJson value' = .ok t')
    (first : Term.Alike t t') (others : Term.StoredAlike rest rest') :
    Term.StoredAlike ((key, value) :: rest) ((key, value') :: rest')
  | unread (key : String) {value : Json} {why : Unread} {rest rest' : List (String × Json)}
    (no_term : Term.ofJson value = .error why) (others : Term.StoredAlike rest rest') :
    Term.StoredAlike ((key, value) :: rest) ((key, value) :: rest')

end

/-- The same variable for expressions that are alike. -/
structure WithUse.Alike (w w' : WithUse) : Prop where
  expr : w.expr.Alike w'.expr
  aliasName : w.aliasName = w'.aliasName

/-- The same order for sort keys that are alike. -/
structure OrderUse.Alike (o o' : OrderUse) : Prop where
  expr : o.expr.Alike o'.expr
  direction : o.direction = o'.direction

/-- The same result but for the inline values of its expression. -/
structure ReturnUse.Alike (r r' : ReturnUse) : Prop where
  entity : r.entity = r'.entity
  fields : r.fields = r'.fields
  expr : Option.Rel Term.Alike r.expr r'.expr
  aliasName : r.aliasName = r'.aliasName
  aliasVariable : r.aliasVariable = r'.aliasVariable

mutual

/-- The same condition but for its inline values. -/
inductive Condition.Alike : Condition → Condition → Prop
  | compare (operator : Comparison) {lhs lhs' rhs rhs' : Term} (left : lhs.Alike lhs')
    (right : rhs.Alike rhs') :
    Condition.Alike (.compare operator lhs rhs) (.compare operator lhs' rhs')
  | isNull {expr expr' : Term} (alike : expr.Alike expr') :
    Condition.Alike (.isNull expr) (.isNull expr')
  | isNotNull {expr expr' : Term} (alike : expr.Alike expr') :
    Condition.Alike (.isNotNull expr) (.isNotNull expr')
  | group (junction : Junction) {operands operands' : List Condition}
    (each : Condition.AllAlike operands operands') :
    Condition.Alike (.group junction operands) (.group junction operands')
  | not {operand operand' : Condition} (alike : Condition.Alike operand operand') :
    Condition.Alike (.not operand) (.not operand')
  | existsIn {statements statements' : List Statement}
    (each : Statement.AllAlike statements statements') :
    Condition.Alike (.existsIn statements) (.existsIn statements')

/-- Operands that are alike one by one. -/
inductive Condition.AllAlike : List Condition → List Condition → Prop
  | nil : Condition.AllAlike [] []
  | cons {operand operand' : Condition} {rest rest' : List Condition}
    (first : Condition.Alike operand operand') (others : Condition.AllAlike rest rest') :
    Condition.AllAlike (operand :: rest) (operand' :: rest')

/-- The same statement but for its inline values. Patterns have none, so they are the same. -/
inductive Statement.Alike : Statement → Statement → Prop
  | create (node : String) {properties properties' : List (String × Json)}
    (stored : Term.StoredAlike properties properties') :
    Statement.Alike (.create node properties) (.create node properties')
  | matching (pattern : PatternUse) (optional : Bool) :
    Statement.Alike (.matching pattern optional none) (.matching pattern optional none)
  | matchingWhere (pattern : PatternUse) (optional : Bool) {condition condition' : Condition}
    (alike : Condition.Alike condition condition') :
    Statement.Alike (.matching pattern optional (some condition))
      (.matching pattern optional (some condition'))
  | call {statements statements' : List Statement}
    (each : Statement.AllAlike statements statements') :
    Statement.Alike (.call statements) (.call statements')
  | withAll : Statement.Alike .withAll .withAll
  | withItems {items items' : List WithUse} (each : List.Forall₂ WithUse.Alike items items') :
    Statement.Alike (.withItems items) (.withItems items')
  | set (target : String) {properties properties' : List (String × Json)}
    (stored : Term.StoredAlike properties properties') :
    Statement.Alike (.set target properties) (.set target properties')
  | orderBy {items items' : List OrderUse} (each : List.Forall₂ OrderUse.Alike items items') :
    Statement.Alike (.orderBy items) (.orderBy items')
  | skip (param : String) : Statement.Alike (.skip param) (.skip param)
  | limit (param : String) : Statement.Alike (.limit param) (.limit param)
  | result {use use' : ReturnUse} (alike : use.Alike use') :
    Statement.Alike (.result use) (.result use')

/-- Statements that are alike one by one. -/
inductive Statement.AllAlike : List Statement → List Statement → Prop
  | nil : Statement.AllAlike [] []
  | cons {statement statement' : Statement} {rest rest' : List Statement}
    (first : Statement.Alike statement statement') (others : Statement.AllAlike rest rest') :
    Statement.AllAlike (statement :: rest) (statement' :: rest')

end

theorem Statement.Alike.isResult {st st' : Statement} (h : st.Alike st') :
    st.isResult = st'.isResult := by
  cases h <;> rfl

theorem Statement.AllAlike.isEmpty {sts sts' : List Statement} (h : Statement.AllAlike sts sts') :
    sts.isEmpty = sts'.isEmpty := by
  cases h <;> rfl

/-- What can be the source of a distance in the one plan can be it in the other. -/
theorem Term.Alike.isSource {t t' : Term} (h : t.Alike t') : t.isSource = t'.isSource := by
  cases h <;> rfl

end Plan

/-- The plans declare the same and differ in inline values only. -/
structure Plan.Alike (plan plan' : Plan) : Prop where
  entities : plan.entities = plan'.entities
  params : plan.params = plan'.params
  statements : Plan.Statement.AllAlike plan.statements plan'.statements

namespace Plan

/-! ## A plan is like itself -/

mutual

theorem Term.Alike.refl (t : Term) : Term.Alike t t := by
  match t with
  | .param name => exact .param name
  | .ref name => exact .ref name
  | .property target key => exact .property target key
  | .literal value => exact .literal value value
  | .list items => exact .list (Term.AllAlike.refl items)
  | .projection target fields entries =>
    exact .projection target fields (Term.StoredAlike.refl entries)
  | .coalesce target key fallback => exact .coalesce target key (Term.Alike.refl fallback)
  | .distance source point => exact .distance point (Term.Alike.refl source)
  | .call function argument => exact .call function (Term.Alike.refl argument)
termination_by 2 * t.weight
decreasing_by all_goals (simp only [Term.weight]; omega)

theorem Term.AllAlike.refl (items : List Term) : Term.AllAlike items items := by
  match items with
  | [] => exact .nil
  | item :: rest => exact .cons (Term.Alike.refl item) (Term.AllAlike.refl rest)
termination_by 2 * Term.weights items + 1
decreasing_by
  · simp only [Term.weights]; omega
  · have := item.weight_pos
    simp only [Term.weights]; omega

theorem Term.StoredAlike.refl (entries : List (String × Json)) :
    Term.StoredAlike entries entries := by
  match entries with
  | [] => exact .nil
  | (key, value) :: rest =>
    match ht : Term.ofJson value with
    | .error why => exact .unread key ht (Term.StoredAlike.refl rest)
    | .ok t => exact .read key ht ht (Term.Alike.refl t) (Term.StoredAlike.refl rest)
termination_by 2 * Json.nodesOfMembers entries + 1
decreasing_by
  · have := value.nodes_pos
    simp only [Json.nodesOfMembers]; omega
  · have := Term.weight_ofJson ht
    simp only [Json.nodesOfMembers]; omega
  · have := value.nodes_pos
    simp only [Json.nodesOfMembers]; omega

end

theorem WithUse.Alike.refl (w : WithUse) : w.Alike w :=
  ⟨.refl w.expr, rfl⟩

theorem OrderUse.Alike.refl (o : OrderUse) : o.Alike o :=
  ⟨.refl o.expr, rfl⟩

theorem ReturnUse.Alike.refl (r : ReturnUse) : r.Alike r := by
  have hexpr : Option.Rel Term.Alike r.expr r.expr := by
    cases r.expr with
    | none => exact .none
    | some t => exact .some (.refl t)
  exact ⟨rfl, rfl, hexpr, rfl, rfl⟩

mutual

theorem Condition.Alike.refl (c : Condition) : Condition.Alike c c := by
  match c with
  | .compare operator lhs rhs => exact .compare operator (.refl lhs) (.refl rhs)
  | .isNull expr => exact .isNull (.refl expr)
  | .isNotNull expr => exact .isNotNull (.refl expr)
  | .group junction operands => exact .group junction (Condition.AllAlike.refl operands)
  | .not operand => exact .not (Condition.Alike.refl operand)
  | .existsIn statements => exact .existsIn (Statement.AllAlike.refl statements)

theorem Condition.AllAlike.refl (operands : List Condition) :
    Condition.AllAlike operands operands := by
  match operands with
  | [] => exact .nil
  | operand :: rest => exact .cons (Condition.Alike.refl operand) (Condition.AllAlike.refl rest)

theorem Statement.Alike.refl (st : Statement) : Statement.Alike st st := by
  match st with
  | .create node properties => exact .create node (.refl properties)
  | .matching pattern optional none => exact .matching pattern optional
  | .matching pattern optional (some condition) =>
    exact .matchingWhere pattern optional (Condition.Alike.refl condition)
  | .call statements => exact .call (Statement.AllAlike.refl statements)
  | .withAll => exact .withAll
  | .withItems items => exact .withItems (List.forall₂_same.mpr fun w _ => .refl w)
  | .set target properties => exact .set target (.refl properties)
  | .orderBy items => exact .orderBy (List.forall₂_same.mpr fun o _ => .refl o)
  | .skip param => exact .skip param
  | .limit param => exact .limit param
  | .result use => exact .result (.refl use)

theorem Statement.AllAlike.refl (statements : List Statement) :
    Statement.AllAlike statements statements := by
  match statements with
  | [] => exact .nil
  | statement :: rest =>
    exact .cons (Statement.Alike.refl statement) (Statement.AllAlike.refl rest)

end

end Plan

theorem Plan.Alike.refl (plan : Plan) : plan.Alike plan :=
  ⟨rfl, rfl, .refl plan.statements⟩

end GraphQuery
