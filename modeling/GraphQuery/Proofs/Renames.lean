import GraphQuery.Plan.Compile
import Mathlib.Data.List.Forall2

/-!
# Renamed plans

A name of a plan is declared once and used in statements, and it means nothing beyond that. To
rename is to put another name in its place wherever it stands, and to leave every other text alone:
keys, labels, types, output names, and the names of functions.

Values of properties and of projection entries are stored as JSON and read as terms when they are
compiled, so names are used in them too. They are renamed as the terms that they are read as. How
the renamed term is stored again is left open, which makes renaming a relation: any stored value
will do that is read as the renamed term. A value that is no term has nothing to rename; all that is
asked is that it fails to be read in the same way.
-/

namespace GraphQuery.Plan

variable {σ : String → String}

/-! ## The relation -/

mutual

/-- The second term is the first with every name replaced. -/
inductive Term.Renames (σ : String → String) : Term → Term → Prop
  | param (name : String) : Term.Renames σ (.param name) (.param (σ name))
  | ref (name : String) : Term.Renames σ (.ref name) (.ref (σ name))
  | property (target key : String) :
    Term.Renames σ (.property target key) (.property (σ target) key)
  | literal (value : Json) : Term.Renames σ (.literal value) (.literal value)
  | list {items items' : List Term} (each : Term.RenamesAll σ items items') :
    Term.Renames σ (.list items) (.list items')
  | projection (target : String) (fields : List String) {entries entries' : List (String × Json)}
    (stored : Term.RenamesStored σ entries entries') :
    Term.Renames σ (.projection target fields entries) (.projection (σ target) fields entries')
  | coalesce (target key : String) {fallback fallback' : Term}
    (renamed : Term.Renames σ fallback fallback') :
    Term.Renames σ (.coalesce target key fallback) (.coalesce (σ target) key fallback')
  | distance (point : String) {source source' : Term} (renamed : Term.Renames σ source source') :
    Term.Renames σ (.distance source point) (.distance source' (σ point))
  | call (function : String) {argument argument' : Term}
    (renamed : Term.Renames σ argument argument') :
    Term.Renames σ (.call function argument) (.call function argument')

/-- Lists of terms, renamed one by one. -/
inductive Term.RenamesAll (σ : String → String) : List Term → List Term → Prop
  | nil : Term.RenamesAll σ [] []
  | cons {item item' : Term} {rest rest' : List Term} (first : Term.Renames σ item item')
    (others : Term.RenamesAll σ rest rest') :
    Term.RenamesAll σ (item :: rest) (item' :: rest')

/-- Stored values under the same keys. -/
inductive Term.RenamesStored (σ : String → String) :
    List (String × Json) → List (String × Json) → Prop
  | nil : Term.RenamesStored σ [] []
  | read (key : String) {value value' : Json} {t t' : Term} {rest rest' : List (String × Json)}
    (as_term : Term.ofJson value = .ok t) (as_term' : Term.ofJson value' = .ok t')
    (first : Term.Renames σ t t') (others : Term.RenamesStored σ rest rest') :
    Term.RenamesStored σ ((key, value) :: rest) ((key, value') :: rest')
  | unread (key : String) {value value' : Json} {why : Unread} {rest rest' : List (String × Json)}
    (no_term : Term.ofJson value = .error why) (no_term' : Term.ofJson value' = .error why)
    (others : Term.RenamesStored σ rest rest') :
    Term.RenamesStored σ ((key, value) :: rest) ((key, value') :: rest')

end

/-- The node of a pattern under its new name. -/
def NodeUse.rename (σ : String → String) (n : NodeUse) : NodeUse :=
  ⟨σ n.node, n.labels⟩

/-- A step of a pattern with the new names of its relationship and node. -/
def HopUse.rename (σ : String → String) (h : HopUse) : HopUse :=
  ⟨σ h.relationship, h.direction, h.named, h.target.rename σ⟩

/-- A pattern with the new names of its relationships and nodes. -/
def PatternUse.rename (σ : String → String) (p : PatternUse) : PatternUse :=
  ⟨p.start.rename σ, p.hops.map (HopUse.rename σ)⟩

/-- A carried expression with the new name of its variable. -/
structure WithUse.Renames (σ : String → String) (w w' : WithUse) : Prop where
  expr : Term.Renames σ w.expr w'.expr
  aliasName : w'.aliasName = w.aliasName.map σ

/-- A renamed sort key in the same order. -/
structure OrderUse.Renames (σ : String → String) (o o' : OrderUse) : Prop where
  expr : Term.Renames σ o.expr o'.expr
  direction : o'.direction = o.direction

/-- An output name given as text is no name of the plan. -/
structure ReturnUse.Renames (σ : String → String) (r r' : ReturnUse) : Prop where
  entity : r'.entity = r.entity.map σ
  fields : r'.fields = r.fields
  expr : Option.Rel (Term.Renames σ) r.expr r'.expr
  aliasName : r'.aliasName = r.aliasName
  aliasVariable : r'.aliasVariable = r.aliasVariable.map σ

mutual

/-- The second condition is the first with every name replaced. -/
inductive Condition.Renames (σ : String → String) : Condition → Condition → Prop
  | compare (operator : Comparison) {lhs lhs' rhs rhs' : Term} (left : Term.Renames σ lhs lhs')
    (right : Term.Renames σ rhs rhs') :
    Condition.Renames σ (.compare operator lhs rhs) (.compare operator lhs' rhs')
  | isNull {expr expr' : Term} (renamed : Term.Renames σ expr expr') :
    Condition.Renames σ (.isNull expr) (.isNull expr')
  | isNotNull {expr expr' : Term} (renamed : Term.Renames σ expr expr') :
    Condition.Renames σ (.isNotNull expr) (.isNotNull expr')
  | group (junction : Junction) {operands operands' : List Condition}
    (each : Condition.RenamesAll σ operands operands') :
    Condition.Renames σ (.group junction operands) (.group junction operands')
  | not {operand operand' : Condition} (renamed : Condition.Renames σ operand operand') :
    Condition.Renames σ (.not operand) (.not operand')
  | existsIn {statements statements' : List Statement}
    (each : Statement.RenamesAll σ statements statements') :
    Condition.Renames σ (.existsIn statements) (.existsIn statements')

/-- Operands, renamed one by one. -/
inductive Condition.RenamesAll (σ : String → String) : List Condition → List Condition → Prop
  | nil : Condition.RenamesAll σ [] []
  | cons {operand operand' : Condition} {rest rest' : List Condition}
    (first : Condition.Renames σ operand operand') (others : Condition.RenamesAll σ rest rest') :
    Condition.RenamesAll σ (operand :: rest) (operand' :: rest')

/-- The second statement is the first with every name replaced. -/
inductive Statement.Renames (σ : String → String) : Statement → Statement → Prop
  | create (node : String) {properties properties' : List (String × Json)}
    (stored : Term.RenamesStored σ properties properties') :
    Statement.Renames σ (.create node properties) (.create (σ node) properties')
  | matching (pattern : PatternUse) (optional : Bool) :
    Statement.Renames σ (.matching pattern optional none)
      (.matching (pattern.rename σ) optional none)
  | matchingWhere (pattern : PatternUse) (optional : Bool) {condition condition' : Condition}
    (renamed : Condition.Renames σ condition condition') :
    Statement.Renames σ (.matching pattern optional (some condition))
      (.matching (pattern.rename σ) optional (some condition'))
  | call {statements statements' : List Statement}
    (each : Statement.RenamesAll σ statements statements') :
    Statement.Renames σ (.call statements) (.call statements')
  | withAll : Statement.Renames σ .withAll .withAll
  | withItems {items items' : List WithUse}
    (each : List.Forall₂ (WithUse.Renames σ) items items') :
    Statement.Renames σ (.withItems items) (.withItems items')
  | set (target : String) {properties properties' : List (String × Json)}
    (stored : Term.RenamesStored σ properties properties') :
    Statement.Renames σ (.set target properties) (.set (σ target) properties')
  | orderBy {items items' : List OrderUse}
    (each : List.Forall₂ (OrderUse.Renames σ) items items') :
    Statement.Renames σ (.orderBy items) (.orderBy items')
  | skip (param : String) : Statement.Renames σ (.skip param) (.skip (σ param))
  | limit (param : String) : Statement.Renames σ (.limit param) (.limit (σ param))
  | result {use use' : ReturnUse} (renamed : ReturnUse.Renames σ use use') :
    Statement.Renames σ (.result use) (.result use')

/-- Statements, renamed one by one. -/
inductive Statement.RenamesAll (σ : String → String) : List Statement → List Statement → Prop
  | nil : Statement.RenamesAll σ [] []
  | cons {statement statement' : Statement} {rest rest' : List Statement}
    (first : Statement.Renames σ statement statement')
    (others : Statement.RenamesAll σ rest rest') :
    Statement.RenamesAll σ (statement :: rest) (statement' :: rest')

end

/-- A renamed statement is a result when the old one was, and the last when the old one was. -/
theorem Statement.Renames.isResult {st st' : Statement} (h : Statement.Renames σ st st') :
    st'.isResult = st.isResult := by
  cases h <;> rfl

theorem Statement.RenamesAll.isEmpty {sts sts' : List Statement}
    (h : Statement.RenamesAll σ sts sts') : sts'.isEmpty = sts.isEmpty := by
  cases h <;> rfl

/-! ## Renaming nothing

What keeps every name is a renaming too, whatever the stored values are.
-/

mutual

theorem Term.Renames.refl (t : Term) : Term.Renames id t t := by
  match t with
  | .param name => exact .param name
  | .ref name => exact .ref name
  | .property target key => exact .property target key
  | .literal value => exact .literal value
  | .list items => exact .list (Term.RenamesAll.refl items)
  | .projection target fields entries =>
    exact .projection target fields (Term.RenamesStored.refl entries)
  | .coalesce target key fallback => exact .coalesce target key (Term.Renames.refl fallback)
  | .distance source point => exact .distance point (Term.Renames.refl source)
  | .call function argument => exact .call function (Term.Renames.refl argument)
termination_by 2 * t.weight
decreasing_by all_goals (simp only [Term.weight]; omega)

theorem Term.RenamesAll.refl (items : List Term) : Term.RenamesAll id items items := by
  match items with
  | [] => exact .nil
  | item :: rest => exact .cons (Term.Renames.refl item) (Term.RenamesAll.refl rest)
termination_by 2 * Term.weights items + 1
decreasing_by
  · simp only [Term.weights]; omega
  · have := item.weight_pos
    simp only [Term.weights]; omega

theorem Term.RenamesStored.refl (entries : List (String × Json)) :
    Term.RenamesStored id entries entries := by
  match entries with
  | [] => exact .nil
  | (key, value) :: rest =>
    match ht : Term.ofJson value with
    | .error why => exact .unread key ht ht (Term.RenamesStored.refl rest)
    | .ok t => exact .read key ht ht (Term.Renames.refl t) (Term.RenamesStored.refl rest)
termination_by 2 * Json.nodesOfMembers entries + 1
decreasing_by
  · have := value.nodes_pos
    simp only [Json.nodesOfMembers]; omega
  · have := Term.weight_ofJson ht
    simp only [Json.nodesOfMembers]; omega
  · have := value.nodes_pos
    simp only [Json.nodesOfMembers]; omega

end

theorem PatternUse.rename_id (p : PatternUse) : p.rename id = p := by
  have hhop : HopUse.rename id = id := rfl
  rw [rename, hhop, List.map_id]
  rfl

theorem WithUse.Renames.refl (w : WithUse) : WithUse.Renames id w w :=
  ⟨.refl w.expr, congrFun Option.map_id.symm _⟩

theorem OrderUse.Renames.refl (o : OrderUse) : OrderUse.Renames id o o :=
  ⟨.refl o.expr, rfl⟩

theorem ReturnUse.Renames.refl (r : ReturnUse) : ReturnUse.Renames id r r := by
  have hexpr : Option.Rel (Term.Renames id) r.expr r.expr := by
    cases r.expr with
    | none => exact .none
    | some t => exact .some (.refl t)
  exact ⟨congrFun Option.map_id.symm _, rfl, hexpr, rfl, congrFun Option.map_id.symm _⟩

mutual

theorem Condition.Renames.refl (c : Condition) : Condition.Renames id c c := by
  match c with
  | .compare operator lhs rhs => exact .compare operator (.refl lhs) (.refl rhs)
  | .isNull expr => exact .isNull (.refl expr)
  | .isNotNull expr => exact .isNotNull (.refl expr)
  | .group junction operands => exact .group junction (Condition.RenamesAll.refl operands)
  | .not operand => exact .not (Condition.Renames.refl operand)
  | .existsIn statements => exact .existsIn (Statement.RenamesAll.refl statements)

theorem Condition.RenamesAll.refl (operands : List Condition) :
    Condition.RenamesAll id operands operands := by
  match operands with
  | [] => exact .nil
  | operand :: rest => exact .cons (Condition.Renames.refl operand) (Condition.RenamesAll.refl rest)

theorem Statement.Renames.refl (st : Statement) : Statement.Renames id st st := by
  match st with
  | .create node properties => exact .create node (.refl properties)
  | .matching pattern optional none =>
    have h : Statement.Renames id (.matching pattern optional none)
        (.matching (pattern.rename id) optional none) := .matching pattern optional
    rwa [PatternUse.rename_id] at h
  | .matching pattern optional (some condition) =>
    have h := Statement.Renames.matchingWhere pattern optional (Condition.Renames.refl condition)
    rwa [PatternUse.rename_id] at h
  | .call statements => exact .call (Statement.RenamesAll.refl statements)
  | .withAll => exact .withAll
  | .withItems items => exact .withItems (List.forall₂_same.mpr fun w _ => .refl w)
  | .set target properties => exact .set target (.refl properties)
  | .orderBy items => exact .orderBy (List.forall₂_same.mpr fun o _ => .refl o)
  | .skip param => exact .skip param
  | .limit param => exact .limit param
  | .result use => exact .result (.refl use)

theorem Statement.RenamesAll.refl (statements : List Statement) :
    Statement.RenamesAll id statements statements := by
  match statements with
  | [] => exact .nil
  | statement :: rest =>
    exact .cons (Statement.Renames.refl statement) (Statement.RenamesAll.refl rest)

end

end GraphQuery.Plan
