import GraphQuery.Proofs.Relabel
import GraphQuery.Proofs.Renames

/-!
# Compiling renamed plans

Two scopes match when what a name stands for in the one, the renamed name stands for in the other,
relabelled. Compiling renamed statements in a matching scope then gives the relabelled clauses: what
compiles here compiles there.

Failures do not carry over like this. A message may hold the name that is missing, and a name that
is missing here may be there under its new name. They do carry over between strictly matching
scopes, where nothing is renamed and the same names are missing. One induction over the syntax
proves both.
-/

namespace GraphQuery.Plan

variable {α β γ δ : Type} {strict : Prop}

/-- The second compilation gives what the first gives, changed by `g`; and strictly speaking also
fails when the first fails, for the same reason. -/
structure Carries (strict : Prop) (g : α → β) (m : Compile α) (m' : Compile β) : Prop where
  /-- What is compiled first is compiled, changed, in the second place too. -/
  ok : ∀ a, m = .ok a → m' = .ok (g a)
  /-- A fault names what is missing, so it is only the same where nothing is renamed. -/
  error : strict → ∀ why, m = .error why → m' = .error why

namespace Carries

variable {g : α → β} {h : γ → δ} {m : Compile α} {m' : Compile β}

theorem pure {a : α} {b : β} (hab : g a = b) : Carries strict g (.ok a) (.ok b) := by
  constructor
  · intro a' ha
    rw [← Except.ok.inj ha, hab]
  · intro _ why hwhy
    cases hwhy

/-- After a failure only the strict part is left to show. -/
theorem of_error {why : Fault} (h : strict → m' = .error why) :
    Carries strict g (.error why) m' := by
  constructor
  · intro a ha
    cases ha
  · intro hs why' hwhy
    rw [h hs, Except.error.inj hwhy]

theorem fail (why : Fault) : Carries strict g (.error why) (.error why) :=
  of_error fun _ => rfl

/-- One step after another. -/
theorem bind {k : α → Compile γ} {k' : β → Compile δ} (hm : Carries strict g m m')
    (hk : ∀ a, Carries strict h (k a) (k' (g a))) :
    Carries strict h (m >>= k) (m' >>= k') := by
  cases hr : m with
  | error why =>
    refine of_error fun hs => ?_
    rw [hm.error hs why hr]
    rfl
  | ok a =>
    rw [hm.ok a hr]
    exact hk a

/-- A last step that only puts things together. -/
theorem map {k : α → γ} {k' : β → δ} (hm : Carries strict g m m')
    (hk : ∀ a, h (k a) = k' (g a)) :
    Carries strict h (m >>= fun a => Pure.pure (k a)) (m' >>= fun b => Pure.pure (k' b)) :=
  hm.bind fun a => pure (hk a)

/-- What holds of each item holds of all items together. -/
theorem mapM {α' : Type} {R : α → α' → Prop} {f : α → Compile γ} {f' : α' → Compile δ}
    (hf : ∀ a a', R a a' → Carries strict h (f a) (f' a')) {items : List α} {items' : List α'}
    (hitems : List.Forall₂ R items items') :
    Carries strict (List.map h) (items.mapM f) (items'.mapM f') := by
  induction hitems with
  | nil => exact pure rfl
  | cons hfirst _ ih =>
    rw [List.mapM_cons, List.mapM_cons]
    exact (hf _ _ hfirst).bind fun c => ih.map fun _ => rfl

end Carries

/-! ## Matching scopes -/

/-- An entity after its reference got a new identity. It stays the kind of entity it was. -/
def Entity.relabel (f : Relabelling) : Entity → Entity
  | .node n => .node (n.relabel f)
  | .relationship r => .relationship (r.relabel f)
  | .var v => .var (v.relabel f)

theorem Entity.reference_relabel (f : Relabelling) (e : Entity) :
    (e.relabel f).reference = e.reference.relabel f := by
  cases e <;> rfl

/-- What a name stands for in the first scope, the renamed one stands for in the second. -/
structure Scope.Matches (strict : Prop) (σ : String → String) (f : Relabelling) (s s' : Scope) :
    Prop where
  /-- An entity is found under the new name, relabelled. -/
  entity : ∀ name e, s.entity? name = some e → s'.entity? (σ name) = some (e.relabel f)
  /-- And so is a parameter. -/
  param : ∀ name p, s.param name = .ok p → s'.param (σ name) = .ok (p.relabel f)
  /-- Strictly speaking nothing is renamed, and what is missing is missing in both. -/
  missing : strict → (∀ name, σ name = name)
    ∧ (∀ name, s.entity? name = none → s'.entity? name = none)
    ∧ ∀ name why, s.param name = .error why → s'.param name = .error why

variable {σ : String → String} {f : Relabelling} {s s' : Scope}

namespace Scope.Matches

variable (h : Scope.Matches strict σ f s s') (name : String)

include h

/-- What the first scope has, the second has too; what it has not is, strictly speaking, not there
either. -/
theorem entity_cases :
    (∃ e, s.entity? name = some e ∧ s'.entity? (σ name) = some (e.relabel f))
    ∨ (s.entity? name = none ∧ (strict → σ name = name ∧ s'.entity? name = none)) := by
  cases he : s.entity? name with
  | some e => exact Or.inl ⟨e, rfl, h.entity name e he⟩
  | none =>
    refine Or.inr ⟨rfl, fun hs => ?_⟩
    obtain ⟨hσ, hmissing, _⟩ := h.missing hs
    exact ⟨hσ name, hmissing name he⟩

theorem node : Carries strict (NodeRef.relabel f) (s.node name) (s'.node (σ name)) := by
  unfold Scope.node
  rcases h.entity_cases name with ⟨e, he, he'⟩ | ⟨he, hnone⟩
  · rw [he, he']
    cases e with
    | node n => exact .pure rfl
    | _ => exact .of_error fun hs => by rw [(h.missing hs).1 name]; rfl
  · rw [he]
    exact .of_error fun hs => by rw [(hnone hs).1, (hnone hs).2]

theorem relationship : Carries strict (RelationshipRef.relabel f) (s.relationship name)
    (s'.relationship (σ name)) := by
  unfold Scope.relationship
  rcases h.entity_cases name with ⟨e, he, he'⟩ | ⟨he, hnone⟩
  · rw [he, he']
    cases e with
    | relationship r => exact .pure rfl
    | _ => exact .of_error fun hs => by rw [(h.missing hs).1 name]; rfl
  · rw [he]
    exact .of_error fun hs => by rw [(hnone hs).1, (hnone hs).2]

theorem var : Carries strict (VariableRef.relabel f) (s.var name) (s'.var (σ name)) := by
  unfold Scope.var
  rcases h.entity_cases name with ⟨e, he, he'⟩ | ⟨he, hnone⟩
  · rw [he, he']
    cases e with
    | var v => exact .pure rfl
    | _ => exact .of_error fun hs => by rw [(h.missing hs).1 name]; rfl
  · rw [he]
    exact .of_error fun hs => by rw [(hnone hs).1, (hnone hs).2]

theorem reference : Carries strict (Reference.relabel f) (s.reference name)
    (s'.reference (σ name)) := by
  unfold Scope.reference
  rcases h.entity_cases name with ⟨e, he, he'⟩ | ⟨he, hnone⟩
  · rw [he, he']
    exact .pure (e.reference_relabel f).symm
  · rw [he]
    exact .of_error fun hs => by rw [(hnone hs).1, (hnone hs).2]

theorem param_carries : Carries strict (Param.relabel f) (s.param name) (s'.param (σ name)) := by
  refine ⟨fun p hp => h.param name p hp, fun hs why hwhy => ?_⟩
  obtain ⟨hσ, _, hmissing⟩ := h.missing hs
  rw [hσ name]
  exact hmissing name why hwhy

end Scope.Matches

/-! ## Terms -/

theorem applyNamed_carries (function : String) (argument : Expr) :
    Carries strict (Expr.relabel f) (applyNamed function argument)
      (applyNamed function (argument.relabel f)) := by
  unfold applyNamed
  cases UnaryFunction.ofName? function with
  | some g => exact .pure rfl
  | none => exact .fail _

theorem distanceFrom_carries (source : Expr) (point : Param) :
    Carries strict (Expr.relabel f) (distanceFrom source point)
      (distanceFrom (source.relabel f) (point.relabel f)) := by
  cases source with
  | call function => exact .pure rfl
  | _ => exact .fail _

theorem compileStored_of_ok {key : String} {value : Json} {t : Term}
    {rest : List (String × Json)} (ht : Term.ofJson value = .ok t) :
    compileStored s ((key, value) :: rest) = (do
      let first ← compileTerm s t
      let others ← compileStored s rest
      return (key, first) :: others) := by
  rw [compileStored]
  split
  · exact absurd (ht.symm.trans ‹_›) (by rintro ⟨⟩)
  · rw [Except.ok.inj (ht.symm.trans ‹_›)]

theorem compileStored_of_error {key : String} {value : Json} {why : Unread}
    {rest : List (String × Json)} (hwhy : Term.ofJson value = .error why) :
    compileStored s ((key, value) :: rest) = .error (.storedValue key why) := by
  rw [compileStored]
  split
  · rw [Except.error.inj (hwhy.symm.trans ‹_›)]
  · exact absurd (hwhy.symm.trans ‹_›) (by rintro ⟨⟩)

/-- The fields of a projection, relabelled one by one. -/
theorem fields_relabel (fields : List String) (entries : List (String × Expr)) :
    Expr.relabelFields f (fields.map .shorthand
        ++ entries.map fun entry => ProjectionField.entry entry.1 entry.2)
      = fields.map .shorthand
        ++ (Expr.relabelEntries f entries).map fun entry => .entry entry.1 entry.2 := by
  induction fields with
  | nil =>
    induction entries with
    | nil => rfl
    | cons entry rest ih => exact congrArg (_ :: ·) ih
  | cons field rest ih => exact congrArg (_ :: ·) ih

/-- A renamed term is a property when the old one was. -/
theorem Term.Renames.not_property {t t' : Term} (h : Term.Renames σ t t')
    (ht : ∀ target key, t ≠ .property target key) : ∀ target key, t' ≠ .property target key := by
  cases h with
  | property target key => exact absurd rfl (ht target key)
  | _ =>
    intro target key heq
    cases heq

mutual

theorem compileTerm_carries (hs : Scope.Matches strict σ f s s')
    {t t' : Term} (h : Term.Renames σ t t') :
    Carries strict (Expr.relabel f) (compileTerm s t) (compileTerm s' t') := by
  cases h with
  | param name =>
    rw [compileTerm, compileTerm]
    exact (hs.param_carries name).map fun _ => rfl
  | ref name =>
    rw [compileTerm, compileTerm]
    exact (hs.reference name).map fun _ => rfl
  | property target key =>
    rw [compileTerm, compileTerm]
    exact (hs.reference target).map fun _ => rfl
  | literal value =>
    rw [compileTerm, compileTerm]
    have hliteral : Carries strict id (Plan.literal value) (Plan.literal value) :=
      ⟨fun _ h => h, fun _ _ h => h⟩
    exact hliteral.map fun _ => rfl
  | list each =>
    rw [compileTerm, compileTerm]
    exact (compileTerms_carries hs each).map fun _ => rfl
  | projection target fields stored =>
    rw [compileTerm, compileTerm]
    refine (compileStored_carries hs stored).bind fun entries =>
      (hs.reference target).map fun _ => ?_
    rw [Expr.relabel, fields_relabel]
  | coalesce target key renamed =>
    rw [compileTerm, compileTerm]
    exact (hs.reference target).bind fun _ => (compileTerm_carries hs renamed).map fun _ => rfl
  | @distance point source source' renamed =>
    have hsource := compileTerm_carries hs renamed
    -- a property is compiled by an equation of its own
    by_cases hproperty : ∃ target key, source = .property target key
    · obtain ⟨target, key, rfl⟩ := hproperty
      cases renamed with
      | property =>
        rw [compileTerm, compileTerm]
        exact (hs.param_carries point).bind fun _ => (hs.reference target).map fun _ => rfl
    · have hproperty : ∀ target key, source ≠ .property target key := fun target key heq =>
        hproperty ⟨target, key, heq⟩
      rw [compileTerm.eq_9 s source point hproperty,
        compileTerm.eq_9 s' source' (σ point) (renamed.not_property hproperty)]
      exact (hs.param_carries point).bind fun p => hsource.bind fun e => distanceFrom_carries e p
  | call function renamed =>
    rw [compileTerm, compileTerm]
    exact (compileTerm_carries hs renamed).bind fun a => applyNamed_carries function a
termination_by 2 * t.weight
decreasing_by all_goals (simp only [Term.weight]; omega)

theorem compileTerms_carries (hs : Scope.Matches strict σ f s s')
    {items items' : List Term} (h : Term.RenamesAll σ items items') :
    Carries strict (Expr.relabelItems f) (compileTerms s items) (compileTerms s' items') := by
  cases h with
  | nil =>
    rw [compileTerms, compileTerms]
    exact .pure rfl
  | @cons item _ rest _ first others =>
    rw [compileTerms, compileTerms]
    exact (compileTerm_carries hs first).bind fun _ =>
      (compileTerms_carries hs others).map fun _ => rfl
termination_by 2 * Term.weights items + 1
decreasing_by
  · simp only [Term.weights]; omega
  · have := item.weight_pos
    simp only [Term.weights]; omega

theorem compileStored_carries (hs : Scope.Matches strict σ f s s')
    {entries entries' : List (String × Json)}
    (h : Term.RenamesStored σ entries entries') :
    Carries strict (Expr.relabelEntries f) (compileStored s entries)
      (compileStored s' entries') := by
  cases h with
  | nil =>
    rw [compileStored, compileStored]
    exact .pure rfl
  | @read key value _ t _ rest _ as_term as_term' first others =>
    rw [compileStored_of_ok as_term, compileStored_of_ok as_term']
    exact (compileTerm_carries hs first).bind fun _ =>
      (compileStored_carries hs others).map fun _ => rfl
  -- neither value is a term, and for the same reason
  | unread key no_term no_term' others =>
    rw [compileStored_of_error no_term, compileStored_of_error no_term']
    exact .fail _
termination_by 2 * Json.nodesOfMembers entries + 1
decreasing_by
  · have := Term.weight_ofJson as_term
    simp only [Json.nodesOfMembers]; omega
  · have := value.nodes_pos
    simp only [Json.nodesOfMembers]; omega

end

/-! ## Patterns and results -/

theorem compileNode_carries (hs : Scope.Matches strict σ f s s') (n : NodeUse) :
    Carries strict (NodePattern.relabel f) (compileNode s n) (compileNode s' (n.rename σ)) :=
  (hs.node n.node).map fun _ => rfl

theorem compileHop_carries (hs : Scope.Matches strict σ f s s') (h : HopUse) :
    Carries strict (Hop.relabel f) (compileHop s h) (compileHop s' (h.rename σ)) :=
  (hs.relationship h.relationship).bind fun _ =>
    (compileNode_carries hs h.target).map fun _ => rfl

theorem compilePattern_carries (hs : Scope.Matches strict σ f s s') (p : PatternUse) :
    Carries strict (Pattern.relabel f) (compilePattern s p) (compilePattern s' (p.rename σ)) := by
  have hhops : Carries strict (List.map (Hop.relabel f)) (p.hops.mapM (compileHop s))
      ((p.hops.map (HopUse.rename σ)).mapM (compileHop s')) := by
    have heach : List.Forall₂ (fun h h' => h' = HopUse.rename σ h) p.hops
        (p.hops.map (HopUse.rename σ)) :=
      List.forall₂_map_right_iff.mpr (List.forall₂_same.mpr fun _ _ => rfl)
    refine .mapM (fun h h' heq => ?_) heach
    rw [heq]
    exact compileHop_carries hs h
  exact (compileNode_carries hs p.start).bind fun _ => hhops.map fun _ => rfl

theorem compileWith_carries (hs : Scope.Matches strict σ f s s')
    (w w' : WithUse) (h : WithUse.Renames σ w w') :
    Carries strict (WithItem.relabel f) (compileWith s w) (compileWith s' w') := by
  obtain ⟨expr, aliasName⟩ := w
  obtain ⟨expr', aliasName'⟩ := w'
  obtain ⟨hexpr, rfl⟩ := h
  refine (compileTerm_carries hs hexpr).bind fun e => ?_
  cases aliasName with
  | none => exact .pure rfl
  | some name => exact (hs.var name).map fun _ => rfl

theorem compileOrder_carries (hs : Scope.Matches strict σ f s s')
    (o o' : OrderUse) (h : OrderUse.Renames σ o o') :
    Carries strict (OrderItem.relabel f) (compileOrder s o) (compileOrder s' o') := by
  obtain ⟨expr, direction⟩ := o
  obtain ⟨expr', direction'⟩ := o'
  obtain ⟨hexpr, rfl⟩ := h
  exact (compileTerm_carries hs hexpr).map fun _ => rfl

theorem compileTarget_carries (hs : Scope.Matches strict σ f s s')
    {r r' : ReturnUse} (h : ReturnUse.Renames σ r r') :
    Carries strict (ReturnTarget.relabel f) (compileTarget s r) (compileTarget s' r') := by
  obtain ⟨entity, fields, expr, _, _⟩ := r
  obtain ⟨entity', fields', expr', _, _⟩ := r'
  obtain ⟨hentity, hfields, hexpr, -, -⟩ := h
  dsimp only at hentity hfields hexpr
  subst hentity hfields
  -- the new names do not change the shape of a result, nor whether it is refused
  cases hexpr with
  | none =>
    cases entity with
    | some name => exact (hs.reference name).map fun _ => rfl
    | none =>
      cases fields' with
      | nil => exact .pure rfl
      | cons _ _ => exact .fail _
  | some hexpr =>
    cases entity with
    | some name => exact .fail _
    | none =>
      cases fields' with
      | nil => exact (compileTerm_carries hs hexpr).map fun _ => rfl
      | cons _ _ => exact .fail _

theorem compileAlias_carries (hs : Scope.Matches strict σ f s s')
    {r r' : ReturnUse} (h : ReturnUse.Renames σ r r') :
    Carries strict (Option.map (ReturnAlias.relabel f)) (compileAlias s r)
      (compileAlias s' r') := by
  obtain ⟨_, _, _, aliasName, aliasVariable⟩ := r
  obtain ⟨_, _, _, aliasName', aliasVariable'⟩ := r'
  obtain ⟨-, -, -, hname, hvariable⟩ := h
  dsimp only at hname hvariable
  subst hname hvariable
  cases aliasName' with
  | some text =>
    cases aliasVariable with
    | some name => exact .fail _
    | none => exact .pure rfl
  | none =>
    cases aliasVariable with
    | some name => exact (hs.var name).map fun _ => rfl
    | none => exact .pure rfl

theorem compileResult_carries (hs : Scope.Matches strict σ f s s')
    {r r' : ReturnUse} (h : ReturnUse.Renames σ r r') :
    Carries strict (Result.relabel f) (compileResult s r) (compileResult s' r') :=
  (compileTarget_carries hs h).bind fun _ => (compileAlias_carries hs h).map fun _ => rfl

/-! ## Conditions and statements -/

mutual

theorem compileCondition_carries (hs : Scope.Matches strict σ f s s')
    {c c' : Condition} (h : Condition.Renames σ c c') :
    Carries strict (Predicate.relabel f) (compileCondition s c) (compileCondition s' c') := by
  cases h with
  | compare operator left right =>
    exact (compileTerm_carries hs left).bind fun _ =>
      (compileTerm_carries hs right).map fun _ => rfl
  | isNull renamed => exact (compileTerm_carries hs renamed).map fun _ => rfl
  | isNotNull renamed => exact (compileTerm_carries hs renamed).map fun _ => rfl
  | group junction each => exact (compileConditions_carries hs each).map fun _ => rfl
  | not renamed => exact (compileCondition_carries hs renamed).map fun _ => rfl
  | existsIn each => exact (compileStatements_carries hs 0 each).map fun _ => rfl

theorem compileConditions_carries (hs : Scope.Matches strict σ f s s')
    {operands operands' : List Condition}
    (h : Condition.RenamesAll σ operands operands') :
    Carries strict (Predicate.relabelOperands f) (compileConditions s operands)
      (compileConditions s' operands') := by
  cases h with
  | nil => exact .pure rfl
  | cons first others =>
    exact (compileCondition_carries hs first).bind fun _ =>
      (compileConditions_carries hs others).map fun _ => rfl

theorem compileStatement_carries (hs : Scope.Matches strict σ f s s')
    {st st' : Statement} (h : Statement.Renames σ st st') :
    Carries strict (Clause.relabel f) (compileStatement s st) (compileStatement s' st') := by
  cases h with
  | create node stored =>
    exact (hs.node node).bind fun _ => (compileStored_carries hs stored).map fun _ => rfl
  | matching pattern optional => exact (compilePattern_carries hs pattern).map fun _ => rfl
  | matchingWhere pattern optional renamed =>
    exact (compilePattern_carries hs pattern).bind fun _ =>
      (compileCondition_carries hs renamed).map fun _ => rfl
  | call each => exact (compileStatements_carries hs 0 each).map fun _ => rfl
  | withAll => exact .pure rfl
  | withItems each => exact (Carries.mapM (compileWith_carries hs) each).map fun _ => rfl
  | set target stored =>
    exact (hs.reference target).bind fun _ => (compileStored_carries hs stored).map fun _ => rfl
  | orderBy each => exact (Carries.mapM (compileOrder_carries hs) each).map fun _ => rfl
  | skip param => exact (hs.param_carries param).map fun _ => rfl
  | limit param => exact (hs.param_carries param).map fun _ => rfl
  | result renamed => exact (compileResult_carries hs renamed).map fun _ => rfl

/-- **Renamed statements compile to relabelled clauses.** -/
theorem compileStatements_carries (hs : Scope.Matches strict σ f s s')
    (index : Nat) {statements statements' : List Statement}
    (h : Statement.RenamesAll σ statements statements') :
    Carries strict (Clause.relabelBody f) (compileStatements s index statements)
      (compileStatements s' index statements') := by
  cases h with
  | nil => exact .pure rfl
  | cons first others =>
    rw [compileStatements, compileStatements, first.isResult, others.isEmpty]
    split
    · exact .fail _
    · exact (compileStatement_carries hs first).bind fun _ =>
        (compileStatements_carries hs (index + 1) others).map fun _ => rfl

end

end GraphQuery.Plan
