import GraphQuery.Proofs.Pieces

/-!
# Rendering is its visits and its pieces

Rendering threads a naming through the tree and writes the text as it goes. Two things that depend
on the tree alone say all about it: its visits say what becomes of the naming, and its pieces say
what is written.

`Follows m vs f` is the statement about one step. When `m` succeeds, the naming it leaves is the one
after the visits `vs`, all of them in the arena of the build, and the value is `f names` for every
`names` that calls the visited ones as they are called in the end. Names stay, so it makes no
difference that most of the text was written before the last name was given. When `m` fails, the
naming is the one after the first few of the visits, and whatever was opened is closed again.

Every rendering function follows its visits and its pieces. The proofs go by the tree, one case for
each way to write something.
-/

namespace GraphQuery

/-- The visited ones are called what the naming calls them. -/
def Naming.Agrees (n : Naming) (names : Names) (vs : List Visit) : Prop :=
  ∀ v ∈ vs, ∀ name, n.nameAt v.id.index = some name → names v = name

namespace Render

variable {α β : Type}

theorem run_bind (m : Render α) (k : α → Render β) (n : Naming) :
    (m >>= k).run n = match m.run n with
      | (.ok a, n') => (k a).run n'
      | (.error fault, n') => (.error fault, n') := by
  show ExceptT.run (m >>= k) n = _
  rw [ExceptT.run_bind]
  simp only [bind, StateT.bind]
  rcases m.run n with ⟨_ | _, _⟩ <;> rfl

theorem fail_bind (why : Defect) (k : α → Render β) :
    (Render.fail why >>= k) = Render.fail why := rfl

theorem run_subquery_of_full {m : Render α} {n : Naming}
    (hd : n.depth + 1 > n.settings.maxDepth) :
    (Render.subquery m).run n
      = (.error (.defect (.subqueryTooDeep (n.depth + 1) n.settings.maxDepth)), n) := by
  simp only [Render.subquery, ExceptT.run, ExceptT.mk, Naming.enter, hd, if_true]

theorem run_subquery {m : Render α} {n n' : Naming} {outcome : Except Fault α}
    (hd : ¬n.depth + 1 > n.settings.maxDepth)
    (hm : m.run (n.withDepth (n.depth + 1)) = (outcome, n')) :
    (Render.subquery m).run n = (outcome, n'.leave) := by
  simp only [Render.subquery, ExceptT.run, ExceptT.mk, Naming.enter, hd, if_false]
  exact congrArg (fun r : Except Fault α × Naming => (r.1, r.2.leave)) hm

/-- Visits made one level deeper are visits made here once the subquery is closed. -/
theorem leave_visitAll (n : Naming) (vs : List Visit) :
    ((n.withDepth (n.depth + 1)).visitAll vs).leave = n.visitAll vs := by
  rw [Naming.visitAll_withDepth, ← Naming.visitAll_depth n vs]
  rfl

/-- A step makes these visits and gives this value. -/
structure Follows (m : Render α) (vs : List Visit) (f : Names → α) : Prop where
  /-- A success makes all the visits. -/
  ok : ∀ {n n' : Naming} {a : α}, m.run n = (.ok a, n') →
    n' = n.visitAll vs ∧ (∀ v ∈ vs, v.id.arena = n.arena) ∧
      ∀ names, n'.Agrees names vs → a = f names
  /-- A failure makes the first few. -/
  error : ∀ {n n' : Naming} {fault : Fault}, m.run n = (.error fault, n') →
    ∃ ws, ws <+: vs ∧ n' = n.visitAll ws

namespace Follows

variable {m : Render α} {vs ws : List Visit} {f : Names → α}

theorem congr {f' : Names → α} (h : Follows m vs f) (hf : ∀ names, f names = f' names) :
    Follows m vs f' :=
  (funext hf : f = f') ▸ h

theorem of_visits (h : Follows m vs f) (hv : vs = ws) : Follows m ws f :=
  hv ▸ h

theorem pure (a : α) : Follows (Pure.pure a) [] fun _ => a := by
  constructor
  · intro n n' b h
    obtain ⟨hb, rfl⟩ := Prod.mk.inj h
    exact ⟨rfl, by simp, fun _ _ => (Except.ok.inj hb).symm⟩
  · intro n n' fault h
    exact absurd (Prod.mk.inj h).1 (by rintro ⟨⟩)

/-- What always fails can be said to follow anything. -/
theorem fail (why : Defect) (vs : List Visit) (f : Names → α) :
    Follows (Render.fail why) vs f := by
  constructor
  · intro n n' a h
    exact absurd (Prod.mk.inj h).1 (by rintro ⟨⟩)
  · intro n n' fault h
    obtain ⟨_, rfl⟩ := Prod.mk.inj h
    exact ⟨[], List.nil_prefix, rfl⟩

/-- One step after another makes the visits of both. -/
theorem bind {k : α → Render β} {g : α → Names → β} (hm : Follows m vs f)
    (hk : ∀ a, Follows (k a) ws (g a)) :
    Follows (m >>= k) (vs ++ ws) fun names => g (f names) names := by
  constructor
  · intro n n' b h
    rw [run_bind] at h
    rcases hr : m.run n with ⟨_ | a, n₁⟩ <;> rw [hr] at h
    · exact absurd (Prod.mk.inj h).1 (by rintro ⟨⟩)
    · obtain ⟨h₁, ha, hf⟩ := hm.ok hr
      obtain ⟨h₂, hb, hg⟩ := (hk a).ok h
      refine ⟨by rw [h₂, h₁, Naming.visitAll_append], ?_, ?_⟩
      · intro v hv
        rcases List.mem_append.mp hv with hv | hv
        · exact ha v hv
        · rw [hb v hv, h₁, Naming.visitAll_arena]
      · -- the second step renames nothing, so what agrees in the end agreed in between
        intro names hn
        have hmid : n₁.Agrees names vs := fun v hv name hname =>
          hn v (List.mem_append_left _ hv) name (h₂ ▸ Naming.nameAt_visitAll hname)
        rw [hg names fun v hv => hn v (List.mem_append_right _ hv), hf names hmid]
  · intro n n' fault h
    rw [run_bind] at h
    rcases hr : m.run n with ⟨_ | a, n₁⟩ <;> rw [hr] at h
    · obtain ⟨_, rfl⟩ := Prod.mk.inj h
      obtain ⟨us, hus, h₁⟩ := hm.error hr
      exact ⟨us, hus.trans (List.prefix_append _ _), h₁⟩
    · obtain ⟨h₁, _, _⟩ := hm.ok hr
      obtain ⟨us, hus, h₂⟩ := (hk a).error h
      exact ⟨vs ++ us, (List.prefix_append_right_inj vs).mpr hus, by
        rw [h₂, h₁, Naming.visitAll_append]⟩

/-- A last step that only puts the text together. -/
theorem map {k : α → β} (hm : Follows m vs f) :
    Follows (m >>= fun a => Pure.pure (k a)) vs fun names => k (f names) := by
  have h := hm.bind (g := fun a _ => k a) fun a => pure (k a)
  rwa [List.append_nil] at h

/-- A test before the step, which may refuse it. -/
theorem guard {c : Prop} [Decidable c] {why : Defect} {k : PUnit → Render α}
    (h : ¬c → Follows (k ⟨⟩) vs f) :
    Follows (if c then Render.fail why >>= k else k ⟨⟩) vs f := by
  split
  · rw [fail_bind]
    exact fail why vs f
  · exact h ‹_›

/-- Looking a name up is the one step that visits anything. -/
theorem lookUp (v : Visit) :
    Follows (ExceptT.mk fun n => n.lookUp v : Render String) [v] fun names => names v := by
  constructor
  · intro n n' a h
    obtain ⟨ha, hv, hname⟩ := Naming.nameAt_of_lookUp h
    refine ⟨hv, fun w hw => by rw [List.mem_singleton.mp hw, ha], fun names hn => ?_⟩
    exact (hn v (List.mem_singleton_self v) a hname).symm
  · intro n n' fault h
    exact ⟨[v], List.prefix_rfl, (congrArg Prod.snd h).symm⟩

theorem aliasOf (r : Reference) : Follows (Render.aliasOf r) [.ref r] fun names => names (.ref r) :=
  lookUp (.ref r)

theorem paramNameOf (p : Param) :
    Follows (Render.paramNameOf p) [.param p] fun names => names (.param p) :=
  lookUp (.param p)

/-- A subquery makes the visits of its body and leaves the depth as it was. -/
theorem subquery (h : Follows m vs f) : Follows (Render.subquery m) vs f := by
  constructor
  · intro n n' a hr
    by_cases hd : n.depth + 1 > n.settings.maxDepth
    · rw [run_subquery_of_full hd] at hr
      exact absurd (Prod.mk.inj hr).1 (by rintro ⟨⟩)
    · rcases hm : m.run (n.withDepth (n.depth + 1)) with ⟨outcome, n₁⟩
      obtain ⟨rfl, rfl⟩ := Prod.mk.inj ((run_subquery hd hm).symm.trans hr)
      obtain ⟨hn, harena, hf⟩ := h.ok hm
      exact ⟨by rw [hn, leave_visitAll], harena, hf⟩
  · intro n n' fault hr
    by_cases hd : n.depth + 1 > n.settings.maxDepth
    · rw [run_subquery_of_full hd] at hr
      exact ⟨[], List.nil_prefix, (Prod.mk.inj hr).2.symm⟩
    · rcases hm : m.run (n.withDepth (n.depth + 1)) with ⟨outcome, n₁⟩
      obtain ⟨rfl, rfl⟩ := Prod.mk.inj ((run_subquery hd hm).symm.trans hr)
      obtain ⟨ws, hws, hn⟩ := h.error hm
      exact ⟨ws, hws, by rw [hn, leave_visitAll]⟩

end Follows

end Render

open Render (Follows)

/-! ## Expressions -/

theorem renderKey_follows (key : String) :
    Follows (renderKey key) [] fun names => Piece.text names (.given key) := by
  unfold renderKey
  split
  · exact .fail _ _ _
  · exact .pure _

theorem Param.render_follows (p : Param) :
    Follows p.render [.param p] fun names => spell names p.pieces := by
  refine (Follows.paramNameOf p).map.congr fun names => ?_
  by_cases h : p.isPoint <;>
    simp [Param.pieces, h, Piece.text, Mark.char, Keyword.text,
      ← String.toList_inj]

theorem Literal.render_follows (value : Literal) :
    Follows value.render [] fun names => Piece.text names (.literal value) := by
  cases value with
  | float x =>
    rw [Literal.render]
    split
    · exact .pure _
    · exact .fail _ _ _
  | _ => exact .pure _

theorem renderProperty_follows (target : Reference) (key : String) :
    Follows (renderProperty target key) [.ref target]
      fun names => spell names (propertyPieces target key) := by
  refine ((renderKey_follows key).bind fun _ => (Follows.aliasOf target).map).congr fun names => ?_
  simp [propertyPieces, Piece.text, Mark.char, ← String.toList_inj]

/-- What stands between brackets. -/
theorem spell_bracketed (names : Names) (left right : Mark) (parts : List (List Piece)) :
    spell names (bracketed left right parts)
      = String.singleton left.char ++ ", ".intercalate (parts.map (spell names))
        ++ String.singleton right.char := by
  simp [bracketed, spell_commaSeparated, Piece.text, ← String.toList_inj]

mutual

theorem Expr.render_follows (e : Expr) :
    Follows e.render e.visits fun names => spell names e.pieces := by
  cases e with
  | literal value =>
    exact value.render_follows.congr fun names => by simp [Expr.pieces, Piece.text]
  | param p => exact p.render_follows
  | ref target =>
    exact (Follows.aliasOf target).congr fun names => by simp [Expr.pieces, Piece.text]
  | property target key => exact renderProperty_follows target key
  | call f => exact FunctionCall.render_follows f
  | list items =>
    refine (Expr.renderItems_follows items).map.congr fun names => ?_
    rw [Expr.pieces, spell_bracketed]
    rfl
  | map entries =>
    refine (Expr.renderEntries_follows entries).map.congr fun names => ?_
    rw [Expr.pieces, spell_bracketed]
    rfl
  | projection target fields =>
    refine ((Follows.aliasOf target).bind fun _ =>
      (Expr.renderFields_follows fields).map).congr fun names => ?_
    simp [Expr.pieces, spell_bracketed, Piece.text, Mark.char, ← String.toList_inj]

theorem FunctionCall.render_follows (f : FunctionCall) :
    Follows f.render f.visits fun names => spell names f.pieces := by
  cases f with
  | coalesce target key fallback =>
    refine ((renderProperty_follows target key).bind fun _ =>
      (Expr.render_follows fallback).map).congr fun names => ?_
    simp [FunctionCall.pieces, spell_bracketed, String.intercalate_cons_cons, Piece.text,
      Mark.char, Keyword.text, ← String.toList_inj]
  | distance source point =>
    refine ((DistanceSource.render_follows source).bind fun _ =>
      point.render_follows.map).congr fun names => ?_
    simp [FunctionCall.pieces, spell_bracketed, String.intercalate_cons_cons, Piece.text,
      Mark.char, Keyword.text, ← String.toList_inj]
  | apply f argument =>
    refine (Expr.render_follows argument).map.congr fun names => ?_
    simp [FunctionCall.pieces, spell_bracketed, Piece.text, Mark.char, ← String.toList_inj]

theorem DistanceSource.render_follows (source : DistanceSource) :
    Follows source.render source.visits fun names => spell names source.pieces := by
  cases source with
  | property target key => exact renderProperty_follows target key
  | call f => exact FunctionCall.render_follows f

theorem ProjectionField.render_follows (field : ProjectionField) :
    Follows field.render field.visits fun names => spell names field.pieces := by
  cases field with
  | shorthand key =>
    refine (renderKey_follows key).map.congr fun names => ?_
    simp [ProjectionField.pieces, Piece.text, Mark.char]
  | entry key value =>
    refine ((renderKey_follows key).bind fun _ =>
      (Expr.render_follows value).map).congr fun names => ?_
    simp [ProjectionField.pieces, Piece.text, Mark.char, ← String.toList_inj]

theorem Expr.renderItems_follows (items : List Expr) :
    Follows (Expr.renderItems items) (Expr.itemVisits items)
      fun names => (Expr.itemPieces items).map (spell names) := by
  cases items with
  | nil => exact .pure _
  | cons item rest =>
    exact (Expr.render_follows item).bind fun _ => (Expr.renderItems_follows rest).map

theorem Expr.renderEntries_follows (entries : List (String × Expr)) :
    Follows (Expr.renderEntries entries) (Expr.entryVisits entries)
      fun names => (Expr.entryPieces entries).map (spell names) := by
  cases entries with
  | nil => exact .pure _
  | cons entry rest =>
    obtain ⟨key, value⟩ := entry
    refine ((renderKey_follows key).bind fun _ => (Expr.render_follows value).bind fun _ =>
      (Expr.renderEntries_follows rest).map).congr fun names => ?_
    simp [Expr.entryPieces, Piece.text, Mark.char, ← String.toList_inj]

theorem Expr.renderFields_follows (fields : List ProjectionField) :
    Follows (Expr.renderFields fields) (Expr.fieldVisits fields)
      fun names => (Expr.fieldPieces fields).map (spell names) := by
  cases fields with
  | nil => exact .pure _
  | cons field rest =>
    exact (ProjectionField.render_follows field).bind fun _ =>
      (Expr.renderFields_follows rest).map

end

/-! ## Patterns -/

theorem spell_labelPieces (names : Names) (labels : List String) :
    spell names (labelPieces labels) = Name.labels labels := by
  induction labels with
  | nil => rfl
  | cons label rest ih =>
    simp only [labelPieces, Name.labels] at ih
    simp [labelPieces, Name.labels, Piece.text, Mark.char, ih, ← String.toList_inj]

theorem NodePattern.render_follows (p : NodePattern) :
    Follows p.render p.visits fun names => spell names p.pieces := by
  unfold NodePattern.render
  refine .guard fun _ => (Follows.aliasOf p.node.reference).map.congr fun names => ?_
  by_cases h : p.withLabels <;>
    simp [NodePattern.pieces, h, spell_labelPieces, Piece.text, Mark.char, ← String.toList_inj]

theorem spell_arrow (names : Names) (d : Direction) (inner : List Piece) :
    spell names (d.pieces inner) = d.arrow (spell names inner) := by
  cases d <;> simp [Direction.pieces, Direction.arrow, Piece.text, Mark.char, ← String.toList_inj]

theorem renderType_follows (type : Option String) :
    Follows (renderType type) [] fun names => spell names (typePieces type) := by
  cases type with
  | none => exact .pure _
  | some type =>
    rw [renderType]
    split
    · exact .fail _ _ _
    · exact (Follows.pure _).congr fun names => by simp [typePieces, Piece.text, Mark.char]

theorem Hop.renderArrow_follows (h : Hop) :
    Follows h.renderArrow h.arrowVisits fun names => spell names h.arrowPieces := by
  have htype := fun name : String =>
    (renderType_follows h.relationship.type).map (k := fun type => h.direction.arrow (name ++ type))
  unfold Hop.renderArrow
  split
  · rename_i hn
    refine (((Follows.aliasOf h.relationship.reference).bind htype).congr fun names => ?_).of_visits
      (by simp [Hop.arrowVisits, hn])
    simp [Hop.arrowPieces, hn, spell_arrow, Piece.text]
  · rename_i hn
    refine (((Follows.pure "").bind htype).congr fun names => ?_).of_visits
      (by simp [Hop.arrowVisits, hn])
    simp [Hop.arrowPieces, hn, spell_arrow]

theorem renderHops_follows (hops : List Hop) :
    Follows (renderHops hops) (hops.flatMap Hop.visits)
      fun names => spell names (hops.flatMap Hop.pieces) := by
  induction hops with
  | nil => exact .pure _
  | cons hop rest ih =>
    have h := (Hop.renderArrow_follows hop).bind fun arrow =>
      (NodePattern.render_follows hop.target).bind fun target =>
        ih.map (k := fun others => arrow ++ target ++ others)
    rw [← List.append_assoc] at h
    exact h.congr fun names => by simp [Hop.pieces, String.append_assoc]

theorem Pattern.render_follows (p : Pattern) :
    Follows p.render p.visits fun names => spell names p.pieces := by
  refine (p.start.render_follows.bind fun _ => (renderHops_follows p.hops).map).congr
    fun names => ?_
  simp [Pattern.pieces]

/-! ## Clauses without subqueries -/

/-- The name is a text here; whose name it is, only the caller knows. -/
theorem renderAssignments_follows (name : String) (properties : List (String × Expr)) :
    Follows (renderAssignments name properties) (Expr.entryVisits properties) fun names =>
      properties.map fun entry =>
        name ++ "." ++ Name.written entry.1 ++ " = " ++ spell names entry.2.pieces := by
  induction properties with
  | nil => exact .pure _
  | cons entry rest ih =>
    exact (renderKey_follows entry.1).bind fun _ =>
      (Expr.render_follows entry.2).bind fun _ => ih.map

theorem spell_setPieces (names : Names) (target : Reference) (properties : List (String × Expr)) :
    spell names (setPieces target properties)
      = "SET " ++ ",\n".intercalate (properties.map fun entry =>
          names (.ref target) ++ "." ++ Name.written entry.1 ++ " = "
            ++ spell names entry.2.pieces) := by
  have hsep : spell names [.mark .comma, .lineBreak] = ",\n" := rfl
  have htexts : (assignmentPieces target properties).map (spell names)
      = properties.map fun entry => names (.ref target) ++ "." ++ Name.written entry.1 ++ " = "
          ++ spell names entry.2.pieces := by
    simp only [assignmentPieces, List.map_map]
    refine List.map_congr_left fun entry _ => ?_
    simp [propertyPieces, Piece.text, Mark.char, ← String.toList_inj]
  rw [setPieces, spell_cons, spell_cons, spell_intercalate, hsep, htexts, ← String.append_assoc]
  rfl

theorem renderSet_follows (target : Reference) (properties : List (String × Expr)) :
    Follows (renderSet target properties) (assignmentVisits target properties)
      fun names => spell names (setPieces target properties) := by
  unfold renderSet
  refine .guard fun _ => ((Follows.aliasOf target).bind fun name =>
    (renderAssignments_follows name properties).map).congr fun names => ?_
  rw [spell_setPieces]

theorem renderCreate_follows (node : NodeRef) (properties : List (String × Expr)) :
    Follows (renderCreate node properties)
      ((NodePattern.declared node).visits ++ assignmentVisits node.reference properties)
      fun names => spell names (createPieces node properties) := by
  unfold renderCreate
  refine .guard fun _ => ((NodePattern.declared node).render_follows.bind fun _ =>
    (Follows.aliasOf node.reference).bind fun name =>
      (renderAssignments_follows name properties).map).congr fun names => ?_
  by_cases hp : properties.isEmpty <;>
    simp [createPieces, hp, spell_setPieces, Piece.text, Keyword.text, ← String.toList_inj]

theorem WithItem.render_follows (item : WithItem) :
    Follows item.render item.visits fun names => spell names item.pieces := by
  obtain ⟨e, v⟩ := item
  cases v with
  | none => exact (Expr.render_follows e).map
  | some v =>
    refine ((Expr.render_follows e).bind fun _ => (Follows.aliasOf v.reference).map).congr
      fun names => ?_
    simp [WithItem.pieces, Piece.text, Keyword.text, ← String.toList_inj]

theorem renderWithItems_follows (items : List WithItem) :
    Follows (renderWithItems items) (items.flatMap WithItem.visits)
      fun names => (items.map WithItem.pieces).map (spell names) := by
  induction items with
  | nil => exact .pure _
  | cons item rest ih => exact item.render_follows.bind fun _ => ih.map

theorem renderWith_follows (items : List WithItem) :
    Follows (renderWith items) (items.flatMap WithItem.visits)
      fun names => spell names (Clause.withItems items).pieces := by
  unfold renderWith
  refine .guard fun _ => (renderWithItems_follows items).map.congr fun names => ?_
  simp [Clause.pieces, spell_commaSeparated, Piece.text, Keyword.text, ← String.toList_inj]

theorem renderOrderItems_follows (items : List OrderItem) :
    Follows (renderOrderItems items) (items.flatMap fun item => item.expr.visits)
      fun names => (items.map OrderItem.pieces).map (spell names) := by
  induction items with
  | nil => exact .pure _
  | cons item rest ih =>
    refine ((Expr.render_follows item.expr).bind fun _ => ih.map).congr fun names => ?_
    simp [OrderItem.pieces, Piece.text, ← String.toList_inj]

theorem renderOrderBy_follows (items : List OrderItem) :
    Follows (renderOrderBy items) (items.flatMap fun item => item.expr.visits)
      fun names => spell names (Clause.orderBy items).pieces := by
  unfold renderOrderBy
  refine .guard fun _ => (renderOrderItems_follows items).map.congr fun names => ?_
  simp [Clause.pieces, spell_commaSeparated, Piece.text, Keyword.text, ← String.toList_inj]

theorem renderFields_follows (fields : List String) :
    Follows (renderFields fields) [] fun names =>
      (fields.map fun key => [Piece.mark .dot, .given key]).map (spell names) := by
  induction fields with
  | nil => exact .pure _
  | cons key rest ih =>
    refine ((renderKey_follows key).bind fun _ => ih.map).congr fun names => ?_
    simp [Piece.text, Mark.char]

theorem ReturnTarget.render_follows (target : ReturnTarget) :
    Follows target.render target.visits fun names => spell names target.pieces := by
  cases target with
  | entity target fields =>
    refine ((Follows.aliasOf target).bind fun _ => (renderFields_follows fields).map).congr
      fun names => ?_
    by_cases hf : fields.isEmpty <;>
      simp [ReturnTarget.pieces, hf, spell_bracketed, Piece.text, Mark.char, ← String.toList_inj]
  | expr e => exact Expr.render_follows e
  | all => exact .pure _

theorem renderReturnAlias_follows (name : Option ReturnAlias) :
    Follows (renderReturnAlias name) ((name.map ReturnAlias.visits).getD [])
      fun names => spell names ((name.map ReturnAlias.pieces).getD []) := by
  match name with
  | none => exact .pure _
  | some (.name text) =>
    refine (Follows.pure _).congr fun names => ?_
    by_cases ht : text.isEmpty <;>
      simp [ReturnAlias.pieces, ht, Piece.text, Keyword.text, ← String.toList_inj]
  | some (.var v) =>
    refine (Follows.aliasOf v.reference).map.congr fun names => ?_
    simp [ReturnAlias.pieces, Piece.text, Keyword.text, ← String.toList_inj]

theorem Result.render_follows (r : Result) :
    Follows r.render r.visits fun names => spell names r.pieces := by
  refine (r.target.render_follows.bind fun _ =>
    (renderReturnAlias_follows r.outputName).map).congr fun names => ?_
  simp [Result.pieces, Piece.text, Keyword.text, ← String.toList_inj]

/-! ## Predicates and subqueries -/

theorem spell_operandOf (names : Names) (p : Predicate) (ps : List Piece) :
    spell names (p.operandOf ps) = p.asOperand (spell names ps) := by
  unfold Predicate.operandOf Predicate.asOperand
  split
  · simp [Piece.text, Mark.char, ← String.toList_inj]
  · rfl

/-- Clauses on lines of their own. -/
theorem spell_lines (names : Names) (parts : List (List Piece)) :
    spell names ([Piece.lineBreak].intercalate parts)
      = "\n".intercalate (parts.map (spell names)) := by
  rw [spell_intercalate]
  rfl

theorem spell_joined (names : Names) (junction : Junction) (parts : List (List Piece)) :
    spell names ([.space, .word (.join junction), .space].intercalate parts)
      = (" " ++ junction.keyword ++ " ").intercalate (parts.map (spell names)) := by
  rw [spell_intercalate]
  simp [Piece.text, String.append_assoc]

theorem spell_matchPieces (names : Names) (optional : Bool) (pattern : Pattern) :
    spell names (matchPieces optional pattern)
      = (if optional then "OPTIONAL MATCH " else "MATCH ") ++ spell names pattern.pieces := by
  cases optional <;> simp [matchPieces, Piece.text, Keyword.text, ← String.toList_inj]

theorem spell_comparison (names : Names) (c : Comparison) :
    spell names c.pieces = c.symbol := by
  cases c <;> rfl

mutual

theorem Predicate.render_follows (p : Predicate) :
    Follows p.render p.visits fun names => spell names p.pieces := by
  match p with
  | .compare operator lhs rhs =>
    refine (lhs.render_follows.bind fun _ => rhs.render_follows.map).congr fun names => ?_
    simp [Predicate.pieces, spell_comparison, Piece.text, ← String.toList_inj]
  | .isNull e =>
    refine e.render_follows.map.congr fun names => ?_
    simp [Predicate.pieces, Piece.text, Keyword.text]
  | .isNotNull e =>
    refine e.render_follows.map.congr fun names => ?_
    simp [Predicate.pieces, Piece.text, Keyword.text]
  | .group junction [] => exact .fail _ _ _
  -- a group of one is rendered and spelled as its operand
  | .group _ [operand] =>
    exact (Predicate.render_follows operand).of_visits
      (by simp [Predicate.visits, Predicate.operandVisits])
  | .group junction (first :: second :: rest) =>
    refine ((Predicate.render_follows first).bind fun _ =>
      (Predicate.render_follows second).bind fun _ =>
        (Predicate.renderOperands_follows rest).map).congr fun names => ?_
    rw [Predicate.pieces, spell_joined]
    simp [spell_operandOf]
  | .not operand =>
    refine (Predicate.render_follows operand).map.congr fun names => ?_
    simp [Predicate.pieces, Piece.text, Mark.char, Keyword.text, ← String.toList_inj]
  | .existsIn body =>
    refine (Clause.renderAll_follows body).subquery.map.congr fun names => ?_
    simp [Predicate.pieces, spell_lines, Piece.text, Mark.char, Keyword.text, ← String.toList_inj]

theorem Predicate.renderOperands_follows (operands : List Predicate) :
    Follows (Predicate.renderOperands operands) (Predicate.operandVisits operands)
      fun names => (Predicate.operandPieces operands).map (spell names) := by
  match operands with
  | [] => exact .pure _
  | operand :: rest =>
    refine ((Predicate.render_follows operand).bind fun _ =>
      (Predicate.renderOperands_follows rest).map).congr fun names => ?_
    simp [Predicate.operandPieces, spell_operandOf]

theorem Clause.render_follows (c : Clause) :
    Follows c.render c.visits fun names => spell names c.pieces := by
  match c with
  | .create node properties => exact renderCreate_follows node properties
  | .matching optional pattern none =>
    refine pattern.render_follows.map.congr fun names => ?_
    rw [Clause.pieces, spell_matchPieces]
  | .matching optional pattern (some condition) =>
    refine (pattern.render_follows.bind fun _ =>
      (Predicate.render_follows condition).map).congr fun names => ?_
    simp [Clause.pieces, spell_matchPieces, Piece.text, Keyword.text, ← String.toList_inj]
  | .call body =>
    refine (Clause.renderAll_follows body).subquery.map.congr fun names => ?_
    simp [Clause.pieces, spell_lines, Piece.text, Mark.char, Keyword.text, ← String.toList_inj]
  | .withAll => exact .pure _
  | .withItems items => exact renderWith_follows items
  | .set target properties => exact renderSet_follows target properties
  | .orderBy items => exact renderOrderBy_follows items
  | .skip count =>
    refine count.render_follows.map.congr fun names => ?_
    simp [Clause.pieces, Piece.text, Keyword.text, ← String.toList_inj]
  | .limit count =>
    refine count.render_follows.map.congr fun names => ?_
    simp [Clause.pieces, Piece.text, Keyword.text, ← String.toList_inj]
  | .result r => exact r.render_follows

theorem Clause.renderAll_follows (body : List Clause) :
    Follows (Clause.renderAll body) (Clause.bodyVisits body)
      fun names => (Clause.bodyPieces body).map (spell names) := by
  match body with
  | [] => exact .pure _
  | clause :: rest =>
    exact (Clause.render_follows clause).bind fun _ => (Clause.renderAll_follows rest).map

end

theorem Query.render_follows (q : Query) :
    Follows q.render q.visits fun names => q.textUnder names := by
  refine (Clause.renderAll_follows q.clauses).map.congr fun names => ?_
  rw [Query.textUnder, Query.pieces, spell_lines]

end GraphQuery
