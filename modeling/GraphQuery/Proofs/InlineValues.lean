import GraphQuery.Proofs.AlikePlans
import GraphQuery.Proofs.Literals

/-!
# What comes of inline values

Compiling turns each inline value into a literal or refuses it. If a plan that is alike compiles,
then nothing but an inline value can stop this one. So compiling it is as good as turning its inline
values into literals one after the other: the first that is refused is the reason for which it
fails, and if none is, all of them are in the text and nothing else is a literal.
-/

namespace GraphQuery.Plan

/-! ## Compiling alike plans -/

section Steps

variable {α β γ δ : Type} {m : Compile α} {m' : Compile β} {out : α → List Literal}
  {ls ms : List Json} {before : List Literal}

/-- If the other step succeeds, then all that matters of this one is its inline values: it fails as
the first of them does, or what it gives has their literals, after those that were there before. -/
def Hinges (m : Compile α) (m' : Compile β) (out : α → List Literal) (before : List Literal)
    (ls : List Json) : Prop :=
  ∀ b, m' = .ok b → m.map out = (ls.mapM literal).map (before ++ ·)

namespace Hinges

/-- A last step that only puts together what the steps before it gave. -/
theorem pure {a : α} (h : out a = before) : Hinges (.ok a) m' out before [] := by
  intro b _
  rw [List.mapM_nil]
  exact congrArg Except.ok (h.trans (List.append_nil before).symm)

theorem of_error {why : Fault} : Hinges m (.error why : Compile β) out before ls :=
  fun _ h => by cases h

/-- A step without inline values that both make. -/
theorem same (m : Compile α) : Hinges m m (fun _ => []) [] [] := by
  rintro a rfl
  rfl

theorem bind {k : α → Compile γ} {k' : β → Compile δ} {out' : γ → List Literal}
    (h : Hinges m m' out [] ls)
    (hk : ∀ a a', m = .ok a → m' = .ok a' → Hinges (k a) (k' a') out' (before ++ out a) ms) :
    Hinges (m >>= k) (m' >>= k') out' before (ls ++ ms) := by
  intro b hb
  obtain ⟨a', ha', hb⟩ := bind_eq_ok hb
  have hfirst := h a' ha'
  rw [List.mapM_append]
  cases hls : ls.mapM literal with
  | error why =>
    -- the first inline value that is refused stops both
    rw [hls] at hfirst
    cases m with
    | error why' => exact congrArg Except.error (Except.error.inj hfirst)
    | ok a => cases hfirst
  | ok ks =>
    rw [hls] at hfirst
    obtain ⟨a, rfl, rfl⟩ : ∃ a, m = .ok a ∧ out a = ks := map_eq_ok hfirst
    have hnext := hk a a' rfl ha' b hb
    refine hnext.trans ?_
    cases ms.mapM literal with
    | error why => rfl
    | ok ks' => exact congrArg Except.ok (List.append_assoc _ _ _)

/-- A step without inline values that both make first. -/
theorem skip (m : Compile α) {k : α → Compile γ} {k' : α → Compile δ} {out' : γ → List Literal}
    (hk : ∀ a a', m = .ok a → m = .ok a' → Hinges (k a) (k' a') out' before ms) :
    Hinges (m >>= k) (m >>= k') out' before ms :=
  (same m).bind fun a a' ha ha' => by
    rw [List.append_nil]
    exact hk a a' ha ha'

/-- A last step without inline values. -/
theorem last {k : α → Compile γ} {k' : β → Compile δ} {out' : γ → List Literal}
    (h : Hinges m m' out [] ls)
    (hk : ∀ a a', m = .ok a → m' = .ok a' → Hinges (k a) (k' a') out' (before ++ out a) []) :
    Hinges (m >>= k) (m' >>= k') out' before ls := by
  have hall := h.bind hk
  rwa [List.append_nil] at hall

/-- Nothing comes after the step but putting together. -/
theorem map {k : α → γ} {k' : β → δ} {out' : γ → List Literal} (h : Hinges m m' out [] ls)
    (hk : ∀ a, out' (k a) = before ++ out a) :
    Hinges (m >>= fun a => Pure.pure (k a)) (m' >>= fun b => Pure.pure (k' b)) out' before ls :=
  h.last fun a _ _ _ => .pure (hk a)

/-- What each item gives, all items give together. -/
theorem mapM {α' β' : Type} {R : α → α' → Prop} {f : α → Compile β} {f' : α' → Compile β'}
    {out : β → List Literal} {literals : α → List Json} {items : List α} {items' : List α'}
    (h : List.Forall₂ R items items')
    (hf : ∀ a a', R a a' → Hinges (f a) (f' a') out [] (literals a)) :
    Hinges (items.mapM f) (items'.mapM f') (fun bs => bs.flatMap out) []
      (items.flatMap literals) := by
  induction h with
  | nil => exact .pure rfl
  | cons hitem _ ih =>
    rw [List.mapM_cons, List.mapM_cons, List.flatMap_cons]
    exact (hf _ _ hitem).bind fun b _ _ _ => ih.map fun bs => rfl

end Hinges

end Steps

/-! ## Terms -/

/-- The literals of an expression, as its text has them. -/
def exprLiterals (e : Expr) : List Literal :=
  literalsOf e.pieces

section Trees

variable {s : Scope}

theorem literal_hinges (value value' : Json) :
    Hinges (literal value) (literal value') (fun l => [l]) [] [value] := by
  intro _ _
  rw [List.mapM_cons, List.mapM_nil]
  cases literal value <;> rfl

/-- An argument keeps its literals under a function, and both plans name the same function. -/
theorem applyNamed_hinges (function : String) (argument argument' : Expr) :
    Hinges (applyNamed function argument) (applyNamed function argument') exprLiterals
      (exprLiterals argument) [] := by
  unfold applyNamed
  cases UnaryFunction.ofName? function with
  | some f =>
    refine .pure ?_
    simp [exprLiterals, Expr.pieces, FunctionCall.pieces]
  | none => exact .of_error

theorem distanceFrom_hinges {t t' : Term} {e e' : Expr} (point point' : Param) (h : t.Alike t')
    (ht : ∀ target key, t ≠ .property target key) (he : compileTerm s t = .ok e)
    (he' : compileTerm s t' = .ok e') :
    Hinges (distanceFrom e point) (distanceFrom e' point') exprLiterals (exprLiterals e) [] := by
  intro b hb
  have ht' : ∀ target key, t' ≠ .property target key := by
    rintro target key rfl
    cases h with
    | property => exact ht target key rfl
  -- both sources are calls, since the terms they come from have the same shape
  have hsource : t'.isSource = true := (succeeds_distanceFrom point' he' ht').mp ⟨b, hb⟩
  obtain ⟨d, hd⟩ := (succeeds_distanceFrom point he ht).mpr (h.isSource.trans hsource)
  have hdistance : Hinges (distanceFrom e point) (distanceFrom e' point') exprLiterals
      (exprLiterals e) [] := by
    unfold distanceFrom at hd ⊢
    split at hd
    · refine .pure ?_
      simp [exprLiterals, Expr.pieces, FunctionCall.pieces, DistanceSource.pieces,
        Param.literalsOf_pieces]
    · cases hd
  exact hdistance b hb

mutual

theorem compileTerm_hinges {t t' : Term} (h : t.Alike t') :
    Hinges (compileTerm s t) (compileTerm s t') exprLiterals [] t.literals := by
  cases h with
  | param name =>
    rw [compileTerm, Term.literals]
    exact (Hinges.same _).map fun p => p.literalsOf_pieces
  | ref name =>
    rw [compileTerm, Term.literals]
    exact (Hinges.same _).map fun _ => rfl
  | property target key =>
    rw [compileTerm, Term.literals]
    exact (Hinges.same _).map fun _ => rfl
  | literal value value' =>
    rw [compileTerm, compileTerm, Term.literals]
    exact (literal_hinges value value').map fun _ => rfl
  | list each =>
    rw [compileTerm, compileTerm, Term.literals]
    exact (compileTerms_hinges each).map fun es => by simp [exprLiterals, Expr.pieces]
  | projection target fields stored =>
    rw [compileTerm, compileTerm, Term.literals]
    exact (compileStored_hinges stored).last fun entries _ _ _ => .skip _ fun r _ _ _ => .pure
      (literalsOf_projection r fields entries)
  | coalesce target key alike =>
    rw [compileTerm, compileTerm, Term.literals]
    exact .skip _ fun r _ _ _ => (compileTerm_hinges alike).map fun f => by
      simp [exprLiterals, Expr.pieces, FunctionCall.pieces, literalsOf_property]
  | @distance point source source' alike =>
    rw [Term.literals]
    -- a property is compiled by an equation of its own
    by_cases hproperty : ∃ target key, source = .property target key
    · obtain ⟨target, key, rfl⟩ := hproperty
      cases alike with
      | property =>
        rw [compileTerm, Term.literals]
        exact .skip _ fun p _ _ _ => .skip _ fun r _ _ _ => .pure (by
          simp [exprLiterals, Expr.pieces, FunctionCall.pieces, DistanceSource.pieces,
            literalsOf_property, Param.literalsOf_pieces])
    · have hproperty : ∀ target key, source ≠ .property target key := fun target key heq =>
        hproperty ⟨target, key, heq⟩
      have hproperty' : ∀ target key, source' ≠ .property target key := by
        rintro target key rfl
        cases alike with
        | property => exact hproperty target key rfl
      rw [compileTerm.eq_9 s source point hproperty, compileTerm.eq_9 s source' point hproperty']
      have hsource := compileTerm_hinges alike
      exact .skip _ fun p p' _ _ => hsource.last fun _ _ he he' =>
        distanceFrom_hinges p p' alike hproperty he he'
  | @call function argument argument' alike =>
    rw [compileTerm, compileTerm, Term.literals]
    exact (compileTerm_hinges alike).last fun a a' _ _ => applyNamed_hinges function a a'
termination_by 2 * t.weight
decreasing_by all_goals (simp only [Term.weight]; omega)

theorem compileTerms_hinges {items items' : List Term} (h : Term.AllAlike items items') :
    Hinges (compileTerms s items) (compileTerms s items')
      (fun es => (Expr.itemPieces es).flatMap literalsOf) [] (Term.literalsOfAll items) := by
  cases h with
  | nil =>
    rw [compileTerms, Term.literalsOfAll]
    exact .pure rfl
  | @cons item _ rest _ first others =>
    rw [compileTerms, compileTerms, Term.literalsOfAll]
    exact (compileTerm_hinges first).bind fun _ _ _ _ =>
      (compileTerms_hinges others).map fun _ => rfl
termination_by 2 * Term.weights items + 1
decreasing_by
  · simp only [Term.weights]; omega
  · have := item.weight_pos
    simp only [Term.weights]; omega

theorem compileStored_hinges {entries entries' : List (String × Json)}
    (h : Term.StoredAlike entries entries') :
    Hinges (compileStored s entries) (compileStored s entries') entryLiterals []
      (Term.literalsOfStored entries) := by
  cases h with
  | nil =>
    rw [compileStored, Term.literalsOfStored]
    exact .pure rfl
  | @read key value _ t _ rest _ as_term as_term' first others =>
    rw [compileStored_of_ok as_term, compileStored_of_ok as_term',
      Term.literalsOfStored_cons as_term]
    exact (compileTerm_hinges first).bind fun _ _ _ _ =>
      (compileStored_hinges others).map fun _ => rfl
  | unread key no_term others =>
    -- the other plan does not compile, so there is nothing to show
    rw [compileStored_of_error no_term, compileStored_of_error no_term]
    exact .of_error
termination_by 2 * Json.nodesOfMembers entries + 1
decreasing_by
  · have := Term.weight_ofJson as_term
    simp only [Json.nodesOfMembers]; omega
  · have := value.nodes_pos
    simp only [Json.nodesOfMembers]; omega

end

/-! ## Items and results -/

theorem compileWith_hinges {w w' : WithUse} (h : w.Alike w') :
    Hinges (compileWith s w) (compileWith s w') (fun item => literalsOf item.pieces) []
      w.expr.literals := by
  obtain ⟨e, name⟩ := w
  obtain ⟨e', name'⟩ := w'
  obtain ⟨hexpr, rfl : name = name'⟩ := h
  refine (compileTerm_hinges hexpr).last fun e _ _ _ => ?_
  cases name with
  | none => exact .pure (WithItem.literalsOf_pieces _)
  | some name => exact .skip _ fun v _ _ _ => .pure (WithItem.literalsOf_pieces _)

theorem compileOrder_hinges {o o' : OrderUse} (h : o.Alike o') :
    Hinges (compileOrder s o) (compileOrder s o') (fun item => literalsOf item.pieces) []
      o.expr.literals :=
  (compileTerm_hinges h.expr).map fun _ => OrderItem.literalsOf_pieces _

theorem compileTarget_hinges {r r' : ReturnUse} (h : r.Alike r') :
    Hinges (compileTarget s r) (compileTarget s r') (fun target => literalsOf target.pieces) []
      ((r.expr.map Term.literals).getD []) := by
  obtain ⟨entity, fields, expr, _, _⟩ := r
  obtain ⟨entity', fields', expr', _, _⟩ := r'
  obtain ⟨rfl : entity = entity', rfl : fields = fields', hexpr, -, -⟩ := h
  unfold compileTarget
  -- what is refused for the combination of its parts is refused in both plans
  cases hexpr with
  | none =>
    cases entity with
    | none =>
      dsimp only
      split
      · exact .pure rfl
      · exact .of_error
    | some name => exact .skip _ fun target _ _ _ => .pure (literalsOf_entity target fields)
  | some halike =>
    cases entity with
    | none =>
      dsimp only
      split
      · exact (compileTerm_hinges halike).map fun _ => rfl
      · exact .of_error
    | some name => exact .of_error

theorem compileResult_hinges {r r' : ReturnUse} (h : r.Alike r') :
    Hinges (compileResult s r) (compileResult s r') (fun result => literalsOf result.pieces) []
      ((r.expr.map Term.literals).getD []) := by
  have halias : compileAlias s r = compileAlias s r' := by
    rw [compileAlias, h.aliasName, h.aliasVariable]
    rfl
  refine (compileTarget_hinges h).last fun target _ _ _ => ?_
  rw [halias]
  exact .skip _ fun _ _ _ _ => .pure (Result.literalsOf_pieces _)

/-! ## Conditions and statements -/

mutual

theorem compileCondition_hinges {c c' : Condition} (h : c.Alike c') :
    Hinges (compileCondition s c) (compileCondition s c') (fun p => literalsOf p.pieces) []
      c.literals := by
  cases h with
  | compare operator left right =>
    exact (compileTerm_hinges left).bind fun l _ _ _ => (compileTerm_hinges right).map fun r =>
      literalsOf_compare operator l r
  | isNull alike =>
    exact (compileTerm_hinges alike).map fun e => by simp [Predicate.pieces, exprLiterals]
  | isNotNull alike =>
    exact (compileTerm_hinges alike).map fun e => by simp [Predicate.pieces, exprLiterals]
  | group junction each =>
    exact (compileConditions_hinges each).map fun ps => literalsOf_group junction ps
  | not alike => exact (compileCondition_hinges alike).map fun p => by simp [Predicate.pieces]
  | existsIn each => exact (compileStatements_hinges each).map fun cs => literalsOf_existsIn cs

theorem compileConditions_hinges {cs cs' : List Condition} (h : Condition.AllAlike cs cs') :
    Hinges (compileConditions s cs) (compileConditions s cs')
      (fun ps => (Predicate.operandPieces ps).flatMap literalsOf) []
      (Condition.literalsOfAll cs) := by
  cases h with
  | nil => exact .pure rfl
  | cons first others =>
    exact (compileCondition_hinges first).bind fun p _ _ _ =>
      (compileConditions_hinges others).map fun ps => by
        simp [Predicate.operandPieces, Predicate.literalsOf_operandOf]

theorem compileStatement_hinges {st st' : Statement} (h : st.Alike st') :
    Hinges (compileStatement s st) (compileStatement s st') (fun c => literalsOf c.pieces) []
      st.literals := by
  cases h with
  -- names and patterns compile the same in both, and inline values come after them
  | create node stored =>
    exact .skip _ fun n _ _ _ => (compileStored_hinges stored).map fun es => literalsOf_create n es
  | matching pattern optional =>
    exact .skip _ fun p _ _ _ => .pure (literalsOf_match optional p)
  | matchingWhere pattern optional alike =>
    exact .skip _ fun p _ _ _ => (compileCondition_hinges alike).map fun c => by
      simp [Clause.pieces, literalsOf_match]
  | call each => exact (compileStatements_hinges each).map fun cs => literalsOf_call cs
  | withAll => exact .pure rfl
  | withItems each =>
    exact (Hinges.mapM each fun _ _ => compileWith_hinges).map fun items => by
      simp [Clause.pieces, List.flatMap_map]
  | set target stored =>
    exact .skip _ fun r _ _ _ => (compileStored_hinges stored).map fun es => literalsOf_set r es
  | orderBy each =>
    exact (Hinges.mapM each fun _ _ => compileOrder_hinges).map fun items => by
      simp [Clause.pieces, List.flatMap_map]
  | skip param => exact .skip _ fun p _ _ _ => .pure p.literalsOf_pieces
  | limit param => exact .skip _ fun p _ _ _ => .pure p.literalsOf_pieces
  | result alike => exact (compileResult_hinges alike).map fun _ => rfl

theorem compileStatements_hinges {index : Nat} {sts sts' : List Statement}
    (h : Statement.AllAlike sts sts') :
    Hinges (compileStatements s index sts) (compileStatements s index sts')
      (fun cs => (Clause.bodyPieces cs).flatMap literalsOf) [] (Statement.literalsOfAll sts) := by
  cases h with
  | nil => exact .pure rfl
  | cons first others =>
    -- whether a statement follows a result does not depend on inline values
    rw [compileStatements, compileStatements, first.isResult, others.isEmpty]
    split
    · exact .of_error
    · exact (compileStatement_hinges first).bind fun c _ _ _ =>
        (compileStatements_hinges others).map fun cs => rfl

end

end Trees

/-- **Inline values decide.** If a plan that differs from this one in inline values only compiles,
then this one fails as the first of its inline values that is refused does, or it compiles and the
literals of its text are its inline values, one by one. -/
theorem compile_hinges {plan plan' : Plan} (h : plan.Alike plan') (id : ArenaId) :
    Hinges (plan.compile id) (plan'.compile id) (fun c => literalsOf c.query.pieces) []
      plan.literals := by
  have hdeclare : plan.declare id = plan'.declare id := by
    rw [declare, declare, h.entities, h.params]
  rw [compile, compile, hdeclare]
  -- both scopes and arenas are the same, so only the statements can make a difference
  refine .skip _ fun declared declared' hdeclared hdeclared' => ?_
  obtain rfl := Except.ok.inj (hdeclared.symm.trans hdeclared')
  exact (compileStatements_hinges h.statements).map fun cs => literalsOf_lines _

/-! ## The first that is refused -/

/-- The `k`-th of the values is the first that cannot stand in the text. -/
structure FirstRefused (values : List Json) (k : Nat) (v : Json) : Prop where
  /-- The place is one of the list. -/
  at_place : values[k]? = some v
  refused : ¬Inline v
  /-- All values before it can stand in the text. -/
  before : ∀ u ∈ values.take k, Inline u

theorem literal_of_refused {v : Json} (h : ¬Inline v) : literal v = .error (.inlineValue v) := by
  rw [← succeeds_literal] at h
  cases v with
  | int n =>
    rw [literal] at h ⊢
    cases hn : Json.isWord n with
    | true =>
      rw [hn] at h
      exact absurd (succeeds_ok _) h
    | false => rfl
  | null | bool | float => exact absurd (succeeds_ok _) h
  | str | arr | obj => rfl

/-- A refused value among others stops them all, at the latest. -/
theorem mapM_literal_of_refused {values : List Json} {i : Nat} {v : Json}
    (hplace : values[i]? = some v) (hv : ¬Inline v) :
    ∃ k u, k ≤ i ∧ FirstRefused values k u ∧ values.mapM literal = .error (.inlineValue u) := by
  induction values generalizing i with
  | nil => cases hplace
  | cons w rest ih =>
    rw [List.mapM_cons]
    by_cases hw : Inline w
    · obtain ⟨l, hl⟩ := (succeeds_literal w).mpr hw
      cases i with
      | zero =>
        obtain rfl := Option.some.inj hplace
        exact absurd hw hv
      | succ i =>
        -- the refused value comes later, and what is first among the others is first of all
        obtain ⟨k, u, hk, hfirst, hmap⟩ := ih hplace
        refine ⟨k + 1, u, Nat.succ_le_succ hk, ⟨hfirst.at_place, hfirst.refused, ?_⟩, ?_⟩
        · exact List.forall_mem_cons.mpr ⟨hw, hfirst.before⟩
        · rw [hl, hmap]
          rfl
    · refine ⟨0, w, Nat.zero_le i, ⟨rfl, hw, fun u hu => absurd hu List.not_mem_nil⟩, ?_⟩
      rw [literal_of_refused hw]
      rfl

/-- What is turned into literals stays in its place. -/
theorem getElem?_mapM_literal {values : List Json} {ls : List Literal} {i : Nat} {v : Json}
    (h : values.mapM literal = .ok ls) (hplace : values[i]? = some v) :
    ∃ l, literal v = .ok l ∧ ls[i]? = some l := by
  induction values generalizing i ls with
  | nil => cases hplace
  | cons w rest ih =>
    rw [List.mapM_cons] at h
    obtain ⟨l, hl, h⟩ := bind_eq_ok h
    obtain ⟨ls', hls', h⟩ := bind_eq_ok h
    obtain rfl := Except.ok.inj h
    cases i with
    | zero =>
      obtain rfl := Option.some.inj hplace
      exact ⟨l, hl, rfl⟩
    | succ i =>
      obtain ⟨m, hm, hi⟩ := ih hls' hplace
      exact ⟨m, hm, hi⟩

/-- A plan that fails for nothing else compiles when all of its inline values can be written. -/
theorem compiles_iff_inline {plan plan' : Plan} {id : ArenaId} {c' : Compiled}
    (h : plan.Alike plan') (hc : plan'.compile id = .ok c') :
    (∃ c, plan.compile id = .ok c) ↔ ∀ v ∈ plan.literals, Inline v := by
  have hcompile := compile_hinges h id c' hc
  rw [← succeeds_mapM succeeds_literal]
  constructor
  · rintro ⟨c, hp⟩
    rw [hp] at hcompile
    obtain ⟨ls, hls, -⟩ := map_eq_ok hcompile.symm
    exact ⟨ls, hls⟩
  · rintro ⟨ls, hls⟩
    rw [hls] at hcompile
    obtain ⟨c, hp, -⟩ := map_eq_ok hcompile
    exact ⟨c, hp⟩

/-- A plan that fails for nothing else fails for the first inline value that is refused. -/
theorem compile_of_refused {plan plan' : Plan} {id : ArenaId} {c' : Compiled} {i : Nat} {v : Json}
    (h : plan.Alike plan') (hc : plan'.compile id = .ok c') (hplace : plan.literals[i]? = some v)
    (hv : ¬Inline v) :
    ∃ k u, k ≤ i ∧ FirstRefused plan.literals k u
      ∧ plan.compile id = .error (.inlineValue u) := by
  obtain ⟨k, u, hk, hfirst, hmap⟩ := mapM_literal_of_refused hplace hv
  have hcompile := compile_hinges h id c' hc
  rw [hmap] at hcompile
  refine ⟨k, u, hk, hfirst, ?_⟩
  cases hp : plan.compile id with
  | error why =>
    rw [hp] at hcompile
    exact congrArg Except.error (Except.error.inj hcompile)
  | ok c =>
    rw [hp] at hcompile
    cases hcompile

/-- The literals of a compiled plan are its inline values. -/
theorem literalsOf_compile {plan : Plan} {id : ArenaId} {c : Compiled} {i : Nat} {v : Json}
    (hc : plan.compile id = .ok c) (hplace : plan.literals[i]? = some v) :
    ∃ l, literal v = .ok l ∧ (literalsOf c.query.pieces)[i]? = some l := by
  have hcompile := compile_hinges (.refl plan) id c hc
  rw [hc] at hcompile
  cases hls : plan.literals.mapM literal with
  | error why =>
    rw [hls] at hcompile
    cases hcompile
  | ok ls =>
    rw [hls] at hcompile
    obtain ⟨l, hl, hi⟩ := getElem?_mapM_literal hls hplace
    exact ⟨l, hl, (congrArg (·[i]?) (Except.ok.inj hcompile)).trans hi⟩

end Plan

end GraphQuery
