import GraphQuery.Proofs.Proper

/-!
# The values that a plan stores

A plan keeps JSON values at four places: as literals, as the values of parameters, as the properties
that a statement sets, and as the entries of a projection. Everything else in it is made of texts,
flags and names of alternatives.

Whatever text a plan is read from, in either notation, the values in it are proper. Each of the four
places is filled by a reader of JSON values, and the readers around it only put together what they
are given.
-/

namespace GraphQuery.Plan

/-! ## Where the values are -/

mutual

/-- The values that a term stores. Entries of a projection count as one object. -/
def Term.stored : Term → List Json
  | .param _ | .ref _ | .property _ _ => []
  | .literal value => [value]
  | .list items => Term.storedItems items
  | .projection _ _ entries => [.obj entries]
  | .coalesce _ _ fallback => fallback.stored
  | .distance source _ => source.stored
  | .call _ argument => argument.stored

/-- The values that the items store, one after the other. -/
def Term.storedItems : List Term → List Json
  | [] => []
  | item :: rest => item.stored ++ Term.storedItems rest

end

/-- The values that the expression of a result stores, if there is one. -/
def ReturnUse.stored (use : ReturnUse) : List Json :=
  match use.expr with
  | none => []
  | some expr => expr.stored

mutual

/-- The values that a condition stores, those of its subqueries too. -/
def Condition.stored : Condition → List Json
  | .compare _ lhs rhs => lhs.stored ++ rhs.stored
  | .isNull expr => expr.stored
  | .isNotNull expr => expr.stored
  | .group _ operands => Condition.storedOperands operands
  | .not operand => operand.stored
  | .existsIn statements => Statement.storedAll statements

/-- The values that the operands store, one after the other. -/
def Condition.storedOperands : List Condition → List Json
  | [] => []
  | operand :: rest => operand.stored ++ Condition.storedOperands rest

/-- The values that a statement stores. Its properties count as one object. -/
def Statement.stored : Statement → List Json
  | .create _ properties => [.obj properties]
  | .matching _ _ none => []
  | .matching _ _ (some condition) => condition.stored
  | .call statements => Statement.storedAll statements
  | .withAll | .skip _ | .limit _ => []
  | .withItems items => items.flatMap fun item => item.expr.stored
  | .set _ properties => [.obj properties]
  | .orderBy items => items.flatMap fun item => item.expr.stored
  | .result use => use.stored

/-- The values that the statements store, one after the other. -/
def Statement.storedAll : List Statement → List Json
  | [] => []
  | statement :: rest => statement.stored ++ Statement.storedAll rest

end

end GraphQuery.Plan

namespace GraphQuery

/-- All JSON values in a plan. -/
def Plan.stored (plan : Plan) : List Json :=
  plan.params.entries.map (fun entry => entry.2.value) ++ Plan.Statement.storedAll plan.statements

namespace Plan

theorem Term.storedItems_eq (items : List Term) :
    Term.storedItems items = items.flatMap Term.stored := by
  induction items with
  | nil => rfl
  | cons item rest ih => rw [Term.storedItems, ih, List.flatMap_cons]

theorem Condition.storedOperands_eq (operands : List Condition) :
    Condition.storedOperands operands = operands.flatMap Condition.stored := by
  induction operands with
  | nil => rfl
  | cons operand rest ih => rw [Condition.storedOperands, ih, List.flatMap_cons]

theorem Statement.storedAll_eq (statements : List Statement) :
    Statement.storedAll statements = statements.flatMap Statement.stored := by
  induction statements with
  | nil => rfl
  | cons statement rest ih => rw [Statement.storedAll, ih, List.flatMap_cons]

/-! ## Reading terms -/

/-- Some values are all proper. -/
def AllProper (values : List Json) : Prop :=
  ∀ v ∈ values, v.Proper

theorem allProper_nil : AllProper [] :=
  fun _ hv => nomatch hv

theorem allProper_singleton {v : Json} (h : v.Proper) : AllProper [v] :=
  List.forall_mem_singleton.mpr h

theorem allProper_append {values values' : List Json} (h : AllProper values)
    (h' : AllProper values') : AllProper (values ++ values') :=
  List.forall_mem_append.mpr ⟨h, h'⟩

theorem allProper_flatMap {α : Type} {stored : α → List Json} {items : List α}
    (h : ∀ item ∈ items, AllProper (stored item)) : AllProper (items.flatMap stored) :=
  List.forall_mem_flatMap.mpr h

theorem Term.proper_read {allowed : Content.RecordForm} (fuel : Nat) (c : Content) (t : Term)
    (h : Term.read allowed fuel c = .ok t) : AllProper t.stored := by
  induction fuel generalizing c t with
  | zero => cases h
  | succ fuel ih =>
    rw [Term.read] at h
    obtain ⟨⟨kind, value⟩, -, h⟩ := bind_eq_ok h
    cases kind with
    | literal =>
      obtain ⟨v, hv, h⟩ := bind_eq_ok h
      obtain rfl := Except.ok.inj h
      have hproper := Content.sound_readOnly (fun _ _ => Content.proper_readJson) hv
      exact allProper_singleton hproper
    | list =>
      obtain ⟨items, hitems, h⟩ := bind_eq_ok h
      obtain rfl := Except.ok.inj h
      have hproper := Content.sound_readOnly (Content.sound_readList ih) hitems
      rw [Term.stored, Term.storedItems_eq]
      exact allProper_flatMap hproper
    | projection =>
      obtain ⟨⟨target, fields, entries, ⟨⟩⟩, hr, h⟩ := bind_eq_ok h
      obtain rfl := Except.ok.inj h
      obtain ⟨-, -, hentries, -⟩ := Content.sound_readFields (.free (.free (.withDefault
        (P := fun entries => (Json.obj entries).Proper) (fun _ _ => Content.proper_readMembers)
        Json.proper_empty .nil))) hr
      exact allProper_singleton hentries
    | coalesce =>
      obtain ⟨⟨target, key, fallback, ⟨⟩⟩, hr, h⟩ := bind_eq_ok h
      obtain rfl := Except.ok.inj h
      obtain ⟨-, -, hfallback, -⟩ :=
        Content.sound_readFields (.free (.free (.required ih .nil))) hr
      exact hfallback
    | distance =>
      obtain ⟨⟨source, point, ⟨⟩⟩, hr, h⟩ := bind_eq_ok h
      obtain rfl := Except.ok.inj h
      obtain ⟨hsource, -, -⟩ := Content.sound_readFields (.required ih (.free .nil)) hr
      exact hsource
    | call =>
      obtain ⟨⟨function, argument, ⟨⟩⟩, hr, h⟩ := bind_eq_ok h
      obtain rfl := Except.ok.inj h
      obtain ⟨-, hargument, -⟩ := Content.sound_readFields (.free (.required ih .nil)) hr
      exact hargument
    | param | ref | property =>
      obtain ⟨r, -, h⟩ := bind_eq_ok h
      obtain rfl := Except.ok.inj h
      exact allProper_nil

/-! ## Reading statements -/

theorem WithUse.proper_read {fuel : Nat} (c : Content) (use : WithUse)
    (h : WithUse.read fuel c = .ok use) : AllProper use.expr.stored := by
  obtain ⟨⟨expr, aliasName, ⟨⟩⟩, hr, h⟩ := bind_eq_ok h
  obtain rfl := Except.ok.inj h
  exact (Content.sound_readRecord (.required (Term.proper_read fuel) (.free .nil)) hr).1

theorem OrderUse.proper_read {fuel : Nat} (c : Content) (use : OrderUse)
    (h : OrderUse.read fuel c = .ok use) : AllProper use.expr.stored := by
  obtain ⟨⟨expr, direction, ⟨⟩⟩, hr, h⟩ := bind_eq_ok h
  obtain rfl := Except.ok.inj h
  exact (Content.sound_readRecord (.required (Term.proper_read fuel) (.free .nil)) hr).1

theorem ReturnUse.proper_readBody {fuel : Nat} (body : Content) (use : ReturnUse)
    (h : ReturnUse.readBody fuel body = .ok use) : AllProper use.stored := by
  obtain ⟨⟨entity, fields, expr, aliasName, aliasVariable, ⟨⟩⟩, hr, h⟩ := bind_eq_ok h
  obtain rfl := Except.ok.inj h
  obtain ⟨-, -, hexpr, -⟩ := Content.sound_readFields (.free (.free (.withDefault
    (Content.sound_readOption (Term.proper_read fuel)) (by simp)
    (.free (.free .nil))))) hr
  cases expr with
  | none => exact allProper_nil
  | some e => exact hexpr e rfl

mutual

theorem Condition.proper_read : ∀ (fuel : Nat) (c : Content) (p : Condition),
    Condition.read fuel c = .ok p → AllProper p.stored
  | 0, _, _, h => nomatch h
  | fuel + 1, c, p, h => by
    rw [Condition.read] at h
    obtain ⟨⟨kind, value⟩, -, h⟩ := bind_eq_ok h
    cases kind with
    | compare =>
      obtain ⟨⟨operator, lhs, rhs, ⟨⟩⟩, hr, h⟩ := bind_eq_ok h
      obtain rfl := Except.ok.inj h
      obtain ⟨-, hlhs, hrhs, -⟩ := Content.sound_readFields (.free (.required
        (Term.proper_read fuel) (.required (Term.proper_read fuel) .nil))) hr
      exact allProper_append hlhs hrhs
    | isNull | isNotNull =>
      obtain ⟨expr, hexpr, h⟩ := bind_eq_ok h
      obtain rfl := Except.ok.inj h
      exact Content.sound_readOnly (Term.proper_read fuel) hexpr
    | and | or =>
      obtain ⟨operands, hoperands, h⟩ := bind_eq_ok h
      obtain rfl := Except.ok.inj h
      rw [Condition.stored, Condition.storedOperands_eq]
      exact allProper_flatMap
        (Content.sound_readOnly (Content.sound_readList (Condition.proper_read fuel)) hoperands)
    | not =>
      obtain ⟨operand, hoperand, h⟩ := bind_eq_ok h
      obtain rfl := Except.ok.inj h
      have hproper := Content.sound_readOnly (Condition.proper_read fuel) hoperand
      exact hproper
    | existsIn =>
      obtain ⟨statements, hstatements, h⟩ := bind_eq_ok h
      obtain rfl := Except.ok.inj h
      rw [Condition.stored, Statement.storedAll_eq]
      exact allProper_flatMap
        (Content.sound_readOnly (Content.sound_readList (Statement.proper_read fuel)) hstatements)

theorem Statement.proper_readBody (kind : Statement.Kind) : ∀ (fuel : Nat) (body : Content)
    (s : Statement), Statement.readBody kind fuel body = .ok s → AllProper s.stored
  | 0, _, _, h => nomatch h
  | fuel + 1, body, s, h => by
    -- free fields hold no JSON, and the reader of each other field gives proper values
    unfold Statement.readBody at h
    cases kind with
    | create =>
      obtain ⟨⟨node, properties, ⟨⟩⟩, hr, h⟩ := bind_eq_ok h
      obtain rfl := Except.ok.inj h
      obtain ⟨-, hproperties, -⟩ := Content.sound_readFields (.free (.withDefault
        (P := fun properties => (Json.obj properties).Proper)
        (fun _ _ => Content.proper_readMembers) Json.proper_empty .nil)) hr
      exact allProper_singleton hproperties
    | matching =>
      obtain ⟨⟨pattern, isOptional, condition, ⟨⟩⟩, hr, h⟩ := bind_eq_ok h
      obtain rfl := Except.ok.inj h
      obtain ⟨-, -, hcondition, -⟩ := Content.sound_readFields (.free (.free (.withDefault
        (Content.sound_readOption (Condition.proper_read fuel)) (by simp) .nil))) hr
      cases condition with
      | none => exact allProper_nil
      | some condition => exact hcondition condition rfl
    | call =>
      obtain ⟨⟨statements, ⟨⟩⟩, hr, h⟩ := bind_eq_ok h
      obtain rfl := Except.ok.inj h
      obtain ⟨hstatements, -⟩ := Content.sound_readFields (.required
        (Content.sound_readList (Statement.proper_read fuel)) .nil) hr
      rw [Statement.stored, Statement.storedAll_eq]
      exact allProper_flatMap hstatements
    | withItems =>
      obtain ⟨⟨items, ⟨⟩⟩, hr, h⟩ := bind_eq_ok h
      obtain rfl := Except.ok.inj h
      obtain ⟨hitems, -⟩ := Content.sound_readFields (.required
        (Content.sound_readList WithUse.proper_read) .nil) hr
      exact allProper_flatMap hitems
    | set =>
      obtain ⟨⟨target, properties, ⟨⟩⟩, hr, h⟩ := bind_eq_ok h
      obtain rfl := Except.ok.inj h
      obtain ⟨-, hproperties, -⟩ := Content.sound_readFields (.free (.required
        (P := fun properties => (Json.obj properties).Proper)
        (fun _ _ => Content.proper_readMembers) .nil)) hr
      exact allProper_singleton hproperties
    | orderBy =>
      obtain ⟨⟨items, ⟨⟩⟩, hr, h⟩ := bind_eq_ok h
      obtain rfl := Except.ok.inj h
      obtain ⟨hitems, -⟩ := Content.sound_readFields (.required
        (Content.sound_readList OrderUse.proper_read) .nil) hr
      exact allProper_flatMap hitems
    | result =>
      obtain ⟨use, huse, h⟩ := bind_eq_ok h
      obtain rfl := Except.ok.inj h
      exact ReturnUse.proper_readBody body use huse
    | withAll | skip | limit =>
      obtain ⟨r, -, h⟩ := bind_eq_ok h
      obtain rfl := Except.ok.inj h
      exact allProper_nil

theorem Statement.proper_read : ∀ (fuel : Nat) (c : Content) (s : Statement),
    Statement.read fuel c = .ok s → AllProper s.stored
  | 0, _, _, h => nomatch h
  | fuel + 1, c, s, h => by
    rw [Statement.read] at h
    obtain ⟨tagged, -, h⟩ := bind_eq_ok h
    exact Statement.proper_readBody tagged.kind fuel tagged.body s h

end

/-! ## Reading plans -/

/-- A table has no other entries than those that were put into it. -/
theorem Table.forall_ofList {α : Type} {P : α → Prop} {entries : List (String × α)}
    (h : ∀ entry ∈ entries, P entry.2) : ∀ entry ∈ (ofList entries).entries, P entry.2 := by
  refine List.foldlRecOn (motive := fun t : Table α => ∀ entry ∈ t.entries, P entry.2) entries _
    (List.forall_mem_nil _) ?_
  intro t ht entry hentry
  exact forall_put ht (h entry hentry)

/-- The values of a plan that is put together from its parts. -/
theorem allProper_stored {entities : List (String × EntityDecl)}
    {params : List (String × ParamDecl)} {statements : List Statement}
    (hparams : ∀ entry ∈ params, entry.2.value.Proper)
    (hstatements : ∀ s ∈ statements, AllProper s.stored) :
    AllProper (Plan.stored ⟨.ofList entities, .ofList params, statements⟩) := by
  rw [Plan.stored, Statement.storedAll_eq]
  refine allProper_append ?_ (allProper_flatMap hstatements)
  exact List.forall_mem_map.mpr
    (Table.forall_ofList (P := fun decl : ParamDecl => decl.value.Proper) hparams)

section Json

open Json (Draft)

theorem Statement.proper_ofDraft (d : Draft) (s : Statement) (h : Statement.ofDraft d = .ok s) :
    AllProper s.stored := by
  obtain ⟨tagged, -, h⟩ := bind_eq_ok h
  exact Statement.proper_readBody _ _ _ s h

theorem ParamDecl.proper_ofDraft (d : Draft) (p : ParamDecl) (h : ParamDecl.ofDraft d = .ok p) :
    p.value.Proper := by
  obtain ⟨⟨value, isPoint, ⟨⟩⟩, hr, h⟩ := bind_eq_ok h
  obtain rfl := Except.ok.inj h
  have hread : ∀ (d : Draft) (v : Json), d.readValue = .ok v → v.Proper := by
    intro d v hv
    obtain ⟨c, -, hv⟩ := bind_eq_ok hv
    exact Content.proper_readJson hv
  exact (Draft.sound_readRecord (.required hread (.free .nil)) hr).1

theorem proper_ofDraft {d : Draft} {plan : Plan} (h : ofDraft d = .ok plan) :
    AllProper plan.stored := by
  obtain ⟨⟨entities, params, statements, ⟨⟩⟩, hr, h⟩ := bind_eq_ok h
  obtain rfl := Except.ok.inj h
  obtain ⟨-, hparams, hstatements, -⟩ := Draft.sound_readRecord (.free (.withDefault
    (Draft.sound_readPairs ParamDecl.proper_ofDraft) (List.forall_mem_nil _) (.required
    (Draft.sound_readList Statement.proper_ofDraft) .nil))) hr
  exact allProper_stored hparams hstatements

end Json

section Yaml

open Yaml (Node)

theorem Statement.proper_ofNode (n : Node) (s : Statement) (h : Statement.ofNode n = .ok s) :
    AllProper s.stored := by
  obtain ⟨c, -, h⟩ := bind_eq_ok h
  obtain ⟨tagged, -, h⟩ := bind_eq_ok h
  exact Statement.proper_readBody _ _ _ s h

theorem ParamDecl.proper_ofNode (n : Node) (p : ParamDecl) (h : ParamDecl.ofNode n = .ok p) :
    p.value.Proper := by
  obtain ⟨⟨value, isPoint, ⟨⟩⟩, hr, h⟩ := bind_eq_ok h
  obtain rfl := Except.ok.inj h
  exact (Node.sound_readRecord (.required (P := Json.Proper) (fun _ _ => Node.proper_readJson)
    (.free .nil)) hr).1

theorem proper_ofYamlText {text : String} {plan : Plan} (h : ofYamlText text = .ok plan) :
    AllProper plan.stored := by
  obtain ⟨⟨entities, params, statements, ⟨⟩⟩, hr, h⟩ := bind_eq_ok h
  obtain rfl := Except.ok.inj h
  obtain ⟨-, hparams, hstatements, -⟩ := Node.sound_readDocument (.free (.withDefault
    (Node.sound_readPairs ParamDecl.proper_ofNode) (List.forall_mem_nil _) (.required
    (Node.sound_readList Statement.proper_ofNode) .nil))) hr
  exact allProper_stored hparams hstatements

end Yaml

/-- A plan that was read from a text stores proper values only. -/
theorem proper_ofText {format : Format} {text : String} {plan : Plan}
    (h : ofText format text = .ok plan) : ∀ v ∈ plan.stored, v.Proper := by
  cases format with
  | json =>
    obtain ⟨read, hread, h⟩ := bind_eq_ok (mapError_eq_ok h)
    obtain ⟨-, -, h⟩ := bind_eq_ok h
    obtain rfl := Except.ok.inj h
    exact proper_ofDraft hread
  | yaml => exact proper_ofYamlText (mapError_eq_ok h)

end Plan

end GraphQuery
