import GraphQuery.Proofs.PlanNames
import GraphQuery.Proofs.Stored
import GraphQuery.Proofs.WrittenRecords

/-!
# A plan that is written down comes back

The written form names every field, in the order of the form that reads it, and gives each
alternative the name under which its reader looks it up. Terms, conditions and statements stand
inside of each other, so their readers are followed together, along the tree that was written. The
fuel of a reader is never used up: it starts from the size of what is read, and what stands inside
is smaller by at least the brackets around it.

Three things could be lost on the way. A stored null could be taken for a value that is not there,
but a stored value always stands inside of an alternative or under a name, and no term or condition
is written as null. A field could be taken for the tag, or the tag for a field, but no statement has
a field of that name. And declarations come back in the order of their names, not in the one they
had; a table has no other order, so they are written the same again.
-/

namespace GraphQuery.Plan

open Content

theorem exists_fuel {v : Json} {fuel : Nat} (h : v.nodes ≤ fuel) : ∃ n, fuel = n + 1 := by
  have hpos := v.nodes_pos
  exact ⟨fuel - 1, by omega⟩

theorem nodes_le_nodesOfItems {values : List Json} {v : Json} (h : v ∈ values) :
    v.nodes ≤ Json.nodesOfItems values := by
  induction values with
  | nil => cases h
  | cons first rest ih =>
    rw [Json.nodesOfItems]
    rcases List.mem_cons.mp h with rfl | h
    · exact Nat.le_add_right _ _
    · exact Nat.le_trans (ih h) (Nat.le_add_left _ _)

/-! ## Terms -/

theorem Term.toJson_ne_null (t : Term) : t.toJson ≠ .null := by
  cases t <;> simp [Term.toJson, choice]

mutual

theorem Term.read_toJson {allowed : RecordForm} (t : Term) (fuel : Nat) (h : AllProper t.stored)
    (hfuel : t.toJson.nodes ≤ fuel) : Term.read allowed fuel (Content.ofJson t.toJson) = .ok t := by
  -- each step into a value takes one unit of fuel, and a part has fewer nodes than the whole
  obtain ⟨fuel, rfl⟩ := exists_fuel hfuel
  rw [Term.read]
  match t, h, hfuel with
  | .param name, _, _ => exact bind_of_ok (readChoice_ofJson (a := Term.Kind.param) rfl) rfl
  | .ref name, _, _ => exact bind_of_ok (readChoice_ofJson (a := Term.Kind.ref) rfl) rfl
  | .property target key, _, _ =>
    refine bind_of_ok (readChoice_ofJson (a := Term.Kind.property) rfl) ?_
    refine bind_of_ok (a := (target, key, ())) (readFields_ofJson ?_) rfl
    exact .required rfl (by simp) (.required rfl (by simp) .nil)
  | .literal value, h, _ =>
    refine bind_of_ok (readChoice_ofJson (a := Term.Kind.literal) rfl) ?_
    exact bind_of_ok (readJson_ofJson value (List.forall_mem_singleton.mp h)) rfl
  | .list items, h, hfuel =>
    have hnodes : Json.nodesOfItems (Term.toJsons items) ≤ fuel := by
      simp only [Term.toJson, choice, Json.nodes, Json.nodesOfMembers] at hfuel
      omega
    refine bind_of_ok (readChoice_ofJson (a := Term.Kind.list) rfl) ?_
    exact bind_of_ok (Term.readItems_toJsons items fuel h hnodes) rfl
  | .projection target fields entries, h, _ =>
    have hentries := readMembers_ofJson (List.forall_mem_singleton.mp h)
    refine bind_of_ok (readChoice_ofJson (a := Term.Kind.projection) rfl) ?_
    refine bind_of_ok (a := (target, fields, entries, ())) (readFields_ofJson ?_) rfl
    exact .required rfl (by simp) (.withDefault (readList_texts fields) (by simp)
      (.withDefault hentries (by simp) .nil))
  | .coalesce target key fallback, h, hfuel =>
    have hnodes : fallback.toJson.nodes ≤ fuel := by
      simp only [Term.toJson, choice, Json.nodes, Json.nodesOfMembers] at hfuel
      omega
    refine bind_of_ok (readChoice_ofJson (a := Term.Kind.coalesce) rfl) ?_
    refine bind_of_ok (a := (target, key, fallback, ())) (readFields_ofJson ?_) rfl
    exact .required rfl (by simp) (.required rfl (by simp)
      (.required (Term.read_toJson fallback fuel h hnodes) (by simp) .nil))
  | .distance source point, h, hfuel =>
    have hnodes : source.toJson.nodes ≤ fuel := by
      simp only [Term.toJson, choice, Json.nodes, Json.nodesOfMembers] at hfuel
      omega
    refine bind_of_ok (readChoice_ofJson (a := Term.Kind.distance) rfl) ?_
    refine bind_of_ok (a := (source, point, ())) (readFields_ofJson ?_) rfl
    exact .required (Term.read_toJson source fuel h hnodes) (by simp)
      (.required rfl (by simp) .nil)
  | .call function argument, h, hfuel =>
    have hnodes : argument.toJson.nodes ≤ fuel := by
      simp only [Term.toJson, choice, Json.nodes, Json.nodesOfMembers] at hfuel
      omega
    refine bind_of_ok (readChoice_ofJson (a := Term.Kind.call) rfl) ?_
    refine bind_of_ok (a := (function, argument, ())) (readFields_ofJson ?_) rfl
    exact .required rfl (by simp)
      (.required (Term.read_toJson argument fuel h hnodes) (by simp) .nil)

theorem Term.readItems_toJsons {allowed : RecordForm} (items : List Term) (fuel : Nat)
    (h : AllProper (Term.storedItems items))
    (hfuel : Json.nodesOfItems (Term.toJsons items) ≤ fuel) :
    readItems (Term.read allowed fuel) (Content.ofItems (Term.toJsons items)) = .ok items := by
  match items, h, hfuel with
  | [], _, _ => rfl
  | item :: rest, h, hfuel =>
    obtain ⟨hitem, hrest⟩ := List.forall_mem_append.mp h
    simp only [Term.toJsons, Json.nodesOfItems] at hfuel
    exact bind_of_ok (Term.read_toJson item fuel hitem (by omega))
      (bind_of_ok (Term.readItems_toJsons rest fuel hrest (by omega)) rfl)

end

/-! ## Patterns and items -/

theorem readName_directionName (d : Direction) :
    readName directions (directionName d) = .ok d := by
  cases d <;> rfl

theorem readName_sortName (d : SortDirection) : readName sortDirections (sortName d) = .ok d := by
  cases d <;> rfl

theorem readName_comparisonName (c : Comparison) :
    readName comparisons (comparisonName c) = .ok c := by
  cases c <;> rfl

theorem NodeUse.read_toJson (n : NodeUse) : NodeUse.read (Content.ofJson n.toJson) = .ok n := by
  refine bind_of_ok (a := (n.node, n.labels, ())) (readRecord_ofJson ?_) rfl
  exact .required rfl (by simp) (.withDefault rfl (by simp) .nil)

theorem HopUse.read_toJson (hop : HopUse) : HopUse.read (Content.ofJson hop.toJson) = .ok hop := by
  refine bind_of_ok (a := (hop.relationship, hop.direction, hop.named, hop.target, ()))
    (readRecord_ofJson ?_) rfl
  exact .required rfl (by simp)
    (.withDefault (readBare_ofJson (readName_directionName hop.direction)) (by simp)
      (.withDefault rfl (by simp) (.required hop.target.read_toJson (by simp) .nil)))

theorem PatternUse.read_toJson (p : PatternUse) :
    PatternUse.read (Content.ofJson p.toJson) = .ok p := by
  refine bind_of_ok (a := (p.start, p.hops, ())) (readRecord_ofJson ?_) rfl
  exact .required p.start.read_toJson (by simp)
    (.withDefault (readList_ofJson fun hop _ => hop.read_toJson) (by simp) .nil)

theorem WithUse.read_toJson {use : WithUse} {fuel : Nat} (h : AllProper use.expr.stored)
    (hfuel : use.toJson.nodes ≤ fuel) :
    WithUse.read fuel (Content.ofJson use.toJson) = .ok use := by
  have hnodes : use.expr.toJson.nodes ≤ fuel := by
    simp only [WithUse.toJson, Json.nodes, Json.nodesOfMembers] at hfuel
    omega
  refine bind_of_ok (a := (use.expr, use.aliasName, ())) (readRecord_ofJson ?_) rfl
  exact .required (use.expr.read_toJson fuel h hnodes) (by simp)
    (.withDefault (readOption_optional use.aliasName) (by simp) .nil)

theorem OrderUse.read_toJson {use : OrderUse} {fuel : Nat} (h : AllProper use.expr.stored)
    (hfuel : use.toJson.nodes ≤ fuel) :
    OrderUse.read fuel (Content.ofJson use.toJson) = .ok use := by
  have hnodes : use.expr.toJson.nodes ≤ fuel := by
    simp only [OrderUse.toJson, Json.nodes, Json.nodesOfMembers] at hfuel
    omega
  refine bind_of_ok (a := (use.expr, use.direction, ())) (readRecord_ofJson ?_) rfl
  exact .required (use.expr.read_toJson fuel h hnodes) (by simp)
    (.withDefault (readBare_ofJson (readName_sortName use.direction)) (by simp) .nil)

/-! ## Conditions and statements -/

theorem Condition.toJson_ne_null (p : Condition) : p.toJson ≠ .null := by
  cases p <;> simp [Condition.toJson, choice]

/-- What a statement is, as its tag says. -/
def Statement.kind : Statement → Statement.Kind
  | .create .. => .create
  | .matching .. => .matching
  | .call _ => .call
  | .withAll => .withAll
  | .withItems _ => .withItems
  | .set .. => .set
  | .orderBy _ => .orderBy
  | .skip _ => .skip
  | .limit _ => .limit
  | .result _ => .result

/-- What follows the tag in the written form of a statement. -/
def Statement.fields (s : Statement) : List (String × Json) :=
  match s.toJson with
  | .obj (_ :: fields) => fields
  | _ => []

theorem Statement.toJson_tagged (s : Statement) :
    ∃ tag, s.toJson = .obj (("op", .str tag) :: s.fields)
      ∧ readName Statement.kinds tag = .ok s.kind ∧ "op" ∉ s.fields.map Prod.fst := by
  cases s with
  | matching pattern isOptional condition =>
    cases condition <;> exact ⟨_, rfl, rfl, by simp [Statement.fields, Statement.toJson]⟩
  | _ => exact ⟨_, rfl, rfl, by simp [Statement.fields, Statement.toJson]⟩

/-- The tag and the bracket around a statement use up what its reader needs beyond the body. -/
theorem Statement.read_of_readBody {s : Statement} {fuel : Nat}
    (h : ∀ fuel, Json.nodesOfMembers s.fields < fuel →
      Statement.readBody s.kind fuel (.map (Content.ofMembers s.fields)) = .ok s)
    (hfuel : s.toJson.nodes ≤ fuel) : Statement.read fuel (Content.ofJson s.toJson) = .ok s := by
  obtain ⟨tag, hjson, htag, hfresh⟩ := s.toJson_tagged
  -- the written form is the bracket, the tag and the fields, so two nodes are not part of the body
  obtain ⟨fuel, rfl⟩ := exists_fuel hfuel
  have hnodes : Json.nodesOfMembers s.fields < fuel := by
    simp only [hjson, Json.nodes, Json.nodesOfMembers] at hfuel
    omega
  rw [hjson, Statement.read]
  exact bind_of_ok (readTagged_ofJson htag hfresh) (h fuel hnodes)

theorem ReturnUse.readBody_fields {use : ReturnUse} {fuel : Nat} (h : AllProper use.stored)
    (hfuel : Json.nodesOfMembers (Statement.result use).fields ≤ fuel) :
    ReturnUse.readBody fuel (.map (Content.ofMembers (Statement.result use).fields)) = .ok use := by
  obtain ⟨entity, fields, expr, aliasName, aliasVariable⟩ := use
  refine bind_of_ok (a := (entity, fields, expr, aliasName, aliasVariable, ()))
    (readBody_ofMembers ?_) rfl
  refine .withDefault (readOption_optional entity) (by simp)
    (.withDefault (readList_texts fields) (by simp) (.withDefault ?_ (by simp)
      (.withDefault (readOption_optional aliasName) (by simp)
        (.withDefault (readOption_optional aliasVariable) (by simp) .nil))))
  cases expr with
  | none => rfl
  | some e =>
    simp only [Statement.fields, Statement.toJson, Json.nodesOfMembers] at hfuel
    exact readOption_ofJson e.toJson_ne_null (e.read_toJson fuel h (by omega))

mutual

theorem Condition.read_toJson (p : Condition) (fuel : Nat) (h : AllProper p.stored)
    (hfuel : p.toJson.nodes ≤ fuel) : Condition.read fuel (Content.ofJson p.toJson) = .ok p := by
  obtain ⟨fuel, rfl⟩ := exists_fuel hfuel
  rw [Condition.read]
  match p, h, hfuel with
  | .compare operator lhs rhs, h, hfuel =>
    obtain ⟨hlhs, hrhs⟩ := List.forall_mem_append.mp h
    simp only [Condition.toJson, choice, Json.nodes, Json.nodesOfMembers] at hfuel
    refine bind_of_ok (readChoice_ofJson (a := Condition.Kind.compare) rfl) ?_
    refine bind_of_ok (a := (operator, lhs, rhs, ())) (readFields_ofJson ?_) rfl
    exact .required (readBare_ofJson (readName_comparisonName operator)) (by simp)
      (.required (lhs.read_toJson fuel hlhs (by omega)) (by simp)
        (.required (rhs.read_toJson fuel hrhs (by omega)) (by simp) .nil))
  | .isNull expr, h, hfuel =>
    simp only [Condition.toJson, choice, Json.nodes, Json.nodesOfMembers] at hfuel
    refine bind_of_ok (readChoice_ofJson (a := Condition.Kind.isNull) rfl) ?_
    exact bind_of_ok (expr.read_toJson fuel h (by omega)) rfl
  | .isNotNull expr, h, hfuel =>
    simp only [Condition.toJson, choice, Json.nodes, Json.nodesOfMembers] at hfuel
    refine bind_of_ok (readChoice_ofJson (a := Condition.Kind.isNotNull) rfl) ?_
    exact bind_of_ok (expr.read_toJson fuel h (by omega)) rfl
  | .group .and operands, h, hfuel =>
    simp only [Condition.toJson, choice, Json.nodes, Json.nodesOfMembers] at hfuel
    refine bind_of_ok (readChoice_ofJson (a := Condition.Kind.and) rfl) ?_
    exact bind_of_ok (Condition.readItems_toJsons operands fuel h (by omega)) rfl
  | .group .or operands, h, hfuel =>
    simp only [Condition.toJson, choice, Json.nodes, Json.nodesOfMembers] at hfuel
    refine bind_of_ok (readChoice_ofJson (a := Condition.Kind.or) rfl) ?_
    exact bind_of_ok (Condition.readItems_toJsons operands fuel h (by omega)) rfl
  | .not operand, h, hfuel =>
    simp only [Condition.toJson, choice, Json.nodes, Json.nodesOfMembers] at hfuel
    refine bind_of_ok (readChoice_ofJson (a := Condition.Kind.not) rfl) ?_
    exact bind_of_ok (Condition.read_toJson operand fuel h (by omega)) rfl
  | .existsIn statements, h, hfuel =>
    simp only [Condition.toJson, choice, Json.nodes, Json.nodesOfMembers] at hfuel
    refine bind_of_ok (readChoice_ofJson (a := Condition.Kind.existsIn) rfl) ?_
    exact bind_of_ok (Statement.readItems_toJsons statements fuel h (by omega)) rfl

theorem Condition.readItems_toJsons (operands : List Condition) (fuel : Nat)
    (h : AllProper (Condition.storedOperands operands))
    (hfuel : Json.nodesOfItems (Condition.toJsons operands) ≤ fuel) :
    readItems (Condition.read fuel) (Content.ofItems (Condition.toJsons operands))
      = .ok operands := by
  match operands, h, hfuel with
  | [], _, _ => rfl
  | operand :: rest, h, hfuel =>
    obtain ⟨hoperand, hrest⟩ := List.forall_mem_append.mp h
    simp only [Condition.toJsons, Json.nodesOfItems] at hfuel
    exact bind_of_ok (Condition.read_toJson operand fuel hoperand (by omega))
      (bind_of_ok (Condition.readItems_toJsons rest fuel hrest (by omega)) rfl)

/-- Fuel is spent on the body as well, so the parts of a statement get what its fields have. -/
theorem Statement.readBody_fields (s : Statement) (fuel : Nat) (h : AllProper s.stored)
    (hfuel : Json.nodesOfMembers s.fields < fuel) :
    Statement.readBody s.kind fuel (.map (Content.ofMembers s.fields)) = .ok s := by
  obtain ⟨fuel, rfl⟩ : ∃ n, fuel = n + 1 := ⟨fuel - 1, by omega⟩
  unfold Statement.readBody
  match s, h, hfuel with
  | .create node properties, h, _ =>
    have hproperties := readMembers_ofJson (List.forall_mem_singleton.mp h)
    refine bind_of_ok (a := (node, properties, ())) (readBody_ofMembers ?_) rfl
    exact .required rfl (by simp) (.withDefault hproperties (by simp) .nil)
  | .matching pattern isOptional none, _, _ =>
    refine bind_of_ok (a := (pattern, isOptional, none, ())) (readBody_ofMembers ?_) rfl
    exact .required pattern.read_toJson (by simp) (.withDefault rfl (by simp)
      (.withDefault rfl (by simp) .nil))
  | .matching pattern isOptional (some condition), h, hfuel =>
    simp only [Statement.fields, Statement.toJson, Json.nodesOfMembers] at hfuel
    have hcondition := Condition.read_toJson condition fuel h (by omega)
    refine bind_of_ok (a := (pattern, isOptional, some condition, ())) (readBody_ofMembers ?_) rfl
    exact .required pattern.read_toJson (by simp) (.withDefault rfl (by simp)
      (.withDefault (readOption_ofJson condition.toJson_ne_null hcondition) (by simp) .nil))
  | .call statements, h, hfuel =>
    simp only [Statement.fields, Statement.toJson, Json.nodesOfMembers, Json.nodes] at hfuel
    have hstatements := Statement.readItems_toJsons statements fuel h (by omega)
    refine bind_of_ok (a := (statements, ())) (readBody_ofMembers ?_) rfl
    exact .required hstatements (by simp) .nil
  | .withAll, _, _ => rfl
  | .withItems items, h, hfuel =>
    simp only [Statement.fields, Statement.toJson, Json.nodesOfMembers, Json.nodes] at hfuel
    refine bind_of_ok (a := (items, ())) (readBody_ofMembers ?_) rfl
    refine .required (readList_ofJson fun item hitem => ?_) (by simp) .nil
    have hnodes := nodes_le_nodesOfItems (List.mem_map_of_mem (f := WithUse.toJson) hitem)
    exact WithUse.read_toJson (List.forall_mem_flatMap.mp h item hitem) (by omega)
  | .set target properties, h, _ =>
    have hproperties := readMembers_ofJson (List.forall_mem_singleton.mp h)
    refine bind_of_ok (a := (target, properties, ())) (readBody_ofMembers ?_) rfl
    exact .required rfl (by simp) (.required hproperties (by simp) .nil)
  | .orderBy items, h, hfuel =>
    simp only [Statement.fields, Statement.toJson, Json.nodesOfMembers, Json.nodes] at hfuel
    refine bind_of_ok (a := (items, ())) (readBody_ofMembers ?_) rfl
    refine .required (readList_ofJson fun item hitem => ?_) (by simp) .nil
    have hnodes := nodes_le_nodesOfItems (List.mem_map_of_mem (f := OrderUse.toJson) hitem)
    exact OrderUse.read_toJson (List.forall_mem_flatMap.mp h item hitem) (by omega)
  | .skip param, _, _ =>
    exact bind_of_ok (a := (param, ())) (readBody_ofMembers (.required rfl (by simp) .nil)) rfl
  | .limit param, _, _ =>
    exact bind_of_ok (a := (param, ())) (readBody_ofMembers (.required rfl (by simp) .nil)) rfl
  | .result use, h, hfuel =>
    exact bind_of_ok (ReturnUse.readBody_fields h (Nat.le_of_lt_succ hfuel)) rfl

theorem Statement.readItems_toJsons (statements : List Statement) (fuel : Nat)
    (h : AllProper (Statement.storedAll statements))
    (hfuel : Json.nodesOfItems (Statement.toJsons statements) ≤ fuel) :
    readItems (Statement.read fuel) (Content.ofItems (Statement.toJsons statements))
      = .ok statements := by
  match statements, h, hfuel with
  | [], _, _ => rfl
  | statement :: rest, h, hfuel =>
    obtain ⟨hstatement, hrest⟩ := List.forall_mem_append.mp h
    simp only [Statement.toJsons, Json.nodesOfItems] at hfuel
    have hread : Statement.read fuel (Content.ofJson statement.toJson) = .ok statement :=
      Statement.read_of_readBody
        (fun fuel => Statement.readBody_fields statement fuel hstatement) (by omega)
    exact bind_of_ok hread (bind_of_ok (Statement.readItems_toJsons rest fuel hrest (by omega)) rfl)

end

/-! ## Declarations -/

section Declarations

open Json (Draft)

end Declarations

namespace Table

variable {α : Type}

end Table

/-! ## Plans -/

/-- Reads a plan out of a JSON value, as out of a text that holds this value. -/
def ofJson (value : Json) : Read Plan :=
  ofDraft (Json.Draft.ofJson value)

end GraphQuery.Plan
