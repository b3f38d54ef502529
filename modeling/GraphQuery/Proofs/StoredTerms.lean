import Mathlib.Logic.Function.Iterate
import GraphQuery.Proofs.Carries
import GraphQuery.Proofs.Stored

/-!
# Terms inside stored values

The compilation of a term does not stay inside the term. Where a value is stored it leaves it, reads
another term out of the value and goes on with that one, which stores values of its own. Nothing in
the shape of the terms says that this ends.

It ends because of where stored values come from. A term is read from a value, and each value stored
in it is a proper part of that value, so it has fewer nodes. One step of the compilation, with the
compilation of other terms left open, asks for lighter terms only; filling in the gap with any
function whatever and unrolling the step often enough gives the compilation itself.

The entries of a map are compiled one after the other in the order in which they stand, each once,
up to the first that fails.
-/

namespace GraphQuery.Plan

/-! ## Lists whose items may fail -/

section Traversal

variable {ε α β : Type} {f g : α → Except ε β} {items : List α}

theorem mapM_congr_mem (h : ∀ a ∈ items, f a = g a) : items.mapM f = items.mapM g := by
  induction items with
  | nil => rfl
  | cons a rest ih =>
    obtain ⟨ha, hrest⟩ := List.forall_mem_cons.mp h
    rw [List.mapM_cons, List.mapM_cons, ha, ih hrest]

theorem mapM_cons_of_ok {a : α} {b : β} (h : f a = .ok b) :
    (a :: items).mapM f = (items.mapM f).map (b :: ·) := by
  rw [List.mapM_cons, h]
  cases items.mapM f <;> rfl

theorem mapM_cons_of_error {a : α} {why : ε} (h : f a = .error why) :
    (a :: items).mapM f = .error why := by
  rw [List.mapM_cons, h]
  rfl

/-- All items together succeed with what they give one by one. -/
theorem mapM_eq_ok_iff {values : List β} :
    items.mapM f = .ok values ↔ List.Forall₂ (fun a b => f a = .ok b) items values := by
  induction items generalizing values with
  | nil =>
    rw [List.forall₂_nil_left_iff]
    exact ⟨fun h => (Except.ok.inj h).symm, fun h => congrArg Except.ok h.symm⟩
  | cons a rest ih =>
    rw [List.forall₂_cons_left_iff]
    cases ha : f a with
    | error why => simp [mapM_cons_of_error ha]
    | ok b =>
      rw [mapM_cons_of_ok ha]
      constructor
      · intro h
        obtain ⟨others, hothers, rfl⟩ := map_eq_ok h
        exact ⟨b, others, rfl, ih.mp hothers, rfl⟩
      · rintro ⟨_, others, hb, hothers, rfl⟩
        rw [ih.mpr hothers, Except.ok.inj hb]
        rfl

/-- They fail as the first one does that fails, whatever comes after it. -/
theorem mapM_eq_error_iff {why : ε} :
    items.mapM f = .error why ↔ ∃ before a after, items = before ++ a :: after
      ∧ (∀ b ∈ before, ∃ value, f b = .ok value) ∧ f a = .error why := by
  constructor
  · intro h
    induction items with
    | nil => cases h
    | cons a rest ih =>
      cases ha : f a with
      | error first =>
        rw [mapM_cons_of_error ha] at h
        obtain rfl := Except.error.inj h
        exact ⟨[], a, rest, rfl, List.forall_mem_nil _, ha⟩
      | ok b =>
        have hrest : rest.mapM f = .error why := by
          rw [mapM_cons_of_ok ha] at h
          cases hr : rest.mapM f with
          | error first => rw [hr] at h; exact h
          | ok others => rw [hr] at h; cases h
        obtain ⟨before, a', after, rfl, hbefore, ha'⟩ := ih hrest
        exact ⟨a :: before, a', after, rfl, List.forall_mem_cons.mpr ⟨⟨b, ha⟩, hbefore⟩, ha'⟩
  · rintro ⟨before, a, after, rfl, hbefore, ha⟩
    -- what succeeds before the failing item is passed over
    induction before with
    | nil => exact mapM_cons_of_error ha
    | cons b before ih =>
      obtain ⟨⟨value, hb⟩, hrest⟩ := List.forall_mem_cons.mp hbefore
      rw [List.cons_append, mapM_cons_of_ok hb, ih hrest]
      rfl

end Traversal

/-! ## Stored values get smaller -/

/-- The value is a literal or the value of a projection entry somewhere in the term. -/
inductive Term.Stores : Term → Json → Prop
  | literal {value : Json} : Stores (.literal value) value
  | entry {target : String} {fields : List String} {entries : List (String × Json)}
      {entry : String × Json} (h : entry ∈ entries) :
      Stores (.projection target fields entries) entry.2
  | item {items : List Term} {item : Term} {value : Json} (h : item ∈ items)
      (hitem : Stores item value) : Stores (.list items) value
  | fallback {target key : String} {fallback : Term} {value : Json}
      (h : Stores fallback value) : Stores (.coalesce target key fallback) value
  | source {source : Term} {point : String} {value : Json} (h : Stores source value) :
      Stores (.distance source point) value
  | argument {function : String} {argument : Term} {value : Json} (h : Stores argument value) :
      Stores (.call function argument) value

theorem nodes_le_nodesOfMembers {entries : List (String × Json)} {entry : String × Json}
    (h : entry ∈ entries) : entry.2.nodes ≤ Json.nodesOfMembers entries := by
  induction entries with
  | nil => cases h
  | cons first rest ih =>
    simp only [Json.nodesOfMembers]
    rcases List.mem_cons.mp h with rfl | hrest
    · omega
    · have := ih hrest
      omega

theorem Term.weight_le_of_mem {items : List Term} {item : Term} (h : item ∈ items) :
    item.weight ≤ Term.weights items := by
  induction items with
  | nil => cases h
  | cons first rest ih =>
    simp only [Term.weights]
    rcases List.mem_cons.mp h with rfl | hrest
    · omega
    · have := ih hrest
      omega

/-- The weight of a term covers what it stores. -/
theorem Term.Stores.nodes_lt_weight {t : Term} {w : Json} (h : t.Stores w) :
    w.nodes < t.weight := by
  induction h with
  | literal => simp only [Term.weight]; omega
  | entry h =>
    have := nodes_le_nodesOfMembers h
    simp only [Term.weight]; omega
  | item h _ ih =>
    have := Term.weight_le_of_mem h
    simp only [Term.weight]; omega
  | fallback _ ih | source _ ih | argument _ ih => simp only [Term.weight]; omega

/-- **What a term stores is smaller than the content the term was read from**, in a document too. -/
theorem Term.Stores.nodes_lt_content {allowed : Content.RecordForm} {fuel : Nat} {c : Content}
    {w : Json} {t : Term} (ht : Term.read allowed fuel c = .ok t) (h : t.Stores w) :
    w.nodes < c.nodes :=
  Nat.lt_of_lt_of_le h.nodes_lt_weight (Term.weight_read ht)

theorem Term.Stores.nodes_lt {v w : Json} {t : Term} (ht : Term.ofJson v = .ok t)
    (h : t.Stores w) : w.nodes < v.nodes := by
  rw [← Content.nodes_ofJson v]
  exact h.nodes_lt_content ht

/-! ## One step of the compilation -/

section Step

variable (s : Scope) (inner : Term → Compile Expr)

/-- An entry is read where it is met, and what comes out is compiled. -/
def compileEntry (entry : String × Json) : Compile (String × Expr) := do
  let t ← (Term.ofJson entry.2).mapError (.storedValue entry.1)
  let e ← inner t
  return (entry.1, e)

theorem compileEntry_of_error {entry : String × Json} {why : Unread}
    (hwhy : Term.ofJson entry.2 = .error why) :
    compileEntry inner entry = .error (.storedValue entry.1 why) := by
  rw [compileEntry, hwhy]
  rfl

theorem compileEntry_of_ok {entry : String × Json} {t : Term}
    (ht : Term.ofJson entry.2 = .ok t) :
    compileEntry inner entry = (inner t).map fun e => (entry.1, e) := by
  rw [compileEntry, ht]
  show (inner t >>= fun e => pure (entry.1, e)) = _
  cases inner t <;> rfl

/-- What the compilation does with a term by itself. All other terms are left to `inner`. -/
def compileStep : Term → Compile Expr
  | .param name => return .param (← s.param name)
  | .ref name => return .ref (← s.reference name)
  | .property target key => return .property (← s.reference target) key
  | .literal value => return .literal (← literal value)
  | .list items => return .list (← items.mapM inner)
  | .projection target fields entries => do
    let entries ← entries.mapM (compileEntry inner)
    let target ← s.reference target
    return .projection target
      (fields.map .shorthand ++ entries.map fun (key, value) => .entry key value)
  | .coalesce target key fallback => do
    let target ← s.reference target
    let fallback ← inner fallback
    return .call (.coalesce target key fallback)
  | .distance (.property target key) point => do
    let point ← s.param point
    let target ← s.reference target
    return .call (.distance (.property target key) point)
  | .distance source point => do
    let point ← s.param point
    let source ← inner source
    distanceFrom source point
  | .call function argument => do
    let argument ← inner argument
    applyNamed function argument

end Step

variable {s : Scope}

theorem compileTerms_eq_mapM (items : List Term) :
    compileTerms s items = items.mapM (compileTerm s) := by
  induction items with
  | nil => rw [compileTerms]; rfl
  | cons item rest ih => rw [compileTerms, List.mapM_cons, ih]

theorem compileStored_eq_mapM (entries : List (String × Json)) :
    compileStored s entries = entries.mapM (compileEntry (compileTerm s)) := by
  induction entries with
  | nil => rw [compileStored]; rfl
  | cons entry rest ih =>
    obtain ⟨key, value⟩ := entry
    cases ht : Term.ofJson value with
    | error why =>
      rw [compileStored_of_error ht, mapM_cons_of_error (compileEntry_of_error _ ht)]
    | ok t =>
      have hentry : compileEntry (compileTerm s) (key, value) = _ := compileEntry_of_ok _ ht
      rw [compileStored_of_ok ht]
      -- both stop here when the term does not compile
      cases he : compileTerm s t with
      | error why =>
        rw [he] at hentry
        rw [mapM_cons_of_error hentry]
        rfl
      | ok e =>
        rw [he] at hentry
        rw [mapM_cons_of_ok hentry, ih]
        rfl

/-- The compilation is its own step. -/
theorem compileTerm_eq_step (t : Term) : compileTerm s t = compileStep s (compileTerm s) t := by
  cases t with
  | list items => rw [compileTerm, compileTerms_eq_mapM]; rfl
  | projection target fields entries => rw [compileTerm, compileStored_eq_mapM]; rfl
  | distance source point =>
    cases source with
    | property target key => rw [compileTerm]; rfl
    | _ =>
      -- any other source is a term to be compiled; that it is no property is left to show
      rw [compileTerm]
      · rfl
      · rintro _ _ ⟨⟩
  | _ => rw [compileTerm]; rfl

/-! ## Steps come to an end -/

/-- The first term is a part of the second, or is read out of a value that the second stores. -/
inductive Term.Within : Term → Term → Prop
  | entry {target : String} {fields : List String} {entries : List (String × Json)}
      {entry : String × Json} {t : Term} (h : entry ∈ entries)
      (read : Term.ofJson entry.2 = .ok t) : Within t (.projection target fields entries)
  | item {items : List Term} {item : Term} (h : item ∈ items) : Within item (.list items)
  | fallback {target key : String} {fallback : Term} :
      Within fallback (.coalesce target key fallback)
  | source {source : Term} {point : String} : Within source (.distance source point)
  | argument {function : String} {argument : Term} : Within argument (.call function argument)

theorem Term.Within.weight_lt {t t' : Term} (h : Term.Within t t') : t.weight < t'.weight := by
  cases h with
  | entry h read =>
    have h₁ := Term.weight_ofJson read
    have h₂ := nodes_le_nodesOfMembers h
    simp only [Term.weight]; omega
  | item h =>
    have := Term.weight_le_of_mem h
    simp only [Term.weight]; omega
  | fallback | source | argument => simp only [Term.weight]; omega

theorem Term.within_wellFounded : WellFounded Term.Within :=
  Subrelation.wf Term.Within.weight_lt (measure Term.weight).wf

theorem compileEntry_congr {f g : Term → Compile Expr} {entry : String × Json}
    (h : ∀ t, Term.ofJson entry.2 = .ok t → f t = g t) :
    compileEntry f entry = compileEntry g entry := by
  cases ht : Term.ofJson entry.2 with
  | error why => rw [compileEntry_of_error f ht, compileEntry_of_error g ht]
  | ok t => rw [compileEntry_of_ok f ht, compileEntry_of_ok g ht, h t ht]

/-- A step asks for nothing but the terms within its own. -/
theorem compileStep_congr {f g : Term → Compile Expr} {t : Term}
    (h : ∀ t', Term.Within t' t → f t' = g t') : compileStep s f t = compileStep s g t := by
  cases t with
  | list items =>
    rw [compileStep, compileStep, mapM_congr_mem fun item hitem => h item (.item hitem)]
  | projection target fields entries =>
    rw [compileStep, compileStep, mapM_congr_mem fun entry hentry =>
      compileEntry_congr fun t' ht' => h t' (.entry hentry ht')]
  | coalesce target key fallback => rw [compileStep, compileStep, h fallback .fallback]
  | distance source point =>
    have hsource := h source .source
    cases source with
    | property target key => rfl
    | _ => simp only [compileStep, hsource]
  | call function argument => rw [compileStep, compileStep, h argument .argument]
  | param | ref | property | literal => rfl

/-- **Unrolled as often as the term is heavy, the step is the compilation**, whatever it starts
from: no part of the result is left to `start`. -/
theorem iterate_compileStep (start : Term → Compile Expr) {n : Nat} {t : Term}
    (hn : t.weight ≤ n) : (compileStep s)^[n] start t = compileTerm s t := by
  induction n generalizing t with
  | zero => exact absurd t.weight_pos (Nat.not_lt.mpr hn)
  | succ n ih =>
    -- the outermost step asks for lighter terms only, and for those the other steps are enough
    rw [Function.iterate_succ_apply', compileTerm_eq_step]
    exact compileStep_congr fun t' ht' =>
      ih (Nat.le_of_lt_succ (Nat.lt_of_lt_of_le ht'.weight_lt hn))

/-- The recursion of the compilation ends, whatever term it starts at. -/
structure Ends (s : Scope) : Prop where
  /-- The compilation is the step that turns to it for other terms. -/
  step : compileTerm s = compileStep s (compileTerm s)
  /-- No term has others within it without end. -/
  within : WellFounded Term.Within
  /-- Some number of steps gives the whole compilation of a term, with nothing left to `start`. -/
  term : ∀ start n t, t.weight ≤ n → (compileStep s)^[n] start t = compileTerm s t
  /-- The same for a map whose values are read one by one. -/
  map : ∀ start n entries, Json.nodesOfMembers entries ≤ n →
    entries.mapM (compileEntry ((compileStep s)^[n] start)) = compileStored s entries

theorem ends (s : Scope) : Ends s where
  step := funext compileTerm_eq_step
  within := Term.within_wellFounded
  term start _ _ hn := iterate_compileStep start hn
  map start n entries hn := by
    rw [compileStored_eq_mapM]
    refine mapM_congr_mem fun entry hentry => compileEntry_congr fun t ht => ?_
    have h₁ := Term.weight_ofJson ht
    have h₂ := nodes_le_nodesOfMembers hentry
    exact iterate_compileStep start (by omega)

/-! ## Entries in turn -/

/-- Entries are compiled one by one in their order, up to the first that fails. -/
structure InTurn (s : Scope) (entries : List (String × Json)) : Prop where
  /-- Each entry is compiled by itself, in its place. -/
  ok : ∀ es, compileStored s entries = .ok es ↔
    List.Forall₂ (fun entry e => compileEntry (compileTerm s) entry = .ok e) entries es
  /-- The first entry that fails decides, and all before it were compiled. -/
  error : ∀ why, compileStored s entries = .error why ↔
    ∃ before entry after, entries = before ++ entry :: after ∧
      (∀ b ∈ before, ∃ e, compileEntry (compileTerm s) b = .ok e) ∧
      compileEntry (compileTerm s) entry = .error why
  /-- Every key stays where it was. -/
  keys : ∀ es, compileStored s entries = .ok es → es.map Prod.fst = entries.map Prod.fst

theorem key_compileEntry {inner : Term → Compile Expr} {entry : String × Json}
    {e : String × Expr} (h : compileEntry inner entry = .ok e) : e.1 = entry.1 := by
  obtain ⟨t, -, h⟩ := bind_eq_ok h
  obtain ⟨value, -, h⟩ := bind_eq_ok h
  rw [← Except.ok.inj h]

theorem inTurn (s : Scope) (entries : List (String × Json)) : InTurn s entries where
  ok es := by rw [compileStored_eq_mapM, mapM_eq_ok_iff]
  error why := by rw [compileStored_eq_mapM, mapM_eq_error_iff]
  keys es h := by
    rw [compileStored_eq_mapM, mapM_eq_ok_iff] at h
    induction h with
    | nil => rfl
    | cons he _ ih => rw [List.map_cons, List.map_cons, key_compileEntry he, ih]

/-- **The compilation goes down to smaller values and comes to an end.** A value that is stored in a
term, however deep, is smaller than the value the term was read from; so the compilation ends at
every term and every map. It passes through a map from the first entry to the last, and no key comes
twice in a map that was read, inside a term or in a plan. -/
theorem stored_terms_end (s : Scope) :
    (∀ v t w, Term.ofJson v = .ok t → t.Stores w → w.nodes < v.nodes) ∧
    Ends s ∧
    (∀ entries, InTurn s entries) ∧
    (∀ v t entries, Term.ofJson v = .ok t → .obj entries ∈ t.stored →
      (entries.map Prod.fst).Nodup) ∧
    (∀ format text plan entries, ofText format text = .ok plan → .obj entries ∈ plan.stored →
      (entries.map Prod.fst).Nodup) :=
  ⟨fun _ _ _ ht h => h.nodes_lt ht, ends s, inTurn s,
    fun _ _ _ ht h => (Term.proper_read _ _ _ ht _ h).1,
    fun _ _ _ _ hplan h => (proper_ofText hplan _ h).1⟩

/-- A literal in an entry of a projection in a list. -/
theorem stored_terms_end_nested :
    (Json.obj [("literal", .int 1)]).nodes <
      (Json.obj [("list", .arr [.obj [("projection", .obj [("of", .str "a"),
        ("entries", .obj [("b", .obj [("literal", .int 1)])])])]])]).nodes :=
  (stored_terms_end ⟨[], []⟩).1 _ (.list [.projection "a" [] [("b", .obj [("literal", .int 1)])]]) _
    (by rfl) (.item List.mem_cons_self (.entry List.mem_cons_self))

end GraphQuery.Plan
