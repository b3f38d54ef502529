import GraphQuery.Proofs.BoundPlans
import GraphQuery.Proofs.Carries
import GraphQuery.Proofs.SameBuild

/-!
# Names of a plan and the order of its declarations

The declarations of a plan are taken in the order of their names, so in which order they are listed
is of no account. That order does depend on the names, and with it the number that each reference
gets in its arena. A plan under other names therefore compiles to another query, and what has to be
shown is that this is the old one relabelled.

The scope of a plan is an index from names to identities, in which neither occurs twice. A renaming
that keeps the declared names apart leads from the identity of a name to the identity of the new
name, and that is the relabelling. Names that are declared in addition take part in neither.
-/

namespace GraphQuery.Plan

/-! ## Order -/

theorem Table.sorted_perm {α : Type} (t : Table α) : t.sorted.Perm t.entries :=
  List.mergeSort_perm _ _

/-- Entries are sorted by their names, and no two have the same one. -/
theorem Table.sorted_eq_of_perm {α : Type} {t t' : Table α} (h : t.entries.Perm t'.entries) :
    t.sorted = t'.sorted := by
  have hpairwise : ∀ t : Table α, t.sorted.Pairwise fun a b => decide (a.1 ≤ b.1) = true := by
    intro t
    refine List.pairwise_mergeSort (fun a b c hab hbc => ?_) (fun a b => ?_) t.entries
    · simp only [decide_eq_true_eq] at hab hbc ⊢
      exact String.le_trans hab hbc
    · simpa using String.le_total a.1 b.1
  have hperm : t.sorted.Perm t'.sorted :=
    (t.sorted_perm.trans h).trans t'.sorted_perm.symm
  refine hperm.eq_of_pairwise (fun a b ha hb hab hba => ?_) (hpairwise t) (hpairwise t')
  simp only [decide_eq_true_eq] at hab hba
  have ha' := (t.sorted_perm.trans h).mem_iff.mp ha
  have hb' := t'.sorted_perm.mem_iff.mp hb
  exact List.inj_on_of_nodup_map t'.nodup ha' hb' (String.le_antisymm hab hba)

/-- The second plan lists the declarations of the first in some other order. -/
structure Reorders (plan plan' : Plan) : Prop where
  entities : plan.entities.entries.Perm plan'.entities.entries
  params : plan.params.entries.Perm plan'.params.entries
  statements : plan'.statements = plan.statements

theorem outcome_of_reorders {plan plan' : Plan} (h : plan.Reorders plan') (st : Settings) :
    plan'.outcome st = plan.outcome st := by
  have hentities := Table.sorted_eq_of_perm h.entities
  have hparams := Table.sorted_eq_of_perm h.params
  have hcontains : plan'.entities.contains = plan.entities.contains :=
    funext fun _ => h.entities.symm.any_eq
  have hdeclare : ∀ id, declare plan' id = declare plan id := by
    intro id
    rw [declare, declare, hcontains, ← hentities, ← hparams]
  rw [outcome, outcome, compile, compile, hdeclare, h.statements]

/-! ## Scopes as indexes -/

/-- What is declared, once it has an identity. -/
def EntityDecl.entity (decl : EntityDecl) (i : RefId) : Entity :=
  match decl with
  | .node labels => .node ⟨i, labels⟩
  | .relationship type => .relationship ⟨i, type⟩
  | .var => .var ⟨i⟩

/-- The parameter that is declared, once it has an identity. -/
def ParamDecl.param (decl : ParamDecl) (i : RefId) : Param :=
  ⟨i, decl.value, decl.isPoint⟩

/-- The identity of each declared name. -/
def Scope.ids (s : Scope) : List (String × RefId) :=
  s.entities.map (fun entry => (entry.1, entry.2.reference.id))
    ++ s.params.map fun entry => (entry.1, entry.2.id)

/-- The identity of a name. -/
def Scope.idOf (s : Scope) (name : String) : RefId :=
  ((s.ids.find? fun entry => entry.1 = name).map Prod.snd).getD default

/-- The scope that a plan declares. -/
structure Scope.Of (plan : Plan) (id : ArenaId) (s : Scope) : Prop where
  /-- Each entity is what its declaration says, under an identity of its own. -/
  entities : List.Forall₂ (fun d e => e.1 = d.1 ∧ e.2 = d.2.entity e.2.reference.id)
    plan.entities.sorted s.entities
  /-- And so is each parameter. -/
  params : List.Forall₂ (fun d e => e.1 = d.1 ∧ e.2 = d.2.param e.2.id)
    plan.params.sorted s.params
  /-- No name has two identities. -/
  nodup_names : (s.ids.map Prod.fst).Nodup
  /-- No identity has two names. -/
  nodup_ids : (s.ids.map Prod.snd).Nodup
  /-- All identities are of the one arena. -/
  arena : ∀ entry ∈ s.ids, entry.2.arena = id

theorem declareEntities_of (decls : List (String × EntityDecl)) (a : Arena) :
    List.Forall₂ (fun d e => e.1 = d.1 ∧ e.2 = d.2.entity e.2.reference.id)
      decls (declareEntities decls a).1 := by
  induction decls generalizing a with
  | nil => exact .nil
  | cons d rest ih =>
    obtain ⟨name, _ | _ | _⟩ := d <;> exact .cons ⟨rfl, rfl⟩ (ih a.grow)

theorem declareParams_of (decls : List (String × ParamDecl)) (a : Arena) :
    List.Forall₂ (fun d e => e.1 = d.1 ∧ e.2 = d.2.param e.2.id)
      decls (declareParams decls a).1 := by
  induction decls generalizing a with
  | nil => exact .nil
  | cons d rest ih =>
    obtain ⟨name, value, _ | _⟩ := d <;> exact .cons ⟨rfl, rfl⟩ (ih a.grow)

section Named

variable {α β : Type} {R : String × α → String × β → Prop} {as : List (String × α)}
  {bs : List (String × β)} (hname : ∀ a b, R a b → b.1 = a.1)

include hname

theorem names_of_forall₂ (h : List.Forall₂ R as bs) : bs.map Prod.fst = as.map Prod.fst := by
  rw [← List.forall₂_eq_eq_eq, List.forall₂_map_left_iff, List.forall₂_map_right_iff]
  exact (h.imp hname).flip

/-- Under one name stand related entries, or none. -/
theorem find?_of_forall₂ (h : List.Forall₂ R as bs) (name : String) :
    ((as.find? fun e => e.1 = name) = none ∧ (bs.find? fun e => e.1 = name) = none)
    ∨ ∃ a b, (as.find? fun e => e.1 = name) = some a
        ∧ (bs.find? fun e => e.1 = name) = some b ∧ R a b := by
  induction h with
  | nil => exact Or.inl ⟨rfl, rfl⟩
  | @cons a b as bs hab _ ih =>
    have hb := hname a b hab
    by_cases ha : a.1 = name
    · refine Or.inr ⟨a, b, ?_, ?_, hab⟩
      · exact List.find?_cons_of_pos (by simpa using ha)
      · exact List.find?_cons_of_pos (by simp [hb, ha])
    · rw [List.find?_cons_of_neg (by simpa using ha), List.find?_cons_of_neg (by simp [hb, ha])]
      exact ih

end Named

/-- A name stands for the same entry whichever way a table is ordered. -/
theorem Table.find?_sorted {α : Type} (t : Table α) (name : String) :
    (t.sorted.find? fun e => e.1 = name) = t.entries.find? fun e => e.1 = name := by
  have hnodup : (t.sorted.map Prod.fst).Nodup :=
    (t.sorted_perm.map Prod.fst).nodup_iff.mpr t.nodup
  cases hfind : t.entries.find? fun e => e.1 = name with
  | none =>
    refine List.find?_eq_none.mpr fun e he => ?_
    exact List.find?_eq_none.mp hfind e (t.sorted_perm.mem_iff.mp he)
  | some e =>
    have hname : e.1 = name := by simpa using List.find?_some hfind
    have hmem := t.sorted_perm.mem_iff.mpr (List.mem_of_find?_eq_some hfind)
    rw [← hname]
    exact find?_of_nodup Prod.fst hnodup hmem

/-- The index lists identities in the order in which they were handed out. -/
theorem Declared.ids_eq {plan : Plan} {id : ArenaId} {s : Scope} (h : Declared plan id s) :
    s.ids.map Prod.snd = (issuedBy id plan.handouts).map Visit.id := by
  rw [← h.issued, Scope.ids, List.map_append, List.map_append, List.map_map, List.map_map,
    List.map_map, List.map_map]
  rfl

theorem declare_of {plan : Plan} {id : ArenaId} {s : Scope} {a : Arena}
    (h : declare plan id = .ok (s, a)) : Scope.Of plan id s := by
  have hids := (declare_declared h).2.ids_eq
  unfold declare at h
  simp only [] at h
  split at h
  · cases h
  · rename_i hnone
    obtain ⟨rfl, -⟩ := Prod.mk.inj (Except.ok.inj h)
    have hentities := declareEntities_of plan.entities.sorted (.empty id)
    have hparams := declareParams_of plan.params.sorted
      (declareEntities plan.entities.sorted (.empty id)).2
    refine ⟨hentities, hparams, ?_, ?_, ?_⟩
    · -- no parameter has the name of an entity
      have hapart : ∀ x ∈ plan.entities.sorted.map Prod.fst,
          ∀ y ∈ plan.params.sorted.map Prod.fst, x ≠ y := by
        rintro _ hx y hy rfl
        obtain ⟨d, hd, hdname⟩ := List.mem_map.mp hx
        obtain ⟨p, hp, hpname⟩ := List.mem_map.mp hy
        refine List.find?_eq_none.mp hnone p hp (List.any_eq_true.mpr ⟨d, ?_, ?_⟩)
        · exact plan.entities.sorted_perm.mem_iff.mp hd
        · simp [hdname, hpname]
      have hnames : ∀ {α : Type} (t : Table α), (t.sorted.map Prod.fst).Nodup := fun t =>
        (t.sorted_perm.map Prod.fst).nodup_iff.mpr t.nodup
      rw [Scope.ids, List.map_append, List.map_map, List.map_map]
      have h₁ := names_of_forall₂ (fun _ _ h => h.1) hentities
      have h₂ := names_of_forall₂ (fun _ _ h => h.1) hparams
      refine List.nodup_append.mpr ⟨?_, ?_, ?_⟩
      · exact h₁ ▸ hnames plan.entities
      · exact h₂ ▸ hnames plan.params
      · intro x hx y hy
        exact hapart x (h₁ ▸ hx) y (h₂ ▸ hy)
    · rw [hids]
      exact Arena.nodup_issueAll _ _
    · intro entry hentry
      have hmem := List.mem_map_of_mem (f := Prod.snd) hentry
      rw [hids] at hmem
      obtain ⟨v, hv, hid⟩ := List.mem_map.mp hmem
      rw [← hid]
      exact Arena.arena_of_mem_issueAll _ hv

namespace Scope.Of

variable {plan : Plan} {id : ArenaId} {s : Scope}

/-- An entry of the index is the only one of its name. -/
theorem idOf_eq (h : Scope.Of plan id s) {entry : String × RefId} (he : entry ∈ s.ids) :
    s.idOf entry.1 = entry.2 := by
  rw [idOf, find?_of_nodup Prod.fst h.nodup_names he]
  rfl

/-- What is listed under a name has the identity of that name. -/
theorem idOf_eq_of_find? (h : Scope.Of plan id s) {α : Type} {entries : List (String × α)}
    {g : α → RefId} (hids : ∀ e ∈ entries, (e.1, g e.2) ∈ s.ids) {name : String} {e : String × α}
    (he : (entries.find? fun e => e.1 = name) = some e) : s.idOf name = g e.2 := by
  have hname : e.1 = name := by simpa using List.find?_some he
  rw [← hname]
  exact h.idOf_eq (hids e (List.mem_of_find?_eq_some he))

/-- A name stands for the declared entity, with the identity of that name. -/
theorem entity?_eq (h : Scope.Of plan id s) (name : String) :
    s.entity? name = (plan.entities.get? name).map fun d => d.entity (s.idOf name) := by
  have hids : ∀ e ∈ s.entities, (e.1, e.2.reference.id) ∈ s.ids := fun e he =>
    List.mem_append_left _ (List.mem_map.mpr ⟨e, he, rfl⟩)
  have hfound := find?_of_forall₂ (fun _ _ h => h.1) h.entities name
  rw [Table.find?_sorted] at hfound
  rw [entity?, Table.get?]
  rcases hfound with ⟨hd, he⟩ | ⟨d, e, hd, he, hde⟩
  · rw [hd, he]
    rfl
  · have hid := h.idOf_eq_of_find? (g := fun e => e.reference.id) hids he
    rw [hd, he, Option.map_some, Option.map_some, Option.map_some, hid]
    exact congrArg some hde.2

theorem param_eq (h : Scope.Of plan id s) (name : String) :
    s.param name = match plan.params.get? name with
      | some d => .ok (d.param (s.idOf name))
      | none => .error (.unknownName .param name) := by
  have hids : ∀ e ∈ s.params, (e.1, e.2.id) ∈ s.ids := fun e he =>
    List.mem_append_right _ (List.mem_map.mpr ⟨e, he, rfl⟩)
  have hfound := find?_of_forall₂ (fun _ _ h => h.1) h.params name
  rw [Table.find?_sorted] at hfound
  rw [Scope.param, Table.get?]
  rcases hfound with ⟨hd, he⟩ | ⟨d, e, hd, he, hde⟩
  · rw [hd, he]
    rfl
  · have hid := h.idOf_eq_of_find? (g := Param.id) hids he
    rw [hd, he, Option.map_some]
    show Except.ok e.2 = Except.ok (d.2.param (s.idOf name))
    rw [hid, ← hde.2]

/-- What stands for a parameter was declared under that name. -/
theorem get?_of_param (h : Scope.Of plan id s) {name : String} {p : Param}
    (hp : s.param name = .ok p) :
    ∃ d, plan.params.get? name = some d ∧ p = d.param (s.idOf name) := by
  rw [h.param_eq] at hp
  cases hget : plan.params.get? name with
  | none =>
    rw [hget] at hp
    cases hp
  | some d =>
    rw [hget] at hp
    exact ⟨d, rfl, (Except.ok.inj hp).symm⟩

/-- The names of the index are those of the declarations, in their order. -/
theorem names_eq (h : Scope.Of plan id s) : s.ids.map Prod.fst
    = plan.entities.sorted.map Prod.fst ++ plan.params.sorted.map Prod.fst := by
  rw [ids, List.map_append, List.map_map, List.map_map,
    ← names_of_forall₂ (fun _ _ h => h.1) h.entities,
    ← names_of_forall₂ (fun _ _ h => h.1) h.params]
  rfl

/-- The declared names are those of the index. -/
theorem mem_names_iff (h : Scope.Of plan id s) (name : String) :
    (∃ i, (name, i) ∈ s.ids) ↔ name ∈ plan.entities.entries.map Prod.fst
      ∨ name ∈ plan.params.entries.map Prod.fst := by
  have hmem : (∃ i, (name, i) ∈ s.ids) ↔ name ∈ s.ids.map Prod.fst := by
    rw [List.mem_map]
    constructor
    · rintro ⟨i, hi⟩
      exact ⟨(name, i), hi, rfl⟩
    · rintro ⟨⟨n, i⟩, hi, rfl⟩
      exact ⟨i, hi⟩
  rw [hmem, h.names_eq, List.mem_append, (plan.entities.sorted_perm.map Prod.fst).mem_iff,
    (plan.params.sorted_perm.map Prod.fst).mem_iff]

end Scope.Of

/-! ## Renamed plans -/

/-- The names that a plan declares. -/
def names (plan : Plan) : List String :=
  plan.entities.entries.map Prod.fst ++ plan.params.entries.map Prod.fst

/-- The second plan is the first under other names: `σ` keeps the declared names apart, each
declaration is there under its new name, and the statements are renamed with it. What else the
second plan declares has names that are not in use. -/
structure Renames (σ : String → String) (plan plan' : Plan) : Prop where
  /-- Names that differ are renamed to names that differ. -/
  injective : ∀ x ∈ plan.names, ∀ y ∈ plan.names, σ x = σ y → x = y
  /-- An entity is declared as before, under its new name. -/
  entities : ∀ entry ∈ plan.entities.entries, (σ entry.1, entry.2) ∈ plan'.entities.entries
  /-- And so is a parameter, with its value. -/
  params : ∀ entry ∈ plan.params.entries, (σ entry.1, entry.2) ∈ plan'.params.entries
  /-- No name of the second plan is declared twice. -/
  fresh : plan'.names.Nodup
  statements : Statement.RenamesAll σ plan.statements plan'.statements

/-- The outcome is a text, or it is the build that failed. -/
def ReachesBuild (plan : Plan) (st : Settings) : Prop :=
  (∃ b, plan.outcome st = .ok b) ∨ ∃ why, plan.outcome st = .error (.build why)

/-- Leads from the identity of a name to that of the new name. -/
def moving (σ : String → String) (s s' : Scope) : Relabelling where
  id := fun i => match s.ids.find? fun entry => entry.2 = i with
    | some entry => s'.idOf (σ entry.1)
    | none => i
  value := fun v => v

section Moving

variable {σ : String → String} {plan plan' : Plan} {id : ArenaId} {s s' : Scope}

theorem moving_id (hs : Scope.Of plan id s) {entry : String × RefId} (he : entry ∈ s.ids) :
    (moving σ s s').id entry.2 = s'.idOf (σ entry.1) := by
  have hfind := find?_of_nodup Prod.snd hs.nodup_ids he
  unfold moving
  dsimp only
  rw [hfind]

theorem Table.get?_of_mem {α : Type} {t : Table α} {entry : String × α} (he : entry ∈ t.entries) :
    t.get? entry.1 = some entry.2 := by
  rw [Table.get?, find?_of_nodup Prod.fst t.nodup he]
  rfl

theorem Table.mem_of_get? {α : Type} {t : Table α} {name : String} {a : α}
    (h : t.get? name = some a) : (name, a) ∈ t.entries := by
  obtain ⟨entry, hentry, rfl⟩ := Option.map_eq_some_iff.mp h
  have hname : entry.1 = name := by simpa using List.find?_some hentry
  rw [← hname]
  exact List.mem_of_find?_eq_some hentry

/-- The identity of a declared name is moved to that of the new name. -/
theorem moving_idOf (σ : String → String) (s' : Scope) (hs : Scope.Of plan id s) {name : String}
    (hname : name ∈ plan.names) :
    (moving σ s s').id (s.idOf name) = s'.idOf (σ name) := by
  obtain ⟨i, hi⟩ := (hs.mem_names_iff name).mpr (List.mem_append.mp hname)
  rw [hs.idOf_eq hi, moving_id hs hi]

theorem Scope.matches_moving (h : plan.Renames σ plan') (hs : Scope.Of plan id s)
    (hs' : Scope.Of plan' id s') : Scope.Matches False σ (moving σ s s') s s' := by
  constructor
  · -- entities keep their declaration under the new name
    intro name e he
    rw [hs.entity?_eq] at he
    obtain ⟨d, hd, rfl⟩ := Option.map_eq_some_iff.mp he
    have hmem := Table.mem_of_get? hd
    have hname : name ∈ plan.names :=
      List.mem_append_left _ (List.mem_map_of_mem (f := Prod.fst) hmem)
    have hmoved := moving_idOf σ s' hs hname
    rw [hs'.entity?_eq, Table.get?_of_mem (h.entities _ hmem), Option.map_some, ← hmoved]
    cases d <;> rfl
  · -- and so do parameters
    intro name p hp
    obtain ⟨d, hd, rfl⟩ := hs.get?_of_param hp
    have hmem := Table.mem_of_get? hd
    have hname : name ∈ plan.names :=
      List.mem_append_right _ (List.mem_map_of_mem (f := Prod.fst) hmem)
    have hmoved := moving_idOf σ s' hs hname
    rw [hs'.param_eq, Table.get?_of_mem (h.params _ hmem), ← hmoved]
    rfl
  · exact False.elim

/-- What a name stands for in the new scope comes from the same arena, and no two old names lead to
the same identity. -/
theorem moving_faithful (h : plan.Renames σ plan') (hs : Scope.Of plan id s)
    (hs' : Scope.Of plan' id s') {vs : List Visit} (hvs : ∀ v ∈ vs, v.id ∈ s.ids.map Prod.snd) :
    (moving σ s s').Faithful id vs := by
  have hdeclared : ∀ entry ∈ s.ids, entry.1 ∈ plan.names
      ∧ (σ entry.1, s'.idOf (σ entry.1)) ∈ s'.ids := by
    intro entry he
    have hname := (hs.mem_names_iff entry.1).mp ⟨entry.2, he⟩
    have hname' : σ entry.1 ∈ plan'.entities.entries.map Prod.fst
        ∨ σ entry.1 ∈ plan'.params.entries.map Prod.fst := by
      rcases hname with hname | hname
      · obtain ⟨d, hd, hdname⟩ := List.mem_map.mp hname
        exact Or.inl (List.mem_map.mpr ⟨_, h.entities d hd, congrArg σ hdname⟩)
      · obtain ⟨d, hd, hdname⟩ := List.mem_map.mp hname
        exact Or.inr (List.mem_map.mpr ⟨_, h.params d hd, congrArg σ hdname⟩)
    obtain ⟨i, hi⟩ := (hs'.mem_names_iff _).mpr hname'
    refine ⟨List.mem_append.mpr hname, ?_⟩
    rw [hs'.idOf_eq hi]
    exact hi
  constructor
  · intro v hv
    obtain ⟨entry, he, hid⟩ := List.mem_map.mp (hvs v hv)
    rw [← hid, moving_id hs he, hs.arena entry he, hs'.arena _ (hdeclared entry he).2]
  · intro v hv w hw heq
    obtain ⟨entry, he, hid⟩ := List.mem_map.mp (hvs v hv)
    obtain ⟨entry', he', hid'⟩ := List.mem_map.mp (hvs w hw)
    rw [← hid, ← hid', moving_id hs he, moving_id hs he'] at heq
    -- one identity in the new scope, so one new name, so one old name
    have hnew := List.inj_on_of_nodup_map hs'.nodup_ids (hdeclared entry he).2
      (hdeclared entry' he').2 heq
    have hold := h.injective _ (hdeclared entry he).1 _ (hdeclared entry' he').1
      (congrArg Prod.fst hnew)
    rw [← hid, ← hid', List.inj_on_of_nodup_map hs.nodup_names he he' hold]

end Moving

/-! ## Outcomes -/

variable {σ : String → String} {plan plan' : Plan} {id : ArenaId} {c : Compiled} {st : Settings}

/-- What a compiled plan visits is in its index. -/
theorem Resolves.id_mem {s : Scope} {names : List String} {vs : List Visit}
    (hd : Declared plan id s) (hr : Resolves s names vs) {v : Visit} (hv : v ∈ vs) :
    v.id ∈ s.ids.map Prod.snd := by
  cases v with
  | ref r =>
    obtain ⟨entry, hentry, rfl⟩ := hr.refs r hv
    exact List.mem_map.mpr ⟨_, List.mem_append_left _ (List.mem_map_of_mem hentry), rfl⟩
  | param p =>
    have hp := hr.mem_params hd hv
    exact List.mem_map.mpr ⟨_, List.mem_append_right _ (List.mem_map_of_mem hp), rfl⟩

/-- A plan that shares no name between its tables declares a scope. -/
theorem exists_declare (h : plan.names.Nodup) (id : ArenaId) :
    ∃ s a, declare plan id = .ok (s, a) := by
  have hnone : (plan.params.sorted.find? fun entry => plan.entities.contains entry.1) = none := by
    refine List.find?_eq_none.mpr fun entry hentry hcontains => ?_
    obtain ⟨d, hd, hname⟩ := List.any_eq_true.mp hcontains
    have hparam := plan.params.sorted_perm.mem_iff.mp hentry
    refine (List.nodup_append.mp h).2.2 d.1 (List.mem_map_of_mem hd) entry.1
      (List.mem_map_of_mem hparam) ?_
    simpa using hname
  unfold declare
  simp only [hnone]
  exact ⟨_, _, rfl⟩

/-- A renamed plan compiles when the old one does, to the relabelled query. -/
theorem compile_renamed (h : plan.Renames σ plan') (hc : plan.compile id = .ok c) :
    ∃ f : Relabelling, f.value = (fun v => v) ∧ f.Faithful id c.query.visits
      ∧ ∃ a, plan'.compile id = .ok ⟨a, c.query.relabel f⟩ := by
  obtain ⟨⟨s, a⟩, hdeclare, hc⟩ := bind_eq_ok hc
  obtain ⟨clauses, hclauses, hc⟩ := bind_eq_ok hc
  obtain rfl := Except.ok.inj hc
  obtain ⟨s', a', hdeclare'⟩ := exists_declare h.fresh id
  have hs := declare_of hdeclare
  have hs' := declare_of hdeclare'
  have hresolves := compileStatements_resolves plan.statements hclauses
  have hids : ∀ v ∈ Clause.bodyVisits clauses, v.id ∈ s.ids.map Prod.snd := fun v hv =>
    hresolves.id_mem (declare_declared hdeclare).2 hv
  have hcompiled := (compileStatements_carries (Scope.matches_moving h hs hs') 0
    h.statements).ok clauses hclauses
  -- the relabelling takes each identity to the one its new name has
  refine ⟨moving σ s s', rfl, moving_faithful h hs hs' hids, a', ?_⟩
  show (declare plan' id >>= fun declared =>
    compileStatements declared.1 0 plan'.statements >>= fun clauses =>
      Except.ok (⟨declared.2, ⟨clauses⟩⟩ : Compiled)) = _
  rw [hdeclare']
  show (compileStatements s' 0 plan'.statements >>= fun clauses =>
      Except.ok (⟨a', ⟨clauses⟩⟩ : Compiled)) = _
  rw [hcompiled]
  rfl

/-- A walk among visits of the arena meets nothing foreign. -/
theorem not_foreign {arena : ArenaId} {max depth : Nat} {ss : List Step} {i : RefId}
    (h : ∀ v ∈ visitsOf ss, v.id.arena = arena) :
    firstFault arena max depth ss ≠ some (.foreign i) := by
  intro hfault
  obtain ⟨v, hv, rfl, hforeign⟩ := visit_of_foreign hfault
  exact hforeign (h v hv)

/-- A relabelled query of one arena that keeps its values is built exactly as before. -/
theorem build_relabel_of_over {q : Query} {arena : ArenaId} {f : Relabelling}
    (ho : q.Over arena) (hf : f.Faithful arena q.visits) (hvalue : f.value = fun v => v) :
    (q.relabel f).build arena st = q.build arena st := by
  rw [Query.build_relabel hf, hvalue]
  cases hb : q.build arena st with
  | ok b =>
    show Except.ok (b.mapValues fun v => v) = _
    rw [Built.mapValues]
    simp
  | error fault =>
    have hfault := Query.build_eq_error_iff.mp hb
    cases fault with
    | defect why => rfl
    | foreign i =>
      refine absurd hfault (not_foreign fun v hv => ?_)
      rw [Query.visitsOf_steps] at hv
      exact ho.arena_eq hv

theorem outcome_of_compile {a : Arena} {q : Query} (h : plan.compile ⟨0⟩ = .ok ⟨a, q⟩) :
    plan.outcome st = (q.build ⟨0⟩ st).mapError .build := by
  have hid : a.id = ⟨0⟩ := (compile_ok h).1
  rw [outcome, h, ← hid]
  rfl

theorem outcome_of_renames (h : plan.Renames σ plan') (hreach : plan.ReachesBuild st) :
    plan'.outcome st = plan.outcome st := by
  cases hc : plan.compile ⟨0⟩ with
  | error why =>
    -- such a plan has no build
    have hfails : plan.outcome st = .error (.compile why) := by
      rw [outcome, hc]
      rfl
    rcases hreach with ⟨b, hb⟩ | ⟨fault, hfault⟩
    · rw [hfails] at hb
      cases hb
    · rw [hfails] at hfault
      cases hfault
  | ok c =>
    obtain ⟨f, hvalue, hf, a, hc'⟩ := compile_renamed h hc
    rw [outcome_of_compile hc', outcome_of_compile (q := c.query) (a := c.arena) hc,
      build_relabel_of_over (over_of_compile hc) hf hvalue]

/-- **Names and their order are immaterial.** Listing the declarations in another order changes
nothing. And a plan that compiles has the same outcome under other names, however many further
names are declared beside those in use. -/
theorem outcome_up_to_names (plan plan' : Plan) (st : Settings) :
    (plan.Reorders plan' → plan'.outcome st = plan.outcome st)
    ∧ ∀ σ, plan.Renames σ plan' → plan.ReachesBuild st → plan'.outcome st = plan.outcome st :=
  ⟨fun h => outcome_of_reorders h st, fun _ h hreach => outcome_of_renames h hreach⟩

/-- Creates a node whose age is a parameter. -/
def aged : Plan :=
  ⟨.ofList [("n", .node ["A"])], .ofList [("age", ⟨.int 30, false⟩)],
    [.create "n" [("age", .obj [("param", .str "age")])],
      .result ⟨some "n", [], none, none, none⟩]⟩

/-- The same under other names, beside declarations that nothing uses. -/
def agedRenamed : Plan :=
  ⟨.ofList [("a", .var), ("z", .node ["A"])],
    .ofList [("others", ⟨.null, true⟩), ("b", ⟨.int 30, false⟩)],
    [.create "z" [("age", .obj [("param", .str "b")])],
      .result ⟨some "z", [], none, none, none⟩]⟩

/-- The same, listed in another order. -/
def agedReordered : Plan :=
  { agedRenamed with
    entities := .ofList [("z", .node ["A"]), ("a", .var)]
    params := .ofList [("b", ⟨.int 30, false⟩), ("others", ⟨.null, true⟩)] }

/-- The names that `agedRenamed` has in place of those of `aged`. -/
def agedNames (name : String) : String :=
  if name = "n" then "z" else "b"

/-- What is built from `aged`, and from every plan that is the same under other names. -/
def agedBuilt : Built :=
  ⟨"CREATE (this:\x60A\x60)\nSET this.age = $param0\nRETURN this", [("param0", .int 30)]⟩

theorem ofJson_param (name : String) :
    Term.ofJson (.obj [("param", .str name)]) = .ok (.param name) := rfl

theorem aged_declare : declare aged ⟨0⟩ = .ok (olderScope, ⟨⟨0⟩, 2⟩) :=
  older_declare

/-- The query that it compiles to. -/
def agedQuery : Query :=
  ⟨[.create ⟨⟨⟨0⟩, 0⟩, ["A"]⟩ [("age", .param ⟨⟨⟨0⟩, 1⟩, .int 30, false⟩)],
    .result ⟨.entity ⟨⟨⟨0⟩, 0⟩, .node⟩ [], none⟩]⟩

theorem aged_compile : aged.compile ⟨0⟩ = .ok ⟨⟨⟨0⟩, 2⟩, agedQuery⟩ := by
  rw [compile, aged_declare]
  simp [aged, compileStatements, compileStatement, compileStored_of_ok (ofJson_param _),
    compileStored, compileTerm, Bind.bind, Except.bind, Statement.isResult, pure, Except.pure]
  rfl

theorem aged_outcome : aged.outcome .default = .ok agedBuilt := by
  rw [outcome, aged_compile]
  rfl

theorem aged_renames : aged.Renames agedNames agedRenamed := by
  constructor
  · decide
  · simp [aged, agedRenamed, Table.ofList, Table.insert, Table.put, Table.empty, agedNames]
  · simp [aged, agedRenamed, Table.ofList, Table.insert, Table.put, Table.empty, agedNames]
  · decide
  · have hcreate : Statement.Renames agedNames (.create "n" [("age", .obj [("param", .str "age")])])
        (.create "z" [("age", .obj [("param", .str "b")])]) :=
      .create "n" (.read "age" (ofJson_param _) (ofJson_param _) (.param "age") .nil)
    exact .cons hcreate (.cons (.result ⟨rfl, rfl, .none, rfl, rfl⟩) .nil)

theorem agedRenamed_reorders : agedRenamed.Reorders agedReordered :=
  ⟨.swap _ _ [], .swap _ _ [], rfl⟩

theorem outcome_up_to_names_aged :
    (aged.Renames agedNames agedRenamed ∧ aged.ReachesBuild .default
      ∧ agedRenamed.outcome .default = .ok agedBuilt)
    ∧ agedRenamed.Reorders agedReordered ∧ agedReordered.outcome .default = .ok agedBuilt := by
  have hreach : aged.ReachesBuild .default := Or.inl ⟨agedBuilt, aged_outcome⟩
  have hrenamed := (outcome_up_to_names aged agedRenamed .default).2 _ aged_renames hreach
  have hreordered := (outcome_up_to_names agedRenamed agedReordered .default).1
    agedRenamed_reorders
  rw [aged_outcome] at hrenamed
  exact ⟨⟨aged_renames, hreach, hrenamed⟩, agedRenamed_reorders, hreordered.trans hrenamed⟩

end GraphQuery.Plan
