import GraphQuery.Proofs.Pieces
import Mathlib.Data.List.Basic

/-!
# A naming is its first visits

Of all the visits of a build only the first one of each identity matters. A naming that started
fresh is determined by the list of those first visits, in their order: the list says who has a name
and which, how far both counters have come, and what the table of values holds.

`Naming.ofVisits` writes the naming of such a list down, and `visit_ofVisits` says that one more
visit adds itself to the list or, when its identity is there already, changes nothing.
-/

namespace GraphQuery

/-- Within one arena the number is the identity. -/
theorem RefId.eq_of_index {i j : RefId} (ha : i.arena = j.arena) (hi : i.index = j.index) :
    i = j := by
  cases i; cases j; simp_all

/-- The references among some visits. -/
def refsOf (vs : List Visit) : List Reference :=
  vs.filterMap Visit.ref?

/-- The parameters among some visits. -/
def paramsOf (vs : List Visit) : List Param :=
  vs.filterMap Visit.param?

@[simp] theorem refsOf_nil : refsOf [] = [] := rfl

@[simp] theorem paramsOf_nil : paramsOf [] = [] := rfl

@[simp] theorem refsOf_cons_ref (r : Reference) (vs : List Visit) :
    refsOf (.ref r :: vs) = r :: refsOf vs := rfl

@[simp] theorem refsOf_cons_param (p : Param) (vs : List Visit) :
    refsOf (.param p :: vs) = refsOf vs := rfl

@[simp] theorem paramsOf_cons_ref (r : Reference) (vs : List Visit) :
    paramsOf (.ref r :: vs) = paramsOf vs := rfl

@[simp] theorem paramsOf_cons_param (p : Param) (vs : List Visit) :
    paramsOf (.param p :: vs) = p :: paramsOf vs := rfl

@[simp] theorem refsOf_append (vs ws : List Visit) : refsOf (vs ++ ws) = refsOf vs ++ refsOf ws :=
  List.filterMap_append

@[simp] theorem paramsOf_append (vs ws : List Visit) :
    paramsOf (vs ++ ws) = paramsOf vs ++ paramsOf ws :=
  List.filterMap_append

/-- Adds a visit to a list unless its identity is already there. -/
def addVisit (fs : List Visit) (v : Visit) : List Visit :=
  if v.id ∈ fs.map Visit.id then fs else fs ++ [v]

/-- The first visit of each identity, in their order. -/
def firstVisits (vs : List Visit) : List Visit :=
  vs.foldl addVisit []

/-! ## First visits -/

theorem mem_addVisit {fs : List Visit} {v w : Visit} (h : w ∈ addVisit fs v) : w ∈ fs ∨ w = v := by
  unfold addVisit at h
  split at h
  · exact Or.inl h
  · simpa using h

theorem ids_addVisit (fs : List Visit) (v : Visit) (i : RefId) :
    i ∈ (addVisit fs v).map Visit.id ↔ i ∈ fs.map Visit.id ∨ i = v.id := by
  unfold addVisit
  split
  · rename_i hv
    constructor
    · exact Or.inl
    · rintro (h | rfl)
      · exact h
      · exact hv
  · simp [eq_comm]

theorem nodup_addVisit {fs : List Visit} (v : Visit) (h : (fs.map Visit.id).Nodup) :
    ((addVisit fs v).map Visit.id).Nodup := by
  unfold addVisit
  split
  · exact h
  · rename_i hv
    rw [List.map_append, List.nodup_append]
    refine ⟨h, by simp, ?_⟩
    intro i hi j hj hij
    simp only [List.map_cons, List.map_nil, List.mem_singleton] at hj
    exact hv (hj ▸ hij ▸ hi)

section Fold

variable {fs vs : List Visit} {v : Visit}

theorem mem_foldl_addVisit (h : v ∈ vs.foldl addVisit fs) : v ∈ fs ∨ v ∈ vs := by
  induction vs generalizing fs with
  | nil => exact Or.inl h
  | cons w vs ih =>
    rcases ih h with h | h
    · rcases mem_addVisit h with h | rfl
      · exact Or.inl h
      · exact Or.inr (List.mem_cons_self)
    · exact Or.inr (List.mem_cons_of_mem _ h)

theorem ids_foldl_addVisit (i : RefId) :
    i ∈ (vs.foldl addVisit fs).map Visit.id ↔ i ∈ fs.map Visit.id ∨ i ∈ vs.map Visit.id := by
  induction vs generalizing fs with
  | nil => simp
  | cons w vs ih =>
    rw [List.foldl_cons, ih, ids_addVisit, List.map_cons, List.mem_cons, or_assoc]

theorem nodup_foldl_addVisit (h : (fs.map Visit.id).Nodup) :
    ((vs.foldl addVisit fs).map Visit.id).Nodup := by
  induction vs generalizing fs with
  | nil => exact h
  | cons w vs ih => exact ih (nodup_addVisit w h)

end Fold

theorem mem_of_mem_firstVisits {vs : List Visit} {v : Visit} (h : v ∈ firstVisits vs) : v ∈ vs :=
  (mem_foldl_addVisit h).resolve_left (List.not_mem_nil)

theorem ids_firstVisits (vs : List Visit) (i : RefId) :
    i ∈ (firstVisits vs).map Visit.id ↔ i ∈ vs.map Visit.id := by
  simp [firstVisits, ids_foldl_addVisit]

theorem nodup_firstVisits (vs : List Visit) : ((firstVisits vs).map Visit.id).Nodup :=
  nodup_foldl_addVisit (by simp)

/-- Visits of different identities are all first visits. -/
theorem firstVisits_of_nodup {vs : List Visit} (h : (vs.map Visit.id).Nodup) :
    firstVisits vs = vs := by
  have hfold : ∀ fs : List Visit, ((fs ++ vs).map Visit.id).Nodup →
      vs.foldl addVisit fs = fs ++ vs := by
    clear h
    induction vs with
    | nil => exact fun fs _ => (List.append_nil fs).symm
    | cons v vs ih =>
      intro fs hfs
      have hv : v.id ∉ fs.map Visit.id := by
        rw [List.map_append, List.nodup_append] at hfs
        exact fun hmem => hfs.2.2 v.id hmem v.id (by simp) rfl
      rw [List.append_cons] at hfs ⊢
      rw [List.foldl_cons, addVisit, if_neg hv]
      exact ih _ hfs
  exact hfold [] h

/-- Where an identity tells what it stands for, every visit is among the first ones. -/
theorem mem_firstVisits {vs : List Visit} (hid : ∀ v ∈ vs, ∀ w ∈ vs, v.id = w.id → v = w)
    {v : Visit} (h : v ∈ vs) : v ∈ firstVisits vs := by
  obtain ⟨w, hw, hwv⟩ :=
    List.mem_map.mp ((ids_firstVisits vs v.id).mpr (List.mem_map.mpr ⟨v, h, rfl⟩))
  exact hid w (mem_of_mem_firstVisits hw) v h hwv ▸ hw

/-! ## The naming of some first visits -/

namespace Naming

variable {s : Settings} {arena : ArenaId} {fs : List Visit} {v : Visit} {d : Nat}

/-- The names of some first visits, given after so many aliases and parameter names. -/
def allocations (s : Settings) (aliases params : Nat) : List Visit → List Allocation
  | [] => []
  | .ref r :: rest =>
    ⟨.ref r.kind, r.id.index, aliasText s r.kind aliases⟩
      :: allocations s (aliases + 1) params rest
  | .param p :: rest =>
    ⟨.param, p.id.index, paramText s params⟩ :: allocations s aliases (params + 1) rest

/-- The table of values of these parameters. -/
def paramTable (s : Settings) (ps : List Param) : List (String × Json) :=
  ps.mapIdx fun j p => (paramText s j, p.value)

/-- The naming that these first visits make. -/
def ofVisits (arena : ArenaId) (s : Settings) (fs : List Visit) (depth : Nat) : Naming where
  arena := arena
  settings := s
  allocated := allocations s 0 0 fs
  aliasCount := (refsOf fs).length
  paramCount := (paramsOf fs).length
  params := paramTable s (paramsOf fs)
  depth := depth

theorem fresh_eq_ofVisits (arena : ArenaId) (s : Settings) :
    fresh arena s = ofVisits arena s [] 0 := rfl

theorem allocations_append (s : Settings) (a p : Nat) (fs gs : List Visit) :
    allocations s a p (fs ++ gs)
      = allocations s a p fs
        ++ allocations s (a + (refsOf fs).length) (p + (paramsOf fs).length) gs := by
  induction fs generalizing a p with
  | nil => simp [allocations]
  | cons v fs ih => cases v <;> simp [allocations, ih, Nat.add_assoc, Nat.add_comm 1]

theorem index_allocations (s : Settings) (a p : Nat) (fs : List Visit) :
    (allocations s a p fs).map Allocation.index = fs.map fun v => v.id.index := by
  induction fs generalizing a p with
  | nil => rfl
  | cons v fs ih => cases v <;> simp [allocations, ih, Visit.id]

/-- A number has a name exactly when a visit with that number was there. -/
theorem nameAt_ofVisits_eq_none {i : Nat} :
    (ofVisits arena s fs d).nameAt i = none ↔ ∀ v ∈ fs, v.id.index ≠ i := by
  have hindex : (∀ a ∈ allocations s 0 0 fs, a.index ≠ i)
      ↔ ∀ j ∈ (allocations s 0 0 fs).map Allocation.index, j ≠ i := by simp
  rw [nameAt, Option.map_eq_none_iff, List.find?_eq_none]
  simp only [ofVisits, beq_iff_eq, ← ne_eq, hindex, index_allocations]
  simp

/-- A number is written in one way only. -/
theorem toString_injective {i j : Nat} (h : toString i = toString j) : i = j := by
  have hdigits : Nat.toDigits 10 i = Nat.toDigits 10 j := by
    simpa using congrArg String.toList h
  simpa using congrArg (fun digits => Nat.ofDigitChars 10 digits 0) hdigits

theorem paramText_injective {i j : Nat} (h : paramText s i = paramText s j) : i = j :=
  toString_injective ((String.append_right_inj s.paramStem).mp h)

/-- The names in a table are the parameter names from the first on. -/
theorem names_paramTable (s : Settings) (ps : List Param) :
    (paramTable s ps).map Prod.fst = (List.range ps.length).map (paramText s) := by
  apply List.ext_getElem?
  intro j
  by_cases h : j < ps.length <;> simp [paramTable, h]

/-- A name that is not in the table yet gets the value. -/
theorem record_of_not_mem {n : Naming} {name : String} (value : Json)
    (h : name ∉ n.params.map Prod.fst) :
    n.record name value = { n with params := n.params ++ [(name, value)] } := by
  have hany : n.params.any (fun entry => entry.1 == name) = false := by
    rw [List.any_eq_false]
    intro entry hentry heq
    exact h (List.mem_map.mpr ⟨entry, hentry, eq_of_beq heq⟩)
  simp [record, hany]

/-- Giving a name adds the visit to the list. -/
theorem give_ofVisits (arena : ArenaId) (s : Settings) (fs : List Visit) (d : Nat) (v : Visit) :
    ((ofVisits arena s fs d).give v).2 = ofVisits arena s (fs ++ [v]) d := by
  cases v with
  | ref r => simp [give, giveAlias, ofVisits, allocations_append, allocations]
  | param p =>
    -- the next parameter name is not in the table, so its value is recorded
    have hnew : paramText s (paramsOf fs).length ∉ (paramTable s (paramsOf fs)).map Prod.fst := by
      rw [names_paramTable]
      intro hmem
      obtain ⟨j, hj, hname⟩ := List.mem_map.mp hmem
      exact absurd (paramText_injective hname) (Nat.ne_of_lt (List.mem_range.mp hj))
    simp only [give, giveParam, ofVisits]
    rw [record_of_not_mem p.value hnew]
    simp [allocations_append, allocations, paramTable]

/-- One more visit adds itself to the list, unless its identity is there already. -/
theorem visit_ofVisits (hfs : ∀ w ∈ fs, w.id.arena = arena) (hv : v.id.arena = arena) :
    (ofVisits arena s fs d).visit v = ofVisits arena s (addVisit fs v) d := by
  by_cases hmem : v.id ∈ fs.map Visit.id
  · obtain ⟨w, hw, hid⟩ := List.mem_map.mp hmem
    have hnamed : (ofVisits arena s fs d).nameAt v.id.index ≠ none := fun hnone =>
      nameAt_ofVisits_eq_none.mp hnone w hw (by rw [hid])
    rw [addVisit, if_pos hmem]
    rcases visit_cases (ofVisits arena s fs d) v with ⟨_, h⟩ | ⟨_, _, h⟩ | ⟨_, hnone, _⟩
    · exact h
    · exact h
    · exact absurd hnone hnamed
  · have hnone : (ofVisits arena s fs d).nameAt v.id.index = none := by
      refine nameAt_ofVisits_eq_none.mpr fun w hw hindex => hmem (List.mem_map.mpr ⟨w, hw, ?_⟩)
      exact RefId.eq_of_index ((hfs w hw).trans hv.symm) hindex
    rw [addVisit, if_neg hmem, visit, lookUp_unnamed hv hnone, give_ofVisits]

theorem visitAll_ofVisits {vs : List Visit} (hfs : ∀ w ∈ fs, w.id.arena = arena)
    (hvs : ∀ v ∈ vs, v.id.arena = arena) :
    (ofVisits arena s fs d).visitAll vs = ofVisits arena s (vs.foldl addVisit fs) d := by
  induction vs generalizing fs with
  | nil => rfl
  | cons v vs ih =>
    have hv := hvs v List.mem_cons_self
    have hadd : ∀ w ∈ addVisit fs v, w.id.arena = arena := by
      intro w hw
      rcases mem_addVisit hw with hw | rfl
      · exact hfs w hw
      · exact hv
    rw [visitAll_cons, visit_ofVisits hfs hv, ih hadd fun w hw => hvs w (List.mem_cons_of_mem _ hw)]
    rfl

/-- **After any visits from its arena, a fresh naming is the naming of the first ones.** -/
theorem visitAll_fresh {vs : List Visit} (hvs : ∀ v ∈ vs, v.id.arena = arena) :
    (fresh arena s).visitAll vs = ofVisits arena s (firstVisits vs) 0 := by
  rw [fresh_eq_ofVisits]
  exact visitAll_ofVisits (by simp) hvs

/-! ## The names of first visits -/

/-- Each reference among the first visits is named by the stem of its kind, alone if it is the first
one and else with a number that counts from zero. Each parameter is named by the parameter stem and
its number. -/
def namesOf (s : Settings) (fs : List Visit) : Names
  | .ref r =>
    match ((refsOf fs).map Reference.id).idxOf r.id with
    | 0 => stem s r.kind
    | k + 1 => stem s r.kind ++ toString k
  | .param p => s.paramStem ++ toString (((paramsOf fs).map Param.id).idxOf p.id)

theorem mem_refsOf {r : Reference} : r ∈ refsOf fs ↔ Visit.ref r ∈ fs := by
  constructor
  · intro h
    obtain ⟨v, hv, hr⟩ := List.mem_filterMap.mp h
    cases v with
    | ref w => exact Option.some.inj hr ▸ hv
    | param p => exact absurd hr (by simp [Visit.ref?])
  · exact fun h => List.mem_filterMap.mpr ⟨_, h, rfl⟩

theorem mem_paramsOf {p : Param} : p ∈ paramsOf fs ↔ Visit.param p ∈ fs := by
  constructor
  · intro h
    obtain ⟨v, hv, hp⟩ := List.mem_filterMap.mp h
    cases v with
    | ref w => exact absurd hp (by simp [Visit.param?])
    | param q => exact Option.some.inj hp ▸ hv
  · exact fun h => List.mem_filterMap.mpr ⟨_, h, rfl⟩

theorem namesOf_ref (s : Settings) (fs : List Visit) (r : Reference) :
    namesOf s fs (.ref r) = aliasText s r.kind (((refsOf fs).map Reference.id).idxOf r.id) := by
  rw [namesOf]
  cases ((refsOf fs).map Reference.id).idxOf r.id <;> rfl

theorem namesOf_param (s : Settings) (fs : List Visit) (p : Param) :
    namesOf s fs (.param p) = paramText s (((paramsOf fs).map Param.id).idxOf p.id) := rfl

/-- Two parameters among the first visits with one name are the same. -/
theorem id_eq_of_paramName_eq {p p' : Param} (hp : .param p ∈ fs)
    (h : namesOf s fs (.param p) = namesOf s fs (.param p')) : p.id = p'.id := by
  rw [namesOf_param, namesOf_param] at h
  have hmem : p.id ∈ (paramsOf fs).map Param.id :=
    List.mem_map.mpr ⟨p, mem_paramsOf.mpr hp, rfl⟩
  exact (List.idxOf_inj hmem).mp (paramText_injective h)

theorem idxOf_append_self {l t : List RefId} {i : RefId} (h : i ∉ l) :
    (l ++ i :: t).idxOf i = l.length := by
  rw [List.idxOf_append, if_neg h, List.idxOf_cons_self, Nat.zero_add]

/-- The name that a first visit was given, by how many of its sort came before it. -/
theorem namesOf_split {l t : List Visit} (h : v.id ∉ l.map Visit.id) :
    namesOf s (l ++ v :: t) v = match v with
      | .ref r => aliasText s r.kind (refsOf l).length
      | .param _ => paramText s (paramsOf l).length := by
  cases v with
  | ref r =>
    have hl : r.id ∉ (refsOf l).map Reference.id := fun hmem => by
      obtain ⟨w, hw, hid⟩ := List.mem_map.mp hmem
      exact h (List.mem_map.mpr ⟨.ref w, mem_refsOf.mp hw, hid⟩)
    simp only [namesOf, refsOf_append, refsOf_cons_ref, List.map_append, List.map_cons,
      idxOf_append_self hl, List.length_map]
    cases (refsOf l).length <;> rfl
  | param p =>
    have hl : p.id ∉ (paramsOf l).map Param.id := fun hmem => by
      obtain ⟨w, hw, hid⟩ := List.mem_map.mp hmem
      exact h (List.mem_map.mpr ⟨.param w, mem_paramsOf.mp hw, hid⟩)
    simp only [namesOf, paramsOf_append, paramsOf_cons_param, List.map_append, List.map_cons,
      idxOf_append_self hl, List.length_map]
    rfl

/-- **Each first visit has the name that the list of first visits gives it.** -/
theorem nameAt_ofVisits (harena : ∀ w ∈ fs, w.id.arena = arena)
    (hnodup : (fs.map Visit.id).Nodup) (hv : v ∈ fs) :
    (ofVisits arena s fs d).nameAt v.id.index = some (namesOf s fs v) := by
  obtain ⟨l, t, rfl⟩ := List.append_of_mem hv
  have hl : v.id ∉ l.map Visit.id := by
    rw [List.map_append, List.nodup_append] at hnodup
    exact fun hmem => hnodup.2.2 v.id hmem v.id (by simp) rfl
  have hnone : (ofVisits arena s l d).nameAt v.id.index = none := by
    refine nameAt_ofVisits_eq_none.mpr fun w hw hindex => hl (List.mem_map.mpr ⟨w, hw, ?_⟩)
    have hw' := harena w (List.mem_append_left _ hw)
    exact RefId.eq_of_index (hw'.trans (harena v hv).symm) hindex
  have hfind : (allocations s 0 0 l).find? (fun a => a.index == v.id.index) = none :=
    Option.map_eq_none_iff.mp hnone
  rw [namesOf_split hl]
  simp only [nameAt, ofVisits, allocations_append, List.find?_append, hfind]
  cases v <;> simp [allocations, Visit.id]

end Naming

end GraphQuery
