import GraphQuery.Proofs.Bindings
import GraphQuery.Proofs.Relabel

/-!
# Building a relabelled query

A relabelling is faithful to a query when it keeps different visits apart and takes those from the
arena of the build, and no others, to that arena. The walk of the relabelled steps then ends as
before, and the first visits are those of the old query, relabelled. As names are given by kind and
by order, whoever was called something before is called the same under the new identity.

So the build of a relabelled query is the old build with other values in its table.
-/

namespace GraphQuery

/-- The relabelling keeps these visits apart, and keeps inside and outside apart. -/
structure Relabelling.Faithful (f : Relabelling) (arena : ArenaId) (vs : List Visit) : Prop where
  /-- What is of the arena stays so, and what is not does not come in. -/
  arena_iff : ∀ v ∈ vs, (f.id v.id).arena = arena ↔ v.id.arena = arena
  /-- What differs is not made the same. -/
  injective : ∀ v ∈ vs, ∀ w ∈ vs, f.id v.id = f.id w.id → v.id = w.id

variable {f : Relabelling} {arena : ArenaId} {s : Settings}

/-! ## Failures -/

/-- Relabelled steps fail where the old ones did, and for the same reason. -/
theorem firstFault_relabel (max depth : Nat) {ss : List Step}
    (hf : ∀ v ∈ visitsOf ss, (f.id v.id).arena = arena ↔ v.id.arena = arena) :
    firstFault arena max depth (ss.map (Step.relabel f))
      = (firstFault arena max depth ss).map (Fault.relabel f) := by
  induction ss generalizing depth with
  | nil => rfl
  | cons step ss ih =>
    cases step with
    | visit v =>
      have hrest := ih depth fun w hw => hf w (List.mem_cons_of_mem _ hw)
      have hv := hf v List.mem_cons_self
      rw [List.map_cons, Step.relabel, firstFault, firstFault, Visit.id_relabel]
      -- what is foreign stays foreign under the relabelling
      by_cases ha : v.id.arena = arena
      · rw [if_pos ha, if_pos (hv.mpr ha), hrest]
      · rw [if_neg ha, if_neg fun h => ha (hv.mp h)]
        rfl
    | refuse why => rfl
    | enter =>
      have hrest := ih (depth + 1) hf
      rw [List.map_cons, Step.relabel, firstFault, firstFault]
      by_cases hd : depth + 1 > max
      · rw [if_pos hd, if_pos hd]
        rfl
      · rw [if_neg hd, if_neg hd, hrest]
    | leave => exact ih (depth - 1) hf

/-! ## First visits -/

section FirstVisits

variable {vs fs : List Visit}

theorem addVisit_relabel {v : Visit}
    (hf : ∀ w ∈ fs, f.id w.id = f.id v.id → w.id = v.id) :
    addVisit (fs.map (Visit.relabel f)) (v.relabel f)
      = (addVisit fs v).map (Visit.relabel f) := by
  have hids : (v.relabel f).id ∈ (fs.map (Visit.relabel f)).map Visit.id
      ↔ v.id ∈ fs.map Visit.id := by
    rw [List.map_map, List.mem_map, List.mem_map]
    constructor
    · rintro ⟨w, hw, hid⟩
      rw [Function.comp_apply, Visit.id_relabel, Visit.id_relabel] at hid
      exact ⟨w, hw, hf w hw hid⟩
    · rintro ⟨w, hw, hid⟩
      refine ⟨w, hw, ?_⟩
      rw [Function.comp_apply, Visit.id_relabel, Visit.id_relabel, hid]
  rw [addVisit, addVisit]
  by_cases hmem : v.id ∈ fs.map Visit.id
  · rw [if_pos hmem, if_pos (hids.mpr hmem)]
  · rw [if_neg hmem, if_neg fun h => hmem (hids.mp h), List.map_append]
    rfl

theorem firstVisits_relabel (hf : f.Faithful arena vs) :
    firstVisits (vs.map (Visit.relabel f)) = (firstVisits vs).map (Visit.relabel f) := by
  -- what was found so far is among the visits, where the relabelling is injective
  have hfold : ∀ (ws fs : List Visit), (∀ w ∈ fs, w ∈ vs) → (∀ w ∈ ws, w ∈ vs) →
      (ws.map (Visit.relabel f)).foldl addVisit (fs.map (Visit.relabel f))
        = (ws.foldl addVisit fs).map (Visit.relabel f) := by
    intro ws
    induction ws with
    | nil => exact fun _ _ _ => rfl
    | cons w ws ih =>
      intro fs hfs hws
      have hw := hws w List.mem_cons_self
      rw [List.map_cons, List.foldl_cons, List.foldl_cons,
        addVisit_relabel fun u hu => hf.injective u (hfs u hu) w hw]
      refine ih (addVisit fs w) (fun u hu => ?_) fun u hu => hws u (List.mem_cons_of_mem _ hu)
      rcases mem_addVisit hu with hu | rfl
      · exact hfs u hu
      · exact hw
  exact hfold vs [] (fun w hw => absurd hw List.not_mem_nil) fun w hw => hw

end FirstVisits

/-! ## Names -/

namespace Naming

variable {fs : List Visit} {v : Visit} {d : Nat}

/-- The names go by kind and by order, so the relabelled visits have the old ones. -/
theorem find?_allocations_relabel (aliases params : Nat)
    (hf : ∀ w ∈ fs, (f.id w.id).index = (f.id v.id).index ↔ w.id.index = v.id.index) :
    ((allocations s aliases params (fs.map (Visit.relabel f))).find?
        fun a => a.index == (f.id v.id).index).map Allocation.name
      = ((allocations s aliases params fs).find?
        fun a => a.index == v.id.index).map Allocation.name := by
  induction fs generalizing aliases params with
  | nil => rfl
  | cons w fs ih =>
    have hrest := fun aliases params =>
      ih aliases params fun u hu => hf u (List.mem_cons_of_mem _ hu)
    have hw := hf w List.mem_cons_self
    -- the index belongs to the first entry in both lists, or in neither
    cases w with
    | ref r =>
      by_cases hi : r.id.index = v.id.index
      · have hi' : (f.id r.id).index = (f.id v.id).index := hw.mpr hi
        simp [Visit.relabel, Reference.relabel, allocations, hi, hi']
      · have hi' : (f.id r.id).index ≠ (f.id v.id).index := fun h => hi (hw.mp h)
        simp [Visit.relabel, Reference.relabel, allocations, hi, hi', hrest]
    | param p =>
      by_cases hi : p.id.index = v.id.index
      · have hi' : (f.id p.id).index = (f.id v.id).index := hw.mpr hi
        simp [Visit.relabel, Param.relabel, allocations, hi, hi']
      · have hi' : (f.id p.id).index ≠ (f.id v.id).index := fun h => hi (hw.mp h)
        simp [Visit.relabel, Param.relabel, allocations, hi, hi', hrest]

theorem nameAt_relabel {vs : List Visit} (hf : f.Faithful arena vs)
    (harena : ∀ w ∈ vs, w.id.arena = arena) (hfs : ∀ w ∈ fs, w ∈ vs) (hv : v ∈ vs) :
    (ofVisits arena s (fs.map (Visit.relabel f)) d).nameAt (v.relabel f).id.index
      = (ofVisits arena s fs d).nameAt v.id.index := by
  rw [Visit.id_relabel]
  refine find?_allocations_relabel 0 0 fun w hw => ?_
  have hw := hfs w hw
  constructor
  · intro hi
    -- within the arena the number is the identity, on both sides
    have hthere : (f.id w.id).arena = (f.id v.id).arena := by
      rw [(hf.arena_iff w hw).mpr (harena w hw), (hf.arena_iff v hv).mpr (harena v hv)]
    rw [hf.injective w hw v hv (RefId.eq_of_index hthere hi)]
  · intro hi
    rw [RefId.eq_of_index ((harena w hw).trans (harena v hv).symm) hi]

/-- The relabelled parameters have the same names and the values that took the place of theirs. -/
theorem paramTable_relabel (ps : List Param) :
    paramTable s (ps.map (Param.relabel f))
      = (paramTable s ps).map fun entry => (entry.1, f.value entry.2) := by
  apply List.ext_getElem?
  intro j
  by_cases h : j < ps.length <;> simp [paramTable, Param.relabel, h]

end Naming

/-! ## Builds -/

/-- The same text, with other values in the table. -/
def Built.mapValues (value : Json → Json) (b : Built) : Built :=
  ⟨b.text, b.params.map fun entry => (entry.1, value entry.2)⟩

namespace Query

variable {q : Query} {b : Built}

theorem firstFault_relabel_steps (q : Query) (hf : f.Faithful arena q.visits) (max : Nat) :
    firstFault arena max 0 (q.relabel f).steps
      = (firstFault arena max 0 q.steps).map (Fault.relabel f) := by
  rw [steps_relabel]
  refine firstFault_relabel max 0 ?_
  rw [visitsOf_steps]
  exact hf.arena_iff

theorem build_relabel_of_ok (hf : f.Faithful arena q.visits) (hb : q.build arena s = .ok b) :
    (q.relabel f).build arena s = .ok (b.mapValues f.value) := by
  obtain ⟨_, hparams, harena, htext⟩ := build_ok hb
  have hfault := q.firstFault_relabel_steps hf s.maxDepth
  rw [exists_build_iff.mp ⟨b, hb⟩] at hfault
  obtain ⟨b', hb'⟩ := exists_build_iff.mpr hfault
  obtain ⟨_, _, harena', htext'⟩ := build_ok hb'
  -- what the new naming calls the new visits is what the old one called the old visits
  have hagrees : ((Naming.fresh arena s).visitAll q.visits).Agrees
      (fun v => ((Naming.fresh arena s).visitAll (q.relabel f).visits).called (v.relabel f))
      q.visits := by
    intro v hv name hname
    rw [Naming.visitAll_fresh harena] at hname
    have hthere := Naming.nameAt_relabel (s := s) (d := 0) hf harena
      (fun w hw => mem_of_mem_firstVisits hw) hv
    rw [hname, ← firstVisits_relabel hf, ← visits_relabel, ← Naming.visitAll_fresh harena']
      at hthere
    show (((Naming.fresh arena s).visitAll (q.relabel f).visits).nameAt
      (v.relabel f).id.index).getD "" = name
    rw [hthere]
    rfl
  have hsame : b'.text = b.text := by
    rw [htext' _ (Naming.agrees_called _ _), textUnder_relabel, htext _ hagrees]
  have htable : b'.params = b.params.map fun entry => (entry.1, f.value entry.2) := by
    rw [params_eq_paramTable hb', visits_relabel, firstVisits_relabel hf,
      paramsOf_relabel, Naming.paramTable_relabel, ← params_eq_paramTable hb]
  rw [hb', Built.mapValues, ← hsame, ← htable]

/-- **A relabelled query is built as before.** Only the values in the table are other ones, and a
foreign reference is refused under its new identity. -/
theorem build_relabel (hf : f.Faithful arena q.visits) :
    (q.relabel f).build arena s
      = ((q.build arena s).map (Built.mapValues f.value)).mapError (Fault.relabel f) := by
  cases hb : q.build arena s with
  | ok b => exact build_relabel_of_ok hf hb
  | error fault =>
    have hfault := q.firstFault_relabel_steps hf s.maxDepth
    rw [build_eq_error_iff.mp hb] at hfault
    exact build_eq_error_iff.mpr hfault

end Query

end GraphQuery
