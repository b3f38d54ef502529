import GraphQuery.Proofs.OneArena
import GraphQuery.Proofs.Stems
import Mathlib.Data.List.Basic

/-!
# Names along a run

A naming can be used for longer than one build. Whoever holds it may ask for aliases and parameter
names, open and close subqueries and render parts of queries, in any order, and go on after a part
has failed halfway or came from elsewhere.

However long such a run is, all that it does to a fresh naming is some visits and a change of depth.
So names stay, which needs no invariant of its own, and the names there are at any moment are those
of a list of first visits. Two of them can only be the same when their counts are, and a count is
the place of one reference among the first visits.
-/

namespace GraphQuery

/-- A part of a query that can be rendered by itself. -/
inductive Fragment
  | query (query : Query)
  | clause (clause : Clause)
  | predicate (predicate : Predicate)
  | withItem (item : WithItem)
  | orderItem (item : OrderItem)
  | pattern (pattern : Pattern)
  | nodePattern (pattern : NodePattern)
  | arrow (hop : Hop)
  | expr (expr : Expr)
  | function (function : FunctionCall)
  | field (field : ProjectionField)

namespace Fragment

/-- Every fragment is rendered by the renderer of its kind. -/
def render : Fragment → Render String
  | query q => q.render
  | clause c => c.render
  | predicate p => p.render
  | withItem item => item.render
  | orderItem item => do
    let texts ← renderOrderItems [item]
    return String.join texts
  | pattern p => p.render
  | nodePattern p => p.render
  | arrow hop => hop.renderArrow
  | expr e => e.render
  | function f => f.render
  | field f => f.render

/-- All that a fragment mentions, in the order in which it is rendered. -/
def visits : Fragment → List Visit
  | query q => q.visits
  | clause c => c.visits
  | predicate p => p.visits
  | withItem item => item.visits
  | orderItem item => item.expr.visits
  | pattern p => p.visits
  | nodePattern p => p.visits
  | arrow hop => hop.arrowVisits
  | expr e => e.visits
  | function f => f.visits
  | field f => f.visits

end Fragment

/-- One use of a naming. -/
inductive Action
  | aliasOf (target : Reference)
  | paramName (target : Param)
  | enter
  | leave
  | render (fragment : Fragment)

/-- All that a use may visit. -/
def Action.visits : Action → List Visit
  | aliasOf r => [.ref r]
  | paramName p => [.param p]
  | enter => []
  | leave => []
  | render f => f.visits

namespace Naming

/-- The naming after one use, whatever came of it. -/
def act (n : Naming) : Action → Naming
  | .aliasOf r => (n.aliasOf r).2
  | .paramName p => (n.paramName p).2
  | .enter => n.enter.2
  | .leave => n.leave
  | .render f => (f.render.run n).2

/-- The naming after some uses, one after the other. -/
def run (n : Naming) (actions : List Action) : Naming :=
  actions.foldl act n

end Naming

/-! ## What a run does -/

/-- Rendering makes the first few visits of the part, or all of them. -/
theorem Render.Follows.run_snd {α : Type} {m : Render α} {vs : List Visit} {f : Names → α}
    (h : Render.Follows m vs f) (n : Naming) :
    ∃ ws, ws <+: vs ∧ (m.run n).2 = n.visitAll ws := by
  rcases hr : m.run n with ⟨fault | a, n'⟩
  · exact h.error hr
  · exact ⟨vs, List.prefix_rfl, (h.ok hr).1⟩

theorem Fragment.run_snd (f : Fragment) (n : Naming) :
    ∃ ws, ws <+: f.visits ∧ (f.render.run n).2 = n.visitAll ws := by
  cases f with
  | query q => exact q.render_follows.run_snd n
  | clause c => exact (Clause.render_follows c).run_snd n
  | predicate p => exact (Predicate.render_follows p).run_snd n
  | withItem item => exact item.render_follows.run_snd n
  | orderItem item =>
    have h := (renderOrderItems_follows [item]).map (k := String.join)
    rw [List.flatMap_singleton] at h
    exact h.run_snd n
  | pattern p => exact p.render_follows.run_snd n
  | nodePattern p => exact p.render_follows.run_snd n
  | arrow hop => exact hop.renderArrow_follows.run_snd n
  | expr e => exact e.render_follows.run_snd n
  | function f => exact (FunctionCall.render_follows f).run_snd n
  | field f => exact (ProjectionField.render_follows f).run_snd n

namespace Naming

/-- A use of a naming makes some visits and may change the depth. -/
theorem act_eq (n : Naming) (a : Action) :
    ∃ ws d, (∀ w ∈ ws, w ∈ a.visits) ∧ n.act a = (n.visitAll ws).withDepth d := by
  cases a with
  | aliasOf r =>
    exact ⟨[.ref r], n.depth, fun _ h => h, by rw [← visitAll_depth n [.ref r]]; rfl⟩
  | paramName p =>
    exact ⟨[.param p], n.depth, fun _ h => h, by rw [← visitAll_depth n [.param p]]; rfl⟩
  | enter =>
    by_cases hd : n.depth + 1 > n.settings.maxDepth
    · exact ⟨[], n.depth, by simp, by simp [act, enter, hd, withDepth]⟩
    · exact ⟨[], n.depth + 1, by simp, by simp [act, enter, hd, withDepth]⟩
  | leave => exact ⟨[], n.depth - 1, by simp, rfl⟩
  | render f =>
    obtain ⟨ws, hws, h⟩ := f.run_snd n
    refine ⟨ws, n.depth, fun w hw => hws.subset hw, ?_⟩
    rw [act, h, ← visitAll_depth n ws]
    rfl

theorem run_eq (n : Naming) (actions : List Action) :
    ∃ ws d, (∀ w ∈ ws, ∃ a ∈ actions, w ∈ a.visits)
      ∧ n.run actions = (n.visitAll ws).withDepth d := by
  induction actions generalizing n with
  | nil => exact ⟨[], n.depth, by simp, rfl⟩
  | cons a rest ih =>
    obtain ⟨ws, d, hws, hact⟩ := act_eq n a
    obtain ⟨us, d', hus, hrest⟩ := ih (n.act a)
    refine ⟨ws ++ us, d', ?_, ?_⟩
    · intro w hw
      rcases List.mem_append.mp hw with hw | hw
      · exact ⟨a, List.mem_cons_self, hws w hw⟩
      · obtain ⟨b, hb, hwb⟩ := hus w hw
        exact ⟨b, List.mem_cons_of_mem _ hb, hwb⟩
    · calc n.run (a :: rest)
          = (n.act a).run rest := rfl
        _ = ((n.act a).visitAll us).withDepth d' := hrest
        _ = (((n.visitAll ws).withDepth d).visitAll us).withDepth d' := by rw [hact]
        _ = ((n.visitAll (ws ++ us)).withDepth d).withDepth d' := by
            rw [visitAll_withDepth, visitAll_append]
        _ = (n.visitAll (ws ++ us)).withDepth d' := rfl

theorem run_append (n : Naming) (before after : List Action) :
    n.run (before ++ after) = (n.run before).run after := by
  simp [run, List.foldl_append]

@[simp] theorem run_arena (n : Naming) (actions : List Action) :
    (n.run actions).arena = n.arena := by
  obtain ⟨ws, d, _, h⟩ := run_eq n actions
  rw [h]
  exact visitAll_arena n ws

/-- What is true of every name that can be given is true of all names along a run. -/
theorem forall_name_run {arena : ArenaId} {s : Settings} {P : String → Prop}
    (hgive : ∀ (m : Naming) (v : Visit), m.settings = s → P (m.give v).1) (actions : List Action)
    (vs : List Visit) : ∀ a ∈ (((fresh arena s).run actions).visitAll vs).allocated, P a.name := by
  obtain ⟨ws, d, _, hrun⟩ := run_eq (fresh arena s) actions
  rw [hrun, visitAll_withDepth, ← visitAll_append]
  exact forall_name_visitAll (n := fresh arena s) hgive (fun _ h => absurd h List.not_mem_nil) _

/-! ## Names stay -/

theorem nameAt_run {n : Naming} {i : Nat} {name : String} (h : n.nameAt i = some name)
    (actions : List Action) : (n.run actions).nameAt i = some name := by
  obtain ⟨ws, d, _, hrun⟩ := run_eq n actions
  rw [hrun]
  exact nameAt_visitAll h

/-! ## Names differ -/

/-- Visits from elsewhere leave no trace. -/
theorem visitAll_filter (n : Naming) (vs : List Visit) :
    n.visitAll vs = n.visitAll (vs.filter fun v => v.id.arena = n.arena) := by
  induction vs generalizing n with
  | nil => rfl
  | cons v vs ih =>
    by_cases ha : v.id.arena = n.arena
    · rw [List.filter_cons_of_pos (by simpa using ha), visitAll_cons, visitAll_cons, ih,
        visit_arena]
    · have hv : n.visit v = n := by rw [visit, lookUp_foreign ha]
      rw [List.filter_cons_of_neg (by simpa using ha), visitAll_cons, hv, ih]

/-- At any moment of a run that started fresh, the naming is that of some first visits, all of them
from its arena. -/
theorem run_fresh (arena : ArenaId) (s : Settings) (actions : List Action) :
    ∃ fs d, (fresh arena s).run actions = ofVisits arena s fs d
      ∧ (∀ v ∈ fs, v.id.arena = arena ∧ ∃ a ∈ actions, v ∈ a.visits)
      ∧ (fs.map Visit.id).Nodup := by
  obtain ⟨ws, d, hws, hrun⟩ := run_eq (fresh arena s) actions
  have hlocal : ∀ v ∈ ws.filter fun v => v.id.arena = arena, v.id.arena = arena := fun v hv => by
    simpa using (List.mem_filter.mp hv).2
  refine ⟨firstVisits (ws.filter fun v => v.id.arena = arena), d, ?_, ?_, nodup_firstVisits _⟩
  · rw [hrun, visitAll_filter]
    exact congrArg (withDepth · d) (visitAll_fresh hlocal)
  · intro v hv
    have hmem := mem_of_mem_firstVisits hv
    exact ⟨hlocal v hmem, hws v (List.mem_filter.mp hmem).1⟩

variable {s : Settings} {fs : List Visit}

/-- Two references among the first visits with one alias are the same. -/
theorem id_eq_of_alias_eq (hs : s.isValid) {r r' : Reference} (hr : .ref r ∈ fs)
    (h : namesOf s fs (.ref r) = namesOf s fs (.ref r')) : r.id = r'.id := by
  rw [namesOf_ref, namesOf_ref] at h
  have hmem : r.id ∈ (refsOf fs).map Reference.id :=
    List.mem_map.mpr ⟨r, mem_refsOf.mpr hr, rfl⟩
  exact (List.idxOf_inj hmem).mp (aliasText_injective hs h)

end Naming

/-- What the arena of the run could have handed out, it has handed out. Parts of a query may mention
references from elsewhere; a run refuses those. -/
def Action.Within (a : Action) (arena : ArenaId) (rs : List Handout) : Prop :=
  ∀ v ∈ a.visits, v.id.arena = arena → v ∈ issuedBy arena rs

namespace Naming

variable {arena : ArenaId} {s : Settings} {rs : List Handout} {actions : List Action}
  {fs : List Visit}

/-- Over what the arena has handed out, the first visits of a run are some of that. -/
theorem run_issued (h : ∀ a ∈ actions, a.Within arena rs) :
    ∃ fs d, (fresh arena s).run actions = ofVisits arena s fs d
      ∧ (∀ v ∈ fs, v ∈ issuedBy arena rs) ∧ (fs.map Visit.id).Nodup := by
  obtain ⟨fs, d, hrun, hfs, hnodup⟩ := run_fresh arena s actions
  refine ⟨fs, d, hrun, fun v hv => ?_, hnodup⟩
  obtain ⟨hlocal, a, ha, hva⟩ := hfs v hv
  exact h a ha v hva hlocal

/-- Of all that an arena has handed out, the first visits have a name and nothing else has. -/
theorem nameAt_ofVisits_issued {d : Nat} (hfs : ∀ v ∈ fs, v ∈ issuedBy arena rs)
    (hnodup : (fs.map Visit.id).Nodup) {v : Visit} (hv : v ∈ issuedBy arena rs) {name : String} :
    (ofVisits arena s fs d).nameAt v.id.index = some name ↔ v ∈ fs ∧ name = namesOf s fs v := by
  have harena : ∀ w ∈ fs, w.id.arena = arena := fun w hw =>
    Arena.arena_of_mem_issueAll _ (hfs w hw)
  constructor
  · intro hname
    have hsome : (ofVisits arena s fs d).nameAt v.id.index ≠ none := by simp [hname]
    obtain ⟨w, hw, hindex⟩ : ∃ w ∈ fs, w.id.index = v.id.index := by
      by_contra hno
      exact hsome (nameAt_ofVisits_eq_none.mpr fun w hw hi => hno ⟨w, hw, hi⟩)
    -- the arena has handed this number out once, so both visits are the same
    have hid : w.id = v.id :=
      RefId.eq_of_index ((harena w hw).trans (Arena.arena_of_mem_issueAll _ hv).symm) hindex
    obtain rfl := Arena.eq_of_id_of_mem_issueAll _ (hfs w hw) hv hid
    rw [nameAt_ofVisits harena hnodup hw] at hname
    exact ⟨hw, (Option.some.inj hname).symm⟩
  · rintro ⟨hmem, rfl⟩
    exact nameAt_ofVisits harena hnodup hmem

/-- Whatever has a name is among the first visits of the run and named from them. -/
theorem named_run (h : ∀ a ∈ actions, a.Within arena rs) :
    ∃ fs, ∀ v ∈ issuedBy arena rs, ∀ name,
      ((fresh arena s).run actions).nameAt v.id.index = some name →
        v ∈ fs ∧ name = namesOf s fs v := by
  obtain ⟨fs, d, hrun, hfs, hnodup⟩ := run_issued (s := s) h
  refine ⟨fs, fun v hv name hname => ?_⟩
  rw [hrun] at hname
  exact (nameAt_ofVisits_issued hfs hnodup hv).mp hname

/-- **Names are stable and never collide.** Along any run over an arena whatever has a name keeps
it, also what a lookup on the way has just named. No two references ever have one alias, and no two
parameters one name. -/
theorem names_stable_and_distinct (hs : s.isValid) (h : ∀ a ∈ actions, a.Within arena rs) :
    (∀ before after, actions = before ++ after → ∀ v name, v.id.arena = arena →
      ((fresh arena s).run before).nameAt v.id.index = some name →
        ((fresh arena s).run actions).lookUp v = (.ok name, (fresh arena s).run actions))
    ∧ (∀ before after, actions = before ++ after → ∀ v name n,
      ((fresh arena s).run before).lookUp v = (.ok name, n) →
        (n.run after).lookUp v = (.ok name, n.run after))
    ∧ (∀ r r' name, .ref r ∈ issuedBy arena rs → .ref r' ∈ issuedBy arena rs →
      ((fresh arena s).run actions).nameAt r.id.index = some name →
      ((fresh arena s).run actions).nameAt r'.id.index = some name → r = r')
    ∧ (∀ p p' name, .param p ∈ issuedBy arena rs → .param p' ∈ issuedBy arena rs →
      ((fresh arena s).run actions).nameAt p.id.index = some name →
      ((fresh arena s).run actions).nameAt p'.id.index = some name → p = p') := by
  obtain ⟨fs, hnamed⟩ := named_run (s := s) h
  refine ⟨?_, ?_, ?_, ?_⟩
  · -- a name is found again by every later lookup
    rintro before after rfl v name hv hname
    refine lookUp_named (by rw [run_arena]; exact hv) ?_
    rw [run_append]
    exact nameAt_run hname after
  · -- also one that the lookup itself has given
    intro before after _ v name n hlook
    obtain ⟨ha, rfl, hname⟩ := nameAt_of_lookUp hlook
    exact lookUp_named (by rw [run_arena, visit_arena]; exact ha) (nameAt_run hname after)
  · -- equal aliases have one number, so one identity, which was handed out once
    intro r r' name hr hr' hn hn'
    obtain ⟨hmem, hname⟩ := hnamed _ hr _ hn
    obtain ⟨_, hname'⟩ := hnamed _ hr' _ hn'
    have hid : r.id = r'.id := id_eq_of_alias_eq hs hmem (hname.symm.trans hname')
    exact Visit.ref.inj (Arena.eq_of_id_of_mem_issueAll _ hr hr' hid)
  · -- and so for parameters
    intro p p' name hp hp' hn hn'
    obtain ⟨hmem, hname⟩ := hnamed _ hp _ hn
    obtain ⟨_, hname'⟩ := hnamed _ hp' _ hn'
    have hid : p.id = p'.id := id_eq_of_paramName_eq hmem (hname.symm.trans hname')
    exact Visit.param.inj (Arena.eq_of_id_of_mem_issueAll _ hp hp' hid)

/-- The parameter is named first, then the node in a subquery that is left open. -/
def olderRun : List Action :=
  [.paramName ⟨⟨⟨0⟩, 1⟩, .int 30, false⟩, .enter, .render (.query .older), .enter]

theorem olderRun_within : ∀ a ∈ olderRun, a.Within ⟨0⟩ Query.olderHandouts := by
  have holder : (Action.render (.query .older)).Within ⟨0⟩ Query.olderHandouts :=
    fun v hv _ => Query.older_issued v hv
  simp only [olderRun, List.forall_mem_cons]
  refine ⟨?_, ?_, holder, ?_, by simp⟩ <;>
    simp [Action.Within, Action.visits, issuedBy, Query.olderHandouts, Arena.issueAll, Arena.issue,
      Arena.addNode, Arena.addParam, Arena.empty, Arena.next, Arena.grow]

theorem names_stable_and_distinct_older :
    Settings.default.isValid ∧ (∀ a ∈ olderRun, a.Within ⟨0⟩ Query.olderHandouts)
    ∧ ((fresh ⟨0⟩ .default).run olderRun).lookUp (.ref ⟨⟨⟨0⟩, 0⟩, .node⟩)
      = (.ok "this", (fresh ⟨0⟩ .default).run olderRun) :=
  ⟨by decide, olderRun_within,
    (names_stable_and_distinct (by decide) olderRun_within).1 (olderRun.take 3) [.enter] rfl _
      "this" rfl (by rfl)⟩

end Naming

end GraphQuery
