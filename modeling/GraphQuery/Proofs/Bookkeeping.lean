import GraphQuery.Proofs.Bindings
import GraphQuery.Proofs.Runs
import GraphQuery.Proofs.Tokens
import Mathlib.Data.List.Perm.Basic

/-!
# The books of a naming

A naming keeps the same facts in three places: the names by number, two counters, and the table of
values in the order of its entries. One name given changes all three, and a part of a query can fail
between any two names. Recording a value does nothing when the name is taken, so a parameter name
given twice would leave the second parameter named and its value lost.

The table says what the books must agree on: for everything that the arena of the naming has handed
out, one alias counted for each named reference and one entry for each named parameter. A run that
started fresh is the naming of its first visits, and those are exactly what has a name, so the books
agree at every point of it.
-/

namespace GraphQuery

namespace Naming

/-- Those of some visits that have a name. -/
def named (n : Naming) (vs : List Visit) : List Visit :=
  vs.filter fun v => (n.nameAt v.id.index).isSome

/-- The books agree about what the arena has handed out. -/
structure Balanced (n : Naming) (s : Settings) (vs : List Visit) : Prop where
  /-- One alias is counted for each reference that has a name. -/
  aliases : n.aliasCount = (refsOf (n.named vs)).length
  /-- No alias is skipped: each count up to the next one has its reference. -/
  numbered : ∀ k < n.aliasCount, ∃ r ∈ refsOf (n.named vs),
    n.nameAt r.id.index = some (aliasText s r.kind k)
  /-- No parameter name is skipped either, and the table has them in their order. -/
  names : n.params.map Prod.fst =
    (List.range n.paramCount).map fun j => s.paramStem ++ toString j
  /-- The table has one entry for each parameter that has a name: the name and the value. -/
  entries : n.params.Perm ((paramsOf (n.named vs)).map fun p => (n.called (.param p), p.value))

variable {arena : ArenaId} {s : Settings} {rs : List Handout} {fs : List Visit} {d : Nat}

/-! ## What has a name -/

/-- The first visits, in the order in which the arena has handed them out. -/
theorem perm_named_ofVisits (hfs : ∀ v ∈ fs, v ∈ issuedBy arena rs)
    (hnodup : (fs.map Visit.id).Nodup) :
    fs.Perm ((ofVisits arena s fs d).named (issuedBy arena rs)) := by
  have hissued : (issuedBy arena rs).Nodup :=
    List.Nodup.of_map Visit.id (Arena.nodup_issueAll (Arena.empty arena) rs)
  refine (List.perm_ext_iff_of_nodup (List.Nodup.of_map _ hnodup) (hissued.filter _)).mpr ?_
  intro v
  rw [List.mem_filter, Option.isSome_iff_exists]
  constructor
  · intro hv
    exact ⟨hfs v hv, _, (nameAt_ofVisits_issued hfs hnodup (hfs v hv)).mpr ⟨hv, rfl⟩⟩
  · rintro ⟨hv, name, hname⟩
    exact ((nameAt_ofVisits_issued hfs hnodup hv).mp hname).1

/-! ## The books agree -/

theorem refIds_sublist (fs : List Visit) :
    ((refsOf fs).map Reference.id).Sublist (fs.map Visit.id) := by
  induction fs with
  | nil => exact .slnil
  | cons v fs ih =>
    cases v with
    | ref r => exact ih.cons_cons _
    | param p => exact ih.cons _

/-- The reference that comes after `k` others is counted so. -/
theorem idxOf_refIds (hnodup : (fs.map Visit.id).Nodup) {k : Nat} (hk : k < (refsOf fs).length) :
    ((refsOf fs).map Reference.id).idxOf (refsOf fs)[k].id = k := by
  have hids : ((refsOf fs).map Reference.id).Nodup := hnodup.sublist (refIds_sublist fs)
  have h := hids.idxOf_getElem k (by simpa using hk)
  rwa [List.getElem_map] at h

theorem balanced_ofVisits (hfs : ∀ v ∈ fs, v ∈ issuedBy arena rs)
    (hnodup : (fs.map Visit.id).Nodup) :
    (ofVisits arena s fs d).Balanced s (issuedBy arena rs) := by
  have hperm := perm_named_ofVisits (s := s) (d := d) hfs hnodup
  have hrefs : (refsOf fs).Perm (refsOf ((ofVisits arena s fs d).named (issuedBy arena rs))) :=
    hperm.filterMap Visit.ref?
  have hparams : (paramsOf fs).Perm
      (paramsOf ((ofVisits arena s fs d).named (issuedBy arena rs))) :=
    hperm.filterMap Visit.param?
  have hnames : ∀ v ∈ fs, (ofVisits arena s fs d).nameAt v.id.index = some (namesOf s fs v) :=
    fun v hv => (nameAt_ofVisits_issued hfs hnodup (hfs v hv)).mpr ⟨hv, rfl⟩
  refine ⟨hrefs.length_eq, ?_, names_paramTable s (paramsOf fs), ?_⟩
  · intro k hk
    -- the reference that was visited after `k` others was given that name
    have hmem : (refsOf fs)[k] ∈ refsOf fs := List.getElem_mem hk
    refine ⟨(refsOf fs)[k], hrefs.mem_iff.mp hmem, ?_⟩
    have hname := hnames _ (mem_refsOf.mp hmem)
    rw [namesOf_ref, idxOf_refIds hnodup hk] at hname
    exact hname
  · have htable : (ofVisits arena s fs d).params
        = (paramsOf fs).map fun p => ((ofVisits arena s fs d).called (.param p), p.value) := by
      refine (paramTable_eq_map hnodup).trans (List.map_congr_left fun p hp => ?_)
      rw [called, hnames _ (mem_paramsOf.mp hp)]
      rfl
    rw [htable]
    exact hparams.map _

/-- **The books agree at every point of a run.** A run asks for aliases and parameter names, opens
and closes subqueries and renders parts of queries, in any order. Rendering a part makes lookups
that are uses of their own, so a part that fails between two of them leaves the books as they are
after the last. -/
theorem balanced_run {actions : List Action} (h : ∀ a ∈ actions, a.Within arena rs) :
    ∀ before after, actions = before ++ after →
      ((fresh arena s).run before).Balanced s (issuedBy arena rs) := by
  rintro before after rfl
  have hbefore : ∀ a ∈ before, a.Within arena rs := fun a ha => h a (List.mem_append_left _ ha)
  obtain ⟨fs, d, hrun, hfs, hnodup⟩ := run_issued (s := s) hbefore
  rw [hrun]
  exact balanced_ofVisits hfs hnodup

/-- A node labelled `A` and two parameters. -/
def halfwayHandouts : List Handout :=
  [.node ["A"], .param (.int 30), .param (.int 40)]

/-- The property is named, then the first parameter, and the empty key at the end is refused. -/
def halfway : Expr :=
  .list [.property ⟨⟨⟨0⟩, 0⟩, .node⟩ "age", .param ⟨⟨⟨0⟩, 1⟩, .int 30, false⟩,
    .property ⟨⟨⟨0⟩, 0⟩, .node⟩ ""]

/-- In a subquery a list fails halfway, and after that the second parameter is used. -/
def halfwayRun : List Action :=
  [.enter, .render (.expr halfway), .paramName ⟨⟨⟨0⟩, 2⟩, .int 40, false⟩]

theorem balanced_run_halfway :
    (∀ a ∈ halfwayRun, a.Within ⟨0⟩ halfwayHandouts)
    ∧ (halfway.render.run (.fresh ⟨0⟩ .default)).1 = .error (.defect .emptyPropertyKey)
    ∧ ((fresh ⟨0⟩ .default).run (halfwayRun.take 2)).Balanced .default
      (issuedBy ⟨0⟩ halfwayHandouts)
    ∧ ((fresh ⟨0⟩ .default).run (halfwayRun.take 2)).params = [("param0", .int 30)]
    ∧ ((fresh ⟨0⟩ .default).run halfwayRun).params = [("param0", .int 30), ("param1", .int 40)]
    ∧ ((fresh ⟨0⟩ .default).run halfwayRun).aliasCount = 1 := by
  have hwithin : ∀ a ∈ halfwayRun, a.Within ⟨0⟩ halfwayHandouts := by
    simp [halfwayRun, Action.Within, Action.visits, Fragment.visits, halfway, Expr.visits,
      Expr.itemVisits, issuedBy, halfwayHandouts, Arena.issueAll, Arena.issue, Arena.addNode,
      Arena.addParam, Arena.empty, Arena.next, Arena.grow, NodeRef.reference]
  exact ⟨hwithin, rfl, balanced_run hwithin _ _ (List.take_append_drop 2 _).symm, rfl, rfl, rfl⟩

end Naming

end GraphQuery
