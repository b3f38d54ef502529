import GraphQuery.Proofs.FirstVisits
import GraphQuery.Proofs.OnePass
import Mathlib.Data.List.Nodup

/-!
# Builds over one arena

A reference is only ever obtained from an arena, and an arena never hands out the same number twice.
So among everything that one arena has handed out the identity of a visit determines all of it: what
kind of reference it is, or which value a parameter bears.

For a query over one arena this closes the gap between the two ways to name. A build names each
reference when it comes to it, while it writes. The other way makes two passes: it lists the visits
of the tree first, settles every name from that list, and writes the text with the names fixed.
-/

namespace GraphQuery

/-! ## What an arena hands out -/

/-- What an arena can hand out. -/
inductive Handout
  | node (labels : List String)
  | relationship (type : Option String)
  | var
  | param (value : Json)
  | pointParam (value : Json)

namespace Arena

/-- The visit to what is handed out, and the arena after it. -/
def issue (a : Arena) : Handout → Visit × Arena
  | .node labels => (.ref (a.addNode labels).1.reference, (a.addNode labels).2)
  | .relationship type => (.ref (a.addRelationship type).1.reference, (a.addRelationship type).2)
  | .var => (.ref a.addVariable.1.reference, a.addVariable.2)
  | .param value => (.param (a.addParam value).1, (a.addParam value).2)
  | .pointParam value => (.param (a.addPointParam value).1, (a.addPointParam value).2)

/-- The visits to everything that is handed out in this order. -/
def issueAll (a : Arena) : List Handout → List Visit
  | [] => []
  | handout :: rest => (a.issue handout).1 :: (a.issue handout).2.issueAll rest

/-- The arena after all of this. -/
def after (a : Arena) : List Handout → Arena
  | [] => a
  | handout :: rest => (a.issue handout).2.after rest

variable (a : Arena)

theorem issueAll_append (rs rs' : List Handout) :
    a.issueAll (rs ++ rs') = a.issueAll rs ++ (a.after rs).issueAll rs' := by
  induction rs generalizing a with
  | nil => rfl
  | cons handout rest ih => exact congrArg (_ :: ·) (ih _)

theorem issue_id (handout : Handout) : (a.issue handout).1.id = a.next := by
  cases handout <;> rfl

theorem issue_grow (handout : Handout) : (a.issue handout).2 = a.grow := by
  cases handout <;> rfl

theorem after_id (rs : List Handout) : (a.after rs).id = a.id := by
  induction rs generalizing a with
  | nil => rfl
  | cons handout rest ih => rw [after, ih, issue_grow, grow]

/-- References are numbered in the order in which they are handed out. -/
theorem id_of_getElem?_issueAll {rs : List Handout} {k : Nat} {v : Visit}
    (h : (a.issueAll rs)[k]? = some v) : v.id = ⟨a.id, a.size + k⟩ := by
  induction rs generalizing a k with
  | nil => cases h
  | cons handout rest ih =>
    cases k with
    | zero =>
      obtain rfl := Option.some.inj h
      exact a.issue_id handout
    | succ k =>
      have hid := ih _ h
      rw [issue_grow] at hid
      rw [hid, grow, Nat.add_assoc, Nat.add_comm 1]

theorem arena_of_mem_issueAll {rs : List Handout} {v : Visit} (h : v ∈ a.issueAll rs) :
    v.id.arena = a.id := by
  induction rs generalizing a with
  | nil => exact absurd h List.not_mem_nil
  | cons handout rest ih =>
    rcases List.mem_cons.mp h with rfl | h
    · rw [issue_id]
      rfl
    · have h' := ih _ h
      rwa [issue_grow] at h'

theorem le_index_of_mem_issueAll {rs : List Handout} {v : Visit} (h : v ∈ a.issueAll rs) :
    a.size ≤ v.id.index := by
  induction rs generalizing a with
  | nil => exact absurd h List.not_mem_nil
  | cons handout rest ih =>
    rcases List.mem_cons.mp h with rfl | h
    · rw [issue_id]
      exact Nat.le_refl _
    · have h' := ih _ h
      rw [issue_grow] at h'
      exact Nat.le_of_succ_le h'

/-- No identity is handed out twice. -/
theorem nodup_issueAll (rs : List Handout) : ((a.issueAll rs).map Visit.id).Nodup := by
  induction rs generalizing a with
  | nil => exact List.nodup_nil
  | cons handout rest ih =>
    refine List.nodup_cons.mpr ⟨fun h => ?_, ih _⟩
    -- whatever is handed out later has a larger number than the first
    obtain ⟨v, hv, heq⟩ := List.mem_map.mp h
    have hle := le_index_of_mem_issueAll _ hv
    rw [heq, issue_id, issue_grow] at hle
    exact absurd hle (Nat.not_succ_le_self a.size)

/-- Among all that an arena hands out, an identity tells what it stands for. -/
theorem eq_of_id_of_mem_issueAll {rs : List Handout} {v w : Visit} (hv : v ∈ a.issueAll rs)
    (hw : w ∈ a.issueAll rs) (hid : v.id = w.id) : v = w :=
  List.inj_on_of_nodup_map (a.nodup_issueAll rs) hv hw hid

end Arena

/-- Everything that an arena hands out in this order, from the first on. -/
def issuedBy (arena : ArenaId) (rs : List Handout) : List Visit :=
  (Arena.empty arena).issueAll rs

/-- All that the query visits was handed out by this arena. -/
def Query.Over (q : Query) (arena : ArenaId) : Prop :=
  ∃ rs, ∀ v ∈ q.visits, v ∈ issuedBy arena rs

namespace Query.Over

variable {q : Query} {arena : ArenaId}

theorem arena_eq (h : q.Over arena) {v : Visit} (hv : v ∈ q.visits) : v.id.arena = arena := by
  obtain ⟨rs, hrs⟩ := h
  exact Arena.arena_of_mem_issueAll _ (hrs v hv)

theorem eq_of_id (h : q.Over arena) {v w : Visit} (hv : v ∈ q.visits) (hw : w ∈ q.visits)
    (hid : v.id = w.id) : v = w := by
  obtain ⟨rs, hrs⟩ := h
  exact Arena.eq_of_id_of_mem_issueAll _ (hrs v hv) (hrs w hw) hid

/-- Over one arena every visit is one of the first visits. -/
theorem mem_firstVisits (h : q.Over arena) {v : Visit} (hv : v ∈ q.visits) :
    v ∈ firstVisits q.visits :=
  GraphQuery.mem_firstVisits (fun _ hv _ hw => h.eq_of_id hv hw) hv

end Query.Over

/-! ## The two ways to name -/

namespace Query

variable {q : Query} {arena : ArenaId} {s : Settings} {b : Built}

/-- A build that succeeds leaves the naming after all visits of its query, and its text is the one
under any naming that agrees with it. -/
theorem build_ok (h : q.build arena s = .ok b) :
    (q.buildIn (.fresh arena s)).2 = (Naming.fresh arena s).visitAll q.visits
    ∧ b.params = ((Naming.fresh arena s).visitAll q.visits).params
    ∧ (∀ v ∈ q.visits, v.id.arena = arena)
    ∧ ∀ names, ((Naming.fresh arena s).visitAll q.visits).Agrees names q.visits →
        b.text = q.textUnder names := by
  unfold build at h
  unfold buildIn at h ⊢
  rcases hr : q.render.run (.fresh arena s) with ⟨_ | text, n⟩ <;> rw [hr] at h
  · cases h
  · obtain rfl := Except.ok.inj h
    obtain ⟨hn, harena, htext⟩ := q.render_follows.ok hr
    subst hn
    exact ⟨rfl, rfl, harena, htext⟩

/-- The names settled in the first pass are the ones that the build gives. -/
theorem agrees_namesOf (h : q.Over arena) :
    ((Naming.fresh arena s).visitAll q.visits).Agrees (Naming.namesOf s (firstVisits q.visits))
      q.visits := by
  intro v hv name hname
  have harena : ∀ w ∈ firstVisits q.visits, w.id.arena = arena := fun w hw =>
    h.arena_eq (mem_of_mem_firstVisits hw)
  rw [Naming.visitAll_fresh fun w hw => h.arena_eq hw, Naming.nameAt_ofVisits harena
    (nodup_firstVisits _) (h.mem_firstVisits hv)] at hname
  exact Option.some.inj hname

/-- **A build that names on the way writes what two passes write.** The text is that of the tree
under the fixed names, and the table holds the values of the parameters in the order of their first
visits. -/
theorem build_eq_twoPass (ho : q.Over arena) (hb : q.build arena s = .ok b) :
    b.text = q.textUnder (Naming.namesOf s (firstVisits q.visits))
    ∧ b.params = (paramsOf (firstVisits q.visits)).mapIdx fun j p =>
        (s.paramStem ++ toString j, p.value) := by
  obtain ⟨_, hparams, harena, htext⟩ := build_ok hb
  refine ⟨htext _ (agrees_namesOf ho), ?_⟩
  rw [hparams, Naming.visitAll_fresh harena]
  rfl

/-- A node labelled `A` and a parameter. -/
def olderHandouts : List Handout :=
  [.node ["A"], .param (.int 30)]

/-- Nodes labelled `A` that are older than a parameter says, sought once more in a subquery. -/
def older : Query :=
  let (node, a) := (Arena.empty ⟨0⟩).addNode ["A"]
  let (age, _) := a.addParam (.int 30)
  let condition := Predicate.compare .gt (.property node.reference "age") (.param age)
  ⟨[.matching false ⟨.declared node, []⟩ (some condition),
    .call [.matching false ⟨.bound node, []⟩ (some condition)],
    .result ⟨.entity node.reference [], none⟩]⟩

theorem older_issued : ∀ v ∈ older.visits, v ∈ issuedBy ⟨0⟩ olderHandouts := by
  simp [older, visits, Clause.bodyVisits, Clause.visits, Pattern.visits, NodePattern.visits,
    NodePattern.declared, NodePattern.bound, Predicate.visits, Expr.visits, Result.visits,
    ReturnTarget.visits, olderHandouts, issuedBy, Arena.issueAll, Arena.issue]

theorem older_over : older.Over ⟨0⟩ :=
  ⟨olderHandouts, older_issued⟩

/-- What the settings by default make of it. -/
def olderBuilt : Built :=
  ⟨"MATCH (this:\x60A\x60)\nWHERE this.age > $param0\n" ++
    "CALL \x7b MATCH (this)\nWHERE this.age > $param0 \x7d\nRETURN this",
    [("param0", .int 30)]⟩

theorem older_build : older.build ⟨0⟩ .default = .ok olderBuilt := rfl

theorem build_eq_twoPass_older :
    older.Over ⟨0⟩ ∧ older.build ⟨0⟩ .default = .ok olderBuilt
    ∧ olderBuilt.text = older.textUnder (Naming.namesOf .default (firstVisits older.visits))
    ∧ olderBuilt.params = (paramsOf (firstVisits older.visits)).mapIdx fun j p =>
        (Settings.default.paramStem ++ toString j, p.value) :=
  ⟨older_over, older_build, build_eq_twoPass older_over older_build⟩

end Query

end GraphQuery
