import GraphQuery.Proofs.Runs
import GraphQuery.Proofs.Tokens
import GraphQuery.Proofs.Walks

/-!
# Rendering a part again

Rendering gives names on the way, and it stops where the part has a defect. Whoever renders the same
part again gets the same text, or the same refusal, and changes nothing by it. That is so however
much has happened in between: other parts may have been rendered or have failed halfway, further
names may have been given, values may have been stored under names that are yet to come.

The reason is that a naming only grows. A later naming extends an earlier one: whatever had a name
has it still. How a walk ends depends on no name, so the second walk stops where the first one did,
and everything it visits until then has been named by the first. This covers the failure too, of
which it is not enough to know that the first few visits were made: they have to be the same few.
-/

namespace GraphQuery

/-! ## Later namings -/

namespace Naming

/-- The second naming is a later state of the first, at the same depth. -/
structure Extends (n n' : Naming) : Prop where
  arena : n'.arena = n.arena
  settings : n'.settings = n.settings
  depth : n'.depth = n.depth
  /-- A name that was given is never taken back. -/
  names : ∀ i name, n.nameAt i = some name → n'.nameAt i = some name

namespace Extends

variable {n n' n'' : Naming}

theorem refl (n : Naming) : n.Extends n :=
  ⟨rfl, rfl, rfl, fun _ _ h => h⟩

theorem trans (h : n.Extends n') (h' : n'.Extends n'') : n.Extends n'' :=
  ⟨h'.arena.trans h.arena, h'.settings.trans h.settings, h'.depth.trans h.depth,
    fun i name hi => h'.names i name (h.names i name hi)⟩

theorem visitAll (n : Naming) (vs : List Visit) : n.Extends (n.visitAll vs) :=
  ⟨visitAll_arena n vs, visitAll_settings n vs, visitAll_depth n vs, fun _ _ => nameAt_visitAll⟩

/-- A stored value names nothing. -/
theorem record (n : Naming) (name : String) (value : Json) : n.Extends (n.record name value) := by
  unfold Naming.record
  split
  · exact refl n
  · exact ⟨rfl, rfl, rfl, fun _ _ h => h⟩

end Extends

/-! ## Walking again -/

theorem nameAt_step {n : Naming} {i : Nat} {name : String} (h : n.nameAt i = some name)
    (s : Step) : (n.step s).2.nameAt i = some name := by
  cases s with
  | visit v => exact nameAt_visit h
  | refuse why => exact h
  | enter =>
    rw [step, enter]
    split <;> exact h
  | leave => exact h

theorem nameAt_walk {n : Naming} {i : Nat} {name : String} (h : n.nameAt i = some name)
    (ss : List Step) : (n.walk ss).2.nameAt i = some name := by
  induction ss generalizing n with
  | nil => exact h
  | cons s ss ih =>
    have hstep := nameAt_step h s
    rw [walk]
    rcases hs : n.step s with ⟨_ | _, n'⟩ <;> rw [hs] at hstep
    · exact hstep
    · exact ih hstep

/-- Where everything that a walk has named is named already, the same walk changes the depth at
most. -/
theorem walk_again {n n' : Naming} (ss : List Step) (harena : n'.arena = n.arena)
    (hsettings : n'.settings = n.settings) (hdepth : n'.depth = n.depth)
    (hnames : ∀ i name, (n.walk ss).2.nameAt i = some name → n'.nameAt i = some name) :
    (n'.walk ss).2 = n'.withDepth (n.walk ss).2.depth := by
  induction ss generalizing n n' with
  | nil =>
    show n' = n'.withDepth n.depth
    rw [← hdepth]
    rfl
  | cons s ss ih =>
    -- a walk that ends here leaves the second naming as it was
    have hstay : n' = n'.withDepth n.depth := by
      rw [← hdepth]
      rfl
    cases s with
    | visit v =>
      by_cases ha : v.id.arena = n.arena
      · have ha' : v.id.arena = n'.arena := ha.trans harena.symm
        rw [walk_visit ha] at hnames ⊢
        -- the first walk has named the visit, so the second has nothing to name
        obtain ⟨name, hv⟩ := nameAt_visit_self ha
        have hnamed := hnames _ _ (nameAt_walk hv ss)
        have hvisit : n'.visit v = n' := by rw [visit, lookUp_named ha' hnamed]
        rw [walk_visit ha', hvisit]
        exact ih (by rw [harena, visit_arena]) (by rw [hsettings, visit_settings])
          (by rw [hdepth, visit_depth]) hnames
      · have ha' : v.id.arena ≠ n'.arena := by rwa [harena]
        rw [walk_foreign ha', walk_foreign ha]
        exact hstay
    | refuse why => exact hstay
    | enter =>
      by_cases hd : n.depth + 1 > n.settings.maxDepth
      · have hd' : n'.depth + 1 > n'.settings.maxDepth := by rwa [hdepth, hsettings]
        rw [walk_full hd', walk_full hd]
        exact hstay
      · have hd' : ¬n'.depth + 1 > n'.settings.maxDepth := by rwa [hdepth, hsettings]
        rw [walk_enter hd] at hnames ⊢
        rw [walk_enter hd']
        exact @ih (n.withDepth (n.depth + 1)) (n'.withDepth (n'.depth + 1)) harena hsettings
          (congrArg (· + 1) hdepth) hnames
    | leave =>
      exact @ih n.leave n'.leave harena hsettings (congrArg (· - 1) hdepth) hnames

end Naming

/-! ## Rendering again -/

/-- What a step of a build has done once, it finds done in every later naming. -/
theorem Render.Walks.again {α : Type} {m : Render α} {ss : List Step} {vs : List Visit}
    {f : Names → α} (hw : Render.Walks m ss) (hf : Render.Follows m vs f) {n n' : Naming}
    (h : (m.run n).2.Extends n') : m.run n' = ((m.run n).1, n') := by
  obtain ⟨ws, -, hvisits⟩ := hf.run_snd n
  have hlater : n.Extends n' := by
    rw [hvisits] at h
    exact (Naming.Extends.visitAll n ws).trans h
  have hnaming : (m.run n').2 = n' := by
    have hwalk := Naming.walk_again ss hlater.arena hlater.settings hlater.depth
      fun i name hi => h.names i name (by rw [hw.naming n]; exact hi)
    rw [hw.naming n', hwalk]
    rfl
  have hends : (m.run n').1.map (fun _ => ()) = (m.run n).1.map fun _ => () := by
    rw [hw.outcome, hw.outcome, Naming.walk_fst, Naming.walk_fst, hlater.arena, hlater.settings,
      hlater.depth]
  refine Prod.ext ?_ hnaming
  rcases hr : m.run n with ⟨fault | a, n₁⟩ <;> rcases hr' : m.run n' with ⟨fault' | a', n₂⟩ <;>
    rw [hr, hr'] at hends
  · exact congrArg Except.error (Except.error.inj hends)
  · cases hends
  · cases hends
  · -- both texts are the one under the names that the later naming gives
    obtain ⟨-, -, htext⟩ := hf.ok hr
    obtain ⟨-, -, htext'⟩ := hf.ok hr'
    have hagree : n₁.Agrees n'.called vs := fun v _ name hname => by
      have hi := h.names v.id.index name (by rw [hr]; exact hname)
      rw [Naming.called, hi]
      rfl
    have hsame : n₂ = n' := by rw [← hnaming, hr']
    rw [htext _ hagree, htext' n'.called (hsame ▸ Naming.agrees_called n' vs)]

/-- Every part of a query walks some steps, and follows its visits. -/
theorem Fragment.render_walks_follows (f : Fragment) :
    ∃ ss text, Render.Walks f.render ss ∧ Render.Follows f.render f.visits text := by
  cases f with
  | query q => exact ⟨_, _, q.render_walks, q.render_follows⟩
  | clause c => exact ⟨_, _, Clause.render_walks c, Clause.render_follows c⟩
  | predicate p => exact ⟨_, _, Predicate.render_walks p, Predicate.render_follows p⟩
  | withItem item => exact ⟨_, _, item.render_walks, item.render_follows⟩
  | orderItem item =>
    have hfollows := (renderOrderItems_follows [item]).map (k := String.join)
    rw [List.flatMap_singleton] at hfollows
    exact ⟨_, _, (renderOrderItems_walks [item]).map, hfollows⟩
  | pattern p => exact ⟨_, _, p.render_walks, p.render_follows⟩
  | nodePattern p => exact ⟨_, _, p.render_walks, p.render_follows⟩
  | arrow hop => exact ⟨_, _, hop.renderArrow_walks, hop.renderArrow_follows⟩
  | expr e => exact ⟨_, _, e.render_walks, e.render_follows⟩
  | function f => exact ⟨_, _, FunctionCall.render_walks f, FunctionCall.render_follows f⟩
  | field f => exact ⟨_, _, ProjectionField.render_walks f, ProjectionField.render_follows f⟩

/-! ## What may happen in between -/

/-- A use of a naming that opens and closes nothing. -/
inductive Touch
  | aliasOf (target : Reference)
  | paramName (target : Param)
  /-- Stores a value, under whichever name. -/
  | record (name : String) (value : Json)
  | render (fragment : Fragment)

namespace Naming

/-- The naming after one use, whatever came of it. -/
def touch (n : Naming) : Touch → Naming
  | .aliasOf r => (n.aliasOf r).2
  | .paramName p => (n.paramName p).2
  | .record name value => n.record name value
  | .render f => (f.render.run n).2

/-- The naming after some uses, one after the other. -/
def touchAll (n : Naming) (touches : List Touch) : Naming :=
  touches.foldl touch n

theorem extends_touch (n : Naming) (t : Touch) : n.Extends (n.touch t) := by
  cases t with
  | aliasOf r => exact .visitAll n [.ref r]
  | paramName p => exact .visitAll n [.param p]
  | record name value => exact .record n name value
  | render f =>
    obtain ⟨ws, -, h⟩ := f.run_snd n
    rw [touch, h]
    exact .visitAll n ws

theorem extends_touchAll (n : Naming) (touches : List Touch) : n.Extends (n.touchAll touches) := by
  induction touches generalizing n with
  | nil => exact .refl n
  | cons t rest ih => exact (n.extends_touch t).trans (ih (n.touch t))

end Naming

/-- **Rendering a part again gives the same and changes nothing.** Whatever the naming was at first,
and whatever has been named, stored and rendered since, the outcome is the first one, a failure
included, and the naming stays as it is. -/
theorem Fragment.render_again (f : Fragment) (n : Naming) (later : List Touch) :
    f.render.run ((f.render.run n).2.touchAll later)
      = ((f.render.run n).1, (f.render.run n).2.touchAll later) := by
  obtain ⟨_, _, hwalks, hfollows⟩ := f.render_walks_follows
  exact hwalks.again hfollows (Naming.extends_touchAll _ later)

end GraphQuery
