import GraphQuery.Proofs.Tokens

/-!
# Clauses one after the other

A query is a list of clauses, and a build goes through it from the first to the last. What the later
ones can see of the earlier ones is the naming that those leave behind, and nothing else. So to
build two lists one after the other is to build both together: the first decides by itself whether
it fails, and its text and its table stand at the beginning of the whole.

A subquery is rendered in the naming that it finds, and hands on the naming that it leaves. Opening
and closing it changes the depth for a while, and no name depends on the depth. Clauses that are put
into a subquery are therefore written as before, and so is everything after them.
-/

namespace GraphQuery

namespace Naming

/-- A visit adds to the table at its end. -/
theorem params_prefix_visit (n : Naming) (v : Visit) : n.params <+: (n.visit v).params := by
  have hrecord : ∀ (m : Naming) (name : String) (value : Json),
      m.params <+: (m.record name value).params := by
    intro m name value
    unfold record
    split
    · exact List.prefix_rfl
    · exact List.prefix_append _ _
  rcases visit_cases n v with ⟨-, h⟩ | ⟨-, -, h⟩ | ⟨-, -, h⟩
  · exact ⟨[], by rw [h, List.append_nil]⟩
  · exact ⟨[], by rw [h, List.append_nil]⟩
  · have hgive : n.params <+: (n.give v).2.params := by
      cases v with
      | ref r => exact List.prefix_rfl
      | param p =>
        exact hrecord { n with
          allocated := n.allocated ++ [⟨.param, p.id.index, paramText n.settings n.paramCount⟩]
          paramCount := n.paramCount + 1 } _ _
    rwa [← h] at hgive

theorem params_prefix_visitAll (n : Naming) (vs : List Visit) :
    n.params <+: (n.visitAll vs).params := by
  induction vs generalizing n with
  | nil => exact List.prefix_rfl
  | cons v vs ih => exact (n.params_prefix_visit v).trans (ih (n.visit v))

end Naming

/-! ## Lines -/

/-- What stands between the texts of two lists of clauses. -/
def lineBreak (p q : List Clause) : String :=
  if p.isEmpty || q.isEmpty then "" else "\n"

theorem lines_append (ps qs : List String) :
    "\n".intercalate (ps ++ qs)
      = "\n".intercalate ps ++ (if ps.isEmpty || qs.isEmpty then "" else "\n")
        ++ "\n".intercalate qs := by
  cases ps with
  | nil => simp
  | cons p ps =>
    cases qs with
    | nil => simp
    | cons q qs =>
      rw [String.intercalate_append_of_ne_nil (List.cons_ne_nil _ _) (List.cons_ne_nil _ _)]
      rfl

/-! ## Rendering a list after another -/

namespace Clause

theorem renderAll_append (p q : List Clause) :
    renderAll (p ++ q) = do
      let ps ← renderAll p
      let qs ← renderAll q
      return ps ++ qs := by
  induction p with
  | nil => simp [renderAll]
  | cons clause rest ih => simp [renderAll, ih]

/-- Each clause has a text of its own. -/
theorem isEmpty_of_renderAll {p : List Clause} {n n' : Naming} {ps : List String}
    (h : (renderAll p).run n = (.ok ps, n')) : p.isEmpty = ps.isEmpty := by
  obtain ⟨-, -, htexts⟩ := (renderAll_follows p).ok h
  rw [htexts _ (n'.agrees_called _)]
  cases p <;> rfl

end Clause

namespace Query

theorem run_render (p : List Clause) (n : Naming) :
    (⟨p⟩ : Query).render.run n = match (Clause.renderAll p).run n with
      | (.error fault, n') => (.error fault, n')
      | (.ok texts, n') => (.ok ("\n".intercalate texts), n') := by
  unfold render
  rw [Render.run_bind]
  rcases (Clause.renderAll p).run n with ⟨_ | _, _⟩ <;> rfl

/-- **To render two lists together is to render one after the other.** The second starts with the
naming that the first has left. -/
theorem run_render_append (p q : List Clause) (n : Naming) :
    (⟨p ++ q⟩ : Query).render.run n = match (⟨p⟩ : Query).render.run n with
      | (.error fault, n') => (.error fault, n')
      | (.ok text, n') => match (⟨q⟩ : Query).render.run n' with
        | (.error fault, n'') => (.error fault, n'')
        | (.ok text', n'') => (.ok (text ++ lineBreak p q ++ text'), n'') := by
  rw [run_render, run_render, Clause.renderAll_append, Render.run_bind]
  rcases hp : (Clause.renderAll p).run n with ⟨fault | ps, n₁⟩
  · rfl
  · dsimp only
    rw [run_render, Render.run_bind]
    rcases hq : (Clause.renderAll q).run n₁ with ⟨fault | qs, n₂⟩
    · rfl
    · have hbreak : lineBreak p q = if ps.isEmpty || qs.isEmpty then "" else "\n" := by
        rw [lineBreak, Clause.isEmpty_of_renderAll hp, Clause.isEmpty_of_renderAll hq]
      show (Except.ok ("\n".intercalate (ps ++ qs)), n₂) = _
      rw [lines_append, hbreak]

/-! ## Clauses in a subquery -/

/-- The text of a subquery is that of its clauses, between brackets. -/
theorem textUnder_call (body : List Clause) (names : Names) :
    (⟨[.call body]⟩ : Query).textUnder names
      = "CALL \x7b " ++ (⟨body⟩ : Query).textUnder names ++ " \x7d" := by
  simp [textUnder, pieces, Clause.bodyPieces, Clause.pieces, Piece.text, Mark.char, Keyword.text,
    ← String.toList_inj]

/-- **A subquery is transparent.** When clauses can be rendered here and in a subquery here, they
have the same text in both places and leave the same naming. -/
theorem run_render_call {body : List Clause} {n n₁ n₂ : Naming} {inline nested : String}
    (hinline : (⟨body⟩ : Query).render.run n = (.ok inline, n₁))
    (hnested : (⟨[.call body]⟩ : Query).render.run n = (.ok nested, n₂)) :
    n₂ = n₁ ∧ nested = "CALL \x7b " ++ inline ++ " \x7d" := by
  obtain ⟨hn₁, -, htext₁⟩ := (⟨body⟩ : Query).render_follows.ok hinline
  obtain ⟨hn₂, -, htext₂⟩ := (⟨[.call body]⟩ : Query).render_follows.ok hnested
  have hvisits : (⟨[.call body]⟩ : Query).visits = (⟨body⟩ : Query).visits := List.append_nil _
  have hsame : n₂ = n₁ := by rw [hn₂, hn₁, hvisits]
  refine ⟨hsame, ?_⟩
  rw [htext₂ _ (n₂.agrees_called _), textUnder_call, hsame, htext₁ _ (n₁.agrees_called _)]

/-! ## Builds -/

section Builds

variable {q : Query} {arena : ArenaId} {s : Settings}

theorem build_eq_ok_iff {b : Built} : q.build arena s = .ok b
    ↔ ∃ n, q.render.run (.fresh arena s) = (.ok b.text, n) ∧ n.params = b.params := by
  rw [build, buildIn]
  rcases q.render.run (.fresh arena s) with ⟨fault | text, n⟩
  · refine iff_of_false (by rintro ⟨⟩) ?_
    rintro ⟨n', hn', -⟩
    cases (Prod.mk.inj hn').1
  · constructor
    · rintro ⟨⟩
      exact ⟨n, rfl, rfl⟩
    · rintro ⟨n', hn', hparams⟩
      obtain ⟨htext, rfl⟩ := Prod.mk.inj hn'
      exact congrArg Except.ok (congrArg₂ Built.mk (Except.ok.inj htext) hparams)

theorem build_eq_error_iff_run {fault : Fault} : q.build arena s = .error fault
    ↔ ∃ n, q.render.run (.fresh arena s) = (.error fault, n) := by
  rw [build, buildIn]
  rcases q.render.run (.fresh arena s) with ⟨fault' | text, n⟩
  · constructor
    · rintro ⟨⟩
      exact ⟨n, rfl⟩
    · rintro ⟨n', hn'⟩
      exact congrArg Except.error (Except.error.inj (Prod.mk.inj hn').1)
  · refine iff_of_false (by rintro ⟨⟩) ?_
    rintro ⟨n', hn'⟩
    cases (Prod.mk.inj hn').1

end Builds

/-- The text of the second list in the naming that the first has left. -/
def textAfter (arena : ArenaId) (s : Settings) (p q : List Clause) : Except Fault String :=
  ((⟨q⟩ : Query).render.run ((⟨p⟩ : Query).render.run (.fresh arena s)).2).1

/-- The names and the counts when the build is over. -/
def finalNaming (q : Query) (arena : ArenaId) (s : Settings) : Naming :=
  (q.buildIn (.fresh arena s)).2

section Composition

variable {arena : ArenaId} {s : Settings} {n n' : Naming}

/-- Both halves of a list that is rendered are rendered. -/
theorem run_render_split {p q : List Clause} {text : String}
    (h : (⟨p ++ q⟩ : Query).render.run n = (.ok text, n')) :
    ∃ first n₁ rest, (⟨p⟩ : Query).render.run n = (.ok first, n₁)
      ∧ (⟨q⟩ : Query).render.run n₁ = (.ok rest, n')
      ∧ text = first ++ lineBreak p q ++ rest := by
  rw [run_render_append] at h
  rcases hp : (⟨p⟩ : Query).render.run n with ⟨fault | first, n₁⟩ <;> rw [hp] at h
  · cases (Prod.mk.inj h).1
  · rcases hq : (⟨q⟩ : Query).render.run n₁ with ⟨fault | rest, n₂⟩ <;> dsimp only at h <;>
      rw [hq] at h
    · cases (Prod.mk.inj h).1
    · obtain ⟨htext, rfl⟩ := Prod.mk.inj h
      exact ⟨first, n₁, rest, rfl, hq, (Except.ok.inj htext).symm⟩

/-- Clauses in the middle of a list leave the same when they are put into a subquery, and so the
clauses after them have the same text too. -/
theorem run_render_middle {pre mid post : List Clause} (hmid : mid ≠ []) {n₁ n₂ : Naming}
    {inline nested : String}
    (hinline : (⟨pre ++ mid ++ post⟩ : Query).render.run n = (.ok inline, n₁))
    (hnested : (⟨pre ++ [.call mid] ++ post⟩ : Query).render.run n = (.ok nested, n₂)) :
    n₂ = n₁ ∧ ∃ before segment after,
      ((⟨mid⟩ : Query).render.run ((⟨pre⟩ : Query).render.run n).2).1 = .ok segment
      ∧ inline = before ++ segment ++ after
      ∧ nested = before ++ ("CALL \x7b " ++ segment ++ " \x7d") ++ after := by
  obtain ⟨_, m₁, last, hpremid, hpost, rfl⟩ := run_render_split hinline
  obtain ⟨first, m, segment, hpre, hsegment, rfl⟩ := run_render_split hpremid
  obtain ⟨_, m₂, last', hpremid', hpost', rfl⟩ := run_render_split hnested
  obtain ⟨first', m', segment', hpre', hsegment', rfl⟩ := run_render_split hpremid'
  obtain ⟨hfirst, rfl⟩ := Prod.mk.inj (hpre'.symm.trans hpre)
  obtain ⟨rfl, rfl⟩ := run_render_call hsegment hsegment'
  obtain ⟨hlast, rfl⟩ := Prod.mk.inj (hpost'.symm.trans hpost)
  -- neither list is empty, so the same stands before and after both
  have hbefore : lineBreak pre [.call mid] = lineBreak pre mid := by
    cases mid <;> simp_all [lineBreak]
  have hafter : lineBreak (pre ++ [.call mid]) post = lineBreak (pre ++ mid) post := by
    cases mid <;> simp_all [lineBreak]
  refine ⟨rfl, first ++ lineBreak pre mid, segment, lineBreak (pre ++ mid) post ++ last, ?_, ?_, ?_⟩
  · rw [hpre, hsegment]
  · simp only [String.append_assoc]
  · rw [Except.ok.inj hfirst, Except.ok.inj hlast, hbefore, hafter]
    simp only [String.append_assoc]

end Composition

/-- **Builds compose, and subqueries are transparent.** A list that fails by itself fails for the
same reason whatever follows it. A list that is built with something after it is built alone too:
its text and its table are the beginning of the longer ones, and what follows is the text of the
second list in the naming that the first leaves. And clauses that are put into a subquery keep their
text between its brackets; all other text, the table and every name and count stay the same. -/
theorem build_composes (arena : ArenaId) (s : Settings) :
    (∀ p q fault, build ⟨p⟩ arena s = .error fault → build ⟨p ++ q⟩ arena s = .error fault)
    ∧ (∀ p q whole, build ⟨p ++ q⟩ arena s = .ok whole →
        ∃ first rest, build ⟨p⟩ arena s = .ok first ∧ textAfter arena s p q = .ok rest
          ∧ whole.text = first.text ++ lineBreak p q ++ rest ∧ first.params <+: whole.params)
    ∧ ∀ pre mid post inline nested, mid ≠ [] → build ⟨pre ++ mid ++ post⟩ arena s = .ok inline →
        build ⟨pre ++ [.call mid] ++ post⟩ arena s = .ok nested →
          nested.params = inline.params
          ∧ finalNaming ⟨pre ++ [.call mid] ++ post⟩ arena s
            = finalNaming ⟨pre ++ mid ++ post⟩ arena s
          ∧ ∃ before segment after, textAfter arena s pre mid = .ok segment
            ∧ inline.text = before ++ segment ++ after
            ∧ nested.text = before ++ ("CALL \x7b " ++ segment ++ " \x7d") ++ after := by
  refine ⟨?_, ?_, ?_⟩
  · -- what fails does so before anything behind it is looked at
    intro p q fault hp
    obtain ⟨n, hn⟩ := build_eq_error_iff_run.mp hp
    refine build_eq_error_iff_run.mpr ⟨n, ?_⟩
    rw [run_render_append, hn]
  · -- the second part is rendered under the names that the first has given
    intro p q whole h
    obtain ⟨n, hn, hparams⟩ := build_eq_ok_iff.mp h
    obtain ⟨first, n₁, rest, hp, hq, htext⟩ := run_render_split hn
    obtain ⟨hvisits, -, -⟩ := (⟨q⟩ : Query).render_follows.ok hq
    refine ⟨⟨first, n₁.params⟩, rest, build_eq_ok_iff.mpr ⟨n₁, hp, rfl⟩, ?_, htext, ?_⟩
    · rw [textAfter, hp, hq]
    · rw [← hparams, hvisits]
      exact n₁.params_prefix_visitAll _
  · -- the brackets of a CALL visit nothing, so both end in one naming
    intro pre mid post inline nested hmid hi hn
    obtain ⟨n₁, hn₁, hparams₁⟩ := build_eq_ok_iff.mp hi
    obtain ⟨n₂, hn₂, hparams₂⟩ := build_eq_ok_iff.mp hn
    obtain ⟨rfl, htexts⟩ := run_render_middle hmid hn₁ hn₂
    refine ⟨hparams₂.symm.trans hparams₁, ?_, htexts⟩
    rw [finalNaming, finalNaming, buildIn, buildIn, hn₁, hn₂]

/-- What the subquery of `older` asks. -/
def olderBody : List Clause :=
  [.matching false ⟨.bound ⟨⟨⟨0⟩, 0⟩, ["A"]⟩, []⟩
    (some (.compare .gt (.property ⟨⟨⟨0⟩, 0⟩, .node⟩ "age") (.param ⟨⟨⟨0⟩, 1⟩, .int 30, false⟩)))]

/-- The same without the subquery. -/
def olderInlineBuilt : Built :=
  ⟨"MATCH (this:\x60A\x60)\nWHERE this.age > $param0\n" ++
    "MATCH (this)\nWHERE this.age > $param0\nRETURN this", [("param0", .int 30)]⟩

theorem build_composes_older :
    build ⟨[.withItems []] ++ older.clauses⟩ ⟨0⟩ .default = .error (.defect .emptyWith)
    ∧ (∃ first rest, build ⟨older.clauses.take 2⟩ ⟨0⟩ .default = .ok first
      ∧ textAfter ⟨0⟩ .default (older.clauses.take 2) (older.clauses.drop 2) = .ok rest
      ∧ olderBuilt.text = first.text ++ "\n" ++ rest ∧ first.params <+: olderBuilt.params)
    ∧ olderBody ≠ []
    ∧ older.clauses = older.clauses.take 1 ++ [.call olderBody] ++ older.clauses.drop 2
    ∧ build ⟨older.clauses.take 1 ++ olderBody ++ older.clauses.drop 2⟩ ⟨0⟩ .default
      = .ok olderInlineBuilt
    ∧ olderBuilt.params = olderInlineBuilt.params
    ∧ ∃ before segment after, textAfter ⟨0⟩ .default (older.clauses.take 1) olderBody = .ok segment
      ∧ olderInlineBuilt.text = before ++ segment ++ after
      ∧ olderBuilt.text = before ++ ("CALL \x7b " ++ segment ++ " \x7d") ++ after := by
  obtain ⟨hfails, hgoesOn, htransparent⟩ := build_composes ⟨0⟩ .default
  have hmid : olderBody ≠ [] := List.cons_ne_nil _ _
  have hinline : build ⟨older.clauses.take 1 ++ olderBody ++ older.clauses.drop 2⟩ ⟨0⟩ .default
      = .ok olderInlineBuilt := rfl
  obtain ⟨hparams, -, htexts⟩ := htransparent _ _ _ _ olderBuilt hmid hinline older_build
  exact ⟨hfails _ _ _ rfl, hgoesOn (older.clauses.take 2) (older.clauses.drop 2) _ older_build,
    hmid, rfl, hinline, hparams, htexts⟩

end Query

end GraphQuery
