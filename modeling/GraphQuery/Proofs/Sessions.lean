import GraphQuery.Proofs.Parts

/-!
# What may follow a result

The operations of a query append one clause each, and the one that appends a result gives a finished
query, which has no such operations. So it looks as if nothing could come after a result. But a
finished query can be used as a query again, which is needed to make it the body of a subquery, and
what is a query can be appended to.

A session is a way to make a query: the operations that were applied, and those that made the
queries and conditions passed on the way. Whatever the clauses of a query are, some session makes
it. The results stand where they should, in the query and in all of its subqueries, exactly when no
session on the way went on with a query that had been finished.
-/

namespace GraphQuery

/-! ## Sessions -/

/-- An operation that appends a clause without a subquery. -/
inductive Operation
  | create (node : NodeRef) (properties : List (String × Expr))
  | withAll
  | withItems (items : List WithItem)
  | set (target : Reference) (properties : List (String × Expr))
  | orderBy (items : List OrderItem)
  | skip (count : Param)
  | limit (count : Param)

/-- The query with the clause of the operation behind its last. -/
def Operation.apply (q : Query) : Operation → Query
  | create node properties => q.create node properties
  | withAll => q.withAll
  | withItems items => q.withItems items
  | set target properties => q.set target properties
  | orderBy items => q.orderBy items
  | skip count => q.skip count
  | limit count => q.limit count

mutual

/-- How a query was made. -/
inductive Session
  | new
  | append (before : Session) (operation : Operation)
  | matching (before : Session) (optional : Bool) (pattern : Pattern)
  | matchingWhere (before : Session) (optional : Bool) (pattern : Pattern) (condition : Asked)
  | call (before : Session) (body : Session)
  /-- A finished query, used as a query. -/
  | resume (finished : FinishedSession)

/-- How a finished query was made. -/
inductive FinishedSession
  | finish (before : Session) (result : Result)
  | finishWith (before : Session) (target : Reference) (fields : List String) (name : Option String)

/-- How a condition was made. -/
inductive Asked
  | compare (operator : Comparison) (lhs rhs : Expr)
  | isNull (expr : Expr)
  | isNotNull (expr : Expr)
  | group (junction : Junction) (operands : List Asked)
  | not (operand : Asked)
  | existsIn (body : Session)

end

mutual

/-- The query that the operations make. -/
def Session.query : Session → Query
  | .new => .empty
  | .append before operation => operation.apply before.query
  | .matching before optional pattern => before.query.matching optional pattern none
  | .matchingWhere before optional pattern condition =>
    before.query.matching optional pattern (some condition.predicate)
  | .call before body => before.query.call body.query
  | .resume finished => finished.query.query

/-- The finished query that the operations make. -/
def FinishedSession.query : FinishedSession → FinishedQuery
  | .finish before result => before.query.finish result
  | .finishWith before target fields name => before.query.finishWith target fields name

/-- The condition that was asked. -/
def Asked.predicate : Asked → Predicate
  | .compare operator lhs rhs => .compare operator lhs rhs
  | .isNull e => .isNull e
  | .isNotNull e => .isNotNull e
  | .group junction operands => .group junction (Asked.predicates operands)
  | .not operand => .not operand.predicate
  | .existsIn body => .ofSubquery body.query

/-- The conditions that were asked, in their order. -/
def Asked.predicates : List Asked → List Predicate
  | [] => []
  | operand :: rest => operand.predicate :: Asked.predicates rest

end

/-- Whether the query was not finished. -/
def Session.isOpen : Session → Bool
  | .resume _ => false
  | .new | .append _ _ | .matching _ _ _ | .matchingWhere _ _ _ _ | .call _ _ => true

mutual

/-- Whether every operation was applied to a query that was not finished. -/
def Session.isTidy : Session → Bool
  | .new => true
  | .append before _ => before.isOpen && before.isTidy
  | .matching before _ _ => before.isOpen && before.isTidy
  | .matchingWhere before _ _ condition => before.isOpen && before.isTidy && condition.isTidy
  | .call before body => before.isOpen && before.isTidy && body.isTidy
  | .resume finished => finished.isTidy

/-- A finished query is as tidy as the one it was made from, which must not have been finished. -/
def FinishedSession.isTidy : FinishedSession → Bool
  | .finish before _ => before.isOpen && before.isTidy
  | .finishWith before _ _ _ => before.isOpen && before.isTidy

/-- A condition is tidy when all its subqueries are. -/
def Asked.isTidy : Asked → Bool
  | .compare _ _ _ => true
  | .isNull _ => true
  | .isNotNull _ => true
  | .group _ operands => Asked.areTidy operands
  | .not operand => operand.isTidy
  | .existsIn body => body.isTidy

/-- Operands are tidy when each of them is. -/
def Asked.areTidy : List Asked → Bool
  | [] => true
  | operand :: rest => operand.isTidy && Asked.areTidy rest

end

/-! ## Results -/

/-- Whether the clause is the result of its query. -/
def Clause.isResult : Clause → Bool
  | result _ => true
  | create _ _ | matching _ _ _ | call _ | withAll | withItems _ | set _ _ | orderBy _ | skip _
  | limit _ => false

/-- No clause but the last is a result, so there is one result at most and nothing after it. -/
def Clause.resultLast (body : List Clause) : Bool :=
  body.dropLast.all fun c => !c.isResult

namespace Query

/-- In the query and in each of its subqueries a result is the last clause. -/
def resultsLast (q : Query) : Bool :=
  Clause.resultLast q.clauses && q.bodies.all Clause.resultLast

/-- There is no result yet, except in subqueries, and there it is the last clause. -/
def unfinished (q : Query) : Bool :=
  (q.clauses.all fun c => !c.isResult) && q.bodies.all Clause.resultLast

end Query

theorem Clause.bodiesIn_append (cs ds : List Clause) :
    Clause.bodiesIn (cs ++ ds) = Clause.bodiesIn cs ++ Clause.bodiesIn ds := by
  induction cs with
  | nil => rfl
  | cons c cs ih => rw [List.cons_append, Clause.bodiesIn, Clause.bodiesIn, ih, List.append_assoc]

namespace Query

theorem bodies_push (q : Query) (c : Clause) : (q.push c).bodies = q.bodies ++ c.bodies := by
  rw [bodies, push, Clause.bodiesIn_append, Clause.bodiesIn, Clause.bodiesIn, List.append_nil]
  rfl

/-- Where there is no result yet, any clause may be appended, and nowhere else. -/
theorem resultsLast_push (q : Query) (c : Clause) :
    (q.push c).resultsLast = (q.unfinished && c.bodies.all Clause.resultLast) := by
  rw [resultsLast, bodies_push, List.all_append, Clause.resultLast, push, List.dropLast_concat,
    unfinished, Bool.and_assoc]

/-- After anything else than a result there is none yet if there was none before. -/
theorem unfinished_push (q : Query) {c : Clause} (hc : c.isResult = false) :
    (q.push c).unfinished = (q.push c).resultsLast := by
  rw [resultsLast_push, unfinished, bodies_push, List.all_append, push, List.all_append, unfinished]
  simp [hc, Bool.and_assoc]

theorem unfinished_push_result (q : Query) (r : Result) :
    (q.push (.result r)).unfinished = false := by
  simp [unfinished, push, Clause.isResult]

end Query

/-- An operation appends a clause that is no result and has no subquery. -/
theorem Operation.apply_eq_push (q : Query) (operation : Operation) :
    ∃ c : Clause, operation.apply q = q.push c ∧ c.isResult = false ∧ c.bodies = [] := by
  cases operation <;> exact ⟨_, rfl, rfl, rfl⟩

/-! ## What a session leaves -/

/-- What an open session makes has no result yet, unless one stands where it should not. -/
theorem Session.unfinished_query (s : Session) :
    s.query.unfinished = (s.isOpen && s.query.resultsLast) := by
  match s with
  | .new => rfl
  | .append before operation =>
    obtain ⟨c, happly, hresult, -⟩ := operation.apply_eq_push before.query
    rw [Session.query, happly]
    exact before.query.unfinished_push hresult
  | .matching before _ _ => exact before.query.unfinished_push rfl
  | .matchingWhere before _ _ _ => exact before.query.unfinished_push rfl
  | .call before _ => exact before.query.unfinished_push rfl
  -- a finished query ends in a result, so going on with it is never open
  | .resume (.finish before result) => exact before.query.unfinished_push_result result
  | .resume (.finishWith before _ _ _) => exact before.query.unfinished_push_result _

mutual

/-- **The results of a query stand where they should exactly when its session was tidy.** -/
theorem Session.resultsLast_query (s : Session) : s.query.resultsLast = s.isTidy := by
  -- what is appended has to be tidy itself, and there may be no result in the query before it
  match s with
  | .new => rfl
  | .append before operation =>
    obtain ⟨c, happly, -, hbodies⟩ := operation.apply_eq_push before.query
    have hbefore := Session.resultsLast_query before
    rw [Session.query, happly, Query.resultsLast_push, before.unfinished_query, hbefore, hbodies,
      List.all_nil, Bool.and_true, Session.isTidy]
  | .matching before optional pattern =>
    have hbefore := Session.resultsLast_query before
    rw [Session.query, Query.matching, Query.resultsLast_push, before.unfinished_query, hbefore,
      Clause.bodies, List.all_nil, Bool.and_true, Session.isTidy]
  | .matchingWhere before optional pattern condition =>
    have hbefore := Session.resultsLast_query before
    have hcondition := Asked.resultsLast_predicate condition
    rw [Session.query, Query.matching, Query.resultsLast_push, before.unfinished_query, hbefore,
      Clause.bodies, hcondition, Session.isTidy]
  | .call before body =>
    have hbefore := Session.resultsLast_query before
    have hbody := Session.resultsLast_query body
    rw [Session.query, Query.call, Query.resultsLast_push, before.unfinished_query, hbefore,
      Clause.bodies, List.all_cons]
    exact congrArg (before.isOpen && before.isTidy && ·) hbody
  | .resume finished => exact FinishedSession.resultsLast_query finished

theorem FinishedSession.resultsLast_query (f : FinishedSession) :
    f.query.query.resultsLast = f.isTidy := by
  -- either way one clause is appended, and it has no subquery
  have hresult : ∀ (before : Session) (r : Result),
      before.query.resultsLast = before.isTidy →
        (before.query.push (.result r)).resultsLast = (before.isOpen && before.isTidy) := by
    intro before r hbefore
    rw [Query.resultsLast_push, before.unfinished_query, hbefore, Clause.bodies, List.all_nil,
      Bool.and_true]
  match f with
  | .finish before result => exact hresult before _ (Session.resultsLast_query before)
  | .finishWith before _ _ _ => exact hresult before _ (Session.resultsLast_query before)

theorem Asked.resultsLast_predicate (a : Asked) :
    a.predicate.bodies.all Clause.resultLast = a.isTidy := by
  match a with
  | .compare _ _ _ => rfl
  | .isNull _ => rfl
  | .isNotNull _ => rfl
  | .group junction operands => exact Asked.resultsLast_predicates operands
  | .not operand => exact Asked.resultsLast_predicate operand
  | .existsIn body => exact Session.resultsLast_query body

theorem Asked.resultsLast_predicates (operands : List Asked) :
    (Predicate.operandBodies (Asked.predicates operands)).all Clause.resultLast
      = Asked.areTidy operands := by
  match operands with
  | [] => rfl
  | operand :: rest =>
    have hoperand := Asked.resultsLast_predicate operand
    have hrest := Asked.resultsLast_predicates rest
    rw [Asked.predicates, Predicate.operandBodies, List.all_append, hoperand, hrest,
      Asked.areTidy]

end

/-! ## Every query has a session -/

mutual

theorem Predicate.exists_asked (p : Predicate) : ∃ a : Asked, a.predicate = p := by
  match p with
  | .compare operator lhs rhs => exact ⟨.compare operator lhs rhs, rfl⟩
  | .isNull e => exact ⟨.isNull e, rfl⟩
  | .isNotNull e => exact ⟨.isNotNull e, rfl⟩
  | .group junction operands =>
    obtain ⟨asked, hasked⟩ := Predicate.exists_askedAll operands
    exact ⟨.group junction asked, congrArg (Predicate.group junction) hasked⟩
  | .not operand =>
    obtain ⟨asked, hasked⟩ := Predicate.exists_asked operand
    exact ⟨.not asked, congrArg Predicate.not hasked⟩
  | .existsIn body =>
    obtain ⟨s, hs⟩ := Clause.exists_sessionAll body .new
    exact ⟨.existsIn s, congrArg (fun q : Query => Predicate.existsIn q.clauses) hs⟩

theorem Predicate.exists_askedAll (operands : List Predicate) :
    ∃ asked : List Asked, Asked.predicates asked = operands := by
  match operands with
  | [] => exact ⟨[], rfl⟩
  | operand :: rest =>
    obtain ⟨a, ha⟩ := Predicate.exists_asked operand
    obtain ⟨as, has⟩ := Predicate.exists_askedAll rest
    exact ⟨a :: as, congrArg₂ List.cons ha has⟩

/-- Any clause can be appended to any query; where the query was finished, or the clause is a
result, the session goes on with a finished query. -/
theorem Clause.exists_session (c : Clause) (before : Session) :
    ∃ s : Session, s.query = before.query.push c := by
  match c with
  | .create node properties => exact ⟨.append before (.create node properties), rfl⟩
  | .matching optional pattern none => exact ⟨.matching before optional pattern, rfl⟩
  | .matching optional pattern (some condition) =>
    obtain ⟨a, rfl⟩ := Predicate.exists_asked condition
    exact ⟨.matchingWhere before optional pattern a, rfl⟩
  | .call body =>
    obtain ⟨s, hs⟩ := Clause.exists_sessionAll body .new
    exact ⟨.call before s, congrArg (fun q : Query => before.query.push (.call q.clauses)) hs⟩
  | .withAll => exact ⟨.append before .withAll, rfl⟩
  | .withItems items => exact ⟨.append before (.withItems items), rfl⟩
  | .set target properties => exact ⟨.append before (.set target properties), rfl⟩
  | .orderBy items => exact ⟨.append before (.orderBy items), rfl⟩
  | .skip count => exact ⟨.append before (.skip count), rfl⟩
  | .limit count => exact ⟨.append before (.limit count), rfl⟩
  | .result r => exact ⟨.resume (.finish before r), rfl⟩

theorem Clause.exists_sessionAll (body : List Clause) (before : Session) :
    ∃ s : Session, s.query = ⟨before.query.clauses ++ body⟩ := by
  match body with
  | [] => exact ⟨before, by rw [List.append_nil]⟩
  | c :: rest =>
    obtain ⟨s, hs⟩ := Clause.exists_session c before
    obtain ⟨s', hs'⟩ := Clause.exists_sessionAll rest s
    exact ⟨s', by rw [hs', hs, Query.push, List.append_assoc, List.singleton_append]⟩

end

theorem Query.exists_session (q : Query) : ∃ s : Session, s.query = q :=
  Clause.exists_sessionAll q.clauses .new

namespace Session

/-- **Nothing follows a result as long as no finished query is appended to.** However a query was
made, its results and those of its subqueries are last exactly when every operation on the way was
applied to a query that was not finished; the same goes for a finished query. Whoever uses finished
queries as queries can make any query at all, wherever its results stand. -/
theorem resultsLast_iff_isTidy (s : Session) (f : FinishedSession) (q : Query) :
    (s.query.resultsLast ↔ s.isTidy)
    ∧ (f.query.query.resultsLast ↔ f.isTidy)
    ∧ (∃ t : Session, t.query = q)
    ∧ (q.resultsLast ↔ ∃ t : Session, t.isTidy ∧ t.query = q) := by
  refine ⟨by rw [s.resultsLast_query], by rw [f.resultsLast_query], q.exists_session, ?_⟩
  constructor
  · intro hq
    obtain ⟨t, rfl⟩ := q.exists_session
    exact ⟨t, by rwa [← t.resultsLast_query], rfl⟩
  · rintro ⟨t, ht, rfl⟩
    rwa [t.resultsLast_query]

/-- A query is finished, and a clause appended to it after that. -/
def afterthought : Session :=
  .append (.resume (.finish .new ⟨.all, none⟩)) .withAll

theorem afterthought_built :
    ((afterthought.query.build ⟨0⟩ .default).map Built.text).toOption = some "RETURN *\nWITH *"
    ∧ ¬∀ s : Session, s.query.resultsLast :=
  ⟨by decide +kernel, fun h => Bool.false_ne_true (h afterthought)⟩

end Session

end GraphQuery
