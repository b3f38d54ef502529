import GraphQuery.Proofs.BoundPlans
import GraphQuery.Proofs.InlineValues
import GraphQuery.Proofs.Integers

/-!
# Integers from the text of a plan to the text of a query

An inline integer passes through three representations: a signed word, an unsigned word, or a double
where neither holds it. A plan refuses to write what is no signed word, but it does so when the text
has been read, and that comes too late for what has become a double.

So an integer that is read without loss stands in the text of the query as it stood in the text of
the plan, or the plan is refused for it. Any other one is written as the double that it was rounded
to, and nothing refuses that.
-/

namespace GraphQuery

namespace Plan

/-! ## Inline integers -/

/-- The text that was built has this text in place of the `i`-th inline value. -/
def Writes (plan : Plan) (built : Built) (i : Nat) (text : String) : Prop :=
  ∃ compiled names before l after, plan.compile ⟨0⟩ = .ok compiled
    ∧ compiled.query.pieces = before ++ .literal l :: after
    ∧ (literalsOf before).length = i
    ∧ l.text = text
    ∧ built.text = spell names before ++ text ++ spell names after

/-- Every inline value is written as its literal. -/
theorem writes_of_outcome {plan : Plan} {s : Settings} {built : Built} {i : Nat} {v : Json}
    (h : plan.outcome s = .ok built) (hplace : plan.literals[i]? = some v) :
    ∃ l, literal v = .ok l ∧ plan.Writes built i l.text := by
  obtain ⟨c, hc, hb⟩ := compile_of_outcome h
  obtain ⟨l, hl, hliteral⟩ := literalsOf_compile hc hplace
  obtain ⟨before, after, hpieces, hi⟩ := exists_of_getElem?_literalsOf hliteral
  have htext := (Query.build_ok hb).2.2.2 _ (Naming.agrees_called _ _)
  rw [Query.textUnder, hpieces, spell_append, spell_cons, ← String.append_assoc] at htext
  exact ⟨l, hl, c, _, before, l, after, hc, hpieces, hi, rfl, htext⟩

theorem inline_int_iff (n : Int) : Inline (.int n) ↔ Word.fitsSigned n := by
  rw [Word.fitsSigned, Bool.and_eq_true, decide_eq_true_eq, decide_eq_true_eq]
  constructor
  · rintro ⟨⟩
    exact ⟨‹_›, ‹_›⟩
  · rintro ⟨lower, upper⟩
    exact .int lower upper

/-- A double has the text of no integer. -/
theorem literal_text_ne {v : Json} {l : Literal} {w : IntegerText} (h : v.IsDouble)
    (hl : literal v = .ok l) : l.text ≠ w.text := by
  rcases h with ⟨x, -, rfl⟩ | rfl
  · obtain rfl := Except.ok.inj hl
    obtain ⟨c, hc, hmark⟩ := Decimal.mark_mem_text .query x
    rcases hmark with rfl | rfl
    · exact IntegerText.ne_text hc (by decide) rfl
    · exact IntegerText.ne_text hc (by decide) rfl
  · obtain rfl := Except.ok.inj hl
    exact IntegerText.ne_text (c := 'N') (by decide) (by decide) rfl

theorem inline_of_isDouble {v : Json} (h : v.IsDouble) : Inline v := by
  rcases h with ⟨x, -, rfl⟩ | rfl
  · exact .float x
  · exact .null

section Integer

variable {w : IntegerText} {v : Json} (hread : w.ReadAs v)

include hread

/-- The literal of an integer has its text if nothing was lost in reading. -/
theorem literal_text_eq_iff {l : Literal} (hl : literal v = .ok l) :
    l.text = w.text ↔ w.isExact := by
  by_cases hexact : w.isExact
  · obtain rfl := (IntegerText.readAs_of_isExact hexact).mp hread
    refine iff_of_true ?_ hexact
    rw [literal] at hl
    split at hl
    · obtain rfl := Except.ok.inj hl
      exact (IntegerText.text_eq_toString hexact).symm
    · cases hl
  · have hdouble := IntegerText.isDouble_of_readAs hexact hread
    exact iff_of_false (literal_text_ne hdouble hl) hexact

/-- The guard against lost digits only sees what was read as an integer. -/
theorem not_inline_iff : ¬Inline v ↔ w.isExact ∧ ¬Word.fitsSigned w.value := by
  by_cases hexact : w.isExact
  · obtain rfl := (IntegerText.readAs_of_isExact hexact).mp hread
    rw [inline_int_iff]
    exact ⟨fun hv => ⟨hexact, hv⟩, And.right⟩
  · have hdouble := IntegerText.isDouble_of_readAs hexact hread
    exact iff_of_false (fun hv => hv (inline_of_isDouble hdouble)) fun h => hexact h.1

end Integer

/-- **An inline integer is written exactly if it was read exactly**, and only then can it be
refused. It was read exactly if it fits a word and is no zero with a sign; otherwise a double was
read. A plan that fails for nothing else is refused for the first inline value that no literal can
hold, and compiles if there is none. An integer is such a value if it was read exactly and no signed
word holds it. What was read as a double is never refused for the digits that it lost. -/
theorem inline_integers {plan : Plan} {w : IntegerText} {v : Json} {i : Nat} (hread : w.ReadAs v)
    (hplace : plan.literals[i]? = some v) :
    ((w.isExact → v = .int w.value) ∧ (¬w.isExact → v.IsDouble))
      ∧ (∀ s built, plan.outcome s = .ok built →
        ∃ text, plan.Writes built i text ∧ (text = w.text ↔ w.isExact))
      ∧ (¬Inline v ↔ w.isExact ∧ ¬Word.fitsSigned w.value)
      ∧ ∀ id plan' compiled, plan.Alike plan' → plan'.compile id = .ok compiled →
          ((∃ c, plan.compile id = .ok c) ↔ ∀ u ∈ plan.literals, Inline u)
          ∧ (¬Inline v → ∃ k u, k ≤ i ∧ FirstRefused plan.literals k u
            ∧ plan.compile id = .error (.inlineValue u)) := by
  refine ⟨⟨?_, ?_⟩, ?_, not_inline_iff hread, ?_⟩
  · exact fun hexact => (IntegerText.readAs_of_isExact hexact).mp hread
  · exact fun hexact => IntegerText.isDouble_of_readAs hexact hread
  · intro s built ho
    obtain ⟨l, hl, hwrites⟩ := writes_of_outcome ho hplace
    exact ⟨l.text, hwrites, literal_text_eq_iff hread hl⟩
  · intro id plan' compiled halike hc
    exact ⟨compiles_iff_inline halike hc, compile_of_refused halike hc hplace⟩

end Plan

theorem Literal.render_of_finite {l : Literal} (h : ∀ x, l = .float x → x.isFinite) :
    l.render = pure l.text := by
  cases l with
  | float x => rw [render, if_pos (h x rfl)]; rfl
  | _ => rfl

/-! ## A text whose parts are known -/

namespace Json

section Texts

variable {fuel level : Nat} {key : String} {text after : List Char} {d : Draft}
  {members : List (Option String × Draft)} {items : List Draft} {stop : Option Break}

/-- A text that stands for itself between quotes. -/
def IsPlain (key : String) : Prop :=
  ∀ c ∈ key.toList, c ≠ '"' ∧ c ≠ '\\' ∧ ¬c.toNat < 0x20

/-- A text between quotes, and what goes on after it. -/
def inQuotes (key : String) (after : List Char) : List Char :=
  '"' :: (key.toList ++ '"' :: after)

theorem readString_plain (h : IsPlain key) :
    readString (key.toList ++ '"' :: after) = (⟨some key, none⟩, after) := by
  have hpieces : ∀ name : List Char, (∀ c ∈ name, c ≠ '"' ∧ c ≠ '\\' ∧ ¬c.toNat < 0x20) →
      readPieces (name ++ '"' :: after) = (name.map Piece.char, none, after) := by
    intro name hname
    induction name with
    | nil => rfl
    | cons c name ih =>
      obtain ⟨⟨_, hescape, hcontrol⟩, hname⟩ := List.forall_mem_cons.mp hname
      simp [readPieces, hescape, hcontrol, ih hname]
  have hassemble : ∀ name : List Char, assemble true (name.map Piece.char) = some name := by
    intro name
    induction name with
    | nil => rfl
    | cons c name ih => simp [assemble, ih]
  simp [readString, hpieces _ h, hassemble]

theorem readValue_string (h : IsPlain key) :
    readValue (fuel + 1) level (inQuotes key after) = (.str key, after) := by
  simp [inQuotes, readValue, skipBlanks, isBlank, readString_plain h, ReadString.toDraft]

theorem readMembers_last (h : IsPlain key)
    (hd : readValue fuel level text = (d, '\x7d' :: after)) (hstop : d.stop? = none) :
    readMembers (fuel + 1) level (inQuotes key (':' :: text)) = ([(some key, d)], none, after) := by
  simp [inQuotes, readMembers, skipBlanks, isBlank, readString_plain h, hd, hstop]

theorem readMembers_more {others : List Char} (h : IsPlain key)
    (hd : readValue fuel level text = (d, ',' :: others)) (hstop : d.stop? = none)
    (hothers : readMembers fuel level others = (members, stop, after)) :
    readMembers (fuel + 1) level (inQuotes key (':' :: text))
      = ((some key, d) :: members, stop, after) := by
  simp [inQuotes, readMembers, skipBlanks, isBlank, readString_plain h, hd, hstop, hothers]

theorem readValue_object (hlevel : level < depthLimit)
    (h : readMembers fuel (level + 1) (inQuotes key text) = (members, stop, after)) :
    readValue (fuel + 1) level ('\x7b' :: inQuotes key text) = (.obj members stop, after) := by
  rw [inQuotes] at h ⊢
  simp [readValue, skipBlanks, isBlank, h, nested, hlevel]

theorem readItems_last (hd : readValue fuel level text = (d, ']' :: after))
    (hstop : d.stop? = none) : readItems (fuel + 1) level text = ([d], none, after) := by
  simp [readItems, skipBlanks, isBlank, hd, hstop]

/-- An array of objects. -/
theorem readValue_array (hlevel : level < depthLimit)
    (h : readItems fuel (level + 1) ('\x7b' :: text) = (items, stop, after)) :
    readValue (fuel + 1) level ('[' :: '\x7b' :: text) = (.arr items stop, after) := by
  simp [readValue, skipBlanks, isBlank, h, nested, hlevel]

end Texts

/-- Reading a number never breaks off. -/
theorem stop?_toInteger (g : Gathered) (negative : Bool) :
    (g.toInteger negative).toDraft.stop? = none := by
  unfold Gathered.toInteger Gathered.toNumeral
  split
  · split <;> rfl
  · split
    · rfl
    · split <;> rfl

end Json

namespace Plan

open Json

/-! ## Returning an integer -/

/-- A plan that returns an inline value. -/
def returning (v : Json) : Plan :=
  ⟨.empty, .empty, [.result ⟨none, [], some (.literal v), none, none⟩]⟩

@[simp] theorem literals_returning (v : Json) : (returning v).literals = [v] := by
  simp [returning, literals, Statement.literalsOfAll, Statement.literals, Term.literals]

theorem alike_returning (v v' : Json) : (returning v).Alike (returning v') :=
  ⟨rfl, rfl, .cons (.result ⟨rfl, rfl, .some (.literal v v'), rfl, rfl⟩) .nil⟩

/-- Such a plan as a text. -/
def returningText (w : IntegerText) : String :=
  "\x7b\"statements\":[\x7b\"op\":\"return\",\"expr\":\x7b\"literal\":" ++ w.text
    ++ "\x7d\x7d]\x7d"

/-- And as a draft. -/
def returningDraft (d : Draft) : Draft :=
  .obj [(some "statements", .arr [.obj [(some "op", .str "return"),
    (some "expr", .obj [(some "literal", d)] none)] none] none)] none

theorem toList_returningText (w : IntegerText) :
    (returningText w).toList
      = '\x7b' :: inQuotes "statements" (':' :: '[' :: '\x7b' :: inQuotes "op"
        (':' :: inQuotes "return" (',' :: inQuotes "expr" (':' :: '\x7b' :: inQuotes "literal"
          (':' :: (w.chars ++ ['\x7d', '\x7d', ']', '\x7d'])))))) := by
  unfold returningText
  rw [String.toList_append, String.toList_append, w.toList_text]
  simp [inQuotes]

theorem ofText_returningText (w : IntegerText) :
    Draft.ofText (returningText w)
      = (returningDraft (w.gathered.toInteger w.negative).toDraft, none) := by
  have hends : EndsInteger ['\x7d', '\x7d', ']', '\x7d'] := by
    intro c hc
    obtain rfl := Option.some.inj hc
    decide
  have hplain : IsPlain "statements" ∧ IsPlain "op" ∧ IsPlain "return" ∧ IsPlain "expr"
      ∧ IsPlain "literal" := by simp [IsPlain]
  obtain ⟨hstatements, hop, hreturn, hexpr, hliteral⟩ := hplain
  have hread : ∀ fuel, readValue (fuel + 10) 0 (returningText w).toList
      = (returningDraft (w.gathered.toInteger w.negative).toDraft, []) := by
    intro fuel
    -- the parts are read from the inside out
    have hnumber := readValue_integer w fuel 4 hends
    have hterm := readValue_object (by decide)
      (readMembers_last hliteral hnumber (stop?_toInteger _ _))
    have hstatement := readValue_object (by decide)
      (readMembers_more hop (readValue_string hreturn) rfl (readMembers_last hexpr hterm rfl))
    have hitems := readValue_array (by decide) (readItems_last hstatement rfl)
    have hplan := readValue_object (by decide : 0 < depthLimit)
      (readMembers_last hstatements hitems rfl)
    rw [toList_returningText]
    exact hplan
  -- the text is long enough for its fuel to reach the integer
  obtain ⟨fuel, hfuel⟩ : ∃ fuel, 2 * (returningText w).toList.length + 2 = fuel + 10 := by
    have hlength : 10 ≤ (returningText w).toList.length := by
      rw [toList_returningText]
      simp [inQuotes]
    exact ⟨2 * (returningText w).toList.length + 2 - 10, by omega⟩
  rw [Draft.ofText]
  dsimp only
  rw [hfuel, hread]
  rfl

/-- The text is read as the plan that returns what its integer is read as. -/
theorem ofText_returning {w : IntegerText} {v : Json} (h : w.ReadAs v) :
    ofText .json (returningText w) = .ok (returning v) := by
  rw [IntegerText.readAs_iff] at h
  rw [ofText, ofJsonText, ofText_returningText]
  cases hn : w.gathered.toInteger w.negative with
  | int n =>
    rw [hn] at h
    obtain rfl := Except.ok.inj h
    rfl
  | float x =>
    rw [hn] at h
    obtain rfl := Except.ok.inj h
    rfl
  | outOfRange | broken =>
    rw [hn] at h
    cases h

theorem declare_returning (v : Json) (id : ArenaId) :
    (returning v).declare id = .ok (⟨[], []⟩, .empty id) := by
  simp [declare, returning, Table.sorted, Table.empty, declareEntities, declareParams]

theorem compile_returning {v : Json} {l : Literal} (id : ArenaId) (hl : literal v = .ok l) :
    (returning v).compile id = .ok ⟨.empty id, ⟨[.result ⟨.expr (.literal l), none⟩]⟩⟩ := by
  have hterm : ∀ s, compileTerm s (.literal v) = .ok (.literal l) := by
    intro s
    rw [compileTerm, hl]
    rfl
  have hstatements : ∀ s, compileStatements s 0 (returning v).statements
      = .ok [.result ⟨.expr (.literal l), none⟩] := by
    intro s
    simp only [returning, compileStatements, Statement.isResult, compileStatement, compileResult,
      compileTarget, hterm, compileAlias]
    rfl
  rw [compile, declare_returning]
  simp only [Bind.bind, Except.bind, hstatements]
  rfl

/-- It builds unless the value is refused, or a double that is not finite. -/
theorem outcome_returning {v : Json} {l : Literal} (hl : literal v = .ok l)
    (hfinite : ∀ x, l = .float x → x.isFinite) :
    (returning v).outcome .default = .ok ⟨"RETURN " ++ l.text, []⟩ := by
  have hrender := Literal.render_of_finite hfinite
  have hclauses : Clause.renderAll [.result ⟨.expr (.literal l), none⟩]
      = pure ["RETURN " ++ l.text] := by
    simp [Clause.renderAll, Clause.render, Result.render, ReturnTarget.render, Expr.render, hrender,
      renderReturnAlias]
  have hquery : Query.render ⟨[.result ⟨.expr (.literal l), none⟩]⟩
      = pure ("RETURN " ++ l.text) := by
    rw [Query.render, hclauses]
    rfl
  have hbuild : ∀ arena s, Query.build ⟨[.result ⟨.expr (.literal l), none⟩]⟩ arena s
      = .ok ⟨"RETURN " ++ l.text, []⟩ := by
    intro arena s
    rw [Query.build, Query.buildIn, hquery]
    rfl
  rw [outcome, compile_returning _ hl]
  simp only [Except.mapError, Bind.bind, Except.bind, Compiled.build, hbuild]

/-- Whatever an integer is rounded to, nothing refuses it. -/
theorem outcome_returning_inexact {w : IntegerText} {v : Json} (h : ¬w.isExact) (hv : w.ReadAs v) :
    ∃ built, (returning v).outcome .default = .ok built ∧ built.text ≠ "RETURN " ++ w.text := by
  have hdouble := IntegerText.isDouble_of_readAs h hv
  obtain ⟨l, hl, hfinite⟩ : ∃ l, literal v = .ok l ∧ ∀ x, l = .float x → x.isFinite := by
    rcases hdouble with ⟨x, hx, rfl⟩ | rfl
    · exact ⟨.float x, rfl, fun y hy => Literal.float.inj hy ▸ hx⟩
    · exact ⟨.null, rfl, fun y hy => by cases hy⟩
  refine ⟨_, outcome_returning hl hfinite, fun htext => ?_⟩
  exact literal_text_ne hdouble hl (String.append_right_inj _ |>.mp htext)

/-- The last integer that a signed word holds is written, and the next one is refused. -/
theorem inline_integers_returning :
    (∃ built, (returning (.int 9223372036854775807)).outcome .default = .ok built
        ∧ ∃ text, (returning (.int 9223372036854775807)).Writes built 0 text
          ∧ text = IntegerText.text ⟨false, 9223372036854775807⟩)
      ∧ ∃ k u, k ≤ 0 ∧ FirstRefused (returning (.int 9223372036854775808)).literals k u
        ∧ (returning (.int 9223372036854775808)).compile ⟨0⟩ = .error (.inlineValue u) := by
  have hlast : IntegerText.isExact ⟨false, 9223372036854775807⟩ := by decide
  have hnext : IntegerText.isExact ⟨false, 9223372036854775808⟩
      ∧ ¬Word.fitsSigned (IntegerText.value ⟨false, 9223372036854775808⟩) := by decide
  constructor
  · obtain ⟨-, hwritten, -⟩ := @inline_integers (returning (.int 9223372036854775807)) _ _ 0
      ((IntegerText.readAs_of_isExact hlast).mpr rfl) (by rw [literals_returning]; rfl)
    have houtcome := outcome_returning (v := .int 9223372036854775807) rfl (fun x hx => by cases hx)
    obtain ⟨text, hwrites, htext⟩ := hwritten _ _ houtcome
    exact ⟨_, houtcome, text, hwrites, htext.mpr hlast⟩
  · obtain ⟨-, -, hrefused, hfails⟩ := @inline_integers (returning (.int 9223372036854775808)) _ _ 0
      ((IntegerText.readAs_of_isExact hnext.1).mpr rfl) (by rw [literals_returning]; rfl)
    have hothers := hfails ⟨0⟩ (returning .null) _ (alike_returning _ _) (compile_returning ⟨0⟩ rfl)
    exact hothers.2 (hrefused.mpr hnext)

/-- A text that returns an integer just below the signed words. -/
def roundingText : String :=
  "\x7b\"statements\":[\x7b\"op\":\"return\",\"expr\":"
    ++ "\x7b\"literal\":-9223372036854775809\x7d\x7d]\x7d"

/-- Its integer is rounded: the text is read, the plan is built, and what is built does not return
the integer. -/
theorem rounded_integer_built :
    ∃ plan built, ofText .json roundingText = .ok plan ∧ plan.outcome .default = .ok built
      ∧ built.text ≠ "RETURN -9223372036854775809" := by
  obtain ⟨v, hv⟩ := IntegerText.exists_readAs (w := ⟨true, 9223372036854775809⟩) (by decide)
  obtain ⟨built, houtcome, htext⟩ := outcome_returning_inexact (by decide) hv
  have hrounding : roundingText = returningText ⟨true, 9223372036854775809⟩ := by decide
  have hinteger : "RETURN -9223372036854775809"
      = "RETURN " ++ IntegerText.text ⟨true, 9223372036854775809⟩ := by decide
  rw [hrounding, hinteger]
  exact ⟨returning v, built, ofText_returning hv, houtcome, htext⟩

end Plan

end GraphQuery
