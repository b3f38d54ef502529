import GraphQuery.Proofs.Apart
import GraphQuery.Proofs.Mentioned
import GraphQuery.Proofs.Numerals
import GraphQuery.Proofs.OneArena
import GraphQuery.Proofs.Stems

/-!
# No name from outside can escape

Labels, types, keys and output names come from outside and may hold any characters. This is the
statement that they stay what they are. Whatever a query is made of, a reader of its text finds
exactly the tokens of its tree: each name from outside is one identifier that reads back as that
name, and beside these there are only fixed words and signs, literals, and the names that the build
has given.

The proof needs little of the tree. Its pieces stay apart, so a reader who begins at the start of a
piece comes to its end before anything of the next one can matter; and each piece is read as its
tokens in front of whatever may follow it.
-/

namespace GraphQuery

open Lexer Name

/-! ## The tokens of a tree -/

/-- The tokens of a number that may have a sign. -/
def signedTokens : List Char → List Token
  | '-' :: body => [.mark '-', .number (String.ofList body)]
  | text => [.number (String.ofList text)]

/-- A literal is a word or a number, except that the minus of a number is a token of its own. -/
def Literal.tokens : Literal → List Token
  | null => [.word "NULL"]
  | bool b => [.word (if b then "true" else "false")]
  | int n => signedTokens (toString n).toList
  | float x => signedTokens (Decimal.text .query x).toList

/-- A name where quotes are optional. -/
def Token.ofName (name : String) : Token :=
  if isPlain name then .word name else .quoted name

theorem Token.name?_ofName (name : String) : (Token.ofName name).name? = some name := by
  unfold Token.ofName
  split <;> rfl

/-- What a piece stands for. A name from outside is one token, whatever characters it holds. -/
def Piece.tokens (names : Names) : Piece → List Token
  | space | lineBreak => []
  | mark m => [.mark m.char]
  | word k => [.word k.text]
  | aliasOf r => [.word (names (.ref r))]
  | param p => [.mark '$', .word (names (.param p))]
  | label name => [.quoted name]
  | given name => [.ofName name]
  | literal value => value.tokens

/-- The tokens of a query, under the names that a build has given. -/
def Query.tokens (names : Names) (q : Query) : List Token :=
  q.pieces.flatMap (Piece.tokens names)

/-! ## Reading one piece -/

section Read

variable {after : List Char}

/-- What may follow a word or a name. -/
def Cuts (c : Char) : Prop :=
  isPart c = false ∧ c ≠ quote

/-- What may follow a number. -/
def CutsNumber (c : Char) : Prop :=
  isPart c = false ∧ c ≠ '.' ∧ c ≠ '-'

/-- Whether a character ends a word can be worked out. -/
instance (c : Char) : Decidable (Cuts c) :=
  inferInstanceAs (Decidable (_ ∧ _))

/-- Whether a character ends a number can be worked out. -/
instance (c : Char) : Decidable (CutsNumber c) :=
  inferInstanceAs (Decidable (_ ∧ _))

theorem lex_numeral {text : List Char} (ht : IsNumeral text) (h : Meets CutsNumber after) :
    lex (text ++ after) = (lex after).map (.number (String.ofList text) :: ·) := by
  obtain ⟨d, rest, rfl, hd, hchain⟩ := ht
  exact lex_number hd hchain h

/-- A number without a sign is one token. -/
theorem signedTokens_numeral {text : List Char} (ht : IsNumeral text) :
    signedTokens text = [.number (String.ofList text)] := by
  obtain ⟨d, rest, rfl, hd, _⟩ := ht
  unfold signedTokens
  split
  · rename_i body heq
    obtain ⟨rfl, _⟩ := List.cons.inj heq
    exact absurd hd (by decide)
  · rfl

theorem lex_signed {text : List Char} (ht : IsSigned text) (h : Meets CutsNumber after) :
    lex (text ++ after) = (lex after).map (signedTokens text ++ ·) := by
  rcases ht with ht | ⟨body, rfl, hbody⟩
  · rw [signedTokens_numeral ht, lex_numeral ht h]
    rfl
  · rw [List.cons_append, lex_mark (by decide) (by decide) (by decide), lex_numeral hbody h,
      Option.map_map]
    rfl

theorem lex_written (name : String) (h : Meets Cuts after) :
    lex ((written name).toList ++ after) = (lex after).map (.ofName name :: ·) := by
  unfold written Token.ofName
  split
  · exact lex_word ‹_› (h.imp fun _ hc => hc.1)
  · exact lex_quoted name (h.imp fun _ hc => hc.2)

theorem Literal.lex_text (value : Literal) (h : Meets CutsNumber after) :
    lex (value.text.toList ++ after) = (lex after).map (value.tokens ++ ·) := by
  have hword : Meets (isPart · = false) after := h.imp fun _ hc => hc.1
  cases value with
  | null => exact lex_word (by decide) hword
  | bool b => cases b <;> exact lex_word (by decide) hword
  | int n => exact lex_signed (isSigned_int n) h
  | float x => exact lex_signed (Decimal.isSigned_text x) h

theorem Mark.lex_char (m : Mark) : lex (m.char :: after) = (lex after).map (.mark m.char :: ·) := by
  cases m <;> exact lex_mark (by decide) (by decide) (by decide)

theorem Piece.toList_space (names : Names) : (Piece.space.text names).toList = [' '] := by
  simp [Piece.text]

theorem Piece.toList_lineBreak (names : Names) :
    (Piece.lineBreak.text names).toList = ['\n'] := by
  simp [Piece.text]

theorem Piece.toList_mark (names : Names) (m : Mark) :
    ((Piece.mark m).text names).toList = [m.char] := by
  simp [Piece.text]

/-- **A piece is read as its tokens**, in front of anything that may follow it. -/
theorem Piece.lex_text {names : Names} (p : Piece) (hnames : ∀ v ∈ p.visit?, isPlain (names v))
    (hsolid : p.isSolid → Meets Cuts after) (hnumber : p.isLiteral → Meets CutsNumber after) :
    lex ((p.text names).toList ++ after) = (lex after).map (p.tokens names ++ ·) := by
  cases p with
  | space =>
    rw [Piece.toList_space, List.singleton_append, lex_blank (by decide) (by decide) (by decide)]
    exact Option.map_id'.symm
  | lineBreak =>
    rw [Piece.toList_lineBreak, List.singleton_append,
      lex_blank (by decide) (by decide) (by decide)]
    exact Option.map_id'.symm
  | mark m =>
    rw [Piece.toList_mark]
    exact m.lex_char
  | word k => exact lex_word k.isPlain_text ((hsolid rfl).imp fun _ hc => hc.1)
  | aliasOf r => exact lex_word (hnames (.ref r) rfl) ((hsolid rfl).imp fun _ hc => hc.1)
  -- the sign and the name are two tokens
  | param p =>
    have hname := lex_word (hnames (.param p) rfl) ((hsolid rfl).imp fun _ hc => hc.1)
    rw [Piece.text, String.toList_append, List.append_assoc]
    rw [show "$".toList ++ ((names (.param p)).toList ++ after)
        = '$' :: ((names (.param p)).toList ++ after) from rfl,
      lex_mark (by decide) (by decide) (by decide), hname, Option.map_map]
    rfl
  | label name => exact lex_quoted name ((hsolid rfl).imp fun _ hc => hc.2)
  | given name => exact lex_written name (hsolid rfl)
  | literal value => exact value.lex_text (hnumber rfl)

end Read

/-! ## Reading all of them -/

section Spell

variable {names : Names} {p q : Piece} {ps : List Piece}

/-- A blank or a sign cuts off a word. -/
theorem Piece.meets_cuts (h : p.isSolid = false) (after : List Char) :
    Meets Cuts ((p.text names).toList ++ after) := by
  cases p with
  | space =>
    rw [Piece.toList_space]
    exact Meets.cons (by decide) after
  | lineBreak =>
    rw [Piece.toList_lineBreak]
    exact Meets.cons (by decide) after
  | mark m =>
    rw [Piece.toList_mark]
    exact Meets.cons (by cases m <;> decide) after
  | _ => exact absurd h (by simp [Piece.isSolid])

/-- A blank or any other sign than a point or a dash cuts off a number. -/
theorem Piece.meets_cutsNumber (h : p.isNeutral) (after : List Char) :
    Meets CutsNumber ((p.text names).toList ++ after) := by
  cases p with
  | space =>
    rw [Piece.toList_space]
    exact Meets.cons (by decide) after
  | lineBreak =>
    rw [Piece.toList_lineBreak]
    exact Meets.cons (by decide) after
  | mark m =>
    rw [Piece.toList_mark]
    exact Meets.cons (by cases m <;> first | decide | exact absurd h (by decide)) after
  | _ => exact absurd h (by simp [Piece.isNeutral])

/-- What follows a piece cuts it off. -/
theorem Separated.meets (names : Names) (h : Separated (p :: ps)) :
    (p.isSolid → Meets Cuts (spell names ps).toList)
    ∧ (p.isLiteral → Meets CutsNumber (spell names ps).toList) := by
  cases ps with
  | nil => exact ⟨fun _ => Meets.nil _, fun _ => Meets.nil _⟩
  | cons q ps =>
    have hpq : p.Apart q := (List.isChain_cons_cons.mp h).1
    rw [spell_cons, String.toList_append]
    exact ⟨fun hp => Piece.meets_cuts (hpq.solid hp) _,
      fun hp => Piece.meets_cutsNumber (hpq.number hp) _⟩

/-- **Pieces that stay apart are read as the tokens of each.** -/
theorem lex_spell (h : Separated ps) (hnames : ∀ v ∈ mentioned ps, isPlain (names v)) :
    lex (spell names ps).toList = some (ps.flatMap (Piece.tokens names)) := by
  induction ps with
  | nil =>
    rw [spell_nil, String.toList_empty, lex]
    rfl
  | cons p ps ih =>
    -- whatever follows cuts the first piece off, so it can be read by itself
    obtain ⟨hsolid, hnumber⟩ := h.meets names
    have hp : ∀ v ∈ p.visit?, isPlain (names v) := fun v hv =>
      hnames v (by rw [mentioned_cons]; exact List.mem_append_left _ (by simpa using hv))
    have hps : ∀ v ∈ mentioned ps, isPlain (names v) := fun v hv =>
      hnames v (by rw [mentioned_cons]; exact List.mem_append_right _ hv)
    rw [spell_cons, String.toList_append, p.lex_text hp hsolid hnumber, ih h.tail hps]
    rfl

end Spell

/-! ## The names that a build gives -/

/-- All three stems of the settings can stand without quotes. -/
structure Settings.PlainStems (s : Settings) : Prop where
  ofAliases : isPlain s.aliasStem
  ofVariables : isPlain s.variableStem
  ofParams : isPlain s.paramStem

theorem isPlain_numbered {stem : String} (h : isPlain stem) (k : Nat) :
    isPlain (stem ++ toString k) := by
  obtain ⟨c, rest, hlist, hc, hrest⟩ := isPlain_iff.mp h
  refine isPlain_iff.mpr ⟨c, rest ++ (toString k).toList, ?_, hc, ?_⟩
  · rw [String.toList_append, hlist]
    rfl
  · exact List.forall_mem_append.mpr
      ⟨hrest, fun d hd => isPart_of_isDigit (isDigit_of_mem_toString hd)⟩

/-- A number at the end makes any stem differ from words without digits. -/
theorem numbered_not_mem {words : List String}
    (hletters : (words.all fun w => w.toList.all fun c => !c.isDigit) = true) (stem : String)
    (k : Nat) : stem ++ toString k ∉ words := by
  intro hmem
  obtain ⟨c, hc⟩ := List.exists_mem_of_ne_nil _ (toString_ne_nil k)
  have hword : c ∈ (stem ++ toString k).toList := by
    rw [String.toList_append]
    exact List.mem_append_right _ hc
  have hno : !c.isDigit := List.all_eq_true.mp (List.all_eq_true.mp hletters _ hmem) c hword
  rw [isDigit_of_mem_toString hc] at hno
  cases hno

namespace Naming

/-- What the naming calls a reference or a parameter. -/
def called (n : Naming) : Names :=
  fun v => (n.nameAt v.id.index).getD ""

theorem agrees_called (n : Naming) (vs : List Visit) : n.Agrees n.called vs := by
  intro v _ name hname
  rw [called, hname]
  rfl

/-- From plain stems only plain names are given. -/
theorem isPlain_give {n : Naming} (hs : n.settings.PlainStems) (v : Visit) :
    isPlain (n.give v).1 := by
  have hstem : ∀ kind, isPlain (stem n.settings kind) := by
    rintro (_ | _ | _)
    · exact hs.ofAliases
    · exact hs.ofAliases
    · exact hs.ofVariables
  cases v with
  | ref r =>
    show isPlain (aliasText n.settings r.kind n.aliasCount)
    unfold aliasText
    split
    · exact hstem r.kind
    · exact isPlain_numbered (hstem r.kind) _
  | param p => exact isPlain_numbered hs.ofParams n.paramCount

/-- From stems that are none of these words, which have no digits, no name is one of them. -/
theorem give_not_mem {words : List String} {s : Settings}
    (hletters : (words.all fun w => w.toList.all fun c => !c.isDigit) = true)
    (ha : s.aliasStem ∉ words) (hv : s.variableStem ∉ words) (n : Naming) (v : Visit)
    (hn : n.settings = s) : (n.give v).1 ∉ words := by
  subst hn
  have hstem : ∀ kind, stem n.settings kind ∉ words := by
    rintro (_ | _ | _)
    · exact ha
    · exact ha
    · exact hv
  cases v with
  | ref r =>
    show aliasText n.settings r.kind n.aliasCount ∉ words
    unfold aliasText
    split
    · exact hstem r.kind
    · exact numbered_not_mem hletters _ _
  | param p => exact numbered_not_mem hletters _ _

theorem isPlain_visitAll {n : Naming} (hs : n.settings.PlainStems)
    (h : ∀ a ∈ n.allocated, isPlain a.name) (vs : List Visit) :
    ∀ a ∈ (n.visitAll vs).allocated, isPlain a.name :=
  forall_name_visitAll (P := (isPlain · = true)) (fun _ v hm => isPlain_give (hm ▸ hs) v) h vs

theorem mem_allocated_of_nameAt {n : Naming} {i : Nat} {name : String}
    (h : n.nameAt i = some name) : ∃ a ∈ n.allocated, a.index = i ∧ a.name = name := by
  obtain ⟨a, ha, hname⟩ := Option.map_eq_some_iff.mp h
  exact ⟨a, List.mem_of_find?_eq_some ha, by simpa using List.find?_some ha, hname⟩

end Naming

/-! ## Injection safety -/

namespace Query

variable {q : Query} {arena : ArenaId} {s : Settings} {b : Built}

/-- What the query visits was named by the build, and has one of the names it gave. -/
theorem called_of_build (hb : q.build arena s = .ok b) {v : Visit} (hv : v ∈ q.visits) :
    ∃ a ∈ (q.buildIn (.fresh arena s)).2.allocated,
      a.index = v.id.index ∧ a.name = (q.buildIn (.fresh arena s)).2.called v := by
  obtain ⟨hn, _, harena, _⟩ := build_ok hb
  obtain ⟨name, hname⟩ := Naming.nameAt_visitAll_mem (n := .fresh arena s) hv (harena v hv)
  obtain ⟨a, ha, hindex, haname⟩ := Naming.mem_allocated_of_nameAt hname
  rw [hn]
  refine ⟨a, ha, hindex, ?_⟩
  rw [Naming.called, hname, haname]
  rfl

/-- The names that a build gives to what its query mentions are plain. -/
theorem isPlain_called (hs : s.PlainStems) (hb : q.build arena s = .ok b) {v : Visit}
    (hv : v ∈ q.visits) : isPlain ((q.buildIn (.fresh arena s)).2.called v) := by
  obtain ⟨a, ha, _, hname⟩ := called_of_build hb hv
  rw [(build_ok hb).1] at ha
  rw [← hname]
  exact Naming.isPlain_visitAll (n := .fresh arena s) hs (by simp [Naming.fresh]) _ a ha

/-- **A name from outside stays one identifier.** When a build with plain stems succeeds, reading
its text does not end within a quoted name and gives exactly the tokens of the tree. Each name from
outside is one token that reads back as that name, and each name of a reference or a parameter is
one that the build has given. -/
theorem build_tokens (hs : s.PlainStems) (hb : q.build arena s = .ok b) :
    lex b.text.toList = some (q.tokens (q.buildIn (.fresh arena s)).2.called)
    ∧ (∀ p ∈ q.pieces, ∀ name, p = .label name ∨ p = .given name →
        ∃ t, p.tokens (q.buildIn (.fresh arena s)).2.called = [t] ∧ t.name? = some name)
    ∧ ∀ p ∈ q.pieces, ∀ v, p.visit? = some v → v ∈ q.visits
        ∧ ∃ a ∈ (q.buildIn (.fresh arena s)).2.allocated,
            a.index = v.id.index ∧ a.name = (q.buildIn (.fresh arena s)).2.called v := by
  obtain ⟨hn, _, _, htext⟩ := build_ok hb
  have hagree := Naming.agrees_called (q.buildIn (.fresh arena s)).2 q.visits
  refine ⟨?_, ?_, ?_⟩
  · rw [hn] at hagree
    rw [htext _ hagree, ← hn]
    exact lex_spell q.separated fun v hv => isPlain_called hs hb (q.echo.visited v hv)
  · rintro p _ name (rfl | rfl)
    · exact ⟨.quoted name, rfl, rfl⟩
    · exact ⟨.ofName name, rfl, Token.name?_ofName name⟩
  · intro p hp v hv
    have hmem : v ∈ q.visits := q.echo.visited v (List.mem_filterMap.mpr ⟨p, hp, hv⟩)
    exact ⟨hmem, called_of_build hb hmem⟩

theorem build_tokens_older :
    Settings.default.PlainStems ∧ older.build ⟨0⟩ .default = .ok olderBuilt
    ∧ lex olderBuilt.text.toList
      = some (older.tokens (older.buildIn (.fresh ⟨0⟩ .default)).2.called) := by
  have hs : Settings.default.PlainStems := ⟨by decide, by decide, by decide⟩
  exact ⟨hs, older_build, (build_tokens hs older_build).1⟩

end Query

end GraphQuery
