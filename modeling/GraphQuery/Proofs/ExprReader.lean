import GraphQuery.Proofs.Leaves
import Mathlib.Data.List.Forall2

/-!
# Reading an expression back

A reader who knows which reference each alias stands for, and which parameter each name, finds the
tree of an expression among the tokens of its text. The first token or two tell which form is to
come. All that is left to find out is where the form ends, and nothing but a comma or a closing
bracket ever follows an expression, so an alias that stands by itself is told from one with a
property or a projection after it.

Lists of items, entries and fields are read by one function, which is given the reader of an item.
It needs to know no more about that reader than where it stops and that it does not begin with a
closing bracket.
-/

namespace GraphQuery

/-- What the names of a text stand for. -/
structure Glossary where
  ref? : String → Option Reference
  param? : String → Option Param

/-- Words that are values and stand for themselves. -/
def valueWords : List String :=
  ["NULL", "true", "false"]

namespace ExprReader

/-- Reads a value from the beginning of some tokens, and gives what follows it. -/
abbrev Reader (α : Type) := List Token → Option (α × List Token)

/-! ## Lists between brackets -/

section

variable {α : Type}

/-- Items with commas between them, up to the closing bracket. The number bounds how many. -/
def readSome (item : Reader α) (close : Char) : Nat → Reader (List α)
  | 0, _ => none
  | n + 1, ts =>
    match item ts with
    | some (a, .mark c :: rest) =>
      if c = close then some ([a], rest)
      else if c = ',' then (readSome item close n rest).map fun (as, rest) => (a :: as, rest)
      else none
    | _ => none

/-- What stands after an opening bracket, up to the closing one. -/
def readList (item : Reader α) (close : Char) : Reader (List α) :=
  fun ts =>
    if ts.head? = some (.mark close) then some ([], ts.tail)
    else readSome item close ts.length ts

end

/-- A key and its value. -/
def readEntry (value : Reader Expr) : Reader (String × Expr)
  | t :: .mark ':' :: rest =>
    t.name?.bind fun key => (value rest).map fun (e, rest) => ((key, e), rest)
  | _ => none

/-- A field of a projection. A point at the beginning says that only a key follows. -/
def readField (value : Reader Expr) : Reader ProjectionField
  | .mark '.' :: t :: rest => t.name?.map fun key => (.shorthand key, rest)
  | ts => (readEntry value ts).map fun ((key, e), rest) => (.entry key e, rest)

/-! ## Expressions -/

/-- The property, or the second argument where there is none. -/
def coalesceOf : Expr → Expr → Option Expr
  | .property target key, fallback => some (.call (.coalesce target key fallback))
  | _, _ => none

/-- The distance from a property or a call to a point. No other first argument will do. -/
def distanceOf : Expr → Expr → Option Expr
  | .property target key, .param p => some (.call (.distance (.property target key) p))
  | .call f, .param p => some (.call (.distance (.call f) p))
  | _, _ => none

/-- The function of one argument that a word names. -/
def functionOf? : String → Option UnaryFunction
  | "collect" => some .collect
  | "count" => some .count
  | "min" => some .min
  | "max" => some .max
  | "avg" => some .avg
  | "sum" => some .sum
  | "size" => some .size
  | "toLower" => some .toLower
  | "toUpper" => some .toUpper
  | _ => none

/-- What a word stands for with these arguments in parentheses after it. -/
def callOf (word : String) : List Expr → Option Expr
  | [argument] =>
    if word = "point" then some argument
    else (functionOf? word).map fun f => .call (.apply f argument)
  | [first, second] =>
    if word = "coalesce" then coalesceOf first second
    else if word = "distance" then distanceOf first second
    else none
  | _ => none

/-- What a word stands for by itself. -/
def wordOf (g : Glossary) (word : String) : Option Expr :=
  if word = "NULL" then some (.literal .null)
  else if word = "true" then some (.literal (.bool true))
  else if word = "false" then some (.literal (.bool false))
  else (g.ref? word).map .ref

/-- The number that some digits stand for. -/
def digitsOf (text : String) : Int :=
  Nat.ofDigitChars 10 text.toList 0

/-- Reads an expression that nests at most so deeply. -/
def readExpr (g : Glossary) : Nat → Reader Expr
  | 0, _ => none
  | fuel + 1, ts =>
    match ts with
    | .mark '$' :: .word w :: rest => (g.param? w).map fun p => (.param p, rest)
    | .number text :: rest => some (.literal (.int (digitsOf text)), rest)
    | .mark '-' :: .number text :: rest => some (.literal (.int (-digitsOf text)), rest)
    | .mark '[' :: rest =>
      (readList (readExpr g fuel) ']' rest).map fun (items, rest) => (.list items, rest)
    | .mark '\x7b' :: rest =>
      (readList (readEntry (readExpr g fuel)) '\x7d' rest).map fun (entries, rest) =>
        (.map entries, rest)
    -- what a word is depends on what follows it
    | .word w :: .mark '(' :: rest =>
      (readList (readExpr g fuel) ')' rest).bind fun (arguments, rest) =>
        (callOf w arguments).map (·, rest)
    | .word w :: .mark '.' :: t :: rest =>
      (g.ref? w).bind fun target => t.name?.map fun key => (.property target key, rest)
    | .word w :: .mark '\x7b' :: rest =>
      (g.ref? w).bind fun target =>
        (readList (readField (readExpr g fuel)) '\x7d' rest).map fun (fields, rest) =>
          (.projection target fields, rest)
    | .word w :: rest => (wordOf g w).map (·, rest)
    | _ => none

/-! ## What follows an expression -/

/-- A comma or a closing bracket. -/
def closers : List Token :=
  [.mark ',', .mark ')', .mark ']', .mark '\x7d']

/-- Nothing follows, or a comma or a closing bracket. -/
def Ends (after : List Token) : Prop :=
  ∀ t ∈ after.head?, t ∈ closers

theorem ends_nil : Ends [] :=
  fun _ h => absurd h (by simp)

theorem ends_cons {t : Token} (h : t ∈ closers) (after : List Token) : Ends (t :: after) := by
  intro u hu
  obtain rfl := Option.some.inj hu
  exact h

/-- The reader finds this value in these tokens, whatever follows. -/
def Reads {α : Type} (read : Reader α) (ts : List Token) (a : α) : Prop :=
  ∀ after, Ends after → read (ts ++ after) = some (a, after)

/-! ## Reading lists -/

section

variable {α : Type} {item : Reader α} {close : Char} {parts : List (List Token)} {items : List α}

theorem readSome_parts (hclose : .mark close ∈ closers) (hcomma : close ≠ ',')
    (h : List.Forall₂ (Reads item) parts items) (hne : parts ≠ []) {n : Nat}
    (hn : parts.length ≤ n) (after : List Token) :
    readSome item close n ([.mark ','].intercalate parts ++ .mark close :: after)
      = some (items, after) := by
  induction h generalizing n with
  | nil => exact absurd rfl hne
  | @cons part a parts items hpart hparts ih =>
    obtain ⟨n, rfl⟩ : ∃ m, n = m + 1 := ⟨n - 1, by simp at hn; omega⟩
    cases hparts with
    | nil =>
      rw [List.intercalate_singleton, readSome, hpart _ (ends_cons hclose after)]
      simp
    | @cons second b parts items hsecond hrest =>
      -- the first item is read up to the comma, and the others after it
      have hothers := ih (List.cons_ne_nil _ _) (Nat.le_of_succ_le_succ hn)
      have hitem := hpart _ (ends_cons (t := .mark ',') (by decide)
        ([.mark ','].intercalate (second :: parts) ++ .mark close :: after))
      rw [List.intercalate_cons_cons, List.append_assoc, List.append_assoc,
        List.singleton_append, readSome, hitem]
      simp only [if_neg (Ne.symm hcomma), if_true, hothers]
      rfl

theorem length_le_intercalate_succ (x : Token) (parts : List (List Token)) :
    parts.length ≤ ([x].intercalate parts).length + 1 := by
  induction parts with
  | nil => exact Nat.zero_le _
  | cons part parts ih =>
    cases parts with
    | nil => exact Nat.le_add_left 1 _
    | cons second parts =>
      rw [List.intercalate_cons_cons, List.length_append, List.length_append, List.length_cons,
        List.length_singleton]
      omega

/-- A list is read back when each of its items is, by a reader that does not begin with the closing
bracket. -/
theorem readList_parts (hclose : .mark close ∈ closers) (hcomma : close ≠ ',')
    (hstart : ∀ after, item (.mark close :: after) = none)
    (h : List.Forall₂ (Reads item) parts items) (after : List Token) :
    readList item close ([.mark ','].intercalate parts ++ .mark close :: after)
      = some (items, after) := by
  cases h with
  | nil => simp [readList, List.intercalate]
  | @cons part a parts items hpart hparts =>
    have hread := readSome_parts hclose hcomma (List.Forall₂.cons hpart hparts)
      (List.cons_ne_nil _ _) (Nat.le_refl _) after
    have hlength : (part :: parts).length
        ≤ ([.mark ','].intercalate (part :: parts) ++ .mark close :: after).length := by
      have hcount := length_le_intercalate_succ (.mark ',') (part :: parts)
      have hlast : (Token.mark close :: after).length = after.length + 1 := rfl
      rw [List.length_append, hlast]
      omega
    -- an item has been read there, so it is not the closing bracket that comes first
    have hfirst : ([.mark ','].intercalate (part :: parts) ++ .mark close :: after).head?
        ≠ some (.mark close) := by
      intro hhead
      obtain ⟨rest, hrest⟩ := List.head?_eq_some_iff.mp hhead
      rw [hrest, List.length_cons, readSome, hstart] at hread
      cases hread
    rw [readList, if_neg hfirst]
    exact readSome_parts hclose hcomma (List.Forall₂.cons hpart hparts) (List.cons_ne_nil _ _)
      hlength after

end

/-! ## Reading the leaves -/

section

variable {g : Glossary} {fuel : Nat} {after : List Token}

theorem digitsOf_toString (n : Nat) : digitsOf (toString n) = n := by
  have hdigits : (toString n).toList = Nat.toDigits 10 n := by simp
  rw [digitsOf, hdigits, Nat.ofDigitChars_toDigits (by decide) (by decide)]

theorem readExpr_int (n : Int) :
    readExpr g (fuel + 1) (signedTokens (toString n).toList ++ after)
      = some (.literal (.int n), after) := by
  cases n with
  | ofNat n =>
    have htokens : signedTokens (toString (Int.ofNat n)).toList = [.number (toString n)] := by
      rw [show toString (Int.ofNat n) = toString n from rfl,
        signedTokens_numeral (isNumeral_nat n), String.ofList_toList]
    rw [htokens, List.singleton_append, readExpr, digitsOf_toString]
    rfl
  -- the minus is a token of its own
  | negSucc n =>
    have htokens : signedTokens (toString (Int.negSucc n)).toList
        = [.mark '-', .number (toString (n + 1))] := by
      rw [show toString (Int.negSucc n) = "-" ++ toString (n + 1) from rfl, String.toList_append]
      show [Token.mark '-', .number (String.ofList (toString (n + 1)).toList)] = _
      rw [String.ofList_toList]
    rw [htokens]
    show some (Expr.literal (.int (-digitsOf (toString (n + 1)))), after) = _
    rw [digitsOf_toString]
    rfl

theorem readExpr_word (w : String) (h : Ends after) :
    readExpr g (fuel + 1) (.word w :: after) = (wordOf g w).map (·, after) := by
  cases after with
  | nil => rfl
  | cons t after =>
    have ht : t ∈ closers := h t rfl
    simp only [closers, List.mem_cons, List.not_mem_nil, or_false] at ht
    rcases ht with rfl | rfl | rfl | rfl <;> rfl

theorem readExpr_call (w : String) :
    readExpr g (fuel + 1) (.word w :: .mark '(' :: after)
      = (readList (readExpr g fuel) ')' after).bind fun (arguments, rest) =>
        (callOf w arguments).map (·, rest) := rfl

theorem readExpr_closing {c : Char} (h : Token.mark c ∈ closers) :
    readExpr g fuel (.mark c :: after) = none := by
  cases fuel with
  | zero => rfl
  | succ fuel =>
    simp only [closers, List.mem_cons, Token.mark.injEq, List.not_mem_nil, or_false] at h
    rcases h with rfl | rfl | rfl | rfl <;> rfl

end

end ExprReader

/-! ## The literals of an expression -/

mutual

/-- The literals of an expression, in the order of the text. -/
def Expr.literals : Expr → List Literal
  | .literal value => [value]
  | .param _ => []
  | .ref _ => []
  | .property _ _ => []
  | .call f => f.literals
  | .list items => Expr.itemLiterals items
  | .map entries => Expr.entryLiterals entries
  | .projection _ fields => Expr.fieldLiterals fields

/-- The literals among the arguments of a call. -/
def FunctionCall.literals : FunctionCall → List Literal
  | .coalesce _ _ fallback => fallback.literals
  | .distance source _ => source.literals
  | .apply _ argument => argument.literals

/-- The literals of what a distance is measured from. A property has none. -/
def DistanceSource.literals : DistanceSource → List Literal
  | .property _ _ => []
  | .call f => f.literals

/-- The literals of a field. A property under its own name has none. -/
def ProjectionField.literals : ProjectionField → List Literal
  | .shorthand _ => []
  | .entry _ value => value.literals

/-- The literals of the items, one after the other. -/
def Expr.itemLiterals : List Expr → List Literal
  | [] => []
  | item :: rest => item.literals ++ Expr.itemLiterals rest

/-- The literals of the values, one after the other. Keys are no literals. -/
def Expr.entryLiterals : List (String × Expr) → List Literal
  | [] => []
  | (_, value) :: rest => value.literals ++ Expr.entryLiterals rest

/-- The literals of the fields, one after the other. -/
def Expr.fieldLiterals : List ProjectionField → List Literal
  | [] => []
  | field :: rest => field.literals ++ Expr.fieldLiterals rest

end

/-- None of the literals is a float. -/
def FloatFree (literals : List Literal) : Prop :=
  ∀ x, .float x ∉ literals

theorem FloatFree.left {ls ls' : List Literal} (h : FloatFree (ls ++ ls')) : FloatFree ls :=
  fun x hx => h x (List.mem_append_left _ hx)

theorem FloatFree.right {ls ls' : List Literal} (h : FloatFree (ls ++ ls')) : FloatFree ls' :=
  fun x hx => h x (List.mem_append_right _ hx)

/-- What the source of a distance is by itself. -/
def DistanceSource.toExpr : DistanceSource → Expr
  | .property target key => .property target key
  | .call f => .call f

/-- The names lead back to what is visited, and no alias is a value by itself. -/
structure Glossary.Knows (g : Glossary) (names : Names) (vs : List Visit) : Prop where
  /-- An alias leads back to its reference. -/
  refs : ∀ r, .ref r ∈ vs → g.ref? (names (.ref r)) = some r
  /-- A parameter name leads back to its parameter. -/
  params : ∀ p, .param p ∈ vs → g.param? (names (.param p)) = some p
  /-- No alias is taken for a null or a truth value. -/
  aliases : ∀ r, .ref r ∈ vs → names (.ref r) ∉ valueWords

namespace Glossary.Knows

variable {g : Glossary} {names : Names} {vs ws : List Visit}

theorem subset (h : g.Knows names vs) (hsub : ∀ w ∈ ws, w ∈ vs) : g.Knows names ws :=
  ⟨fun r hr => h.refs r (hsub _ hr), fun p hp => h.params p (hsub _ hp),
    fun r hr => h.aliases r (hsub _ hr)⟩

theorem left (h : g.Knows names (vs ++ ws)) : g.Knows names vs :=
  h.subset fun _ hw => List.mem_append_left _ hw

theorem right (h : g.Knows names (vs ++ ws)) : g.Knows names ws :=
  h.subset fun _ hw => List.mem_append_right _ hw

theorem tail {v : Visit} (h : g.Knows names (v :: vs)) : g.Knows names vs :=
  h.subset fun _ hw => List.mem_cons_of_mem _ hw

end Glossary.Knows

/-! ## Reading an expression -/

open ExprReader

section

variable {g : Glossary} {names : Names} {fuel : Nat}

theorem tokensOf_bracketed (left right : Mark) (parts : List (List Piece)) :
    tokensOf names (bracketed left right parts)
      = .mark left.char
        :: ([.mark ','].intercalate (parts.map (tokensOf names)) ++ [.mark right.char]) := by
  rw [bracketed, commaSeparated, tokensOf_cons, tokensOf_append, tokensOf_intercalate]
  rfl

/-- Two brackets stand around each part. -/
theorem length_of_bracketed {left right : Mark} {parts : List (List Piece)} {part : List Piece}
    (h : part ∈ parts) :
    (tokensOf names part).length + 2 ≤ (tokensOf names (bracketed left right parts)).length := by
  have hpart := Formula.length_le_intercalate (.mark ',')
    (List.mem_map.mpr ⟨part, h, rfl⟩ : tokensOf names part ∈ parts.map (tokensOf names))
  rw [tokensOf_bracketed, List.length_cons, List.length_append, List.length_singleton]
  omega

/-- So what is left after one level of brackets is enough for each part. -/
theorem fuel_of_bracketed {left right : Mark} {parts : List (List Piece)}
    (h : (tokensOf names (bracketed left right parts)).length ≤ fuel) :
    ∃ m, fuel = m + 1 ∧ ∀ part ∈ parts, (tokensOf names part).length ≤ m := by
  cases fuel with
  | zero =>
    rw [tokensOf_bracketed] at h
    exact absurd h (Nat.not_succ_le_zero _)
  | succ m =>
    refine ⟨m, rfl, fun part hpart => ?_⟩
    have hlength : (tokensOf names part).length + 2
        ≤ (tokensOf names (bracketed left right parts)).length := length_of_bracketed hpart
    omega

/-- Parts between brackets are read as a list when each is read as its item. -/
theorem readList_bracketed {α : Type} {item : Reader α} {parts : List (List Piece)}
    {items : List α} (left right : Mark) (hclose : .mark right.char ∈ closers)
    (hcomma : right.char ≠ ',') (hstart : ∀ after, item (.mark right.char :: after) = none)
    (h : List.Forall₂ (Reads item) (parts.map (tokensOf names)) items) (after : List Token) :
    ∃ ts, tokensOf names (bracketed left right parts) ++ after = .mark left.char :: ts
      ∧ readList item right.char ts = some (items, after) := by
  refine ⟨_, ?_, readList_parts hclose hcomma hstart h after⟩
  rw [tokensOf_bracketed, List.cons_append, List.append_assoc]
  rfl

/-- A word with arguments in parentheses is read as what it stands for with these. -/
theorem reads_call (k : Keyword) (arguments : List Expr) {parts : List (List Piece)} {e : Expr}
    (hfuel : (tokensOf names (.word k :: bracketed .roundOpen .roundClose parts)).length ≤ fuel)
    (harguments : ∀ {fuel}, (∀ part ∈ parts, (tokensOf names part).length ≤ fuel) →
      List.Forall₂ (Reads (readExpr g fuel)) (parts.map (tokensOf names)) arguments)
    (hcall : callOf k.text arguments = some e) :
    Reads (readExpr g fuel) (tokensOf names (.word k :: bracketed .roundOpen .roundClose parts))
      e := by
  intro after _
  have htokens : tokensOf names (.word k :: bracketed .roundOpen .roundClose parts)
      = .word k.text :: tokensOf names (bracketed .roundOpen .roundClose parts) := rfl
  have hlength : (tokensOf names (bracketed .roundOpen .roundClose parts)).length ≤ fuel :=
    Nat.le_trans (Nat.le_succ _) hfuel
  -- the word and the brackets leave fuel enough for each argument
  obtain ⟨fuel, rfl, hparts⟩ := fuel_of_bracketed hlength
  obtain ⟨ts, hts, hread⟩ := readList_bracketed .roundOpen .roundClose (by decide) (by decide)
    (fun _ => readExpr_closing (by decide)) (harguments hparts) after
  rw [htokens, List.cons_append, hts]
  refine (readExpr_call k.text).trans ?_
  rw [show readList (readExpr g fuel) ')' ts = some (arguments, after) from hread]
  show (callOf k.text arguments).map (·, after) = _
  rw [hcall]
  rfl

theorem Param.reads {p : Param} (hfuel : (tokensOf names p.pieces).length ≤ fuel)
    (hk : g.Knows names [.param p]) :
    Reads (readExpr g fuel) (tokensOf names p.pieces) (.param p) := by
  have hparam := hk.params p List.mem_cons_self
  -- the name after its sign
  have hbare : ∀ {fuel : Nat}, 2 ≤ fuel →
      Reads (readExpr g fuel) (tokensOf names [.param p]) (.param p) := by
    intro fuel hfuel after _
    obtain ⟨fuel, rfl⟩ : ∃ m, fuel = m + 1 := ⟨fuel - 1, by omega⟩
    show (g.param? (names (.param p))).map (fun q => (Expr.param q, after)) = _
    rw [hparam]
    rfl
  unfold Param.pieces at hfuel ⊢
  split
  · rename_i hpoint
    rw [if_pos hpoint] at hfuel
    have hpieces : [.word .point, .mark .roundOpen, .param p, .mark .roundClose]
        = Piece.word .point :: bracketed .roundOpen .roundClose [[.param p]] := rfl
    rw [hpieces] at hfuel ⊢
    refine reads_call .point [.param p] hfuel (fun h => ?_) rfl
    exact .cons (hbare (h _ List.mem_cons_self)) .nil
  · rename_i hpoint
    rw [if_neg hpoint] at hfuel
    exact hbare hfuel

theorem reads_property {target : Reference} {key : String}
    (hfuel : (tokensOf names (propertyPieces target key)).length ≤ fuel)
    (hk : g.Knows names [.ref target]) :
    Reads (readExpr g fuel) (tokensOf names (propertyPieces target key))
      (.property target key) := by
  intro after _
  have hlength : 3 ≤ fuel := hfuel
  obtain ⟨fuel, rfl⟩ : ∃ m, fuel = m + 1 := ⟨fuel - 1, by omega⟩
  show ((g.ref? (names (.ref target))).bind fun r =>
    (Token.ofName key).name?.map fun k => (Expr.property r k, after)) = _
  rw [hk.refs target List.mem_cons_self, Token.name?_ofName]
  rfl

theorem reads_ref {target : Reference} (hfuel : 1 ≤ fuel) (hk : g.Knows names [.ref target]) :
    Reads (readExpr g fuel) (tokensOf names [.aliasOf target]) (.ref target) := by
  intro after hafter
  obtain ⟨fuel, rfl⟩ : ∃ m, fuel = m + 1 := ⟨fuel - 1, by omega⟩
  have hwords := hk.aliases target List.mem_cons_self
  simp only [valueWords, List.mem_cons, List.not_mem_nil, or_false, not_or] at hwords
  refine (readExpr_word (names (.ref target)) hafter).trans ?_
  rw [wordOf, if_neg hwords.1, if_neg hwords.2.1, if_neg hwords.2.2,
    hk.refs target List.mem_cons_self]
  rfl

theorem Literal.length_tokens (value : Literal) :
    1 ≤ (tokensOf names [.literal value]).length := by
  have hsigned : ∀ text, 1 ≤ (signedTokens text).length := by
    intro text
    unfold signedTokens
    split <;> simp
  rw [tokensOf_cons, tokensOf_nil, List.append_nil]
  cases value with
  | null => exact Nat.le_refl 1
  | bool b => exact Nat.le_refl 1
  | int n => exact hsigned _
  | float x => exact hsigned _

theorem Literal.reads {value : Literal} (hfuel : 1 ≤ fuel) (hl : FloatFree [value]) :
    Reads (readExpr g fuel) (tokensOf names [.literal value]) (.literal value) := by
  intro after hafter
  obtain ⟨fuel, rfl⟩ : ∃ m, fuel = m + 1 := ⟨fuel - 1, by omega⟩
  rw [tokensOf_cons, tokensOf_nil, List.append_nil]
  cases value with
  | null => exact readExpr_word "NULL" hafter
  | bool b => cases b <;> exact readExpr_word _ hafter
  | int n => exact readExpr_int n
  | float x => exact absurd List.mem_cons_self (hl x)

theorem reads_entry (key : String) {ps : List Piece} {value : Expr}
    (h : Reads (readExpr g fuel) (tokensOf names ps) value) :
    Reads (readEntry (readExpr g fuel))
      (tokensOf names (.given key :: .mark .colon :: .space :: ps)) (key, value) := by
  intro after hafter
  show ((Token.ofName key).name?.bind fun k =>
    (readExpr g fuel (tokensOf names ps ++ after)).map fun (e, rest) => ((k, e), rest)) = _
  rw [Token.name?_ofName, h after hafter]
  rfl

/-- A key in front tells an entry from a shorthand. -/
theorem readField_ofName (read : Reader Expr) (key : String) (ts : List Token) :
    readField read (.ofName key :: ts)
      = (readEntry read (.ofName key :: ts)).map fun ((k, e), rest) => (.entry k e, rest) := by
  unfold Token.ofName
  split <;> rfl

theorem readEntry_closing (read : Reader Expr) (c : Char) (after : List Token) :
    readEntry read (.mark c :: after) = none := by
  unfold readEntry
  split
  · rename_i heq
    obtain ⟨rfl, _⟩ := List.cons.inj heq
    rfl
  · rfl

theorem readField_closing (read : Reader Expr) (after : List Token) :
    readField read (.mark '\x7d' :: after) = none := by
  show (readEntry read (.mark '\x7d' :: after)).map _ = none
  rw [readEntry_closing]
  rfl

/-! ## Reading back -/

mutual

/-- **A reader finds the tree.** -/
theorem Expr.reads (e : Expr) {fuel : Nat} (hfuel : (tokensOf names e.pieces).length ≤ fuel)
    (hk : g.Knows names e.visits) (hl : FloatFree e.literals) :
    Reads (readExpr g fuel) (tokensOf names e.pieces) e := by
  match e with
  | .literal value =>
    have hlength : 1 ≤ (tokensOf names [.literal value]).length := Literal.length_tokens value
    exact Literal.reads (Nat.le_trans hlength hfuel) hl
  | .param p => exact Param.reads hfuel hk
  | .ref target => exact reads_ref hfuel hk
  | .property target key => exact reads_property hfuel hk
  | .call f => exact FunctionCall.reads f hfuel hk hl
  | .list items =>
    obtain ⟨fuel, rfl, hparts⟩ := fuel_of_bracketed hfuel
    intro after _
    obtain ⟨ts, hts, hread⟩ := readList_bracketed .squareOpen .squareClose (by decide) (by decide)
      (fun _ => readExpr_closing (by decide)) (Expr.reads_items items hparts hk hl) after
    rw [Expr.pieces, hts]
    show (readList (readExpr g fuel) Mark.squareClose.char ts).map _ = _
    rw [hread]
    rfl
  | .map entries =>
    obtain ⟨fuel, rfl, hparts⟩ := fuel_of_bracketed hfuel
    intro after _
    obtain ⟨ts, hts, hread⟩ := readList_bracketed .curlyOpen .curlyClose (by decide) (by decide)
      (readEntry_closing _ _) (Expr.reads_entries entries hparts hk hl) after
    rw [Expr.pieces, hts]
    show (readList (readEntry (readExpr g fuel)) Mark.curlyClose.char ts).map _ = _
    rw [hread]
    rfl
  | .projection target fields =>
    -- the alias and the bracket after it tell a projection from a map
    have hlength : (tokensOf names (bracketed .curlyOpen .curlyClose
        (Expr.fieldPieces fields))).length ≤ fuel := Nat.le_trans (Nat.le_succ _) hfuel
    obtain ⟨fuel, rfl, hparts⟩ := fuel_of_bracketed hlength
    intro after _
    obtain ⟨ts, hts, hread⟩ := readList_bracketed .curlyOpen .curlyClose (by decide) (by decide)
      (readField_closing _) (Expr.reads_fields fields hparts hk.tail hl) after
    have htokens : tokensOf names (Expr.projection target fields).pieces ++ after
        = .word (names (.ref target))
          :: (tokensOf names (bracketed .curlyOpen .curlyClose (Expr.fieldPieces fields))
            ++ after) := rfl
    rw [htokens, hts]
    show ((g.ref? (names (.ref target))).bind fun r =>
      (readList (readField (readExpr g fuel)) Mark.curlyClose.char ts).map fun (fields, rest) =>
        (Expr.projection r fields, rest)) = _
    rw [hk.refs target List.mem_cons_self, hread]
    rfl

theorem FunctionCall.reads (f : FunctionCall) {fuel : Nat}
    (hfuel : (tokensOf names f.pieces).length ≤ fuel) (hk : g.Knows names f.visits)
    (hl : FloatFree f.literals) :
    Reads (readExpr g fuel) (tokensOf names f.pieces) (.call f) := by
  match f with
  | .coalesce target key fallback =>
    refine reads_call .coalesce [.property target key, fallback] hfuel (fun h => ?_) rfl
    have hproperty := reads_property (h _ List.mem_cons_self)
      (hk.subset fun _ hw => List.mem_cons.mpr (Or.inl (List.mem_singleton.mp hw)))
    exact .cons hproperty (.cons
      (Expr.reads fallback (h _ (List.mem_cons_of_mem _ List.mem_cons_self)) hk.tail hl) .nil)
  | .distance source point =>
    refine reads_call .distance [source.toExpr, .param point] hfuel (fun h => ?_)
      (by cases source <;> rfl)
    have hsource := DistanceSource.reads source (h _ List.mem_cons_self) hk.left hl
    exact .cons hsource (.cons
      (Param.reads (h _ (List.mem_cons_of_mem _ List.mem_cons_self)) hk.right) .nil)
  | .apply f argument =>
    refine reads_call (.function f) [argument] hfuel (fun h => ?_) (by cases f <;> rfl)
    exact .cons (Expr.reads argument (h _ List.mem_cons_self) hk hl) .nil

theorem DistanceSource.reads (source : DistanceSource) {fuel : Nat}
    (hfuel : (tokensOf names source.pieces).length ≤ fuel) (hk : g.Knows names source.visits)
    (hl : FloatFree source.literals) :
    Reads (readExpr g fuel) (tokensOf names source.pieces) source.toExpr := by
  match source with
  | .property target key => exact reads_property hfuel hk
  | .call f => exact FunctionCall.reads f hfuel hk hl

theorem ProjectionField.reads (field : ProjectionField) {fuel : Nat}
    (hfuel : (tokensOf names field.pieces).length ≤ fuel) (hk : g.Knows names field.visits)
    (hl : FloatFree field.literals) :
    Reads (readField (readExpr g fuel)) (tokensOf names field.pieces) field := by
  match field with
  | .shorthand key =>
    intro after _
    show ((Token.ofName key).name?.map fun k => (ProjectionField.shorthand k, after)) = _
    rw [Token.name?_ofName]
    rfl
  | .entry key value =>
    intro after hafter
    have hvalue : (tokensOf names value.pieces).length ≤ fuel :=
      Nat.le_trans (Nat.le_add_right _ 2) hfuel
    have hentry := reads_entry key (Expr.reads value hvalue hk hl) after hafter
    have hfield := readField_ofName (readExpr g fuel) key
      (.mark ':' :: (tokensOf names value.pieces ++ after))
    rw [show Token.ofName key :: .mark ':' :: (tokensOf names value.pieces ++ after)
      = tokensOf names (.given key :: .mark .colon :: .space :: value.pieces) ++ after from rfl,
      hentry] at hfield
    exact hfield

theorem Expr.reads_items (items : List Expr) {fuel : Nat}
    (hfuel : ∀ part ∈ Expr.itemPieces items, (tokensOf names part).length ≤ fuel)
    (hk : g.Knows names (Expr.itemVisits items)) (hl : FloatFree (Expr.itemLiterals items)) :
    List.Forall₂ (Reads (readExpr g fuel)) ((Expr.itemPieces items).map (tokensOf names))
      items := by
  match items with
  | [] => exact .nil
  | item :: rest =>
    obtain ⟨hitem, hrest⟩ := List.forall_mem_cons.mp hfuel
    exact .cons (Expr.reads item hitem hk.left hl.left)
      (Expr.reads_items rest hrest hk.right hl.right)

theorem Expr.reads_entries (entries : List (String × Expr)) {fuel : Nat}
    (hfuel : ∀ part ∈ Expr.entryPieces entries, (tokensOf names part).length ≤ fuel)
    (hk : g.Knows names (Expr.entryVisits entries))
    (hl : FloatFree (Expr.entryLiterals entries)) :
    List.Forall₂ (Reads (readEntry (readExpr g fuel)))
      ((Expr.entryPieces entries).map (tokensOf names)) entries := by
  match entries with
  | [] => exact .nil
  | (key, value) :: rest =>
    obtain ⟨hentry, hrest⟩ := List.forall_mem_cons.mp hfuel
    have hvalue : (tokensOf names value.pieces).length ≤ fuel :=
      Nat.le_trans (Nat.le_add_right _ 2) hentry
    exact .cons (reads_entry key (Expr.reads value hvalue hk.left hl.left))
      (Expr.reads_entries rest hrest hk.right hl.right)

theorem Expr.reads_fields (fields : List ProjectionField) {fuel : Nat}
    (hfuel : ∀ part ∈ Expr.fieldPieces fields, (tokensOf names part).length ≤ fuel)
    (hk : g.Knows names (Expr.fieldVisits fields)) (hl : FloatFree (Expr.fieldLiterals fields)) :
    List.Forall₂ (Reads (readField (readExpr g fuel)))
      ((Expr.fieldPieces fields).map (tokensOf names)) fields := by
  match fields with
  | [] => exact .nil
  | field :: rest =>
    obtain ⟨hfield, hrest⟩ := List.forall_mem_cons.mp hfuel
    exact .cons (ProjectionField.reads field hfield hk.left hl.left)
      (Expr.reads_fields rest hrest hk.right hl.right)

end

end

end GraphQuery
