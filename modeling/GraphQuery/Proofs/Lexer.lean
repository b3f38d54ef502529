import GraphQuery.Name
import Mathlib.Data.List.Chain

/-!
# Reading a query text as tokens

A reader of query text knows four kinds of tokens. A word is a run of letters, digits and
underscores, as long as it can be. A quoted name stands between two quotes, and a quote that is
written twice inside it is one of its characters. A number begins with a digit. Every other
character that is not a blank is a token by itself.

The reader knows nothing of queries. It fails in one case only, which is a text that ends within a
quoted name.
-/

namespace GraphQuery

/-- The tokens of query text. A name in backticks is another kind of token than a word. -/
inductive Token
  | word (text : String)
  | quoted (name : String)
  | number (text : String)
  | mark (sign : Char)
deriving DecidableEq, Repr

namespace Token

/-- The name that an identifier stands for, quoted or not. -/
def name? : Token → Option String
  | word text => some text
  | quoted name => some name
  | number _ | mark _ => none

end Token

namespace Lexer

open Name

/-- Whether a number goes on with `c` after `before`. -/
def continuesNumber (before c : Char) : Bool :=
  isPart c || c == '.' || (before == 'e' && c == '-')

/-- Splits what follows the character of a number into the rest of the number and what is left. -/
def spanNumber (before : Char) : List Char → List Char × List Char
  | [] => ([], [])
  | c :: rest =>
    if continuesNumber before c then (c :: (spanNumber c rest).1, (spanNumber c rest).2)
    else ([], c :: rest)

theorem spanNumber_length (before : Char) (text : List Char) :
    (spanNumber before text).2.length ≤ text.length := by
  induction text generalizing before with
  | nil => exact Nat.le_refl _
  | cons c rest ih =>
    rw [spanNumber]
    split
    · exact Nat.le_succ_of_le (ih c)
    · exact Nat.le_refl _

theorem unquoteRest_length {text name after : List Char}
    (h : unquoteRest text = some (name, after)) : after.length ≤ text.length := by
  fun_induction unquoteRest text generalizing name with
  | case1 => exact absurd h (by simp)
  | case2 => simp_all
  | case3 rest ih =>
    obtain ⟨⟨name', after'⟩, hr, heq⟩ := Option.map_eq_some_iff.mp h
    obtain ⟨_, rfl⟩ := Prod.mk.inj heq
    exact Nat.le_trans (ih hr) (Nat.le_add_right _ 2)
  | case4 d rest hd =>
    obtain ⟨_, rfl⟩ := Prod.mk.inj (Option.some.inj h)
    exact Nat.le_succ _
  | case5 c rest hc ih =>
    obtain ⟨⟨name', after'⟩, hr, heq⟩ := Option.map_eq_some_iff.mp h
    obtain ⟨_, rfl⟩ := Prod.mk.inj heq
    exact Nat.le_succ_of_le (ih hr)

/-- The tokens of a text, unless it ends within a quoted name. -/
def lex : List Char → Option (List Token)
  | [] => some []
  | c :: rest =>
    if c = quote then
      match h : unquoteRest rest with
      | none => none
      | some (name, after) =>
        have := unquoteRest_length h
        (lex after).map (.quoted (String.ofList name) :: ·)
    else if c.isDigit then
      have := spanNumber_length c rest
      (lex (spanNumber c rest).2).map (.number (String.ofList (c :: (spanNumber c rest).1)) :: ·)
    else if isPart c then
      have := (List.dropWhile_sublist isPart (l := rest)).length_le
      (lex (rest.dropWhile isPart)).map (.word (String.ofList (c :: rest.takeWhile isPart)) :: ·)
    else if c.isWhitespace then lex rest
    else (lex rest).map (.mark c :: ·)
termination_by text => text.length

/-! ## One token at a time -/

/-- The reader comes to nothing, or to something that satisfies `p`. -/
def Meets (p : Char → Prop) (after : List Char) : Prop :=
  ∀ c ∈ after.head?, p c

theorem Meets.cons {p : Char → Prop} {c : Char} (h : p c) (after : List Char) :
    Meets p (c :: after) := by
  simpa [Meets] using h

theorem Meets.nil (p : Char → Prop) : Meets p [] := by
  simp [Meets]

theorem Meets.imp {p q : Char → Prop} {after : List Char} (h : Meets p after)
    (hpq : ∀ c, p c → q c) : Meets q after :=
  fun c hc => hpq c (h c hc)

variable {after : List Char}

/-- The doubled name is read back where no third quote follows. -/
theorem unquoteRest_doubled (name : List Char) (h : Meets (· ≠ quote) after) :
    unquoteRest (doubled name ++ quote :: after) = some (name, after) := by
  induction name with
  | nil =>
    cases after with
    | nil => rfl
    | cons d rest =>
      have hd : d ≠ quote := h d rfl
      simp [doubled, unquoteRest, hd]
  | cons c name ih =>
    by_cases hc : c = quote
    · subst hc
      rw [doubled_cons_quote]
      simp [unquoteRest, ih]
    · rw [doubled_cons_of_ne hc, List.cons_append, unquoteRest.eq_def]
      simp [hc, ih]

theorem isDigit_of_not_isPart {c : Char} (h : isPart c = false) : c.isDigit = false := by
  simp only [isPart, Char.isAlphanum, Bool.or_eq_false_iff] at h
  exact h.1.2

theorem isPart_of_isStart {c : Char} (h : isStart c) : isPart c := by
  simp only [isStart, Bool.or_eq_true] at h
  rcases h with h | h <;> simp [isPart, Char.isAlphanum, h]

/-- What starts a word comes after the digits. -/
theorem le_toNat_of_isStart {c : Char} (h : isStart c) : 'A'.toNat ≤ c.toNat := by
  rcases Bool.or_eq_true_iff.mp h with h | h
  · rcases Bool.or_eq_true_iff.mp (show (c.isUpper || c.isLower) = true from h) with h | h
    · exact (show 'A'.val ≤ c.val ∧ c.val ≤ 'Z'.val from of_decide_eq_true h).1
    · have hlower : 'a'.toNat ≤ c.toNat :=
        of_decide_eq_true (Bool.and_eq_true_iff.mp
          (show (decide ('a'.val ≤ c.val) && decide (c.val ≤ 'z'.val)) = true from h)).1
      exact Nat.le_trans (by decide) hlower
  · rw [eq_of_beq h]
    decide

/-- No digit starts a word. -/
theorem isDigit_of_isStart {c : Char} (h : isStart c) : c.isDigit = false := by
  rw [Bool.eq_false_iff]
  intro hd
  have hdigit : c.toNat ≤ '9'.toNat := (Char.isDigit_iff_toNat.mp hd).2
  exact absurd (Nat.le_trans (le_toNat_of_isStart h) hdigit) (by decide)

theorem lex_quoted (name : String) (h : Meets (· ≠ quote) after) :
    lex ((quoted name).toList ++ after) = (lex after).map (.quoted name :: ·) := by
  rw [toList_quoted, List.cons_append, List.append_assoc, List.singleton_append, lex]
  simp only [if_true]
  split
  · rename_i hnone
    rw [unquoteRest_doubled _ h] at hnone
    exact absurd hnone (by simp)
  · rename_i name' after' hsome
    rw [unquoteRest_doubled _ h] at hsome
    obtain ⟨rfl, rfl⟩ := Prod.mk.inj (Option.some.inj hsome)
    rw [String.ofList_toList]

theorem takeWhile_isPart {w : List Char} (hw : ∀ c ∈ w, isPart c)
    (h : Meets (isPart · = false) after) : (w ++ after).takeWhile isPart = w := by
  rw [List.takeWhile_append_of_pos hw]
  cases after with
  | nil => simp
  | cons c rest => simp [h c rfl]

theorem dropWhile_isPart {w : List Char} (hw : ∀ c ∈ w, isPart c)
    (h : Meets (isPart · = false) after) : (w ++ after).dropWhile isPart = after := by
  rw [List.dropWhile_append_of_pos hw]
  cases after with
  | nil => rfl
  | cons c rest => simp [h c rfl]

/-- A plain name is its first character and the rest of a word. -/
theorem isPlain_iff {w : String} :
    isPlain w ↔ ∃ c rest, w.toList = c :: rest ∧ isStart c ∧ ∀ d ∈ rest, isPart d := by
  unfold isPlain
  cases w.toList with
  | nil => simp [plainChars]
  | cons c rest => simp [plainChars]

theorem isPart_of_mem_isPlain {w : String} (hw : isPlain w) {c : Char} (hc : c ∈ w.toList) :
    isPart c := by
  obtain ⟨d, rest, hlist, hd, hrest⟩ := isPlain_iff.mp hw
  rw [hlist] at hc
  rcases List.mem_cons.mp hc with rfl | hc
  · exact isPart_of_isStart hd
  · exact hrest c hc

theorem lex_word {w : String} (hw : isPlain w) (h : Meets (isPart · = false) after) :
    lex (w.toList ++ after) = (lex after).map (.word w :: ·) := by
  obtain ⟨c, rest, hlist, hc, hrest⟩ := isPlain_iff.mp hw
  have hquote : c ≠ quote := by
    rintro rfl
    exact absurd (isPart_of_isStart hc) (by decide)
  rw [hlist, List.cons_append, lex, if_neg hquote, isDigit_of_isStart hc, isPart_of_isStart hc]
  simp only [Bool.false_eq_true, if_false, if_true]
  rw [takeWhile_isPart hrest h, dropWhile_isPart hrest h, ← hlist, String.ofList_toList]

/-- A number whose characters go on from each other is read as a whole. -/
theorem spanNumber_append {before : Char} {text : List Char}
    (htext : (before :: text).IsChain fun b c => continuesNumber b c)
    (h : Meets (fun c => isPart c = false ∧ c ≠ '.' ∧ c ≠ '-') after) :
    spanNumber before (text ++ after) = (text, after) := by
  induction text generalizing before with
  | nil =>
    cases after with
    | nil => rfl
    | cons c rest =>
      obtain ⟨hpart, hdot, hdash⟩ := h c rfl
      simp [spanNumber, continuesNumber, hpart, hdot, hdash]
  | cons c text ih =>
    obtain ⟨hc, hrest⟩ := List.isChain_cons_cons.mp htext
    rw [List.cons_append, spanNumber, if_pos hc, ih hrest]

theorem lex_number {d : Char} {text : List Char} (hd : d.isDigit)
    (htext : (d :: text).IsChain fun b c => continuesNumber b c)
    (h : Meets (fun c => isPart c = false ∧ c ≠ '.' ∧ c ≠ '-') after) :
    lex (d :: text ++ after) = (lex after).map (.number (String.ofList (d :: text)) :: ·) := by
  have hquote : d ≠ quote := by
    rintro rfl
    exact absurd hd (by decide)
  rw [List.cons_append, lex, if_neg hquote, if_pos hd, spanNumber_append htext h]

theorem lex_mark {c : Char} (hq : c ≠ quote) (hp : isPart c = false)
    (hb : c.isWhitespace = false) : lex (c :: after) = (lex after).map (.mark c :: ·) := by
  rw [lex, if_neg hq, isDigit_of_not_isPart hp, hp, hb]
  rfl

theorem lex_blank {c : Char} (hq : c ≠ quote) (hp : isPart c = false) (hb : c.isWhitespace) :
    lex (c :: after) = lex after := by
  rw [lex, if_neg hq, isDigit_of_not_isPart hp, hp, hb]
  rfl

end Lexer

end GraphQuery
