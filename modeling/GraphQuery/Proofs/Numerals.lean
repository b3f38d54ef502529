import GraphQuery.Decimal.Layout
import GraphQuery.Proofs.Lexer

/-!
# Numbers are read as numbers

The text of a number in a query begins with a digit, after a sign if it is negative. From there on
every character goes on from the one before it: a digit, a point, the mark of an exponent, or the
sign right after that mark. So however a double is laid out, a reader takes all of it for one
number.
-/

namespace GraphQuery

open Lexer

/-- One number of the query text, without its sign. -/
def IsNumeral (text : List Char) : Prop :=
  ∃ d rest, text = d :: rest ∧ d.isDigit ∧ text.IsChain fun b c => continuesNumber b c

/-- A number with its sign if it has one. -/
def IsSigned (text : List Char) : Prop :=
  IsNumeral text ∨ ∃ body, text = '-' :: body ∧ IsNumeral body

namespace Lexer

theorem continuesNumber_of_isPart {b c : Char} (h : Name.isPart c) : continuesNumber b c := by
  simp [continuesNumber, h]

theorem isPart_of_isDigit {c : Char} (h : c.isDigit) : Name.isPart c := by
  simp [Name.isPart, Char.isAlphanum, h]

/-- Digits and points go on from anything. -/
theorem chain_of_forall {b : Char} {text : List Char} (h : ∀ c ∈ text, c.isDigit ∨ c = '.') :
    (b :: text).IsChain fun b c => continuesNumber b c := by
  induction text generalizing b with
  | nil => exact .singleton b
  | cons c text ih =>
    refine List.isChain_cons_cons.mpr ⟨?_, ih fun d hd => h d (List.mem_cons_of_mem _ hd)⟩
    rcases h c List.mem_cons_self with hc | rfl
    · exact continuesNumber_of_isPart (isPart_of_isDigit hc)
    · rfl

end Lexer

theorem isNumeral_of_forall {d : Char} {rest : List Char} (hd : d.isDigit)
    (h : ∀ c ∈ rest, c.isDigit ∨ c = '.') : IsNumeral (d :: rest) :=
  ⟨d, rest, rfl, hd, chain_of_forall h⟩

/-! ## Integers -/

theorem isDigit_toDigits {n : Nat} {c : Char} (h : c ∈ Nat.toDigits 10 n) : c.isDigit :=
  Nat.isDigit_of_mem_toDigits (by decide) (by decide) h

/-- A number other than zero begins with another digit. -/
theorem head_toDigits {n : Nat} (h : 0 < n) : (Nat.toDigits 10 n).head? ≠ some '0' := by
  induction n using Nat.strong_induction_on with
  | _ n ih =>
    by_cases hn : n < 10
    · rw [Nat.toDigits_of_lt_base hn, List.head?_cons, ne_eq, Option.some_inj,
        Nat.digitChar_eq_zero]
      omega
    · -- the first digit of a longer number is that of its tenth
      rw [Nat.toDigits_of_base_le (by decide) (Nat.not_lt.mp hn),
        List.head?_append_of_ne_nil _ Nat.toDigits_ne_nil]
      exact ih (n / 10) (by omega) (by omega)

theorem isNumeral_digits {digits : List Char} (hne : digits ≠ []) (h : ∀ c ∈ digits, c.isDigit) :
    IsNumeral digits := by
  cases digits with
  | nil => exact absurd rfl hne
  | cons d rest =>
    exact isNumeral_of_forall (h d List.mem_cons_self) fun c hc =>
      Or.inl (h c (List.mem_cons_of_mem _ hc))

theorem isNumeral_nat (n : Nat) : IsNumeral (toString n).toList := by
  rw [Nat.toString_eq_repr, Nat.repr, String.toList_ofList]
  exact isNumeral_digits Nat.toDigits_ne_nil fun c => isDigit_toDigits

theorem isSigned_int (n : Int) : IsSigned (toString n).toList := by
  cases n with
  | ofNat m => exact Or.inl (isNumeral_nat m)
  | negSucc m =>
    refine Or.inr ⟨(toString (m + 1)).toList, ?_, isNumeral_nat (m + 1)⟩
    show ("-" ++ toString (m + 1)).toList = _
    rw [String.toList_append]
    rfl

namespace Decimal

/-! ## Doubles -/

theorem isDigit_zeros {n : Nat} {c : Char} (h : c ∈ (zeros n).toList) : c.isDigit := by
  rw [zeros, String.toList_ofList] at h
  rw [List.eq_of_mem_replicate h]
  rfl

theorem isNumeral_positional {digits : List Char} (hne : digits ≠ [])
    (h : ∀ c ∈ digits, c.isDigit) (point : Int) : IsNumeral (positional digits point).toList := by
  obtain ⟨d, rest, rfl⟩ := List.exists_cons_of_ne_nil hne
  have hd : d.isDigit := h d List.mem_cons_self
  have hrest : ∀ c ∈ rest, c.isDigit := fun c hc => h c (List.mem_cons_of_mem _ hc)
  unfold positional
  split
  · -- all digits stand after the point
    have htext : ("0." ++ zeros (-point).toNat ++ String.ofList (d :: rest)).toList
        = '0' :: '.' :: ((zeros (-point).toNat).toList ++ d :: rest) := by simp
    rw [htext]
    exact isNumeral_of_forall rfl (List.forall_mem_cons.mpr ⟨Or.inr rfl,
      List.forall_mem_append.mpr ⟨fun _ hc => Or.inl (isDigit_zeros hc),
        fun c hc => Or.inl (h c hc)⟩⟩)
  · split
    · -- all of them stand before it
      have htext : (String.ofList (d :: rest) ++ zeros (point.toNat - (d :: rest).length)
            ++ ".0").toList
          = d :: (rest ++ ((zeros (point.toNat - (d :: rest).length)).toList ++ ['.', '0'])) := by
        simp
      rw [htext]
      exact isNumeral_of_forall hd (List.forall_mem_append.mpr
        ⟨fun c hc => Or.inl (hrest c hc), List.forall_mem_append.mpr
          ⟨fun _ hc => Or.inl (isDigit_zeros hc), by simp⟩⟩)
    · -- the point comes after at least one of them
      obtain ⟨k, hk⟩ : ∃ k, point.toNat = k + 1 := ⟨point.toNat - 1, by omega⟩
      have htext : (String.ofList ((d :: rest).take point.toNat) ++ "."
            ++ String.ofList ((d :: rest).drop point.toNat)).toList
          = d :: (rest.take k ++ '.' :: rest.drop k) := by simp [hk]
      rw [htext]
      exact isNumeral_of_forall hd (List.forall_mem_append.mpr
        ⟨fun c hc => Or.inl (hrest c (List.mem_of_mem_take hc)), List.forall_mem_cons.mpr
          ⟨Or.inr rfl, fun c hc => Or.inl (hrest c (List.mem_of_mem_drop hc))⟩⟩)

/-- The mark of an exponent, its sign and its digits go on from a digit or a point. -/
theorem chain_exponent {d : Char} {others : List Char} (negative : Bool) (power : Nat)
    (h : ∀ c ∈ others, c.isDigit ∨ c = '.') :
    (d :: (others ++ 'e' :: ((if negative then ['-'] else []) ++ (toString power).toList))).IsChain
      fun b c => continuesNumber b c := by
  have hdigits : ∀ c ∈ (toString power).toList, c.isDigit ∨ c = '.' := fun c hc => by
    rw [Nat.toString_eq_repr, Nat.repr, String.toList_ofList] at hc
    exact Or.inl (isDigit_toDigits hc)
  have hafter : ('e' :: ((if negative then ['-'] else []) ++ (toString power).toList)).IsChain
      fun b c => continuesNumber b c := by
    cases negative with
    | false => exact chain_of_forall hdigits
    | true => exact List.isChain_cons_cons.mpr ⟨rfl, chain_of_forall hdigits⟩
  rw [← List.cons_append, List.isChain_append]
  refine ⟨chain_of_forall h, hafter, fun b _ c hc => ?_⟩
  obtain rfl := Option.some.inj hc
  exact continuesNumber_of_isPart rfl

theorem isNumeral_exponential {layout : Layout} (hsign : layout.positiveSign = "")
    {digits : List Char} (hne : digits ≠ []) (h : ∀ c ∈ digits, c.isDigit) (power : Int) :
    IsNumeral (exponential layout digits power).toList := by
  obtain ⟨d, rest, rfl⟩ := List.exists_cons_of_ne_nil hne
  have hd : d.isDigit := h d List.mem_cons_self
  have hrest : ∀ c ∈ rest, c.isDigit := fun c hc => h c (List.mem_cons_of_mem _ hc)
  cases rest with
  -- a single digit has no point after it
  | nil =>
    have htext : (exponential layout [d] power).toList = d :: ([] ++ 'e' ::
        ((if decide (power < 0) then ['-'] else []) ++ (toString power.natAbs).toList)) := by
      by_cases hp : power < 0 <;> simp [exponential, hp, hsign]
    rw [htext]
    exact ⟨d, _, rfl, hd, chain_exponent _ _ (by simp)⟩
  | cons d' rest =>
    have htext : (exponential layout (d :: d' :: rest) power).toList = d :: ('.' :: d' :: rest
        ++ 'e' :: ((if decide (power < 0) then ['-'] else [])
          ++ (toString power.natAbs).toList)) := by
      by_cases hp : power < 0 <;> simp [exponential, hp, hsign]
    rw [htext]
    exact ⟨d, _, rfl, hd, chain_exponent _ _ (List.forall_mem_cons.mpr
      ⟨Or.inr rfl, fun c hc => Or.inl (hrest c hc)⟩)⟩

/-- **Every double is one number in the query text**, after its sign. -/
theorem isSigned_text (x : Float) : IsSigned (text .query x).toList := by
  have hmagnitude : IsNumeral (if x.toBits.toNat % Word.signedEnd = 0 then "0.0"
      else (shortest Layout.query.tie (x.toBits.toNat % Word.signedEnd)).text .query).toList := by
    split
    · show IsNumeral ['0', '.', '0']
      exact isNumeral_of_forall rfl (by simp)
    · rw [Scaled.text]
      split
      · exact isNumeral_positional Nat.toDigits_ne_nil (fun c => isDigit_toDigits) _
      · exact isNumeral_exponential rfl Nat.toDigits_ne_nil (fun c => isDigit_toDigits) _
  unfold text
  dsimp only
  split
  · exact Or.inr ⟨_, by rw [String.toList_append]; rfl, hmagnitude⟩
  · rw [String.empty_append]
    exact Or.inl hmagnitude

end Decimal

end GraphQuery
