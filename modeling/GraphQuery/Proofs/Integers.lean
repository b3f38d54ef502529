import GraphQuery.Json.Reader
import GraphQuery.Proofs.Numerals

/-!
# Integers in JSON text

A reader of JSON makes an integer a signed or an unsigned word, and a double where neither holds it.
So it is read without loss when one of the two words holds it, unless it is a zero with a sign,
which only a double keeps. What it is read as does not depend on where it stands in the text.
-/

namespace GraphQuery

/-- An integer as JSON writes it. There are no leading zeros, so the sign and the number say all. -/
structure IntegerText where
  negative : Bool
  magnitude : Nat
deriving DecidableEq, Repr

namespace IntegerText

/-- The sign, if any, and the digits. -/
def chars (w : IntegerText) : List Char :=
  (if w.negative then ['-'] else []) ++ Nat.toDigits 10 w.magnitude

/-- The text of the integer. -/
def text (w : IntegerText) : String :=
  String.ofList w.chars

theorem toList_text (w : IntegerText) : w.text.toList = w.chars :=
  String.toList_ofList

/-- The integer that is written. -/
def value (w : IntegerText) : Int :=
  if w.negative then -w.magnitude else w.magnitude

@[simp] theorem value_unsigned (n : Nat) : value ⟨false, n⟩ = n := rfl

@[simp] theorem value_signed (n : Nat) : value ⟨true, n⟩ = -n := rfl

/-- One of the two words holds the integer, and it is no zero with a sign. -/
def isExact (w : IntegerText) : Bool :=
  Word.fits w.value && !(w.negative && w.magnitude == 0)

end IntegerText

namespace Json

/-! ## Gathering digits -/

theorem ofDigitChars_cons (d : Char) (rest : List Char) (n : Nat) :
    Nat.ofDigitChars 10 (d :: rest) n = Nat.ofDigitChars 10 rest (10 * n + digitValue d) :=
  Nat.ofDigitChars_cons

theorem le_ofDigitChars (digits : List Char) (n : Nat) : n ≤ Nat.ofDigitChars 10 digits n := by
  induction digits generalizing n with
  | nil => exact Nat.le_refl n
  | cons d rest ih =>
    rw [ofDigitChars_cons]
    exact Nat.le_trans (by omega) (ih _)

namespace Gathered

variable {digits : List Char} {d : Char} {g : Gathered}

theorem push?_of_fits (h : 10 * g.significand + digitValue d < Word.unsignedEnd) :
    g.push? d = some (10 * g.significand + digitValue d) := by
  rw [Nat.mul_comm] at h ⊢
  simp [push?, Word.fitsUnsigned, h]

theorem push?_of_full (h : ¬10 * g.significand + digitValue d < Word.unsignedEnd) :
    g.push? d = none := by
  rw [Nat.mul_comm] at h
  simp [push?, Word.fitsUnsigned, h]

/-- One more digit, by the equation itself: it mentions a number too large to be unfolded. -/
theorem whole_cons (g : Gathered) (d : Char) (rest : List Char) :
    g.whole (d :: rest) = match g.push? d with
      | some next => Gathered.whole ⟨next, g.exponent⟩ rest
      | none => ⟨g.significand, g.exponent + (rest.length + 1)⟩ := by
  rfl

/-- Digits that fit are gathered without loss. -/
theorem whole_of_fits (h : Nat.ofDigitChars 10 digits g.significand < Word.unsignedEnd) :
    g.whole digits = ⟨Nat.ofDigitChars 10 digits g.significand, g.exponent⟩ := by
  induction digits generalizing g with
  | nil => rfl
  | cons d rest ih =>
    rw [ofDigitChars_cons] at h ⊢
    -- what was gathered on the way is no more than the whole, so it fits too
    have hfits : 10 * g.significand + digitValue d < Word.unsignedEnd :=
      Nat.lt_of_le_of_lt (le_ofDigitChars rest _) h
    rw [whole_cons, push?_of_fits hfits]
    exact @ih ⟨10 * g.significand + digitValue d, g.exponent⟩ h

/-- Where they do not fit, the exponent tells that some are missing. -/
theorem lt_exponent_whole (h : Word.unsignedEnd ≤ Nat.ofDigitChars 10 digits g.significand)
    (hg : g.significand < Word.unsignedEnd) : g.exponent < (g.whole digits).exponent := by
  induction digits generalizing g with
  | nil => exact absurd hg (Nat.not_lt.mpr h)
  | cons d rest ih =>
    rw [ofDigitChars_cons] at h
    by_cases hfits : 10 * g.significand + digitValue d < Word.unsignedEnd
    · rw [whole_cons, push?_of_fits hfits]
      exact @ih ⟨10 * g.significand + digitValue d, g.exponent⟩ h hfits
    · rw [whole_cons, push?_of_full hfits]
      show g.exponent < g.exponent + (rest.length + 1)
      omega

end Gathered

/-! ## Reading an integer -/

/-- What goes on with no number. -/
def EndsInteger (rest : List Char) : Prop :=
  ∀ c ∈ rest.head?, c.isDigit = false ∧ c ≠ '.' ∧ c ≠ 'e' ∧ c ≠ 'E'

/-- A number that is not written further is an integer. -/
theorem readUnsigned_digits (negative : Bool) (n : Nat) {rest : List Char} (h : EndsInteger rest) :
    readUnsigned negative (Nat.toDigits 10 n ++ rest)
      = ((Gathered.whole ⟨0, 0⟩ (Nat.toDigits 10 n)).toInteger negative, rest) := by
  have hdigits : ∀ c ∈ Nat.toDigits 10 n, c.isDigit := fun c hc => isDigit_toDigits hc
  have hend : rest.takeWhile Char.isDigit = [] ∧ rest.dropWhile Char.isDigit = rest := by
    cases rest with
    | nil => exact ⟨rfl, rfl⟩
    | cons c rest => simp [(h c rfl).1]
  have htake : (Nat.toDigits 10 n ++ rest).takeWhile Char.isDigit = Nat.toDigits 10 n := by
    rw [List.takeWhile_append_of_pos hdigits, hend.1, List.append_nil]
  have hdrop : (Nat.toDigits 10 n ++ rest).dropWhile Char.isDigit = rest := by
    rw [List.dropWhile_append_of_pos hdigits, hend.2]
  have hexponent : ∀ g plain, readExponent negative g rest plain = (plain, rest) := by
    intro g plain
    cases rest with
    | nil => rfl
    | cons c rest =>
      obtain ⟨-, -, he, hE⟩ := h c rfl
      simp [readExponent, he, hE]
  rw [readUnsigned, htake, hdrop]
  split
  · exact absurd ‹_› Nat.toDigits_ne_nil
  · -- a leading zero stands alone
    rename_i hzero
    rcases Nat.eq_zero_or_pos n with rfl | hn
    · cases hzero
    · exact absurd (congrArg List.head? hzero) (head_toDigits hn)
  · split
    · exact absurd rfl (h '.' rfl).2.1
    · exact hexponent _ _

/-- What an integer is taken for does not depend on the text that goes on after it. -/
theorem readNumber_integer (w : IntegerText) {rest : List Char} (h : EndsInteger rest) :
    readNumber (w.chars ++ rest)
      = ((Gathered.whole ⟨0, 0⟩ (Nat.toDigits 10 w.magnitude)).toInteger w.negative, rest) := by
  obtain ⟨negative, n⟩ := w
  cases negative with
  | true => exact readUnsigned_digits true n h
  | false =>
    -- without a sign the text begins with a digit
    obtain ⟨d, digits, hdigits⟩ :=
      List.exists_cons_of_ne_nil (Nat.toDigits_ne_nil (b := 10) (n := n))
    have hd : d.isDigit := isDigit_toDigits (hdigits ▸ List.mem_cons_self)
    have hsign : d ≠ '-' := by
      rintro rfl
      exact absurd hd (by decide)
    have hunsigned : ∀ after, Nat.toDigits 10 n ++ rest ≠ '-' :: after := by
      intro after heq
      rw [hdigits, List.cons_append] at heq
      exact hsign (List.cons.inj heq).1
    show readNumber (Nat.toDigits 10 n ++ rest) = _
    rw [readNumber.eq_2 _ hunsigned]
    exact readUnsigned_digits false n h

/-- A value that begins with a sign or a digit is a number. -/
theorem readValue_number {c : Char} {rest : List Char} (fuel level : Nat)
    (hc : c = '-' ∨ c.isDigit) :
    readValue (fuel + 1) level (c :: rest)
      = ((readNumber (c :: rest)).1.toDraft, (readNumber (c :: rest)).2) := by
  have hother : ∀ d : Char, d ≠ '-' → d.isDigit = false → c ≠ d := by
    rintro d hsign hdigit rfl
    rcases hc with rfl | hc
    · exact hsign rfl
    · exact absurd hc (Bool.eq_false_iff.mp hdigit)
  have hblank : skipBlanks (c :: rest) = c :: rest := by
    have hkept : ¬isBlank c := by
      simp [isBlank, hother ' ' (by decide) rfl, hother '\n' (by decide) rfl,
        hother '\t' (by decide) rfl, hother '\r' (by decide) rfl]
    exact List.dropWhile_cons_of_neg hkept
  -- no other value begins with a sign or a digit
  simp [readValue, hblank, hc, hother 'n' (by decide) rfl, hother 't' (by decide) rfl,
    hother 'f' (by decide) rfl, hother '"' (by decide) rfl, hother '[' (by decide) rfl,
    hother '\x7b' (by decide) rfl]

/-- Where a value may stand in a text, an integer is read as one. -/
theorem readValue_integer (w : IntegerText) (fuel level : Nat) {rest : List Char}
    (h : EndsInteger rest) :
    readValue (fuel + 1) level (w.chars ++ rest)
      = (((Gathered.whole ⟨0, 0⟩ (Nat.toDigits 10 w.magnitude)).toInteger w.negative).toDraft,
        rest) := by
  obtain ⟨c, chars, hchars, hc⟩ : ∃ c chars, w.chars ++ rest = c :: chars
      ∧ (c = '-' ∨ c.isDigit) := by
    obtain ⟨_ | _, n⟩ := w
    · obtain ⟨d, digits, hdigits⟩ :=
        List.exists_cons_of_ne_nil (Nat.toDigits_ne_nil (b := 10) (n := n))
      refine ⟨d, digits ++ rest, congrArg (· ++ rest) hdigits, Or.inr ?_⟩
      exact isDigit_toDigits (hdigits ▸ List.mem_cons_self)
    · exact ⟨'-', _, rfl, Or.inl rfl⟩
  have hnumber := readNumber_integer w h
  rw [hchars] at hnumber ⊢
  rw [readValue_number fuel level hc, hnumber]

/-- The value is a finite double or, in place of one that is not finite, a null. -/
def IsDouble (v : Json) : Prop :=
  (∃ x : Float, x.isFinite ∧ v = .float x) ∨ v = .null

end Json

namespace IntegerText

variable {w : IntegerText} {v : Json}

/-! ## Without loss or as a double -/

/-- What is gathered from the digits. -/
def gathered (w : IntegerText) : Json.Gathered :=
  Json.Gathered.whole ⟨0, 0⟩ (Nat.toDigits 10 w.magnitude)

theorem gathered_of_fits (h : w.magnitude < Word.unsignedEnd) :
    w.gathered = ⟨w.magnitude, 0⟩ := by
  have hdigits : Nat.ofDigitChars 10 (Nat.toDigits 10 w.magnitude) 0 = w.magnitude :=
    Nat.ofDigitChars_ten_toDigits
  have hwhole := Json.Gathered.whole_of_fits (g := ⟨0, 0⟩) (hdigits.symm ▸ h)
  rw [hdigits] at hwhole
  exact hwhole

/-- A number that does not fit leaves digits over. -/
theorem gathered_of_full (h : Word.unsignedEnd ≤ w.magnitude) : w.gathered.exponent ≠ 0 := by
  have hdigits : Nat.ofDigitChars 10 (Nat.toDigits 10 w.magnitude) 0 = w.magnitude :=
    Nat.ofDigitChars_ten_toDigits
  have hlt := Json.Gathered.lt_exponent_whole (g := ⟨0, 0⟩) (hdigits.symm ▸ h) (by decide)
  exact (Int.ne_of_lt hlt).symm

theorem isExact_iff : w.isExact ↔
    (-(Word.signedEnd : Int) ≤ w.value ∧ w.value < Word.unsignedEnd)
      ∧ (w.negative = true → w.magnitude ≠ 0) := by
  cases hsign : w.negative <;> simp [isExact, Word.fits, hsign]

theorem toInteger_of_isExact (h : w.isExact) :
    w.gathered.toInteger w.negative = .int w.value := by
  obtain ⟨⟨hlower, hupper⟩, hzero⟩ := isExact_iff.mp h
  have hwords : Word.signedEnd < Word.unsignedEnd := by decide
  obtain ⟨_ | _, n⟩ := w
  · -- without a sign the unsigned word holds all that fits
    have hn : n < Word.unsignedEnd := Int.ofNat_lt.mp hupper
    rw [gathered_of_fits hn]
    rfl
  · rw [value_signed] at hlower ⊢
    have hn : n ≤ Word.signedEnd := Int.ofNat_le.mp (Int.neg_le_neg_iff.mp hlower)
    have hsigned : ¬(n = 0 ∨ Word.signedEnd < n) :=
      not_or.mpr ⟨hzero rfl, Nat.not_lt.mpr hn⟩
    rw [gathered_of_fits (Nat.lt_of_le_of_lt hn hwords), Json.Gathered.toInteger]
    simp only [ne_eq, not_true_eq_false, ↓reduceIte, Bool.not_true, Bool.false_eq_true, hsigned]

/-- A number that was not gathered as an integer is a double or none. -/
theorem toNumeral_eq (g : Json.Gathered) (negative : Bool) :
    (∃ x, g.toNumeral negative = .float x) ∨ g.toNumeral negative = .outOfRange := by
  unfold Json.Gathered.toNumeral
  split
  · exact Or.inr rfl
  · exact Or.inl ⟨_, rfl⟩

theorem toInteger_of_not_isExact (h : ¬w.isExact) :
    (∃ x, w.gathered.toInteger w.negative = .float x)
      ∨ w.gathered.toInteger w.negative = .outOfRange := by
  rw [Json.Gathered.toInteger]
  by_cases hn : w.magnitude < Word.unsignedEnd
  · rw [gathered_of_fits hn]
    obtain ⟨_ | _, n⟩ := w
    · have hn : n < Word.unsignedEnd := hn
      refine absurd (isExact_iff.mpr ⟨?_, fun hsign => by cases hsign⟩) h
      rw [value_unsigned]
      omega
    · -- the signed word does not hold it, or it is a zero with a sign
      have hlost : n = 0 ∨ Word.signedEnd < n := by
        by_contra hkept
        obtain ⟨hzero, hn'⟩ := not_or.mp hkept
        refine h (isExact_iff.mpr ⟨?_, fun _ => hzero⟩)
        rw [value_signed]
        have hend : 0 < Word.unsignedEnd := by decide
        omega
      simp [hlost]
  · -- digits are left over, whatever the sign
    rw [if_pos (gathered_of_full (Nat.not_lt.mp hn))]
    exact toNumeral_eq _ _

/-- Somewhere in a text the integer stands where a value is read, and this is the value. -/
def ReadAs (w : IntegerText) (v : Json) : Prop :=
  ∃ fuel level rest, Json.EndsInteger rest
    ∧ (Json.readValue (fuel + 1) level (w.chars ++ rest)).1.readValue = .ok v

theorem readAs_iff : w.ReadAs v ↔ (w.gathered.toInteger w.negative).toDraft.readValue = .ok v := by
  constructor
  · rintro ⟨fuel, level, rest, hrest, hv⟩
    rwa [Json.readValue_integer w fuel level hrest] at hv
  · intro hv
    refine ⟨0, 0, [], (by simp [Json.EndsInteger]), ?_⟩
    rwa [Json.readValue_integer w 0 0 (by simp [Json.EndsInteger])]

/-- An integer that a word holds is read without loss, wherever it stands. -/
theorem readAs_of_isExact (h : w.isExact) : w.ReadAs v ↔ v = .int w.value := by
  rw [readAs_iff, toInteger_of_isExact h]
  exact ⟨fun hv => (Except.ok.inj hv).symm, fun hv => congrArg Except.ok hv.symm⟩

/-- An integer whose digits fit a word can always be read. -/
theorem exists_readAs (h : w.magnitude < Word.unsignedEnd) : ∃ v, w.ReadAs v := by
  by_cases hexact : w.isExact
  · exact ⟨_, (readAs_of_isExact hexact).mpr rfl⟩
  · rcases toInteger_of_not_isExact hexact with ⟨x, hx⟩ | hx
    · exact ⟨if x.isFinite then .float x else .null, readAs_iff.mpr (by rw [hx]; rfl)⟩
    · -- only digits that do not fit lead out of the doubles
      rw [gathered_of_fits h, Json.Gathered.toInteger, if_neg (by simp)] at hx
      split at hx
      · cases hx
      · split at hx <;> cases hx

/-- Any other is a double. -/
theorem isDouble_of_readAs (h : ¬w.isExact) (hv : w.ReadAs v) : v.IsDouble := by
  rw [readAs_iff] at hv
  rcases toInteger_of_not_isExact h with ⟨x, hx⟩ | hx
  · rw [hx] at hv
    obtain rfl : (if x.isFinite then Json.float x else .null) = v := Except.ok.inj hv
    cases hx : x.isFinite with
    | true => exact Or.inl ⟨x, hx, rfl⟩
    | false => exact Or.inr rfl
  · rw [hx] at hv
    cases hv

/-! ## The text of an integer and of a double -/

theorem text_eq_toString (h : w.isExact) : w.text = toString w.value := by
  obtain ⟨-, hzero⟩ := isExact_iff.mp h
  obtain ⟨_ | _, n⟩ := w
  · rfl
  · obtain ⟨m, rfl⟩ := Nat.exists_eq_succ_of_ne_zero (hzero rfl)
    show String.ofList ('-' :: Nat.toDigits 10 (m + 1)) = "-" ++ toString (m + 1)
    rw [← String.toList_inj, String.toList_append, Nat.toString_eq_repr, Nat.repr]
    simp

/-- An integer consists of digits after its sign. -/
theorem isDigit_of_mem_chars {c : Char} (hc : c ∈ w.chars) (hsign : c ≠ '-') : c.isDigit := by
  rcases List.mem_append.mp hc with hc | hc
  · split at hc
    · exact absurd (List.mem_singleton.mp hc) hsign
    · cases hc
  · exact isDigit_toDigits hc

/-- A text with anything else in it is that of no integer. -/
theorem ne_text {t : String} {c : Char} (hc : c ∈ t.toList) (hsign : c ≠ '-')
    (hdigit : c.isDigit = false) : t ≠ w.text := by
  rintro rfl
  rw [toList_text] at hc
  exact absurd (isDigit_of_mem_chars hc hsign) (Bool.eq_false_iff.mp hdigit)

end IntegerText

namespace Decimal

theorem point_mem_positional (digits : List Char) (point : Int) :
    '.' ∈ (positional digits point).toList := by
  unfold positional
  split
  · simp
  · split <;> simp

theorem mark_mem_exponential (layout : Layout) (digits : List Char) (power : Int) :
    'e' ∈ (exponential layout digits power).toList := by
  simp [exponential]

/-- The text of a double has a point or an exponent. -/
theorem mark_mem_text (layout : Layout) (x : Float) :
    ∃ c ∈ (text layout x).toList, c = '.' ∨ c = 'e' := by
  have hmagnitude : ∃ c ∈ (if x.toBits.toNat % Word.signedEnd = 0 then "0.0"
      else (shortest layout.tie (x.toBits.toNat % Word.signedEnd)).text layout).toList,
        c = '.' ∨ c = 'e' := by
    split
    · exact ⟨'.', by simp, Or.inl rfl⟩
    · rw [Scaled.text]
      split
      · exact ⟨'.', point_mem_positional _ _, Or.inl rfl⟩
      · exact ⟨'e', mark_mem_exponential _ _ _, Or.inr rfl⟩
  obtain ⟨c, hc, hmark⟩ := hmagnitude
  unfold text
  dsimp only
  exact ⟨c, by rw [String.toList_append]; exact List.mem_append_right _ hc, hmark⟩

end Decimal

end GraphQuery
