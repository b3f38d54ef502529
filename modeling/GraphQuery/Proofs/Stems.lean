import GraphQuery.Proofs.FirstVisits

/-!
# Stems that cannot collide

Two stems number aliases with one counter. An alias is either a stem alone or a stem and a decimal
number, so two aliases with different counts can only be the same text when one stem is the other
followed by digits. Valid settings exclude just that, and so among their aliases the text tells the
count, whatever kinds of references the counts went to.
-/

namespace GraphQuery

namespace Settings

variable {s : Settings}

/-- Settings are valid when every check passes by itself and the two stems of aliases do not
collide. -/
theorem isValid_iff :
    s.isValid ↔ Name.isPlain s.aliasStem ∧ Name.isPlain s.variableStem ∧ Name.isPlain s.paramStem
      ∧ (1 ≤ s.maxDepth ∧ s.maxDepth ≤ 64) ∧ collide s.aliasStem s.variableStem = false := by
  have hfields : s.fieldViolations = [] ↔ Name.isPlain s.aliasStem
      ∧ Name.isPlain s.variableStem ∧ Name.isPlain s.paramStem
      ∧ (1 ≤ s.maxDepth ∧ s.maxDepth ≤ 64) := by
    by_cases ha : Name.isPlain s.aliasStem <;> by_cases hv : Name.isPlain s.variableStem <;>
      by_cases hp : Name.isPlain s.paramStem <;>
      by_cases hd : 1 ≤ s.maxDepth ∧ s.maxDepth ≤ 64 <;> simp [fieldViolations, ha, hv, hp, hd]
  -- a collision is only looked for when each field is right by itself
  cases hf : s.fieldViolations with
  | nil =>
    have h := hfields.mp hf
    by_cases hc : collide s.aliasStem s.variableStem <;>
      simp [isValid, violations, hf, hc, h]
  | cons violation rest =>
    have hv : s.isValid = false := by simp [isValid, violations, hf]
    rw [hv]
    constructor
    · exact fun h => absurd h Bool.false_ne_true
    · rintro ⟨ha, hv, hp, hd, _⟩
      rw [hfields.mpr ⟨ha, hv, hp, hd⟩] at hf
      exact absurd hf (by simp)

/-- What follows the stem is all that counts. -/
theorem extendsWithDigits_append (stem rest : List Char) :
    extendsWithDigits (stem ++ rest) stem = (rest ≠ [] && rest.all Char.isDigit) := by
  induction stem with
  | nil => cases rest <;> simp [extendsWithDigits]
  | cons c stem ih => simp [extendsWithDigits, ih]

/-- A name that the check takes for a later alias is the stem and at least one digit. -/
theorem extendsWithDigits_iff {name stem : List Char} :
    extendsWithDigits name stem
      ↔ ∃ digits, digits ≠ [] ∧ (∀ d ∈ digits, d.isDigit) ∧ name = stem ++ digits := by
  constructor
  · intro h
    fun_induction extendsWithDigits name stem with
    | case1 c name d stem ih =>
      obtain ⟨hc, hrest⟩ := Bool.and_eq_true_iff.mp h
      obtain rfl := eq_of_beq hc
      obtain ⟨digits, hne, hdigits, rfl⟩ := ih hrest
      exact ⟨digits, hne, hdigits, rfl⟩
    | case2 => exact absurd h Bool.false_ne_true
    | case3 rest hne => exact ⟨rest, hne, List.all_eq_true.mp h, rfl⟩
  · rintro ⟨digits, hne, hdigits, rfl⟩
    rw [extendsWithDigits_append]
    simpa [hne] using hdigits

theorem collide_comm (a b : String) : collide a b = collide b a :=
  Bool.or_comm _ _

/-- Stems that do not collide never differ by digits at the end. -/
theorem eq_nil_of_digits {a b : String} {rest : List Char} (hc : collide a b = false)
    (h : a.toList = b.toList ++ rest) (hdigits : ∀ c ∈ rest, c.isDigit) : rest = [] := by
  have hall : rest.all Char.isDigit := List.all_eq_true.mpr hdigits
  have hnot : extendsWithDigits a.toList b.toList = false := (Bool.or_eq_false_iff.mp hc).1
  rw [h, extendsWithDigits_append, hall] at hnot
  simpa using hnot

end Settings

open Settings

/-! ## Numbered stems -/

theorem isDigit_of_mem_toString {k : Nat} {c : Char} (h : c ∈ (toString k).toList) : c.isDigit := by
  rw [Nat.toString_eq_repr, Nat.repr, String.toList_ofList] at h
  exact Nat.isDigit_of_mem_toDigits (by decide) (by decide) h

theorem toString_ne_nil (k : Nat) : (toString k).toList ≠ [] := by
  rw [Nat.toString_eq_repr, Nat.repr, String.toList_ofList]
  exact Nat.toDigits_ne_nil

/-- A stem alone is not the other stem with a number. -/
theorem stem_ne_numbered {a b : String} (hc : collide a b = false) (k : Nat) :
    a ≠ b ++ toString k := by
  intro h
  have hlist : a.toList = b.toList ++ (toString k).toList := by rw [h, String.toList_append]
  exact toString_ne_nil k (eq_nil_of_digits hc hlist fun c => isDigit_of_mem_toString)

/-- Wherever the digits of a number are cut, no part is more than the number. -/
theorem parts_le_of_toDigits {k : Nat} {front back : List Char}
    (h : Nat.toDigits 10 k = front ++ back) :
    Nat.ofDigitChars 10 front 0 ≤ k ∧ Nat.ofDigitChars 10 back 0 ≤ k := by
  have hk := congrArg (fun digits => Nat.ofDigitChars 10 digits 0) h
  rw [Nat.ofDigitChars_ten_toDigits, Nat.ofDigitChars_append,
    Nat.ofDigitChars_eq_ofDigitChars_zero] at hk
  rw [hk]
  exact ⟨Nat.le_add_right_of_le (Nat.le_mul_of_pos_left _ (Nat.pow_pos (by decide))),
    Nat.le_add_left _ _⟩

/-- Where two stems with different numbers are one text, the stem of the smaller number goes on with
the digits that the larger number begins with. -/
theorem numbered_eq {a b : String} {i j : Nat} (hij : i < j)
    (h : a ++ toString i = b ++ toString j) : ∃ rest, rest ≠ [] ∧ a.toList = b.toList ++ rest
      ∧ (toString j).toList = rest ++ (toString i).toList := by
  have hlist : a.toList ++ (toString i).toList = b.toList ++ (toString j).toList := by
    rw [← String.toList_append, h, String.toList_append]
  -- one stem begins with the other; what it has beyond is part of a number
  rcases List.append_eq_append_iff.mp hlist with ⟨rest, _, hi⟩ | ⟨rest, ha, hj⟩
  · -- digits before those of the larger number do not make the smaller one
    have hdigits : Nat.toDigits 10 i = rest ++ Nat.toDigits 10 j := by simpa using hi
    have hle := (parts_le_of_toDigits hdigits).2
    rw [Nat.ofDigitChars_ten_toDigits] at hle
    exact absurd hij (Nat.not_lt.mpr hle)
  · refine ⟨rest, ?_, ha, hj⟩
    rintro rfl
    exact Nat.ne_of_gt hij (Naming.toString_injective (String.toList_inj.mp hj))

/-- The number after stems that do not collide can be read off the text. -/
theorem number_eq {a b : String} (hc : collide a b = false) {j k : Nat}
    (h : a ++ toString j = b ++ toString k) : j = k := by
  rcases Nat.lt_trichotomy j k with hjk | hjk | hkj
  · obtain ⟨rest, hne, ha, hk⟩ := numbered_eq hjk h
    refine absurd (eq_nil_of_digits hc ha fun c hmem => ?_) hne
    exact isDigit_of_mem_toString (k := k) (by rw [hk]; exact List.mem_append_left _ hmem)
  · exact hjk
  · obtain ⟨rest, hne, hb, hj⟩ := numbered_eq hkj h.symm
    refine absurd (eq_nil_of_digits (by rw [collide_comm, hc]) hb fun c hmem => ?_) hne
    exact isDigit_of_mem_toString (k := j) (by rw [hj]; exact List.mem_append_left _ hmem)

namespace Naming

/-- Equal stems do not collide, and valid settings keep the other two from it. -/
theorem collide_stem {s : Settings} (hs : s.isValid) (k k' : RefKind) :
    collide (stem s k) (stem s k') = false := by
  have hself : ∀ name : String, collide name name = false := by
    intro name
    have h := extendsWithDigits_append name.toList []
    rw [List.append_nil] at h
    simp [collide, h]
  obtain ⟨_, _, _, _, hc⟩ := isValid_iff.mp hs
  have hc' : collide s.variableStem s.aliasStem = false := by rw [collide_comm, hc]
  cases k <;> cases k' <;> first | exact hself _ | exact hc | exact hc'

/-- **Under valid settings no two counts make the same alias**, whatever their kinds. -/
theorem aliasText_injective {s : Settings} (hs : s.isValid) {k k' : RefKind} {i j : Nat}
    (h : aliasText s k i = aliasText s k' j) : i = j := by
  cases i with
  | zero =>
    cases j with
    | zero => rfl
    | succ j => exact absurd h (stem_ne_numbered (collide_stem hs k k') j)
  | succ i =>
    cases j with
    | zero => exact absurd h.symm (stem_ne_numbered (collide_stem hs k' k) i)
    | succ j => exact congrArg Nat.succ (number_eq (collide_stem hs k k') h)

end Naming

end GraphQuery
