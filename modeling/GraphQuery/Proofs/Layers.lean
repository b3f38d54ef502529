import Mathlib.Data.List.Induction
import GraphQuery.Settings.Basic
import GraphQuery.Proofs.Stems

/-!
# Overrides upon overrides

Overrides come in layers, and a layer is kept even when the settings it leaves are not valid. So the
settings after any number of layers are told for each setting by itself: it has the last value that
was given for it, whatever was reported when it was given. The report is about the settings as a
whole. A stem that was fine where it was given may collide with one that is given later, and a layer
that changes nothing fails where an earlier one left something wrong.

The defaults under any number of layers come to the same as the defaults under the one layer that
has the last value of each setting, in what they are and in what is wrong with them.
-/

namespace GraphQuery

/-! ## The rules for settings -/

namespace Settings

variable {s t : Settings}

/-- The name is the stem and at least one digit. -/
def Numbered (stem name : String) : Prop :=
  ∃ digits : List Char, digits ≠ [] ∧ (∀ d ∈ digits, d.isDigit)
    ∧ name.toList = stem.toList ++ digits

/-- What settings have to satisfy. The last two rules are about the stems that share a counter. -/
structure Sound (s : Settings) : Prop where
  aliasPlain : Name.isPlain s.aliasStem
  variablePlain : Name.isPlain s.variableStem
  paramPlain : Name.isPlain s.paramStem
  /-- The limit on open subqueries has limits itself. -/
  depth : 1 ≤ s.maxDepth ∧ s.maxDepth ≤ 64
  /-- The stem of node aliases is not that of variables with digits behind it. -/
  aliasApart : ¬ Numbered s.variableStem s.aliasStem
  /-- Nor the other way round. -/
  variableApart : ¬ Numbered s.aliasStem s.variableStem

theorem collide_eq_false_iff {a b : String} :
    collide a b = false ↔ ¬ Numbered b a ∧ ¬ Numbered a b := by
  rw [collide, Bool.or_eq_false_iff, ← Bool.not_eq_true, ← Bool.not_eq_true, extendsWithDigits_iff,
    extendsWithDigits_iff]
  rfl

/-- Nothing is reported about the settings that satisfy the rules, and about no others. -/
theorem violations_eq_nil_iff : s.violations = [] ↔ s.Sound := by
  rw [← List.isEmpty_iff, ← isValid, isValid_iff, collide_eq_false_iff]
  constructor
  · rintro ⟨ha, hv, hp, hd, haa, hva⟩
    exact ⟨ha, hv, hp, hd, haa, hva⟩
  · rintro ⟨ha, hv, hp, hd, haa, hva⟩
    exact ⟨ha, hv, hp, hd, haa, hva⟩

/-- Whether settings are sound can be worked out, since the faults of each can be listed. -/
instance (s : Settings) : Decidable s.Sound :=
  decidable_of_iff (s.violations = []) violations_eq_nil_iff

theorem validated_eq_ok_iff : s.validated = .ok t ↔ (s, s.violations) = (t, []) := by
  rw [validated, Prod.mk.injEq]
  split
  · rename_i hv
    simp [hv]
  · rename_i hv
    simpa using fun _ => hv

theorem validated_eq_error_iff {found : List Violation} :
    s.validated = .error found ↔ found ≠ [] ∧ s.violations = found := by
  rw [validated]
  split
  · rename_i hv
    simp [hv, eq_comm]
  · rename_i hv
    constructor
    · rintro ⟨⟩
      exact ⟨hv, rfl⟩
    · rintro ⟨_, rfl⟩
      rfl

end Settings

/-! ## Settings under layers -/

variable {α : Type}

/-- The last value that the layers give, or the one from before if they give none. -/
def lastGiven (layers : List Overrides) (given : Overrides → Option α) (before : α) : α :=
  (layers.filterMap given).getLastD before

@[simp] theorem lastGiven_concat (layers : List Overrides) (o : Overrides)
    (given : Overrides → Option α) (before : α) :
    lastGiven (layers ++ [o]) given before = (given o).getD (lastGiven layers given before) := by
  cases h : given o <;> simp [lastGiven, List.filterMap_append, h]

/-- One layer that has what the last of several layers has, for each setting. -/
def Overrides.combined (layers : List Overrides) : Overrides where
  aliasStem := (layers.filterMap (·.aliasStem)).getLast?
  variableStem := (layers.filterMap (·.variableStem)).getLast?
  paramStem := (layers.filterMap (·.paramStem)).getLast?
  maxDepth := (layers.filterMap (·.maxDepth)).getLast?

namespace Settings

/-- The settings after one layer upon the other, whatever was reported about each. -/
def mergeAll (s : Settings) (layers : List Overrides) : Settings :=
  layers.foldl (fun s o => (s.merge o).1) s

/-- Each setting with the last value that is given for it. -/
def lastOf (s : Settings) (layers : List Overrides) : Settings where
  aliasStem := lastGiven layers (·.aliasStem) s.aliasStem
  variableStem := lastGiven layers (·.variableStem) s.variableStem
  paramStem := lastGiven layers (·.paramStem) s.paramStem
  maxDepth := lastGiven layers (·.maxDepth) s.maxDepth

/-- One layer more is the last to give what it gives. -/
theorem override_lastOf (s : Settings) (layers : List Overrides) (o : Overrides) :
    (s.lastOf layers).override o = s.lastOf (layers ++ [o]) := by
  simp [override, lastOf]

theorem mergeAll_concat (s : Settings) (layers : List Overrides) (o : Overrides) :
    s.mergeAll (layers ++ [o]) = (s.mergeAll layers).override o := by
  rw [mergeAll, List.foldl_concat]
  rfl

theorem mergeAll_eq_lastOf (s : Settings) (layers : List Overrides) :
    s.mergeAll layers = s.lastOf layers := by
  induction layers using List.reverseRecOn with
  | nil => rfl
  | append_singleton layers o ih => rw [mergeAll_concat, ih, override_lastOf]

theorem merge_mergeAll (s : Settings) (layers : List Overrides) (o : Overrides) :
    (s.mergeAll layers).merge o
      = (s.lastOf (layers ++ [o]), (s.lastOf (layers ++ [o])).violations) := by
  rw [merge, mergeAll_eq_lastOf, override_lastOf]

theorem override_combined (s : Settings) (layers : List Overrides) :
    s.override (Overrides.combined layers) = s.lastOf layers := by
  simp [override, Overrides.combined, lastOf, lastGiven, List.getLastD_eq_getLast?]

/-- All of the settings can be given at once. -/
theorem exists_override_eq (s t : Settings) : ∃ o, s.override o = t :=
  ⟨⟨some t.aliasStem, some t.variableStem, some t.paramStem, some t.maxDepth⟩, rfl⟩

/-- **The last value given counts, and the report is about all of them.** Whatever layers there were
and whatever was reported about them: the next one leaves each setting at the last value given for
it so far and succeeds just when the settings that it leaves satisfy the rules. From there some
layer leads to any settings that satisfy them. Over the defaults the outcome is that of the one
layer in which the last values are combined. -/
theorem last_layer_decides (s : Settings) (layers : List Overrides) (o : Overrides) :
    ((s.mergeAll layers).merge o).1 = s.lastOf (layers ++ [o]) ∧
    (((s.mergeAll layers).merge o).2 = [] ↔ (s.lastOf (layers ++ [o])).Sound) ∧
    (∀ t, t.Sound → ∃ repair, (s.mergeAll (layers ++ [o])).merge repair = (t, [])) ∧
    (∀ t, ofOverrides (Overrides.combined (layers ++ [o])) = .ok t
      ↔ (default.mergeAll layers).merge o = (t, [])) ∧
    (∀ found, ofOverrides (Overrides.combined (layers ++ [o])) = .error found
      ↔ found ≠ [] ∧ ((default.mergeAll layers).merge o).2 = found) := by
  refine ⟨?_, ?_, fun t ht => ?_, fun t => ?_, fun found => ?_⟩
  · rw [merge_mergeAll]
  · rw [merge_mergeAll]
    exact violations_eq_nil_iff
  · -- what was there before does not matter once everything is given
    obtain ⟨repair, hrepair⟩ := exists_override_eq (s.mergeAll (layers ++ [o])) t
    exact ⟨repair, by rw [merge, hrepair, violations_eq_nil_iff.mpr ht]⟩
  · rw [ofOverrides, override_combined, validated_eq_ok_iff, merge_mergeAll]
  · rw [ofOverrides, override_combined, validated_eq_error_iff, merge_mergeAll]

/-- A stem that collides with the default one is refused and kept, and a layer that gives only the
other stem makes both of them good. -/
theorem last_layer_decides_repaired :
    (default.merge { Overrides.none with aliasStem := some "var1" }).2
      = [.collision "var1" "var"] ∧
    ((default.mergeAll [{ Overrides.none with aliasStem := some "var1" }]).merge
      { Overrides.none with variableStem := some "v" }).2 = [] :=
  ⟨by decide, (last_layer_decides _ _ _).2.1.mpr (by decide)⟩

end Settings

end GraphQuery
