import GraphQuery.Proofs.Bookkeeping
import GraphQuery.Proofs.Numerals
import GraphQuery.Proofs.Runs

/-!
# Which collisions are real

Settings are refused when one stem of aliases is the other and some digits, since an alias could
then come from both. The check only looks whether there are digits. What a naming writes after a
stem is a count in decimal, and a count begins with a zero only when it is zero. So the question is
which of the refused stems would in fact have given an alias twice.

It is those where the digits are a number as a count is written, say `k`. A bare stem is only given
first, and the longer stem given first is the alias that the shorter one has after `k + 1` others.
No run is sooner. Both stems can also meet with numbers behind them, but the number behind the
shorter one then begins with `k`, so it is no smaller. Everything else is safe: stems that are the
same, stems with nothing in common, and also stems that are refused because of digits with a zero
too many in front, such as `n` and `n03`.
-/

namespace GraphQuery

/-- Whether the digits are a number as a count is written: a zero in front stands alone. -/
def isDecimal : List Char → Bool
  | [] => false
  | c :: rest => (c :: rest).all Char.isDigit && (c != '0' || rest.isEmpty)

/-! ## Digits of a count -/

section Digits

variable {digits rest more : List Char} {k : Nat}

/-- A digit is what its value is written as. -/
theorem digitChar_of_isDigit {c : Char} (h : c.isDigit) :
    c.toNat - '0'.toNat < 10 ∧ Nat.digitChar (c.toNat - '0'.toNat) = c := by
  obtain ⟨hlow, hhigh⟩ : 48 ≤ c.toNat ∧ c.toNat ≤ 57 := Char.isDigit_iff_toNat.mp h
  have hlt : c.toNat - '0'.toNat < 10 := by
    show c.toNat - 48 < 10
    omega
  refine ⟨hlt, Char.toNat_inj.mp ?_⟩
  rw [Nat.toNat_digitChar_of_lt_ten hlt]
  show 48 + (c.toNat - 48) = c.toNat
  omega

/-- Digits after a number that is not zero write that number further. -/
theorem toDigits_append {n : Nat} (hn : 0 < n) (h : ∀ c ∈ digits, c.isDigit) :
    Nat.toDigits 10 n ++ digits = Nat.toDigits 10 (Nat.ofDigitChars 10 digits n) := by
  induction digits generalizing n with
  | nil => simp
  | cons c digits ih =>
    obtain ⟨hlt, hchar⟩ := digitChar_of_isDigit (h c List.mem_cons_self)
    have hone : Nat.toDigits 10 n ++ [c] = Nat.toDigits 10 (10 * n + (c.toNat - '0'.toNat)) := by
      rw [← Nat.toDigits_append_toDigits (by decide) hn hlt, Nat.toDigits_of_lt_base hlt, hchar]
    rw [Nat.ofDigitChars_cons, List.append_cons, hone]
    exact ih (by omega) fun d hd => h d (List.mem_cons_of_mem _ hd)

/-- A decimal number is how its value is written. -/
theorem toDigits_of_isDecimal (h : isDecimal digits) :
    Nat.toDigits 10 (Nat.ofDigitChars 10 digits 0) = digits := by
  cases digits with
  | nil => cases h
  | cons c rest =>
    obtain ⟨hdigits, hzero⟩ : (∀ d ∈ c :: rest, d.isDigit) ∧ (c ≠ '0' ∨ rest = []) := by
      simpa [isDecimal] using h
    obtain ⟨hlt, hchar⟩ := digitChar_of_isDigit (hdigits c List.mem_cons_self)
    rw [Nat.ofDigitChars_cons, Nat.mul_zero, Nat.zero_add]
    rcases hzero with hc | rfl
    · have hpos : 0 < c.toNat - '0'.toNat := by
        refine Nat.pos_of_ne_zero fun h0 => hc ?_
        rw [← hchar, h0]
        rfl
      rw [← toDigits_append hpos fun d hd => hdigits d (List.mem_cons_of_mem _ hd),
        Nat.toDigits_of_lt_base hlt, hchar, List.singleton_append]
    · rw [Nat.ofDigitChars_nil, Nat.toDigits_of_lt_base hlt, hchar]

/-- The digits that a count begins with are a number too, and no larger one. -/
theorem isDecimal_of_prefix (hne : rest ≠ []) (h : Nat.toDigits 10 k = rest ++ more) :
    isDecimal rest ∧ Nat.ofDigitChars 10 rest 0 ≤ k := by
  refine ⟨?_, (parts_le_of_toDigits h).1⟩
  obtain ⟨c, rest, rfl⟩ := List.exists_cons_of_ne_nil hne
  have hdigits : ∀ d ∈ c :: rest, d.isDigit := fun d hd =>
    isDigit_toDigits (n := k) (by rw [h]; exact List.mem_append_left _ hd)
  have hzero : c ≠ '0' ∨ rest = [] := by
    rcases Nat.eq_zero_or_pos k with rfl | hk
    · -- zero is one digit
      rw [Nat.toDigits_zero, List.cons_append, List.cons.injEq] at h
      exact Or.inr (List.append_eq_nil_iff.mp h.2.symm).1
    · refine Or.inl fun hc => head_toDigits hk ?_
      rw [h, hc]
      rfl
  rw [isDecimal, Bool.and_eq_true, List.all_eq_true]
  exact ⟨hdigits, by simpa using hzero⟩

end Digits

/-! ## Stems that are apart by digits -/

namespace Settings

variable {s : Settings} {rest rest' : List Char}

/-- One stem of aliases is the other one and these characters. -/
def ApartBy (s : Settings) (rest : List Char) : Prop :=
  s.aliasStem.toList = s.variableStem.toList ++ rest
    ∨ s.variableStem.toList = s.aliasStem.toList ++ rest

/-- There is only one way for two stems to be apart. -/
theorem ApartBy.unique (h : s.ApartBy rest) (h' : s.ApartBy rest') : rest = rest' := by
  -- each the longer one, both stems are the same
  have hboth : ∀ {a b : List Char}, a = b ++ rest → b = a ++ rest' → rest = rest' := by
    intro a b ha hb
    rw [ha, List.append_assoc, List.self_eq_append_right, List.append_eq_nil_iff] at hb
    rw [hb.1, hb.2]
  rcases h with h | h <;> rcases h' with h' | h'
  · exact List.append_cancel_left (h.symm.trans h')
  · exact hboth h h'
  · exact hboth h h'
  · exact List.append_cancel_left (h.symm.trans h')

/-- The check refuses stems that are apart by digits, whichever is the longer. -/
theorem collide_iff : collide s.aliasStem s.variableStem ↔
    ∃ rest, rest ≠ [] ∧ (∀ c ∈ rest, c.isDigit) ∧ s.ApartBy rest := by
  rw [collide, Bool.or_eq_true, extendsWithDigits_iff, extendsWithDigits_iff, ← exists_or]
  simp only [← and_or_left, ApartBy]

/-- The check comes after those of single settings, and reports such stems as a collision. -/
theorem collision_mem_violations : .collision s.aliasStem s.variableStem ∈ s.violations ↔
    s.fieldViolations = [] ∧ ∃ rest, rest ≠ [] ∧ (∀ c ∈ rest, c.isDigit) ∧ s.ApartBy rest := by
  have hfield : .collision s.aliasStem s.variableStem ∉ s.fieldViolations := by
    unfold fieldViolations
    split <;> split <;> split <;> split <;> simp
  rw [← collide_iff]
  cases hf : s.fieldViolations with
  | nil => simp [violations, hf]
  | cons violation rest =>
    rw [hf] at hfield
    simpa [violations, hf] using hfield

end Settings

namespace Naming

open Settings

variable {s : Settings} {kind kind' : RefKind} {digits : List Char}

/-- Kinds whose stems are not the same have the two stems of aliases. -/
theorem apartBy_of_stem (hne : digits ≠ [])
    (h : (stem s kind).toList = (stem s kind').toList ++ digits) : s.ApartBy digits := by
  have hself : ∀ l : List Char, l ≠ l ++ digits := fun l heq =>
    hne (List.self_eq_append_right.mp heq)
  have hstem : ∀ k : RefKind, stem s k = s.aliasStem ∨ stem s k = s.variableStem := fun k => by
    cases k <;> simp [stem]
  rcases hstem kind with hk | hk <;> rcases hstem kind' with hk' | hk' <;> rw [hk, hk'] at h
  · exact absurd h (hself _)
  · exact Or.inl h
  · exact Or.inr h
  · exact absurd h (hself _)

/-- **Two counts with one alias need stems that are apart by a number**, and the larger count comes
after that number. -/
theorem apartBy_of_aliasText_eq {i j : Nat} (hij : i < j)
    (h : aliasText s kind i = aliasText s kind' j) :
    ∃ digits, isDecimal digits ∧ s.ApartBy digits ∧ Nat.ofDigitChars 10 digits 0 < j := by
  obtain ⟨j, rfl⟩ := Nat.exists_eq_add_one_of_ne_zero (Nat.ne_zero_of_lt hij)
  -- in both cases the longer stem goes on with digits that the larger number begins with
  obtain ⟨rest, more, hne, hstem, hj⟩ : ∃ rest more, rest ≠ []
      ∧ (stem s kind).toList = (stem s kind').toList ++ rest
      ∧ (toString j).toList = rest ++ more := by
    cases i with
    | zero =>
      refine ⟨(toString j).toList, [], toString_ne_nil j, ?_, by simp⟩
      rw [← String.toList_append]
      exact congrArg String.toList h
    | succ i =>
      obtain ⟨rest, hne, hstem, hj⟩ := numbered_eq (Nat.lt_of_succ_lt_succ hij) h
      exact ⟨rest, _, hne, hstem, hj⟩
  obtain ⟨hdecimal, hle⟩ := isDecimal_of_prefix (k := j) hne (by simpa using hj)
  exact ⟨rest, hdecimal, apartBy_of_stem hne hstem, Nat.lt_succ_of_le hle⟩

/-- Where the stems are apart by a number, the longer one alone is the shorter one with it. -/
theorem aliasText_eq_of_apartBy (hdigits : isDecimal digits) (h : s.ApartBy digits) :
    ∃ kind kind', aliasText s kind 0 = aliasText s kind' (Nat.ofDigitChars 10 digits 0 + 1) := by
  have hnumber : ∀ a b : String, a.toList = b.toList ++ digits →
      a = b ++ toString (Nat.ofDigitChars 10 digits 0) := by
    intro a b hab
    rw [← String.toList_inj, String.toList_append, hab, Nat.toString_eq_ofList_toDigits,
      toDigits_of_isDecimal hdigits, String.toList_ofList]
  rcases h with h | h
  · exact ⟨.node, .var, hnumber _ _ h⟩
  · exact ⟨.var, .node, hnumber _ _ h⟩

/-! ## Runs that give an alias twice -/

/-- Two references among these visits have one alias. -/
def Repeats (n : Naming) (vs : List Visit) : Prop :=
  ∃ r r' name, .ref r ∈ vs ∧ .ref r' ∈ vs ∧ r.id ≠ r'.id
    ∧ n.nameAt r.id.index = some name ∧ n.nameAt r'.id.index = some name

variable {arena : ArenaId} {rs : List Handout} {actions : List Action} {targets : List Reference}

/-- A run that gives an alias twice has counted past the number that the stems are apart by. -/
theorem apartBy_of_repeats (h : ∀ a ∈ actions, a.Within arena rs)
    (hrepeats : ((fresh arena s).run actions).Repeats (issuedBy arena rs)) :
    ∃ digits, isDecimal digits ∧ s.ApartBy digits
      ∧ Nat.ofDigitChars 10 digits 0 + 2 ≤ ((fresh arena s).run actions).aliasCount := by
  obtain ⟨r, r', name, hr, hr', hid, hn, hn'⟩ := hrepeats
  obtain ⟨fs, d, hrun, hfs, hnodup⟩ := run_issued (s := s) h
  rw [hrun] at hn hn' ⊢
  obtain ⟨hmem, hname⟩ := (nameAt_ofVisits_issued hfs hnodup hr).mp hn
  obtain ⟨hmem', hname'⟩ := (nameAt_ofVisits_issued hfs hnodup hr').mp hn'
  have halias := hname.symm.trans hname'
  rw [namesOf_ref, namesOf_ref] at halias
  -- the later one of the two was counted after the number
  have hlater : ∀ w w' : Reference, .ref w' ∈ fs →
      aliasText s w.kind (((refsOf fs).map Reference.id).idxOf w.id)
        = aliasText s w'.kind (((refsOf fs).map Reference.id).idxOf w'.id) →
      ((refsOf fs).map Reference.id).idxOf w.id < ((refsOf fs).map Reference.id).idxOf w'.id →
      ∃ digits, isDecimal digits ∧ s.ApartBy digits
        ∧ Nat.ofDigitChars 10 digits 0 + 2 ≤ (refsOf fs).length := by
    intro w w' hw' halias hlt
    obtain ⟨digits, hdigits, hapart, hle⟩ := apartBy_of_aliasText_eq hlt halias
    have hcount : ((refsOf fs).map Reference.id).idxOf w'.id < (refsOf fs).length := by
      simpa using List.idxOf_lt_length_iff.mpr
        (List.mem_map.mpr ⟨w', mem_refsOf.mpr hw', rfl⟩ : w'.id ∈ (refsOf fs).map Reference.id)
    exact ⟨digits, hdigits, hapart, by omega⟩
  have hne : ((refsOf fs).map Reference.id).idxOf r.id
      ≠ ((refsOf fs).map Reference.id).idxOf r'.id := fun heq =>
    hid ((List.idxOf_inj (List.mem_map.mpr ⟨r, mem_refsOf.mpr hmem, rfl⟩)).mp heq)
  rcases Nat.lt_or_gt_of_ne hne with hlt | hlt
  · exact hlater r r' hmem' halias hlt
  · exact hlater r' r hmem halias.symm hlt

/-! ### Asking for aliases only -/

/-- Asks for the alias of each of these references in turn. -/
def lookUps (targets : List Reference) : List Action :=
  targets.map .aliasOf

theorem run_lookUps (n : Naming) (targets : List Reference) :
    n.run (lookUps targets) = n.visitAll (targets.map .ref) := by
  induction targets generalizing n with
  | nil => rfl
  | cons r targets ih => exact ih (n.visit (.ref r))

/-- Each lookup counts one alias at most. -/
theorem aliasCount_run_lookUps (n : Naming) (targets : List Reference) :
    (n.run (lookUps targets)).aliasCount ≤ n.aliasCount + targets.length := by
  rw [run_lookUps]
  induction targets generalizing n with
  | nil => exact Nat.le_refl _
  | cons r targets ih =>
    have hstep : (n.visit (.ref r)).aliasCount ≤ n.aliasCount + 1 := by
      rcases visit_cases n (.ref r) with ⟨_, h⟩ | ⟨_, _, h⟩ | ⟨_, _, h⟩ <;> rw [h]
      · exact Nat.le_succ _
      · exact Nat.le_succ _
      · exact Nat.le_refl _
    have hrest := ih (n.visit (.ref r))
    rw [List.map_cons, visitAll_cons, List.length_cons]
    omega

/-- References looked up one after another are named by their places. -/
theorem nameAt_run_lookUps (harena : ∀ r ∈ targets, r.id.arena = arena)
    (hnodup : (targets.map Reference.id).Nodup) {j : Nat} {r : Reference}
    (hr : targets[j]? = some r) :
    ((fresh arena s).run (lookUps targets)).nameAt r.id.index = some (aliasText s r.kind j) := by
  obtain ⟨hj, rfl⟩ := List.getElem?_eq_some_iff.mp hr
  have hids : (targets.map Visit.ref).map Visit.id = targets.map Reference.id := by simp [Visit.id]
  have hrefs : refsOf (targets.map Visit.ref) = targets := by
    simp [refsOf, List.filterMap_map, Function.comp_def, Visit.ref?]
  have hlocal : ∀ v ∈ targets.map Visit.ref, v.id.arena = arena :=
    List.forall_mem_map.mpr harena
  -- no reference comes twice, so every lookup is a first visit
  have hfirst : (fresh arena s).run (lookUps targets)
      = ofVisits arena s (targets.map Visit.ref) 0 := by
    rw [run_lookUps, visitAll_fresh hlocal, firstVisits_of_nodup (hids ▸ hnodup)]
  have hplace : (targets.map Reference.id).idxOf targets[j].id = j := by
    have h := hnodup.idxOf_getElem j (by simpa using hj)
    rwa [List.getElem_map] at h
  have hname := nameAt_ofVisits (s := s) (d := 0) hlocal (hids ▸ hnodup)
    (List.mem_map.mpr ⟨targets[j], List.getElem_mem hj, rfl⟩)
  rw [namesOf_ref, hrefs, hplace] at hname
  rw [hfirst]
  exact hname

/-- Two references at places whose counts make one alias get it. -/
theorem repeats_lookUps (hissued : ∀ r ∈ targets, .ref r ∈ issuedBy arena rs)
    (hnodup : (targets.map Reference.id).Nodup) {i j : Nat} (hij : i ≠ j) {r r' : Reference}
    (hr : targets[i]? = some r) (hr' : targets[j]? = some r')
    (h : aliasText s r.kind i = aliasText s r'.kind j) :
    ((fresh arena s).run (lookUps targets)).Repeats (issuedBy arena rs) := by
  have harena : ∀ r ∈ targets, r.id.arena = arena := fun r hr =>
    Arena.arena_of_mem_issueAll _ (hissued r hr)
  refine ⟨r, r', aliasText s r.kind i, hissued r (List.mem_of_getElem? hr),
    hissued r' (List.mem_of_getElem? hr'), ?_, nameAt_run_lookUps harena hnodup hr, ?_⟩
  · -- different places hold different references
    intro hid
    have hids : (targets.map Reference.id)[i]? = (targets.map Reference.id)[j]? := by
      rw [List.getElem?_map, List.getElem?_map, hr, hr', Option.map_some, Option.map_some, hid]
    have hlt : i < (targets.map Reference.id).length := by
      rw [List.length_map]
      exact (List.getElem?_eq_some_iff.mp hr).1
    exact hij ((List.getElem?_inj hlt hnodup).mp hids)
  · rw [h]
    exact nameAt_run_lookUps harena hnodup hr'

/-- After some lookups, so many of them, two references of the arena have one alias. -/
def RepeatsAfter (arena : ArenaId) (s : Settings) (n : Nat) : Prop :=
  ∃ rs targets, targets.length = n ∧ (∀ r ∈ targets, .ref r ∈ issuedBy arena rs)
    ∧ ((fresh arena s).run (lookUps targets)).Repeats (issuedBy arena rs)

end Naming

/-- What an arena hands out for a reference of this kind. -/
def RefKind.handout : RefKind → Handout
  | .node => .node []
  | .relationship => .relationship none
  | .var => .var

theorem kinds_issueAll (a : Arena) (kinds : List RefKind) :
    (refsOf (a.issueAll (kinds.map RefKind.handout))).map Reference.kind = kinds := by
  induction kinds generalizing a with
  | nil => rfl
  | cons kind kinds ih => cases kind <;> exact congrArg (_ :: ·) (ih _)

namespace Naming

open Settings

variable {arena : ArenaId} {s : Settings} {digits : List Char} {n : Nat}

/-- The reference with the longer stem goes first, and the others follow. -/
theorem repeatsAfter_of_apartBy (hdigits : isDecimal digits) (h : s.ApartBy digits)
    (hn : Nat.ofDigitChars 10 digits 0 + 2 ≤ n) : RepeatsAfter arena s n := by
  obtain ⟨longer, shorter, halias⟩ := aliasText_eq_of_apartBy hdigits h
  obtain ⟨m, rfl⟩ := Nat.exists_eq_add_one_of_ne_zero (Nat.ne_zero_of_lt hn)
  -- one reference on the longer stem, and then only such on the shorter
  let rs : List Handout := (longer :: List.replicate m shorter).map RefKind.handout
  have hkinds : (refsOf (issuedBy arena rs)).map Reference.kind
      = longer :: List.replicate m shorter := kinds_issueAll _ _
  have hlength : (refsOf (issuedBy arena rs)).length = m + 1 := by
    simpa using congrArg List.length hkinds
  have hnodup : ((refsOf (issuedBy arena rs)).map Reference.id).Nodup :=
    (Arena.nodup_issueAll (Arena.empty arena) rs).sublist (refIds_sublist _)
  have hplace : ∀ (j : Nat) (kind : RefKind),
      (longer :: List.replicate m shorter)[j]? = some kind →
        ∃ r, (refsOf (issuedBy arena rs))[j]? = some r ∧ r.kind = kind := by
    intro j kind hj
    rw [← hkinds, List.getElem?_map] at hj
    exact Option.map_eq_some_iff.mp hj
  -- the number that makes up for the missing digits is reached in time
  have hsecond : (longer :: List.replicate m shorter)[Nat.ofDigitChars 10 digits 0 + 1]?
      = some shorter := by
    rw [List.getElem?_cons_succ, List.getElem?_replicate_of_lt (by omega)]
  obtain ⟨r, hr, rfl⟩ := hplace 0 longer rfl
  obtain ⟨r', hr', rfl⟩ := hplace _ shorter hsecond
  exact ⟨rs, refsOf (issuedBy arena rs), hlength, fun r hr => mem_refsOf.mp hr,
    repeats_lookUps (fun r hr => mem_refsOf.mp hr) hnodup (Nat.zero_ne_add_one _) hr hr' halias⟩

/-- Fewer lookups do not count that far. -/
theorem le_of_repeatsAfter (h : s.ApartBy digits) (hrepeats : RepeatsAfter arena s n) :
    Nat.ofDigitChars 10 digits 0 + 2 ≤ n := by
  obtain ⟨rs, targets, rfl, htargets, hrepeats⟩ := hrepeats
  have hwithin : ∀ a ∈ lookUps targets, a.Within arena rs := by
    refine List.forall_mem_map.mpr fun r hr v hv _ => ?_
    obtain rfl := List.mem_singleton.mp hv
    exact htargets r hr
  obtain ⟨digits', _, hapart, hcount⟩ := apartBy_of_repeats hwithin hrepeats
  obtain rfl := h.unique hapart
  have hle := aliasCount_run_lookUps (fresh arena s) targets
  rw [show (fresh arena s).aliasCount = 0 from rfl, Nat.zero_add] at hle
  exact Nat.le_trans hcount hle

end Naming

namespace Settings

open Naming

/-- **Stems that are apart by a number collide, and no others do.** The check refuses all stems that
are apart by digits. Where the digits are a number, that many lookups and two more can give an alias
twice, and fewer never do. Where the stems are not apart by a number, refused or not, no run gives
an alias twice, whatever else it names, opens or renders. -/
theorem repeats_iff_apart_by_number (arena : ArenaId) (s : Settings) :
    (.collision s.aliasStem s.variableStem ∈ s.violations ↔
      s.fieldViolations = []
        ∧ ∃ rest, rest ≠ [] ∧ (∀ c ∈ rest, c.isDigit) ∧ s.ApartBy rest)
    ∧ (∀ digits, isDecimal digits → s.ApartBy digits →
      ∀ n, RepeatsAfter arena s n ↔ Nat.ofDigitChars 10 digits 0 + 2 ≤ n)
    ∧ ((∀ digits, isDecimal digits → ¬s.ApartBy digits) →
      ∀ rs actions, (∀ a ∈ actions, a.Within arena rs) →
        ¬((fresh arena s).run actions).Repeats (issuedBy arena rs)) := by
  refine ⟨collision_mem_violations, ?_, ?_⟩
  · intro digits hdigits hapart n
    exact ⟨le_of_repeatsAfter hapart, repeatsAfter_of_apartBy hdigits hapart⟩
  · intro hnone rs actions h hrepeats
    obtain ⟨digits, hdigits, hapart, _⟩ := apartBy_of_repeats h hrepeats
    exact hnone digits hdigits hapart

/-- The stem of variables is that of nodes and a number. -/
def twelveApart : Settings :=
  { default with variableStem := "this12" }

/-- The digits between the stems have a zero too many. -/
def paddedApart : Settings :=
  { default with variableStem := "this012" }

theorem paddedApart_not_apartBy {digits : List Char} (hdigits : isDecimal digits) :
    ¬paddedApart.ApartBy digits := by
  rintro (h | h)
  · exact absurd (congrArg List.length h) (by simp [paddedApart, default])
  · have h' : "this".toList ++ ['0', '1', '2'] = "this".toList ++ digits := h
    obtain rfl := List.append_cancel_left h'
    exact absurd hdigits (by decide)

theorem repeats_iff_apart_by_number_this :
    isDecimal ['1', '2'] ∧ twelveApart.ApartBy ['1', '2']
    ∧ RepeatsAfter ⟨0⟩ twelveApart 14 ∧ ¬RepeatsAfter ⟨0⟩ twelveApart 13
    ∧ .collision "this" "this012" ∈ paddedApart.violations
    ∧ (∀ digits, isDecimal digits → ¬paddedApart.ApartBy digits)
    ∧ ∀ rs actions, (∀ a ∈ actions, a.Within ⟨0⟩ rs) →
      ¬((fresh ⟨0⟩ paddedApart).run actions).Repeats (issuedBy ⟨0⟩ rs) := by
  have hnumber : isDecimal ['1', '2'] := by decide
  have hapart : twelveApart.ApartBy ['1', '2'] := Or.inr rfl
  have hcount := (repeats_iff_apart_by_number ⟨0⟩ twelveApart).2.1 _ hnumber hapart
  exact ⟨hnumber, hapart, (hcount 14).mpr (by decide),
    fun h => absurd ((hcount 13).mp h) (by decide), by decide, fun _ => paddedApart_not_apartBy,
    (repeats_iff_apart_by_number ⟨0⟩ paddedApart).2.2 fun _ => paddedApart_not_apartBy⟩

end Settings

end GraphQuery
