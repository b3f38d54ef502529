import GraphQuery.Defect
import GraphQuery.Proofs.Lexer

/-!
# Reading a condition

A reader who knows nothing of how a condition was written sees a row of tokens. What holds it
together is found from the outside inwards. OR binds least: wherever it stands outside all brackets,
it separates the operands. Where there is none, AND does the same. Where there is none of that
either, a leading NOT negates all that follows it. Parentheses around everything are taken off. What
is left is a leaf, and the reader does not ask what it means.

Inside brackets of any kind no word is an operator, and nowhere is a name between quotes. Right
after a point no word is one either: there it is a key.
-/

namespace GraphQuery

/-- What is joined and negated, down to the leaves. -/
inductive Formula
  | leaf (tokens : List Token)
  | not (operand : Formula)
  | joined (junction : Junction) (operands : List Formula)

namespace Token

/-- Whether the token opens a bracket of any kind. -/
def isOpening : Token → Bool
  | mark c => c == '(' || c == '[' || c == '\x7b'
  | _ => false

/-- Whether the token closes a bracket of any kind. -/
def isClosing : Token → Bool
  | mark c => c == ')' || c == ']' || c == '\x7d'
  | _ => false

/-- Whether the token is a bracket. -/
def isBracket (t : Token) : Bool :=
  t.isOpening || t.isClosing

/-- How many brackets are open after a token. -/
def depthAfter (t : Token) (depth : Nat) : Nat :=
  if t.isOpening then depth + 1 else if t.isClosing then depth - 1 else depth

theorem depthAfter_of_not_isBracket {t : Token} (h : t.isBracket = false) (depth : Nat) :
    t.depthAfter depth = depth := by
  obtain ⟨hopening, hclosing⟩ := Bool.or_eq_false_iff.mp h
  rw [depthAfter, hopening, hclosing]
  rfl

end Token

namespace Formula

/-! ## Operators -/

/-- Every token, and whether it could be an operator where it stands: outside all brackets, and not
as a key. -/
def outline (depth : Nat) (key : Bool) : List Token → List (Token × Bool)
  | [] => []
  | t :: rest => (t, depth == 0 && !key) :: outline (t.depthAfter depth) (t == .mark '.') rest

@[simp] theorem map_fst_outline (depth : Nat) (key : Bool) (ts : List Token) :
    (outline depth key ts).map Prod.fst = ts := by
  induction ts generalizing depth key with
  | nil => rfl
  | cons t rest ih => rw [outline, List.map_cons, ih]

/-- Without brackets a reader who is inside stays inside, where nothing can be an operator. -/
theorem outline_append {us : List Token} (h : ∀ t ∈ us, t.isBracket = false) (depth : Nat)
    (key : Bool) (ts : List Token) :
    ∃ key', outline (depth + 1) key (us ++ ts)
      = us.map (·, false) ++ outline (depth + 1) key' ts := by
  induction us generalizing key with
  | nil => exact ⟨key, rfl⟩
  | cons t rest ih =>
    obtain ⟨ht, hrest⟩ := List.forall_mem_cons.mp h
    obtain ⟨key', hkey⟩ := ih hrest (t == .mark '.')
    refine ⟨key', ?_⟩
    rw [List.cons_append, outline, Token.depthAfter_of_not_isBracket ht, hkey]
    rfl

/-- The word that a reader takes for a junction. -/
def joiner : Junction → String
  | .and => "AND"
  | .or => "OR"

/-- The word of a junction, where it joins. -/
def joint (j : Junction) : Token × Bool :=
  (.word (joiner j), true)

/-- What stands between the joints of a junction. -/
def operands (j : Junction) (ts : List Token) : List (List Token) :=
  ((outline 0 false ts).splitOn (joint j)).map fun part => part.map Prod.fst

theorem length_le_intercalate {α : Type} (x : α) {parts : List (List α)} {part : List α}
    (hmem : part ∈ parts) : part.length ≤ ([x].intercalate parts).length := by
  induction parts with
  | nil => exact absurd hmem List.not_mem_nil
  | cons first rest ih =>
    cases rest with
    | nil =>
      rw [List.mem_singleton.mp hmem, List.intercalate_singleton]
    | cons second rest =>
      rw [List.intercalate_cons_cons, List.length_append, List.length_append]
      rcases List.mem_cons.mp hmem with rfl | hmem
      · omega
      · have hrest := ih hmem
        omega

/-- Each of two or more parts is shorter than all of them with something between them. -/
theorem length_lt_intercalate {α : Type} (x : α) {parts : List (List α)} {part : List α}
    (hmem : part ∈ parts) (h : 2 ≤ parts.length) :
    part.length < ([x].intercalate parts).length := by
  match parts, h with
  | first :: second :: rest, _ =>
    rw [List.intercalate_cons_cons, List.length_append, List.length_append,
      List.length_singleton]
    rcases List.mem_cons.mp hmem with rfl | hmem
    · omega
    · have hrest := length_le_intercalate x hmem
      omega

theorem operands_length {j : Junction} {ts part : List Token} (h : 2 ≤ (operands j ts).length)
    (hmem : part ∈ operands j ts) : part.length < ts.length := by
  obtain ⟨marked, hmarked, rfl⟩ := List.mem_map.mp hmem
  rw [operands, List.length_map] at h
  have hlt := length_lt_intercalate (joint j) hmarked h
  rw [List.intercalate_splitOn] at hlt
  calc (marked.map Prod.fst).length
      = marked.length := List.length_map _
    _ < (outline 0 false ts).length := hlt
    _ = ((outline 0 false ts).map Prod.fst).length := (List.length_map _).symm
    _ = ts.length := by rw [map_fst_outline]

/-- What a leading NOT negates. -/
def negated? : List Token → Option (List Token)
  | .word w :: rest => if w = "NOT" then some rest else none
  | _ => none

theorem negated?_length {ts rest : List Token} (h : negated? ts = some rest) :
    rest.length < ts.length := by
  unfold negated? at h
  split at h
  · split at h
    · obtain rfl := Option.some.inj h
      exact Nat.lt_succ_self _
    · cases h
  · cases h

/-! ## Parentheses -/

/-- What comes before the parenthesis that closes the one before, and what comes after it. -/
def untilClosed (depth : Nat) : List Token → Option (List Token × List Token)
  | [] => none
  | t :: rest =>
    if depth = 0 ∧ t = .mark ')' then some ([], rest)
    else (untilClosed (t.depthAfter depth) rest).map (Prod.map (t :: ·) id)

theorem untilClosed_length {depth : Nat} {ts inner after : List Token}
    (h : untilClosed depth ts = some (inner, after)) : inner.length ≤ ts.length := by
  induction ts generalizing depth inner with
  | nil => cases h
  | cons t rest ih =>
    rw [untilClosed] at h
    split at h
    · obtain ⟨rfl, _⟩ := Prod.mk.inj (Option.some.inj h)
      exact Nat.zero_le _
    · obtain ⟨⟨inner', after'⟩, hrest, heq⟩ := Option.map_eq_some_iff.mp h
      obtain ⟨rfl, rfl⟩ := Prod.mk.inj heq
      exact Nat.succ_le_succ (ih hrest)

/-- Tokens without brackets close nothing. -/
theorem untilClosed_append {us ts inner after : List Token} {depth : Nat}
    (h : ∀ t ∈ us, t.isBracket = false) (hts : untilClosed depth ts = some (inner, after)) :
    untilClosed depth (us ++ ts) = some (us ++ inner, after) := by
  induction us with
  | nil => exact hts
  | cons t rest ih =>
    obtain ⟨ht, hrest⟩ := List.forall_mem_cons.mp h
    have hopen : ¬(depth = 0 ∧ t = .mark ')') := by
      rintro ⟨_, rfl⟩
      exact absurd ht (by decide)
    rw [List.cons_append, untilClosed, if_neg hopen, Token.depthAfter_of_not_isBracket ht,
      ih hrest]
    rfl

/-- What is between parentheses that belong together and stand around everything. -/
def enclosed? : List Token → Option (List Token)
  | t :: rest =>
    if t = .mark '(' then
      match untilClosed 0 rest with
      | some (inner, []) => some inner
      | _ => none
    else none
  | [] => none

theorem enclosed?_length {ts inner : List Token} (h : enclosed? ts = some inner) :
    inner.length < ts.length := by
  unfold enclosed? at h
  split at h
  · split at h
    · split at h
      · rename_i hclosed
        obtain rfl := Option.some.inj h
        exact Nat.lt_succ_of_le (untilClosed_length hclosed)
      · cases h
    · cases h
  · cases h

/-! ## Reading -/

/-- The formula of some tokens, by standard precedence. -/
def read (ts : List Token) : Formula :=
  -- OR binds least, so the text is split at it first
  if hor : 2 ≤ (operands .or ts).length then
    .joined .or ((operands .or ts).attach.map fun ⟨part, hpart⟩ =>
      have := operands_length hor hpart
      read part)
  else if hand : 2 ≤ (operands .and ts).length then
    .joined .and ((operands .and ts).attach.map fun ⟨part, hpart⟩ =>
      have := operands_length hand hpart
      read part)
  else
    -- neither word stands in the open
    match hnot : negated? ts with
    | some rest =>
      have := negated?_length hnot
      .not (read rest)
    | none =>
      match hround : enclosed? ts with
      | some inner =>
        have := enclosed?_length hround
        read inner
      | none => .leaf ts
termination_by ts.length

/-- The steps of the reader, without the reasons why it comes to an end. -/
theorem read_eq (ts : List Token) :
    read ts = if 2 ≤ (operands .or ts).length then .joined .or ((operands .or ts).map read)
      else if 2 ≤ (operands .and ts).length then .joined .and ((operands .and ts).map read)
      else match negated? ts, enclosed? ts with
        | some rest, _ => .not (read rest)
        | none, some inner => read inner
        | none, none => .leaf ts := by
  rw [read]
  -- the memberships are there for termination only
  simp only [List.attach_map_val, dite_eq_ite]
  split
  · rfl
  · split
    · rfl
    · split
      · rename_i hnot
        rw [hnot]
      · rename_i hnot
        rw [hnot]
        split
        · rename_i hround
          rw [hround]
        · rename_i hround
          rw [hround]

/-- NOT binds more than AND, and AND more than OR. -/
example : read [.word "a", .word "OR", .word "NOT", .word "b", .word "AND", .word "c"]
    = .joined .or [.leaf [.word "a"],
      .joined .and [.not (.leaf [.word "b"]), .leaf [.word "c"]]] := by
  cbv

/-! ## What a reader finds -/

/-- Tokens in which no word joins by this junction, and after which the reader is outside all
brackets again. -/
structure Whole (j : Junction) (ts : List Token) : Prop where
  /-- What stands behind is read as if it stood by itself. -/
  splits : ∀ us, outline 0 false (ts ++ us) = outline 0 false ts ++ outline 0 false us
  /-- The word of the junction is nowhere in the open. -/
  unjoined : joint j ∉ outline 0 false ts

section Whole

variable {i j : Junction} {t : Token} {ts us : List Token} {parts : List (List Token)}

namespace Whole

theorem nil (j : Junction) : Whole j [] :=
  ⟨fun _ => rfl, List.not_mem_nil⟩

theorem append (h : Whole j ts) (h' : Whole j us) : Whole j (ts ++ us) := by
  refine ⟨fun vs => ?_, ?_⟩
  · rw [List.append_assoc, h.splits, h'.splits, h.splits, List.append_assoc]
  · rw [h.splits]
    intro hmem
    rcases List.mem_append.mp hmem with hmem | hmem
    · exact h.unjoined hmem
    · exact h'.unjoined hmem

/-- A token is whole by itself unless it is a bracket, a point, or the word that joins. -/
theorem token (hdepth : t.depthAfter 0 = 0) (hdot : t ≠ .mark '.')
    (hword : t ≠ .word (joiner j)) : Whole j [t] := by
  refine ⟨fun us => ?_, ?_⟩
  · rw [List.singleton_append, outline, outline, hdepth, beq_false_of_ne hdot]
    rfl
  · intro hmem
    have heq := List.mem_singleton.mp hmem
    exact hword (Prod.mk.inj heq).1.symm

theorem tokens
    (h : ∀ t ∈ ts, t.depthAfter 0 = 0 ∧ t ≠ .mark '.' ∧ t ≠ .word (joiner j)) : Whole j ts := by
  induction ts with
  | nil => exact nil j
  | cons t rest ih =>
    obtain ⟨⟨hdepth, hdot, hword⟩, hrest⟩ := List.forall_mem_cons.mp h
    exact (token hdepth hdot hword).append (ih hrest)

/-- After a point every word is whole. -/
theorem key (hdepth : t.depthAfter 0 = 0) (hdot : t ≠ .mark '.') : Whole j [.mark '.', t] := by
  have houtline : ∀ us, outline 0 false ([.mark '.', t] ++ us)
      = (.mark '.', true) :: (t, false) :: outline 0 false us := by
    intro us
    have hpoint : (Token.mark '.').depthAfter 0 = 0 := by decide
    rw [List.cons_append, List.singleton_append, outline, outline, hpoint, hdepth,
      beq_false_of_ne hdot]
    rfl
  refine ⟨fun us => ?_, ?_⟩
  · have hnone := houtline []
    rw [List.append_nil] at hnone
    rw [houtline, hnone]
    rfl
  · have hnone := houtline []
    rw [List.append_nil] at hnone
    rw [hnone, joint]
    simp [outline]

theorem intercalate (ht : Whole j [t]) (h : ∀ part ∈ parts, Whole j part) :
    Whole j ([t].intercalate parts) := by
  induction parts with
  | nil => exact nil j
  | cons part parts ih =>
    have hpart := h part List.mem_cons_self
    have hparts : ∀ part ∈ parts, Whole j part := fun part hmem =>
      h part (List.mem_cons_of_mem _ hmem)
    cases parts with
    | nil => simpa [List.intercalate] using hpart
    | cons other parts =>
      rw [List.intercalate_cons_cons]
      exact (hpart.append ht).append (ih hparts)

end Whole

theorem operands_of_whole (h : Whole j ts) : operands j ts = [ts] := by
  have hsplit : ([joint j].intercalate [outline 0 false ts]).splitOn (joint j)
      = [outline 0 false ts] :=
    List.splitOn_intercalate _ (by simpa using h.unjoined) (by simp)
  rw [List.intercalate_singleton] at hsplit
  rw [operands, hsplit, List.map_singleton, map_fst_outline]

/-- The outline of joined parts is that of the parts, with joints between them. -/
theorem outline_joined (h : ∀ part ∈ parts, Whole j part) :
    outline 0 false ([.word (joiner j)].intercalate parts)
      = [joint j].intercalate (parts.map (outline 0 false)) := by
  induction parts with
  | nil => rfl
  | cons part parts ih =>
    have hpart := h part List.mem_cons_self
    have hparts : ∀ part ∈ parts, Whole j part := fun part hmem =>
      h part (List.mem_cons_of_mem _ hmem)
    cases parts with
    | nil => simp [List.intercalate]
    | cons other parts =>
      have hrest := ih hparts
      rw [List.map_cons] at hrest
      rw [List.intercalate_cons_cons, List.append_assoc, hpart.splits, List.map_cons,
        List.map_cons, List.intercalate_cons_cons, List.append_assoc, ← hrest]
      rfl

theorem operands_joined (h : ∀ part ∈ parts, Whole j part) (hne : parts ≠ []) :
    operands j ([.word (joiner j)].intercalate parts) = parts := by
  have hunjoined : ∀ part ∈ parts.map (outline 0 false), joint j ∉ part := by
    intro marked hmarked
    obtain ⟨part, hpart, rfl⟩ := List.mem_map.mp hmarked
    exact (h part hpart).unjoined
  have hmarked : parts.map (outline 0 false) ≠ [] := by simpa using hne
  rw [operands, outline_joined h, List.splitOn_intercalate _ hunjoined hmarked, List.map_map]
  conv_rhs => rw [← List.map_id parts]
  exact List.map_congr_left fun part _ => map_fst_outline 0 false part

/-- **Joined operands are read one by one.** -/
theorem read_joined (h : ∀ i, ∀ part ∈ parts, Whole i part) (hlen : 2 ≤ parts.length) :
    read ([.word (joiner j)].intercalate parts) = .joined j (parts.map read) := by
  have hne : parts ≠ [] := by
    rintro rfl
    exact absurd hlen (by decide)
  have hparts := operands_joined (h j) hne
  cases j with
  | or => rw [read_eq, hparts, if_pos hlen]
  | and =>
    -- AND is no operator of the weaker kind, so all parts together are one operand of OR
    have hand : Whole .or [.word (joiner .and)] :=
      .token (by decide) (by decide) (by decide)
    have hone := operands_of_whole (hand.intercalate (h .or))
    rw [read_eq, hone, if_neg (by simp), hparts, if_pos hlen]

/-- What joins nothing is negated, or enclosed, or a leaf. -/
theorem read_of_whole (h : ∀ i, Whole i ts) :
    read ts = match negated? ts, enclosed? ts with
      | some rest, _ => .not (read rest)
      | none, some inner => read inner
      | none, none => .leaf ts := by
  rw [read_eq, operands_of_whole (h .or), operands_of_whole (h .and), if_neg (by simp),
    if_neg (by simp)]

theorem read_not (h : ∀ i, Whole i ts) : read (.word "NOT" :: ts) = .not (read ts) := by
  have hnot : ∀ i, Whole i [.word "NOT"] := fun i =>
    .token (by decide) (by decide) (by cases i <;> decide)
  have hall : ∀ i, Whole i (.word "NOT" :: ts) := fun i => (hnot i).append (h i)
  rw [read_of_whole hall]
  rfl

/-- Tokens that a reader takes for a leaf, whatever whole tokens follow them. -/
structure Atomic (ts : List Token) : Prop where
  whole : ∀ j, Whole j ts
  /-- The first token neither negates nor opens a group. -/
  starts : ∃ t rest, ts = t :: rest ∧ t ≠ .word "NOT" ∧ t ≠ .mark '('

namespace Atomic

theorem append (h : Atomic ts) (h' : ∀ j, Whole j us) : Atomic (ts ++ us) := by
  obtain ⟨t, rest, rfl, hstart⟩ := h.starts
  exact ⟨fun j => (h.whole j).append (h' j), t, rest ++ us, rfl, hstart⟩

theorem read_eq_leaf (h : Atomic ts) : read ts = .leaf ts := by
  obtain ⟨t, rest, rfl, hnot, hround⟩ := h.starts
  have hnegated : negated? (t :: rest) = none := by
    unfold negated?
    split
    · rename_i w rest' heq
      obtain ⟨rfl, _⟩ := List.cons.inj heq
      rw [if_neg fun hw => hnot (by rw [hw])]
    · rfl
  have henclosed : enclosed? (t :: rest) = none := if_neg hround
  rw [read_of_whole h.whole, hnegated, henclosed]

end Atomic

end Whole

end Formula

/-! ## Truth -/

/-- Whether the operands make the whole true. -/
def Junction.holds : Junction → List Bool → Bool
  | and, truths => truths.all id
  | or, truths => truths.any id

namespace Formula

mutual

/-- The leaves, in the order of the text. -/
def leaves : Formula → List (List Token)
  | leaf ts => [ts]
  | not f => f.leaves
  | joined _ fs => leavesOfAll fs

/-- The leaves of the operands, one operand after the other. -/
def leavesOfAll : List Formula → List (List Token)
  | [] => []
  | f :: rest => f.leaves ++ leavesOfAll rest

end

mutual

/-- The truth of a formula, where the `i`-th of its leaves is as true as `ν` says of `k + i`. -/
def truthFrom (ν : Nat → Bool) (k : Nat) : Formula → Bool
  | leaf _ => ν k
  | not f => !truthFrom ν k f
  | joined j fs => j.holds (truthsFrom ν k fs)

/-- The truths of the operands. Each takes up the numbering where the one before it ends. -/
def truthsFrom (ν : Nat → Bool) (k : Nat) : List Formula → List Bool
  | [] => []
  | f :: rest => truthFrom ν k f :: truthsFrom ν (k + f.leaves.length) rest

end

/-- The truth of a formula under truth values for its leaves. -/
def truth (ν : Nat → Bool) (f : Formula) : Bool :=
  f.truthFrom ν 0

end Formula

end GraphQuery
