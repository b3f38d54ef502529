import GraphQuery.Proofs.Lexer

/-!
# Names are read back from their texts

A quoted name may hold the quote itself, at its beginning and its end too, or nothing else, and it
may be empty. The text of such a name has runs of quotes in it, and where the name ends depends on
whether the quotes left and right of a place go together. Read from the left they always do: a quote
that is doubled is passed with its twin, so the first one that stands alone is the last of the name.

What comes after must not go on with the name. A quoted name is not followed by another quote, and a
plain one not by a character of a word. Labels are read one after the other for as long as a colon
comes. Under these conditions the reader gives the names and what follows them, whatever they are;
so no two names have the same text, and no two lists of labels.
-/

namespace GraphQuery.Name

open Lexer

variable {name after text : List Char}

/-! ## Quoted names -/

/-- A quoted name ends where it is followed by no other quote, and nowhere else. -/
theorem unquoteRest_eq_some_iff :
    unquoteRest text = some (name, after)
      ↔ text = doubled name ++ quote :: after ∧ Meets (· ≠ quote) after := by
  constructor
  · intro h
    fun_induction unquoteRest text generalizing name with
    | case1 => exact absurd h (by simp)
    | case2 =>
      obtain ⟨rfl, rfl⟩ := Prod.mk.inj (Option.some.inj h)
      exact ⟨rfl, Meets.nil _⟩
    | case3 rest ih =>
      -- two quotes together: one of the name
      obtain ⟨⟨name', after'⟩, hr, heq⟩ := Option.map_eq_some_iff.mp h
      obtain ⟨rfl, rfl⟩ := Prod.mk.inj heq
      obtain ⟨rfl, hafter⟩ := ih hr
      exact ⟨by rw [doubled_cons_quote]; rfl, hafter⟩
    | case4 d rest hd =>
      -- a quote alone: the last of the name
      obtain ⟨rfl, rfl⟩ := Prod.mk.inj (Option.some.inj h)
      exact ⟨rfl, Meets.cons hd _⟩
    | case5 c rest hc ih =>
      obtain ⟨⟨name', after'⟩, hr, heq⟩ := Option.map_eq_some_iff.mp h
      obtain ⟨rfl, rfl⟩ := Prod.mk.inj heq
      obtain ⟨rfl, hafter⟩ := ih hr
      exact ⟨by rw [doubled_cons_of_ne hc]; rfl, hafter⟩
  · rintro ⟨rfl, hafter⟩
    exact unquoteRest_doubled name hafter

/-- The quoted name and what may follow it are all that is read as this name. -/
theorem unquote?_eq_some_iff {name : String} :
    unquote? text = some (name.toList, after)
      ↔ text = (quoted name).toList ++ after ∧ Meets (· ≠ quote) after := by
  cases text with
  | nil => simp [unquote?, toList_quoted]
  | cons c rest =>
    rw [unquote?, toList_quoted]
    split
    · rename_i hc
      simp [unquoteRest_eq_some_iff, hc]
    · rename_i hc
      simp [hc]

theorem unquote?_quoted (name : String) (h : Meets (· ≠ quote) after) :
    unquote? ((quoted name).toList ++ after) = some (name.toList, after) :=
  unquote?_eq_some_iff.mpr ⟨rfl, h⟩

theorem unquote?_length (h : unquote? text = some (name, after)) : after.length < text.length := by
  cases text with
  | nil => exact absurd h (by simp [unquote?])
  | cons c rest =>
    rw [unquote?] at h
    split at h
    · exact Nat.lt_succ_of_le (unquoteRest_length h)
    · exact absurd h (by simp)

/-! ## Names that are quoted where they have to be -/

theorem read?_quoted (name : String) (h : Meets (· ≠ quote) after) :
    read? ((quoted name).toList ++ after) = some (name.toList, after) := by
  have hread := unquote?_quoted name h
  rw [toList_quoted, List.cons_append] at hread ⊢
  rw [read?, if_pos rfl, hread]

/-- A plain name goes on for as long as it can. -/
theorem read?_plain {name : String} (hname : isPlain name) (h : Meets (isPart · = false) after) :
    read? (name.toList ++ after) = some (name.toList, after) := by
  obtain ⟨c, rest, hlist, hc, -⟩ := isPlain_iff.mp hname
  have hpart : isPart c := isPart_of_isStart hc
  have hquote : c ≠ quote := by
    rintro rfl
    exact absurd hpart (by decide)
  have hall : ∀ d ∈ c :: rest, isPart d := fun d hd => isPart_of_mem_isPlain hname (hlist ▸ hd)
  rw [hlist, List.cons_append, read?, if_neg hquote, if_pos hpart, ← List.cons_append,
    takeWhile_isPart hall h, dropWhile_isPart hall h]

theorem read?_written (name : String) (h : Meets (fun c => c ≠ quote ∧ isPart c = false) after) :
    read? ((written name).toList ++ after) = some (name.toList, after) := by
  rw [written]
  split
  · exact read?_plain ‹_› (h.imp fun _ => And.right)
  · exact read?_quoted name (h.imp fun _ => And.left)

/-! ## Labels -/

/-- Reads quoted names for as long as a colon comes, and gives what is left. After a colon there has
to be a name. -/
def readLabels? (text : List Char) : Option (List String × List Char) :=
  match text with
  | [] => some ([], [])
  | c :: rest =>
    if c = ':' then
      match h : unquote? rest with
      | none => none
      | some (name, after) =>
        have := unquote?_length h
        (readLabels? after).map fun (names, left) => (String.ofList name :: names, left)
    else some ([], c :: rest)
termination_by text.length

theorem toList_labels_cons (name : String) (names : List String) :
    (labels (name :: names)).toList = ':' :: ((quoted name).toList ++ (labels names).toList) := by
  simp [labels]

/-- A colon comes after a label, or what follows all of them. -/
theorem meets_labels (names : List String) (h : Meets (· ≠ quote) after) :
    Meets (· ≠ quote) ((labels names).toList ++ after) := by
  cases names with
  | nil => exact h
  | cons name names =>
    rw [toList_labels_cons]
    exact Meets.cons (by decide) _

theorem readLabels?_labels (names : List String)
    (h : Meets (fun c => c ≠ ':' ∧ c ≠ quote) after) :
    readLabels? ((labels names).toList ++ after) = some (names, after) := by
  induction names with
  | nil =>
    show readLabels? after = some ([], after)
    cases after with
    | nil => rw [readLabels?]
    | cons c rest => rw [readLabels?, if_neg (h c rfl).1]
  | cons name names ih =>
    -- the colon of the next label, or what follows all of them, ends this name
    have hread := unquote?_quoted name (meets_labels names (h.imp fun _ => And.right))
    rw [toList_labels_cons, List.cons_append, List.append_assoc, readLabels?, if_pos rfl]
    split
    · exact absurd (hread.symm.trans ‹_›) (by simp)
    · obtain ⟨rfl, rfl⟩ := Prod.mk.inj (Option.some.inj (hread.symm.trans ‹_›))
      rw [ih, String.ofList_toList]
      rfl

/-! ## No two names have the same text -/

theorem quoted_injective : Function.Injective quoted := fun a b h => by
  have ha := unquote?_quoted a (Meets.nil _)
  rw [h, unquote?_quoted b (Meets.nil _)] at ha
  exact (String.toList_inj.mp (congrArg Prod.fst (Option.some.inj ha))).symm

theorem written_injective : Function.Injective written := fun a b h => by
  have ha := read?_written a (Meets.nil _)
  rw [h, read?_written b (Meets.nil _)] at ha
  exact (String.toList_inj.mp (congrArg Prod.fst (Option.some.inj ha))).symm

theorem labels_injective : Function.Injective labels := fun a b h => by
  have ha := readLabels?_labels a (Meets.nil _)
  rw [h, readLabels?_labels b (Meets.nil _)] at ha
  exact (congrArg Prod.fst (Option.some.inj ha)).symm

/-- **Names are read back, whatever they hold**, and what comes after them is left, as long as it
does not go on with them: one quoted name, one that is quoted where it has to be, and a list of
labels. So each of the three texts has one meaning. -/
theorem names_read_back :
    (∀ (name : String) after, Meets (· ≠ quote) after →
      unquote? ((quoted name).toList ++ after) = some (name.toList, after)) ∧
    (∀ (name : String) after, Meets (fun c => c ≠ quote ∧ isPart c = false) after →
      read? ((written name).toList ++ after) = some (name.toList, after)) ∧
    (∀ (names : List String) after, Meets (fun c => c ≠ ':' ∧ c ≠ quote) after →
      readLabels? ((labels names).toList ++ after) = some (names, after)) ∧
    Function.Injective quoted ∧ Function.Injective written ∧ Function.Injective labels :=
  ⟨fun name _ h => unquote?_quoted name h, fun name _ h => read?_written name h,
    fun names _ h => readLabels?_labels names h, quoted_injective, written_injective,
    labels_injective⟩

/-- Names of quotes only, an empty one, and one that looks like the beginning of another label. -/
theorem names_read_back_of_quotes :
    unquote? ((quoted "\x60\x60").toList ++ [')']) = some ("\x60\x60".toList, [')']) ∧
    read? ((written "a\x60").toList ++ [' ']) = some ("a\x60".toList, [' ']) ∧
    readLabels? ((labels ["", "\x60", ":\x60A"]).toList ++ ['-', '['])
      = some (["", "\x60", ":\x60A"], ['-', '[']) :=
  ⟨names_read_back.1 _ _ (Meets.cons (by decide) _),
    names_read_back.2.1 _ _ (Meets.cons (by decide) _),
    names_read_back.2.2.1 _ _ (Meets.cons (by decide) _)⟩

end GraphQuery.Name
