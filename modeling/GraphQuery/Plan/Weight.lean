import GraphQuery.Plan.Reader

/-!
# How much JSON a term was read from

A term keeps some JSON values unread. Its weight counts its own nodes and the nodes of the values
stored in it, literals and projection entries alike, and is never more than the number of nodes of
the content it was read from. So whoever reads a stored value finds a term that weighs less than the
one that stored it, however often that is repeated.
-/

namespace GraphQuery

/-! ## Steps that succeed -/

theorem bind_of_ok {ε α β : Type} {m : Except ε α} {f : α → Except ε β} {a : α} {b : β}
    (hm : m = .ok a) (hf : f a = .ok b) : m >>= f = .ok b := by
  rw [hm]
  exact hf

/-- A step that succeeds has a first half that does. -/
theorem bind_eq_ok {ε α β : Type} {m : Except ε α} {f : α → Except ε β} {b : β}
    (h : m >>= f = .ok b) : ∃ a, m = .ok a ∧ f a = .ok b := by
  cases m with
  | error why => cases h
  | ok a => exact ⟨a, rfl, h⟩

theorem map_eq_ok {ε α β : Type} {m : Except ε α} {f : α → β} {b : β} (h : m.map f = .ok b) :
    ∃ a, m = .ok a ∧ f a = b := by
  cases m with
  | error why => cases h
  | ok a => exact ⟨a, rfl, Except.ok.inj h⟩

theorem mapError_eq_ok {ε ε' α : Type} {m : Except ε α} {f : ε → ε'} {a : α}
    (h : m.mapError f = .ok a) : m = .ok a := by
  cases m with
  | error why => cases h
  | ok b => exact congrArg Except.ok (Except.ok.inj h)

/-! ## Weights of values -/

/-- The weights of some values together. -/
def totalOf {α : Type} (weight : α → Nat) : List α → Nat
  | [] => 0
  | a :: rest => weight a + totalOf weight rest

namespace Content

mutual

theorem nodes_ofJson (v : Json) : (ofJson v).nodes = v.nodes := by
  cases v with
  | arr items => simp [ofJson, nodes, Json.nodes, nodesOfItems_ofItems items]
  | obj members => simp [ofJson, nodes, Json.nodes, nodesOfEntries_ofMembers members]
  | _ => simp [ofJson, nodes, Json.nodes]

theorem nodesOfItems_ofItems (items : List Json) :
    nodesOfItems (ofItems items) = Json.nodesOfItems items := by
  cases items with
  | nil => rfl
  | cons item rest =>
    simp [ofItems, nodesOfItems, Json.nodesOfItems, nodes_ofJson item, nodesOfItems_ofItems rest]

theorem nodesOfEntries_ofMembers (members : List (String × Json)) :
    nodesOfEntries (ofMembers members) = Json.nodesOfMembers members := by
  cases members with
  | nil => rfl
  | cons member rest =>
    obtain ⟨key, value⟩ := member
    simp [ofMembers, nodesOfEntries, Json.nodesOfMembers, nodes_ofJson value,
      nodesOfEntries_ofMembers rest]

end

theorem nodes_pos (c : Content) : 0 < c.nodes := by
  cases c <;> simp only [nodes] <;> omega

end Content

theorem Json.nodes_pos (v : Json) : 0 < v.nodes := by
  cases v <;> simp only [Json.nodes] <;> omega

theorem Json.nodesOfMembers_insert (members : List (String × Json)) (key : String) (value : Json) :
    Json.nodesOfMembers (Json.insert members key value)
      ≤ Json.nodesOfMembers members + value.nodes := by
  induction members with
  | nil => simp [Json.insert, Json.nodesOfMembers]
  | cons member rest ih =>
    obtain ⟨k, v⟩ := member
    by_cases h : k = key <;> simp [Json.insert, h, Json.nodesOfMembers] <;> omega

namespace Content

mutual

/-- Reading content as JSON adds no nodes; repeated keys may take some away. -/
theorem nodes_readJson {c : Content} {v : Json} (h : c.readJson = .ok v) : v.nodes ≤ c.nodes := by
  cases c with
  | seq items =>
    obtain ⟨values, hvalues, rfl⟩ := map_eq_ok h
    have := nodesOfItems_readJsonItems hvalues
    simp only [Json.nodes, nodes]; omega
  | map entries =>
    obtain ⟨members, hmembers, rfl⟩ := map_eq_ok h
    have := nodesOfMembers_readJsonMembers hmembers
    simp only [Json.nodes, nodes, Json.nodesOfMembers] at this ⊢; omega
  | float x =>
    simp only [readJson, Except.ok.injEq] at h
    subst h; split <;> simp [Json.nodes, nodes]
  | _ =>
    simp only [readJson, Except.ok.injEq] at h
    subst h; simp [Json.nodes, nodes]

theorem nodesOfItems_readJsonItems {items : List Content} {values : List Json}
    (h : readJsonItems items = .ok values) :
    Json.nodesOfItems values ≤ nodesOfItems items := by
  cases items with
  | nil =>
    simp only [readJsonItems, Except.ok.injEq] at h
    subst h; simp [Json.nodesOfItems]
  | cons item rest =>
    rw [readJsonItems] at h
    obtain ⟨first, hfirst, h⟩ := bind_eq_ok h
    obtain ⟨others, hothers, h⟩ := bind_eq_ok h
    obtain rfl := Except.ok.inj h
    have h₁ := nodes_readJson hfirst
    have h₂ := nodesOfItems_readJsonItems hothers
    simp only [Json.nodesOfItems, nodesOfItems]; omega

theorem nodesOfMembers_readJsonMembers {members : List (String × Json)}
    {entries : List (Content × Content)} {values : List (String × Json)}
    (h : readJsonMembers members entries = .ok values) :
    Json.nodesOfMembers values ≤ Json.nodesOfMembers members + nodesOfEntries entries := by
  cases entries with
  | nil =>
    simp only [readJsonMembers, Except.ok.injEq] at h
    subst h; omega
  | cons entry rest =>
    obtain ⟨key, value⟩ := entry
    rw [readJsonMembers] at h
    obtain ⟨k, -, h⟩ := bind_eq_ok h
    obtain ⟨v, hv, h⟩ := bind_eq_ok h
    have h₁ := nodes_readJson hv
    have h₂ := nodesOfMembers_readJsonMembers h
    have h₃ := Json.nodesOfMembers_insert members k v
    simp only [nodesOfEntries]; omega

end

end Content

/-! ## Weights of records -/

/-- `form.Weighs w n`: no field weighs more by `w` than the content it is read from, and what has
been filled in so far weighs at most `n`. -/
inductive Form.Weighs : {ρ : Type} → Form Content ρ → (ρ → Nat) → Nat → Prop
  | nil : Form.Weighs .nil (fun _ => 0) 0
  | cons {α ρ : Type} {field : Field Content α} {slot : Option α} {rest : Form Content ρ}
      {w : α → Nat} {ws : ρ → Nat} {k n : Nat}
      (read_le : ∀ c a, field.read c = .ok a → w a ≤ c.nodes)
      (absent_le : ∀ a, field.absent = some a → w a = 0)
      (slot_le : ∀ a, slot = some a → w a ≤ k)
      (others : Form.Weighs rest ws n) :
      Form.Weighs (.cons field slot rest) (fun r => w r.1 + ws r.2) (k + n)

namespace Form.Weighs

theorem fill {ρ : Type} {form : Form Content ρ} {ws : ρ → Nat} {n : Nat} (h : form.Weighs ws n)
    {name : String} {c : Content} {form' : Form Content ρ} (hf : form.fill name c = .ok form') :
    form'.Weighs ws (n + c.nodes) ∨ form' = form := by
  induction h with
  | nil =>
    simp only [Form.fill, Except.ok.injEq] at hf
    exact .inr hf.symm
  | @cons α ρ field slot rest w ws k n read_le absent_le slot_le others ih =>
    simp only [Form.fill] at hf
    split at hf
    · -- the field itself: filled before, unreadable, or filled now
      split at hf
      · simp at hf
      · split at hf
        · rename_i a ha
          simp only [Except.ok.injEq] at hf
          subst hf
          have : k + n + c.nodes = (k + c.nodes) + n := by omega
          rw [this]
          refine .inl (.cons read_le absent_le (fun b hb => ?_) others)
          have := read_le c a ha
          simp only [Option.some.injEq] at hb
          subst hb; omega
        · simp at hf
    · -- one of the fields after it
      split at hf
      · rename_i rest' hr
        simp only [Except.ok.injEq] at hf
        subst hf
        rcases ih hr with h | rfl
        · rw [Nat.add_assoc]; exact .inl (.cons read_le absent_le slot_le h)
        · exact .inr rfl
      · simp at hf

theorem mono {ρ : Type} {form : Form Content ρ} {ws : ρ → Nat} {n m : Nat} (h : form.Weighs ws n)
    {r : ρ} (hr : form.close = .ok r) (hnm : n ≤ m) : ws r ≤ m := by
  induction h generalizing m with
  | nil => omega
  | @cons α ρ field slot rest w ws k n read_le absent_le slot_le others ih =>
    simp only [Form.close] at hr
    split at hr
    · simp at hr
    · rename_i first hfirst
      obtain ⟨values, hvalues, rfl⟩ := map_eq_ok hr
      have h₁ : ws values ≤ n := ih hvalues (Nat.le_refl _)
      have h₂ : w first ≤ k := by
        cases slot with
        | some a => exact slot_le first hfirst
        | none => rw [absent_le first hfirst]; omega
      show w first + ws values ≤ m
      omega

theorem readList {ρ : Type} {form : Form Content ρ} {ws : ρ → Nat} {n : Nat}
    (h : form.Weighs ws n) {atEnd : Read Unit} {owner : String} {position : Nat}
    {items left : List Content} {r : ρ}
    (hr : form.readList atEnd owner position items = .ok (r, left)) :
    ws r ≤ Content.nodesOfItems items := by
  induction h generalizing position items left with
  | nil => exact Nat.zero_le _
  | @cons α ρ field slot rest w ws k n read_le absent_le slot_le others ih =>
    cases items with
    -- no item is left, so the field has to have a default
    | nil =>
      rw [Form.readList] at hr
      obtain ⟨-, -, hr⟩ := bind_eq_ok hr
      split at hr
      · cases hr
      · rename_i first hfirst
        obtain ⟨⟨values, left'⟩, hvalues, hr⟩ := bind_eq_ok hr
        obtain ⟨rfl, rfl⟩ := Prod.mk.inj (Except.ok.inj hr)
        have h₁ := ih hvalues
        have h₂ := absent_le first hfirst
        show w first + ws values ≤ _
        omega
    -- the next item is the value of the field
    | cons item items =>
      rw [Form.readList] at hr
      obtain ⟨first, hfirst, hr⟩ := bind_eq_ok hr
      obtain ⟨⟨values, left'⟩, hvalues, hr⟩ := bind_eq_ok hr
      obtain ⟨rfl, rfl⟩ := Prod.mk.inj (Except.ok.inj hr)
      have h₁ := ih hvalues
      have h₂ := read_le item first hfirst
      show w first + ws values ≤ _
      simp only [Content.nodesOfItems]; omega

/-- A field whose value has no weight. -/
theorem free {α ρ : Type} {name : String} {read : Content → Read α}
    {absent : Option α} {rest : Form Content ρ} {ws : ρ → Nat} (h : rest.Weighs ws 0) :
    (Form.cons ⟨name, read, absent⟩ none rest).Weighs (fun r => 0 + ws r.2) (0 + 0) :=
  .cons (w := fun _ => 0) (fun _ _ _ => Nat.zero_le _) (fun _ _ => rfl) (fun _ _ => Nat.zero_le _) h

/-- A field that has to be there and whose value weighs something. -/
theorem required {α ρ : Type} {name : String} {read : Content → Read α} {w : α → Nat}
    (hw : ∀ c a, read c = .ok a → w a ≤ c.nodes) {rest : Form Content ρ} {ws : ρ → Nat}
    (h : rest.Weighs ws 0) :
    (Form.required name read rest).Weighs (fun r => w r.1 + ws r.2) (0 + 0) :=
  .cons hw (fun _ h => by simp at h) (fun _ h => by simp at h) h

/-- A field that may be absent and then weighs nothing. -/
theorem withDefault {α ρ : Type} {name : String} {read : Content → Read α} {w : α → Nat}
    {absent : α} (hw : ∀ c a, read c = .ok a → w a ≤ c.nodes) (h₀ : w absent = 0)
    {rest : Form Content ρ} {ws : ρ → Nat} (h : rest.Weighs ws 0) :
    (Form.withDefault name read absent rest).Weighs (fun r => w r.1 + ws r.2) (0 + 0) :=
  .cons hw (fun a ha => by simp only [Option.some.injEq] at ha; subst ha; exact h₀)
    (fun _ h => by simp at h) h

end Form.Weighs

namespace Content

theorem weight_fillEntries {ρ : Type} {form form' : Form Content ρ} {ws : ρ → Nat} {n : Nat}
    (h : form.Weighs ws n) {entries : List (Content × Content)}
    (hf : fillEntries form entries = .ok form') :
    ∃ m, form'.Weighs ws m ∧ m ≤ n + nodesOfEntries entries := by
  induction entries generalizing form n with
  | nil =>
    simp only [fillEntries, Except.ok.injEq] at hf
    subst hf; exact ⟨n, h, by simp [nodesOfEntries]⟩
  | cons entry rest ih =>
    obtain ⟨key, value⟩ := entry
    simp only [fillEntries] at hf
    split at hf
    · simp at hf
    · -- a key that names no field adds its value to the bound and nothing to the form
      obtain ⟨m, hm, hle⟩ := ih h hf
      exact ⟨m, hm, by simp only [nodesOfEntries]; omega⟩
    · rename_i name _
      split at hf
      · simp at hf
      · rename_i form₁ hfill
        rcases h.fill hfill with h₁ | rfl
        · obtain ⟨m, hm, hle⟩ := ih h₁ hf
          exact ⟨m, hm, by simp only [nodesOfEntries]; omega⟩
        · obtain ⟨m, hm, hle⟩ := ih h hf
          exact ⟨m, hm, by simp only [nodesOfEntries]; omega⟩

theorem weight_readFields {ρ : Type} {form : Form Content ρ} {ws : ρ → Nat} (h : form.Weighs ws 0)
    {allowed : RecordForm} {owner : String} {c : Content} {r : ρ}
    (hr : readFields allowed owner form (some c) = .ok r) : ws r < c.nodes := by
  cases c with
  -- entries are filled in one after the other
  | map entries =>
    simp only [readFields, readEntries] at hr
    split at hr
    · simp at hr
    · rename_i form' hf
      obtain ⟨m, hm, hle⟩ := weight_fillEntries h hf
      have := hm.mono hr (Nat.le_refl _)
      simp only [nodes]; omega
  -- items are values by position, where that is allowed
  | seq items =>
    cases allowed with
    | named => simp [readFields, Read.wrongType] at hr
    | namedOrListed =>
      simp only [readFields, readPositions] at hr
      split at hr
      · simp at hr
      · rename_i values hl
        simp only [Except.ok.injEq] at hr
        subst hr
        have := h.readList hl
        simp only [nodes]; omega
      · simp at hr
  | _ => simp [readFields, Read.wrongType] at hr

theorem nodesOfMembers_readMembers {c : Content} {members : List (String × Json)}
    (h : c.readMembers = .ok members) : Json.nodesOfMembers members ≤ c.nodes := by
  cases c with
  | map entries =>
    have := @nodesOfMembers_readJsonMembers [] entries members h
    simp only [Json.nodesOfMembers, nodes] at this ⊢; omega
  | _ => simp [readMembers, Read.wrongType] at h

/-- What belongs to an alternative is smaller than the alternative. -/
theorem nodes_readChoice {α : Type} {known : List (String × α)} {c : Content} {a : α}
    {value : Content} (h : c.readChoice known = .ok (a, some value)) : value.nodes < c.nodes := by
  unfold readChoice at h
  split at h
  · obtain ⟨b, -, h⟩ := bind_eq_ok h
    simp only [pure, Except.pure, Except.ok.injEq, Prod.mk.injEq, Option.some.injEq] at h
    obtain ⟨-, rfl⟩ := h
    simp only [nodes, nodesOfEntries]; omega
  · cases h
  · obtain ⟨b, -, h⟩ := bind_eq_ok h
    cases h
  · cases h

theorem weight_readItems {α : Type} {read : Content → Read α} {w : α → Nat}
    (hw : ∀ c a, read c = .ok a → w a ≤ c.nodes) {items : List Content} {values : List α}
    (h : readItems read items = .ok values) : totalOf w values ≤ nodesOfItems items := by
  induction items generalizing values with
  | nil =>
    simp only [readItems, Except.ok.injEq] at h
    subst h
    exact Nat.le_refl 0
  | cons item rest ih =>
    rw [readItems] at h
    obtain ⟨first, hfirst, h⟩ := bind_eq_ok h
    obtain ⟨others, hothers, h⟩ := bind_eq_ok h
    obtain rfl := Except.ok.inj h
    have h₁ := hw item first hfirst
    have h₂ := ih hothers
    simp only [totalOf, nodesOfItems]; omega

theorem weight_readList {α : Type} {read : Content → Read α} {w : α → Nat}
    (hw : ∀ c a, read c = .ok a → w a ≤ c.nodes) {c : Content} {values : List α}
    (h : c.readList read = .ok values) : totalOf w values < c.nodes := by
  cases c with
  | seq items =>
    have := weight_readItems hw (show readItems read items = .ok values from h)
    simp only [nodes]; omega
  | _ => simp [readList, Read.wrongType] at h

end Content

/-! ## Weights of terms -/

namespace Plan

mutual

/-- The nodes of a term, those of its stored values included. -/
def Term.weight : Term → Nat
  | .param _ | .ref _ | .property _ _ => 1
  | .literal value => 1 + value.nodes
  | .list items => 1 + Term.weights items
  | .projection _ _ entries => 1 + Json.nodesOfMembers entries
  | .coalesce _ _ fallback => 1 + fallback.weight
  | .distance source _ => 1 + source.weight
  | .call _ argument => 1 + argument.weight

/-- The terms of a list, one beside the other. -/
def Term.weights : List Term → Nat
  | [] => 0
  | item :: rest => item.weight + Term.weights rest

end

theorem Term.weight_pos (t : Term) : 0 < t.weight := by
  cases t <;> simp only [Term.weight] <;> omega

theorem Term.weights_eq_total (items : List Term) :
    Term.weights items = totalOf Term.weight items := by
  induction items with
  | nil => rfl
  | cons item rest ih => simp only [Term.weights, totalOf, ih]

theorem readOnly_eq_ok {α : Type} {read : Content → Read α} {value : Option Content} {a : α}
    (h : Content.readOnly read value = .ok a) : ∃ c, value = some c ∧ read c = .ok a := by
  cases value with
  | none => simp [Content.readOnly, Read.wrongType] at h
  | some c => exact ⟨c, rfl, h⟩

theorem readFields_isSome {ρ : Type} {allowed : Content.RecordForm} {owner : String}
    {form : Form Content ρ} {value : Option Content} {r : ρ}
    (h : Content.readFields allowed owner form value = .ok r) : ∃ c, value = some c := by
  cases value with
  | none => simp [Content.readFields, Read.wrongType] at h
  | some c => exact ⟨c, rfl⟩

/-- A term weighs at most as much as the content it is read from. -/
theorem Term.weight_read {allowed : Content.RecordForm} {fuel : Nat} {c : Content} {t : Term}
    (h : Term.read allowed fuel c = .ok t) : t.weight ≤ c.nodes := by
  induction fuel generalizing c t with
  | zero => cases h
  | succ fuel ih =>
    rw [Term.read] at h
    obtain ⟨⟨kind, value⟩, hc, h⟩ := bind_eq_ok h
    -- the alternative takes up one node, and what it holds has the others
    have hpos := c.nodes_pos
    cases kind with
    | literal =>
      obtain ⟨value, hvalue, h⟩ := bind_eq_ok h
      obtain rfl := Except.ok.inj h
      obtain ⟨v, rfl, hv⟩ := readOnly_eq_ok hvalue
      have h₁ := Content.nodes_readJson hv
      have h₂ := Content.nodes_readChoice hc
      simp only [Term.weight]; omega
    | list =>
      obtain ⟨items, hitems, h⟩ := bind_eq_ok h
      obtain rfl := Except.ok.inj h
      obtain ⟨v, rfl, hv⟩ := readOnly_eq_ok hitems
      have h₁ := Content.weight_readList (w := Term.weight) (fun c a ha => ih ha) hv
      have h₂ := Content.nodes_readChoice hc
      simp only [Term.weight, Term.weights_eq_total]; omega
    | projection =>
      obtain ⟨⟨target, fields, entries, ⟨⟩⟩, hr, h⟩ := bind_eq_ok h
      obtain rfl := Except.ok.inj h
      obtain ⟨v, rfl⟩ := readFields_isSome hr
      have h₁ := Content.weight_readFields (Form.Weighs.free (.free (.withDefault
        (w := Json.nodesOfMembers) (fun c a ha => Content.nodesOfMembers_readMembers ha)
        rfl .nil))) hr
      have h₂ := Content.nodes_readChoice hc
      simp only [Term.weight] at h₁ ⊢; omega
    | coalesce =>
      obtain ⟨⟨target, key, fallback, ⟨⟩⟩, hr, h⟩ := bind_eq_ok h
      obtain rfl := Except.ok.inj h
      obtain ⟨v, rfl⟩ := readFields_isSome hr
      have h₁ := Content.weight_readFields
        (Form.Weighs.free (.free (.required (w := Term.weight) (fun c a ha => ih ha) .nil))) hr
      have h₂ := Content.nodes_readChoice hc
      simp only [Term.weight] at h₁ ⊢; omega
    | distance =>
      obtain ⟨⟨source, point, ⟨⟩⟩, hr, h⟩ := bind_eq_ok h
      obtain rfl := Except.ok.inj h
      obtain ⟨v, rfl⟩ := readFields_isSome hr
      have h₁ := Content.weight_readFields
        (Form.Weighs.required (w := Term.weight) (fun c a ha => ih ha) (.free .nil)) hr
      have h₂ := Content.nodes_readChoice hc
      simp only [Term.weight] at h₁ ⊢; omega
    | call =>
      obtain ⟨⟨function, argument, ⟨⟩⟩, hr, h⟩ := bind_eq_ok h
      obtain rfl := Except.ok.inj h
      obtain ⟨v, rfl⟩ := readFields_isSome hr
      have h₁ := Content.weight_readFields
        (Form.Weighs.free (.required (w := Term.weight) (fun c a ha => ih ha) .nil)) hr
      have h₂ := Content.nodes_readChoice hc
      simp only [Term.weight] at h₁ ⊢; omega
    | param | ref | property =>
      obtain ⟨r, -, h⟩ := bind_eq_ok h
      obtain rfl := Except.ok.inj h
      simp only [Term.weight]; omega

/-- A term read out of a stored value weighs at most as much as that value. -/
theorem Term.weight_ofJson {v : Json} {t : Term} (h : Term.ofJson v = .ok t) :
    t.weight ≤ v.nodes := by
  rw [← Content.nodes_ofJson v]
  exact Term.weight_read h

end Plan

end GraphQuery
