import GraphQuery.Plan.Source

/-!
# Proper values and the readers that make them

A JSON value that a program holds is always proper: its numbers are finite, since the readers write
any other number as null, and no object has two members of one key, since adding a member replaces
the one that has its key. The type of values is wider than that, so it has to be said which of its
values are meant, and shown that no reader makes any other.

The same is shown for records, of whatever values, and whichever notation they come in. Their fields
may be written by name, in any order, by position, or left out; what can be said of a record is what
can be said of its fields one by one.
-/

namespace GraphQuery

/-! ## Proper values -/

mutual

/-- All numbers in the value are finite, and the keys of each object differ. -/
def Json.Proper : Json → Prop
  | .null | .bool _ | .int _ | .str _ => True
  | .float x => x.isFinite = true
  | .arr items => Json.ProperItems items
  | .obj members => (members.map Prod.fst).Nodup ∧ Json.ProperMembers members

/-- Each item of an array has to be proper. -/
def Json.ProperItems : List Json → Prop
  | [] => True
  | item :: rest => item.Proper ∧ Json.ProperItems rest

/-- Each value of an object has to be proper. That its keys differ is asked of the object as a
whole. -/
def Json.ProperMembers : List (String × Json) → Prop
  | [] => True
  | (_, value) :: rest => value.Proper ∧ Json.ProperMembers rest

end

namespace Plan.Table

variable {α : Type} {P : α → Prop} {entries : List (String × α)} {name : String} {a : α}

theorem put_of_fresh (h : name ∉ entries.map Prod.fst) :
    put entries name a = entries ++ [(name, a)] := by
  induction entries with
  | nil => rfl
  | cons entry rest ih =>
    obtain ⟨n, b⟩ := entry
    obtain ⟨hn, hrest⟩ := not_or.mp fun h' => h (List.mem_cons.mpr h')
    rw [put, if_neg fun heq => hn heq.symm, ih hrest]
    rfl

/-- Where no name is repeated, a name is not among those before it. -/
theorem fresh_of_nodup {before rest : List (String × α)} {entry : String × α}
    (h : ((before ++ entry :: rest).map Prod.fst).Nodup) : entry.1 ∉ before.map Prod.fst := by
  rw [List.map_append, List.map_cons, List.nodup_append] at h
  intro hin
  exact h.2.2 entry.1 hin entry.1 List.mem_cons_self rfl

theorem forall_put (h : ∀ entry ∈ entries, P entry.2) (ha : P a) :
    ∀ entry ∈ put entries name a, P entry.2 := by
  induction entries with
  | nil => exact List.forall_mem_singleton.mpr ha
  | cons entry rest ih =>
    obtain ⟨hentry, hrest⟩ := List.forall_mem_cons.mp h
    rw [put]
    split
    · exact List.forall_mem_cons.mpr ⟨ha, hrest⟩
    · exact List.forall_mem_cons.mpr ⟨hentry, ih hrest⟩

end Plan.Table

namespace Json

theorem proper_empty : (Json.obj []).Proper :=
  ⟨List.nodup_nil, trivial⟩

theorem properMembers_iff {members : List (String × Json)} :
    ProperMembers members ↔ ∀ member ∈ members, member.2.Proper := by
  induction members with
  | nil => exact iff_of_true trivial (List.forall_mem_nil _)
  | cons member rest ih => rw [ProperMembers, ih, List.forall_mem_cons]

/-- Members are kept as the entries of a table are. -/
theorem insert_eq_put (members : List (String × Json)) (key : String) (value : Json) :
    insert members key value = Plan.Table.put members key value := by
  induction members with
  | nil => rfl
  | cons member rest ih => rw [insert, Plan.Table.put, ih]

/-- A member that is added takes the place of one with its key. -/
theorem proper_insert {members : List (String × Json)} {key : String} {value : Json}
    (hmembers : (Json.obj members).Proper) (hvalue : value.Proper) :
    (Json.obj (insert members key value)).Proper := by
  obtain ⟨hkeys, hproper⟩ := hmembers
  rw [insert_eq_put]
  refine ⟨Plan.Table.nodup_put key value hkeys, ?_⟩
  rw [properMembers_iff] at hproper ⊢
  exact Plan.Table.forall_put hproper hvalue

end Json

/-! ## Reading makes proper values -/

namespace Content

mutual

theorem proper_readJson {c : Content} {v : Json} (h : c.readJson = .ok v) : v.Proper := by
  cases c with
  | float x =>
    obtain rfl := Except.ok.inj h
    split
    · assumption
    · trivial
  | seq items =>
    obtain ⟨values, hvalues, rfl⟩ := map_eq_ok h
    exact proper_readJsonItems hvalues
  | map entries =>
    obtain ⟨members, hmembers, rfl⟩ := map_eq_ok h
    exact proper_readJsonMembers Json.proper_empty hmembers
  | _ =>
    obtain rfl := Except.ok.inj h
    trivial

theorem proper_readJsonItems {items : List Content} {values : List Json}
    (h : readJsonItems items = .ok values) : Json.ProperItems values := by
  cases items with
  | nil =>
    obtain rfl := Except.ok.inj h
    trivial
  | cons item rest =>
    rw [readJsonItems] at h
    obtain ⟨first, hfirst, h⟩ := bind_eq_ok h
    obtain ⟨others, hothers, h⟩ := bind_eq_ok h
    obtain rfl := Except.ok.inj h
    exact ⟨proper_readJson hfirst, proper_readJsonItems hothers⟩

theorem proper_readJsonMembers {members values : List (String × Json)}
    {entries : List (Content × Content)} (hmembers : (Json.obj members).Proper)
    (h : readJsonMembers members entries = .ok values) : (Json.obj values).Proper := by
  cases entries with
  | nil =>
    obtain rfl := Except.ok.inj h
    exact hmembers
  | cons entry rest =>
    obtain ⟨key, value⟩ := entry
    rw [readJsonMembers] at h
    obtain ⟨k, -, h⟩ := bind_eq_ok h
    obtain ⟨v, hv, h⟩ := bind_eq_ok h
    exact proper_readJsonMembers (Json.proper_insert hmembers (proper_readJson hv)) h

end

theorem proper_readMembers {c : Content} {members : List (String × Json)}
    (h : c.readMembers = .ok members) : (Json.obj members).Proper := by
  cases c with
  | map entries => exact proper_readJsonMembers Json.proper_empty h
  | _ => cases h

end Content

namespace Yaml.Node

mutual

theorem proper_readJson {n : Node} {v : Json} (h : n.readJson = .ok v) : v.Proper := by
  cases n with
  | scalar text plain =>
    rw [readJson] at h
    obtain ⟨c, -, h⟩ := bind_eq_ok h
    exact Content.proper_readJson h
  | seq items =>
    obtain ⟨values, hvalues, rfl⟩ := map_eq_ok h
    exact proper_readJsonItems hvalues
  | map entries =>
    obtain ⟨members, hmembers, rfl⟩ := map_eq_ok h
    exact proper_readJsonEntries Json.proper_empty hmembers

theorem proper_readJsonItems {items : List Node} {values : List Json}
    (h : readJsonItems items = .ok values) : Json.ProperItems values := by
  cases items with
  | nil =>
    obtain rfl := Except.ok.inj h
    trivial
  | cons item rest =>
    rw [readJsonItems] at h
    obtain ⟨first, hfirst, h⟩ := bind_eq_ok h
    obtain ⟨others, hothers, h⟩ := bind_eq_ok h
    obtain rfl := Except.ok.inj h
    exact ⟨proper_readJson hfirst, proper_readJsonItems hothers⟩

theorem proper_readJsonEntries {members values : List (String × Json)}
    {entries : List (Node × Node)} (hmembers : (Json.obj members).Proper)
    (h : readJsonEntries members entries = .ok values) : (Json.obj values).Proper := by
  cases entries with
  | nil =>
    obtain rfl := Except.ok.inj h
    exact hmembers
  | cons entry rest =>
    obtain ⟨key, value⟩ := entry
    rw [readJsonEntries] at h
    obtain ⟨k, -, h⟩ := bind_eq_ok h
    obtain ⟨v, hv, h⟩ := bind_eq_ok h
    exact proper_readJsonEntries (Json.proper_insert hmembers (proper_readJson hv)) h

end

end Yaml.Node

/-! ## Sound records

A record is read in many ways, but each of them puts together what the fields read and what stands
for fields that are absent. So whatever holds of these holds of the record.
-/

/-- `form.Sound P`: what the fields read, what stands for them when they are absent and what has
been filled in together satisfy `P`. -/
inductive Form.Sound {V : Type} : {ρ : Type} → Form V ρ → (ρ → Prop) → Prop
  | nil : Form.Sound .nil fun _ => True
  | cons {α ρ : Type} {field : Field V α} {slot : Option α} {rest : Form V ρ} {P : α → Prop}
      {Q : ρ → Prop} (read : ∀ v a, field.read v = .ok a → P a)
      (absent : ∀ a, field.absent = some a → P a) (filled : ∀ a, slot = some a → P a)
      (others : Form.Sound rest Q) : Form.Sound (.cons field slot rest) fun r => P r.1 ∧ Q r.2

namespace Form.Sound

variable {V : Type}

theorem fill {ρ : Type} {form form' : Form V ρ} {P : ρ → Prop} (h : form.Sound P) {name : String}
    {v : V} (hf : form.fill name v = .ok form') : form'.Sound P := by
  induction h with
  | nil =>
    obtain rfl := Except.ok.inj hf
    exact .nil
  | cons read absent filled others ih =>
    simp only [Form.fill] at hf
    split at hf
    · -- the field itself, which must not have been filled before
      split at hf
      · cases hf
      · split at hf
        · rename_i a ha
          obtain rfl := Except.ok.inj hf
          refine .cons read absent (fun b hb => ?_) others
          obtain rfl := Option.some.inj hb
          exact read v a ha
        · cases hf
    · -- one of the fields after it
      split at hf
      · rename_i rest' hrest
        obtain rfl := Except.ok.inj hf
        exact .cons read absent filled (ih hrest)
      · cases hf

theorem close {ρ : Type} {form : Form V ρ} {P : ρ → Prop} (h : form.Sound P) {r : ρ}
    (hr : form.close = .ok r) : P r := by
  induction h with
  | nil => trivial
  | @cons α ρ field slot rest P Q read absent filled others ih =>
    rw [Form.close] at hr
    split at hr
    · cases hr
    · rename_i first hfirst
      obtain ⟨values, hvalues, rfl⟩ := map_eq_ok hr
      refine ⟨?_, ih hvalues⟩
      cases slot with
      | some a => exact filled first hfirst
      | none => exact absent first hfirst

theorem readList {ρ : Type} {form : Form V ρ} {P : ρ → Prop} (h : form.Sound P)
    {atEnd : Read Unit} {owner : String} {position : Nat} {items left : List V} {r : ρ}
    (hr : form.readList atEnd owner position items = .ok (r, left)) : P r := by
  induction h generalizing position items left with
  | nil => trivial
  | cons read absent filled others ih =>
    cases items with
    | nil =>
      rw [Form.readList] at hr
      obtain ⟨-, -, hr⟩ := bind_eq_ok hr
      split at hr
      · cases hr
      · rename_i first hfirst
        obtain ⟨⟨values, left'⟩, hvalues, hr⟩ := bind_eq_ok hr
        obtain ⟨rfl, rfl⟩ := Prod.mk.inj (Except.ok.inj hr)
        exact ⟨absent first hfirst, ih hvalues⟩
    | cons item items =>
      rw [Form.readList] at hr
      obtain ⟨first, hfirst, hr⟩ := bind_eq_ok hr
      obtain ⟨⟨values, left'⟩, hvalues, hr⟩ := bind_eq_ok hr
      obtain ⟨rfl, rfl⟩ := Prod.mk.inj (Except.ok.inj hr)
      exact ⟨read item first hfirst, ih hvalues⟩

variable {α ρ : Type} {name : String} {read : V → Read α} {rest : Form V ρ} {P : α → Prop}
  {Q : ρ → Prop}

/-- A field of which nothing is asked. -/
theorem free {absent : Option α} (h : rest.Sound Q) :
    (Form.cons ⟨name, read, absent⟩ none rest).Sound fun r => True ∧ Q r.2 :=
  .cons (fun _ _ _ => trivial) (fun _ _ => trivial) (fun _ _ => trivial) h

theorem required (hread : ∀ v a, read v = .ok a → P a) (h : rest.Sound Q) :
    (Form.required name read rest).Sound fun r => P r.1 ∧ Q r.2 :=
  .cons hread (fun _ ha => nomatch ha) (fun _ ha => nomatch ha) h

theorem withDefault {absent : α} (hread : ∀ v a, read v = .ok a → P a) (habsent : P absent)
    (h : rest.Sound Q) : (Form.withDefault name read absent rest).Sound fun r => P r.1 ∧ Q r.2 :=
  .cons hread (fun _ ha => Option.some.inj ha ▸ habsent) (fun _ ha => nomatch ha) h

end Form.Sound

section Readers

variable {α ρ : Type} {P : ρ → Prop} {Q : α → Prop}

theorem sound_mapM {β : Type} {read : β → Read α} (h : ∀ b a, read b = .ok a → Q a)
    {items : List β} {values : List α} (hr : items.mapM read = .ok values) : ∀ a ∈ values, Q a := by
  induction items generalizing values with
  | nil =>
    obtain rfl := Except.ok.inj hr
    exact fun a ha => nomatch ha
  | cons item rest ih =>
    rw [List.mapM_cons] at hr
    obtain ⟨first, hfirst, hr⟩ := bind_eq_ok hr
    obtain ⟨others, hothers, hr⟩ := bind_eq_ok hr
    obtain rfl := Except.ok.inj hr
    exact List.forall_mem_cons.mpr ⟨h item first hfirst, ih hothers⟩

namespace Content

theorem sound_fillEntries {form form' : Form Content ρ} (h : form.Sound P)
    {entries : List (Content × Content)} (hr : fillEntries form entries = .ok form') :
    form'.Sound P := by
  induction entries generalizing form with
  | nil =>
    obtain rfl := Except.ok.inj hr
    exact h
  | cons entry rest ih =>
    obtain ⟨key, value⟩ := entry
    rw [fillEntries] at hr
    split at hr
    · cases hr
    · exact ih h hr
    · split at hr
      · cases hr
      · rename_i form₁ hform₁
        exact ih (h.fill hform₁) hr

theorem sound_readEntries {form : Form Content ρ} (h : form.Sound P)
    {entries : List (Content × Content)} {r : ρ} (hr : readEntries form entries = .ok r) : P r := by
  rw [readEntries] at hr
  split at hr
  · cases hr
  · rename_i form' hfill
    exact (sound_fillEntries h hfill).close hr

theorem sound_readPositions {form : Form Content ρ} (h : form.Sound P) {owner : String}
    {items : List Content} {r : ρ} (hr : readPositions owner form items = .ok r) : P r := by
  rw [readPositions] at hr
  split at hr
  · cases hr
  · rename_i values hvalues
    obtain rfl := Except.ok.inj hr
    exact h.readList hvalues
  · cases hr

theorem sound_readRecord {form : Form Content ρ} (h : form.Sound P) {name : String} {c : Content}
    {r : ρ} (hr : readRecord name form c = .ok r) : P r := by
  cases c with
  | map entries => exact sound_readEntries h hr
  | seq items => exact sound_readPositions h hr
  | _ => cases hr

theorem sound_readFields {form : Form Content ρ} (h : form.Sound P) {allowed : RecordForm}
    {owner : String} {value : Option Content} {r : ρ}
    (hr : readFields allowed owner form value = .ok r) : P r := by
  unfold readFields at hr
  split at hr
  · exact sound_readEntries h hr
  · split at hr
    · exact sound_readPositions h hr
    · cases hr
  · cases hr
  · cases hr

theorem sound_readItems {read : Content → Read α} (h : ∀ c a, read c = .ok a → Q a)
    {items : List Content} {values : List α} (hr : readItems read items = .ok values) :
    ∀ a ∈ values, Q a := by
  induction items generalizing values with
  | nil =>
    obtain rfl := Except.ok.inj hr
    exact fun a ha => nomatch ha
  | cons item rest ih =>
    rw [readItems] at hr
    obtain ⟨first, hfirst, hr⟩ := bind_eq_ok hr
    obtain ⟨others, hothers, hr⟩ := bind_eq_ok hr
    obtain rfl := Except.ok.inj hr
    exact List.forall_mem_cons.mpr ⟨h item first hfirst, ih hothers⟩

theorem sound_readList {read : Content → Read α} (h : ∀ c a, read c = .ok a → Q a) (c : Content)
    (values : List α) (hr : readList read c = .ok values) : ∀ a ∈ values, Q a := by
  cases c with
  | seq items => exact sound_readItems h hr
  | _ => cases hr

theorem sound_readOption {read : Content → Read α} (h : ∀ c a, read c = .ok a → Q a) (c : Content)
    (value : Option α) (hr : readOption read c = .ok value) : ∀ a ∈ value, Q a := by
  intro a ha
  unfold readOption at hr
  split at hr
  · obtain rfl := Except.ok.inj hr
    cases ha
  · obtain ⟨b, hb, rfl⟩ := map_eq_ok hr
    obtain rfl := Option.some.inj ha
    exact h _ _ hb

theorem sound_readOnly {read : Content → Read α} (h : ∀ c a, read c = .ok a → Q a)
    {value : Option Content} {a : α} (hr : readOnly read value = .ok a) : Q a := by
  cases value with
  | some c => exact h c a hr
  | none => cases hr

end Content

namespace Json.Draft

theorem refuse_ne_ok (d : Draft) (wanted : String) (a : α) : d.refuse wanted ≠ .ok a := by
  intro h
  match d with
  | tooDeep inner => exact refuse_ne_ok inner wanted a h
  | null | bool _ | int _ | float _ | str _ | unreadable _ | arr _ _ | obj _ _ | broken _ => cases h

theorem sound_readList {read : Draft → Read α} (h : ∀ d a, read d = .ok a → Q a) (d : Draft)
    (values : List α) (hr : readList read d = .ok values) : ∀ a ∈ values, Q a := by
  unfold readList at hr
  split at hr
  · obtain ⟨read, hread, hr⟩ := bind_eq_ok hr
    obtain ⟨-, -, hr⟩ := bind_eq_ok hr
    obtain rfl := Except.ok.inj hr
    exact sound_mapM h hread
  · cases hr
  · exact absurd hr (refuse_ne_ok _ _ _)

theorem sound_readPairs {read : Draft → Read α} (h : ∀ d a, read d = .ok a → Q a) (d : Draft)
    (pairs : List (String × α)) (hr : readPairs read d = .ok pairs) : ∀ pair ∈ pairs, Q pair.2 := by
  unfold readPairs at hr
  split at hr
  · obtain ⟨read, hread, hr⟩ := bind_eq_ok hr
    obtain ⟨-, -, hr⟩ := bind_eq_ok hr
    obtain rfl := Except.ok.inj hr
    refine sound_mapM (fun member pair hpair => ?_) hread
    obtain ⟨key, value⟩ := member
    cases key with
    | none => cases hpair
    | some name =>
      obtain ⟨a, ha, hpair⟩ := bind_eq_ok hpair
      obtain rfl := Except.ok.inj hpair
      exact h value a ha
  · cases hr
  · exact absurd hr (refuse_ne_ok _ _ _)

theorem sound_fillMembers {form form' : Form Draft ρ} (h : form.Sound P)
    {members : List (Option String × Draft)} (hr : fillMembers form members = .ok form') :
    form'.Sound P := by
  induction members generalizing form with
  | nil =>
    obtain rfl := Except.ok.inj hr
    exact h
  | cons member rest ih =>
    obtain ⟨key, value⟩ := member
    cases key with
    | none => cases hr
    | some name =>
      rw [fillMembers] at hr
      split at hr
      · -- a field of the form
        split at hr
        · cases hr
        · rename_i form₁ hform₁
          exact ih (h.fill hform₁) hr
      · -- a key that names no field, whose value is passed over
        split at hr
        · cases hr
        · exact ih h hr

theorem sound_readRecord {form : Form Draft ρ} (h : form.Sound P) {name : String} {d : Draft}
    {r : ρ} (hr : readRecord name form d = .ok r) : P r := by
  unfold readRecord at hr
  split at hr
  · split at hr
    · cases hr
    · rename_i form' hfill
      obtain ⟨-, -, hr⟩ := bind_eq_ok hr
      exact (sound_fillMembers h hfill).close hr
  · obtain ⟨⟨values, left⟩, hvalues, hr⟩ := bind_eq_ok hr
    dsimp only at hr
    split at hr
    · cases hr
    · obtain ⟨-, -, hr⟩ := bind_eq_ok hr
      obtain rfl := Except.ok.inj hr
      exact h.readList hvalues
  · cases hr
  · exact absurd hr (refuse_ne_ok _ _ _)

end Json.Draft

namespace Yaml.Node

theorem sound_readList {read : Node → Read α} (h : ∀ n a, read n = .ok a → Q a) (n : Node)
    (values : List α) (hr : readList read n = .ok values) : ∀ a ∈ values, Q a := by
  unfold readList at hr
  split at hr
  · exact sound_mapM h hr
  · obtain rfl := Except.ok.inj hr
    exact fun a ha => nomatch ha
  · cases hr

theorem sound_readPairs {read : Node → Read α} (h : ∀ n a, read n = .ok a → Q a) (n : Node)
    (pairs : List (String × α)) (hr : readPairs read n = .ok pairs) : ∀ pair ∈ pairs, Q pair.2 := by
  unfold readPairs at hr
  split at hr
  · refine sound_mapM (fun entry pair hpair => ?_) hr
    obtain ⟨name, -, hpair⟩ := bind_eq_ok hpair
    obtain ⟨a, ha, hpair⟩ := bind_eq_ok hpair
    obtain rfl := Except.ok.inj hpair
    exact h entry.2 a ha
  · obtain rfl := Except.ok.inj hr
    exact fun a ha => nomatch ha
  · cases hr

theorem sound_fillEntries {form form' : Form Node ρ} (h : form.Sound P)
    {entries : List (Node × Node)} (hr : fillEntries form entries = .ok form') :
    form'.Sound P := by
  induction entries generalizing form with
  | nil =>
    obtain rfl := Except.ok.inj hr
    exact h
  | cons entry rest ih =>
    obtain ⟨key, value⟩ := entry
    rw [fillEntries] at hr
    split at hr
    · cases hr
    · split at hr
      · cases hr
      · rename_i form₁ hform₁
        exact ih (h.fill hform₁) hr

theorem sound_readRecord {form : Form Node ρ} (h : form.Sound P) {n : Node} {r : ρ}
    (hr : readRecord form n = .ok r) : P r := by
  unfold readRecord at hr
  split at hr
  · split at hr
    · cases hr
    · rename_i form' hfill
      exact (sound_fillEntries h hfill).close hr
  · exact h.close hr
  · cases hr

theorem sound_readDocument {form : Form Node ρ} (h : form.Sound P) {wanted : Wanted}
    {text : String} {r : ρ} (hr : readDocument wanted form text = .ok r) : P r := by
  unfold readDocument at hr
  split at hr
  · cases hr
  · exact h.close hr
  · exact sound_readRecord h hr

end Yaml.Node

end Readers

end GraphQuery
