import GraphQuery.Plan.Document
import GraphQuery.Plan.Written
import GraphQuery.Proofs.Proper

/-!
# Reading what was written

A value that is written and read again passes through a draft and through content, or straight from
one content to the next when it stands inside of another value. In either case a proper value comes
back as it was, and so does each way to write things down in it: a record with all of its fields in
their order, an alternative with what belongs to it, a tagged record with its tag before the fields,
a list, an option.

A record is filled field by field, from wherever it is read. So that is where the argument is made,
and the two notations only have to show that they fill a form with one member after the other.
-/

namespace GraphQuery

/-! ## Values -/

namespace Json.Draft

mutual

/-- The draft of a text that holds this value and no fault. -/
def ofJson : Json → Draft
  | .null => null
  | .bool b => bool b
  | .int n => int n
  | .float x => float x
  | .str s => str s
  | .arr items => arr (ofItems items) none
  | .obj members => obj (ofMembers members) none

/-- The items as a reader finds them. -/
def ofItems : List Json → List Draft
  | [] => []
  | item :: rest => ofJson item :: ofItems rest

/-- The members as a reader finds them, each with a key it can read. -/
def ofMembers : List (String × Json) → List (Option String × Draft)
  | [] => []
  | (key, value) :: rest => (some key, ofJson value) :: ofMembers rest

end

theorem ofItems_eq_map (items : List Json) : ofItems items = items.map ofJson := by
  induction items with
  | nil => rfl
  | cons item rest ih => rw [ofItems, ih, List.map_cons]

mutual

theorem readContent_ofJson (v : Json) : (ofJson v).readContent = .ok (Content.ofJson v) := by
  match v with
  | .null | .bool _ | .int _ | .float _ | .str _ => rfl
  | .arr items =>
    rw [ofJson, readContent, readContentItems_ofItems items]
    rfl
  | .obj members =>
    rw [ofJson, readContent, readContentMembers_ofMembers members]
    rfl

theorem readContentItems_ofItems (items : List Json) :
    readContentItems (ofItems items) = .ok (Content.ofItems items) := by
  match items with
  | [] => rfl
  | item :: rest =>
    rw [ofItems, readContentItems, readContent_ofJson item, readContentItems_ofItems rest]
    rfl

theorem readContentMembers_ofMembers (members : List (String × Json)) :
    readContentMembers (ofMembers members) = .ok (Content.ofMembers members) := by
  match members with
  | [] => rfl
  | (key, value) :: rest =>
    rw [ofMembers, readContentMembers, readContent_ofJson value,
      readContentMembers_ofMembers rest]
    rfl

end

end Json.Draft

namespace Content

mutual

/-- A proper value is read as it is: no number turns into null and no member is replaced. -/
theorem readJson_ofJson (v : Json) (h : v.Proper) : (ofJson v).readJson = .ok v := by
  match v, h with
  | .null, _ | .bool _, _ | .int _, _ | .str _, _ => rfl
  | .float x, h => exact congrArg Except.ok (if_pos h)
  | .arr items, h =>
    rw [ofJson, readJson, readJsonItems_ofItems items h]
    rfl
  | .obj members, ⟨hkeys, hproper⟩ =>
    rw [ofJson, readJson, readJsonMembers_ofMembers members [] hkeys hproper]
    rfl

theorem readJsonItems_ofItems (items : List Json) (h : Json.ProperItems items) :
    readJsonItems (ofItems items) = .ok items := by
  match items, h with
  | [], _ => rfl
  | item :: rest, ⟨hitem, hrest⟩ =>
    rw [ofItems, readJsonItems, readJson_ofJson item hitem, readJsonItems_ofItems rest hrest]
    rfl

theorem readJsonMembers_ofMembers (members before : List (String × Json))
    (hkeys : ((before ++ members).map Prod.fst).Nodup) (h : Json.ProperMembers members) :
    readJsonMembers before (ofMembers members) = .ok (before ++ members) := by
  match members, hkeys, h with
  | [], _, _ => rw [ofMembers, readJsonMembers, List.append_nil]
  | (key, value) :: rest, hkeys, ⟨hvalue, hrest⟩ =>
    -- the member goes behind those read so far, as its key is not among theirs
    have hinsert : Json.insert before key value = before ++ [(key, value)] := by
      rw [Json.insert_eq_put, Plan.Table.put_of_fresh (Plan.Table.fresh_of_nodup hkeys)]
    have hread := readJsonMembers_ofMembers rest (before ++ [(key, value)]) (by simpa using hkeys)
      hrest
    rw [List.append_assoc, ← hinsert] at hread
    rw [ofMembers, readJsonMembers, readText, readJson_ofJson value hvalue]
    exact hread

end

theorem readMembers_ofJson {members : List (String × Json)} (h : (Json.obj members).Proper) :
    (ofJson (.obj members)).readMembers = .ok members :=
  readJsonMembers_ofMembers members [] h.1 h.2

end Content

/-! ## Records -/

namespace Form

variable {V : Type}

/-- `form.Writes as members r`: the members name the fields of the form in order, and what the
fields read from their values makes the record `r`. -/
inductive Writes (as : Json → V) : {ρ : Type} → Form V ρ → List (String × Json) → ρ → Prop
  | nil : Writes as .nil [] ()
  | cons {α ρ : Type} {field : Field V α} {rest : Form V ρ} {value : Json}
      {members : List (String × Json)} {a : α} {r : ρ} (reads : field.read (as value) = .ok a)
      (fresh : field.name ∉ members.map Prod.fst) (others : Writes as rest members r) :
      Writes as (.cons field none rest) ((field.name, value) :: members) (a, r)

variable {as : Json → V}

/-- Fills in the members from left to right. -/
def fillAll {ρ : Type} (as : Json → V) (form : Form V ρ) :
    List (String × Json) → Read (Form V ρ)
  | [] => .ok form
  | (name, value) :: rest =>
    match form.fill name (as value) with
    | .error why => .error why
    | .ok form => form.fillAll as rest

/-- A field that no member names stays as it is, and the members pass it by. -/
theorem fillAll_cons {α ρ : Type} {field : Field V α} {slot : Option α} {rest rest' : Form V ρ}
    {members : List (String × Json)} (hfresh : field.name ∉ members.map Prod.fst)
    (h : rest.fillAll as members = .ok rest') :
    (Form.cons field slot rest).fillAll as members = .ok (.cons field slot rest') := by
  -- on the members, while the rest of the form fills up
  induction members generalizing rest with
  | nil =>
    obtain rfl := Except.ok.inj h
    rfl
  | cons member others ih =>
    obtain ⟨name, value⟩ := member
    obtain ⟨hname, hothers⟩ := not_or.mp fun h' => hfresh (List.mem_cons.mpr h')
    have hne : ¬ name = field.name := fun heq => hname heq.symm
    simp only [fillAll, fill, if_neg hne] at h ⊢
    cases hfill : rest.fill name (as value) with
    | error why =>
      rw [hfill] at h
      cases h
    | ok filled =>
      rw [hfill] at h
      exact ih hothers h

/-- Written members fill the form, each its own field, and nothing is missing in the end. -/
theorem Writes.fillAll {ρ : Type} {form : Form V ρ} {members : List (String × Json)} {r : ρ}
    (h : form.Writes as members r) :
    ∃ filled, form.fillAll as members = .ok filled ∧ filled.close = .ok r := by
  induction h with
  | nil => exact ⟨.nil, rfl, rfl⟩
  | @cons α ρ field rest value members a r reads fresh _ ih =>
    obtain ⟨filled, hfill, hclose⟩ := ih
    refine ⟨.cons field (some a) filled, ?_, ?_⟩
    · -- the first member fills the first field, and the others do not come back to it
      simp only [Form.fillAll, fill, if_true, reads]
      exact fillAll_cons fresh hfill
    · simp [close, hclose, Except.map]

theorem Writes.has {ρ : Type} {form : Form V ρ} {members : List (String × Json)} {r : ρ}
    (h : form.Writes as members r) : ∀ member ∈ members, form.has member.1 = true := by
  induction h with
  | nil => exact List.forall_mem_nil _
  | cons _ _ _ ih =>
    refine List.forall_mem_cons.mpr ⟨by simp [Form.has], fun member hmember => ?_⟩
    simp [Form.has, ih member hmember]

theorem has_fill {ρ : Type} {form form' : Form V ρ} {name : String} {v : V}
    (h : form.fill name v = .ok form') (name' : String) : form'.has name' = form.has name' := by
  induction form with
  | nil =>
    obtain rfl := Except.ok.inj h
    rfl
  | cons field slot rest ih =>
    simp only [fill] at h
    split at h
    · -- the field itself is filled, and stays a field
      split at h
      · cases h
      · split at h
        · obtain rfl := Except.ok.inj h
          rfl
        · cases h
    · -- one of the fields after it
      split at h
      · rename_i rest' hrest
        obtain rfl := Except.ok.inj h
        rw [Form.has, Form.has, ih hrest]
      · cases h

section Fields

variable {α ρ : Type} {name : String} {read : V → Read α} {rest : Form V ρ} {value : Json}
  {members : List (String × Json)} {a : α} {r : ρ}

theorem Writes.required (reads : read (as value) = .ok a) (fresh : name ∉ members.map Prod.fst)
    (others : rest.Writes as members r) :
    (Form.required name read rest).Writes as ((name, value) :: members) (a, r) :=
  .cons reads fresh others

theorem Writes.withDefault {absent : α} (reads : read (as value) = .ok a)
    (fresh : name ∉ members.map Prod.fst) (others : rest.Writes as members r) :
    (Form.withDefault name read absent rest).Writes as ((name, value) :: members) (a, r) :=
  .cons reads fresh others

end Fields

end Form

/-! ## Reading content -/

namespace Content

section Records

variable {ρ : Type} {form : Form Content ρ} {members : List (String × Json)} {r : ρ}

theorem fillEntries_ofMembers (form : Form Content ρ) (members : List (String × Json)) :
    fillEntries form (ofMembers members) = form.fillAll ofJson members := by
  induction members generalizing form with
  | nil => rfl
  | cons member rest ih =>
    obtain ⟨name, value⟩ := member
    simp only [ofMembers, fillEntries, fieldName, Form.fillAll]
    cases form.fill name (ofJson value) with
    | error why => rfl
    | ok filled => exact ih filled

theorem readEntries_ofMembers (h : form.Writes ofJson members r) :
    readEntries form (ofMembers members) = .ok r := by
  obtain ⟨filled, hfill, hclose⟩ := h.fillAll
  rw [readEntries, fillEntries_ofMembers, hfill]
  exact hclose

theorem readRecord_ofJson {name : String} (h : form.Writes ofJson members r) :
    readRecord name form (ofJson (.obj members)) = .ok r :=
  readEntries_ofMembers h

theorem readFields_ofJson {allowed : RecordForm} {owner : String}
    (h : form.Writes ofJson members r) :
    readFields allowed owner form (some (ofJson (.obj members))) = .ok r :=
  readEntries_ofMembers h

theorem readBody_ofMembers {owner : String} (h : form.Writes ofJson members r) :
    readBody owner form (map (ofMembers members)) = .ok r :=
  readEntries_ofMembers h

end Records

section Parts

variable {α : Type} {known : List (String × α)} {a : α} {name tag : String}

theorem readChoice_ofJson {value : Json} (h : readName known name = .ok a) :
    (ofJson (Plan.choice name value)).readChoice known = .ok (a, some (ofJson value)) := by
  show (readName known name >>= fun a => pure (a, some (ofJson value))) = _
  rw [h]
  rfl

theorem readBare_ofJson (h : readName known name = .ok a) :
    readBare known (ofJson (.str name)) = .ok a := by
  show ((readName known name >>= fun a => pure (a, none)) >>= _) = _
  rw [h]
  rfl

theorem readOption_ofJson {read : Content → Read α} {v : Json} (hv : v ≠ .null)
    (h : read (ofJson v) = .ok a) : readOption read (ofJson v) = .ok (some a) := by
  cases v with
  | null => exact absurd rfl hv
  | _ => exact congrArg (Except.map some) h

theorem readOption_optional (s : Option String) :
    readOption readText (ofJson (Plan.optional s)) = .ok s := by
  cases s <;> rfl

theorem readItems_ofItems {read : Content → Read α} {toJson : α → Json} {items : List α}
    (h : ∀ a ∈ items, read (ofJson (toJson a)) = .ok a) :
    readItems read (ofItems (items.map toJson)) = .ok items := by
  induction items with
  | nil => rfl
  | cons item rest ih =>
    obtain ⟨hitem, hrest⟩ := List.forall_mem_cons.mp h
    rw [List.map_cons, ofItems, readItems, hitem, ih hrest]
    rfl

theorem readList_ofJson {read : Content → Read α} {toJson : α → Json} {items : List α}
    (h : ∀ a ∈ items, read (ofJson (toJson a)) = .ok a) :
    readList read (ofJson (.arr (items.map toJson))) = .ok items :=
  readItems_ofItems h

theorem readList_texts (names : List String) :
    readList readText (ofJson (Plan.texts names)) = .ok names :=
  readList_ofJson fun _ _ => rfl

theorem findTag_ofMembers {read : Content → Read α} {kind : Option α}
    {members : List (String × Json)} (h : tag ∉ members.map Prod.fst) :
    findTag tag read kind (ofMembers members) = .ok (kind, ofMembers members) := by
  induction members with
  | nil => rfl
  | cons member rest ih =>
    obtain ⟨key, value⟩ := member
    obtain ⟨hkey, hrest⟩ := not_or.mp fun h' => h (List.mem_cons.mpr h')
    have hne : ¬ findTag.isTag tag (str key) = true := fun heq => hkey (eq_of_beq heq).symm
    unfold findTag
    simp only [ofMembers, if_neg hne, ih hrest]
    rfl

/-- The tag comes first, and none of the fields has its name. -/
theorem readTagged_ofJson {owner : String} {members : List (String × Json)}
    (hname : readName known name = .ok a) (h : tag ∉ members.map Prod.fst) :
    readTagged owner tag (readIdentifier known) (ofJson (.obj ((tag, .str name) :: members)))
      = .ok ⟨a, map (ofMembers members)⟩ := by
  have htag : findTag.isTag tag (str tag) = true := beq_self_eq_true tag
  have hread : readIdentifier known (ofJson (.str name)) = .ok a := hname
  have hfirst : findTag tag (readIdentifier known) none
      ((str tag, ofJson (.str name)) :: ofMembers members) = .ok (some a, ofMembers members) := by
    unfold findTag
    simp only [htag, if_true, hread]
    exact findTag_ofMembers h
  rw [ofJson, ofMembers, readTagged, hfirst]
  rfl

end Parts

end Content

/-! ## Reading drafts -/

namespace Json.Draft

variable {α : Type}

theorem mapM_map {β : Type} {read : β → Read α} {write : α → β} {items : List α}
    (h : ∀ a ∈ items, read (write a) = .ok a) : (items.map write).mapM read = .ok items := by
  induction items with
  | nil => rfl
  | cons item rest ih =>
    obtain ⟨hitem, hrest⟩ := List.forall_mem_cons.mp h
    rw [List.map_cons, List.mapM_cons, hitem, ih hrest]
    rfl

theorem readList_ofJson {read : Draft → Read α} {toJson : α → Json} {items : List α}
    (h : ∀ a ∈ items, read (ofJson (toJson a)) = .ok a) :
    readList read (ofJson (.arr (items.map toJson))) = .ok items := by
  rw [ofJson, readList, ofItems_eq_map, List.map_map]
  show ((items.map fun a => ofJson (toJson a)).mapM read >>= _) = _
  rw [mapM_map h]
  rfl

theorem fillMembers_ofMembers {ρ : Type} {form : Form Draft ρ} {members : List (String × Json)}
    (h : ∀ member ∈ members, form.has member.1 = true) :
    fillMembers form (ofMembers members) = form.fillAll ofJson members := by
  induction members generalizing form with
  | nil => rfl
  | cons member rest ih =>
    obtain ⟨name, value⟩ := member
    obtain ⟨hname, hrest⟩ := List.forall_mem_cons.mp h
    rw [ofMembers, fillMembers, if_pos hname, Form.fillAll]
    cases hfill : form.fill name (ofJson value) with
    | error why => rfl
    | ok filled =>
      exact ih fun member hmember => (Form.has_fill hfill _).trans (hrest member hmember)

theorem readRecord_ofJson {ρ : Type} {form : Form Draft ρ} {members : List (String × Json)} {r : ρ}
    {name : String} (h : form.Writes ofJson members r) :
    readRecord name form (ofJson (.obj members)) = .ok r := by
  obtain ⟨filled, hfill, hclose⟩ := h.fillAll
  rw [ofJson, readRecord, fillMembers_ofMembers h.has, hfill]
  exact hclose

theorem findTag_ofMembers {known : List (String × α)} {tag : String} {kind : Option α}
    {members : List (String × Json)} (h : tag ∉ members.map Prod.fst) :
    findTag tag known kind (ofMembers members) = .ok (kind, Content.ofMembers members) := by
  induction members with
  | nil => rfl
  | cons member rest ih =>
    obtain ⟨key, value⟩ := member
    obtain ⟨hkey, hrest⟩ := not_or.mp fun h' => h (List.mem_cons.mpr h')
    have hne : ¬ key = tag := fun heq => hkey heq.symm
    unfold findTag
    simp only [ofMembers, if_neg hne, readContent_ofJson, ih hrest]
    rfl

theorem readTagged_ofJson {known : List (String × α)} {owner tag name : String} {a : α}
    {members : List (String × Json)} (hname : Content.readName known name = .ok a)
    (h : tag ∉ members.map Prod.fst) :
    readTagged owner tag known (ofJson (.obj ((tag, .str name) :: members)))
      = .ok ⟨a, .map (Content.ofMembers members)⟩ := by
  have hread : readIdentifier known (ofJson (.str name)) = .ok a := hname
  have hfirst : findTag tag known none ((some tag, ofJson (.str name)) :: ofMembers members)
      = .ok (some a, Content.ofMembers members) := by
    unfold findTag
    simp only [if_true, hread]
    exact findTag_ofMembers h
  rw [ofJson, ofMembers, readTagged, hfirst]
  rfl

end Json.Draft

end GraphQuery
