/-!
# Tables of declarations

A table gives each name one entry. A name that is declared again keeps only the later entry. The
order of a table has no meaning: whoever needs one takes the names in their own order.
-/

namespace GraphQuery.Plan

/-- Entries by name, each name at most once. -/
structure Table (α : Type) where
  entries : List (String × α)
  nodup : (entries.map Prod.fst).Nodup

namespace Table

variable {α : Type}

/-- The table of a plan that declares nothing. -/
def empty : Table α :=
  ⟨[], List.nodup_nil⟩

/-- Where some table is wanted, the empty one will do. -/
instance : Inhabited (Table α) := ⟨empty⟩

/-- Adds an entry, or replaces the entry of that name in its place. -/
def put (entries : List (String × α)) (name : String) (value : α) : List (String × α) :=
  match entries with
  | [] => [(name, value)]
  | (n, v) :: rest => if n = name then (n, value) :: rest else (n, v) :: put rest name value

theorem mem_names_put {entries : List (String × α)} {name n : String} {value : α} :
    n ∈ (put entries name value).map Prod.fst ↔ n = name ∨ n ∈ entries.map Prod.fst := by
  induction entries with
  | nil => simp [put]
  | cons e rest ih =>
    obtain ⟨m, v⟩ := e
    by_cases h : m = name
    · subst h; simp [put]
    · simp only [put, h, if_false, List.map_cons, List.mem_cons, ih]
      constructor <;> rintro (rfl | h' | h') <;> simp_all

theorem nodup_put {entries : List (String × α)} (name : String) (value : α)
    (h : (entries.map Prod.fst).Nodup) : ((put entries name value).map Prod.fst).Nodup := by
  induction entries with
  | nil => simp [put]
  | cons e rest ih =>
    obtain ⟨m, v⟩ := e
    rw [List.map_cons, List.nodup_cons] at h
    by_cases hm : m = name
    · simp only [put, hm, if_true, List.map_cons, List.nodup_cons]
      exact ⟨hm ▸ h.1, h.2⟩
    · simp only [put, hm, if_false, List.map_cons, List.nodup_cons]
      refine ⟨fun hin => ?_, ih h.2⟩
      rcases mem_names_put.mp hin with heq | hin
      · exact hm heq
      · exact h.1 hin

/-- Declares a name. An earlier entry of that name is replaced. -/
def insert (t : Table α) (name : String) (value : α) : Table α :=
  ⟨put t.entries name value, nodup_put name value t.nodup⟩

/-- The entry of a name. There is at most one, so it does not matter where the search begins. -/
def get? (t : Table α) (name : String) : Option α :=
  (t.entries.find? fun entry => entry.1 = name).map Prod.snd

/-- Whether the name is declared. -/
def contains (t : Table α) (name : String) : Bool :=
  t.entries.any fun entry => entry.1 = name

/-- The number of names, each counted once however often it was declared. -/
def size (t : Table α) : Nat :=
  t.entries.length

/-- The entries in the order of their names. -/
def sorted (t : Table α) : List (String × α) :=
  t.entries.mergeSort fun a b => a.1 ≤ b.1

/-- The table of these entries; of a repeated name the last one counts. -/
def ofList (entries : List (String × α)) : Table α :=
  entries.foldl (fun t (name, value) => t.insert name value) empty

end Table

end GraphQuery.Plan
