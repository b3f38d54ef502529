import GraphQuery.Unread

/-!
# Records

A record is written as a map from field names to values, or as the list of its values. A form lists
the fields of a record in order, with the reader of each, the value that stands for it when it is
absent, and what has been read into it so far. Fields are read in the order in which they are
written; a missing one is noticed at the end, in the order of the form.
-/

namespace GraphQuery

/-- A field of a record that is read from values of type `V`. -/
structure Field (V α : Type) where
  name : String
  read : V → Read α
  /-- What stands for the field when it is absent. -/
  absent : Option α

/-- The fields of a record whose values together have type `ρ`, some of them filled in. -/
inductive Form (V : Type) : Type → Type 1
  | nil : Form V Unit
  | cons {α ρ : Type} (field : Field V α) (slot : Option α) (rest : Form V ρ) : Form V (α × ρ)

namespace Form

variable {V : Type}

/-- A field that has to be there. -/
def required {α ρ : Type} (name : String) (read : V → Read α) (rest : Form V ρ) : Form V (α × ρ) :=
  .cons ⟨name, read, none⟩ none rest

/-- A field with a value for its absence. -/
def withDefault {α ρ : Type} (name : String) (read : V → Read α) (absent : α)
    (rest : Form V ρ) : Form V (α × ρ) :=
  .cons ⟨name, read, some absent⟩ none rest

/-- Reads a value into the field of that name, which must not have been filled before. A form
without that field stays as it is. -/
def fill {ρ : Type} (name : String) (value : V) : Form V ρ → Read (Form V ρ)
  | .nil => .ok .nil
  | .cons field slot rest =>
    if name = field.name then
      match slot with
      | some _ => .error (.mismatch (.duplicate field.name))
      | none =>
        match field.read value with
        | .ok first => .ok (.cons field (some first) rest)
        | .error why => .error why
    else
      match rest.fill name value with
      | .ok rest => .ok (.cons field slot rest)
      | .error why => .error why

/-- Whether the record has a field of this name. -/
def has {ρ : Type} (name : String) : Form V ρ → Bool
  | .nil => false
  | .cons field _ rest => name == field.name || rest.has name

/-- The record, once everything written has been read. -/
def close {ρ : Type} : Form V ρ → Read ρ
  | .nil => .ok ()
  | .cons field slot rest =>
    match slot.or field.absent with
    | none => .error (.mismatch (.missing field.name))
    | some first => rest.close.map fun others => (first, others)

/-- Reads the fields in order from a list, and gives what is left of it. When the list ends early
`atEnd` has the first word; then the remaining fields are absent. -/
def readList {ρ : Type} (atEnd : Read Unit) (owner : String) : Nat → List V → Form V ρ →
    Read (ρ × List V)
  | _, values, .nil => .ok ((), values)
  | position, value :: values, .cons field _ rest => do
    let first ← field.read value
    let (others, left) ← rest.readList atEnd owner (position + 1) values
    return ((first, others), left)
  | position, [], .cons field _ rest => do
    atEnd
    match field.absent with
    | none => .error (.mismatch (.length position owner))
    | some first =>
      let (others, left) ← rest.readList atEnd owner (position + 1) []
      return ((first, others), left)

/-- The number of fields, those with a default included. -/
def size {ρ : Type} : Form V ρ → Nat
  | .nil => 0
  | .cons _ _ rest => rest.size + 1

/-- The name of the field at a position. -/
def nameAt? {ρ : Type} : Form V ρ → Nat → Option String
  | .nil, _ => none
  | .cons field _ _, 0 => some field.name
  | .cons _ _ rest, n + 1 => rest.nameAt? n

end Form

/-- A number of elements in words. -/
def elements (n : Nat) : String :=
  if n = 1 then "1 element" else toString n ++ " elements"

end GraphQuery
