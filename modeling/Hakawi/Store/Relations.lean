import Mathlib.Algebra.GroupWithZero.Nat
import Mathlib.Logic.Function.Iterate

/-!
# Tables with foreign keys

A row has an id, may be marked as deleted, and points at rows of other tables through its
foreign-key columns. A statement that deletes rows takes along the rows that point at them,
clears their column, or fails, as each key says.
-/

namespace Store

/-- `ON DELETE …` -/
inductive OnDelete where
  | noAction
  | restrict
  | cascade
  | setNull
  deriving DecidableEq, Repr

structure ForeignKey (T : Type) where
  table : T
  column : String
  references : T
  onDelete : OnDelete := .noAction
  deriving DecidableEq

structure Record where
  id : String
  deletedAt : Option Int
  /-- The foreign-key columns that are not null. -/
  references : List (String × String)
  deriving DecidableEq

def Record.reference (row : Record) (column : String) : Option String :=
  row.references.lookup column

abbrev Relations (T : Type) : Type := T → List Record

namespace Relations
variable {T : Type} [DecidableEq T] (keys : List (ForeignKey T)) (db : Relations T)

/-- Every reference has its row. -/
def Satisfies : Prop :=
  ∀ key ∈ keys, ∀ row ∈ db key.table, ∀ target ∈ row.reference key.column,
    ∃ other ∈ db key.references, other.id = target

def pointsAt (doomed : T → String → Bool) (key : ForeignKey T) (row : Record) : Bool :=
  (row.reference key.column).any (doomed key.references)

/-- What is to be deleted, and the rows whose keys cascade from it. -/
def cascadeOnce (doomed : T → String → Bool) : T → String → Bool := fun table id =>
  doomed table id || keys.any fun key => key.table = table && key.onDelete = .cascade &&
    (db table).any fun row => row.id = id && pointsAt doomed key row

/-- The columns of the rows that stay, cleared where their key says so. -/
def clear (doomed : T → String → Bool) (table : T) (row : Record) : Record :=
  { row with references := row.references.filter fun (column, target) =>
      !keys.any fun key => key.table = table && key.column = column && key.onDelete = .setNull &&
        doomed key.references target }

/-- As often as there are rows, the rows that keys cascade to are looked for. -/
def delete (tables : List T) (doomed : T → String → Bool) :
    Except (ForeignKey T) (Relations T) :=
  let doomed := (cascadeOnce keys db)^[(tables.map fun table => (db table).length).sum] doomed
  let remaining : Relations T := fun table =>
    ((db table).filter fun row => !doomed table row.id).map (clear keys doomed table)
  match keys.find? fun key => (key.onDelete = .noAction || key.onDelete = .restrict) &&
      (remaining key.table).any (pointsAt doomed key) with
  | some key => .error key
  | none => .ok remaining

section Deletion
variable {keys} {db} {doomed : T → String → Bool}

end Deletion
end Relations
end Store
