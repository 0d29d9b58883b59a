/-!
# Enumerated types of a database

Statements create types, give them further values and turn columns into columns of a type. A column
that no statement has turned takes any text.
-/

namespace Store

inductive Ddl (T C : Type) where
  /-- `CREATE TYPE … AS ENUM` -/
  | createType (name : T) (values : List String)
  /-- `ALTER TYPE … ADD VALUE IF NOT EXISTS` -/
  | addValue (name : T) (value : String)
  /-- `ALTER TABLE … ALTER COLUMN … TYPE` -/
  | alterColumn (column : C) (name : T)

structure Catalog (T C : Type) where
  values : T → List String
  typeOf : C → Option T

namespace Catalog
variable {T C : Type}

def empty : Catalog T C := ⟨fun _ => [], fun _ => none⟩

/-- A value that is written to the column or compared with it is one of its type. -/
def Accepts (catalog : Catalog T C) (column : C) (value : String) : Prop :=
  ∀ name ∈ catalog.typeOf column, value ∈ catalog.values name

instance (catalog : Catalog T C) (column : C) (value : String) :
    Decidable (catalog.Accepts column value) := by
  unfold Accepts
  infer_instance

variable [DecidableEq T] [DecidableEq C]

def apply (catalog : Catalog T C) : Ddl T C → Catalog T C
  | .createType name values =>
    { catalog with values := fun other => if other = name then values else catalog.values other }
  | .addValue name value =>
    { catalog with values := fun other =>
        if other = name ∧ value ∉ catalog.values name then catalog.values name ++ [value]
        else catalog.values other }
  | .alterColumn column name =>
    { catalog with typeOf := fun other =>
        if other = column then some name else catalog.typeOf other }

def migrate (catalog : Catalog T C) (statements : List (Ddl T C)) : Catalog T C :=
  statements.foldl apply catalog

end Catalog
end Store
