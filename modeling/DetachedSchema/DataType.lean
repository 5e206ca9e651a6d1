/-!
# Data types

The data type of a column with the particulars that a database attaches to it.
-/

namespace DetachedSchema

/-- The data type of a column. -/
structure DataType where
  /-- The name of the type in the database, such as `varchar`. -/
  name : String
  /-- The greatest length of a text or of binary data. -/
  length : Option UInt32 := none
  /-- The number of digits of a number. -/
  precision : Option UInt32 := none
  /-- The number of digits after the point. -/
  scale : Option UInt32 := none
  /-- Whether the column may be without a value. -/
  nullable : Bool := true
  /-- Whether the database generates the values. -/
  identity : Bool := false
  /-- The expression for the value of a row that does not give one. -/
  defaultValue : Option String := none
deriving DecidableEq

namespace DataType

/-- The type with a greatest length. -/
def withLength (t : DataType) (length : UInt32) : DataType := { t with length := some length }

/-- The type with a number of digits before and after the point. -/
def withPrecision (t : DataType) (precision scale : UInt32) : DataType :=
  { t with precision := some precision, scale := some scale }

/-- The type of a column that always has a value. -/
def required (t : DataType) : DataType := { t with nullable := false }

/-- The type of a column whose values the database generates; such a column always has one. -/
def generated (t : DataType) : DataType := { t with identity := true, nullable := false }

/-- The type with an expression for the missing value. -/
def withDefault (t : DataType) (expression : String) : DataType :=
  { t with defaultValue := some expression }

end DataType

end DetachedSchema
