import LtlsKitting.Php.Bytes

/-!
# Request parameters and decoded documents

`Param` is the value of a request parameter, a string or an array.  `Json` is
what the server decodes from a posted document.  The observations made of
these values are the integer cast, the comparison with a text or with `true`,
and the test that a value is set.
-/

namespace LtlsKitting.Php

/-- A request parameter; only the values of an array are read. -/
inductive Param where
  | text (value : Bytes)
  | array (values : List Param)

/-- A named list of request parameters. -/
abbrev Params := List (Bytes × Param)

/-- A decoded document.  A floating-point number is represented by what the
server can observe of it: its integer cast and whether it is zero. -/
inductive Json where
  | null
  | bool (value : Bool)
  | int (value : Int)
  | float (truncated : Int) (zero : Bool)
  | string (value : Bytes)
  | array (values : List Json)
  | object (properties : List (Bytes × Json))

namespace Param

/-- The cast `(int)` of a parameter. -/
def intval : Param → Int
  | text value => Php.intval value
  | array values => if values.isEmpty then 0 else 1

/-- The loose comparison with a text that is not numeric. -/
def equals (expected : Bytes) : Param → Bool
  | text value => value == expected
  | array _ => false

/-- The text that is spliced into a string. -/
def spliced : Param → Bytes
  | text value => value
  | array _ => bytes "Array"

/-- The result of a function that expects a text; it refuses an array and
returns null, which is spliced as the empty text. -/
def scalar : Param → Bytes
  | text value => value
  | array _ => []

def isText : Param → Bool
  | text _ => true
  | array _ => false

theorem eq_text_scalar {param : Param} (isText : param.isText = true) :
    param = text param.scalar := by
  cases param with
  | text value => rfl
  | array values => cases isText

theorem equals_iff (expected : Bytes) (param : Param) :
    param.equals expected = true ↔ param = text expected := by
  cases param with
  | text value => simp [equals]
  | array values => simp [equals]

end Param

namespace Params

/-- The value of a parameter, if it is set. -/
def value (params : Params) (name : Bytes) : Option Param :=
  params.lookup name

/-- The test `isset`. -/
def has (params : Params) (name : Bytes) : Bool :=
  (params.value name).isSome

/-- The parameter is set and equals a text that is not numeric. -/
def hasValue (params : Params) (name expected : Bytes) : Bool :=
  (params.value name).any (Param.equals expected)

end Params

namespace Json

/-- The cast `(int)` of a decoded value. -/
def intval : Json → Int
  | null => 0
  | bool value => if value then 1 else 0
  | int value => value
  | float truncated _ => truncated
  | string value => Php.intval value
  | array values => if values.isEmpty then 0 else 1
  | object _ => 1

/-- The loose comparison `$value==true`. -/
def truthy : Json → Bool
  | null => false
  | bool value => value
  | int value => value != 0
  | float _ zero => !zero
  | string value => !(value.isEmpty || value == [48])
  | array values => !values.isEmpty
  | object _ => true

/-- A property of a decoded object; reading a missing property gives null. -/
def property (name : Bytes) (properties : List (Bytes × Json)) : Json :=
  (properties.lookup name).getD null

/-- The test `isset`, which rejects missing properties and null. -/
def isSet : Json → Bool
  | null => false
  | _ => true

end Json

end LtlsKitting.Php
