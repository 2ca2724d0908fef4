namespace WixAuthoring.Json

/-!
# JSON values

Values without fractions. The fields of an object have an order, and a key that comes again replaces
the value of its first place.
-/

inductive Value where
  | null
  | boolean (b : Bool)
  | integer (n : Int)
  | text (s : String)
  | list (items : List Value)
  | object (fields : List (String × Value))
  deriving Repr

/-- Sets the value of a key, in its place if it is there, at the end if not. -/
def setField (key : String) (value : Value) : List (String × Value) → List (String × Value)
  | [] => [(key, value)]
  | (k, v) :: fields => if k = key then (k, value) :: fields else (k, v) :: setField key value fields

def ofFields (fields : List (String × Value)) : List (String × Value) :=
  fields.foldl (fun fields (key, value) ↦ setField key value fields) []

mutual

/-- The value with one field for each key. -/
def Value.merged : Value → Value
  | .list items => .list (mergedItems items)
  | .object fields => .object (ofFields (mergedFields fields))
  | value => value

def mergedItems : List Value → List Value
  | [] => []
  | value :: items => value.merged :: mergedItems items

def mergedFields : List (String × Value) → List (String × Value)
  | [] => []
  | (key, value) :: fields => (key, value.merged) :: mergedFields fields

end

/-- An integer is written with at most this many digits. -/
def longestInteger : Nat := 4300

mutual

/-- Holds of a value all of whose integers are short enough to be written. -/
def Value.isWritable : Value → Bool
  | .integer n => n.natAbs < 10 ^ longestInteger
  | .list items => areWritable items
  | .object fields => areWritableFields fields
  | _ => true

def areWritable : List Value → Bool
  | [] => true
  | value :: items => value.isWritable && areWritable items

def areWritableFields : List (String × Value) → Bool
  | [] => true
  | (_, value) :: fields => value.isWritable && areWritableFields fields

end

end WixAuthoring.Json
