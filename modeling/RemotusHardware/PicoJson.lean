import RemotusHardware.Board

/-! # The JSON values of picojson

`picojson::value` is a type tag beside a union.  `get<T>()` reads the member of the union
that belongs to `T` and never looks at the tag; on a value of another type it is undefined
(`Undefined.wrongType`).  Fields are looked up with `get(key)`, which asserts that the value
is an object and returns a null value for a key that is absent. -/

namespace RemotusHardware

open CLib

/-- A `double`, as `strtod` produces it from a JSON number; negative zero is 0. -/
inductive Double where
  | finite (q : ℚ)
  | infinite (negative : Bool)
deriving DecidableEq, Repr

/-- Truncation towards zero. -/
def trunc (q : ℚ) : ℤ := q.num.tdiv q.den

/-- The value is one an `int` holds. -/
def FitsInt (z : ℤ) : Prop := -2 ^ 31 ≤ z ∧ z < 2 ^ 31

instance (z : ℤ) : Decidable (FitsInt z) := inferInstanceAs (Decidable (_ ∧ _))

/-- `(int)x`. -/
def Double.toInt : Double → Except Stop ℤ
  | finite q => if FitsInt (trunc q) then .ok (trunc q) else undefined .conversion
  | infinite _ => undefined .conversion

/-- `picojson::value`; the fields of an object are in the order of its keys. -/
inductive Value where
  | null
  | boolean (b : Bool)
  | number (x : Double)
  | string (s : List UInt8)
  | array (xs : List Value)
  | object (fields : List (List UInt8 × Value))

namespace Value

/-- The value a key stands for, null where it is absent. -/
def field (v : Value) (key : String) : Value :=
  match v with
  | object fields => ((fields.find? fun kv => kv.1 = ascii key).map (·.2)).getD null
  | _ => null

def isObject : Value → Bool
  | object _ => true
  | _ => false

/-- `value::get(key)`. -/
def get (v : Value) (key : String) : Except Stop Value :=
  if v.isObject then .ok (v.field key) else .error .assertion

/-- `get<std::string>()`. -/
def getString : Value → Except Stop (List UInt8)
  | string s => .ok s
  | _ => undefined .wrongType

/-- `get<double>()`. -/
def getDouble : Value → Except Stop Double
  | number x => .ok x
  | _ => undefined .wrongType

/-- `get<picojson::array>()`. -/
def getArray : Value → Except Stop (List Value)
  | array xs => .ok xs
  | _ => undefined .wrongType

/-- `value::operator bool`. -/
def toBool : Value → Bool
  | null => false
  | boolean b => b
  | number (.finite q) => q ≠ 0
  | number (.infinite _) => true
  | string s => s ≠ []
  | array _ => true
  | object _ => true

theorem get_eq_ok {v w : Value} {key : String} :
    v.get key = .ok w ↔ v.isObject = true ∧ w = v.field key := by
  unfold get
  by_cases h : v.isObject = true
  · simp [h, eq_comm]
  · simp [h]

theorem getString_eq_ok {v : Value} {s : List UInt8} : v.getString = .ok s ↔ v = .string s := by
  cases v <;> simp [getString, undefined]

theorem getDouble_eq_ok {v : Value} {x : Double} : v.getDouble = .ok x ↔ v = .number x := by
  cases v <;> simp [getDouble, undefined]

theorem getArray_eq_ok {v : Value} {xs : List Value} : v.getArray = .ok xs ↔ v = .array xs := by
  cases v <;> simp [getArray, undefined]

theorem field_number_unique {v : Value} {key : String} {x y : Double}
    (hx : v.field key = .number x) (hy : v.field key = .number y) : x = y := by
  rw [hx] at hy
  exact number.inj hy

theorem field_array_unique {v : Value} {key : String} {xs ys : List Value}
    (hx : v.field key = .array xs) (hy : v.field key = .array ys) : xs = ys := by
  rw [hx] at hy
  exact array.inj hy

/-- What is said of every array in a field is said of the one there is. -/
theorem forall_field_array_iff {v : Value} {key : String} {xs : List Value}
    (h : v.field key = .array xs) {P : List Value → Prop} :
    (∀ ys, v.field key = .array ys → P ys) ↔ P xs := by
  constructor
  · intro hall
    exact hall xs h
  · intro hxs ys hys
    rwa [← field_array_unique h hys]

end Value

end RemotusHardware
