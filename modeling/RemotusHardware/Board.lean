import RemotusHardware.Base.CString

/-! # The board: how the program stops, its pins, its sensor objects

`main.cpp` runs on one microcontroller without an operating system.  A run of one of its
functions ends in one of three ways: it returns, it never comes back from `errorConfig`, or
it does something C++ gives no meaning to (`Undefined`).  All three are kept apart by
`Except Stop`.

The sensor objects are known here by their class and by the arguments of their constructor;
what a device reports when it is read is an input of the functions that read it. -/

namespace RemotusHardware

/-- What C++ gives no meaning to. -/
inductive Undefined where
  /-- `get<T>()` reads the union of a JSON value of another type -/
  | wrongType
  /-- a `double` outside the range of `int` is converted -/
  | conversion
  /-- `strcpy` writes past the end of an array -/
  | bufferOverflow
  /-- `pines[]` is read past its 35 entries -/
  | outOfBounds
  /-- a table entry that was never set is followed -/
  | nullPointer
  /-- a `void*` is cast to a class its object does not have -/
  | badCast
deriving DecidableEq, Repr

/-- Why a function did not return. -/
inductive Stop where
  /-- caught in the loop of `errorConfig(led)` -/
  | errorConfig (led : ℕ)
  /-- an `assert` failed -/
  | assertion
  | undefined (why : Undefined)
deriving DecidableEq, Repr

/-- The loop of `errorConfig` blinks for ever. -/
def errorConfig {α : Type} (led : ℕ) : Except Stop α := .error (.errorConfig led)

def undefined {α : Type} (why : Undefined) : Except Stop α := .error (.undefined why)

theorem bind_eq_ok {α β : Type} {x : Except Stop α} {f : α → Except Stop β} {b : β} :
    x >>= f = .ok b ↔ ∃ a, x = .ok a ∧ f a = .ok b := by
  cases x with
  | error e => simp [bind, Except.bind]
  | ok a => simp [bind, Except.bind]

@[simp] theorem ok_bind {α β : Type} (a : α) (f : α → Except Stop β) :
    (Except.ok a >>= f) = f a := rfl

@[simp] theorem error_bind {α β : Type} (e : Stop) (f : α → Except Stop β) :
    (Except.error e >>= f) = .error e := rfl

/-! ### Pins -/

/-- The pin names of the pin table; `zero` is what its entries beyond `p30` hold. -/
inductive PinName where
  | LED1 | LED2 | LED3 | LED4
  | p5 | p6 | p7 | p8 | p9 | p10 | p11 | p12 | p13 | p14 | p15 | p16 | p17
  | p18 | p19 | p20 | p21 | p22 | p23 | p24 | p25 | p26 | p27 | p28 | p29 | p30
  | zero
deriving DecidableEq, Repr

open PinName in
/-- `PinName pines[35]`, of which 30 entries are initialised. -/
def pines : List PinName :=
  [LED1, LED2, LED3, LED4, p5, p6, p7, p8, p9, p10, p11, p12, p13, p14, p15, p16, p17, p18, p19,
    p20, p21, p22, p23, p24, p25, p26, p27, p28, p29, p30, zero, zero, zero, zero, zero]

/-- `pines[p-1]`. -/
def pinAt (p : ℤ) : Except Stop PinName :=
  if 1 ≤ p ∧ p ≤ 35 then .ok (pines.getD (p - 1).toNat .zero) else undefined .outOfBounds

theorem pinAt_ok {p : ℤ} (h : 1 ≤ p ∧ p ≤ 35) : ∃ pin, pinAt p = .ok pin := ⟨_, if_pos h⟩

theorem pinAt_error {p : ℤ} (h : ¬ (1 ≤ p ∧ p ≤ 35)) : pinAt p = undefined .outOfBounds := if_neg h

/-- The level of every output pin. -/
abbrev Levels := PinName → Bool

/-- `DigitalOut::write`. -/
def Levels.write (g : Levels) (pin : PinName) (level : Bool) : Levels :=
  fun q => if q = pin then level else g q

@[simp] theorem Levels.write_same (g : Levels) (pin : PinName) (level : Bool) :
    g.write pin level pin = level := by simp [Levels.write]

theorem Levels.write_ne (g : Levels) {pin q : PinName} (level : Bool) (h : q ≠ pin) :
    g.write pin level q = g q := by simp [Levels.write, h]

/-! ### Sensor objects -/

/-- What `new` has built, with the arguments of the constructor. -/
inductive SensorObject where
  | CAnemometer (AnemometerPin : PinName)
  | CWindVane (WindVanePin : PinName) (WindVaneSeriesResistance : ℕ)
  | CRainGauge (RainGaugePin : PinName)
  | DHT (pin : PinName) (DHTtype : ℕ)
  | AnalogIn (pin : PinName)
  | DigitalOut (pin : PinName)
  | SRF05 (trigger echo : PinName)
deriving DecidableEq, Repr

/-- The classes of the sensor objects. -/
inductive SensorClass where
  | CAnemometer | CWindVane | CRainGauge | DHT | AnalogIn | DigitalOut | SRF05
deriving DecidableEq, Repr

namespace SensorObject

def cls : SensorObject → SensorClass
  | CAnemometer _ => .CAnemometer
  | CWindVane _ _ => .CWindVane
  | CRainGauge _ => .CRainGauge
  | DHT _ _ => .DHT
  | AnalogIn _ => .AnalogIn
  | DigitalOut _ => .DigitalOut
  | SRF05 _ _ => .SRF05

/-- The pin the object was built on; a sonar's is its trigger. -/
def pin : SensorObject → PinName
  | CAnemometer pin => pin
  | CWindVane pin _ => pin
  | CRainGauge pin => pin
  | DHT pin _ => pin
  | AnalogIn pin => pin
  | DigitalOut pin => pin
  | SRF05 trigger _ => trigger

/-- `(c*)object` for an object stored as `void*`. -/
def cast (c : SensorClass) (object : SensorObject) : Except Stop SensorObject :=
  if object.cls = c then .ok object else undefined .badCast

theorem cast_eq_ok {c : SensorClass} {o o' : SensorObject} :
    o.cast c = .ok o' ↔ o.cls = c ∧ o' = o := by
  unfold cast undefined
  split <;> simp_all [eq_comm]

end SensorObject

end RemotusHardware
