/-!
Instants and durations are natural numbers of milliseconds. The timeline ends at `maxMillis`, and a
sum or product that would pass it stops there. A window is a half-open stretch of the timeline: it
holds its start and not its end. A timestamp writes durations in units, and a clock face shows them as
`HH:MM:SS.d`, where what is left below a decisecond is dropped.
-/

namespace NoteClock

def maxMillis : Nat := 18446744073709551615

/-- The instant itself, or the last one when it lies past the end of the timeline. -/
def saturate (millis : Nat) : Nat := min millis maxMillis

theorem saturate_le (millis : Nat) : saturate millis ≤ maxMillis := Nat.min_le_right _ _

theorem saturate_of_le {millis : Nat} (bound : millis ≤ maxMillis) : saturate millis = millis :=
  Nat.min_eq_left bound

theorem saturate_mono {first second : Nat} (le : first ≤ second) :
    saturate first ≤ saturate second := by
  simp only [saturate]
  omega

structure Window where
  start : Nat
  stop : Nat
  deriving DecidableEq, Repr

namespace Window

def width (window : Window) : Nat := window.stop - window.start

def isEmpty (window : Window) : Bool := window.stop ≤ window.start

def contains (window : Window) (instant : Nat) : Bool :=
  window.start ≤ instant && instant < window.stop

theorem isEmpty_eq_true_iff {window : Window} : window.isEmpty = true ↔ window.stop ≤ window.start :=
  decide_eq_true_iff

theorem contains_eq_true_iff {window : Window} {instant : Nat} :
    window.contains instant = true ↔ window.start ≤ instant ∧ instant < window.stop := by
  simp [contains]

end Window

inductive TimeUnit where
  | hour
  | minute
  | second
  | decisecond
  deriving DecidableEq, Repr

namespace TimeUnit

def all : List TimeUnit := [hour, minute, second, decisecond]

def symbol : TimeUnit → List Char
  | hour => ['h']
  | minute => ['m']
  | second => ['s']
  | decisecond => ['d', 's']

def millis : TimeUnit → Nat
  | hour => 3600000
  | minute => 60000
  | second => 1000
  | decisecond => 100

def ofSymbol? (symbol : List Char) : Option TimeUnit := all.find? (·.symbol == symbol)

theorem ofSymbol?_symbol (unit : TimeUnit) : ofSymbol? unit.symbol = some unit := by
  cases unit <;> rfl

theorem ofSymbol?_eq_some_iff {symbol : List Char} {unit : TimeUnit} :
    ofSymbol? symbol = some unit ↔ symbol = unit.symbol := by
  constructor
  · intro found
    have spelled := List.find?_some found
    exact (beq_iff_eq.mp spelled).symm
  · rintro rfl
    exact ofSymbol?_symbol unit

end TimeUnit

namespace Elapsed

def twoDigits (number : Nat) : List Char :=
  if number < 10 then '0' :: Nat.toDigits 10 number else Nat.toDigits 10 number

def hours (millis : Nat) : Nat := millis / TimeUnit.hour.millis

def minutes (millis : Nat) : Nat := millis / TimeUnit.minute.millis % 60

def seconds (millis : Nat) : Nat := millis / TimeUnit.second.millis % 60

def deciseconds (millis : Nat) : Nat := millis / TimeUnit.decisecond.millis % 10

def face (millis : Nat) : List Char :=
  twoDigits (hours millis) ++ ':' :: twoDigits (minutes millis) ++
    ':' :: twoDigits (seconds millis) ++ '.' :: Nat.toDigits 10 (deciseconds millis)

def display (millis : Nat) : String := String.ofList (face millis)

end Elapsed

end NoteClock
