/-!
Durations: whole seconds within an unsigned word and nanoseconds below a second.
-/
namespace Uplink

structure Duration where
  nanos : Nat
  fits : nanos < UInt64.size * 1000000000
  deriving DecidableEq, Repr

namespace Duration

def zero : Duration := ⟨0, by decide⟩

instance : Inhabited Duration := ⟨zero⟩

def ofNanos? (nanos : Nat) : Option Duration :=
  if fits : nanos < UInt64.size * 1000000000 then some ⟨nanos, fits⟩ else none

def ofSecs (s : UInt64) : Duration :=
  ⟨s.toNat * 1000000000, Nat.mul_lt_mul_of_pos_right s.toNat_lt (by decide)⟩

def ofMillis (ms : UInt64) : Duration :=
  ⟨ms.toNat * 1000000, by have := ms.toNat_lt; simp only [UInt64.size]; omega⟩

def secs (d : Duration) : UInt64 := UInt64.ofNat (d.nanos / 1000000000)

def subsecNanos (d : Duration) : Nat := d.nanos % 1000000000

/-- Timers run in whole milliseconds, counted up. -/
def millis (d : Duration) : Nat := (d.nanos + 999999) / 1000000

/-- The multiple of a duration, if it is still one. -/
def times? (d : Duration) (n : Nat) : Option Duration := ofNanos? (d.nanos * n)

/-- Zero asks for the default. -/
def orDefault (d default : Duration) : Duration := if d.nanos = 0 then default else d

/-- `n / 10 ^ places` without zeros at the end. -/
def decimal (n places : Nat) : String :=
  let unit := Nat.pow 10 places
  let fraction := (Nat.toDigits 10 (unit + n % unit)).drop 1
  let shown := (fraction.reverse.dropWhile (· = '0')).reverse
  toString (n / unit) ++ (if shown.isEmpty then "" else "." ++ String.ofList shown)

/-- The duration in its largest unit with a whole part. -/
def text (d : Duration) : String :=
  if 1000000000 ≤ d.nanos then decimal d.nanos 9 ++ "s"
  else if 1000000 ≤ d.nanos then decimal d.nanos 6 ++ "ms"
  else if 1000 ≤ d.nanos then decimal d.nanos 3 ++ "µs"
  else toString d.nanos ++ "ns"

end Duration

end Uplink
