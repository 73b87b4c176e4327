namespace EventBroker

def nanosPerSec : Nat := 1000000000

def nanosPerMilli : Nat := 1000000

structure Duration where
  secs : Nat
  nanos : Nat
  secs_lt : secs < UInt64.size
  nanos_lt : nanos < nanosPerSec
  deriving DecidableEq

namespace Duration

def zero : Duration := ⟨0, 0, by decide, by decide⟩

def max : Duration := ⟨UInt64.size - 1, nanosPerSec - 1, by decide, by decide⟩

instance : Inhabited Duration := ⟨zero⟩

/-- `secs` seconds and `nanos` nanoseconds, whole seconds carried; too much gives `max`. -/
def ofParts (secs nanos : Nat) : Duration :=
  if h : secs + nanos / nanosPerSec < UInt64.size then
    ⟨secs + nanos / nanosPerSec, nanos % nanosPerSec, h, Nat.mod_lt _ (by decide)⟩
  else max

def ofMillis (ms : Nat) : Duration := ofParts (ms / 1000) (ms % 1000 * nanosPerMilli)

def toNanos (d : Duration) : Nat := d.secs * nanosPerSec + d.nanos

def toMillis (d : Duration) : Nat := d.secs * 1000 + d.nanos / nanosPerMilli

def mul (d : Duration) (n : Nat) : Duration := ofParts (d.secs * n) (d.nanos * n)

end Duration

abbrev Instant := Nat

namespace Instant

/-- The clock counts seconds in 63 bits, so it has an end. -/
def clockEnd : Instant := UInt64.size / 2 * nanosPerSec

def ofMillis (ms : Nat) : Instant := ms * nanosPerMilli

def toMillis (t : Instant) : Nat := t / nanosPerMilli

def ceilMillis (t : Instant) : Nat := (t + (nanosPerMilli - 1)) / nanosPerMilli

def after (t : Instant) (d : Duration) : Instant := t + d.toNanos

/-- The point `d` after `t` as the clock computes it, which fails past its end. -/
def after? (t : Instant) (d : Duration) : Option Instant :=
  if t.after d < clockEnd then some (t.after d) else none

def since (t earlier : Instant) : Nat := t - earlier

end Instant

end EventBroker
