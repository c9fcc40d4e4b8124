/-!
# Gate options

The one setting of a gate is how long a request may wait in its queue.  The
setting is a whole number of milliseconds; a span of time given in seconds and
nanoseconds is cut down to whole milliseconds and to the largest count that fits.

Main definitions:

- Structure {lit}`Span`: a length of time in seconds and nanoseconds.
- Structure {lit}`Gate.Options`: the timeout of a gate.
- Function {lit}`Gate.Options.ofSpan`: options for a given span of time.
-/

namespace AwardsDesk

/-! ## Spans of time -/

/-- A length of time: whole seconds and the nanoseconds beyond them. -/
structure Span where
  seconds : UInt64
  nanos : Fin 1000000000
deriving DecidableEq, Repr

namespace Span

/-- The span in nanoseconds. -/
def totalNanos (d : Span) : Nat :=
  d.seconds.toNat * 1000000000 + d.nanos

/-- The number of whole milliseconds in the span. -/
def wholeMillis (d : Span) : Nat :=
  d.seconds.toNat * 1000 + d.nanos.val / 1000000

/-- The number of whole microseconds in the span. -/
def wholeMicros (d : Span) : Nat :=
  d.seconds.toNat * 1000000 + d.nanos.val / 1000

/-- The span of a number of milliseconds. -/
def ofMillis (ms : UInt64) : Span where
  seconds := ms / 1000
  nanos := Fin.ofNat 1000000000 (ms.toNat % 1000 * 1000000)

/-- The span of a number of seconds. -/
def ofSeconds (s : UInt64) : Span where
  seconds := s
  nanos := 0

/-- A span made from milliseconds holds just as many. -/
@[simp]
theorem wholeMillis_ofMillis (ms : UInt64) : (ofMillis ms).wholeMillis = ms.toNat := by
  simp only [wholeMillis, ofMillis, UInt64.toNat_div, Fin.ofNat]
  have h : (1000 : UInt64).toNat = 1000 := rfl
  rw [h]
  omega

end Span

namespace Gate

/-! ## Options -/

/-- Timeout, in milliseconds, of a gate for which none is given. -/
def defaultTimeoutMs : UInt64 := 10000

/-- Settings of a gate: the longest wait in its queue. -/
structure Options where
  timeoutMs : UInt64 := defaultTimeoutMs
deriving DecidableEq, Repr, Inhabited

namespace Options

/-- Options whose timeout is the whole milliseconds of a span, or the largest
timeout there is when the span is longer than that. -/
def ofSpan (d : Span) : Options where
  timeoutMs := UInt64.ofNat (min d.wholeMillis (UInt64.size - 1))

/-- The timeout as a span of time. -/
def timeout (o : Options) : Span :=
  Span.ofMillis o.timeoutMs

/-- Options are usable when a request may wait at all. -/
def Usable (o : Options) : Prop :=
  o.timeoutMs ≠ 0

instance (o : Options) : Decidable o.Usable :=
  inferInstanceAs (Decidable (o.timeoutMs ≠ 0))

end Options
end Gate
end AwardsDesk
