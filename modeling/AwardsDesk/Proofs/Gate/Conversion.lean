import AwardsDesk.Gate.Error
import Mathlib.Order.Bounds.Basic

/-!
# Timeouts from spans of time

A span of time may hold more milliseconds than a timeout can count, and nanoseconds that are no
whole millisecond.  The timeout for a span is the largest one that is not longer than the span.

Main results:

- Theorem {lit}`Span.le_wholeMillis_iff`: the milliseconds that are in a span.
- Theorem {lit}`Gate.Options.le_ofSpan_iff`: the timeouts that are not longer than a span.
- Theorem {lit}`Gate.Options.timeout_conversion`: the timeout for a span is the largest of them.
-/

namespace AwardsDesk

namespace Span

/-- A number of milliseconds is in a span if it is at most the number of whole ones. -/
theorem le_wholeMillis_iff (d : Span) (n : Nat) :
    n ≤ d.wholeMillis ↔ n * 1000000 ≤ d.totalNanos := by
  have hnanos := d.nanos.isLt
  unfold wholeMillis totalNanos
  omega

end Span

namespace Gate
namespace Options

/-- The count of milliseconds is cut down before it is taken for one of 64 bits. -/
theorem toNat_ofSpan (d : Span) :
    (ofSpan d).timeoutMs.toNat = min d.wholeMillis (UInt64.size - 1) := by
  have hsize : 0 < UInt64.size := by decide
  have hfits : min d.wholeMillis (UInt64.size - 1) < UInt64.size := by omega
  exact UInt64.toNat_ofNat_of_lt' hfits

/-- A number that fits 64 bits is at most the timeout for a span if so many milliseconds are in the
span. -/
theorem le_ofSpan_iff (d : Span) {n : Nat} (hfits : n < UInt64.size) :
    n ≤ (ofSpan d).timeoutMs.toNat ↔ n * 1000000 ≤ d.totalNanos := by
  rw [toNat_ofSpan, le_inf_iff, and_iff_left (Nat.le_sub_one_of_lt hfits), d.le_wholeMillis_iff]

/-- The timeout for a span is the largest number of milliseconds that is in the span and fits 64
bits. -/
theorem isGreatest_ofSpan (d : Span) :
    IsGreatest {n : Nat | n * 1000000 ≤ d.totalNanos ∧ n < UInt64.size}
      (ofSpan d).timeoutMs.toNat := by
  constructor
  · have hfits := (ofSpan d).timeoutMs.toNat_lt
    exact ⟨(le_ofSpan_iff d hfits).1 le_rfl, hfits⟩
  · rintro n ⟨hin, hfits⟩
    exact (le_ofSpan_iff d hfits).2 hin

/-- A longer span has no shorter timeout. -/
theorem ofSpan_le_ofSpan {d d' : Span} (h : d.totalNanos ≤ d'.totalNanos) :
    (ofSpan d).timeoutMs ≤ (ofSpan d').timeoutMs := by
  rcases (isGreatest_ofSpan d).1 with ⟨hin, hfits⟩
  exact UInt64.le_iff_toNat_le.2 ((le_ofSpan_iff d' hfits).2 (hin.trans h))

/-- A timeout is what the span of that many milliseconds is converted to. -/
theorem ofSpan_timeout (o : Options) : ofSpan o.timeout = o := by
  have hfits := Nat.le_pred_of_lt o.timeoutMs.toNat_lt
  have hcount : (ofSpan o.timeout).timeoutMs.toNat = o.timeoutMs.toNat := by
    rw [toNat_ofSpan, timeout, Span.wholeMillis_ofMillis]
    exact min_eq_left hfits
  cases o with
  | mk ms => exact congrArg Options.mk (UInt64.toNat_inj.1 hcount)

/-- The timeout for a span can be used if the span lasts a millisecond. -/
theorem usable_ofSpan_iff (d : Span) : (ofSpan d).Usable ↔ 1000000 ≤ d.totalNanos := by
  have hone : 1 ≤ (ofSpan d).timeoutMs.toNat ↔ 1000000 ≤ d.totalNanos := by
    simpa using le_ofSpan_iff d (show 1 < UInt64.size by decide)
  rw [← hone, Nat.one_le_iff_ne_zero]
  exact not_congr UInt64.toNat_inj.symm

/-- The timeout for a span is the largest number of milliseconds that is not longer than the span
and fits 64 bits.  So longer spans have no shorter timeouts, every timeout comes back from its own
span, and the timeout is accepted if the span lasts a millisecond at least. -/
theorem timeout_conversion :
    (∀ d : Span, IsGreatest {n : Nat | n * 1000000 ≤ d.totalNanos ∧ n < UInt64.size}
      (ofSpan d).timeoutMs.toNat) ∧
    (∀ d d' : Span, d.totalNanos ≤ d'.totalNanos →
      (ofSpan d).timeoutMs ≤ (ofSpan d').timeoutMs) ∧
    (∀ o : Options, ofSpan o.timeout = o) ∧
    ∀ d : Span, (ofSpan d).validate = .ok () ↔ 1000000 ≤ d.totalNanos :=
  ⟨isGreatest_ofSpan, fun _ _ => ofSpan_le_ofSpan, ofSpan_timeout, fun d =>
    (ofSpan d).validate_eq_ok_iff.trans (usable_ofSpan_iff d)⟩

/-- The largest timeout, with a rest that is no whole millisecond, and the longest span there is. -/
theorem timeout_conversion_at_limit :
    let limit : Span := ⟨18446744073709551, 615999999⟩
    let longest : Span := ⟨18446744073709551615, 999999999⟩
    limit.totalNanos ≤ longest.totalNanos ∧
      (ofSpan limit).timeoutMs ≤ (ofSpan longest).timeoutMs ∧
      (ofSpan limit).timeoutMs = 18446744073709551615 := by
  intro limit longest
  have hle : limit.totalNanos ≤ longest.totalNanos := by decide
  exact ⟨hle, timeout_conversion.2.1 limit longest hle, by decide⟩

end Options
end Gate
end AwardsDesk
