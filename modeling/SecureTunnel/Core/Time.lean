import Mathlib.Algebra.Group.Int.Defs
import Mathlib.Algebra.Group.Nat.Defs
import Mathlib.Data.Prod.Lex
import Mathlib.Order.Nat

/-!
# Durations and instants

The values of the clock: a duration has unsigned seconds of 64 bits and
nanoseconds, and is ordered by its seconds first. An instant has signed seconds of
64 bits, so that not every duration can be added to it (`Instant.isSome_checkedAdd`).
-/

namespace SecureTunnel

/-! ## Durations -/

/-- `std::time::Duration` -/
structure Duration where
  secs : UInt64
  nanos : ℕ
  nanos_lt : nanos < 1000000000
  deriving DecidableEq

/-- `Duration::from_secs` -/
def Duration.fromSecs (secs : UInt64) : Duration := ⟨secs, 0, by decide⟩

namespace Duration

/-- `Duration::from_millis` -/
def fromMillis (millis : UInt64) : Duration :=
  ⟨millis / 1000, millis.toNat % 1000 * 1000000, by
    have := Nat.mod_lt millis.toNat (show 0 < 1000 by decide)
    omega⟩

/-- `Duration::as_micros` -/
def asMicros (d : Duration) : ℕ := d.secs.toNat * 1000000 + d.nanos / 1000

/-- `Duration::as_nanos` -/
def asNanos (d : Duration) : ℕ := d.secs.toNat * 1000000000 + d.nanos

theorem asNanos_fromSecs (secs : UInt64) : (fromSecs secs).asNanos = secs.toNat * 1000000000 :=
  Nat.add_zero _

def isZero (d : Duration) : Bool := d.secs = 0 ∧ d.nanos = 0

/-- The fields, in the order in which they are compared. -/
def fields (d : Duration) : ℕ ×ₗ ℕ := toLex (d.secs.toNat, d.nanos)

theorem fields_injective : Function.Injective fields := by
  rintro ⟨secs, nanos, _⟩ ⟨secs', nanos', _⟩ h
  obtain ⟨hsecs, hnanos⟩ := Prod.mk.inj (toLex_inj.1 h)
  obtain rfl := UInt64.toNat.inj hsecs
  obtain rfl : nanos = nanos' := hnanos
  rfl

/-- The derived order. -/
instance : LinearOrder Duration := LinearOrder.lift' fields fields_injective

theorem le_def {d d' : Duration} : d ≤ d' ↔ d.fields ≤ d'.fields := Iff.rfl

/-- Microseconds are in the same order, up to what is rounded. -/
theorem asMicros_mono {d d' : Duration} (h : d ≤ d') : d.asMicros ≤ d'.asMicros := by
  rw [asMicros, asMicros]
  have hnanos := d.nanos_lt
  rcases Prod.Lex.toLex_le_toLex.1 (le_def.1 h) with hlt | ⟨heq, hle⟩
  · have : d.secs.toNat + 1 ≤ d'.secs.toNat := hlt
    omega
  · have heq : d.secs.toNat = d'.secs.toNat := heq
    have hle : d.nanos ≤ d'.nanos := hle
    omega

end Duration

/-! ## Instants -/

/-- `std::time::Instant`, as it counts: seconds, and nanoseconds. -/
structure Instant where
  secs : ℤ
  nanos : ℕ
  secs_le : -2 ^ 63 ≤ secs
  secs_lt : secs < 2 ^ 63
  nanos_lt : nanos < 1000000000

namespace Instant

/-- The seconds of an instant, if they fit. -/
def withNanos (secs : ℤ) (hle : -2 ^ 63 ≤ secs) (nanos : ℕ) (hnanos : nanos < 1000000000) :
    Option Instant :=
  if hlt : secs < 2 ^ 63 then some ⟨secs, nanos, hle, hlt, hnanos⟩ else none

/-- `Instant::checked_add` -/
def checkedAdd (i : Instant) (d : Duration) : Option Instant :=
  if h : i.nanos + d.nanos < 1000000000 then
    withNanos (i.secs + d.secs.toNat) (by have := i.secs_le; omega) (i.nanos + d.nanos) h
  else
    withNanos (i.secs + d.secs.toNat + 1) (by have := i.secs_le; omega)
      (i.nanos + d.nanos - 1000000000) (by have := i.nanos_lt; have := d.nanos_lt; omega)

/-- The nanoseconds that an instant counts. -/
def asNanos (i : Instant) : ℤ := i.secs * 1000000000 + i.nanos

/-- What an instant counts is below this. -/
def limit : ℤ := 2 ^ 63 * 1000000000

theorem asNanos_of_withNanos {secs : ℤ} {hle : -2 ^ 63 ≤ secs} {nanos : ℕ}
    {hnanos : nanos < 1000000000} {j : Instant} (h : withNanos secs hle nanos hnanos = some j) :
    j.asNanos = secs * 1000000000 + nanos := by
  rw [withNanos] at h
  split at h
  · cases h
    rfl
  · cases h

theorem isSome_withNanos {secs : ℤ} {hle : -2 ^ 63 ≤ secs} {nanos : ℕ}
    {hnanos : nanos < 1000000000} : (withNanos secs hle nanos hnanos).isSome = true ↔
      secs * 1000000000 + nanos < limit := by
  rw [withNanos, limit]
  split
  · rename_i hlt
    exact ⟨fun _ => by omega, fun _ => rfl⟩
  · rename_i hnot
    exact ⟨nofun, fun hlt => by omega⟩

/-- The sum counts the nanoseconds of both. -/
theorem asNanos_checkedAdd {i j : Instant} {d : Duration} (h : i.checkedAdd d = some j) :
    j.asNanos = i.asNanos + d.asNanos := by
  rw [checkedAdd] at h
  split at h
  · rw [asNanos_of_withNanos h, asNanos, Duration.asNanos]
    omega
  · rw [asNanos_of_withNanos h, asNanos, Duration.asNanos]
    omega

/-- A duration can be added as long as the sum fits. -/
theorem isSome_checkedAdd {i : Instant} {d : Duration} :
    (i.checkedAdd d).isSome = true ↔ i.asNanos + d.asNanos < limit := by
  rw [checkedAdd, asNanos, Duration.asNanos]
  split
  · rw [isSome_withNanos]
    constructor <;> intro h <;> omega
  · rw [isSome_withNanos]
    constructor <;> intro h <;> omega

theorem checkedAdd_eq_none {i : Instant} {d : Duration} :
    i.checkedAdd d = none ↔ limit ≤ i.asNanos + d.asNanos := by
  rw [← Option.not_isSome_iff_eq_none, isSome_checkedAdd, Int.not_lt]

theorem bind_checkedAdd_eq_none {i : Instant} {d d' : Duration} :
    (i.checkedAdd d).bind (·.checkedAdd d') = none ↔
      limit ≤ i.asNanos + d.asNanos + d'.asNanos := by
  cases h : i.checkedAdd d with
  | none =>
    have hlimit := checkedAdd_eq_none.1 h
    exact ⟨fun _ => by omega, fun _ => rfl⟩
  | some j => rw [Option.bind_some, checkedAdd_eq_none, asNanos_checkedAdd h]

end Instant

end SecureTunnel
