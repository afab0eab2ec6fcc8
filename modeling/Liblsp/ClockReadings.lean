import Liblsp.Egroup
import Mathlib.Tactic.IntervalCases

/-!
# What the clock functions measure

Callers subtract two readings of `lsp_gettime_ms` or `lsp_gettime_s`.  The
conversions of a `timespec` use wrong factors for its nanoseconds and for its
seconds, so the differences are right only where these two do not count.
-/

namespace Liblsp

open Base

/-- `lsp_gettime_s`, given what `clock_gettime` reads. -/
def lspGettimeS : Option Timespec → UInt32
  | none => 0
  | some ts => toUint32 ts.tvSec * 1000

namespace Timespec

/-- What `clock_gettime` reads. -/
structure IsReading (ts : Timespec) : Prop where
  sec_nonneg : 0 ≤ ts.tvSec
  nsec_nonneg : 0 ≤ ts.tvNsec
  nsec_lt : ts.tvNsec < 1000000000

def nanos (ts : Timespec) : Int := ts.tvSec * 1000000000 + ts.tvNsec

/-- The whole milliseconds. -/
def millis (ts : Timespec) : Int := ts.nanos / 1000000

theorem millis_eq (ts : Timespec) :
    ts.millis = ts.tvSec * 1000 + ts.tvNsec / 1000000 := by
  simp only [millis, nanos]
  omega

end Timespec

/-- The differences of two readings of the clock functions are the times that
have passed. -/
structure MeasuresElapsed (earlier later : Timespec) : Prop where
  millis : lspGettimeMs (some later) - lspGettimeMs (some earlier) =
    toUint32 (later.millis - earlier.millis)
  within : later.millis - earlier.millis < 4294967296 →
    ((lspGettimeMs (some later) - lspGettimeMs (some earlier)).toNat : Int) =
      later.millis - earlier.millis
  seconds : lspGettimeS (some later) - lspGettimeS (some earlier) =
    toUint32 (later.tvSec - earlier.tvSec)

theorem lspGettimeMs_eq (ts : Timespec) :
    lspGettimeMs (some ts) =
      toUint32 (ts.tvSec * 1000 + ts.tvNsec * 1000000) := by
  rw [toUint32_add, toUint32_mul, toUint32_mul]
  rfl

theorem lspGettimeS_eq (ts : Timespec) :
    lspGettimeS (some ts) = toUint32 (ts.tvSec * 1000) := by
  rw [toUint32_mul]
  rfl

/-- The factors of the two conversions have no small common multiple modulo
`2 ^ 32`. -/
private theorem no_small_multiple {quotient rest turns : Int}
    (above : -16 < quotient) (below : quotient < 16)
    (low : -1000000 < rest) (high : rest < 1000000)
    (same : 999999999999 * quotient + 15625 * rest = 67108864 * turns) :
    quotient = 0 ∧ rest = 0 := by
  -- 15625 times 12738873 is 1 modulo 2 ^ 26.
  obtain ⟨shift, inverted⟩ : ∃ shift,
      rest = 15847737 * quotient + 67108864 * shift :=
    ⟨12738873 * turns - 2966 * rest - 189824000001 * quotient, by omega⟩
  clear same
  interval_cases quotient <;> omega

private theorem nsec_eq_of_congruent {earlier later : Int}
    (nonneg : 0 ≤ earlier) (lt : earlier < 1000000000)
    (nonneg' : 0 ≤ later) (lt' : later < 1000000000)
    (same : ((later - earlier) * 1000000 -
      (later / 1000000 - earlier / 1000000)) % 4294967296 = 0) :
    earlier = later := by
  obtain ⟨quotient, multiple⟩ : ∃ quotient,
      later / 1000000 - earlier / 1000000 = 64 * quotient := by
    refine ⟨(later / 1000000 - earlier / 1000000) / 64, ?_⟩
    omega
  let rest := later - earlier - 64000000 * quotient
  let turns := ((later - earlier) * 1000000 -
    (later / 1000000 - earlier / 1000000)) / 4294967296
  have split : 999999999999 * quotient + 15625 * rest =
      67108864 * turns := by
    omega
  have zero := @no_small_multiple quotient rest turns (by omega) (by omega)
    (by omega) (by omega) split
  omega

section Measures

variable {earlier later : Timespec}

theorem millis_measured_iff (reading : earlier.IsReading)
    (reading' : later.IsReading) :
    lspGettimeMs (some later) - lspGettimeMs (some earlier) =
        toUint32 (later.millis - earlier.millis) ↔
      earlier.tvNsec = later.tvNsec := by
  rw [lspGettimeMs_eq, lspGettimeMs_eq, ← toUint32_sub, toUint32_eq_iff,
    later.millis_eq, earlier.millis_eq]
  constructor
  · intro same
    apply nsec_eq_of_congruent reading.nsec_nonneg reading.nsec_lt
      reading'.nsec_nonneg reading'.nsec_lt
    rw [← same]
    congr 1
    omega
  · intro same
    rw [same]
    omega

theorem seconds_measured_iff :
    lspGettimeS (some later) - lspGettimeS (some earlier) =
        toUint32 (later.tvSec - earlier.tvSec) ↔
      (later.tvSec - earlier.tvSec) % 4294967296 = 0 := by
  rw [lspGettimeS_eq, lspGettimeS_eq, ← toUint32_sub, toUint32_eq_iff]
  omega

end Measures

/-- Two readings are measured right exactly when they have the same
nanoseconds and the same seconds modulo `2 ^ 32`. -/
theorem measuresElapsed_iff {earlier later : Timespec}
    (reading : earlier.IsReading) (reading' : later.IsReading)
    (ordered : earlier.nanos ≤ later.nanos) :
    MeasuresElapsed earlier later ↔
      earlier.tvNsec = later.tvNsec ∧
        (later.tvSec - earlier.tvSec) % 4294967296 = 0 := by
  constructor
  · intro measures
    exact ⟨(millis_measured_iff reading reading').mp measures.millis,
      seconds_measured_iff.mp measures.seconds⟩
  · rintro ⟨sameNsec, sameSec⟩
    have millis := (millis_measured_iff reading reading').mpr sameNsec
    constructor
    · exact millis
    · intro within
      have nonneg : 0 ≤ later.millis - earlier.millis := by
        simp only [Timespec.millis]
        omega
      rw [millis, toUint32_toNat, Int.emod_eq_of_lt nonneg within,
        Int.toNat_of_nonneg nonneg]
    · exact seconds_measured_iff.mpr sameSec

/-- A reading against itself. -/
theorem measuresElapsed_same_reading :
    MeasuresElapsed ⟨7, 500000000⟩ ⟨7, 500000000⟩ :=
  (measuresElapsed_iff ⟨by decide, by decide, by decide⟩
    ⟨by decide, by decide, by decide⟩ (by decide)).mpr (by decide)

/-- One millisecond later `lsp_gettime_ms` is off by more than forty days. -/
theorem one_millisecond_mismeasured :
    (⟨7, 1000000⟩ : Timespec).millis - (⟨7, 0⟩ : Timespec).millis = 1 ∧
      lspGettimeMs (some ⟨7, 1000000⟩) - lspGettimeMs (some ⟨7, 0⟩) =
        3567587328 ∧
      ¬MeasuresElapsed ⟨7, 0⟩ ⟨7, 1000000⟩ := by
  refine ⟨by decide, by decide, ?_⟩
  intro measures
  exact absurd measures.millis (by decide)

end Liblsp
