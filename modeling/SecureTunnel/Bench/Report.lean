import Mathlib.Algebra.Group.Nat.Defs
import SecureTunnel.Core.Error
import SecureTunnel.Core.Time
import SecureTunnel.General.Rank

/-!
# The report of a benchmark

The latencies that a release is judged by are percentiles by nearest rank: what is
reported was observed, and is the least bound that 95 of 100 samples stay within.

* `percentile95_nearest_rank`: as long as 95 times the number of the samples fits
  into a `usize`, there is such a value, whatever the order of the samples.
* `endpointReport_isLeast`: in a report, the percentile is that of the
  samples listed next to it.
-/

namespace SecureTunnel

/-- What the benchmark is built for. -/
structure Target where
  usizeBits : ℕ
  /-- Arithmetic that overflows panics, instead of wrapping around. -/
  overflowChecks : Bool

inductive Panic
  | noSample
  | overflow
  | outOfBounds
  deriving DecidableEq

namespace Target

def usizeMul (t : Target) (a b : ℕ) : Except Panic ℕ :=
  if a * b < 2 ^ t.usizeBits then .ok (a * b)
  else if t.overflowChecks then .error .overflow
  else .ok (a * b % 2 ^ t.usizeBits)

def usizeSub (t : Target) (a b : ℕ) : Except Panic ℕ :=
  if b ≤ a then .ok (a - b)
  else if t.overflowChecks then .error .overflow
  else .ok (2 ^ t.usizeBits + a - b)

end Target

/-- `percentile_95` -/
def percentile95 (t : Target) (samples : List Duration) : Except Panic Duration :=
  if samples.isEmpty then .error .noSample
  else
    let sorted := samples.insertionSort (· ≤ ·)
    match t.usizeMul 95 sorted.length with
    | .error p => .error p
    | .ok product =>
      let rank := divCeil product 100
      match t.usizeSub rank 1 with
      | .error p => .error p
      | .ok index =>
        match sorted[index]? with
        | none => .error .outOfBounds
        | some d => .ok d

section Percentile

variable {t : Target} {samples : List Duration}

/-- Where nothing overflows, it takes the sample of the nearest rank. -/
theorem percentile95_eq_ok (hne : samples ≠ []) (hfits : 95 * samples.length < 2 ^ t.usizeBits)
    {r : Duration} :
    percentile95 t samples = .ok r ↔
      ranked samples (nearestRank 95 100 samples.length - 1) = some r := by
  have hempty : samples.isEmpty = false := by
    rw [List.isEmpty_eq_false_iff]
    exact hne
  have hpos : 1 ≤ divCeil (95 * samples.length) 100 :=
    nearestRank_pos (p := 95) (by decide) (by decide) (List.length_pos_iff.2 hne)
  rw [percentile95, hempty, if_neg Bool.false_ne_true]
  simp only [Target.usizeMul, Target.usizeSub, List.length_insertionSort, if_pos hfits, if_pos hpos]
  rw [← nearestRank, ← ranked]
  cases ranked samples (nearestRank 95 100 samples.length - 1) with
  | none =>
    constructor
    · intro h
      cases h
    · intro h
      cases h
  | some d =>
    constructor
    · intro h
      rw [Except.ok.inj h]
    · intro h
      rw [Option.some.inj h]

theorem exists_percentile95 (hne : samples ≠ [])
    (hfits : 95 * samples.length < 2 ^ t.usizeBits) : ∃ r, percentile95 t samples = .ok r := by
  have hpos := nearestRank_pos (p := 95) (q := 100) (by decide) (by decide)
    (List.length_pos_iff.2 hne)
  have hle := nearestRank_le (p := 95) (q := 100) (n := samples.length) (by decide) (by decide)
  obtain ⟨r, hr⟩ := exists_ranked (l := samples)
    (k := nearestRank 95 100 samples.length - 1) (by omega)
  exact ⟨r, (percentile95_eq_ok hne hfits).2 hr⟩

end Percentile

/-- The percentile of samples, 95 times whose number fits into a `usize`, is one of
    them: the least duration that 95 of 100 of them stay within. It is the same
    for each order of the samples. -/
theorem percentile95_nearest_rank (t : Target) {samples : List Duration} (hne : samples ≠ [])
    (hfits : 95 * samples.length < 2 ^ t.usizeBits) :
    ∃ r, percentile95 t samples = .ok r ∧ r ∈ samples ∧
      IsLeast {d | 95 * samples.length ≤ 100 * samples.countP (· ≤ d)} r ∧
      ∀ samples' : List Duration, samples'.Perm samples → percentile95 t samples' = .ok r := by
  obtain ⟨r, hr⟩ := exists_percentile95 hne hfits
  have hranked := (percentile95_eq_ok hne hfits).1 hr
  refine ⟨r, hr, mem_of_ranked hranked, isLeast_of_nearestRank (by decide) (by decide) hranked, ?_⟩
  intro samples' hperm
  have hne' : samples' ≠ [] := fun h => hne (List.nil_perm.1 (h ▸ hperm))
  rw [percentile95_eq_ok hne' (hperm.length_eq ▸ hfits), hperm.length_eq, ranked_perm hperm]
  exact hranked

/-- The durations of the source's test, from 1 to 20 milliseconds. -/
def twentyMillis : List Duration :=
  [1, 2, 3, 4, 5, 6, 7, 8, 9, 10, 11, 12, 13, 14, 15, 16, 17, 18, 19, 20].map .fromMillis

theorem percentile95_nearest_rank_twenty :
    ∃ r, percentile95 ⟨64, false⟩ twentyMillis = .ok r ∧ r = .fromMillis 19 ∧
      ∀ samples, samples.Perm twentyMillis → percentile95 ⟨64, false⟩ samples = .ok r := by
  have hne : twentyMillis ≠ [] := by decide
  obtain ⟨r, hr, -, -, hperm⟩ := percentile95_nearest_rank ⟨64, false⟩ hne (by decide)
  have h19 : percentile95 ⟨64, false⟩ twentyMillis = .ok (.fromMillis 19) := by decide +kernel
  exact ⟨r, hr, Except.ok.inj (hr.symm.trans h19), hperm⟩

/-! ## Reports -/

structure EndpointSample where
  connectionSetup : Duration
  firstByte : Duration

structure StreamSample where
  sentBytes : UInt64
  receivedBytes : UInt64
  elapsed : Duration

/-- A report, but for the throughput, which is a floating point number. -/
structure EndpointReport where
  connectionSetupP95Us : ℕ
  firstByteP95Us : ℕ
  firstByteSamplesUs : List ℕ
  streamSentBytes : UInt64
  streamReceivedBytes : UInt64
  streamElapsedUs : ℕ

/-- How a report fails. -/
inductive ReportError
  | panic (p : Panic)
  | bail (text : Text)

/-- The checks of `bidirectional_throughput_bytes_per_second`. -/
def StreamSample.checkThroughput (stream : StreamSample) : Except ReportError Unit :=
  if 2 ^ 64 ≤ stream.sentBytes.toNat + stream.receivedBytes.toNat then
    .error (.bail "bidirectional byte counter overflow".toList)
  else if stream.elapsed.isZero then
    .error (.bail "throughput duration must be non-zero".toList)
  else .ok ()

/-- `endpoint_report` -/
def endpointReport (t : Target) (samples : List EndpointSample) (stream : StreamSample) :
    Except ReportError EndpointReport :=
  if samples.isEmpty then .error (.bail "at least one first-byte sample is required".toList)
  else
    match percentile95 t (samples.map EndpointSample.connectionSetup) with
    | .error p => .error (.panic p)
    | .ok connectionSetup =>
      match percentile95 t (samples.map EndpointSample.firstByte) with
      | .error p => .error (.panic p)
      | .ok firstByte =>
        match stream.checkThroughput with
        | .error e => .error e
        | .ok () => .ok {
          connectionSetupP95Us := connectionSetup.asMicros
          firstByteP95Us := firstByte.asMicros
          firstByteSamplesUs := samples.map (·.firstByte.asMicros)
          streamSentBytes := stream.sentBytes
          streamReceivedBytes := stream.receivedBytes
          streamElapsedUs := stream.elapsed.asMicros }

section Report

variable {t : Target} {samples : List EndpointSample} {stream : StreamSample}
  {report : EndpointReport}

theorem endpointReport_eq_ok (h : endpointReport t samples stream = .ok report) :
    samples ≠ [] ∧
    (∃ r, percentile95 t (samples.map EndpointSample.connectionSetup) = .ok r ∧
      report.connectionSetupP95Us = r.asMicros) ∧
    (∃ r, percentile95 t (samples.map EndpointSample.firstByte) = .ok r ∧
      report.firstByteP95Us = r.asMicros) ∧
    report.firstByteSamplesUs = samples.map (·.firstByte.asMicros) := by
  rw [endpointReport] at h
  split at h
  · cases h
  rename_i hne
  split at h
  · cases h
  rename_i connectionSetup hsetup
  split at h
  · cases h
  rename_i firstByte hfirst
  split at h
  · cases h
  obtain rfl := Except.ok.inj h
  refine ⟨?_, ⟨connectionSetup, hsetup, rfl⟩, ⟨firstByte, hfirst, rfl⟩, rfl⟩
  rintro rfl
  exact hne rfl

/-- Rounding to microseconds and taking the percentile commute: in a report, the
    latency is the nearest rank of those listed. -/
theorem endpointReport_isLeast (hfits : 95 * samples.length < 2 ^ t.usizeBits)
    (h : endpointReport t samples stream = .ok report) :
    IsLeast {us | 95 * samples.length ≤ 100 * within us report.firstByteSamplesUs}
      report.firstByteP95Us := by
  obtain ⟨hne, -, ⟨r, hr, hmicros⟩, hsamples⟩ := endpointReport_eq_ok h
  have hlength : (samples.map EndpointSample.firstByte).length = samples.length :=
    List.length_map ..
  have hranked := (percentile95_eq_ok (by simpa using hne) (by rwa [hlength])).1 hr
  -- The same place, among the microseconds.
  have hmap : report.firstByteSamplesUs =
      (samples.map EndpointSample.firstByte).map Duration.asMicros := by
    rw [hsamples, List.map_map]
    rfl
  have hranked' : ranked report.firstByteSamplesUs
      (nearestRank 95 100 report.firstByteSamplesUs.length - 1) = some report.firstByteP95Us := by
    rw [hmap, ranked_map fun _ _ => Duration.asMicros_mono, List.length_map, hranked, hmicros]
    rfl
  have hcount : report.firstByteSamplesUs.length = samples.length := by
    rw [hmap, List.length_map, hlength]
  have hleast := isLeast_of_nearestRank (by decide) (by decide) hranked'
  rwa [hcount] at hleast

end Report

end SecureTunnel
