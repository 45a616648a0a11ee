import Mathlib.Algebra.Group.Nat.Defs
import Mathlib.Tactic.Lemma
import Mathlib.Tactic.SplitIfs
import VoiceTurn.Settings.Basic

/-!
# Doubling pauses

The pauses of a policy double from one retry to the next until they reach the cap. Durations are
cut at the longest one that a clock can tell, but the cap of a policy that comes from settings is
shorter than that, so the cut is never seen (`Retry.pause_eq`), and what is left is arithmetic on
unbounded numbers. A clock keeps a duration in two words, the seconds and the nanoseconds; computed
there, with all the limits of words, a pause is the same (`Span.toNanos_pause`).
-/

namespace VoiceTurn.Bus

namespace Retry

/-- The doublings that have been made before a retry; retries are counted from one. -/
def doublings (retry : Nat) : Nat := min (max retry 1 - 1) maxDoublings

lemma toNat_le_longestDuration (word : UInt64) : word.toNat ≤ longestDuration := by
  have hword : word.toNat < UInt64.size := word.toNat_lt
  unfold longestDuration
  omega

variable {r : Retry}

/-- With a cap that is a duration, cutting at `longestDuration` makes no difference. -/
lemma pause_eq (hcap : r.cap ≤ longestDuration) (retry : Nat) :
    r.pause retry = min (r.initial * 2 ^ doublings retry) r.cap := by
  have hdoublings : min (retry - 1) maxDoublings = doublings retry := by
    unfold doublings
    omega
  rw [pause, multiplyDuration, hdoublings, Nat.min_assoc, Nat.min_eq_right hcap]
  rfl

lemma doublings_mono {retry later : Nat} (h : retry ≤ later) :
    doublings retry ≤ doublings later := by
  unfold doublings
  omega

/-- Up to `maxDoublings` every doubling counts. -/
lemma doublings_succ {retry : Nat} (hpos : 1 ≤ retry) (hle : retry ≤ maxDoublings) :
    doublings (retry + 1) = doublings retry + 1 := by
  unfold doublings
  omega

lemma pause_mono (hcap : r.cap ≤ longestDuration) {retry later : Nat} (h : retry ≤ later) :
    r.pause retry ≤ r.pause later := by
  have hpower : 2 ^ doublings retry ≤ 2 ^ doublings later :=
    Nat.pow_le_pow_right (by decide) (doublings_mono h)
  have hproduct := Nat.mul_le_mul_left r.initial hpower
  rw [pause_eq hcap, pause_eq hcap]
  omega

/-- One more of the `doublings` doubles the pause, as far as the cap lets it. -/
lemma pause_succ (hcap : r.cap ≤ longestDuration) {retry : Nat} (hpos : 1 ≤ retry)
    (hle : retry ≤ maxDoublings) : r.pause (retry + 1) = min (2 * r.pause retry) r.cap := by
  have hdouble : r.initial * 2 ^ doublings (retry + 1) =
      2 * (r.initial * 2 ^ doublings retry) := by
    rw [doublings_succ hpos hle, Nat.pow_succ, ← Nat.mul_assoc, Nat.mul_comm]
  rw [pause_eq hcap, pause_eq hcap, hdouble]
  omega

end Retry

/-! ## Durations in words -/

/-- A duration as a clock keeps it: whole seconds, and the nanoseconds beyond them. -/
structure Span where
  seconds : UInt64
  nanos : UInt32
  nanos_lt : nanos.toNat < 1000000000

namespace Span

lemma toNat_nanosOfMillis (ms : UInt64) :
    ((ms % 1000).toUInt32 * 1000000).toNat = ms.toNat % 1000 * 1000000 := by
  have hmillis : ms.toNat % 1000 % 2 ^ 32 = ms.toNat % 1000 := Nat.mod_eq_of_lt (by omega)
  have hnanos : ms.toNat % 1000 * 1000000 < 2 ^ 32 := by omega
  simp only [UInt32.toNat_mul, UInt64.toNat_toUInt32, UInt64.toNat_mod, UInt64.reduceToNat,
    UInt32.reduceToNat, hmillis]
  exact Nat.mod_eq_of_lt hnanos

def ofMillis (ms : UInt64) : Span where
  seconds := ms / 1000
  nanos := (ms % 1000).toUInt32 * 1000000
  nanos_lt := by
    rw [toNat_nanosOfMillis]
    omega

def longest : Span := ⟨18446744073709551615, 999999999, by decide⟩

/-- A multiple of a duration, or `longest` when its seconds do not fit a word. -/
def times (d : Span) (k : UInt32) : Span :=
  let nanos := d.nanos.toUInt64 * k.toUInt64
  let seconds := d.seconds.toNat * k.toNat + (nanos / 1000000000).toNat
  if seconds < UInt64.size then
    { seconds := UInt64.ofNat seconds
      nanos := (nanos % 1000000000).toUInt32
      nanos_lt := by
        simp only [UInt64.toNat_toUInt32, UInt64.toNat_mod, UInt64.reduceToNat]
        omega }
  else longest

def shorter (d e : Span) : Span :=
  if d.seconds < e.seconds ∨ d.seconds = e.seconds ∧ d.nanos ≤ e.nanos then d else e

/-- The pause before a retry, computed in words: the first pause `times` a power of two, and no
longer than the cap. -/
def pause (initial cap : UInt64) (retry : UInt32) : Span :=
  ((ofMillis initial).times (1 <<< min (retry - min retry 1) 31)).shorter (ofMillis cap)

def toNanos (d : Span) : Nat := d.seconds.toNat * 1000000000 + d.nanos.toNat

lemma toNanos_ofMillis (ms : UInt64) : (ofMillis ms).toNanos = ms.toNat * 1000000 := by
  simp only [toNanos, ofMillis, toNat_nanosOfMillis, UInt64.toNat_div, UInt64.reduceToNat]
  omega

lemma toNanos_shorter (d e : Span) : (d.shorter e).toNanos = min d.toNanos e.toNanos := by
  have hd := d.nanos_lt
  have he := e.nanos_lt
  unfold shorter toNanos
  simp only [UInt64.lt_iff_toNat_lt, ← UInt64.toNat_inj, UInt32.le_iff_toNat_le]
  split_ifs with h
  · omega
  · omega

lemma toNanos_longest : longest.toNanos = 18446744073709551615999999999 := rfl

/-- A multiple is as long as it is in unbounded numbers, but no longer than `longest`. -/
lemma toNanos_times (d : Span) (k : UInt32) :
    (d.times k).toNanos = min (d.toNanos * k.toNat) longest.toNanos := by
  -- the product of the nanoseconds never leaves its word, only the one of the seconds can
  have hnanos : (d.nanos.toUInt64 * k.toUInt64).toNat = d.nanos.toNat * k.toNat := by
    have hlt := d.nanos_lt
    have hle : d.nanos.toNat * k.toNat ≤ 1000000000 * 2 ^ 32 :=
      Nat.mul_le_mul (Nat.le_of_lt hlt) (Nat.le_of_lt k.toNat_lt)
    rw [UInt64.toNat_mul, UInt32.toNat_toUInt64, UInt32.toNat_toUInt64]
    omega
  have hproduct : d.toNanos * k.toNat =
      d.seconds.toNat * k.toNat * 1000000000 + d.nanos.toNat * k.toNat := by
    rw [toNanos, Nat.add_mul, Nat.mul_right_comm]
  rw [hproduct, toNanos_longest]
  unfold times
  simp only [UInt64.toNat_div, UInt64.reduceToNat, hnanos]
  generalize d.seconds.toNat * k.toNat = seconds
  split_ifs with hfits
  · simp only [toNanos, UInt64.toNat_ofNat_of_lt' hfits, UInt64.toNat_toUInt32, UInt64.toNat_mod,
      UInt64.reduceToNat, hnanos]
    generalize d.nanos.toNat * k.toNat = nanos at hfits ⊢
    have hsize : UInt64.size = 18446744073709551616 := rfl
    omega
  · rw [toNanos_longest]
    have hsize : UInt64.size = 18446744073709551616 := rfl
    omega

lemma toNat_factor (retry : UInt32) :
    ((1 : UInt32) <<< min (retry - min retry 1) 31).toNat = 2 ^ Retry.doublings retry.toNat := by
  have hmin (a b : UInt32) : (min a b).toNat = min a.toNat b.toNat := by
    show (if a ≤ b then a else b).toNat = min a.toNat b.toNat
    simp only [UInt32.le_iff_toNat_le]
    split_ifs <;> omega
  have hshift : (min (retry - min retry 1) 31).toNat = Retry.doublings retry.toNat := by
    have hone : min retry 1 ≤ retry := by
      rw [UInt32.le_iff_toNat_le, hmin]
      exact Nat.min_le_left _ _
    rw [hmin, UInt32.toNat_sub_of_le _ _ hone, hmin]
    simp only [UInt32.reduceToNat, Retry.doublings, Retry.maxDoublings]
    omega
  have hle : Retry.doublings retry.toNat ≤ 31 := Nat.min_le_right _ _
  have hlt : 2 ^ Retry.doublings retry.toNat ≤ 2 ^ 31 := Nat.pow_le_pow_right (by decide) hle
  have hbits : Retry.doublings retry.toNat % 32 = Retry.doublings retry.toNat :=
    Nat.mod_eq_of_lt (by omega)
  have hfits : 2 ^ Retry.doublings retry.toNat % 2 ^ 32 = 2 ^ Retry.doublings retry.toNat :=
    Nat.mod_eq_of_lt (by omega)
  simp only [UInt32.toNat_shiftLeft, hshift, hbits, UInt32.reduceToNat, Nat.one_shiftLeft, hfits]

/-- A `Span.pause`, computed in words, is as long as it is in unbounded numbers. -/
lemma toNanos_pause (initial cap : UInt64) (retry : UInt32) :
    (pause initial cap retry).toNanos =
      min (initial.toNat * 2 ^ Retry.doublings retry.toNat) cap.toNat * 1000000 := by
  have hcap : cap.toNat < 2 ^ 64 := cap.toNat_lt
  rw [pause, toNanos_shorter, toNanos_times, toNat_factor, toNanos_ofMillis, toNanos_ofMillis,
    toNanos_longest, Nat.mul_right_comm]
  generalize initial.toNat * 2 ^ Retry.doublings retry.toNat = product
  omega

end Span

end VoiceTurn.Bus

namespace VoiceTurn.RetrySettings

open Bus.Retry (maxDoublings)

/-- For whatever numbers in the settings, a pause is the first one times two to the number of
`doublings`, or the cap if that is shorter, and `Span.pause`, computed in words, is just as long.
Pauses never get shorter, and each of the first 31 is followed by its double or by the cap. -/
theorem pauses_double_up_to_cap (s : RetrySettings) :
    (∀ retry : UInt32, s.policy.pause retry.toNat =
      min (s.initialPause.toNat * 2 ^ min (max retry.toNat 1 - 1) 31) s.longestPause.toNat) ∧
    (∀ retry : UInt32, (Bus.Span.pause s.initialPause s.longestPause retry).toNanos =
      s.policy.pause retry.toNat * 1000000) ∧
    (∀ retry later : UInt32, retry ≤ later →
      s.policy.pause retry.toNat ≤ s.policy.pause later.toNat) ∧
    (∀ retry : UInt32, s.policy.pause retry.toNat ≤ s.longestPause.toNat) ∧
    ∀ retry : UInt32, 1 ≤ retry → retry ≤ 31 →
      s.policy.pause (retry + 1).toNat =
        min (2 * s.policy.pause retry.toNat) s.longestPause.toNat := by
  have hcap : s.policy.cap ≤ Bus.longestDuration := Bus.Retry.toNat_le_longestDuration _
  refine ⟨fun retry => Bus.Retry.pause_eq hcap retry.toNat, fun retry => ?_,
    fun retry later h => Bus.Retry.pause_mono hcap (UInt32.le_iff_toNat_le.1 h),
    fun retry => Nat.min_le_right _ _, fun retry hpos hle => ?_⟩
  · rw [Bus.Span.toNanos_pause, Bus.Retry.pause_eq hcap]
    rfl
  · have hpos' : 1 ≤ retry.toNat := UInt32.le_iff_toNat_le.1 hpos
    have hle' : retry.toNat ≤ maxDoublings := UInt32.le_iff_toNat_le.1 hle
    have hnext : (retry + 1).toNat = retry.toNat + 1 := by
      have hmod : (retry + 1).toNat = (retry.toNat + 1) % 2 ^ 32 := UInt32.toNat_add retry 1
      unfold maxDoublings at hle'
      omega
    rw [hnext]
    exact Bus.Retry.pause_succ hcap hpos' hle'

/-- The second pause is the last one that can be told apart from the longest one of 64 bits. -/
theorem pauses_double_up_to_cap_at_end_of_word :
    let s : RetrySettings := ⟨3, 9223372036854775807, 18446744073709551615⟩
    (1 : UInt32) ≤ 2 ∧ (2 : UInt32) ≤ 31 ∧ s.policy.pause 2 = 18446744073709551614 ∧
      s.policy.pause 3 = min (2 * s.policy.pause 2) 18446744073709551615 ∧
      s.policy.pause 2 ≤ s.policy.pause 3 := by
  intro s
  obtain ⟨hexact, -, hmono, -, hdouble⟩ := pauses_double_up_to_cap s
  exact ⟨by decide, by decide, (hexact 2).trans (by decide +kernel),
    hdouble 2 (by decide) (by decide),
    hmono 2 3 (by decide)⟩

end VoiceTurn.RetrySettings
