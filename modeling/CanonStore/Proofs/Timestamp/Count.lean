import CanonStore.Proofs.Canonical.Fields
import CanonStore.Timestamp
import Mathlib.Data.Prod.Lex

/-!
# Timestamps as counts of nanoseconds

A timestamp is the division of a count of nanoseconds by those of a second, with the seconds rounded down. It is
put together again without loss, and every count whose seconds are a 64-bit number is that of a timestamp. Since
the nanoseconds stay below a second, counts are ordered as the seconds are, and within one second as the
nanoseconds are.

The canonical text of a timestamp tells both parts, so equal timestamps, equal counts and equal canonical texts are
one and the same. Main statement: `ofUnixNanos?_exact`.
-/

namespace CanonStore.Timestamp

open Value (canonicalEquals)

variable {a b t : Timestamp} {n : Int}

/-! ## Counts -/

/-- A count of nanoseconds is taken apart into the seconds and nanoseconds that it was put together from. -/
theorem ofUnixNanos?_toUnixNanos (t : Timestamp) : ofUnixNanos? t.toUnixNanos = .ok t := by
  obtain ⟨seconds, nanos, hge, hle, hlt⟩ := t
  have hseconds : (seconds * nanosPerSecond + nanos) / nanosPerSecond = seconds := by
    unfold nanosPerSecond at *
    omega
  have hnanos : ((seconds * nanosPerSecond + nanos) % nanosPerSecond).toNat = nanos := by
    unfold nanosPerSecond at *
    omega
  simp only [ofUnixNanos?, toUnixNanos, hseconds, hnanos, ofParts?]
  rw [dif_pos ⟨hge, hle, hlt⟩]

/-- The timestamp of a count has this count. -/
theorem toUnixNanos_of_ofUnixNanos? (h : ofUnixNanos? n = .ok t) : t.toUnixNanos = n := by
  have hn : n / nanosPerSecond * nanosPerSecond + (n % nanosPerSecond).toNat = n := by
    unfold nanosPerSecond
    omega
  simp only [ofUnixNanos?, ofParts?] at h
  split at h
  · next parts hparts =>
    split at hparts
    · cases hparts
      cases h
      exact hn
    · cases hparts
  · cases h

/-- A count of nanoseconds has a timestamp if its whole seconds are a 64-bit number. -/
theorem exists_ofUnixNanos?_iff (n : Int) :
    (∃ t, ofUnixNanos? n = .ok t) ↔
      minTimestampSeconds ≤ n / nanosPerSecond ∧ n / nanosPerSecond ≤ maxTimestampSeconds := by
  constructor
  · rintro ⟨t, ht⟩
    obtain rfl := toUnixNanos_of_ofUnixNanos? ht
    have hseconds : t.toUnixNanos / nanosPerSecond = t.seconds := by
      have hlt := t.nanos_lt
      unfold toUnixNanos nanosPerSecond at *
      omega
    rw [hseconds]
    exact ⟨t.seconds_ge, t.seconds_le⟩
  · rintro ⟨hge, hle⟩
    have hlt : (n % nanosPerSecond).toNat < nanosPerSecond := by
      unfold nanosPerSecond
      omega
    -- Seconds in range make a timestamp, and the count is that of the timestamp.
    have hn : toUnixNanos ⟨n / nanosPerSecond, (n % nanosPerSecond).toNat, hge, hle, hlt⟩ = n := by
      unfold toUnixNanos nanosPerSecond
      dsimp only
      omega
    rw [← hn]
    exact ⟨_, ofUnixNanos?_toUnixNanos _⟩

theorem toUnixNanos_inj : a.toUnixNanos = b.toUnixNanos ↔ a = b := by
  constructor
  · intro h
    have ha := ofUnixNanos?_toUnixNanos a
    rw [h, ofUnixNanos?_toUnixNanos b] at ha
    exact (Except.ok.inj ha).symm
  · rintro rfl
    rfl

/-- Counts are ordered by the seconds first. -/
theorem toUnixNanos_lt_iff :
    a.toUnixNanos < b.toUnixNanos ↔ toLex (a.seconds, a.nanos) < toLex (b.seconds, b.nanos) := by
  have ha := a.nanos_lt
  have hb := b.nanos_lt
  rw [Prod.Lex.toLex_lt_toLex]
  unfold toUnixNanos nanosPerSecond at *
  dsimp only
  omega

/-! ## Canonical texts -/

/-- The document that a timestamp dumps to. -/
def document (t : Timestamp) : Json := .object [("seconds", .int t.seconds), ("nanos", .int t.nanos)]

/-- An integer of 64 bits is short enough to be written. -/
theorem isOversized_eq_false (hge : minTimestampSeconds ≤ n) (hle : n ≤ maxTimestampSeconds) :
    Json.isOversized n = false := by
  unfold minTimestampSeconds at hge
  unfold maxTimestampSeconds at hle
  rw [Json.isOversized_eq_false_iff, Numeral.length_le_iff (by decide)]
  have hpow : 10 ^ 19 ≤ 10 ^ Json.maxDigits := Nat.pow_le_pow_right (by decide) (by decide)
  omega

theorem readable_document (t : Timestamp) : Json.Readable Canonical.maxDepth t.document := by
  have hnanos := t.nanos_lt
  unfold nanosPerSecond at hnanos
  refine ⟨by decide, isOversized_eq_false t.seconds_ge t.seconds_le, isOversized_eq_false ?_ ?_, trivial⟩
  · unfold minTimestampSeconds
    omega
  · unfold maxTimestampSeconds
    omega

theorem canonicalText_toValue (t : Timestamp) : t.toValue.canonicalText = .ok t.document.write :=
  RecordType.canonicalText_record_iff.mpr ⟨_, rfl, readable_document t, rfl⟩

/-- Timestamps with one document have the same parts. -/
theorem write_document_inj : a.document.write = b.document.write ↔ a = b := by
  constructor
  · intro h
    have hsame := Json.same_of_write_eq (readable_document a).loads (readable_document b).loads h
    have hkeys : (["seconds", "nanos"] : List Text).Nodup := by decide
    have hseconds : a.seconds = b.seconds := Json.same_of_mem hsame hkeys (.head _) (.head _)
    have hnanos : (a.nanos : Int) = b.nanos :=
      Json.same_of_mem hsame hkeys (.tail _ (.head _)) (.tail _ (.head _))
    obtain ⟨seconds, nanos, _, _, _⟩ := a
    obtain ⟨_, _, _, _, _⟩ := b
    obtain rfl := hseconds
    obtain rfl := Int.ofNat_inj.mp hnanos
    rfl
  · rintro rfl
    rfl

theorem canonicalEquals_toValue (a b : Timestamp) : canonicalEquals a.toValue b.toValue = .ok (decide (a = b)) := by
  rw [canonicalEquals, canonicalText_toValue, canonicalText_toValue]
  simp only [write_document_inj]

/-! ## Counts and texts together -/

/-- A count of nanoseconds has a timestamp exactly if it lies within the 64-bit seconds; the timestamp has this
count, and it is the only one. Counts are ordered as seconds and nanoseconds one after the other. Timestamps are
equal exactly if their counts are, and exactly if they are canonically equal. -/
theorem ofUnixNanos?_exact :
    (∀ n : Int, ((∃ t, ofUnixNanos? n = .ok t) ↔ -2 ^ 63 * 10 ^ 9 ≤ n ∧ n < 2 ^ 63 * 10 ^ 9) ∧
      ∀ t, ofUnixNanos? n = .ok t → 0 ≤ t.nanos ∧ t.nanos < 10 ^ 9 ∧ t.toUnixNanos = n) ∧
    (∀ t : Timestamp, ofUnixNanos? t.toUnixNanos = .ok t) ∧
    ∀ a b : Timestamp,
      (a.toUnixNanos < b.toUnixNanos ↔ toLex (a.seconds, a.nanos) < toLex (b.seconds, b.nanos)) ∧
      (a = b ↔ a.toUnixNanos = b.toUnixNanos) ∧
      canonicalEquals a.toValue b.toValue = .ok (decide (a = b)) := by
  refine ⟨fun n => ⟨?_, fun t ht => ⟨Nat.zero_le _, t.nanos_lt, toUnixNanos_of_ofUnixNanos? ht⟩⟩,
    ofUnixNanos?_toUnixNanos,
    fun a b => ⟨toUnixNanos_lt_iff, toUnixNanos_inj.symm, canonicalEquals_toValue a b⟩⟩
  rw [exists_ofUnixNanos?_iff]
  unfold minTimestampSeconds maxTimestampSeconds nanosPerSecond
  omega

/-- The first count of all, and the one before it. -/
theorem ofUnixNanos?_exact_first :
    (∃ t, ofUnixNanos? (-9223372036854775808000000000) = .ok t ∧ 0 ≤ t.nanos ∧ t.nanos < 10 ^ 9 ∧
      t.toUnixNanos = -9223372036854775808000000000) ∧
    ¬ ∃ t, ofUnixNanos? (-9223372036854775808000000001) = .ok t := by
  obtain ⟨hcounts, _⟩ := ofUnixNanos?_exact
  obtain ⟨hexists, hparts⟩ := hcounts (-9223372036854775808000000000)
  obtain ⟨t, ht⟩ := hexists.mpr (by decide)
  exact ⟨⟨t, ht, hparts t ht⟩, mt (hcounts (-9223372036854775808000000001)).1.mp (by decide)⟩

end CanonStore.Timestamp
