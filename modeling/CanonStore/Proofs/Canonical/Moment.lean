import CanonStore.Proofs.Canonical.Text
import CanonStore.Proofs.Timestamp.Canonical
import CanonStore.Proofs.Value.Storable

/-!
# Canonical texts and instants

An instant is a number of microseconds since the epoch (`Moment.toMicros`), on whatever clock a moment shows it. To
convert a moment into UTC keeps the instant, and among the moments in UTC each instant has one moment only. The
canonical text can be read back as seconds and nanoseconds in UTC, with a year of any number of digits. So moments
have one canonical text exactly if they are one instant, and under a key that is a text they are canonically equal
exactly then. Main statement: `canonicalText?_eq_iff_toMicros`.
-/

namespace CanonStore

open Timestamp (readText? readText?_utcText readFraction?_microText fillYear fillYear_dateClock
  canonicalText?_of_toUtc?)
open Value (canonicalEquals)

variable {m u a b v w : Moment} {s r : Text}

namespace Moment

/-! ## Instants -/

/-- In UTC the instant is the same. -/
theorem toMicros_of_toUtc? (h : m.toUtc? = some u) : u.toMicros = m.toMicros := by
  unfold toUtc? at h
  split at h
  · next hoffset =>
    cases h
    unfold toMicros
    rw [hoffset]
    rfl
  · next offset hoffset =>
    dsimp only at h
    split at h
    · next hin =>
      cases h
      rw [toMicros_of_offset_zero rfl, localSeconds_ofSeconds hin, toMicros, hoffset, Option.elim_some]
      simp only [ofSeconds]
      omega
    · cases h

/-- An instant has one moment in UTC. -/
theorem eq_of_toMicros_eq (hv : v.isValid) (hw : w.isValid) (hv' : v.offset = some 0) (hw' : w.offset = some 0)
    (h : v.toMicros = w.toMicros) : v = w := by
  obtain ⟨_, ⟨_, _, _, hmicro⟩, _⟩ := isValid_iff.mp hv
  obtain ⟨_, ⟨_, _, _, hmicro'⟩, _⟩ := isValid_iff.mp hw
  rw [toMicros_of_offset_zero hv', toMicros_of_offset_zero hw'] at h
  have hseconds : v.localSeconds = w.localSeconds := by omega
  have hmicros : v.micro = w.micro := by omega
  calc v = ofSeconds v.localSeconds v.micro := by rw [ofSeconds_localSeconds hv, ← hv']
    _ = ofSeconds w.localSeconds w.micro := by rw [hseconds, hmicros]
    _ = w := by rw [ofSeconds_localSeconds hw, ← hw']

/-! ## Reading the canonical text -/

/-- The canonical text with its year filled up tells the seconds and microseconds of the moment in UTC. -/
theorem readText?_canonicalText (hu : u.isValid) (hutc : m.toUtc? = some u) (h : m.canonicalText? = some s) :
    readText? (fillYear s) = some (u.localSeconds, u.micro * 1000) := by
  rw [canonicalText?_of_toUtc? hutc] at h
  obtain rfl := Option.some.inj h
  rw [List.append_assoc _ _ ("Z" : Text), fillYear_dateClock, ← List.append_assoc]
  exact readText?_utcText hu (readFraction?_microText hu)

/-- Moments have one canonical text exactly if they are one instant. -/
theorem canonicalText?_eq_iff (ha : a.isValid) (hb : b.isValid) (hv : a.toUtc? = some v) (hw : b.toUtc? = some w)
    (hs : a.canonicalText? = some s) (hr : b.canonicalText? = some r) : s = r ↔ a.toMicros = b.toMicros := by
  obtain ⟨hvalid, hoffset⟩ := isValid_of_toUtc? ha hv
  obtain ⟨hvalid', hoffset'⟩ := isValid_of_toUtc? hb hw
  rw [← toMicros_of_toUtc? hv, ← toMicros_of_toUtc? hw]
  constructor
  · rintro rfl
    have hread := readText?_canonicalText hvalid hv hs
    rw [readText?_canonicalText hvalid' hw hr, Option.some.injEq, Prod.mk.injEq] at hread
    obtain ⟨hseconds, hnanos⟩ := hread
    rw [toMicros_of_offset_zero hoffset, toMicros_of_offset_zero hoffset']
    omega
  · intro h
    obtain rfl := eq_of_toMicros_eq hvalid hvalid' hoffset hoffset' h
    rw [canonicalText?_of_toUtc? hv] at hs
    rw [canonicalText?_of_toUtc? hw] at hr
    exact Option.some.inj (hs.symm.trans hr)

end Moment

namespace Value

/-! ## Dictionaries of one moment -/

/-- The canonical text of a dictionary whose single value is a moment. -/
theorem canonicalText_entry {k : Value} {l : Label} (hk : Label.ofValue? k = some l) (hs : m.canonicalText? = some s) :
    (dict [(k, .moment m)]).canonicalText = .ok (Json.object [(l.text, .text s)]).write := by
  have hvalue : ∀ depth place, Canonical.ofValueAt depth place (.moment m) = .ok (.text (.plain s)) := by
    intro depth place
    rw [Canonical.ofValueAt, hs]
  exact canonicalText_eq_ok_iff.mpr ⟨.object [(l, .text (.plain s))],
    Canonical.ofValueAt_dict_eq_ok_iff.mpr
      ⟨by decide, _, (Canonical.ofEntries_eq_ok_iff _ _).mpr (.cons ⟨hk, hvalue _ _⟩ .nil), rfl⟩, rfl, rfl⟩

/-- A dictionary with a canonical text has keys that are texts. -/
theorem isSome_text?_of_canonicalText {k v : Value} (h : (dict [(k, v)]).canonicalText = .ok s) : k.text?.isSome := by
  obtain ⟨c, hc, _⟩ := canonicalText_eq_ok_iff.mp h
  obtain ⟨_, ms, hms, _⟩ := Canonical.ofValueAt_dict_eq_ok_iff.mp hc
  obtain _ | ⟨⟨hk, _⟩, _⟩ := (Canonical.ofEntries_eq_ok_iff _ _).mp hms
  rw [Canonical.text?_of_ofValue? hk]
  rfl

/-- Under one key, texts are written alike only if they are one text. -/
theorem write_entry_inj {key : Text} :
    (Json.object [(key, .text s)]).write = (Json.object [(key, .text r)]).write ↔ s = r := by
  have hreadable : ∀ t : Text, Json.Readable Json.maxDepth (.object [(key, .text t)]) :=
    fun _ => ⟨by decide, trivial, trivial⟩
  constructor
  · intro h
    have hsame := Json.same_of_write_eq (hreadable s) (hreadable r) h
    exact Json.same_of_mem hsame (List.nodup_singleton key) (.head _) (.head _)
  · rintro rfl
    rfl

end Value

namespace Moment

/-- Moments that have a date in UTC have canonical texts, which are one text exactly if the moments are one instant.
Under a key that is a text they are canonically equal exactly then, and under any other key never. -/
theorem canonicalText?_eq_iff_toMicros (ha : a.isValid) (hb : b.isValid) (hutc : a.toUtc?.isSome)
    (hutc' : b.toUtc?.isSome) :
    (∃ s r, a.canonicalText? = some s ∧ b.canonicalText? = some r ∧ (s = r ↔ a.toMicros = b.toMicros)) ∧
      ∀ k : Value,
        (k.text?.isSome → canonicalEquals (.dict [(k, .moment a)]) (.dict [(k, .moment b)]) =
          .ok (decide (a.toMicros = b.toMicros))) ∧
        (k.text? = none → canonicalEquals (.dict [(k, .moment a)]) (.dict [(k, .moment b)]) ≠ .ok true) := by
  obtain ⟨v, hv⟩ := Option.isSome_iff_exists.mp hutc
  obtain ⟨w, hw⟩ := Option.isSome_iff_exists.mp hutc'
  have hs := canonicalText?_of_toUtc? hv
  have hr := canonicalText?_of_toUtc? hw
  have htexts := canonicalText?_eq_iff ha hb hv hw hs hr
  refine ⟨⟨_, _, hs, hr, htexts⟩, fun k => ⟨fun hk => ?_, fun hk h => ?_⟩⟩
  · obtain ⟨l, hl⟩ := Value.exists_ofValue? hk
    rw [canonicalEquals, Value.canonicalText_entry hl hs, Value.canonicalText_entry hl hr]
    simp only [Value.write_entry_inj, htexts]
  · obtain ⟨_, htext⟩ := Value.exists_text_of_canonicalEquals h
    have hsome := Value.isSome_text?_of_canonicalText htext
    rw [hk] at hsome
    cases hsome

/-- Half an hour after midnight of the first of March, on a clock an hour ahead, and half an hour before midnight in
UTC, under a member of an enumeration. -/
theorem canonicalText?_eq_iff_toMicros_leapDay :
    ∃ a b : Moment, a = ⟨⟨2000, 3, 1⟩, 0, 30, 0, 5, some 3600⟩ ∧ b = ⟨⟨2000, 2, 29⟩, 23, 30, 0, 5, none⟩ ∧
      a.isValid ∧ b.isValid ∧ a.toUtc?.isSome ∧ b.toUtc?.isSome ∧
      (∃ s, a.canonicalText? = some s ∧ b.canonicalText? = some s) ∧
      canonicalEquals (.dict [(.textMember ⟨"Color", "RED"⟩ "red", .moment a)])
        (.dict [(.textMember ⟨"Color", "RED"⟩ "red", .moment b)]) = .ok true := by
  obtain ⟨⟨s, r, hs, hr, htexts⟩, hequal⟩ := canonicalText?_eq_iff_toMicros
    (a := ⟨⟨2000, 3, 1⟩, 0, 30, 0, 5, some 3600⟩) (b := ⟨⟨2000, 2, 29⟩, 23, 30, 0, 5, none⟩)
    (by decide) (by decide) (by decide) (by decide)
  obtain rfl := htexts.mpr (by decide)
  exact ⟨_, _, rfl, rfl, by decide, by decide, by decide, by decide, ⟨s, hs, hr⟩, (hequal _).1 rfl⟩

/-- The epoch, on two clocks, under a key that is no text. -/
theorem canonicalEquals_nullKey_eq_false :
    ∃ (a b : Moment) (k : Value), a = ⟨⟨1970, 1, 1⟩, 0, 0, 0, 0, none⟩ ∧ b = ⟨⟨1970, 1, 1⟩, 1, 0, 0, 0, some 3600⟩ ∧
      k = .null ∧ a.isValid ∧ b.isValid ∧ a.toUtc?.isSome ∧ b.toUtc?.isSome ∧ a.toMicros = b.toMicros ∧
      canonicalEquals (.dict [(k, .moment a)]) (.dict [(k, .moment b)]) = .ok false :=
  ⟨_, _, _, rfl, rfl, rfl, by decide, by decide, by decide, by decide, by decide, rfl⟩

end Moment

end CanonStore
