import CanonStore.Proofs.Json.Surrogates
import CanonStore.Proofs.Schema.Conforming
import CanonStore.Proofs.Text.Octets

/-!
# Accepted once and for all

What a shape has accepted it accepts again, and leaves it as it is (`accept_accepted`). So the fields of a record
are `Settled`: they are when it is made, and they stay so through all assignments (`settled_assignAll`).
-/

namespace CanonStore

namespace Scalar

theorem isSurrogate_of_mem_ofInt {n : Int} : ∀ c ∈ Numeral.ofInt n, c.isSurrogate = false := by
  have hdigits : ∀ c ∈ Numeral.ofNat n.natAbs, c.isSurrogate = false :=
    fun c hc => Json.isSurrogate_of_isAscii (Json.isAscii_of_isDigit (Numeral.isDigit_of_mem_ofNat c hc))
  rw [Numeral.ofInt]
  split
  · exact List.forall_mem_cons.mpr ⟨rfl, hdigits⟩
  · exact hdigits

/-- A text that a value is accepted as is accepted itself. -/
theorem text_text {v : Value} {t : Text} (h : text v = .ok t) : text (.text t) = .ok t := by
  have haccept : (∀ c ∈ t, c.isSurrogate = false) → text (.text t) = .ok t :=
    fun hall => whole_eq_ok_iff.mpr ⟨List.any_eq_false.mpr fun c hc => Bool.eq_false_iff.mp (hall c hc), rfl⟩
  -- What is accepted as a text is one already, is shown by a number, or is read from octets; none of the
  -- last two holds a surrogate.
  cases v with
  | text | textMember | member =>
    obtain ⟨hall, rfl⟩ := whole_eq_ok_iff.mp h
    exact whole_eq_ok_iff.mpr ⟨hall, rfl⟩
  | intMember m n =>
    cases h
    exact haccept isSurrogate_of_mem_ofInt
  | bytes b | bytearray b =>
    rw [text] at h
    split at h
    · next u hu =>
      cases h
      exact haccept ((Utf8.encode_eq_ok_iff t b).mp (Utf8.decode_eq_ok_iff.mp hu)).1
    · cases h
  | _ => cases h

end Scalar

namespace Shape

/-! ## Acceptance again -/

/-- What a shape has accepted it accepts again as it is. -/
theorem accept_accepted {s : Shape} {origin : Origin} {v w : Value} (h : s.accept origin v = .ok w) :
    s.accept .caller w = .ok w := by
  induction s generalizing v w with
  | text =>
    obtain ⟨t, ht, rfl⟩ := Accepted.scalar_eq_ok_iff.mp h
    exact Accepted.scalar_eq_ok_iff.mpr ⟨t, Scalar.text_text ht, rfl⟩
  | bytes | float | bool | moment =>
    obtain ⟨x, _, rfl⟩ := Accepted.scalar_eq_ok_iff.mp h
    rfl
  | int bounds =>
    obtain ⟨n, _, hbounds, rfl⟩ := accept_int_eq_ok_iff.mp h
    exact accept_int_eq_ok_iff.mpr ⟨n, rfl, hbounds, rfl⟩
  | mapping =>
    obtain ⟨entries, es, _, hes, rfl⟩ := accept_mapping_eq_ok_iff.mp h
    refine accept_dict .caller (fun e he => ?_) (Value.pairwise_joinEntries es)
    refine (Value.forall_mem_joinEntries (P := fun k => ∃ t, k = .text t ∧ Scalar.text (.text t) = .ok t)
      (Q := fun _ => True) (fun f hf => ⟨?_, trivial⟩) e he).1
    obtain ⟨_, _, haccept⟩ := exists_of_mem_right hes hf
    obtain ⟨t, ht, rfl⟩ := acceptEntry_eq_ok_iff.mp haccept
    exact ⟨t, rfl, Scalar.text_text ht⟩
  | optionalText =>
    obtain ⟨_, rfl⟩ | ⟨t, ht, rfl⟩ := accept_optionalText_eq_ok_iff.mp h
    · rfl
    · exact accept_optionalText_eq_ok_iff.mpr (.inr ⟨t, Scalar.text_text ht, rfl⟩)
  | option =>
    obtain ⟨t, _, ht⟩ := accept_option_eq_ok_iff.mp h
    obtain ⟨o, _, rfl, rfl⟩ := exists_member_of_optionOfText? ht
    exact accept_option_eq_ok_iff.mpr ⟨o.2, rfl, ht⟩
  | callable =>
    obtain ⟨kind, _, hkind, rfl⟩ := accept_callable_eq_ok_iff.mp h
    exact accept_callable_eq_ok_iff.mpr ⟨kind, rfl, hkind, rfl⟩
  | list item ih =>
    obtain ⟨vs, ws, _, hws, rfl⟩ := accept_list_eq_ok_iff.mp h
    refine accept_list_eq_ok_iff.mpr ⟨ws, ws, rfl, List.forall₂_same.mpr fun w hw => ?_, rfl⟩
    obtain ⟨v, _, haccept⟩ := exists_of_mem_right hws hw
    exact ih haccept
  | record type fields ih =>
    -- A record is handed over as it is, whatever it was made from.
    obtain ⟨fs, _, rfl⟩ | ⟨_, fs, _, _, rfl, _⟩ := accept_record_eq_ok_iff.mp h
    all_goals exact accept_record_eq_ok_iff.mpr (.inl ⟨fs, rfl, rfl⟩)

end Shape

namespace RecordType

variable {type : RecordType} {fs gs : List (Text × Value)}

/-! ## Records -/

/-- Every field holds a value that its shape accepts as it is. -/
def Settled (type : RecordType) (fields : List (Text × Value)) : Prop :=
  List.Forall₂ (fun f g => g.1 = f.name ∧ f.shape.accept .caller g.2 = .ok g.2) type.fields fields

/-- The shape of a field accepts the default of the field as it is. -/
theorem accept_default (type : RecordType) :
    ∀ f ∈ type.fields, ∀ d, f.default? = some d → f.shape.accept .caller d = .ok d := by
  cases type <;> simp [fields, timestampFields, transactionFields, Shape.required, Shape.optional, Shape.anyInt] <;>
    (and_intros <;> rfl)

/-- A record is settled from the start. -/
theorem settled_make {given : List (Text × Value)} {m : Value} (h : type.make given = .ok m) :
    ∃ fs, m = .record type fs ∧ type.Settled fs := by
  obtain ⟨_, hrecord, _⟩ | ⟨_, fs, _, hfs, rfl, _⟩ := Shape.accept_record_eq_ok_iff.mp h
  · cases hrecord
  refine ⟨fs, rfl, forall₂_imp_of_mem hfs ?_⟩
  rintro f hf g ⟨hname, ⟨u, _, hu⟩ | ⟨_, hdefault⟩⟩
  · exact ⟨hname, Shape.accept_accepted hu⟩
  · exact ⟨hname, accept_default type f hf _ hdefault⟩

/-- A record stays settled when a field of it is set. -/
theorem settled_assign (hfs : type.Settled fs) {name : Text} {v : Value} (h : type.assign name v fs = .ok gs) :
    type.Settled gs :=
  forall₂_assign (R := fun f w => f.shape.accept .caller w = .ok w) hfs (fun _ _ _ => Shape.accept_accepted) h

/-- The fields of a record after assignments, one after another. Those that are refused change nothing. -/
def assignAll (type : RecordType) (fields : List (Text × Value)) (assignments : List (Text × Value)) :
    List (Text × Value) :=
  assignments.foldl (fun fs a => (type.assign a.1 a.2 fs).toOption.getD fs) fields

theorem settled_assignAll (hfs : type.Settled fs) (assignments : List (Text × Value)) :
    type.Settled (type.assignAll fs assignments) := by
  induction assignments generalizing fs with
  | nil => exact hfs
  | cons a rest ih =>
    have hstep : type.Settled ((type.assign a.1 a.2 fs).toOption.getD fs) := by
      cases h : type.assign a.1 a.2 fs with
      | error problems => exact hfs
      | ok gs => exact settled_assign hfs h
    exact ih hstep

end RecordType

end CanonStore
