import CanonStore.Document.Class
import CanonStore.Proofs.Document.Refusal
import CanonStore.Proofs.Json.Truncated

/-!
# Stored documents cut short

What is left of a stored document after its end was lost is never loaded, as an instance of any class: reading
it is reported. The document must not be a number, since a number that is cut short may be another number. Only
a record can be dumped as one. Main statement: `decode_cut_encode`.
-/

namespace CanonStore.Document

open Json (Readable)

/-! ## What is stored -/

/-- The content is a record that is dumped as a number. -/
def Content.IsNumber : Content → Prop
  | .record type x => ∃ j, type.dump x = .ok j ∧ ¬ j.SelfDelimiting
  | _ => False

/-- A record is stored under the octets of the document that it is dumped as. -/
theorem Content.encode_record_eq_ok_iff {type : RecordClass} {x : type.Instance} {path : Option Text}
    {bytes : Bytes} :
    (Content.record type x).encode path = .ok bytes ↔
      ∃ j, type.dump x = .ok j ∧ Readable Canonical.maxDepth j ∧ Utf8.encode j.write = .ok bytes :=
  write_recordPayload_eq_ok_iff

/-- What is stored is the text of a document. It is no number unless a record is dumped as one. -/
theorem Content.exists_document {content : Content} {path : Option Text} {bytes : Bytes}
    (h : content.encode path = .ok bytes) (hnumber : ¬ content.IsNumber) :
    ∃ j : Json, j.SelfDelimiting ∧ Readable Canonical.maxDepth j ∧ Utf8.encode j.write = .ok bytes := by
  cases content with
  | value v =>
    obtain ⟨w, hpayload, hwrite⟩ := bind_eq_ok_iff.mp h
    exact exists_document_of_write (payload_eq_ok hpayload).1 hwrite
  | entry type x =>
    obtain ⟨w, hpayload, hwrite⟩ := bind_eq_ok_iff.mp h
    exact exists_document_of_write (entryPayload_eq_ok hpayload).1 hwrite
  | record type x =>
    obtain ⟨j, hj, hread, hbytes⟩ := Content.encode_record_eq_ok_iff.mp h
    exact ⟨j, not_not.mp fun hj' => hnumber ⟨j, hj, hj'⟩, hread, hbytes⟩

/-! ## What is read -/

/-- A target has a name. A value in the place of a type is a target as well if it can be shown. -/
theorem exists_name {target : Target} (htarget : ∀ w, target = .value w → w.display? ≠ none) :
    ∃ name, target.name = .ok name := by
  cases target with
  | value w =>
    have hshown := htarget w rfl
    rw [Value.display?] at hshown
    rw [Target.name]
    cases hname : w.display with
    | error fault => simp [hname, Except.toOption] at hshown
    | ok name => exact ⟨name, rfl⟩
  | _ => exact ⟨_, rfl⟩

/-- Octets that no document is read from are reported, whatever they are to be read as. -/
theorem Reader.decode_of_unread {p : Bytes} (hstrict : Json.readStrict? p = none) {fault : Json.BytesFault}
    (hfault : Json.readBytes p = .error fault) (hne : fault ≠ .document .tooDeep) {reader : Reader}
    (hreader : ∀ w, reader = .target (.value w) → w.display? ≠ none) (path : Option Text) :
    ∃ f, reader.decode p path = .error f ∧ f.IsReport .decode := by
  cases reader with
  | target target =>
    obtain ⟨name, hname⟩ := exists_name fun w hw => hreader w (hw ▸ rfl)
    cases target with
    | record type => exact decode_record_of_unread hstrict type path
    | _ => exact decode_of_malformed hname (fun _ h => nomatch h) hfault hne
  | record type =>
    show ∃ f, (Document.readRecord p type.accept).mapError _ = .error f ∧ _
    rw [readRecord_of_unread hstrict]
    exact ⟨_, rfl, isReport_decodeFault ..⟩
  | entry type =>
    obtain ⟨f, hf, hreport⟩ := readDocument_of_malformed hfault hne type.name path
    refine ⟨f, ?_, hreport⟩
    show (readDocument type.name path p).bind _ = .error f
    rw [hf]
    rfl

/-! ## Cuts -/

/-- No part of a stored document that ends before the document does is loaded, unless the document is a number:
reading it as anything at all is reported. -/
theorem decode_cut_encode {content : Content} {path : Option Text} {bytes p : Bytes}
    (h : content.encode path = .ok bytes) (hnumber : ¬ content.IsNumber) (hcut : Cut p bytes) {reader : Reader}
    (hreader : ∀ w, reader = .target (.value w) → w.display? ≠ none) (path' : Option Text) :
    ∃ f, reader.decode p path' = .error f ∧ f.IsReport .decode := by
  obtain ⟨j, hj, hread, hbytes⟩ := Content.exists_document h hnumber
  obtain ⟨fault, hfault, hne⟩ := Json.readBytes_cut hj hread.loads hbytes hcut
  exact Reader.decode_of_unread (Json.readStrict_cut hj hread.loads hbytes hcut) hfault hne hreader path'

/-- The class of texts, each of which is its own document. -/
def texts : RecordClass where
  name := "Label"
  Instance := Text
  dump t := .ok (.text t)
  accept
    | .text t => .ok t
    | _ => .error (.invalid [⟨.textType, []⟩])

/-- Half of a character is left at the end, of a dictionary that is read as a block and of a text that is read as
one. -/
theorem decode_cut_encode_entries :
    (∃ f, (Reader.target (.record .block)).decode (Text.toBytes "\x7b\"a\":[\"" ++ [0xC3]) (some "block.json")
        = .error f ∧ f.IsReport .decode) ∧
      ∃ f, (Reader.record texts).decode [0x22, 0xC3] none = .error f ∧ f.IsReport .decode := by
  constructor
  · have hbytes : (Content.value (.dict [(.text "a", .list [.text "\u00e9", .bool true])])).encode none
        = .ok (Text.toBytes "\x7b\"a\":[\"" ++ [0xC3] ++ ([0xA9] ++ Text.toBytes "\",true]\x7d")) := rfl
    have hcut : Cut (Text.toBytes "\x7b\"a\":[\"" ++ [0xC3])
        (Text.toBytes "\x7b\"a\":[\"" ++ [0xC3] ++ ([0xA9] ++ Text.toBytes "\",true]\x7d")) :=
      ⟨List.prefix_append _ _, by simp⟩
    exact decode_cut_encode hbytes id hcut (by simp) _
  · have hbytes : (Content.record texts (Text.ofString "\u00e9")).encode none = .ok [0x22, 0xC3, 0xA9, 0x22] := rfl
    have hnumber : ¬ (Content.record texts (Text.ofString "\u00e9")).IsNumber := by
      rintro ⟨_, hj, h⟩
      cases hj
      exact h trivial
    exact decode_cut_encode hbytes hnumber ⟨by decide, by decide⟩ (by simp) none

/-- The class of integers, each of which is its own document. -/
def integers : RecordClass where
  name := "Height"
  Instance := Int
  dump n := .ok (.int n)
  accept
    | .int n => .ok n
    | _ => .error (.invalid [⟨.intType, []⟩])

/-- A number that is cut short is loaded as another number. Where an integer that cannot be shown stands in the
place of a type, the first bracket of a list is not reported either. -/
theorem decode_cut_encode_number :
    ((Content.record integers (12 : Int)).encode none = .ok [0x31, 0x32] ∧ Cut [(0x31 : UInt8)] [0x31, 0x32] ∧
        (Reader.record integers).decode [0x31] none = .ok (1 : Int)) ∧
      (Content.value (.list [])).encode none = .ok [0x5B, 0x5D] ∧ Cut [(0x5B : UInt8)] [0x5B, 0x5D] ∧
        ¬ ∃ f, (Reader.target (.value (.int (10 ^ Json.maxDigits : Nat)))).decode [0x5B] none = .error f ∧
          f.IsReport .decode := by
  have hdigits : ∀ n ∈ [(12 : Int), 1], Json.isOversized n = false := by decide +kernel
  refine ⟨⟨?_, ⟨by decide, by decide⟩, ?_⟩, rfl, ⟨by decide, by decide⟩, ?_⟩
  · exact Content.encode_record_eq_ok_iff.mpr ⟨_, rfl, hdigits 12 (by decide), by decide +kernel⟩
  · have hstrict : Json.readStrict? [0x31] = some (.int 1) :=
      Json.readStrict_write (j := .int 1) (hdigits 1 (by decide)) trivial (by decide) (by decide +kernel)
    show (readRecord [0x31] integers.accept).mapError _ = _
    rw [readRecord, hstrict]
    rfl
  · have hsize := Json.isOversized_pow
    generalize ((10 ^ Json.maxDigits : Nat) : Int) = n at hsize
    have hshown : (Value.int n).display = .error .oversized := by
      simp only [Value.display, Value.displayAt, Value.intText, hsize, if_true]
    rintro ⟨f, hf, hreport⟩
    have hdecode : decode [0x5B] (.value (.int n)) none = .error f := hf
    rw [decode, Target.name, hshown] at hdecode
    cases hdecode
    exact not_isReport_display .oversized .decode hreport

end CanonStore.Document
