import CanonStore.Program.Command
import CanonStore.Proofs.Base64.Spelling
import CanonStore.Proofs.CommandLine.Words
import CanonStore.Proofs.Hex

/-!
# Octets on the command line

Octets are spelled as a payload in several ways (`Payload.Spells`), and asked for by several commands
(`Command.Asks`). The commands are read from the words that one would write for them (`Question`), as long as
nothing that stands for a path or a text starts with a hyphen.
-/

namespace CanonStore

/-! ## Payloads -/

/-- The payload spells octets: in hexadecimal digits of either case, with a mark or without, or in base64. No
payload is accepted that has a mark with a capital letter. -/
inductive Payload.Spells (d : Bytes) : Payload → Prop
  | hex {mark digits : Text}
      (hmark : mark = [] ∨ mark = Text.ofString "0x" ∨ mark = Text.ofString "0X")
      (hdigits : digits.map CodePoint.toLowerAscii = Hex.encode d) : Spells d (.hex (mark ++ digits))
  | base64 : Spells d (.base64 (Base64.encode d))

/-- Digits have no mark in front. -/
theorem Hex.dropPrefix?_of_map_toLowerAscii {t : Text} {d : Bytes}
    (h : t.map CodePoint.toLowerAscii = encode d) : Text.dropPrefix? "0x" t = none := by
  cases d with
  | nil =>
    obtain rfl := List.map_eq_nil_iff.mp h
    rfl
  | cons b d =>
    obtain ⟨high, low, rest, rfl, _, hlow, _⟩ := exists_digits h
    have hx : (0x78 : CodePoint) ≠ low := by
      rintro rfl
      cases hlow
    show (if (0x30 : CodePoint) = high then if (0x78 : CodePoint) = low then _ else none else none) = none
    rw [if_neg hx, ite_self]

/-- A mark with a capital letter is taken for digits, which it is not. -/
theorem Hex.decode_capitalMark (t : Text) : ∃ position, decode (0x30 :: 0x58 :: t) = .error position := by
  unfold decode
  split
  · exact ⟨_, rfl⟩
  · exact ⟨1, rfl⟩

/-- A payload that is accepted has the octets that it spells. -/
theorem Payload.Spells.octets_eq {payload : Payload} {d e : Bytes} (h : payload.Spells d)
    (hoctets : payload.octets = .ok e) : e = d := by
  cases h with
  | base64 =>
    rw [octets, Base64.decode_encode] at hoctets
    exact (Except.ok.inj hoctets).symm
  | @hex mark digits hmark hdigits =>
    have hdecode := Hex.decode_of_map_toLowerAscii hdigits
    rw [octets, mapError_eq_ok_iff] at hoctets
    -- Without a mark, with the small one, and with the capital one, which is not taken off and is no digit.
    rcases hmark with rfl | rfl | rfl
    · rw [List.nil_append, Hex.dropPrefix?_of_map_toLowerAscii hdigits, Option.getD_none, hdecode] at hoctets
      exact (Except.ok.inj hoctets).symm
    · have hmark : Text.dropPrefix? "0x" (Text.ofString "0x" ++ digits) = some digits := rfl
      rw [hmark, Option.getD_some, hdecode] at hoctets
      exact (Except.ok.inj hoctets).symm
    · have hmark : Text.dropPrefix? "0x" (Text.ofString "0X" ++ digits) = none := rfl
      obtain ⟨position, hrefused⟩ := Hex.decode_capitalMark digits
      rw [hmark, Option.getD_none] at hoctets
      cases hrefused.symm.trans hoctets

/-! ## Questions -/

/-- How a digest of octets is printed. -/
def Program.digestText (hex : Bool) (octets : Bytes) : Text :=
  if hex then Hex.prefixed (Digest.ofBytes octets) else Base64.encode (Digest.ofBytes octets)

open Program (digestText)

/-- The command asks for the octets of the file at a path, or for their digest, which may also be asked for by a
text with these octets. The text at the end is the answer. -/
inductive Command.Asks (path : Text) (d : Bytes) : Command → Text → Prop
  | octets (hex : Bool) : Asks path d (.blobRead path hex) (if hex then Hex.encode d else Base64.encode d)
  | digest (hex : Bool) : Asks path d (.hash (.file path) hex) (digestText hex d)
  | textDigest {t : Text} (ht : Utf8.encode t = .ok d) (hex : Bool) :
      Asks path d (.hash (.text t) hex) (digestText hex d)

/-- The words that ask such a question, and the answer. -/
inductive Question (path : Text) (d : Bytes) : List Text → Text → Prop
  | octets (hpath : path.head? ≠ some 0x2D) : Question path d [Text.ofString "blob", "read", path] (Base64.encode d)
  | digits (hpath : path.head? ≠ some 0x2D) : Question path d [Text.ofString "blob", "read", path, "--hex"] (Hex.encode d)
  | digest (hpath : path.head? ≠ some 0x2D) : Question path d [Text.ofString "hash", path] (digestText false d)
  | textDigest {t : Text} (hhyphen : t.head? ≠ some 0x2D) (ht : Utf8.encode t = .ok d) :
      Question path d [Text.ofString "hash", "--text", t] (digestText false d)

namespace Invocation

open CommandLine Command

variable {path t answer : Text} {d : Bytes} {words : List Text}

theorem head?_hash : (Text.ofString "hash").head? ≠ some 0x2D := by decide

theorem head?_blob : (Text.ofString "blob").head? ≠ some 0x2D := by decide

theorem head?_read : (Text.ofString "read").head? ≠ some 0x2D := by decide

/-- What stands behind `blob read` is read by the grammar of that command. -/
theorem readCommand_blobRead {arguments leftOver : List Text} {ws : List (Word (Option Command))}
    {command : Command} (hwords : Word.classifyAll blobGrammar arguments = .ok ws)
    (hcommand : blobReadGrammar.readSome arguments = .ok (command, leftOver)) :
    readCommand "blob" ("read" :: arguments) = .ok (some command, leftOver) := by
  show Except.map _ (blobGrammar.readSome ("read" :: arguments)) = _
  rw [readSome_command rfl head?_read hwords]
  show Except.map _ (Except.map _ (blobReadGrammar.readSome arguments) >>= _) = _
  rw [hcommand]
  rfl

theorem read_blobRead (hpath : path.head? ≠ some 0x2D) (configPath : Option Text) :
    read (configWords configPath ++ [Text.ofString "blob", "read", path]) =
      .ok ⟨configPath, none, some (.blobRead path false)⟩ := by
  have hcommand : readCommand "blob" ["read", path] = .ok (some (.blobRead path false), []) := by
    refine readCommand_blobRead (Word.classifyAll_of_head? hpath) ?_
    rw [Grammar.readSome, Word.classifyAll_of_head? hpath]
    rfl
  have hwords : Word.classifyAll grammar ["read", path] = .ok [.operand "read", .operand path] := by
    rw [Word.classifyAll_cons_of_head? head?_read, Word.classifyAll_of_head? hpath]
    rfl
  exact read_command head?_blob hwords hcommand configPath

theorem read_blobRead_hex (hpath : path.head? ≠ some 0x2D) (configPath : Option Text) :
    read (configWords configPath ++ [Text.ofString "blob", "read", path, "--hex"]) =
      .ok ⟨configPath, none, some (.blobRead path true)⟩ := by
  have hcommand : readCommand "blob" ["read", path, "--hex"] = .ok (some (.blobRead path true), []) := by
    refine readCommand_blobRead (Word.classifyAll_cons_of_head? hpath ["--hex"]) ?_
    rw [Grammar.readSome, Word.classifyAll_cons_of_head? hpath]
    rfl
  have hwords : Word.classifyAll grammar ["read", path, "--hex"] =
      .ok [.operand "read", .operand path, .unknown "--hex"] := by
    rw [Word.classifyAll_cons_of_head? head?_read, Word.classifyAll_cons_of_head? hpath]
    rfl
  exact read_command head?_blob hwords hcommand configPath

theorem read_hash_file (hpath : path.head? ≠ some 0x2D) (configPath : Option Text) :
    read (configWords configPath ++ [Text.ofString "hash", path]) =
      .ok ⟨configPath, none, some (.hash (.file path) false)⟩ := by
  have hcommand : readCommand "hash" [path] = .ok (some (.hash (.file path) false), []) := by
    show nested hashGrammar [path] = _
    rw [nested, Grammar.readSome, Word.classifyAll_of_head? hpath]
    rfl
  exact read_command head?_hash (Word.classifyAll_of_head? hpath) hcommand configPath

theorem read_hash_text (ht : t.head? ≠ some 0x2D) (configPath : Option Text) :
    read (configWords configPath ++ [Text.ofString "hash", "--text", t]) =
      .ok ⟨configPath, none, some (.hash (.text t) false)⟩ := by
  have hoperand : Word.classifyAll hashGrammar [t] = .ok [.operand t] := Word.classifyAll_of_head? ht
  have hcommand : readCommand "hash" ["--text", t] = .ok (some (.hash (.text t) false), []) := by
    show nested hashGrammar ["--text", t] = _
    rw [nested, Grammar.readSome, Word.classifyAll, hoperand]
    rfl
  have hwords : Word.classifyAll grammar ["--text", t] = .ok [.unknown "--text", .operand t] := by
    rw [Word.classifyAll, Word.classifyAll_of_head? ht]
    rfl
  exact read_command head?_hash hwords hcommand configPath

/-- The words of a question are read as a command that asks it. -/
theorem exists_read_of_question (h : Question path d words answer) (configPath : Option Text) :
    ∃ command : Command, command.Asks path d answer ∧
      read (configWords configPath ++ words) = .ok ⟨configPath, none, some command⟩ := by
  cases h with
  | octets hpath => exact ⟨_, .octets false, read_blobRead hpath configPath⟩
  | digits hpath => exact ⟨_, .octets true, read_blobRead_hex hpath configPath⟩
  | digest hpath => exact ⟨_, .digest false, read_hash_file hpath configPath⟩
  | textDigest hhyphen ht => exact ⟨_, .textDigest ht false, read_hash_text hhyphen configPath⟩

end Invocation

end CanonStore
