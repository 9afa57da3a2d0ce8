import CanonStore.Proofs.Json.Joining
import CanonStore.Proofs.Json.RoundTrip

/-!
# Indented documents read back

The text for people lays a document out on lines and escapes all that is not ASCII. Reading it gives the document
back, the order of members included, if the document is readable and none of its strings holds a surrogate:
every gap in the layout is a line feed and blanks, which the reader skips where it looks for a token, and what
follows a part is always a comma or the end of a line. Main statement: `read_writeIndented`.
-/

namespace CanonStore.Json

variable {depth level : Nat} {j : Json} {k tail rest : Text}

/-! ## The layout -/

theorem skipBlanks_newline (level : Nat) (s : Text) : skipBlanks (newline level ++ s) = skipBlanks s := by
  refine List.dropWhile_append_of_pos fun c hc => ?_
  rcases List.mem_append.mp hc with hc | hc
  · rw [List.mem_singleton.mp hc]
    rfl
  · rw [List.eq_of_mem_replicate hc]
    rfl

theorem closes_newline (level : Nat) (s : Text) : Closes (newline level ++ s) := closes_cons (.inr (.inr (.inr rfl)))

theorem indented_list (level : Nat) (j : Json) (js : List Json) (rest : Text) :
    indented level (.list (j :: js)) ++ rest =
      0x5B :: (newline (level + 1) ++ (indented (level + 1) j ++
        (indentedItems (level + 1) js ++ (newline level ++ 0x5D :: rest)))) := by
  rw [indented]
  simp only [List.append_assoc]
  rfl

theorem indentedItems_cons (level : Nat) (j : Json) (js : List Json) (tail : Text) :
    indentedItems level (j :: js) ++ tail =
      0x2C :: (newline level ++ (indented level j ++ (indentedItems level js ++ tail))) := by
  rw [indentedItems]
  simp only [List.append_assoc]
  rfl

/-- The text of a first member, behind the gap in front of it. -/
def indentedMember (level : Nat) (k : Text) (j : Json) : Text := quote .ascii k ++ 0x3A :: 0x20 :: indented level j

theorem indented_object (level : Nat) (k : Text) (j : Json) (ms : List (Text × Json)) (rest : Text) :
    indented level (.object ((k, j) :: ms)) ++ rest =
      0x7B :: (newline (level + 1) ++ (indentedMember (level + 1) k j ++
        (indentedMembers (level + 1) ms ++ (newline level ++ 0x7D :: rest)))) := by
  rw [indented, indentedMember]
  simp only [List.append_assoc]
  rfl

theorem indentedMembers_cons (level : Nat) (k : Text) (j : Json) (ms : List (Text × Json)) (tail : Text) :
    indentedMembers level ((k, j) :: ms) ++ tail =
      0x2C :: (newline level ++ (indentedMember level k j ++ (indentedMembers level ms ++ tail))) := by
  rw [indentedMembers, indentedMember]
  simp only [List.append_assoc]
  rfl

/-- A value starts with no blank, and with no bracket that closes a list. -/
theorem indented_start (level : Nat) (h : Readable depth j) : ∃ c t, indented level j = c :: t ∧ StartsValue c := by
  have hleaf {i : Json} (hi : Readable depth i) (htext : indented level j = compact i) :
      ∃ c t, indented level j = c :: t ∧ StartsValue c := by
    rw [htext]
    exact compact_start i hi
  cases j with
  | null | bool | int | float => exact hleaf h rfl
  | text t => exact ⟨0x22, _, rfl, by decide, by decide, by decide⟩
  | list items => cases items <;> exact ⟨0x5B, _, rfl, by decide, by decide, by decide⟩
  | object members => cases members <;> exact ⟨0x7B, _, rfl, by decide, by decide, by decide⟩

theorem skipBlanks_indented (level : Nat) (h : Readable depth j) (rest : Text) :
    skipBlanks (indented level j ++ rest) = indented level j ++ rest := by
  obtain ⟨c, t, hstart, hc⟩ := indented_start level h
  rw [hstart, List.cons_append]
  exact skipBlanks_cons hc.not_isBlank _

theorem skipBlanks_indentedMember (level : Nat) (k : Text) (j : Json) (rest : Text) :
    skipBlanks (indentedMember level k j ++ rest) = indentedMember level k j ++ rest := by
  rw [indentedMember, List.append_assoc, quote_append]
  exact skipBlanks_cons (by decide) _

/-! ## Reading the parts -/

theorem quotable_ascii {t : Text} (h : t.any CodePoint.isSurrogate = false) : Quotable .ascii t :=
  fun _ c hc => Bool.eq_false_iff.mpr (List.any_eq_false.mp h c hc)

/-- The text of the document on lines of the level is read back, whatever closes it. -/
def ReadsBack (depth level : Nat) (j : Json) : Prop :=
  ∀ rest, Closes rest → Gives (value depth (indented level j ++ rest)) j rest

/-- Items on lines of their own are read back up to and with the bracket on the last line. -/
theorem items_indented {js : List Json} (hread : ∀ i ∈ j :: js, Readable depth i)
    (hback : ∀ i ∈ j :: js, ReadsBack depth level i) (hclose : Closes tail)
    (htail : skipBlanks tail = 0x5D :: rest) :
    Gives (items depth (indented level j ++ (indentedItems level js ++ tail))) (j :: js) rest := by
  induction js generalizing j with
  | nil => exact items_last (hback j List.mem_cons_self tail hclose) htail
  | cons i js ih =>
    obtain ⟨hj, hback⟩ := List.forall_mem_cons.mp hback
    have hrest := List.forall_mem_of_forall_mem_cons hread
    rw [indentedItems_cons]
    refine items_cons (hj _ (closes_cons (by decide))) (skipBlanks_cons (by decide) _) ?_
    rw [skipBlanks_newline, skipBlanks_indented level (hrest i List.mem_cons_self)]
    exact ih hrest hback

/-- Members on lines of their own are read back up to and with the brace on the last line. -/
theorem members_indented {ms : List (Text × Json)} (hread : ∀ m ∈ (k, j) :: ms, Readable depth m.2)
    (hkeys : ∀ m ∈ (k, j) :: ms, Quotable .ascii m.1)
    (hback : ∀ m ∈ (k, j) :: ms, ReadsBack depth level m.2) (hclose : Closes tail)
    (htail : skipBlanks tail = 0x7D :: rest) :
    Gives (members depth (indentedMember level k j ++ (indentedMembers level ms ++ tail))) ((k, j) :: ms) rest := by
  induction ms generalizing k j with
  | nil =>
    rw [indentedMember, List.append_assoc]
    exact members_last (hkeys _ List.mem_cons_self)
      (skipBlanks_indented level (hread _ List.mem_cons_self) tail)
      (hback _ List.mem_cons_self tail hclose) htail
  | cons m ms ih =>
    obtain ⟨hj, hback⟩ := List.forall_mem_cons.mp hback
    -- The comma closes the value, and the gap after it is skipped before the next key.
    rw [indentedMembers_cons, indentedMember, List.append_assoc]
    refine members_cons (hkeys _ List.mem_cons_self)
      (skipBlanks_indented level (hread _ List.mem_cons_self) _)
      (hj _ (closes_cons (by decide))) (skipBlanks_cons (by decide) _) ?_
    rw [skipBlanks_newline, skipBlanks_indentedMember]
    exact ih (List.forall_mem_of_forall_mem_cons hread) (List.forall_mem_of_forall_mem_cons hkeys) hback

/-! ## Reading a document -/

/-- A readable document without surrogates is read back from its lines, on every level. -/
theorem readsBack (h : Readable depth j) (hs : hasSurrogate j = false) (level : Nat) : ReadsBack depth level j := by
  induction j generalizing depth level with
  | null | bool | int | float => exact fun _ hrest => value_compact _ h hrest
  | text t => exact fun _ _ => value_quote (quotable_ascii hs)
  | list items ih =>
    rw [readable_list_iff] at h
    rw [hasSurrogate_list_eq_false] at hs
    intro rest _
    cases items with
    | nil => exact value_list_nil h.1
    | cons j js =>
      have hback : ∀ i ∈ j :: js, ReadsBack (depth - 1) (level + 1) i := fun i hi =>
        ih i hi (h.2 i hi) (hs i hi) (level + 1)
      obtain ⟨c, t, hstart, hc⟩ := indented_start (level + 1) (h.2 j List.mem_cons_self)
      -- Behind the last item comes the gap in front of the bracket, which closes numbers as well.
      have hitems := items_indented h.2 hback (closes_newline level (0x5D :: rest))
        ((skipBlanks_newline level _).trans (skipBlanks_cons (by decide) rest))
      rw [indented_list]
      refine value_list h.1 ((skipBlanks_newline _ _).trans ?_) ?_ ?_ hitems
      · exact skipBlanks_indented (level + 1) (h.2 j List.mem_cons_self) _
      · rw [hstart, List.cons_append]
        exact stopsAt_cons (decide_eq_false hc.ne_close)
      · rw [hstart]
        exact List.cons_ne_nil _ _
  | object members ih =>
    rw [readable_object_iff] at h
    rw [hasSurrogate_object_eq_false] at hs
    intro rest _
    cases members with
    | nil => exact value_object_nil h.1
    | cons m ms =>
      have hback : ∀ n ∈ m :: ms, ReadsBack (depth - 1) (level + 1) n.2 := fun n hn =>
        ih n hn (h.2 n hn) (hs n hn).2 (level + 1)
      have hmembers := members_indented h.2 (fun n hn => quotable_ascii (hs n hn).1) hback
        (closes_newline level (0x7D :: rest))
        ((skipBlanks_newline level _).trans (skipBlanks_cons (by decide) rest))
      have hskip := skipBlanks_indentedMember (level + 1) m.1 m.2
        (indentedMembers (level + 1) ms ++ (newline level ++ 0x7D :: rest))
      rw [indented_object]
      rw [indentedMember, List.append_assoc, quote_append] at hmembers hskip ⊢
      exact value_object h.1 ((skipBlanks_newline _ _).trans hskip) hmembers

/-- The text for people, with the end of its last line, is read back as the document. -/
theorem read_writeIndented (h : Readable maxDepth j) (hs : hasSurrogate j = false) (hj : DistinctKeys j) :
    read (writeIndented j ++ [0x0A]) = .ok j := by
  obtain ⟨c, t, hstart, hc⟩ := indented_start 0 h
  have hraw : readRaw (writeIndented j ++ [0x0A]) = .ok j := by
    refine readRaw_of_value ?_ (readsBack h hs 0 [0x0A] (closes_cons (by decide))) rfl
    rw [writeIndented, hstart, List.cons_append]
    exact stopsAt_cons hc.not_isBlank
  have hmark : ¬ (writeIndented j ++ [0x0A]).head? = some 0xFEFF := by
    rw [writeIndented, hstart, List.cons_append, List.head?_cons]
    intro hmark
    obtain rfl := Option.some.inj hmark
    exact absurd hc.isAscii (by decide)
  rw [read, if_neg hmark, readUnmarked, hraw]
  exact congrArg Except.ok (joined_of_distinctKeys hj)

end CanonStore.Json
