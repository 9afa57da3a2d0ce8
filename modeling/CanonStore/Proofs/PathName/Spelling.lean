import CanonStore.Proofs.PathName

/-!
# Spellings of paths

A path has many spellings: `Spells` says which texts they are, by the form of the text alone. Slashes in front
show the root, and between the slashes behind them stand the names, with empty pieces and points among them.
Each text spells one path, the one that it is read as (`spells_iff`). What is read is in normal form, and the
text of a path in normal form spells that path (`IsNormal.spells_text`), so reading it again changes nothing.
-/

namespace CanonStore

namespace PathName

/-- The root that a number of slashes in front shows. -/
inductive ShowsRoot : Nat → PathRoot → Prop
  | none : ShowsRoot 0 .none
  | doubleSlash : ShowsRoot 2 .doubleSlash
  | slash {count : Nat} (hpos : 0 < count) (htwo : count ≠ 2) : ShowsRoot count .slash

/-- A text as slashes in front and pieces between slashes, and the path that it means. -/
structure IsCut (t : Text) (count : Nat) (pieces : List Text) (p : PathName) : Prop where
  text_eq : t = List.replicate count 0x2F ++ Text.joinWith "/" pieces
  /-- All slashes in front are counted. -/
  front : (Text.joinWith "/" pieces).head? ≠ some 0x2F
  not_mem : ∀ s ∈ pieces, (0x2F : CodePoint) ∉ s
  root : ShowsRoot count p.root
  names_eq : p.names = pieces.filter fun s => s ≠ [] ∧ s ≠ Text.ofString "."

/-- The text is a spelling of the path. -/
def Spells (t : Text) (p : PathName) : Prop := ∃ count pieces, IsCut t count pieces p

variable {t u : Text} {p q : PathName} {count : Nat} {pieces : List Text}

/-! ## The root -/

theorem ShowsRoot.unique {root other : PathRoot} (h : ShowsRoot count root) (h' : ShowsRoot count other) :
    root = other := by
  cases h with
  | none =>
    cases h' with
    | none => rfl
    | slash hpos _ => exact absurd hpos (Nat.lt_irrefl 0)
  | doubleSlash =>
    cases h' with
    | doubleSlash => rfl
    | slash _ htwo => exact absurd rfl htwo
  | slash hpos htwo =>
    cases h' with
    | none => exact absurd hpos (Nat.lt_irrefl 0)
    | doubleSlash => exact absurd rfl htwo
    | slash _ _ => rfl

theorem showsRoot_rootOf {rest : Text} (h : rest.head? ≠ some 0x2F) :
    ShowsRoot count (rootOf (List.replicate count 0x2F ++ rest)) := by
  have hnone : rest.takeWhile (fun c : CodePoint => c = '/') = [] := by
    cases rest with
    | nil => rfl
    | cons c rest => exact List.takeWhile_cons_of_neg fun hc => h (congrArg some (of_decide_eq_true hc))
  have hslashes : ∀ c ∈ List.replicate count (0x2F : CodePoint), decide (c = CodePoint.ofChar '/') = true :=
    fun c hc => decide_eq_true (List.eq_of_mem_replicate hc)
  have hcount : ((List.replicate count 0x2F ++ rest).takeWhile fun c : CodePoint => c = '/').length = count := by
    rw [List.takeWhile_append_of_pos hslashes, hnone, List.append_nil, List.length_replicate]
  unfold rootOf
  rw [hcount]
  split
  · exact .none
  · exact .doubleSlash
  · next hzero htwo => exact .slash (Nat.pos_of_ne_zero hzero) htwo

/-- A text starts with a slash exactly if it shows a root. -/
theorem IsCut.head?_eq_iff (h : IsCut t count pieces p) : t.head? = some 0x2F ↔ p.isAbsolute = true := by
  have hroot := h.root
  rw [h.text_eq]
  cases count with
  | zero =>
    obtain hnone := hroot.unique .none
    refine iff_of_false h.front ?_
    simp [isAbsolute, hnone]
  | succ count =>
    refine iff_of_true rfl ?_
    cases hp : p.root with
    | none =>
      rw [hp] at hroot
      cases hroot
    | slash | doubleSlash => simp [isAbsolute, hp]

/-! ## One path for each text -/

theorem isProper_eq (s : Text) : isProper s = decide (s ≠ [] ∧ s ≠ Text.ofString ".") := by
  cases s <;> simp [isProper]

theorem IsCut.eq_ofText (h : IsCut t count pieces p) : p = ofText t := by
  have hroot : p.root = rootOf t := by
    rw [h.text_eq]
    exact h.root.unique (showsRoot_rootOf h.front)
  have hnames : p.names = properNames t := by
    rw [h.names_eq, h.text_eq, properNames_slashes, properNames]
    simp only [← isProper_eq]
    by_cases hne : pieces = []
    · rw [hne]
      rfl
    · have hsplit : Text.splitOn 0x2F (Text.joinWith "/" pieces) = pieces := Text.splitOn_joinWith hne h.not_mem
      rw [hsplit]
  cases p
  cases hroot
  cases hnames
  rfl

theorem exists_isCut (t : Text) : ∃ count pieces, IsCut t count pieces (ofText t) := by
  obtain ⟨count, rest, ht, hfront, _, _⟩ := exists_slashes t
  have hjoin : Text.joinWith "/" (Text.splitOn 0x2F rest) = rest := Text.joinWith_splitOn 0x2F rest
  refine ⟨count, Text.splitOn 0x2F rest, ?_, ?_, fun _ => Text.not_mem_of_mem_splitOn, ?_, ?_⟩
  · rw [hjoin, ← ht]
  · rwa [hjoin]
  · rw [ht]
    exact showsRoot_rootOf hfront
  · show properNames t = _
    rw [ht, properNames_slashes, properNames]
    exact List.filter_congr fun s _ => isProper_eq s

/-- A text spells the path that it is read as, and no other one. -/
theorem spells_iff : Spells t p ↔ p = ofText t := by
  constructor
  · rintro ⟨count, pieces, h⟩
    exact h.eq_ofText
  · rintro rfl
    exact exists_isCut t

theorem head?_eq_iff (t : Text) : t.head? = some 0x2F ↔ (ofText t).isAbsolute = true := by
  obtain ⟨count, pieces, h⟩ := exists_isCut t
  exact h.head?_eq_iff

/-! ## Normal form -/

/-- The path is in normal form: each of its names means something and holds no slash. -/
def IsNormal (p : PathName) : Prop := ∀ n ∈ p.names, isProper n = true ∧ (0x2F : CodePoint) ∉ n

theorem isNormal_ofText (t : Text) : (ofText t).IsNormal :=
  fun _ hn => ⟨List.of_mem_filter hn, not_mem_of_mem_properNames hn⟩

theorem IsNormal.join (hp : p.IsNormal) (hq : q.IsNormal) : (p.join q).IsNormal := by
  unfold PathName.join
  split
  · exact hq
  · exact List.forall_mem_append.mpr ⟨hp, hq⟩

theorem showsRoot_text (root : PathRoot) :
    ∃ count, root.text = List.replicate count 0x2F ∧ ShowsRoot count root := by
  cases root with
  | none => exact ⟨0, rfl, .none⟩
  | slash => exact ⟨1, rfl, .slash (by decide) (by decide)⟩
  | doubleSlash => exact ⟨2, rfl, .doubleSlash⟩

/-- Names that hold no slash and are not empty do not start with one when they are joined. -/
theorem IsNormal.head?_joinWith_ne (h : p.IsNormal) : (Text.joinWith "/" p.names).head? ≠ some 0x2F := by
  cases hnames : p.names with
  | nil => exact nofun
  | cons n ns =>
    obtain ⟨hproper, hslash⟩ := h n (hnames ▸ List.mem_cons_self)
    cases n with
    | nil => exact absurd hproper (by decide)
    | cons c n =>
      have hc : c ≠ 0x2F := fun hc => hslash (hc ▸ List.mem_cons_self)
      cases ns with
      | nil => exact fun hhead => hc (Option.some.inj hhead)
      | cons _ _ => exact fun hhead => hc (Option.some.inj hhead)

/-- The text of a path in normal form spells the path. -/
theorem IsNormal.spells_text (h : p.IsNormal) : Spells p.text p := by
  have hproper : p.names.filter (fun s => s ≠ [] ∧ s ≠ Text.ofString ".") = p.names := by
    simp only [← isProper_eq]
    exact List.filter_eq_self.mpr fun n hn => (h n hn).1
  by_cases hempty : p.root = .none ∧ p.names = []
  · -- The path without root and names is spelled by the point, which is no name.
    obtain ⟨hroot, hnames⟩ := hempty
    refine ⟨0, [Text.ofString "."], ?_, by decide, by decide, hroot ▸ .none, ?_⟩
    · simp [text, hroot, hnames, Text.joinWith]
    · rw [hnames]
      rfl
  · obtain ⟨count, hslashes, hroot⟩ := showsRoot_text p.root
    refine ⟨count, p.names, ?_, h.head?_joinWith_ne, fun n hn => (h n hn).2, hroot, hproper.symm⟩
    rw [← hslashes, text, if_neg (by simpa using hempty)]

theorem IsNormal.ofText_text (h : p.IsNormal) : ofText p.text = p := (spells_iff.mp h.spells_text).symm

/-! ## Texts joined by a slash -/

theorem properNames_append (t u : Text) : properNames (t ++ 0x2F :: u) = properNames t ++ properNames u := by
  rw [properNames, Text.splitOn_append_separator, List.filter_append]
  rfl

/-- A slash between two texts, the first of which is there and shows no root, joins what they mean. -/
theorem ofText_append (hne : t ≠ []) (ht : (ofText t).isAbsolute = false) (hu : (ofText u).isAbsolute = false) :
    ofText (t ++ 0x2F :: u) = (ofText t).join (ofText u) := by
  have hhead : (t ++ 0x2F :: u).head? = t.head? := List.head?_append_of_ne_nil t hne
  have hroot : (ofText (t ++ 0x2F :: u)).isAbsolute = false := by
    rw [Bool.eq_false_iff, ne_eq, ← head?_eq_iff] at ht ⊢
    rwa [hhead]
  simp only [isAbsolute, ne_eq, decide_not, Bool.not_eq_false', decide_eq_true_eq] at hroot ht
  rw [join, hu, if_neg Bool.false_ne_true, ht, ← hroot]
  exact congrArg (PathName.mk _) (properNames_append t u)

end PathName

end CanonStore
