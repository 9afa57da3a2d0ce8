import CanonStore.Text

/-!
# Texts in pieces

A text is split at a separator and joined again. Joining the pieces gives the text back
(`joinWith_splitOn`); splitting what was joined gives the pieces back, if there are any and none of them
holds the separator (`splitOn_joinWith`). An initial piece is dropped if the text has it (`dropPrefix?_eq_some_iff`).
-/

namespace CanonStore.Text

/-! ## An initial piece -/

theorem dropPrefix?_eq_some_iff {p t s : Text} : dropPrefix? p t = some s ↔ t = p ++ s := by
  induction p generalizing t with
  | nil => rw [dropPrefix?, Option.some.injEq, List.nil_append]
  | cons c p ih =>
    cases t with
    | nil => exact iff_of_false nofun nofun
    | cons a t =>
      rw [dropPrefix?, List.cons_append, List.cons.injEq]
      split
      · next hc => rw [ih, and_iff_right hc.symm]
      · next hc => exact iff_of_false nofun fun h => hc h.1.symm

theorem dropPrefix?_append (p s : Text) : dropPrefix? p (p ++ s) = some s := dropPrefix?_eq_some_iff.mpr rfl

/-! ## Joining -/

theorem joinWith_cons (separator t : Text) {ts : List Text} (h : ts ≠ []) :
    joinWith separator (t :: ts) = t ++ (separator ++ joinWith separator ts) := by
  obtain ⟨u, us, rfl⟩ := List.exists_cons_of_ne_nil h
  rw [joinWith, List.append_assoc]

theorem forall_mem_joinWith {P : CodePoint → Prop} {separator : Text} (hs : ∀ c ∈ separator, P c)
    {ts : List Text} (h : ∀ t ∈ ts, ∀ c ∈ t, P c) : ∀ c ∈ joinWith separator ts, P c := by
  induction ts with
  | nil => exact List.forall_mem_nil _
  | cons t rest ih =>
    obtain ⟨ht, hrest⟩ := List.forall_mem_cons.mp h
    by_cases hne : rest = []
    · rw [hne]
      exact ht
    · rw [joinWith_cons _ _ hne]
      exact List.forall_mem_append.mpr ⟨ht, List.forall_mem_append.mpr ⟨hs, ih hrest⟩⟩

/-- Leaving out pieces leaves out parts of the text. -/
theorem joinWith_sublist (separator : Text) {ts us : List Text} (h : ts.Sublist us) :
    (joinWith separator ts).Sublist (joinWith separator us) := by
  -- A piece is followed by a separator exactly if another one follows, so the empty list is a case of its
  -- own each time.
  induction h with
  | slnil => exact .slnil
  | @cons ts us u h ih =>
    by_cases hus : us = []
    · subst hus
      obtain rfl := List.sublist_nil.mp h
      exact List.nil_sublist _
    · rw [joinWith_cons _ _ hus]
      exact (ih.trans (List.sublist_append_right separator _)).trans (List.sublist_append_right u _)
  | @cons_cons ts us u h ih =>
    by_cases hts : ts = []
    · subst hts
      by_cases hus : us = []
      · subst hus
        exact .refl _
      · rw [joinWith_cons _ _ hus]
        exact List.sublist_append_left u _
    · have hus : us ≠ [] := fun hus => hts (List.sublist_nil.mp (hus ▸ h))
      rw [joinWith_cons _ _ hts, joinWith_cons _ _ hus]
      exact (ih.append_left separator).append_left u

/-- A joined text ends as its last piece does. -/
theorem getLast?_joinWith {separator : Text} {ts : List Text} {t : Text} (ht : t ≠ []) :
    (joinWith separator (ts ++ [t])).getLast? = t.getLast? := by
  induction ts with
  | nil => rfl
  | cons u rest ih =>
    have hlast : (joinWith separator (rest ++ [t])).getLast? = some (t.getLast ht) := by
      rw [ih, List.getLast?_eq_some_getLast]
    rw [List.cons_append, joinWith_cons _ _ (by simp), List.getLast?_append, List.getLast?_append, hlast,
      List.getLast?_eq_some_getLast ht]
    rfl

/-! ## Splitting -/

section Splitting

variable {separator : CodePoint}

theorem splitOn_ne_nil (separator : CodePoint) (t : Text) : splitOn separator t ≠ [] := by
  cases t with
  | nil => exact List.cons_ne_nil _ _
  | cons c rest =>
    unfold splitOn
    split
    · exact List.cons_ne_nil _ _
    · split
      · exact List.cons_ne_nil _ _
      · exact List.cons_ne_nil _ _

theorem splitOn_cons_self (separator : CodePoint) (t : Text) :
    splitOn separator (separator :: t) = [] :: splitOn separator t := by
  obtain ⟨piece, pieces, h⟩ := List.exists_cons_of_ne_nil (splitOn_ne_nil separator t)
  rw [splitOn, h]
  exact if_pos rfl

theorem splitOn_cons_of_ne {c : CodePoint} (hc : c ≠ separator) {t piece : Text} {pieces : List Text}
    (h : splitOn separator t = piece :: pieces) :
    splitOn separator (c :: t) = (c :: piece) :: pieces := by
  rw [splitOn, h]
  exact if_neg hc

theorem joinWith_splitOn (separator : CodePoint) (t : Text) :
    joinWith [separator] (splitOn separator t) = t := by
  induction t with
  | nil => rfl
  | cons c rest ih =>
    by_cases hc : c = separator
    · subst hc
      rw [splitOn_cons_self, joinWith_cons _ _ (splitOn_ne_nil c rest), ih]
      rfl
    · obtain ⟨piece, pieces, h⟩ := List.exists_cons_of_ne_nil (splitOn_ne_nil separator rest)
      rw [splitOn_cons_of_ne hc h]
      rw [h] at ih
      cases pieces with
      | nil => exact congrArg (c :: ·) ih
      | cons _ _ => exact congrArg (c :: ·) ih

/-- No piece holds the separator. -/
theorem not_mem_of_mem_splitOn {t piece : Text} (h : piece ∈ splitOn separator t) : separator ∉ piece := by
  induction t generalizing piece with
  | nil =>
    rw [List.mem_singleton.mp h]
    exact List.not_mem_nil
  | cons c rest ih =>
    -- The first code point either begins an empty piece of its own or joins the first piece of the rest.
    obtain ⟨first, others, hrest⟩ := List.exists_cons_of_ne_nil (splitOn_ne_nil separator rest)
    by_cases hc : c = separator
    · subst hc
      rw [splitOn_cons_self] at h
      rcases List.mem_cons.mp h with rfl | h
      · exact List.not_mem_nil
      · exact ih h
    · rw [splitOn_cons_of_ne hc hrest] at h
      rw [hrest] at ih
      rcases List.mem_cons.mp h with rfl | h
      · exact List.not_mem_cons_of_ne_of_not_mem (Ne.symm hc) (ih List.mem_cons_self)
      · exact ih (List.mem_cons_of_mem _ h)

/-- A separator between two texts parts their pieces. -/
theorem splitOn_append_separator (t u : Text) :
    splitOn separator (t ++ separator :: u) = splitOn separator t ++ splitOn separator u := by
  induction t with
  | nil => exact splitOn_cons_self separator u
  | cons c rest ih =>
    by_cases hc : c = separator
    · subst hc
      rw [List.cons_append, splitOn_cons_self, splitOn_cons_self, ih, List.cons_append]
    · obtain ⟨piece, pieces, hrest⟩ := List.exists_cons_of_ne_nil (splitOn_ne_nil separator rest)
      rw [hrest, List.cons_append] at ih
      rw [List.cons_append, splitOn_cons_of_ne hc ih, splitOn_cons_of_ne hc hrest, List.cons_append]

theorem splitOn_of_not_mem {piece : Text} (h : separator ∉ piece) : splitOn separator piece = [piece] := by
  induction piece with
  | nil => rfl
  | cons c rest ih =>
    rw [List.mem_cons, not_or] at h
    obtain ⟨hc, hrest⟩ := h
    exact splitOn_cons_of_ne (Ne.symm hc) (ih hrest)

theorem splitOn_append {piece : Text} (h : separator ∉ piece) (t : Text) :
    splitOn separator (piece ++ separator :: t) = piece :: splitOn separator t := by
  rw [splitOn_append_separator, splitOn_of_not_mem h, List.singleton_append]

theorem splitOn_joinWith {pieces : List Text} (hne : pieces ≠ []) (h : ∀ piece ∈ pieces, separator ∉ piece) :
    splitOn separator (joinWith [separator] pieces) = pieces := by
  induction pieces with
  | nil => exact absurd rfl hne
  | cons piece rest ih =>
    obtain ⟨hpiece, hrest⟩ := List.forall_mem_cons.mp h
    by_cases hnil : rest = []
    · rw [hnil]
      exact splitOn_of_not_mem hpiece
    · rw [joinWith_cons _ _ hnil, List.singleton_append, splitOn_append hpiece, ih hnil hrest]

end Splitting

end CanonStore.Text
