import Mathlib.Data.List.Forall2

/-!
# Parts and outcomes

Facts about lists that are walked part by part, and about computations that may fail, for any types.
Two lists whose parts are related one by one are related by `List.Forall₂`; where the order of the second
one does not matter, they are so after a rearrangement.
-/

namespace CanonStore

/-! ## Lists part by part -/

section Pairs

variable {α β : Type} {R : α → β → Prop} {l : List α} {u : List β}

/-- A relation of parts that holds where another one does, part by part. -/
theorem forall₂_imp_of_mem {S : α → β → Prop}
    (hR : List.Forall₂ R l u) (h : ∀ a ∈ l, ∀ b, R a b → S a b) : List.Forall₂ S l u :=
  ((List.forall₂_and_left l u).mpr ⟨h, hR⟩).imp fun _ b ⟨hab, hr⟩ => hab b hr

/-- Parts that are related through a list in between. -/
theorem forall₂_trans_of_mem {γ : Type} {S : β → γ → Prop} {T : α → γ → Prop} {v : List γ}
    (hR : List.Forall₂ R l u) (hS : List.Forall₂ S u v)
    (h : ∀ a ∈ l, ∀ b c, R a b → S b c → T a c) : List.Forall₂ T l v := by
  induction hR generalizing v with
  | nil =>
    obtain rfl := List.forall₂_nil_left_iff.mp hS
    exact .nil
  | cons hab _ ih =>
    obtain ⟨c, v, hbc, hrest, rfl⟩ := List.forall₂_cons_left_iff.mp hS
    obtain ⟨hfirst, h⟩ := List.forall_mem_cons.mp h
    exact .cons (hfirst _ c hab hbc) (ih hrest h)

/-- What is known of the parts of one list is carried over to the parts of another. -/
theorem forall₂_transport {γ δ : Type} {F : α → γ → Prop} {G : β → δ → Prop} {S : γ → δ → Prop}
    {v : List γ} (hR : List.Forall₂ R l u) (hF : List.Forall₂ F l v)
    (h : ∀ a ∈ l, ∀ b c, R a b → F a c → ∃ d, G b d ∧ S c d) :
    ∃ w, List.Forall₂ G u w ∧ List.Forall₂ S v w := by
  induction hR generalizing v with
  | nil =>
    obtain rfl := List.forall₂_nil_left_iff.mp hF
    exact ⟨[], .nil, .nil⟩
  | cons hab _ ih =>
    obtain ⟨c, v, hac, hrest, rfl⟩ := List.forall₂_cons_left_iff.mp hF
    obtain ⟨hfirst, h⟩ := List.forall_mem_cons.mp h
    obtain ⟨d, hd, hcd⟩ := hfirst _ c hab hac
    obtain ⟨w, hw, hvw⟩ := ih hrest h
    exact ⟨d :: w, .cons hd hw, .cons hcd hvw⟩

/-- Parts that are related through something in between are related through a list of such things. -/
theorem exists_forall₂ {δ : Type} {F : α → δ → Prop} {G : β → δ → Prop}
    (h : List.Forall₂ (fun a b => ∃ d, F a d ∧ G b d) l u) :
    ∃ w, List.Forall₂ F l w ∧ List.Forall₂ G u w := by
  induction h with
  | nil => exact ⟨[], .nil, .nil⟩
  | cons hab _ ih =>
    obtain ⟨d, hF, hG⟩ := hab
    obtain ⟨w, hlw, huw⟩ := ih
    exact ⟨d :: w, .cons hF hlw, .cons hG huw⟩

theorem exists_forall₂_of_forall {δ : Type} {F : α → δ → Prop} (h : ∀ a ∈ l, ∃ d, F a d) :
    ∃ w, List.Forall₂ F l w := by
  have hdiag : List.Forall₂ (fun a b => ∃ d, F a d ∧ F b d) l l := by
    apply List.forall₂_same.mpr
    intro a ha
    obtain ⟨d, hd⟩ := h a ha
    exact ⟨d, hd, hd⟩
  obtain ⟨w, hw, _⟩ := exists_forall₂ hdiag
  exact ⟨w, hw⟩

/-- If every list of parts that may stand for those of `l` has related parts, then so has every part that
may stand for one of `l`. -/
theorem forall₂_of_replaced {P : α → α → Prop} {S : β → β → Prop} (hrefl : ∀ a, P a a)
    (hR : List.Forall₂ R l u)
    (h : ∀ v, List.Forall₂ P l v → ∃ w, List.Forall₂ R v w ∧ List.Forall₂ S u w) :
    List.Forall₂ (fun a b => R a b ∧ ∀ c, P a c → ∃ d, R c d ∧ S b d) l u := by
  induction hR with
  | nil => exact .nil
  | @cons a b l u hab hrest ih =>
    refine .cons ⟨hab, fun c hac => ?_⟩ (ih fun v hlv => ?_)
    · -- Only the first part is replaced.
      obtain ⟨w, hw, hS⟩ := h (c :: l) (.cons hac (List.forall₂_same.mpr fun a _ => hrefl a))
      obtain ⟨d, w, hcd, _, rfl⟩ := List.forall₂_cons_left_iff.mp hw
      exact ⟨d, hcd, (List.forall₂_cons.mp hS).1⟩
    · -- The first part stays, and the others are replaced.
      obtain ⟨w, hw, hS⟩ := h (a :: v) (.cons (hrefl a) hlv)
      obtain ⟨d, w, _, hvw, rfl⟩ := List.forall₂_cons_left_iff.mp hw
      exact ⟨w, hvw, (List.forall₂_cons.mp hS).2⟩

/-- Two lists that are paired with a third one, part by part. -/
theorem forall₂_zip_left {γ : Type} (v : List γ) (h : List.Forall₂ R l u) :
    List.Forall₂ (fun p q => p.1 = q.1 ∧ R p.2 q.2) (v.zip l) (v.zip u) := by
  induction h generalizing v with
  | nil =>
    rw [List.zip_nil_right, List.zip_nil_right]
    exact .nil
  | cons hab _ ih =>
    cases v with
    | nil => exact .nil
    | cons c v => exact .cons ⟨rfl, hab⟩ (ih v)

theorem map_eq_map_iff_forall₂ {γ : Type} {f : α → γ} {g : β → γ} :
    l.map f = u.map g ↔ List.Forall₂ (fun a b => f a = g b) l u := by
  rw [← List.forall₂_eq_eq_eq, List.forall₂_map_left_iff, List.forall₂_map_right_iff]

/-- Every member of the first list has its partner in the second. -/
theorem exists_of_mem_left (h : List.Forall₂ R l u) {a : α} (ha : a ∈ l) : ∃ b ∈ u, R a b := by
  induction h with
  | nil => cases ha
  | cons hab _ ih =>
    rcases List.mem_cons.mp ha with rfl | ha
    · exact ⟨_, List.mem_cons_self, hab⟩
    · obtain ⟨b, hb, hr⟩ := ih ha
      exact ⟨b, List.mem_cons_of_mem _ hb, hr⟩

/-- Every member of the second list has its partner in the first. -/
theorem exists_of_mem_right (h : List.Forall₂ R l u) {b : β} (hb : b ∈ u) : ∃ a ∈ l, R a b := by
  obtain ⟨a, ha, hr⟩ := exists_of_mem_left h.flip hb
  exact ⟨a, ha, hr⟩

/-- What holds of all parts of one list holds, in terms of the other, of all parts of the other. -/
theorem forall_mem_iff_of_forall₂ {P : α → Prop} {Q : β → Prop} (hR : List.Forall₂ R l u)
    (h : ∀ a ∈ l, ∀ b, R a b → (P a ↔ Q b)) : (∀ a ∈ l, P a) ↔ ∀ b ∈ u, Q b := by
  induction hR with
  | nil => simp
  | cons hab _ ih =>
    rw [List.forall_mem_cons] at h
    rw [List.forall_mem_cons, List.forall_mem_cons, h.1 _ hab, ih h.2]

/-- A relation of parts, with the place of the second one. -/
theorem forall₂_and_mem (h : List.Forall₂ R l u) : List.Forall₂ (fun a b => R a b ∧ b ∈ u) l u :=
  (forall₂_imp_of_mem h.flip fun _ hb _ hab => ⟨hab, hb⟩).flip

/-- What matches two lists in a row falls into two parts, one for each. -/
theorem exists_append_of_forall₂ {l' : List α} (h : List.Forall₂ R (l ++ l') u) :
    ∃ v v', u = v ++ v' ∧ List.Forall₂ R l v ∧ List.Forall₂ R l' v' := by
  induction l generalizing u with
  | nil => exact ⟨[], u, rfl, .nil, h⟩
  | cons a l ih =>
    obtain ⟨b, u, hab, hrest, rfl⟩ := List.forall₂_cons_left_iff.mp h
    obtain ⟨v, v', rfl, hv, hv'⟩ := ih hrest
    exact ⟨b :: v, v', rfl, .cons hab hv, hv'⟩

theorem map_fst_zip_sublist (l : List α) (u : List β) : ((l.zip u).map Prod.fst).Sublist l := by
  induction l generalizing u with
  | nil => exact .slnil
  | cons a l ih =>
    cases u with
    | nil => exact List.nil_sublist _
    | cons b u => exact (ih u).cons_cons a

/-- A relation of lists that takes off related parts at the front of both relates them part by part. -/
theorem iff_forall₂_of_cons {P : List α → List β → Prop} (hnil : ∀ u, P [] u ↔ u = [])
    (hcons : ∀ a l u, P (a :: l) u ↔ ∃ b v, u = b :: v ∧ R a b ∧ P l v) :
    P l u ↔ List.Forall₂ R l u := by
  induction l generalizing u with
  | nil => rw [hnil, List.forall₂_nil_left_iff]
  | cons a l ih =>
    rw [hcons, List.forall₂_cons_left_iff]
    constructor
    · rintro ⟨b, v, rfl, hab, hrest⟩
      exact ⟨b, v, hab, ih.mp hrest, rfl⟩
    · rintro ⟨b, v, hab, hrest, rfl⟩
      exact ⟨b, v, rfl, hab, ih.mpr hrest⟩

/-- A relation of lists that takes off a part at the front of one and a related part anywhere in the other
relates them up to the order of the other. -/
theorem iff_exists_perm_of_cons {P : List α → List β → Prop} (hnil : ∀ u, P [] u ↔ u = [])
    (hcons : ∀ a l u, P (a :: l) u ↔
      ∃ before b after, u = before ++ b :: after ∧ R a b ∧ P l (before ++ after)) :
    P l u ↔ ∃ ordered, List.Forall₂ R l ordered ∧ ordered.Perm u := by
  induction l generalizing u with
  | nil =>
    rw [hnil]
    constructor
    · rintro rfl
      exact ⟨[], .nil, .refl []⟩
    · rintro ⟨ordered, hpairs, hperm⟩
      obtain rfl := List.forall₂_nil_left_iff.mp hpairs
      exact hperm.nil_eq.symm
  | cons a l ih =>
    rw [hcons]
    constructor
    · rintro ⟨before, b, after, rfl, hab, hrest⟩
      obtain ⟨ordered, hpairs, hperm⟩ := ih.mp hrest
      exact ⟨b :: ordered, .cons hab hpairs, (hperm.cons b).trans List.perm_middle.symm⟩
    · rintro ⟨ordered, hpairs, hperm⟩
      obtain ⟨b, ordered, hab, hrest, rfl⟩ := List.forall₂_cons_left_iff.mp hpairs
      -- The partner of the first part stands somewhere among the others.
      obtain ⟨before, after, rfl⟩ := List.append_of_mem (hperm.subset List.mem_cons_self)
      refine ⟨before, b, after, rfl, hab, ih.mpr ⟨ordered, hrest, ?_⟩⟩
      exact (hperm.trans List.perm_middle).cons_inv

end Pairs

/-! ## Walks

Definitions on trees walk a list of parts by a recursion of their own. Each lemma here recognizes a walk of
the library from the two equations of such a recursion. -/

section Walks

variable {α β : Type}

/-- A property of lists that takes off a part at the front says something of all parts. -/
theorem iff_forall_mem_of_cons {P : List α → Prop} {Q : α → Prop} (hnil : P [])
    (hcons : ∀ a l, P (a :: l) ↔ Q a ∧ P l) (l : List α) : P l ↔ ∀ a ∈ l, Q a := by
  induction l with
  | nil => exact iff_of_true hnil (List.forall_mem_nil Q)
  | cons a l ih => rw [hcons, ih, List.forall_mem_cons]

/-- A function that goes through a list and treats each member alike is a map. -/
theorem eq_map_of_cons {f : List α → List β} {g : α → β} (hnil : f [] = [])
    (hcons : ∀ a l, f (a :: l) = g a :: f l) (l : List α) : f l = l.map g := by
  induction l with
  | nil => exact hnil
  | cons a l ih => rw [hcons, ih, List.map_cons]

/-- A function that goes through a list and asks each member alike asks for any of them. -/
theorem eq_any_of_cons {f : List α → Bool} {p : α → Bool} (hnil : f [] = false)
    (hcons : ∀ a l, f (a :: l) = (p a || f l)) (l : List α) : f l = l.any p := by
  induction l with
  | nil => exact hnil
  | cons a l ih => rw [hcons, ih, List.any_cons]

end Walks

/-! ## Lists cut short -/

section Cuts

variable {α : Type} {p s t : List α}

/-- A list cut short: it starts the other one and is not all of it. -/
def Cut (p t : List α) : Prop := p <+: t ∧ p ≠ t

theorem not_cut_nil : ¬ Cut p ([] : List α) := fun h => h.2 (List.prefix_nil.mp h.1)

theorem cut_nil_of_ne (h : t ≠ []) : Cut [] t := ⟨List.nil_prefix, h.symm⟩

/-- A beginning of a list that is not all of it is empty, or starts alike and goes on with one. -/
theorem cut_cons_iff {a : α} : Cut p (a :: t) ↔ p = [] ∨ ∃ q, p = a :: q ∧ Cut q t := by
  unfold Cut
  rw [List.prefix_cons_iff]
  constructor
  · rintro ⟨rfl | ⟨q, rfl, hq⟩, hne⟩
    · exact .inl rfl
    · exact .inr ⟨q, rfl, hq, fun h => hne (h ▸ rfl)⟩
  · rintro (rfl | ⟨q, rfl, hq, hne⟩)
    · exact ⟨.inl rfl, (List.cons_ne_nil _ _).symm⟩
    · exact ⟨.inr ⟨q, rfl, hq⟩, fun h => hne (List.cons.inj h).2⟩

/-- A text of two parts is cut inside the first part, or after it and inside the second one. -/
theorem Cut.append_cases (h : Cut p (s ++ t)) : Cut p s ∨ ∃ q, p = s ++ q ∧ Cut q t := by
  induction s generalizing p with
  | nil => exact .inr ⟨p, rfl, h⟩
  | cons a s ih =>
    rcases cut_cons_iff.mp h with rfl | ⟨q, rfl, hq⟩
    · exact .inl (cut_nil_of_ne (List.cons_ne_nil a s))
    · rcases ih hq with hs | ⟨r, rfl, hr⟩
      · exact .inl (cut_cons_iff.mpr (.inr ⟨q, rfl, hs⟩))
      · exact .inr ⟨r, rfl, hr⟩

theorem Cut.eq_nil_of_singleton {a : α} (h : Cut p [a]) : p = [] := by
  rcases cut_cons_iff.mp h with rfl | ⟨q, rfl, hq⟩
  · rfl
  · exact absurd hq not_cut_nil

theorem Cut.subset (h : Cut p t) : p ⊆ t := h.1.subset

theorem Cut.length_lt (h : Cut p t) : p.length < t.length :=
  Nat.lt_of_le_of_ne h.1.length_le fun heq => h.2 (h.1.eq_of_length heq)

end Cuts

/-! ## Outcomes -/

section Outcomes

variable {ε α β : Type} {b : β}

/-- Two steps succeed if the first does and the second does with its result. -/
theorem bind_eq_ok_iff {x : Except ε α} {f : α → Except ε β} :
    (x >>= f) = .ok b ↔ ∃ a, x = .ok a ∧ f a = .ok b := by
  cases x with
  | error e => simp [bind, Except.bind]
  | ok a => simp [bind, Except.bind]

/-- Two steps fail if the first does, or the second does with its result. -/
theorem bind_eq_error_iff {x : Except ε α} {f : α → Except ε β} {e : ε} :
    (x >>= f) = .error e ↔ x = .error e ∨ ∃ a, x = .ok a ∧ f a = .error e := by
  cases x with
  | error e' => simp [bind, Except.bind]
  | ok a => simp [bind, Except.bind]

theorem ok_eq_ok_iff {a : β} : (.ok a : Except ε β) = .ok b ↔ b = a := by
  rw [Except.ok.injEq, eq_comm]

/-- One step of a walk that computes a part and then the rest. -/
theorem walk_eq_ok_iff {x : Except ε α} {rest : Except ε (List β)} {f : α → β} {l : List β} :
    (do let a ← x; let bs ← rest; pure (f a :: bs)) = .ok l ↔
      ∃ b bs, l = b :: bs ∧ (∃ a, x = .ok a ∧ b = f a) ∧ rest = .ok bs := by
  simp only [bind_eq_ok_iff]
  constructor
  · rintro ⟨a, ha, bs, hbs, h⟩
    exact ⟨f a, bs, (Except.ok.inj h).symm, ⟨a, ha, rfl⟩, hbs⟩
  · rintro ⟨_, bs, rfl, ⟨a, ha, rfl⟩, hbs⟩
    exact ⟨a, ha, bs, hbs, rfl⟩

/-- A walk fails at the part or in the rest. -/
theorem walk_eq_error {x : Except ε α} {rest : Except ε (List β)} {f : α → β} {e : ε}
    (h : (do let a ← x; let bs ← rest; pure (f a :: bs)) = .error e) : x = .error e ∨ rest = .error e := by
  rcases bind_eq_error_iff.mp h with hx | ⟨_, _, h⟩
  · exact .inl hx
  rcases bind_eq_error_iff.mp h with hrest | ⟨_, _, h⟩
  · exact .inr hrest
  · cases h

theorem map_eq_ok_iff {x : Except ε α} {f : α → β} : x.map f = .ok b ↔ ∃ a, x = .ok a ∧ f a = b := by
  cases x with
  | error e => simp [Except.map]
  | ok a => simp [Except.map]

theorem map_eq_error_iff {x : Except ε α} {f : α → β} {e : ε} : x.map f = .error e ↔ x = .error e := by
  cases x with
  | error e' => simp [Except.map]
  | ok a => simp [Except.map]

/-- A computation that is not even tried under some condition. -/
theorem guarded_eq_ok_iff {p : Prop} [Decidable p] {e : ε} {x : Except ε α} {f : α → β} :
    (if p then .error e else x.map f) = .ok b ↔ ¬ p ∧ ∃ a, x = .ok a ∧ b = f a := by
  split
  · next hp => simp [hp]
  · next hp =>
    rw [map_eq_ok_iff]
    simp only [hp, not_false_iff, true_and, eq_comm]

/-- A computation that is not tried, or that fails itself. -/
theorem guarded_eq_error_iff {p : Prop} [Decidable p] {e e' : ε} {x : Except ε α} {f : α → β} :
    (if p then .error e else x.map f) = .error e' ↔ p ∧ e' = e ∨ ¬ p ∧ x = .error e' := by
  split
  · next hp => simp [hp, eq_comm]
  · next hp => cases x <;> simp [hp, Except.map]

theorem mapError_eq_ok_iff {δ : Type} {x : Except ε β} {f : ε → δ} :
    x.mapError f = .ok b ↔ x = .ok b := by
  cases x with
  | error e => simp [Except.mapError]
  | ok a => simp [Except.mapError]

theorem mapError_eq_error_iff {δ : Type} {x : Except ε β} {f : ε → δ} {d : δ} :
    x.mapError f = .error d ↔ ∃ e, x = .error e ∧ f e = d := by
  cases x with
  | error e => simp [Except.mapError]
  | ok a => simp [Except.mapError]

end Outcomes

end CanonStore
