/-
# Results of computations that may fail

What is known of the parts of a computation from its result, when a row of computations has a
result, and when two rows have the same. The same for changes of a state (`of_bind_ok`,
`of_bind_error`), where the second one starts with what the first one leaves.
-/
import Mathlib.Data.List.Forall2

namespace TableKeys

lemma exists_of_bind_eq_ok {ε α β : Type} {x : Except ε α} {f : α → Except ε β} {b : β}
    (h : (x >>= f) = .ok b) : ∃ a, x = .ok a ∧ f a = .ok b := by
  cases x with
  | error e => cases h
  | ok a => exact ⟨a, rfl, h⟩

/-- Two computations that begin in the same way. -/
lemma exists_of_binds_eq_ok {ε α β γ : Type} {x : Except ε α} {f : α → Except ε β}
    {g : α → Except ε γ} {b : β} {c : γ} (hf : (x >>= f) = .ok b) (hg : (x >>= g) = .ok c) :
    ∃ a, f a = .ok b ∧ g a = .ok c := by
  obtain ⟨a, ha, hb⟩ := exists_of_bind_eq_ok hf
  obtain ⟨a', ha', hc⟩ := exists_of_bind_eq_ok hg
  obtain rfl := Except.ok.inj (ha.symm.trans ha')
  exact ⟨a, hb, hc⟩

/-- Of two computations, the first or the second fails. -/
lemma error_of_bind_eq_error {ε α β : Type} {x : Except ε α} {f : α → Except ε β} {e : ε}
    (h : (x >>= f) = .error e) : x = .error e ∨ ∃ a, x = .ok a ∧ f a = .error e := by
  cases x with
  | error e' => exact Or.inl (congrArg Except.error (Except.error.inj h))
  | ok a => exact Or.inr ⟨a, rfl, h⟩

lemma error_of_map_eq_error {ε α β : Type} {x : Except ε α} {f : α → β} {e : ε}
    (h : f <$> x = .error e) : x = .error e := by
  cases x with
  | error e' => exact congrArg Except.error (Except.error.inj h)
  | ok a => cases h

lemma exists_of_map_eq_ok {ε α β : Type} {x : Except ε α} {f : α → β} {b : β}
    (h : f <$> x = .ok b) : ∃ a, x = .ok a ∧ f a = b := by
  cases x with
  | error e => cases h
  | ok a => exact ⟨a, rfl, Except.ok.inj h⟩

lemma mapM_congr_of_mem {ε α β : Type} {f g : α → Except ε β} {as : List α}
    (h : ∀ a ∈ as, f a = g a) : as.mapM f = as.mapM g := by
  induction as with
  | nil => rfl
  | cons a as ih =>
    rw [List.mapM_cons, List.mapM_cons, h a (by simp), ih fun b hb => h b (by simp [hb])]

lemma exists_of_mem_right {α β : Type} {R : α → β → Prop} {as : List α} {bs : List β} {b : β}
    (h : List.Forall₂ R as bs) (hb : b ∈ bs) : ∃ a ∈ as, R a b := by
  induction h with
  | nil => cases hb
  | @cons a b' as bs hab _ ih =>
    rcases List.mem_cons.mp hb with rfl | hb
    · exact ⟨a, by simp, hab⟩
    · obtain ⟨a', ha', hR⟩ := ih hb
      exact ⟨a', by simp [ha'], hR⟩

lemma forall₂_of_mapM_ok {ε α β : Type} {f : α → Except ε β} {as : List α} {bs : List β}
    (h : as.mapM f = .ok bs) : List.Forall₂ (fun a b => f a = .ok b) as bs := by
  induction as generalizing bs with
  | nil =>
    obtain rfl := Except.ok.inj h
    exact .nil
  | cons a as ih =>
    rw [List.mapM_cons] at h
    obtain ⟨b, ha, h⟩ := exists_of_bind_eq_ok h
    obtain ⟨bs', has, h⟩ := exists_of_bind_eq_ok h
    obtain rfl := Except.ok.inj h
    exact .cons ha (ih has)

lemma mapM_ok_mem {ε α β : Type} {f : α → Except ε β} {as : List α} {bs : List β}
    (h : as.mapM f = .ok bs) : ∀ a ∈ as, ∃ b ∈ bs, f a = .ok b :=
  fun _ ha => exists_of_mem_right (R := fun b a => f a = .ok b) (forall₂_of_mapM_ok h).flip ha

lemma mem_of_mapM_ok {ε α β : Type} {f : α → Except ε β} {as : List α} {bs : List β}
    (h : as.mapM f = .ok bs) : ∀ b ∈ bs, ∃ a ∈ as, f a = .ok b :=
  fun _ hb => exists_of_mem_right (R := fun a b => f a = .ok b) (forall₂_of_mapM_ok h) hb

lemma exists_mapM_ok {ε α β : Type} {f : α → Except ε β} {as : List α}
    (h : ∀ a ∈ as, ∃ b, f a = .ok b) : ∃ bs, as.mapM f = .ok bs := by
  induction as with
  | nil => exact ⟨[], rfl⟩
  | cons a as ih =>
    obtain ⟨b, hb⟩ := h a (by simp)
    obtain ⟨bs, hbs⟩ := ih fun c hc => h c (by simp [hc])
    exact ⟨b :: bs, by rw [List.mapM_cons, hb, hbs]; rfl⟩

/-- A row fails where one of its computations does. -/
lemma exists_of_mapM_error {ε α β : Type} {f : α → Except ε β} {as : List α} {e : ε}
    (h : as.mapM f = .error e) : ∃ a ∈ as, f a = .error e := by
  induction as with
  | nil => cases h
  | cons a as ih =>
    rw [List.mapM_cons] at h
    rcases error_of_bind_eq_error h with ha | ⟨b, -, h⟩
    · exact ⟨a, by simp, ha⟩
    · rcases error_of_bind_eq_error h with has | ⟨bs, -, h⟩
      · obtain ⟨c, hc, he⟩ := ih has
        exact ⟨c, by simp [hc], he⟩
      · cases h

lemma exists_foldlM_ok {ε α β : Type} {f : β → α → Except ε β} (h : ∀ b a, ∃ b', f b a = .ok b')
    (as : List α) (b : β) : ∃ b', as.foldlM f b = .ok b' := by
  induction as generalizing b with
  | nil => exact ⟨b, rfl⟩
  | cons a as ih =>
    obtain ⟨b₁, hb₁⟩ := h b a
    obtain ⟨b', hb'⟩ := ih b₁
    exact ⟨b', by rw [List.foldlM_cons, hb₁]; exact hb'⟩

/-! ## Changes in sequence -/

/-- Of two changes in sequence, the second starts where the first ends well. -/
lemma of_bind_ok {ε σ α β : Type} {x : EStateM ε σ α} {f : α → EStateM ε σ β} {s s' : σ} {b : β}
    (h : (x >>= f) s = .ok b s') : ∃ a s₁, x s = .ok a s₁ ∧ f a s₁ = .ok b s' := by
  have hbind : EStateM.bind x f s = .ok b s' := h
  rw [EStateM.bind] at hbind
  cases hx : x s with
  | ok a s₁ =>
    rw [hx] at hbind
    exact ⟨a, s₁, rfl, hbind⟩
  | error e s₁ =>
    rw [hx] at hbind
    cases hbind

/-- Of two changes in sequence, either the first fails, or it ends well and the second fails. -/
lemma of_bind_error {ε σ α β : Type} {x : EStateM ε σ α} {f : α → EStateM ε σ β} {s s' : σ}
    {e : ε} (h : (x >>= f) s = .error e s') :
    x s = .error e s' ∨ ∃ a s₁, x s = .ok a s₁ ∧ f a s₁ = .error e s' := by
  have hbind : EStateM.bind x f s = .error e s' := h
  rw [EStateM.bind] at hbind
  cases hx : x s with
  | ok a s₁ =>
    rw [hx] at hbind
    exact .inr ⟨a, s₁, rfl, hbind⟩
  | error e' s₁ =>
    rw [hx] at hbind
    exact .inl (by simpa using hbind)

end TableKeys
