/-
# Looking up texts in maps

Maps may have keys of any kind, but templates only ask for texts. This file says what a map
answers for a text after puts under any keys, and after a whole row of puts: there the last
entry of the row counts (`Entries.last?`), and what was there before counts where the row
has nothing.

Two maps can also be compared entry by entry (`RowOf`): the same keys in the same order, with
related values. Lookups, puts and rows of puts respect this.
-/
import TableKeys.Data.MapKey
import Mathlib.Tactic.Common

namespace TableKeys

lemma Scalar.text_beq_iff {a : Scalar} {s : String} :
    (Scalar.text s == a) = true ↔ a = .text s := by
  cases a with
  | text t =>
    rw [text_beq_text, beq_iff_eq, text.injEq]
    exact eq_comm
  | _ => simp [BEq.beq, Scalar.equal, Scalar.number?]

lemma MapKey.text_beq_iff {k : MapKey} {s : String} : (text s == k) = true ↔ k = text s := by
  cases k with
  | scalar a => rw [scalar_beq_scalar, Scalar.text_beq_iff, scalar.injEq]
  | pair name k => exact ⟨fun h => Bool.noConfusion h, fun h => MapKey.noConfusion h⟩

namespace Entries

section General

variable {κ α : Type} [BEq κ]

lemma get?_put [LawfulBEq κ] [DecidableEq κ] (m : Entries κ α) (k j : κ) (v : α) :
    (m.put k v).get? j = if k = j then some v else m.get? j := by
  by_cases h : k = j
  · rw [if_pos h, ← h, get?_put_self]
  · rw [if_neg h, get?_put_of_ne _ _ (by simpa using h)]

/-- Of two puts under one key the second counts. -/
lemma put_put [ReflBEq κ] (m : Entries κ α) (k : κ) (v w : α) :
    (m.put k v).put k w = m.put k w := by
  induction m with
  | nil => simp [put]
  | cons entry rest ih =>
    obtain ⟨k', v'⟩ := entry
    by_cases hk : (k' == k) = true
    · simp [put_cons, hk]
    · simp [put_cons, hk, ih]

lemma forall_mem_put {P : α → Prop} {m : Entries κ α} {k : κ} {v : α} (hm : ∀ e ∈ m, P e.2)
    (hv : P v) : ∀ e ∈ m.put k v, P e.2 := by
  induction m with
  | nil => exact List.forall_mem_singleton.mpr hv
  | cons entry m ih =>
    obtain ⟨hentry, hm⟩ := List.forall_mem_cons.mp hm
    rw [put_cons]
    split
    · exact List.forall_mem_cons.mpr ⟨hv, hm⟩
    · exact List.forall_mem_cons.mpr ⟨hentry, ih hm⟩

lemma forall_mem_putAll {P : α → Prop} {m n : Entries κ α} (hm : ∀ e ∈ m, P e.2)
    (hn : ∀ e ∈ n, P e.2) : ∀ e ∈ m.putAll n, P e.2 := by
  induction n generalizing m with
  | nil => exact hm
  | cons entry n ih =>
    obtain ⟨hentry, hn⟩ := List.forall_mem_cons.mp hn
    exact ih (forall_mem_put hm hentry) hn

lemma get?_append (m n : Entries κ α) (k : κ) :
    get? (m ++ n) k = (m.get? k).or (n.get? k) := by
  induction m with
  | nil => simp
  | cons entry rest ih =>
    obtain ⟨k', v⟩ := entry
    rw [List.cons_append, get?_cons, get?_cons, ih]
    split <;> rfl

lemma putAll_nil (m : Entries κ α) : m.putAll [] = m := rfl

lemma putAll_cons (m : Entries κ α) (k : κ) (v : α) (es : List (κ × α)) :
    m.putAll ((k, v) :: es) = (m.put k v).putAll es := rfl

/-- A new key comes at the end. -/
lemma put_of_has_eq_false {m : Entries κ α} {k : κ} (h : m.has k = false) (v : α) :
    m.put k v = m ++ [(k, v)] := by
  induction m with
  | nil => rfl
  | cons entry rest ih =>
    obtain ⟨k', w⟩ := entry
    rw [has, get?_cons] at h
    split at h
    · cases h
    · rename_i hk
      rw [put_cons, if_neg hk, ih h, List.cons_append]

lemma mapValues_put {β : Type} (f : α → β) (m : Entries κ α) (k : κ) (v : α) :
    (m.put k v).mapValues f = (m.mapValues f).put k (f v) := by
  induction m with
  | nil => rfl
  | cons entry rest ih =>
    obtain ⟨k', w⟩ := entry
    simp only [mapValues, List.map_cons, put_cons] at ih ⊢
    split
    · rfl
    · rw [List.map_cons, ih]

lemma mapValues_putAll {β : Type} (f : α → β) (m : Entries κ α) (es : List (κ × α)) :
    (m.putAll es).mapValues f = (m.mapValues f).putAll (mapValues f es) := by
  induction es generalizing m with
  | nil => rfl
  | cons entry rest ih =>
    obtain ⟨k, v⟩ := entry
    rw [putAll_cons, ih, mapValues_put]
    rfl

lemma get?_mapValues {β : Type} (f : α → β) (m : Entries κ α) (k : κ) :
    (m.mapValues f).get? k = (m.get? k).map f := by
  induction m with
  | nil => rfl
  | cons entry rest ih =>
    obtain ⟨k', v⟩ := entry
    simp only [mapValues, List.map_cons, get?_cons] at ih ⊢
    split
    · rfl
    · exact ih

/-- The value of the last entry under a key. -/
def last? (es : List (κ × α)) (k : κ) : Option α :=
  match es with
  | [] => none
  | (k', v) :: rest => (last? rest k).or (if k' == k then some v else none)

lemma isSome_last? (es : Entries κ α) (k : κ) : (last? es k).isSome = es.has k := by
  induction es with
  | nil => rfl
  | cons entry rest ih =>
    obtain ⟨k', v⟩ := entry
    rw [has] at ih ⊢
    rw [last?, get?_cons]
    by_cases hk : (k' == k) = true
    · simp [hk]
    · simpa [hk] using ih

/-- Reading after a row of puts: the last entry of the row counts. -/
lemma get?_putAll [LawfulBEq κ] (m : Entries κ α) (es : List (κ × α)) (k : κ) :
    (m.putAll es).get? k = (last? es k).or (m.get? k) := by
  induction es generalizing m with
  | nil => rfl
  | cons entry rest ih =>
    obtain ⟨k', v⟩ := entry
    rw [putAll_cons, ih, last?, Option.or_assoc]
    congr 1
    by_cases hk : (k' == k) = true
    · rw [if_pos hk, eq_of_beq hk, get?_put_self, Option.some_or]
    · rw [if_neg hk, get?_put_of_ne _ _ (by simpa using hk), Option.none_or]

lemma get?_ofList [LawfulBEq κ] (es : List (κ × α)) (k : κ) : (ofList es).get? k = last? es k := by
  rw [ofList, get?_putAll, get?_nil, Option.or_none]

lemma mem_keys_put [LawfulBEq κ] {m : Entries κ α} {k j : κ} {v : α} :
    j ∈ (m.put k v).keys ↔ j = k ∨ j ∈ m.keys := by
  induction m with
  | nil => simp [put, keys]
  | cons entry rest ih =>
    obtain ⟨k', w⟩ := entry
    simp only [keys] at ih ⊢
    rw [put_cons]
    split
    · rename_i hk
      obtain rfl := eq_of_beq hk
      simp
    · simp only [List.map_cons, List.mem_cons, ih]
      exact or_left_comm

lemma mem_keys_putAll [LawfulBEq κ] {m : Entries κ α} {es : List (κ × α)} {j : κ} :
    j ∈ (m.putAll es).keys ↔ j ∈ es.map Prod.fst ∨ j ∈ m.keys := by
  induction es generalizing m with
  | nil => simp [putAll_nil]
  | cons entry rest ih =>
    obtain ⟨k, v⟩ := entry
    rw [putAll_cons, ih, mem_keys_put, List.map_cons, List.mem_cons, or_left_comm, or_assoc]

/-- The keys of the map of a list are the keys in the list. -/
lemma mem_keys_ofList [LawfulBEq κ] {es : List (κ × α)} {j : κ} :
    j ∈ (ofList es).keys ↔ j ∈ es.map Prod.fst := by
  rw [ofList, mem_keys_putAll]
  simp [keys]

/-- What is read last is in the list. -/
lemma mem_of_last? [LawfulBEq κ] {es : List (κ × α)} {k : κ} {v : α} (h : last? es k = some v) :
    (k, v) ∈ es := by
  induction es with
  | nil => cases h
  | cons entry rest ih =>
    obtain ⟨k', w⟩ := entry
    rw [last?, Option.or_eq_some_iff] at h
    rcases h with h | ⟨-, h⟩
    · exact List.mem_cons_of_mem _ (ih h)
    · split at h
      · rename_i hk
        rw [← eq_of_beq hk, ← Option.some.inj h]
        exact List.mem_cons_self
      · cases h

lemma isSome_last?_of_mem [ReflBEq κ] {es : List (κ × α)} {e : κ × α} (h : e ∈ es) :
    (last? es e.1).isSome := by
  induction es with
  | nil => cases h
  | cons entry rest ih =>
    rw [last?, Option.isSome_or]
    rcases List.mem_cons.mp h with rfl | h
    · simp
    · rw [ih h, Bool.true_or]

/-- **Every entry of a list can be read back if and only if no key has two values.** -/
theorem last?_eq_some_iff [LawfulBEq κ] {es : List (κ × α)} :
    (∀ e ∈ es, last? es e.1 = some e.2) ↔ ∀ e ∈ es, ∀ f ∈ es, e.1 = f.1 → e.2 = f.2 := by
  constructor
  · intro h e he f hf hkey
    have hread := h e he
    rw [hkey, h f hf] at hread
    exact (Option.some.inj hread).symm
  · intro h e he
    obtain ⟨v, hv⟩ := Option.isSome_iff_exists.mp (isSome_last?_of_mem he)
    rw [hv, h e he (e.1, v) (mem_of_last? hv) rfl]

end General

section Texts

variable {α : Type}

/-- The entries with texts as keys. -/
def texts (m : Entries String α) : Entries MapKey α :=
  m.map fun (name, value) => (.text name, value)

lemma get?_texts (m : Entries String α) (t : String) : m.texts.get? (.text t) = m.get? t := by
  induction m with
  | nil => rfl
  | cons entry rest ih =>
    obtain ⟨name, v⟩ := entry
    simp only [texts, List.map_cons, get?_cons, MapKey.scalar_beq_scalar,
      Scalar.text_beq_text] at ih ⊢
    rw [ih]

lemma texts_put (m : Entries String α) (k : String) (v : α) :
    (m.put k v).texts = m.texts.put (.text k) v := by
  induction m with
  | nil => rfl
  | cons entry rest ih =>
    obtain ⟨name, w⟩ := entry
    rw [put_cons]
    simp only [texts, List.map_cons, put_cons, MapKey.scalar_beq_scalar,
      Scalar.text_beq_text] at ih ⊢
    split
    · rfl
    · rw [List.map_cons, ih]

/-- Reading under a text after a put under any key. -/
lemma get?_text_put (m : Entries MapKey α) (k : MapKey) (t : String) (v : α) :
    (m.put k v).get? (.text t) = if k = .text t then some v else m.get? (.text t) := by
  by_cases hk : k = .text t
  · rw [hk, get?_put_text, if_pos rfl, if_pos rfl]
  · rw [if_neg hk]
    induction m with
    | nil => simp [put, get?_cons, MapKey.beq_text_iff, hk]
    | cons entry rest ih =>
      obtain ⟨k', w⟩ := entry
      by_cases h : (k' == k) = true
      · have ht : ¬ (k' == .text t) = true := by
          intro ht
          rw [MapKey.beq_text_iff.mp ht] at h
          exact hk (MapKey.text_beq_iff.mp h)
        rw [put_cons, if_pos h, get?_cons, get?_cons, if_neg ht, if_neg ht]
      · rw [put_cons, if_neg h, get?_cons, get?_cons, ih]

/-- Reading under a text after a row of puts. -/
lemma get?_text_putAll (m : Entries MapKey α) (es : List (MapKey × α)) (t : String) :
    (m.putAll es).get? (.text t) = (last? es (.text t)).or (m.get? (.text t)) := by
  induction es generalizing m with
  | nil => simp [putAll_nil, last?]
  | cons entry rest ih =>
    obtain ⟨k, v⟩ := entry
    rw [putAll_cons, ih, get?_text_put, last?]
    by_cases hk : k = .text t
    · simp [hk]
    · simp [hk, MapKey.beq_text_iff]

lemma last?_text_put {es : Entries MapKey α} {s t : String} (h : s ≠ t) (v : α) :
    last? (es.put (.text s) v) (.text t) = last? es (.text t) := by
  induction es with
  | nil => simp [put, last?, h]
  | cons entry rest ih =>
    obtain ⟨k, w⟩ := entry
    by_cases hk : (k == .text s) = true
    · obtain rfl := MapKey.beq_text_iff.mp hk
      simp [put_cons, last?, h]
    · simp [put_cons, hk, last?, ih]

/-! ### Rows of puts under texts -/

end Texts

end Entries

/-! ## Rows side by side -/

/-- Two rows have the same keys, and what stands under them is related. -/
abbrev RowOf {κ α β : Type} (R : α → β → Prop) : List (κ × α) → List (κ × β) → Prop :=
  List.Forall₂ fun e w => e.1 = w.1 ∧ R e.2 w.2

lemma forall₂_of_mem {α β : Type} {R R' : α → β → Prop} {as : List α} {bs : List β}
    (h : List.Forall₂ R as bs) (himp : ∀ a ∈ as, ∀ b ∈ bs, R a b → R' a b) :
    List.Forall₂ R' as bs := by
  induction h with
  | nil => exact .nil
  | cons head _ ih =>
    exact .cons (himp _ (by simp) _ (by simp) head)
      (ih fun a ha b hb => himp a (by simp [ha]) b (by simp [hb]))

lemma forall₂_imp_of_mem {α β : Type} {R R' : α → β → Prop} {as : List α} {bs : List β}
    (h : List.Forall₂ R as bs) (himp : ∀ a ∈ as, ∀ b, R a b → R' a b) :
    List.Forall₂ R' as bs :=
  forall₂_of_mem h fun a ha b _ => himp a ha b

lemma rowOf_imp_of_mem {κ α β : Type} {R R' : α → β → Prop} {es : List (κ × α)}
    {ws : List (κ × β)} (h : RowOf R es ws) (himp : ∀ e ∈ es, ∀ w, R e.2 w → R' e.2 w) :
    RowOf R' es ws :=
  forall₂_imp_of_mem h fun e he w hw => ⟨hw.1, himp e he w.2 hw.2⟩

section Rows

variable {κ α β : Type} [BEq κ] {R : α → β → Prop}

lemma rowOf_get? {es : Entries κ α} {ws : Entries κ β} (h : RowOf R es ws) (k : κ) :
    Option.Rel R (es.get? k) (ws.get? k) := by
  induction h with
  | nil => exact .none
  | @cons e w _ _ head _ ih =>
    obtain ⟨j, d⟩ := e
    obtain ⟨j', v⟩ := w
    obtain ⟨rfl, hv⟩ : j = j' ∧ R d v := head
    rw [Entries.get?_cons, Entries.get?_cons]
    split
    · exact .some hv
    · exact ih

lemma rowOf_put {es : Entries κ α} {ws : Entries κ β} (h : RowOf R es ws) (k : κ) {d : α}
    {v : β} (hv : R d v) : RowOf R (es.put k d) (ws.put k v) := by
  induction h with
  | nil => exact .cons ⟨rfl, hv⟩ .nil
  | @cons e w _ _ head tail ih =>
    obtain ⟨j, d'⟩ := e
    obtain ⟨j', v'⟩ := w
    obtain ⟨rfl, hv'⟩ : j = j' ∧ R d' v' := head
    rw [Entries.put_cons, Entries.put_cons]
    split
    · exact .cons ⟨rfl, hv⟩ tail
    · exact .cons ⟨rfl, hv'⟩ ih

lemma rowOf_putAll {es fs : Entries κ α} {ws us : Entries κ β} (h : RowOf R es ws)
    (h' : RowOf R fs us) : RowOf R (es.putAll fs) (ws.putAll us) := by
  induction h' generalizing es ws with
  | nil => exact h
  | @cons e w _ _ head _ ih =>
    obtain ⟨j, d⟩ := e
    obtain ⟨j', v⟩ := w
    obtain ⟨rfl, hv⟩ : j = j' ∧ R d v := head
    rw [Entries.putAll_cons, Entries.putAll_cons]
    exact ih (rowOf_put h j hv)

end Rows

end TableKeys
