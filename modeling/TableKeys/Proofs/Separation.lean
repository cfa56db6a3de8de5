/-
# When separators keep the parts apart

Texts are joined with a separator in two places: the values of the sort fields in the value of
a composite key, the names of the fields in its name. Whether the parts can be told from the
whole depends on the separator.

* `encodeComposite_injOn_iff`: lists of texts that the separator does not occur in have distinct
  encoded keys exactly if the separator has no border;
* `compositeName_injOn_iff`: lists of schema names have distinct synthetic names, which are no
  schema names, exactly if the separator has a character that schema names do not have.

Both are about a separator that marks where a part ends (`Separates`). Where it does not, two
lists with the same text are given.
-/
import TableKeys.Proofs.SchemaName
import TableKeys.Text.Search
import Mathlib.Data.List.Infix
import Mathlib.Data.Set.Function

namespace TableKeys

open Text

/-! ## Separators that mark where a part ends -/

section Separates

variable {α : Type*} {s : List α} {P : List α → Prop}

/-- After a part that satisfies `P`, the separator `s` marks where the part ends. -/
structure Separates (s : List α) (P : List α → Prop) : Prop where
  not_append : ∀ x r, ¬ P (x ++ s ++ r)
  eq_of_append : ∀ ⦃x y⦄, P x → P y → ∀ ⦃r t⦄, x ++ s ++ r = y ++ s ++ t → x = y

/-- **Joined parts can be told from the whole, if the separator marks where they end.** -/
theorem Separates.injOn_intercalate (h : Separates s P) :
    Set.InjOn s.intercalate {xs | xs ≠ [] ∧ ∀ x ∈ xs, P x} := by
  rintro xs ⟨hxs, hPx⟩ ys ⟨hys, hPy⟩ heq
  -- the first parts agree, hence so do the rests
  induction xs generalizing ys with
  | nil => exact absurd rfl hxs
  | cons x xs ih =>
    obtain ⟨y, ys, rfl⟩ := List.exists_cons_of_ne_nil hys
    have hx : P x := hPx x (by simp)
    have hy : P y := hPy y (by simp)
    cases xs with
    | nil =>
      cases ys with
      | nil => simpa using heq
      | cons y' ys =>
        rw [List.intercalate_singleton, List.intercalate_cons_cons] at heq
        exact absurd (heq ▸ hx) (h.not_append _ _)
    | cons x' xs =>
      cases ys with
      | nil =>
        rw [List.intercalate_singleton, List.intercalate_cons_cons] at heq
        exact absurd (heq ▸ hy) (h.not_append _ _)
      | cons y' ys =>
        rw [List.intercalate_cons_cons, List.intercalate_cons_cons] at heq
        obtain rfl := h.eq_of_append hx hy heq
        have hrest := ih (by simp) (fun z hz => hPx z (by simp [hz])) (by simp)
          (fun z hz => hPy z (by simp [hz])) (List.append_cancel_left heq)
        rw [hrest]

/-- A character that no part has marks where a part ends, wherever in the separator it is. -/
lemma separates_of_mem {p : α → Bool} {c : α} (hc : c ∈ s) (hp : p c = false) :
    Separates s (fun x => ∀ a ∈ x, p a = true) := by
  -- the part and the characters of the separator before the first such one make the longest
  -- beginning with characters of parts
  have htake : ∀ {x r : List α}, (∀ a ∈ x, p a = true) →
      (x ++ s ++ r).takeWhile p = x ++ s.takeWhile p := by
    intro x r hx
    have hs : (s.takeWhile p).length ≠ s.length := by
      intro hlength
      have hall := List.takeWhile_eq_self_iff.mp
        ((List.takeWhile_prefix p).eq_of_length hlength) c hc
      rw [hp] at hall
      cases hall
    rw [List.append_assoc, List.takeWhile_append_of_pos hx, List.takeWhile_append, if_neg hs]
  refine ⟨fun x r h => ?_, fun x y hx hy r t heq => ?_⟩
  · have hall := h c (by simp [hc])
    rw [hp] at hall
    cases hall
  · have htakes := congrArg (List.takeWhile p) heq
    rw [htake hx, htake hy] at htakes
    exact List.append_cancel_right htakes

end Separates

/-! ## Borders -/

section Borders

variable {α : Type*} {s : List α}

/-- Nothing but the empty text and the whole is both a beginning and an end of the text. -/
def Borderless (s : List α) : Prop :=
  ∀ ⦃b⦄, b <+: s → b <:+ s → b = [] ∨ b = s

instance [DecidableEq α] : Decidable (Borderless s) :=
  decidable_of_iff (∀ b ∈ s.inits, b <:+ s → b = [] ∨ b = s) <| by
    simp only [List.mem_inits]
    rfl

lemma borderless_singleton (c : α) : Borderless [c] := by
  intro b hb _
  simpa [List.prefix_cons_iff] using hb

example : Borderless "#".toList ∧ ¬ Borderless "--".toList := by decide

/-- Where a text without borders is seen twice, either the two are the same or the second is
after the first. -/
lemma Borderless.eq_nil_or_infix (h : Borderless s) {a r t : List α}
    (heq : s ++ r = a ++ (s ++ t)) : a = [] ∨ s <:+: a := by
  rcases List.append_eq_append_iff.mp heq with ⟨u, hu, -⟩ | ⟨b, hb, hrest⟩
  · exact Or.inr (hu ▸ (List.prefix_append s u).isInfix)
  · -- the two overlap in `b`
    have hsuffix : b <:+ s := ⟨a, hb.symm⟩
    have hprefix : b <+: s :=
      (List.isPrefix_append_of_length hsuffix.length_le).mp ⟨r, hrest.symm⟩
    rcases h hprefix hsuffix with rfl | rfl
    · exact Or.inr (by simp [hb])
    · exact Or.inl (List.append_left_eq_self.mp hb.symm)

/-- A separator without borders marks where a part ends that it does not occur in. -/
lemma Borderless.separates (h : Borderless s) : Separates s (fun x => ¬ s <:+: x) := by
  refine ⟨fun x r hx => hx ⟨x, r, rfl⟩, fun x y hx hy r t heq => ?_⟩
  rw [List.append_assoc, List.append_assoc] at heq
  rcases List.append_eq_append_iff.mp heq with ⟨a, rfl, ha⟩ | ⟨a, rfl, ha⟩
  · rcases h.eq_nil_or_infix ha with rfl | ha
    · rw [List.append_nil]
    · exact absurd (ha.trans (List.suffix_append x a).isInfix) hy
  · rcases h.eq_nil_or_infix ha with rfl | ha
    · rw [List.append_nil]
    · exact absurd (ha.trans (List.suffix_append y a).isInfix) hx

/-- A border makes two lists of parts the same text: the separator is left over once after and
once before a part that is shorter than it. -/
lemma exists_intercalate_eq (h : ¬ Borderless s) : ∃ u v : List α,
    ¬ s <:+: u ∧ ¬ s <:+: v ∧ v ≠ [] ∧ s.intercalate [[], u] = s.intercalate [v, []] := by
  simp only [Borderless, not_forall, not_or] at h
  obtain ⟨b, ⟨u, hu⟩, ⟨v, hv⟩, hnil, hself⟩ := h
  have hlength : 0 < b.length := List.length_pos_iff.mpr hnil
  have hulength := congrArg List.length hu
  have hvlength := congrArg List.length hv
  rw [List.length_append] at hulength hvlength
  refine ⟨u, v, fun hs => ?_, fun hs => ?_, ?_, ?_⟩
  · have := hs.length_le
    omega
  · have := hs.length_le
    omega
  · rintro rfl
    exact hself hv
  · rw [List.intercalate_cons_cons, List.intercalate_cons_cons, List.intercalate_singleton,
      List.intercalate_singleton, List.nil_append, List.append_nil]
    calc s ++ u = (v ++ b) ++ u := by rw [hv]
      _ = v ++ s := by rw [List.append_assoc, hu]

end Borders

/-! ## Values of composite keys -/

/-- Lists of texts that a separator does not occur in. -/
def textsWithout (separator : String) : Set (List String) :=
  {xs | xs ≠ [] ∧ ∀ x ∈ xs, containsText separator x = false}

lemma encodeComposite_texts (o : Options) (xs : List String) :
    encodeComposite o (xs.map .text) = .ok (o.keySeparator.intercalate xs) := by
  suffices htexts : componentTexts (xs.map .text) = .ok xs by
    rw [encodeComposite, htexts]
    rfl
  induction xs with
  | nil => rfl
  | cons x xs ih =>
    rw [List.map_cons, componentTexts, ih]
    rfl

lemma mem_textsWithout {separator : String} {xs : List String} :
    xs ∈ textsWithout separator ↔ xs.map String.toList ∈
      {ys : List (List Char) | ys ≠ [] ∧ ∀ y ∈ ys, ¬ separator.toList <:+: y} := by
  simp [textsWithout, containsText, ← occursIn_iff]

/-- Texts are joined by their characters. -/
lemma injOn_intercalate_toList {separator : String} {A : Set (List String)}
    {B : Set (List (List Char))} (hB : Set.InjOn separator.toList.intercalate B)
    (hA : ∀ xs ∈ A, xs.map String.toList ∈ B) : Set.InjOn separator.intercalate A := by
  intro xs hxs ys hys heq
  have htoList : separator.toList.intercalate (xs.map String.toList) =
      separator.toList.intercalate (ys.map String.toList) := by
    rw [← String.toList_intercalate, ← String.toList_intercalate, heq]
  exact List.map_injective_iff.mpr (fun _ _ => String.toList_injective)
    (hB (hA xs hxs) (hA ys hys) htoList)

/-- Two lists of texts with the same encoded key, if the separator has a border. -/
lemma exists_encodeComposite_eq {o : Options} (h : ¬ Borderless o.keySeparator.toList) :
    ∃ xs ∈ textsWithout o.keySeparator, ∃ ys ∈ textsWithout o.keySeparator, xs ≠ ys ∧
      ∃ t, encodeComposite o (xs.map .text) = .ok t ∧ encodeComposite o (ys.map .text) = .ok t := by
  obtain ⟨u, v, hu, hv, hvne, heq⟩ := exists_intercalate_eq h
  have hnil : ¬ o.keySeparator.toList <:+: [] := by
    simpa using o.keySeparator_ne
  have hjoined : o.keySeparator.intercalate ["", .ofList u] =
      o.keySeparator.intercalate [.ofList v, ""] := by
    apply String.toList_injective
    rw [String.toList_intercalate, String.toList_intercalate]
    simpa using heq
  refine ⟨["", .ofList u], mem_textsWithout.mpr ⟨by simp, by simp [hnil, hu]⟩,
    [.ofList v, ""], mem_textsWithout.mpr ⟨by simp, by simp [hnil, hv]⟩, ?_,
    _, encodeComposite_texts o _, by rw [encodeComposite_texts, hjoined]⟩
  intro hlists
  have hempty : "" = String.ofList v := (List.cons.inj hlists).1
  exact hvne (by simpa using (congrArg String.toList hempty).symm)

/-- **The separators that keep the values of composite keys apart are those without borders.**
Every single character is one; for any other separator, two lists of texts that it does not
occur in have the same encoded key. -/
theorem encodeComposite_injOn_iff (o : Options) :
    (Set.InjOn (fun xs : List String => encodeComposite o (xs.map .text))
        (textsWithout o.keySeparator) ↔ Borderless o.keySeparator.toList) ∧
      (∀ c, o.keySeparator.toList = [c] → Borderless o.keySeparator.toList) ∧
      (¬ Borderless o.keySeparator.toList →
        ∃ xs ∈ textsWithout o.keySeparator, ∃ ys ∈ textsWithout o.keySeparator, xs ≠ ys ∧
          ∃ t, encodeComposite o (xs.map .text) = .ok t ∧
            encodeComposite o (ys.map .text) = .ok t) := by
  refine ⟨⟨fun hinj => ?_, fun h xs hxs ys hys heq => ?_⟩,
    fun c hc => hc ▸ borderless_singleton c, exists_encodeComposite_eq⟩
  · by_contra h
    obtain ⟨xs, hxs, ys, hys, hne, t, hx, hy⟩ := exists_encodeComposite_eq h
    exact hne (hinj hxs hys (hx.trans hy.symm))
  · have hparts := injOn_intercalate_toList h.separates.injOn_intercalate
      fun zs hzs => mem_textsWithout.mp hzs
    simp only [encodeComposite_texts] at heq
    exact hparts hxs hys (Except.ok.inj heq)

/-! ## Names of composite keys -/

/-- Lists of fields that have a composite key. -/
def compositeFields : Set (List String) :=
  {fields | 2 ≤ fields.length ∧ ∀ f ∈ fields, isSchemaName f = true}

/-- A character that schema names do not have keeps synthetic names from being schema names. -/
lemma isSchemaName_intercalated {o : Options} {c : Char} (hc : c ∈ o.nameSeparator.toList)
    (hschema : isSchemaChar c = false) {fields : List String} (hlength : 2 ≤ fields.length) :
    isSchemaName (compositeName o fields) = false := by
  match fields, hlength with
  | f :: g :: rest, _ =>
    have hmem : c ∈ (compositeName o (f :: g :: rest)).toList := by
      rw [compositeName, String.toList_intercalate, List.map_cons, List.map_cons,
        List.intercalate_cons_cons]
      simp [hc]
    cases hname : isSchemaName (compositeName o (f :: g :: rest)) with
    | false => rfl
    | true => exact absurd hmem (notMem_of_isSchemaName hname hschema)

/-- Two lists of fields with the same synthetic name, if the separator could be in a name. -/
lemma exists_compositeName_eq {o : Options}
    (h : ∀ c ∈ o.nameSeparator.toList, isSchemaChar c = true) :
    ∃ xs ∈ compositeFields, ∃ ys ∈ compositeFields, xs ≠ ys ∧
      compositeName o xs = compositeName o ys := by
  have hname : ∀ {a b : String} {d e : Char}, a.toList = [d] → b.toList = [e] →
      isNameStart d = true → isSchemaChar e = true →
      isSchemaName (a ++ o.nameSeparator ++ b) = true := by
    intro a b d e ha hb hd he
    refine isSchemaName_iff.mpr ⟨d, o.nameSeparator.toList ++ [e], by simp [ha, hb], hd, ?_⟩
    intro c hc
    rcases List.mem_append.mp hc with hc | hc
    · exact h c hc
    · exact List.mem_singleton.mp hc ▸ he
  have hbc : isSchemaName ("b" ++ o.nameSeparator ++ "c") = true :=
    hname (d := 'b') (e := 'c') rfl rfl rfl rfl
  have hab : isSchemaName ("a" ++ o.nameSeparator ++ "b") = true :=
    hname (d := 'a') (e := 'b') rfl rfl rfl rfl
  refine ⟨["a", "b" ++ o.nameSeparator ++ "c"], ⟨by simp, ?_⟩,
    ["a" ++ o.nameSeparator ++ "b", "c"], ⟨by simp, ?_⟩, fun heq => ?_, ?_⟩
  · exact List.forall_mem_cons.mpr ⟨rfl, List.forall_mem_singleton.mpr hbc⟩
  · exact List.forall_mem_cons.mpr ⟨hab, List.forall_mem_singleton.mpr rfl⟩
  · have hlength := congrArg String.length (List.cons.inj heq).1
    have hb : "b".length = 1 := rfl
    rw [String.length_append, String.length_append] at hlength
    omega
  · simp [compositeName, String.intercalate_cons_cons, String.append_assoc]

/-- A character that schema names do not have keeps synthetic names apart. -/
lemma injOn_compositeName {o : Options} {c : Char} (hc : c ∈ o.nameSeparator.toList)
    (hschema : isSchemaChar c = false) : Set.InjOn (compositeName o) compositeFields := by
  refine injOn_intercalate_toList (separates_of_mem hc hschema).injOn_intercalate
    fun fields hfields => ⟨?_, fun x hx a ha => ?_⟩
  · have hlength := hfields.1
    intro hnil
    rw [List.map_eq_nil_iff.mp hnil] at hlength
    cases hlength
  · obtain ⟨f, hf, rfl⟩ := List.mem_map.mp hx
    exact isSchemaChar_of_mem (hfields.2 f hf) ha

/-- **The separators that keep the names of composite keys apart, and apart from the names of
fields, are those with a character that schema names do not have.** For any other separator, two
lists of fields have the same name. -/
theorem compositeName_injOn_iff (o : Options) :
    ((Set.InjOn (compositeName o) compositeFields ∧
        ∀ fields ∈ compositeFields, isSchemaName (compositeName o fields) = false) ↔
      ∃ c ∈ o.nameSeparator.toList, isSchemaChar c = false) ∧
    ((∀ c ∈ o.nameSeparator.toList, isSchemaChar c = true) →
      ∃ xs ∈ compositeFields, ∃ ys ∈ compositeFields, xs ≠ ys ∧
        compositeName o xs = compositeName o ys) := by
  refine ⟨⟨fun ⟨hinj, _⟩ => ?_, fun ⟨c, hc, hschema⟩ =>
    ⟨injOn_compositeName hc hschema, fun fields hfields =>
      isSchemaName_intercalated hc hschema hfields.1⟩⟩, exists_compositeName_eq⟩
  by_contra hnone
  obtain ⟨xs, hxs, ys, hys, hne, heq⟩ := exists_compositeName_eq (o := o) fun c hc => by
    by_contra hschema
    exact hnone ⟨c, hc, by simpa using hschema⟩
  exact hne (hinj hxs hys heq)

end TableKeys
