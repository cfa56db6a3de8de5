/-
# What the expression of a filter says

The expression of a filter is read from its text, every placeholder being taken for the name or the
value that it stands for (`Expression.formula?`). If the fields have names as a schema has them:

* `expression?_means`: it is true when the filter is, under every assignment to atomic conditions,
  and there is none just if the filter asks for nothing;
* `expression?_numbered`: placeholders are numbered from left to right, each is used once, and they
  stand for the fields and the operands of the filter in their order.
-/
import TableKeys.Proofs.ConditionText

namespace TableKeys.Filter

open Formula

/-- Fields have names as a schema has them. -/
def SchemaFields (filter : Data) : Prop :=
  ∀ a ∈ (formula filter).atoms, isSchemaName a.field = true

section

variable {filter : Data} {e : Expression} {e? : Option Expression}

/-- A filter with atoms that can all be stored. -/
lemma exists_asked {g : Formula (Atom AttributeValue)}
    (h : (g.map some).Alike ((formula filter).map Atom.stored?)) :
    ∃ asked, asked? filter = some asked ∧ g.Alike asked := by
  have hsome : ∀ a ∈ ((formula filter).map Atom.stored?).atoms, a.isSome = true := by
    rw [← h.atoms, atoms_map]
    intro a ha
    obtain ⟨b, -, rfl⟩ := List.mem_map.mp ha
    rfl
  obtain ⟨asked, hasked⟩ := exists_map_some hsome
  refine ⟨asked, ?_, .of_map_some (hasked ▸ h)⟩
  rw [asked?, hasked, sequence?_map_some]

lemma formula_of_isNothing (h : filter.isNothing = true) : formula filter = .nothing := by
  cases filter with
  | map entries =>
    rw [formula, List.isEmpty_iff.mp h]
    rfl
  | _ => rfl

/-- How a filter comes to its expression, or to none. -/
inductive Compiled (filter : Data) : Option Expression → Prop
  | nothing (h : filter.isNothing = true) : Compiled filter none
  | unconditional (h : condition? filter = .ok none) : Compiled filter none
  | condition {c : Condition} {e : Expression} (hsome : filter.isNothing = false)
      (h : condition? filter = .ok (some c)) (he : c.expression = .ok e) : Compiled filter (some e)

lemma compiled_of_expression? (h : expression? filter = .ok e?) : Compiled filter e? := by
  unfold expression? at h
  split at h
  · rename_i hnothing
    obtain rfl := Except.ok.inj h
    exact .nothing hnothing
  · rename_i hsome
    split at h
    · cases h
    · rename_i hcondition
      obtain rfl := Except.ok.inj h
      exact .unconditional hcondition
    · rename_i hcondition
      split at h
      · cases h
      · rename_i hexpression
        obtain rfl := Except.ok.inj h
        exact .condition (Bool.eq_false_iff.mpr hsome) hcondition hexpression

/-- A filter without an expression asks for nothing. -/
lemma asked?_of_expression?_none (h : expression? filter = .ok none) :
    ∃ asked, asked? filter = some asked ∧ asked.atoms = [] := by
  have halike : ((nothing : Formula (Atom AttributeValue)).map some).Alike
      ((formula filter).map Atom.stored?) := by
    cases compiled_of_expression? h with
    | nothing hnothing =>
      rw [formula_of_isNothing hnothing]
      exact .refl _
    | unconditional hcondition => exact alike_condition? seesStored_stored? filter hcondition
  obtain ⟨asked, hasked, hatoms⟩ := exists_asked halike
  exact ⟨asked, hasked, hatoms.atoms.symm⟩

/-- **The expression of a filter writes out a formula like the one that the filter asks for.** -/
theorem exists_writes_alike (hfields : SchemaFields filter)
    (h : expression? filter = .ok (some e)) :
    ∃ read, e.Writes read ∧ read.Complete ∧ read.atoms ≠ [] ∧
      (read.map some).Alike ((formula filter).map Atom.stored?) := by
  obtain ⟨c, hcondition, hexpression⟩ :
      ∃ c, condition? filter = .ok (some c) ∧ c.expression = .ok e := by
    cases compiled_of_expression? h with
    | condition _ hcondition hexpression => exact ⟨_, hcondition, hexpression⟩
  have hsingle {β : Type} {see : Atom Data → β} (hsee : SeesStored see) :
      (c.seen see).Alike ((formula filter).map see) :=
    (Alike.joinAll_singleton .all _).symm.trans (alike_condition? hsee filter hcondition)
  -- the fields are compared apart from the operands, which are not known to be stored yet
  have hschema : ∀ field ∈ c.formula.fields, isSchemaName field = true := by
    have hsame := (hsingle seesStored_field).atoms
    rw [Condition.seen, atoms_map, atoms_map] at hsame
    rw [fields, hsame]
    exact List.forall_mem_map.mpr hfields
  obtain ⟨read, hwrites, hcomplete, hread⟩ := exists_writes hschema hexpression
  refine ⟨read, hwrites, hcomplete, ?_, hread ▸ hsingle seesStored_stored?⟩
  intro hnil
  have hatoms := congrArg Formula.atoms hread
  rw [Condition.seen, atoms_map, atoms_map, hnil] at hatoms
  exact c.atoms_ne_nil (List.map_eq_nil_iff.mp hatoms)

end

/-! ## Truth -/

/-- **Compiling a filter keeps its meaning.** What the expression says is true just if the filter
is, and there is an expression if the filter asks for anything. -/
theorem expression?_means {filter : Data} {e? : Option Expression}
    (hfields : SchemaFields filter) (h : expression? filter = .ok e?) :
    ∃ asked, asked? filter = some asked ∧ (e? = none ↔ asked.atoms = []) ∧
      ∀ e, e? = some e → ∃ read, e.formula? = some read ∧
        ∀ σ, ∃ b, read.truth? σ = some b ∧ asked.truth? σ = some b := by
  cases e? with
  | none =>
    obtain ⟨asked, hasked, hatoms⟩ := asked?_of_expression?_none h
    exact ⟨asked, hasked, by simp [hatoms], fun _ he => by cases he⟩
  | some e =>
    obtain ⟨read, hwrites, hcomplete, hne, hstored⟩ := exists_writes_alike hfields h
    obtain ⟨asked, hasked, halike⟩ := exists_asked hstored
    refine ⟨asked, hasked, ?_, ?_⟩
    · rw [← halike.atoms]
      simp [hne]
    · rintro _ ⟨rfl⟩
      refine ⟨read, hwrites.formula?_eq hcomplete, fun σ => ?_⟩
      have htruth := (truth?_eq_none_iff σ read).not.mpr hne
      obtain ⟨b, hb⟩ := Option.ne_none_iff_exists'.mp htruth
      exact ⟨b, hb, (halike.truth σ).symm.trans hb⟩

/-- What is not a draft, has a title like these, and either has some number of pages or is kept
elsewhere. -/
def shelfFilter : Data :=
  .object [
    ("and", .list [
      .object [("title", .object [("beginsWith", .text "T"), ("ne", .null),
        ("notContains", .text "#n0")])],
      .object [("or", .list [
        .object [("pages", .object [("between", .list [.text "100", .text "900"])])],
        .object [("not", .object [("place", .object [
          ("in", .list [.text "hall", .text "attic"])])])],
        .object []])]]),
    ("draft", .object [("attributeExists", .bool false)]),
    ("note", .null)]

/-- The expression of this filter. -/
def shelfExpression : Expression where
  text := "(((begins_with(#n0, :v0) AND (NOT contains(#n1, :v1))) AND " ++
    "(#n2 BETWEEN :v2 AND :v3 OR (NOT #n3 IN (:v4, :v5)))) AND attribute_not_exists(#n4))"
  names := numbered namePlaceholder ["title", "title", "pages", "place", "draft"]
  values := numbered valuePlaceholder (["T", "#n0", "100", "900", "hall", "attic"].map .text)

lemma expression?_shelf : expression? shelfFilter = .ok (some shelfExpression) := by rfl

lemma schemaFields_shelf : SchemaFields shelfFilter := by
  have hfields : (formula shelfFilter).fields = ["title", "title", "pages", "place", "draft"] := rfl
  have hschema : ∀ field ∈ (formula shelfFilter).fields, isSchemaName field = true := by
    rw [hfields]
    decide
  exact List.forall_mem_map.mp hschema

theorem expression?_means_shelf : ∃ asked read, asked? shelfFilter = some asked ∧
    asked.atoms ≠ [] ∧ shelfExpression.formula? = some read ∧
      ∀ σ, ∃ b, read.truth? σ = some b ∧ asked.truth? σ = some b := by
  obtain ⟨asked, hasked, hnone, hmeans⟩ :=
    expression?_means schemaFields_shelf expression?_shelf
  obtain ⟨read, hread, htruth⟩ := hmeans _ rfl
  exact ⟨asked, read, hasked, hnone.not.mp (by simp), hread, htruth⟩

/-! ## Placeholders -/

/-- The placeholders of an expression have their numbers in a row, each is used once, and they
stand for these fields and values. -/
structure Expression.InOrder (e : Expression) (fields : List String)
    (values : List AttributeValue) : Prop where
  namesUsed : namePlaceholders e.text = (List.range fields.length).map namePlaceholder
  valuesUsed :
    TableKeys.valuePlaceholders e.text = (List.range values.length).map valuePlaceholder
  namesOnce : (namePlaceholders e.text).Nodup
  valuesOnce : (TableKeys.valuePlaceholders e.text).Nodup
  nameKeys : Entries.keys e.names = namePlaceholders e.text
  valueKeys : Entries.keys e.values = TableKeys.valuePlaceholders e.text
  names : Entries.values e.names = fields
  values : Entries.values e.values = values

section Numbered

variable {α : Type} (placeholder : Nat → String) (items : List α)

lemma keys_numbered :
    Entries.keys (numbered placeholder items) = (List.range items.length).map placeholder := by
  refine List.ext_getElem (by simp [Entries.keys, numbered]) fun i _ _ => ?_
  simp [Entries.keys, numbered]

lemma values_numbered : Entries.values (numbered placeholder items) = items := by
  refine List.ext_getElem (by simp [Entries.values, numbered]) fun i _ _ => ?_
  simp [Entries.values, numbered]

variable {placeholder} in
lemma nodup_range_map (hinjective : Function.Injective placeholder) (count : Nat) :
    ((List.range count).map placeholder).Nodup :=
  List.nodup_range.map hinjective

end Numbered

lemma Expression.Writes.inOrder {e : Expression} {f : Formula (Atom AttributeValue)}
    (h : e.Writes f) : e.InOrder f.fields f.operands where
  namesUsed := h.namePlaceholders_text
  valuesUsed := h.valuePlaceholders_text
  namesOnce := h.namePlaceholders_text ▸ nodup_range_map namePlaceholder_injective _
  valuesOnce := h.valuePlaceholders_text ▸ nodup_range_map valuePlaceholder_injective _
  nameKeys := by rw [h.names, keys_numbered, h.namePlaceholders_text]
  valueKeys := by rw [h.values, keys_numbered, h.valuePlaceholders_text]
  names := by rw [h.names, values_numbered]
  values := by rw [h.values, values_numbered]

/-- Atomic conditions as they are stored have the same fields, and the operands as stored. -/
lemma operands_of_stored? {as : List (Atom Data)} {bs : List (Atom AttributeValue)}
    (h : as.map Atom.stored? = bs.map some) :
    as.map Atom.field = bs.map Atom.field ∧
      (as.flatMap Atom.operands).mapM Data.stored = .ok (bs.flatMap Atom.operands) := by
  induction as generalizing bs with
  | nil =>
    obtain rfl := List.map_eq_nil_iff.mp h.symm
    exact ⟨rfl, rfl⟩
  | cons a as ih =>
    obtain ⟨b, bs, rfl, hb, hbs⟩ := List.map_eq_cons_iff.mp h.symm
    obtain ⟨hfields, hoperands⟩ := ih hbs.symm
    unfold Atom.stored? at hb
    cases ha : a.operands.mapM Data.stored with
    | error f =>
      rw [ha] at hb
      cases hb
    | ok operands =>
      rw [ha] at hb
      obtain rfl := Option.some.inj hb
      refine ⟨congrArg (a.field :: ·) hfields, ?_⟩
      rw [List.flatMap_cons, List.flatMap_cons, List.mapM_append, ha, hoperands]
      rfl

/-- **Placeholders are linear and in order.** They are numbered from left to right and used once,
and they stand for the fields of the atomic conditions of the filter and for the operands of these
as they are stored. No operand goes to another condition. -/
theorem expression?_numbered {filter : Data} {e : Expression} (hfields : SchemaFields filter)
    (h : expression? filter = .ok (some e)) :
    ∃ values, ((formula filter).atoms.flatMap Atom.operands).mapM Data.stored = .ok values ∧
      e.InOrder ((formula filter).atoms.map Atom.field) values ∧
      ∃ read, e.formula? = some read ∧
        read.atoms.map some = (formula filter).atoms.map Atom.stored? := by
  obtain ⟨read, hwrites, hcomplete, -, halike⟩ := exists_writes_alike hfields h
  have hatoms : (formula filter).atoms.map Atom.stored? = read.atoms.map some := by
    rw [← atoms_map, ← atoms_map, halike.atoms]
  obtain ⟨hsame, hvalues⟩ := operands_of_stored? hatoms
  refine ⟨read.operands, hvalues, ?_, read, hwrites.formula?_eq hcomplete, hatoms.symm⟩
  rw [hsame]
  exact hwrites.inOrder

theorem expression?_numbered_shelf :
    shelfExpression.InOrder ["title", "title", "pages", "place", "draft"]
      (["T", "#n0", "100", "900", "hall", "attic"].map .text) ∧
    ∃ read, shelfExpression.formula? = some read ∧
      read.atoms.map some = (formula shelfFilter).atoms.map Atom.stored? := by
  obtain ⟨values, hvalues, horder, hread⟩ :=
    expression?_numbered schemaFields_shelf expression?_shelf
  obtain rfl : ["T", "#n0", "100", "900", "hall", "attic"].map AttributeValue.text = values :=
    Except.ok.inj hvalues
  exact ⟨horder, hread⟩

end TableKeys.Filter
