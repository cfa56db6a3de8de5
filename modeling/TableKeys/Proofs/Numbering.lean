/-
# Numbered placeholders

A formula is placed by putting numbered placeholders for its fields and its operands, each use
getting one of its own (`Formula.placed`). So its tokens show the numbers in a row.

* `map_bind?_placed`: when the placeholders are taken for what they stand for, the formula is there
  again.
* `Expression.Writes.formula?_eq`: an expression that writes a formula out says that formula.
-/
import TableKeys.Proofs.ConditionReader

namespace TableKeys.Filter

/-- The placeholders with so many numbers in a row. -/
def placeholdersFrom (placeholder : Nat → String) (n count : Nat) : List String :=
  (List.range count).map fun i => placeholder (n + i)

namespace Formula

variable {α : Type}

/-- The fields that a formula asks about, from left to right. -/
def fields (f : Formula (Atom α)) : List String :=
  f.atoms.map Atom.field

/-- The operands in a formula, from left to right. -/
def operands (f : Formula (Atom α)) : List α :=
  f.atoms.flatMap Atom.operands

/-- The formula with placeholders from number `n` on for names and from number `v` on for
values. -/
def placed (n v : Nat) : Formula (Atom α) → Formula (Atom String)
  | nothing => nothing
  | atom a => atom ⟨namePlaceholder n, a.test, valuePlaceholders v a.operands.length⟩
  | join k f g =>
    join k (f.placed n v) (g.placed (n + f.fields.length) (v + f.operands.length))
  | negation f => negation (f.placed n v)

section Parts

variable (a : Atom α) (k : Connective) (f g : Formula (Atom α))

@[simp] lemma fields_atom : (atom a).fields = [a.field] := rfl

@[simp] lemma fields_join : (join k f g).fields = f.fields ++ g.fields := List.map_append

@[simp] lemma fields_negation : (negation f).fields = f.fields := rfl

@[simp] lemma operands_atom : (atom a).operands = a.operands := List.flatMap_singleton _ _

@[simp] lemma operands_join : (join k f g).operands = f.operands ++ g.operands :=
  List.flatMap_append

@[simp] lemma operands_negation : (negation f).operands = f.operands := rfl

end Parts

end Formula

/-! ## Placeholders in a row -/

section Rows

variable (placeholder : Nat → String) (n m count : Nat)

lemma placeholdersFrom_add : placeholdersFrom placeholder n (m + count) =
    placeholdersFrom placeholder n m ++ placeholdersFrom placeholder (n + m) count := by
  simp only [placeholdersFrom, List.range_add, List.map_append, List.map_map]
  congr 2
  funext i
  exact congrArg placeholder (Nat.add_assoc n m i).symm

lemma placeholdersFrom_zero :
    placeholdersFrom placeholder 0 count = (List.range count).map placeholder :=
  List.map_congr_left fun i _ => congrArg placeholder (Nat.zero_add i)

lemma placeholdersFrom_succ : placeholdersFrom placeholder n (count + 1) =
    placeholder n :: placeholdersFrom placeholder (n + 1) count := by
  rw [Nat.add_comm count 1, placeholdersFrom_add]
  rfl

lemma valuePlaceholders_eq :
    valuePlaceholders n count = placeholdersFrom valuePlaceholder n count :=
  rfl

end Rows

lemma namePlaceholder_injective : Function.Injective namePlaceholder := by
  intro m n h
  exact eq_of_toString_eq ((String.append_right_inj _).mp h)

lemma valuePlaceholder_injective : Function.Injective valuePlaceholder := by
  intro m n h
  exact eq_of_toString_eq ((String.append_right_inj _).mp h)

/-- What a placeholder stands for is found at its number. -/
lemma get?_numbered {α : Type} {placeholder : Nat → String}
    (hinjective : Function.Injective placeholder) (items : List α) (i : Nat) :
    Entries.get? (numbered placeholder items) (placeholder i) = items[i]? := by
  -- numbers are counted from where the rest of the row begins
  have hfrom (start : Nat) : Entries.get?
      (items.mapIdx fun j item => (placeholder (start + j), item)) (placeholder (start + i)) =
        items[i]? := by
    induction items generalizing start i with
    | nil => rfl
    | cons item items ih =>
      rw [List.mapIdx_cons, Entries.get?_cons]
      cases i with
      | zero => simp
      | succ i =>
        have hne : (placeholder (start + 0) == placeholder (start + (i + 1))) = false := by
          rw [beq_eq_false_iff_ne]
          intro heq
          have hstart := hinjective heq
          omega
        have hrest := ih i (start + 1)
        simp only [Nat.add_assoc, Nat.add_comm 1] at hrest
        rw [hne, List.getElem?_cons_succ, if_neg Bool.false_ne_true]
        exact hrest
  simpa [numbered] using hfrom 0

/-! ## Placed formulas -/

section Placed

variable {α β : Type} {f : Formula (Atom α)} {n v : Nat}

lemma fields_placed :
    (f.placed n v).fields = placeholdersFrom namePlaceholder n f.fields.length := by
  induction f generalizing n v with
  | nothing => rfl
  | atom a => rfl
  | join k f g ihf ihg =>
    rw [Formula.placed, Formula.fields_join, Formula.fields_join, List.length_append,
      placeholdersFrom_add, ihf, ihg]
  | negation f ih => exact ih

lemma operands_placed :
    (f.placed n v).operands = placeholdersFrom valuePlaceholder v f.operands.length := by
  induction f generalizing n v with
  | nothing => rfl
  | atom a =>
    rw [Formula.placed, Formula.operands_atom, Formula.operands_atom, valuePlaceholders_eq]
  | join k f g ihf ihg =>
    rw [Formula.placed, Formula.operands_join, Formula.operands_join, List.length_append,
      placeholdersFrom_add, ihf, ihg]
  | negation f ih => exact ih

lemma complete_placed : (f.placed n v).Complete ↔ f.Complete := by
  induction f generalizing n v with
  | nothing => rfl
  | atom a => simp [Formula.placed, Formula.Complete, valuePlaceholders]
  | join k f g ihf ihg => exact and_congr ihf ihg
  | negation f ih => exact ih

/-! ## Placeholders of texts -/

lemma filterMap_rowTokens {t : Token → Option String} (ht : ∀ c, t (.literal c) = none)
    (comma : String) (operands : List String) :
    (rowTokens comma operands).filterMap t = operands.filterMap fun p => t (.value p) := by
  induction operands with
  | nil => rfl
  | cons p ps ih =>
    cases ps with
    | nil => rfl
    | cons p' ps =>
      rw [rowTokens_cons_cons, List.filterMap_cons, List.filterMap_cons, List.filterMap_append,
        filterMap_literalTokens ht, ih]
      rfl

/-- The placeholders for names in a formula are its fields. -/
lemma filterMap_name?_tokens (f : Formula (Atom String)) :
    f.tokens.filterMap Token.name? = f.fields := by
  have hliteral := filterMap_literalTokens (f := Token.name?) fun _ => rfl
  induction f with
  | nothing => rfl
  | atom a =>
    have hrow := filterMap_rowTokens (t := Token.name?) (fun _ => rfl) a.test.wording.comma
      a.operands
    have hnone : (a.operands.filterMap fun p => (Token.value p).name?) = [] := by
      simp [Token.name?]
    rw [Formula.tokens, Atom.tokens, List.filterMap_append, List.filterMap_cons,
      List.filterMap_append, List.filterMap_append, hliteral, hliteral, hliteral, hrow, hnone]
    rfl
  | join k f g ihf ihg => simp [Formula.tokens, hliteral, ihf, ihg]
  | negation f ih => simp [Formula.tokens, hliteral, ih]

/-- The placeholders for values in a formula are its operands. -/
lemma filterMap_value?_tokens (f : Formula (Atom String)) :
    f.tokens.filterMap Token.value? = f.operands := by
  have hliteral := filterMap_literalTokens (f := Token.value?) fun _ => rfl
  induction f with
  | nothing => rfl
  | atom a =>
    have hrow := filterMap_rowTokens (t := Token.value?) (fun _ => rfl) a.test.wording.comma
      a.operands
    have hall : (a.operands.filterMap fun p => (Token.value p).value?) = a.operands :=
      List.filterMap_some
    rw [Formula.tokens, Atom.tokens, List.filterMap_append, List.filterMap_cons,
      List.filterMap_append, List.filterMap_append, hliteral, hliteral, hliteral, hrow, hall,
      Formula.operands_atom]
    simp [Token.value?]
  | join k f g ihf ihg => simp [Formula.tokens, hliteral, ihf, ihg]
  | negation f ih => simp [Formula.tokens, hliteral, ih]

end Placed

/-! ## What placeholders stand for -/

namespace Expression

/-- The atomic condition over what its placeholders stand for. -/
def bind? (e : Expression) (a : Atom String) : Option (Atom AttributeValue) := do
  let field ← Entries.get? e.names a.field
  let operands ← a.operands.mapM (Entries.get? e.values)
  return ⟨field, a.test, operands⟩

/-- The formula that an expression says: its text is read, and every placeholder is taken for what
it stands for. -/
def formula? (e : Expression) : Option (Formula (Atom AttributeValue)) :=
  (readText e.text).bind fun f => (f.map e.bind?).sequence?

/-- The expression writes the formula out with placeholders in a row. -/
structure Writes (e : Expression) (f : Formula (Atom AttributeValue)) : Prop where
  tokens : tokens e.text = (f.placed 0 0).tokens
  names : e.names = numbered namePlaceholder f.fields
  values : e.values = numbered valuePlaceholder f.operands

section Binding

variable {e : Expression} {names before after : List String}
  {values before' after' : List AttributeValue}

/-- A row of placeholders stands for the part of a row of values that has their numbers. -/
lemma mapM_get?_placeholdersFrom (operands : List AttributeValue)
    (hvalues : e.values = numbered valuePlaceholder (before' ++ operands ++ after')) :
    (placeholdersFrom valuePlaceholder before'.length operands.length).mapM
      (Entries.get? e.values) = some operands := by
  induction operands generalizing before' with
  | nil => rfl
  | cons a operands ih =>
    have hget : Entries.get? e.values (valuePlaceholder before'.length) = some a := by
      rw [hvalues, get?_numbered valuePlaceholder_injective]
      simp
    have hshifted : e.values =
        numbered valuePlaceholder ((before' ++ [a]) ++ operands ++ after') := by
      simpa using hvalues
    have hrest := ih hshifted
    rw [List.length_append] at hrest
    rw [List.length_cons, placeholdersFrom_succ, List.mapM_cons, hget]
    simp only [Option.bind_eq_bind, Option.bind_some]
    rw [show before'.length + 1 = before'.length + [a].length from rfl, hrest]
    rfl

/-- **What placeholders in a row stand for**: the formula that was placed. -/
theorem map_bind?_placed (f : Formula (Atom AttributeValue))
    (hnames : e.names = numbered namePlaceholder (before ++ f.fields ++ after))
    (hvalues : e.values = numbered valuePlaceholder (before' ++ f.operands ++ after')) :
    (f.placed before.length before'.length).map e.bind? = f.map some := by
  -- the rows before and after are shifted when a part of the formula is looked at
  induction f generalizing before after before' after' with
  | nothing => rfl
  | atom a =>
    have hget : Entries.get? e.names (namePlaceholder before.length) = some a.field := by
      rw [hnames, get?_numbered namePlaceholder_injective]
      simp
    have hoperands := mapM_get?_placeholdersFrom a.operands (by simpa using hvalues)
    rw [Formula.placed, Formula.map, Formula.map, bind?, hget, valuePlaceholders_eq, hoperands]
    rfl
  | join k f g ihf ihg =>
    rw [Formula.fields_join] at hnames
    rw [Formula.operands_join] at hvalues
    have hfnames : e.names =
        numbered namePlaceholder (before ++ f.fields ++ (g.fields ++ after)) := by
      simpa using hnames
    have hfvalues : e.values =
        numbered valuePlaceholder (before' ++ f.operands ++ (g.operands ++ after')) := by
      simpa using hvalues
    have hgnames : e.names =
        numbered namePlaceholder ((before ++ f.fields) ++ g.fields ++ after) := by
      simpa using hnames
    have hgvalues : e.values =
        numbered valuePlaceholder ((before' ++ f.operands) ++ g.operands ++ after') := by
      simpa using hvalues
    have hf := ihf hfnames hfvalues
    have hg := ihg hgnames hgvalues
    rw [List.length_append, List.length_append] at hg
    rw [Formula.placed, Formula.map, Formula.map, hf, hg]
  | negation f ih => exact congrArg Formula.negation (ih hnames hvalues)

end Binding

namespace Writes

variable {e : Expression} {f : Formula (Atom AttributeValue)}

/-- **An expression that writes a formula out says it.** -/
theorem formula?_eq (h : e.Writes f) (hf : f.Complete) : e.formula? = some f := by
  have hread := readText_of_tokens (complete_placed.mpr hf) h.tokens
  have hnames : e.names = numbered namePlaceholder ([] ++ f.fields ++ []) := by
    simpa using h.names
  have hvalues : e.values = numbered valuePlaceholder ([] ++ f.operands ++ []) := by
    simpa using h.values
  have hbind := map_bind?_placed f hnames hvalues
  rw [formula?, hread, Option.bind_some]
  exact (congrArg Formula.sequence? hbind).trans f.sequence?_map_some

/-- The placeholders for names in its text have their numbers in a row. -/
lemma namePlaceholders_text (h : e.Writes f) :
    namePlaceholders e.text = (List.range f.fields.length).map namePlaceholder := by
  rw [namePlaceholders, h.tokens, filterMap_name?_tokens, fields_placed, placeholdersFrom_zero]

/-- The placeholders for values in its text have their numbers in a row. -/
lemma valuePlaceholders_text (h : e.Writes f) :
    TableKeys.valuePlaceholders e.text =
      (List.range f.operands.length).map valuePlaceholder := by
  rw [TableKeys.valuePlaceholders, h.tokens, filterMap_value?_tokens, operands_placed,
    placeholdersFrom_zero]

end Writes

end Expression

end TableKeys.Filter
