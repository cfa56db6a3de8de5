/-
# Conditions written out

The text of a formula over placeholders is its wording (`Formula.text`). It is cut into the tokens
of the formula (`tokens_text`), since no word goes on with the characters of a placeholder.

* `Condition.write_eq`: a condition on fields with schema names is written out as its formula, with
  placeholders in a row.
* `exists_writes`: so its expression writes out what the condition asks for.
-/
import TableKeys.Proofs.Numbering

namespace TableKeys.Filter

open Text

/-! ## Texts of formulas -/

/-- The text of an atomic condition over placeholders. -/
def Atom.text (a : Atom String) : String :=
  a.test.wording.opening ++ (a.field ++ (a.test.wording.middle ++
    (a.test.wording.comma.intercalate a.operands ++ a.test.wording.closing)))

/-- The text of a formula over placeholders. -/
def Formula.text : Formula (Atom String) → String
  | nothing => ""
  | atom a => a.text
  | join k f g => "(" ++ (f.text ++ (k.sign ++ (g.text ++ ")")))
  | negation f => "(NOT " ++ (f.text ++ ")")

/-- The text has no marks of placeholders. -/
def Unmarked (s : String) : Prop :=
  '#' ∉ s.toList ∧ ':' ∉ s.toList

instance : DecidablePred Unmarked := fun s =>
  inferInstanceAs (Decidable ('#' ∉ s.toList ∧ ':' ∉ s.toList))

/-- The text begins with a character that no placeholder has. -/
def Detached (s : String) : Prop :=
  s.toList.head?.map isSchemaChar = some false

instance : DecidablePred Detached := fun s =>
  inferInstanceAs (Decidable (s.toList.head?.map isSchemaChar = some false))

/-- What is known of the wording of a test. -/
structure Wording.Sound (w : Wording) : Prop where
  opening : Unmarked w.opening
  middle : Unmarked w.middle ∧ Detached w.middle
  comma : Unmarked w.comma ∧ Detached w.comma
  closing : Unmarked w.closing ∧ (w.closing = "" ∨ Detached w.closing)

lemma Test.sound_wording (test : Test) : test.wording.Sound := by
  have hall : ∀ test ∈ allTests, Unmarked test.wording.opening ∧
      (Unmarked test.wording.middle ∧ Detached test.wording.middle) ∧
      (Unmarked test.wording.comma ∧ Detached test.wording.comma) ∧
      Unmarked test.wording.closing ∧
        (test.wording.closing = "" ∨ Detached test.wording.closing) := by
    decide +kernel
  obtain ⟨hopening, hmiddle, hcomma, hclosing⟩ := hall test (mem_allTests test)
  exact ⟨hopening, hmiddle, hcomma, hclosing⟩

/-! ## Cutting texts -/

lemma tokens_unmarked_append {s : String} (h : Unmarked s) (t : String) :
    tokens (s ++ t) = literalTokens s ++ tokens t :=
  tokens_plain_append h.1 h.2 t

lemma tokens_unmarked {s : String} (h : Unmarked s) : tokens s = literalTokens s := by
  have happend := tokens_unmarked_append h ""
  rwa [String.append_empty, show tokens "" = [] from rfl, List.append_nil] at happend

lemma Detached.endsWord {s : String} (h : Detached s) : EndsWord s.toList := by
  intro c hc
  rw [Detached, Option.mem_def.mp hc] at h
  exact Option.some.inj h

lemma Detached.append {s : String} (h : Detached s) (t : String) : Detached (s ++ t) := by
  obtain ⟨c, hc, hschema⟩ := Option.map_eq_some_iff.mp h
  rw [Detached, String.toList_append, List.head?_append, hc]
  exact congrArg some hschema

/-- A numbered placeholder is one token. -/
lemma isSchemaName_numbered {letter : String} {c : Char} (hletter : letter.toList = [c])
    (hc : isNameStart c = true) (n : Nat) : isSchemaName (letter ++ toString n) = true := by
  rw [isSchemaName_iff]
  refine ⟨c, Nat.toDigits 10 n, ?_, hc, fun d hd => ?_⟩
  · rw [String.toList_append, hletter, Nat.toString_eq_repr, Nat.toList_repr]
    rfl
  · have hdigit := Nat.isDigit_of_mem_toDigits (by decide) (by decide) hd
    simp [isSchemaChar, Char.isAlphanum, hdigit]

lemma tokens_namePlaceholder (n : Nat) :
    tokens (namePlaceholder n) = [.name (namePlaceholder n)] := by
  rw [namePlaceholder, show "#n" = "#" ++ "n" from rfl, String.append_assoc]
  exact tokens_name (isSchemaName_numbered (c := 'n') rfl (by decide) n)

lemma tokens_valuePlaceholder (n : Nat) :
    tokens (valuePlaceholder n) = [.value (valuePlaceholder n)] := by
  rw [valuePlaceholder, show ":v" = ":" ++ "v" from rfl, String.append_assoc]
  exact tokens_value (isSchemaName_numbered (c := 'v') rfl (by decide) n)

/-- A row of placeholders, cut into its tokens. -/
lemma tokens_row {comma : String} (hunmarked : Unmarked comma) (hdetached : Detached comma)
    {operands : List String} (h : ∀ p ∈ operands, tokens p = [.value p]) :
    tokens (comma.intercalate operands) = rowTokens comma operands := by
  induction operands with
  | nil => rfl
  | cons p ps ih =>
    obtain ⟨hp, hps⟩ := List.forall_mem_cons.mp h
    cases ps with
    | nil => rw [String.intercalate_singleton, hp]; rfl
    | cons p' ps =>
      rw [String.intercalate_cons_cons, String.append_assoc,
        tokens_append _ (hdetached.append _).endsWord, tokens_unmarked_append hunmarked, ih hps, hp,
        rowTokens_cons_cons]
      rfl

/-- The text of an atomic condition over placeholders, cut into its tokens. -/
lemma Atom.tokens_text {a : Atom String} (hfield : TableKeys.tokens a.field = [.name a.field])
    (hoperands : ∀ p ∈ a.operands, TableKeys.tokens p = [.value p]) :
    TableKeys.tokens a.text = a.tokens := by
  have hw := a.test.sound_wording
  have hclosing : EndsWord a.test.wording.closing.toList := by
    rcases hw.closing.2 with hempty | hdetached
    · rw [hempty]
      exact endsWord_nil
    · exact hdetached.endsWord
  rw [text, tokens_unmarked_append hw.opening, tokens_append _ (hw.middle.2.append _).endsWord,
    hfield, tokens_unmarked_append hw.middle.1, tokens_append _ hclosing,
    tokens_row hw.comma.1 hw.comma.2 hoperands, tokens_unmarked hw.closing.1]
  rfl

section Cutting

variable {α : Type}

/-- **The text of a placed formula is cut into the tokens of the formula.** -/
theorem tokens_text (f : Formula (Atom α)) (n v : Nat) :
    tokens (f.placed n v).text = (f.placed n v).tokens := by
  have hbracket : Detached ")" := by decide
  have hsign (k : Connective) : Unmarked k.sign ∧ Detached k.sign := by cases k <;> decide
  induction f generalizing n v with
  | nothing => rfl
  | atom a =>
    refine Atom.tokens_text (tokens_namePlaceholder n) fun p hp => ?_
    obtain ⟨i, -, rfl⟩ := List.mem_map.mp hp
    exact tokens_valuePlaceholder _
  | join k f g ihf ihg =>
    rw [Formula.placed, Formula.text, Formula.tokens, tokens_unmarked_append (by decide),
      tokens_append _ ((hsign k).2.append _).endsWord, tokens_unmarked_append (hsign k).1,
      tokens_append _ hbracket.endsWord, ihf, ihg]
    rfl
  | negation f ih =>
    rw [Formula.placed, Formula.text, Formula.tokens, tokens_unmarked_append (by decide),
      tokens_append _ hbracket.endsWord, ih]
    rfl

end Cutting

/-! ## Writing conditions -/

/-- A text without separators is one part of a path. -/
lemma pathPiecesFrom_eq {cs : List Char} (h : ∀ c ∈ cs, isPathSeparator c = false)
    (part : List Char) (hne : part ++ cs ≠ []) :
    pathPiecesFrom part cs = [.part (part.reverse ++ cs)] := by
  induction cs generalizing part with
  | nil =>
    have hpart : part.isEmpty = false := by simpa using hne
    rw [pathPiecesFrom, hpart, List.append_nil]
    rfl
  | cons c cs ih =>
    obtain ⟨hc, hcs⟩ := List.forall_mem_cons.mp h
    have hbrackets : insideBrackets cs = false := by
      have hnone : cs.find? (fun c => c == '[' || c == ']') = none := by
        rw [List.find?_eq_none]
        intro d hd
        have hseparator := hcs d hd
        simp only [isPathSeparator, Bool.or_eq_false_iff] at hseparator
        simp [hseparator.1.2, hseparator.2]
      rw [insideBrackets, hnone]
      rfl
    rw [pathPiecesFrom, hc, hbrackets, if_neg Bool.false_ne_true, if_neg Bool.false_ne_true,
      ih hcs (c :: part) (by simp), List.reverse_cons, List.append_assoc]
    rfl

lemma pathPieces_of_isSchemaName {name : String} (h : isSchemaName name = true) :
    pathPieces name = [.part name.toList] := by
  obtain ⟨c, cs, hname, -⟩ := isSchemaName_iff.mp h
  have hseparators : ∀ d ∈ name.toList, isPathSeparator d = false := by
    intro d hd
    have hschema := isSchemaChar_of_mem h hd
    rw [Bool.eq_false_iff]
    intro hseparator
    simp only [isPathSeparator, Bool.or_eq_true, beq_iff_eq] at hseparator
    rcases hseparator with (rfl | rfl) | rfl <;> revert hschema <;> decide
  rw [pathPieces, pathPiecesFrom_eq hseparators [] (by simp [hname])]
  rfl

/-- A field with a schema name is written out as one placeholder. -/
lemma writeField_eq {field : MapKey} {n : Nat} {w : Written}
    (hfield : isSchemaName field.plain = true) (h : writeField n field = .ok w) :
    w.text = namePlaceholder n ∧ w.names = [field.plain] ∧ w.values = [] := by
  unfold writeField at h
  split at h
  · rename_i name
    have hpieces : pathPieces name = [.part name.toList] := pathPieces_of_isSchemaName hfield
    rw [hpieces] at h
    unfold writePath at h
    split at h
    · cases h
    · obtain rfl := Except.ok.inj h
      exact ⟨String.append_empty, by simp [writePieces, MapKey.plain, Scalar.plain], rfl⟩
  · cases h

lemma members?_of_members {d : Data} {items : List Data} (h : d.members = .ok items) :
    d.members? = some items := by
  unfold Data.members at h
  split at h
  · rename_i hmembers
    rw [hmembers, Except.ok.inj h]
  · cases h

/-- The signs and functions that comparisons are written with are those of the database. -/
lemma Comparison.write_eq (op : Comparison) (field operand : String) :
    op.write field operand = Atom.text ⟨field, op.test, [operand]⟩ := by
  cases op <;>
    simp [Comparison.write, Comparison.isFunction, Comparison.symbol, Comparison.test, Atom.text,
      Test.wording, Wording.sign, Wording.function, String.append_assoc]

/-- What is written out says the formula, with placeholders from these numbers on. -/
structure Written.Says (w : Written) (f : Formula (Atom Data)) (n v : Nat) : Prop where
  text : w.text = (f.placed n v).text
  names : w.names = f.fields
  values : w.values = f.operands

section Says

variable {wa wb : Written} {f g : Formula (Atom Data)} {n v : Nat}

lemma Written.Says.join (k : Connective) (ha : wa.Says f n v)
    (hb : wb.Says g (n + wa.names.length) (v + wa.values.length)) :
    Written.Says ⟨"(" ++ wa.text ++ k.sign ++ wb.text ++ ")", wa.names ++ wb.names,
      wa.values ++ wb.values⟩ (.join k f g) n v := by
  rw [ha.names, ha.values] at hb
  constructor
  · rw [Formula.placed, Formula.text, ← ha.text, ← hb.text]
    simp only [String.append_assoc]
  · rw [Formula.fields_join, ← ha.names, ← hb.names]
  · rw [Formula.operands_join, ← ha.values, ← hb.values]

lemma Written.Says.negation (h : wa.Says f n v) :
    Written.Says { wa with text := "(NOT " ++ wa.text ++ ")" } (.negation f) n v := by
  constructor
  · rw [Formula.placed, Formula.text, ← h.text]
    exact String.append_assoc
  · exact h.names
  · exact h.values

end Says

/-- **A condition is written out as its formula.** -/
theorem Condition.write_eq {c : Condition} {n v : Nat} {w : Written}
    (hfields : ∀ field ∈ c.formula.fields, isSchemaName field = true)
    (h : c.write n v = .ok w) : w.Says c.formula n v := by
  induction c generalizing n v w with
  | compare op field operand =>
    obtain ⟨name, hname, h⟩ := exists_of_bind_eq_ok h
    obtain ⟨htext, hnames, -⟩ := writeField_eq (hfields _ (by simp [formula])) hname
    obtain rfl := Except.ok.inj h
    refine ⟨?_, hnames, rfl⟩
    rw [htext]
    exact Comparison.write_eq _ _ _
  | between field low high =>
    obtain ⟨name, hname, h⟩ := exists_of_bind_eq_ok h
    obtain ⟨htext, hnames, -⟩ := writeField_eq (hfields _ (by simp [formula])) hname
    obtain rfl := Except.ok.inj h
    refine ⟨?_, hnames, rfl⟩
    have hrow : valuePlaceholders v 2 = [valuePlaceholder v, valuePlaceholder (v + 1)] := rfl
    simp [htext, formula, Formula.placed, Formula.text, Atom.text, Test.wording, hrow,
      String.append_assoc]
  | oneOf field operands =>
    obtain ⟨name, hname, h⟩ := exists_of_bind_eq_ok h
    obtain ⟨htext, hnames, -⟩ := writeField_eq (hfields _ (by simp [formula])) hname
    obtain ⟨items, hitems, h⟩ := exists_of_bind_eq_ok h
    obtain rfl := Except.ok.inj h
    refine ⟨?_, hnames, ?_⟩
    · simp [htext, formula, Formula.placed, Formula.text, Atom.text, Test.wording,
        members?_of_members hitems, String.append_assoc]
    · simp [formula, members?_of_members hitems]
  | present field =>
    obtain ⟨name, hname, h⟩ := exists_of_bind_eq_ok h
    obtain ⟨htext, hnames, hvalues⟩ := writeField_eq (hfields _ (by simp [formula])) hname
    obtain rfl := Except.ok.inj h
    refine ⟨?_, hnames, hvalues⟩
    rw [htext, String.append_assoc]
    rfl
  | absent field =>
    obtain ⟨name, hname, h⟩ := exists_of_bind_eq_ok h
    obtain ⟨htext, hnames, hvalues⟩ := writeField_eq (hfields _ (by simp [formula])) hname
    obtain rfl := Except.ok.inj h
    refine ⟨?_, hnames, hvalues⟩
    rw [htext, String.append_assoc]
    rfl
  | both a b iha ihb =>
    rw [formula, Formula.fields_join] at hfields
    obtain ⟨ha, hb⟩ := List.forall_mem_append.mp hfields
    obtain ⟨wa, hwa, h⟩ := exists_of_bind_eq_ok h
    obtain ⟨wb, hwb, h⟩ := exists_of_bind_eq_ok h
    obtain rfl := Except.ok.inj h
    exact (iha ha hwa).join .all (ihb hb hwb)
  | either a b iha ihb =>
    rw [formula, Formula.fields_join] at hfields
    obtain ⟨ha, hb⟩ := List.forall_mem_append.mp hfields
    obtain ⟨wa, hwa, h⟩ := exists_of_bind_eq_ok h
    obtain ⟨wb, hwb, h⟩ := exists_of_bind_eq_ok h
    obtain rfl := Except.ok.inj h
    exact (iha ha hwa).join .any (ihb hb hwb)
  | negation a ih =>
    obtain ⟨wa, hwa, h⟩ := exists_of_bind_eq_ok h
    obtain rfl := Except.ok.inj h
    exact (ih hfields hwa).negation

/-! ## Storing operands -/

/-- The stored values have the places of the values. -/
lemma mapM_stored_of_storeValues {values : List Data} {stored : List (String × AttributeValue)}
    {placeholder : Nat → String}
    (h : storeValues (numbered placeholder values) = .ok stored) :
    ∃ as, values.mapM Data.stored = .ok as ∧ stored = numbered placeholder as := by
  induction values generalizing placeholder stored with
  | nil =>
    obtain rfl := Except.ok.inj h
    exact ⟨[], rfl, rfl⟩
  | cons d ds ih =>
    rw [numbered, List.mapIdx_cons] at h
    obtain ⟨a, ha, h⟩ := exists_of_bind_eq_ok h
    obtain ⟨rest, hrest, h⟩ := exists_of_bind_eq_ok h
    obtain rfl := Except.ok.inj h
    have hshifted : storeValues (numbered (fun i => placeholder (i + 1)) ds) = .ok rest := hrest
    obtain ⟨as, has, rfl⟩ := ih hshifted
    refine ⟨a :: as, ?_, ?_⟩
    · rw [List.mapM_cons, ha, has]
      rfl
    · rw [numbered, numbered, List.mapIdx_cons]

/-- A formula whose operands can all be stored. -/
structure StoredAs (f : Formula (Atom Data)) (g : Formula (Atom AttributeValue)) : Prop where
  atoms : f.map Atom.stored? = g.map some
  fields : f.fields = g.fields
  placed : ∀ n v, f.placed n v = g.placed n v

lemma length_of_mapM_ok {as : List Data} {bs : List AttributeValue}
    (h : as.mapM Data.stored = .ok bs) : as.length = bs.length :=
  (forall₂_of_mapM_ok h).length_eq

lemma exists_storedAs {f : Formula (Atom Data)} {as : List AttributeValue}
    (h : f.operands.mapM Data.stored = .ok as) : ∃ g, StoredAs f g ∧ g.operands = as := by
  induction f generalizing as with
  | nothing =>
    obtain rfl := Except.ok.inj h
    exact ⟨.nothing, ⟨rfl, rfl, fun _ _ => rfl⟩, rfl⟩
  | atom a =>
    rw [Formula.operands_atom] at h
    refine ⟨.atom ⟨a.field, a.test, as⟩, ⟨?_, rfl, fun n v => ?_⟩, Formula.operands_atom _⟩
    · rw [Formula.map, Atom.stored?, h]
      rfl
    · rw [Formula.placed, Formula.placed, length_of_mapM_ok h]
  | join k f g ihf ihg =>
    rw [Formula.operands_join, List.mapM_append] at h
    obtain ⟨bs, hbs, h⟩ := exists_of_bind_eq_ok h
    obtain ⟨cs, hcs, h⟩ := exists_of_bind_eq_ok h
    obtain rfl := Except.ok.inj h
    obtain ⟨f', hf, rfl⟩ := ihf hbs
    obtain ⟨g', hg, rfl⟩ := ihg hcs
    refine ⟨.join k f' g', ⟨?_, ?_, fun n v => ?_⟩, Formula.operands_join _ _ _⟩
    · rw [Formula.map, Formula.map, hf.atoms, hg.atoms]
    · rw [Formula.fields_join, Formula.fields_join, hf.fields, hg.fields]
    · rw [Formula.placed, Formula.placed, hf.placed, hg.placed, hf.fields, length_of_mapM_ok hbs]
  | negation f ih =>
    obtain ⟨g, hg, hoperands⟩ := ih h
    refine ⟨.negation g, ⟨?_, hg.fields, fun n v => ?_⟩, hoperands⟩
    · rw [Formula.map, Formula.map, hg.atoms]
    · rw [Formula.placed, Formula.placed, hg.placed]

/-! ## Expressions of filters -/

/-- Conditions are compiled with as many operands as their tests take. -/
lemma Condition.complete (c : Condition) : c.formula.Complete := by
  induction c with
  | compare op => cases op <;> rfl
  | between | oneOf | present | absent => rfl
  | both a b iha ihb => exact ⟨iha, ihb⟩
  | either a b iha ihb => exact ⟨iha, ihb⟩
  | negation a ih => exact ih

lemma StoredAs.complete {f : Formula (Atom Data)} {g : Formula (Atom AttributeValue)}
    (h : StoredAs f g) (hf : f.Complete) : g.Complete := by
  rw [← complete_placed (n := 0) (v := 0), ← h.placed]
  exact complete_placed.mpr hf

/-- **The expression of a condition writes out what the condition asks for.** -/
theorem exists_writes {c : Condition} {e : Expression}
    (hfields : ∀ field ∈ c.formula.fields, isSchemaName field = true)
    (h : c.expression = .ok e) :
    ∃ g, e.Writes g ∧ g.Complete ∧ c.seen Atom.stored? = g.map some := by
  obtain ⟨w, hw, h⟩ := exists_of_bind_eq_ok h
  obtain ⟨values, hvalues, h⟩ := exists_of_bind_eq_ok h
  obtain rfl := Except.ok.inj h
  have hwritten := Condition.write_eq hfields hw
  obtain ⟨as, has, rfl⟩ := mapM_stored_of_storeValues hvalues
  rw [hwritten.values] at has
  obtain ⟨g, hg, rfl⟩ := exists_storedAs has
  refine ⟨g, ⟨?_, ?_, rfl⟩, hg.complete c.complete, hg.atoms⟩
  · rw [hwritten.text, tokens_text, hg.placed]
  · rw [hwritten.names, hg.fields]

end TableKeys.Filter
