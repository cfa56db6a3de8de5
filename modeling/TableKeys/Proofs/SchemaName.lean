/-
# Paths made of schema names

The names of fields in a schema are words of ASCII that do not start with a digit
(`isSchemaName`). A path whose last step is such a name leads to the member of that name of
what the path before it leads to (`resolve_child`), so a path is resolved step by step.
-/
import TableKeys.Key.Composite
import TableKeys.Proofs.Lookup
import TableKeys.Template.Path
import Mathlib.Data.List.TakeWhile

namespace TableKeys

open Text

/-- A name as fields of a schema have it. -/
def isSchemaName (s : String) : Bool :=
  match s.toList with
  | [] => false
  | c :: cs => isNameStart c && cs.all isSchemaChar

lemma isSchemaName_iff {s : String} :
    isSchemaName s = true ↔
      ∃ c cs, s.toList = c :: cs ∧ isNameStart c = true ∧ ∀ d ∈ cs, isSchemaChar d = true := by
  unfold isSchemaName
  cases hs : s.toList with
  | nil => simp
  | cons c cs => simp [List.all_eq_true]

lemma isSchemaChar_of_isNameStart {c : Char} (h : isNameStart c = true) :
    isSchemaChar c = true := by
  simp only [isNameStart, isSchemaChar, Char.isAlphanum, Bool.or_eq_true] at h ⊢
  rcases h with h | h
  · exact Or.inl (Or.inl h)
  · exact Or.inr h

/-- Every character of a schema name may stand in one. -/
lemma isSchemaChar_of_mem {s : String} (h : isSchemaName s = true) {c : Char}
    (hc : c ∈ s.toList) : isSchemaChar c = true := by
  obtain ⟨d, cs, hs, hd, hcs⟩ := isSchemaName_iff.mp h
  rw [hs] at hc
  rcases List.mem_cons.mp hc with rfl | hc
  · exact isSchemaChar_of_isNameStart hd
  · exact hcs c hc

/-- What holds of the characters of ASCII, one by one, holds of every character among them. -/
lemma forall_ascii {P : Char → Prop} (h : ∀ n : Fin 128, P (Char.ofNat n)) {c : Char}
    (hc : c.toNat < 128) : P c := by
  have hn := h ⟨c.toNat, hc⟩
  rwa [Char.ofNat_toNat] at hn

lemma toNat_lt_of_isDigit {c : Char} (h : c.isDigit = true) : c.toNat < 128 := by
  simp only [Char.isDigit, Bool.and_eq_true, decide_eq_true_eq] at h
  exact Nat.lt_of_le_of_lt h.2 (by decide)

lemma toNat_lt_of_isSchemaChar {c : Char} (h : isSchemaChar c = true) : c.toNat < 128 := by
  simp only [isSchemaChar, Char.isAlphanum, Bool.or_eq_true, beq_iff_eq] at h
  rcases h with (h | h) | rfl
  · exact toNat_lt_of_isAlpha h
  · exact toNat_lt_of_isDigit h
  · decide

lemma isWord_of_isSchemaChar {c : Char} (h : isSchemaChar c = true) : isWord c = true := by
  have hc : (c.isAlphanum || c == '_') = true := h
  rw [isWord, if_pos (toNat_lt_of_isSchemaChar h), hc]

/-- A character that schema names do not have is in none of them. -/
lemma notMem_of_isSchemaName {s : String} (h : isSchemaName s = true) {c : Char}
    (hc : isSchemaChar c = false) : c ∉ s.toList := by
  intro hmem
  rw [isSchemaChar_of_mem h hmem] at hc
  cases hc

/-! ## Names of composite keys -/

/-- Capital and small forms of characters of schema names may stand in schema names. -/
lemma isSchemaChar_cases {c : Char} (h : isSchemaChar c = true) :
    isSchemaChar c.toUpper = true ∧ isSchemaChar c.toLower = true :=
  forall_ascii (P := fun c => isSchemaChar c = true →
      isSchemaChar c.toUpper = true ∧ isSchemaChar c.toLower = true)
    (by decide) (toNat_lt_of_isSchemaChar h) h

lemma capitalize_schemaChars {s : String} (h : ∀ c ∈ s.toList, isSchemaChar c = true) :
    ∀ c ∈ (capitalize s).toList, isSchemaChar c = true := by
  unfold capitalize
  cases hs : s.toList with
  | nil => simp [hs]
  | cons d rest =>
    rw [hs] at h
    have hd := h d (by simp)
    have hcapital : capital d = [d.toUpper] := if_pos (toNat_lt_of_isSchemaChar hd)
    intro c hc
    simp only [hcapital, String.toList_ofList] at hc
    rcases List.mem_append.mp hc with hc | hc
    · rw [List.mem_singleton.mp hc]
      exact (isSchemaChar_cases hd).1
    · exact h c (by simp [hc])

lemma uncapitalize_schemaChars {s : String} (h : ∀ c ∈ s.toList, isSchemaChar c = true) :
    ∀ c ∈ (uncapitalize s).toList, isSchemaChar c = true := by
  unfold uncapitalize
  cases hs : s.toList with
  | nil => simp [hs]
  | cons d rest =>
    rw [hs] at h
    intro c hc
    simp only [String.toList_ofList] at hc
    rcases List.mem_cons.mp hc with rfl | hc
    · exact (isSchemaChar_cases (h d (by simp))).2
    · exact h c (by simp [hc])

lemma schemaName_schemaChars (s : String) : ∀ c ∈ (schemaName s).toList, isSchemaChar c = true := by
  intro c hc
  rw [schemaName, String.toList_ofList] at hc
  exact (List.mem_filter.mp hc).2

/-- The schema name of a composite key has characters of schema names only. -/
lemma compositeArgument_schemaChars (fields : List String) :
    ∀ c ∈ (compositeArgument fields).toList, isSchemaChar c = true := by
  have hnames : ∀ s ∈ (fields.map schemaName).filter (· != ""), ∀ c ∈ s.toList,
      isSchemaChar c = true := by
    intro s hs
    obtain ⟨f, -, rfl⟩ := List.mem_map.mp (List.mem_filter.mp hs).1
    exact schemaName_schemaChars f
  unfold compositeArgument
  split
  · simp
  · rename_i head rest heq
    rw [heq] at hnames
    intro c hc
    rw [String.toList_append] at hc
    rcases List.mem_append.mp hc with hc | hc
    · exact uncapitalize_schemaChars (hnames head (by simp)) c hc
    · rw [String.toList_join] at hc
      obtain ⟨t, ht, hc⟩ := List.mem_flatMap.mp hc
      obtain ⟨s, hs, rfl⟩ := List.mem_map.mp ht
      exact capitalize_schemaChars (hnames s (by simp [hs])) c hc

lemma notMem_compositeArgument (fields : List String) :
    '$' ∉ (compositeArgument fields).toList := by
  intro h
  have hc := compositeArgument_schemaChars fields '$' h
  revert hc
  decide

lemma notMem_intercalate {separator : String} {texts : List String} {c : Char}
    (hsep : c ∉ separator.toList) (htexts : ∀ t ∈ texts, c ∉ t.toList) :
    c ∉ (separator.intercalate texts).toList := by
  rw [String.toList_intercalate]
  induction texts with
  | nil => simp
  | cons t ts ih =>
    cases ts with
    | nil => simpa using htexts t (by simp)
    | cons u us =>
      simp only [List.map_cons, List.intercalate_cons_cons, List.mem_append] at ih ⊢
      rintro (hc | hc)
      · rcases hc with hc | hc
        · exact htexts t (by simp) hc
        · exact hsep hc
      · exact ih (fun x hx => htexts x (by simp [hx])) hc

/-- The decimal text of a number has no other characters than digits. -/
lemma notMem_toString {c : Char} (hc : c.isDigit = false) (n : Nat) : c ∉ (toString n).toList := by
  intro h
  rw [Nat.toString_eq_repr, Nat.toList_repr] at h
  rw [Nat.isDigit_of_mem_toDigits (by decide) (by decide) h] at hc
  cases hc

/-- A number is known from its decimal text. -/
lemma eq_of_toString_eq {m n : Nat} (h : toString m = toString n) : m = n := by
  have hdigits := congrArg String.toList h
  rw [Nat.toString_eq_repr, Nat.toString_eq_repr, Nat.toList_repr, Nat.toList_repr] at hdigits
  rw [← Nat.ofDigitChars_ten_toDigits (n := m), hdigits, Nat.ofDigitChars_ten_toDigits]

lemma notMem_compositeName {o : Options} {fields : List String} {c : Char}
    (hsep : c ∉ o.nameSeparator.toList) (hfields : ∀ f ∈ fields, c ∉ f.toList) :
    c ∉ (compositeName o fields).toList :=
  notMem_intercalate hsep hfields

/-- The fields are named as in a schema, and the separator of values holds no dollar sign, so that
a template for the value of the key refers to the fields and to nothing else. -/
structure KeyDecl.Legible (k : KeyDecl) (o : Options) : Prop where
  fields : ∀ f ∈ k.fields, isSchemaName f.name = true
  keySeparator : '$' ∉ o.keySeparator.toList

namespace KeyDecl.Legible

variable {k : KeyDecl} {o : Options}

lemma partition (h : k.Legible o) : isSchemaName k.partition.name = true :=
  h.fields k.partition (by simp [KeyDecl.fields])

lemma sortFields (h : k.Legible o) : ∀ f ∈ k.sortFields, isSchemaName f = true := by
  intro f hf
  obtain ⟨g, hg, rfl⟩ := List.mem_map.mp hf
  exact h.fields g (by simp [KeyDecl.fields, hg])

end KeyDecl.Legible

/-- The fields are named as in a schema, and no separator holds a dollar sign, so that in
templates every reference is one. -/
structure KeyDecl.Plain (k : KeyDecl) (o : Options) : Prop where
  fields : ∀ f ∈ k.fields, isSchemaName f.name = true
  keySeparator : '$' ∉ o.keySeparator.toList
  nameSeparator : '$' ∉ o.nameSeparator.toList

namespace KeyDecl.Plain

variable {k : KeyDecl} {o : Options}

lemma legible (h : k.Plain o) : k.Legible o :=
  ⟨h.fields, h.keySeparator⟩

lemma partition (h : k.Plain o) : isSchemaName k.partition.name = true :=
  h.legible.partition

lemma sortFields (h : k.Plain o) : ∀ f ∈ k.sortFields, isSchemaName f = true :=
  h.legible.sortFields

lemma compositeName (h : k.Plain o) : '$' ∉ (compositeName o k.sortFields).toList :=
  notMem_compositeName h.nameSeparator fun f hf =>
    notMem_of_isSchemaName (h.sortFields f hf) (by decide)

end KeyDecl.Plain

namespace Template

/-! ## Resolving paths -/

/-- A schema name is a step without an index. -/
lemma Segment.ofChars_schemaName {s : String} (h : isSchemaName s = true) :
    Segment.ofChars s.toList = .ok { name := s } := by
  obtain ⟨c, cs, hs, hc, hcs⟩ := isSchemaName_iff.mp h
  have hrest : cs.dropWhile isWord = [] :=
    List.dropWhile_eq_nil_iff.mpr fun d hd => isWord_of_isSchemaChar (hcs d hd)
  have hname : String.ofList (c :: cs) = s := by rw [← hs, String.ofList_toList]
  rw [hs]
  simp [ofChars, hc, hrest, indexDigits?, hname]

@[simp] lemma Store.member_null (s : Store) (name : String) : s.member .null name = .null := rfl

lemma Store.member_map {s : Store} {a : Address} {es : Entries MapKey Value}
    (h : s.get? a = some (.map es)) (name : String) :
    s.member (.ref a) name = (es.get? (.text name)).getD .null := by
  simp [member, entries?, h]

lemma Store.member_record {s : Store} {a : Address} {kind : RecordKind}
    {fields : Entries Field Value} (h : s.get? a = some (.record kind fields)) (name : String) :
    s.member (.ref a) name = ((kind.field? name).bind fields.get?).getD .null := by
  simp [member, entries?, record?, h]

lemma Value.eq_null_of_isNull {v : Value} (h : v.isNull = true) : v = .null := by
  match v, h with
  | .scalar .null, _ => rfl

lemma Segment.pick_null (segment : Segment) : segment.pick .null = .null := by
  unfold Segment.pick
  split <;> rfl

lemma follow_append (store : Store) {v w : Value} {steps : List (List Char)}
    (h : follow store v steps = .ok w) {step : List Char} {segment : Segment}
    (hstep : Segment.ofChars step = .ok segment) :
    follow store v (steps ++ [step]) = .ok (segment.pick (store.member w segment.name)) := by
  induction steps generalizing v with
  | nil =>
    obtain rfl := Except.ok.inj h
    cases hv : v.isNull with
    | true =>
      obtain rfl := Value.eq_null_of_isNull hv
      simp [follow, hv, Segment.pick_null]
    | false => simp [follow, hv, hstep, bind, Except.bind]
  | cons first steps ih =>
    rw [List.cons_append, follow]
    rw [follow] at h
    split at h
    · rename_i hv
      obtain rfl := Except.ok.inj h
      obtain rfl := Value.eq_null_of_isNull hv
      rw [if_pos hv, Store.member_null, Segment.pick_null]
    · rename_i hv
      rw [if_neg hv]
      cases hfirst : Segment.ofChars first with
      | error f => rw [hfirst] at h; cases h
      | ok segment =>
        rw [hfirst] at h
        exact ih h

lemma toList_child (path name : String) :
    (path ++ "." ++ name).toList = path.toList ++ '.' :: name.toList := by
  simp [String.toList_append]

lemma forall_reverse_ne_dot {name : String} (hname : '.' ∉ name.toList) :
    ∀ c ∈ name.toList.reverse, (c != '.') = true := by
  intro c hc
  rw [List.mem_reverse] at hc
  simp only [bne_iff_ne]
  rintro rfl
  exact hname hc

/-- A single step has no parent. -/
lemma splitLast_of_notMem {name : String} (hname : '.' ∉ name.toList) :
    splitLast name = ("", name) := by
  have hall := forall_reverse_ne_dot hname
  simp [splitLast, List.takeWhile_eq_self_iff.mpr hall, List.dropWhile_eq_nil_iff.mpr hall]

/-- The parent of a path that is extended by a step is the path. -/
lemma splitLast_child {path name : String} (hname : '.' ∉ name.toList) :
    splitLast (path ++ "." ++ name) = (path, name) := by
  have hreverse : (path ++ "." ++ name).toList.reverse =
      name.toList.reverse ++ '.' :: path.toList.reverse := by
    rw [toList_child]
    simp
  have hall := forall_reverse_ne_dot hname
  rw [splitLast, hreverse, List.takeWhile_append_of_pos hall, List.dropWhile_append_of_pos hall]
  simp

/-- **One step further.** A path that is extended by a step leads to the member that the step stands
for. -/
theorem resolve_step {store : Store} {bindings : Entries String Value} {path step : String}
    {v : Value} {segment : Segment} (h : resolve store bindings path = .ok v)
    (hdot : '.' ∉ step.toList) (hstep : Segment.ofChars step.toList = .ok segment) :
    resolve store bindings (path ++ "." ++ step) =
      .ok (segment.pick (store.member v segment.name)) := by
  have hsplit : (path ++ "." ++ step).toList.splitOn '.' =
      path.toList.splitOn '.' ++ [step.toList] := by
    rw [toList_child, List.splitOn_append_cons_self, List.splitOn_eq_singleton hdot]
  unfold resolve at h ⊢
  rw [hsplit]
  match hp : path.toList.splitOn '.' with
  | [] => exact absurd hp (List.splitOn_ne_nil _ _)
  | head :: steps =>
    rw [hp] at h
    simp only [List.cons_append]
    simp only at h
    cases hhead : Segment.ofChars head with
    | error f => rw [hhead] at h; cases h
    | ok segment =>
      rw [hhead] at h
      exact follow_append store h hstep

/-- A path that is extended by a schema name leads to the member of that name. -/
theorem resolve_child {store : Store} {bindings : Entries String Value} {path name : String}
    {v : Value} (h : resolve store bindings path = .ok v) (hname : isSchemaName name = true) :
    resolve store bindings (path ++ "." ++ name) = .ok (store.member v name) :=
  resolve_step h (notMem_of_isSchemaName hname (by decide)) (Segment.ofChars_schemaName hname)

/-- A schema name alone is a variable. -/
theorem resolve_variable (store : Store) (bindings : Entries String Value) {name : String}
    (hname : isSchemaName name = true) :
    resolve store bindings name = .ok ((bindings.get? name).getD .null) := by
  have hdot : '.' ∉ name.toList := notMem_of_isSchemaName hname (by decide)
  unfold resolve
  rw [List.splitOn_eq_singleton hdot]
  simp [Segment.ofChars_schemaName hname, Segment.pick, follow, bind, Except.bind]

end Template

end TableKeys
