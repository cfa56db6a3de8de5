/-
# Filters of the same shape

Two filters have the same shape (`sameShape`) if they are nested in the same way, have the same keys
in the same order, and are null in the same places; operands may be any data, as long as two that
`in` lists have the same length and two that `attributeExists` has are both nothing or both
something. Conditions of the same form differ in operands only (`Condition.SameForm`).

* `expression?_sameShape`: two filters of the same shape have the same text and the same names. What
  an operand holds never gets into them.
-/
import TableKeys.Proofs.FilterMeaning
import TableKeys.Proofs.Paths
import Mathlib.Data.List.Forall2

namespace TableKeys.Filter

/-! ## Shapes -/

/-- The operands of an operator may stand for each other. -/
def sameOperand (operator : MapKey) (a b : Data) : Bool :=
  match operator with
  | .text "in" => a.members?.map List.length == b.members?.map List.length
  | .text "attributeExists" => a.isNothing == b.isNothing
  | _ => true

/-- The operators of a field have the same shape. -/
def sameOperators : List (MapKey × Data) → List (MapKey × Data) → Bool
  | [], [] => true
  | (k, a) :: as, (k', b) :: bs =>
    decide (k = k') && a.isNull == b.isNull && (a.isNull || sameOperand k a b) &&
      sameOperators as bs
  | _, _ => false

/-- What fields have to satisfy has the same shape. -/
def sameField : Data → Data → Bool
  | .map as, .map bs => sameOperators as bs
  | _, _ => false

mutual

/-- The filters have the same shape. Whatever stands for nothing is no filter at all. -/
def sameShape : Data → Data → Bool
  | .map as, .map bs => sameEntries as bs
  | a, b => a.isNothing && b.isNothing
termination_by structural a => a

/-- The entries of filters have the same shape. -/
def sameEntries : List (MapKey × Data) → List (MapKey × Data) → Bool
  | [], [] => true
  | (k, a) :: as, (k', b) :: bs =>
    decide (k = k') && a.isNull == b.isNull &&
      (a.isNull ||
        (if k == .text "and" then sameMembers a b
        else if k == .text "or" then sameMembers a b
        else if k == .text "not" then sameShape a b
        else sameField a b)) &&
      sameEntries as bs
  | _, _ => false
termination_by structural as => as

/-- The filters that `and` or `or` lists have the same shape. -/
def sameMembers : Data → Data → Bool
  | .list as, .list bs => sameShapes as bs
  | a, b => a.isNothing && b.isNothing
termination_by structural a => a

/-- The filters of two lists have the same shape, one by one. -/
def sameShapes : List Data → List Data → Bool
  | [], [] => true
  | a :: as, b :: bs => sameShape a b && sameShapes as bs
  | _, _ => false
termination_by structural as => as

end

/-! ## Conditions of the same form -/

/-- The conditions differ in operands only. -/
inductive Condition.SameForm : Condition → Condition → Prop
  | compare (op : Comparison) (field : MapKey) (a b : Data) :
      SameForm (.compare op field a) (.compare op field b)
  | between (field : MapKey) (low high low' high' : Data) :
      SameForm (.between field low high) (.between field low' high')
  | oneOf (field : MapKey) {a b : Data}
      (h : a.members?.map List.length = b.members?.map List.length) :
      SameForm (.oneOf field a) (.oneOf field b)
  | present (field : MapKey) : SameForm (.present field) (.present field)
  | absent (field : MapKey) : SameForm (.absent field) (.absent field)
  | both {a b a' b' : Condition} (ha : SameForm a a') (hb : SameForm b b') :
      SameForm (.both a b) (.both a' b')
  | either {a b a' b' : Condition} (ha : SameForm a a') (hb : SameForm b b') :
      SameForm (.either a b) (.either a' b')
  | negation {a a' : Condition} (ha : SameForm a a') : SameForm (.negation a) (.negation a')

/-- What is written out differs in values only. -/
structure Written.Matches (w w' : Written) : Prop where
  text : w.text = w'.text
  names : w.names = w'.names
  count : w.values.length = w'.values.length

section Writing

variable {c c' : Condition} {n v : Nat} {w w' wa wa' wb wb' : Written} {e e' : Expression}

lemma Written.Matches.join (word : String) (ha : wa.Matches wa') (hb : wb.Matches wb') :
    Written.Matches
      ⟨"(" ++ wa.text ++ word ++ wb.text ++ ")", wa.names ++ wb.names, wa.values ++ wb.values⟩
      ⟨"(" ++ wa'.text ++ word ++ wb'.text ++ ")", wa'.names ++ wb'.names,
        wa'.values ++ wb'.values⟩ := by
  constructor
  · rw [ha.text, hb.text]
  · rw [ha.names, hb.names]
  · rw [List.length_append, List.length_append, ha.count, hb.count]

/-- **Conditions of the same form are written out in the same way.** -/
theorem Condition.SameForm.write_matches (h : c.SameForm c') (hw : c.write n v = .ok w)
    (hw' : c'.write n v = .ok w') : w.Matches w' := by
  induction h generalizing n v w w' with
  | compare op field a b =>
    obtain ⟨name, hw, hw'⟩ := exists_of_binds_eq_ok hw hw'
    obtain rfl := Except.ok.inj hw
    obtain rfl := Except.ok.inj hw'
    exact ⟨rfl, rfl, rfl⟩
  | between field low high low' high' =>
    obtain ⟨name, hw, hw'⟩ := exists_of_binds_eq_ok hw hw'
    obtain rfl := Except.ok.inj hw
    obtain rfl := Except.ok.inj hw'
    exact ⟨rfl, rfl, rfl⟩
  | oneOf field hlength =>
    obtain ⟨name, hw, hw'⟩ := exists_of_binds_eq_ok hw hw'
    obtain ⟨items, hitems, hw⟩ := exists_of_bind_eq_ok hw
    obtain ⟨items', hitems', hw'⟩ := exists_of_bind_eq_ok hw'
    obtain rfl := Except.ok.inj hw
    obtain rfl := Except.ok.inj hw'
    rw [members?_of_members hitems, members?_of_members hitems'] at hlength
    have hcount : items.length = items'.length := Option.some.inj hlength
    exact ⟨by rw [hcount], rfl, hcount⟩
  | present field =>
    obtain rfl := Except.ok.inj (hw.symm.trans hw')
    exact ⟨rfl, rfl, rfl⟩
  | absent field =>
    obtain rfl := Except.ok.inj (hw.symm.trans hw')
    exact ⟨rfl, rfl, rfl⟩
  | both _ _ iha ihb =>
    obtain ⟨wa, hwa, hw⟩ := exists_of_bind_eq_ok hw
    obtain ⟨wb, hwb, hw⟩ := exists_of_bind_eq_ok hw
    obtain ⟨wa', hwa', hw'⟩ := exists_of_bind_eq_ok hw'
    obtain ⟨wb', hwb', hw'⟩ := exists_of_bind_eq_ok hw'
    have ha := iha hwa hwa'
    rw [ha.names, ha.count] at hwb
    obtain rfl := Except.ok.inj hw
    obtain rfl := Except.ok.inj hw'
    exact ha.join " AND " (ihb hwb hwb')
  | either _ _ iha ihb =>
    obtain ⟨wa, hwa, hw⟩ := exists_of_bind_eq_ok hw
    obtain ⟨wb, hwb, hw⟩ := exists_of_bind_eq_ok hw
    obtain ⟨wa', hwa', hw'⟩ := exists_of_bind_eq_ok hw'
    obtain ⟨wb', hwb', hw'⟩ := exists_of_bind_eq_ok hw'
    have ha := iha hwa hwa'
    rw [ha.names, ha.count] at hwb
    obtain rfl := Except.ok.inj hw
    obtain rfl := Except.ok.inj hw'
    exact ha.join " OR " (ihb hwb hwb')
  | negation _ ih =>
    obtain ⟨wa, hwa, hw⟩ := exists_of_bind_eq_ok hw
    obtain ⟨wa', hwa', hw'⟩ := exists_of_bind_eq_ok hw'
    have ha := ih hwa hwa'
    obtain rfl := Except.ok.inj hw
    obtain rfl := Except.ok.inj hw'
    exact ⟨by rw [ha.text], ha.names, ha.count⟩

lemma keys_of_storeValues {values : List (String × Data)}
    {stored : List (String × AttributeValue)} (h : storeValues values = .ok stored) :
    Entries.keys stored = Entries.keys values := by
  induction values generalizing stored with
  | nil =>
    obtain rfl := Except.ok.inj h
    rfl
  | cons p values ih =>
    obtain ⟨a, -, h⟩ := exists_of_bind_eq_ok h
    obtain ⟨rest, hrest, h⟩ := exists_of_bind_eq_ok h
    obtain rfl := Except.ok.inj h
    exact congrArg (p.1 :: ·) (ih hrest)

/-- The expressions differ in values only. -/
structure Expression.Matches (e e' : Expression) : Prop where
  text : e.text = e'.text
  names : e.names = e'.names
  valueKeys : Entries.keys e.values = Entries.keys e'.values

theorem Condition.SameForm.expression_matches (h : c.SameForm c') (he : c.expression = .ok e)
    (he' : c'.expression = .ok e') : e.Matches e' := by
  obtain ⟨w, hw, he⟩ := exists_of_bind_eq_ok he
  obtain ⟨values, hvalues, he⟩ := exists_of_bind_eq_ok he
  obtain ⟨w', hw', he'⟩ := exists_of_bind_eq_ok he'
  obtain ⟨values', hvalues', he'⟩ := exists_of_bind_eq_ok he'
  have hmatches := h.write_matches hw hw'
  obtain rfl := Except.ok.inj he
  obtain rfl := Except.ok.inj he'
  refine ⟨hmatches.text, congrArg (numbered namePlaceholder) hmatches.names, ?_⟩
  rw [keys_of_storeValues hvalues, keys_of_storeValues hvalues', keys_numbered, keys_numbered,
    hmatches.count]

end Writing

/-! ## Compiling -/

section Compiling

variable {field : MapKey} {cs cs' : List Condition}

lemma length_members?_withDecimals (d : Data) :
    d.withDecimals.members?.map List.length = d.members?.map List.length := by
  match d with
  | .scalar .null | .scalar (.bool _) | .scalar (.int _) | .scalar (.float _) => rfl
  | .scalar (.decimal _) | .scalar (.text _) | .scalar (.bytes _) => rfl
  | .list ds =>
    rw [Data.withDecimals_list]
    exact congrArg some (List.length_map _)
  | .map es =>
    rw [Data.withDecimals_map]
    simp [Data.members?, Entries.mapValues]
  | .record _ _ | .pair _ _ => rfl

lemma sameForm_foldl {join : Condition → Condition → Condition}
    (hjoin : ∀ {a a' b b' : Condition}, a.SameForm a' → b.SameForm b' →
      (join a b).SameForm (join a' b'))
    (h : List.Forall₂ Condition.SameForm cs cs') {c c' : Condition} (hc : c.SameForm c') :
    (cs.foldl join c).SameForm (cs'.foldl join c') := by
  induction h generalizing c c' with
  | nil => exact hc
  | cons hd _ ih => exact ih (hjoin hc hd)

lemma sameForm_joined? {join : Condition → Condition → Condition}
    (hjoin : ∀ {a a' b b' : Condition}, a.SameForm a' → b.SameForm b' →
      (join a b).SameForm (join a' b'))
    (h : List.Forall₂ Condition.SameForm cs cs') :
    Option.Rel Condition.SameForm (joined? join cs) (joined? join cs') := by
  cases h with
  | nil => exact .none
  | cons hc hcs => exact .some (sameForm_foldl hjoin hcs hc)

lemma forall₂_toList {c? c'? : Option Condition} (h : Option.Rel Condition.SameForm c? c'?) :
    List.Forall₂ Condition.SameForm c?.toList c'?.toList := by
  cases h with
  | none => exact .nil
  | some hc => exact .cons hc .nil

lemma exists_of_betweenCondition {operand : Data} {c : Condition}
    (h : operatorCondition field (.text "between") operand = .ok c) :
    ∃ low high, c = .between field low high := by
  rw [operatorCondition] at h
  split at h
  · obtain rfl := Except.ok.inj h
    exact ⟨_, _, rfl⟩
  · cases h

/-- Operators of the same shape put conditions of the same form on a field. -/
lemma sameForm_operatorCondition {operator : MapKey} {a b : Data} {c c' : Condition}
    (hsame : sameOperand operator a b = true)
    (h : operatorCondition field operator a.withDecimals = .ok c)
    (h' : operatorCondition field operator b.withDecimals = .ok c') : c.SameForm c' := by
  unfold operatorCondition at h
  split at h
  · obtain rfl := Except.ok.inj h
    obtain rfl := Except.ok.inj h'
    exact .negation (.compare _ _ _ _)
  · -- the bounds may be any data, so only the form of the other condition is known
    obtain ⟨low', high', rfl⟩ := exists_of_betweenCondition h'
    split at h
    · obtain rfl := Except.ok.inj h
      exact .between _ _ _ _ _
    · cases h
  · obtain rfl := Except.ok.inj h
    obtain rfl := Except.ok.inj h'
    refine .oneOf _ ?_
    rw [length_members?_withDecimals, length_members?_withDecimals]
    exact eq_of_beq hsame
  · obtain rfl := Except.ok.inj h
    obtain rfl := Except.ok.inj h'
    have hnothing : a.isNothing = b.isNothing := eq_of_beq hsame
    rw [Data.isNothing_withDecimals, Data.isNothing_withDecimals, hnothing]
    split
    · exact .absent _
    · exact .present _
  · split at h
    · rename_i hop
      obtain rfl := Except.ok.inj h
      rw [operatorCondition_compare _ _ hop] at h'
      obtain rfl := Except.ok.inj h'
      exact .compare _ _ _ _
    · cases h
  · cases h

lemma isNull_eq_true {d : Data} (h : d.isNull = true) : d = .null := by
  unfold Data.isNull at h
  split at h
  · rfl
  · cases h

lemma ne_null_of_isNull {d : Data} (h : d.isNull = false) : d ≠ .null := by
  rintro rfl
  cases h

lemma sameForm_operatorConditions {as bs : List (MapKey × Data)}
    (hsame : sameOperators as bs = true) (h : operatorConditions field as = .ok cs)
    (h' : operatorConditions field bs = .ok cs') : List.Forall₂ Condition.SameForm cs cs' := by
  fun_induction sameOperators as bs generalizing cs cs' with
  | case1 =>
    obtain rfl := Except.ok.inj h
    obtain rfl := Except.ok.inj h'
    exact .nil
  | case2 k a as k' b bs ih =>
    simp only [Bool.and_eq_true, Bool.or_eq_true, decide_eq_true_eq, beq_iff_eq] at hsame
    obtain ⟨⟨⟨rfl, hnull⟩, hoperand⟩, hrest⟩ := hsame
    cases ha : a.isNull with
    | true =>
      rw [isNull_eq_true ha, operatorConditions] at h
      rw [isNull_eq_true (hnull.symm.trans ha), operatorConditions] at h'
      exact ih hrest h h'
    | false =>
      rw [operatorConditions_cons (ne_null_of_isNull ha)] at h
      rw [operatorConditions_cons (ne_null_of_isNull (hnull.symm.trans ha))] at h'
      obtain ⟨c, hc, h⟩ := exists_of_bind_eq_ok h
      obtain ⟨ds, hds, h⟩ := exists_of_bind_eq_ok h
      obtain ⟨c', hc', h'⟩ := exists_of_bind_eq_ok h'
      obtain ⟨ds', hds', h'⟩ := exists_of_bind_eq_ok h'
      obtain rfl := Except.ok.inj h
      obtain rfl := Except.ok.inj h'
      have hoperands := hoperand.resolve_left (by simp [ha])
      exact .cons (sameForm_operatorCondition hoperands hc hc') (ih hrest hds hds')
  | case3 => cases hsame

lemma sameForm_fieldConditions {a b : Data} (hsame : sameField a b = true)
    (h : fieldConditions field a = .ok cs) (h' : fieldConditions field b = .ok cs') :
    List.Forall₂ Condition.SameForm cs cs' := by
  unfold sameField at hsame
  split at hsame
  · exact sameForm_operatorConditions hsame h h'
  · cases hsame

/-- What stands for nothing lists no filters. -/
lemma memberConditions_of_isNothing {d : Data} (hnothing : d.isNothing = true)
    (h : memberConditions d = .ok cs) : cs = [] := by
  cases d with
  | list ds =>
    rw [List.isEmpty_iff.mp hnothing, memberConditions] at h
    exact (Except.ok.inj h).symm
  | _ =>
    rw [memberConditions] at h
    · split at h
      · cases h
      · exact (Except.ok.inj h).symm
      · cases h
    · simp

mutual

/-- **Filters of the same shape have conditions of the same form.** -/
theorem sameForm_condition? : ∀ a b {c? c'? : Option Condition}, sameShape a b = true →
    condition? a = .ok c? → condition? b = .ok c'? → Option.Rel Condition.SameForm c? c'?
  | .map as, .map bs, c?, c'?, hsame, h, h' => by
    rw [condition?] at h h'
    obtain ⟨cs, hcs, h⟩ := exists_of_bind_eq_ok h
    obtain ⟨cs', hcs', h'⟩ := exists_of_bind_eq_ok h'
    obtain rfl := Except.ok.inj h
    obtain rfl := Except.ok.inj h'
    rw [sameShape] at hsame
    exact sameForm_joined? .both (sameForm_entryConditions as bs hsame hcs hcs')
  | .map _, .scalar _, _, _, _, _, h' => by cases h'
  | .map _, .list _, _, _, _, _, h' => by cases h'
  | .map _, .record .., _, _, _, _, h' => by cases h'
  | .map _, .pair .., _, _, _, _, h' => by cases h'
  | .scalar _, _, _, _, _, h, _ => by cases h
  | .list _, _, _, _, _, h, _ => by cases h
  | .record .., _, _, _, _, h, _ => by cases h
  | .pair .., _, _, _, _, h, _ => by cases h
termination_by structural a => a

theorem sameForm_entryConditions : ∀ (as bs : Entries MapKey Data) {cs cs' : List Condition},
    sameEntries as bs = true → entryConditions as = .ok cs → entryConditions bs = .ok cs' →
      List.Forall₂ Condition.SameForm cs cs'
  | [], [], cs, cs', _, h, h' => by
    obtain rfl := Except.ok.inj h
    obtain rfl := Except.ok.inj h'
    exact .nil
  | (k, a) :: as, (k', b) :: bs, cs, cs', hsame, h, h' => by
    rw [sameEntries] at hsame
    simp only [Bool.and_eq_true, Bool.or_eq_true, decide_eq_true_eq, beq_iff_eq] at hsame
    obtain ⟨⟨⟨rfl, hnull⟩, hvalue⟩, hrest⟩ := hsame
    cases ha : a.isNull with
    | true =>
      rw [isNull_eq_true ha, entryConditions] at h
      rw [isNull_eq_true (hnull.symm.trans ha), entryConditions] at h'
      exact sameForm_entryConditions as bs hrest h h'
    | false =>
      rw [entryConditions_cons (ne_null_of_isNull ha)] at h
      rw [entryConditions_cons (ne_null_of_isNull (hnull.symm.trans ha))] at h'
      obtain ⟨own, hown, h⟩ := exists_of_bind_eq_ok h
      obtain ⟨others, hothers, h⟩ := exists_of_bind_eq_ok h
      obtain ⟨own', hown', h'⟩ := exists_of_bind_eq_ok h'
      obtain ⟨others', hothers', h'⟩ := exists_of_bind_eq_ok h'
      obtain rfl := Except.ok.inj h
      obtain rfl := Except.ok.inj h'
      refine List.rel_append ?_ (sameForm_entryConditions as bs hrest hothers hothers')
      have hvalue := hvalue.resolve_left (by simp [ha])
      -- both entries have the same key, so both are compiled in the same way
      unfold ownConditions at hown hown'
      split_ifs at hown hown' hvalue
      · obtain ⟨cs, hcs, rfl⟩ := exists_of_map_eq_ok hown
        obtain ⟨cs', hcs', rfl⟩ := exists_of_map_eq_ok hown'
        exact forall₂_toList
          (sameForm_joined? .both (sameForm_memberConditions a b hvalue hcs hcs'))
      · obtain ⟨cs, hcs, rfl⟩ := exists_of_map_eq_ok hown
        obtain ⟨cs', hcs', rfl⟩ := exists_of_map_eq_ok hown'
        exact forall₂_toList
          (sameForm_joined? .either (sameForm_memberConditions a b hvalue hcs hcs'))
      · obtain ⟨c?, hc, rfl⟩ := exists_of_map_eq_ok hown
        obtain ⟨c'?, hc', rfl⟩ := exists_of_map_eq_ok hown'
        cases sameForm_condition? a b hvalue hc hc' with
        | none => exact .nil
        | some hform => exact .cons (.negation hform) .nil
      · exact sameForm_fieldConditions hvalue hown hown'
  | [], _ :: _, _, _, hsame, _, _ | _ :: _, [], _, _, hsame, _, _ => by
    simp [sameEntries] at hsame
termination_by structural as => as

theorem sameForm_memberConditions : ∀ a b {cs cs' : List Condition}, sameMembers a b = true →
    memberConditions a = .ok cs → memberConditions b = .ok cs' →
      List.Forall₂ Condition.SameForm cs cs'
  | .list as, .list bs, cs, cs', hsame, h, h' => by
    rw [memberConditions] at h h'
    rw [sameMembers] at hsame
    exact sameForm_listConditions as bs hsame h h'
  | .list _, .scalar _, _, _, hsame, h, h' | .list _, .map _, _, _, hsame, h, h'
  | .list _, .record .., _, _, hsame, h, h' | .list _, .pair .., _, _, hsame, h, h'
  | .scalar _, _, _, _, hsame, h, h' | .map _, _, _, _, hsame, h, h'
  | .record .., _, _, _, hsame, h, h' | .pair .., _, _, _, hsame, h, h' => by
    simp only [sameMembers, Bool.and_eq_true] at hsame
    rw [memberConditions_of_isNothing hsame.1 h, memberConditions_of_isNothing hsame.2 h']
    exact .nil
termination_by structural a => a

theorem sameForm_listConditions : ∀ (as bs : List Data) {cs cs' : List Condition},
    sameShapes as bs = true → listConditions as = .ok cs → listConditions bs = .ok cs' →
      List.Forall₂ Condition.SameForm cs cs'
  | [], [], cs, cs', _, h, h' => by
    obtain rfl := Except.ok.inj h
    obtain rfl := Except.ok.inj h'
    exact .nil
  | a :: as, b :: bs, cs, cs', hsame, h, h' => by
    rw [sameShapes, Bool.and_eq_true] at hsame
    rw [listConditions] at h h'
    obtain ⟨c?, hc, h⟩ := exists_of_bind_eq_ok h
    obtain ⟨others, hothers, h⟩ := exists_of_bind_eq_ok h
    obtain ⟨c'?, hc', h'⟩ := exists_of_bind_eq_ok h'
    obtain ⟨others', hothers', h'⟩ := exists_of_bind_eq_ok h'
    obtain rfl := Except.ok.inj h
    obtain rfl := Except.ok.inj h'
    exact List.rel_append (forall₂_toList (sameForm_condition? a b hsame.1 hc hc'))
      (sameForm_listConditions as bs hsame.2 hothers hothers')
  | [], _ :: _, _, _, hsame, _, _ | _ :: _, [], _, _, hsame, _, _ => by
    simp [sameShapes] at hsame
termination_by structural as => as

end

end Compiling

/-! ## Expressions of filters of the same shape -/

lemma isNothing_of_sameShape {a b : Data} (h : sameShape a b = true) :
    a.isNothing = b.isNothing := by
  unfold sameShape at h
  split at h
  · rename_i as bs
    match as, bs with
    | [], [] | _ :: _, _ :: _ => rfl
    | [], _ :: _ | _ :: _, [] => simp [sameEntries] at h
  · rw [Bool.and_eq_true] at h
    rw [h.1, h.2]

/-- **Operands do not get into expressions.** Filters of the same shape, as far as they have
expressions, have none or two with the same text, the same names and the same placeholders for
values. -/
theorem expression?_sameShape {filter filter' : Data} {e? e'? : Option Expression}
    (hshape : sameShape filter filter' = true) (h : expression? filter = .ok e?)
    (h' : expression? filter' = .ok e'?) : Option.Rel Expression.Matches e? e'? := by
  have hsame := isNothing_of_sameShape hshape
  cases compiled_of_expression? h with
  | nothing hnothing =>
    cases compiled_of_expression? h' with
    | nothing | unconditional => exact .none
    | condition hsome => rw [hsame, hsome] at hnothing; cases hnothing
  | unconditional hc =>
    cases compiled_of_expression? h' with
    | nothing | unconditional => exact .none
    | condition _ hc' => cases sameForm_condition? filter filter' hshape hc hc'
  | condition hsome hc he =>
    cases compiled_of_expression? h' with
    | nothing hnothing => rw [hsame, hnothing] at hsome; cases hsome
    | unconditional hc' => cases sameForm_condition? filter filter' hshape hc hc'
    | condition _ hc' he' =>
      cases sameForm_condition? filter filter' hshape hc hc' with
      | some hform => exact .some (hform.expression_matches he he')

/-- The filter of the shelf with operands that look like parts of an expression. -/
def disguisedFilter : Data :=
  .object [
    ("and", .list [
      .object [("title", .object [("beginsWith", .text ") OR (#n0 = :v0"), ("ne", .null),
        ("notContains", .list [.null])])],
      .object [("or", .list [
        .object [("pages", .object [("between", .list [.text ":v9", .text "%s"])])],
        .object [("not", .object [("place", .object [
          ("in", .list [.text "#n7", .bool true])])])],
        .object []])]]),
    ("draft", .object [("attributeExists", .text "")]),
    ("note", .null)]

theorem expression?_sameShape_disguised : ∃ e, expression? disguisedFilter = .ok (some e) ∧
    e.text = shelfExpression.text ∧ e.names = shelfExpression.names ∧
      e.values.map Prod.fst = shelfExpression.values.map Prod.fst := by
  have hsome : ∃ e, expression? disguisedFilter = .ok (some e) := ⟨_, rfl⟩
  obtain ⟨e, he⟩ := hsome
  have hshape : sameShape shelfFilter disguisedFilter = true := rfl
  cases expression?_sameShape hshape expression?_shelf he with
  | some h => exact ⟨e, he, h.text.symm, h.names.symm, h.valueKeys.symm⟩

end TableKeys.Filter
