/-
# What a key condition means

Replacing every placeholder of a key condition by what it stands for gives a row of terms
(`KeyCondition.terms`). What should come out is known without placeholders: the partition attribute
equals the partition argument and, for each operator that is used, the operator applied to the sort
attribute and its own operands (`askedTerms`).

Both are the same just where no placeholder is given two things to stand for
(`queryExpression_means_iff`). The placeholders are made of the name of the partition field and of
fixed words, and all operators with one operand share a placeholder, so this can fail.
-/
import TableKeys.Proofs.Clauses
import TableKeys.Proofs.FailedQueries

namespace TableKeys

open Snippet

/-- A part of an expression without placeholders. -/
inductive Term where
  | literal (c : Char)
  | attr (name : String)
  | operand (a : AttributeValue)
  /-- A placeholder that stands for nothing. -/
  | unbound (placeholder : String)

/-- Literal characters. -/
def Term.literals (s : String) : List Term :=
  s.toList.map .literal

/-- What a part of an expression becomes. -/
def KeyCondition.term (c : KeyCondition) : Token → Term
  | .literal d => .literal d
  | .name placeholder => ((c.names.get? placeholder).map .attr).getD (.unbound placeholder)
  | .value placeholder => ((c.values.get? placeholder).map .operand).getD (.unbound placeholder)

/-- The expression with every placeholder replaced by what it stands for. -/
def KeyCondition.terms (c : KeyCondition) : List Term :=
  (tokens c.expression).map c.term

/-! ## What is asked -/

/-- A condition on an attribute. -/
inductive Asked where
  | compare (sign : String) (a : AttributeValue)
  | beginsWith (a : AttributeValue)
  | between (low high : AttributeValue)

/-- The condition in words. -/
def Asked.terms (sortName : String) : Asked → List Term
  | compare sign a =>
    .attr sortName :: (Term.literals (" " ++ sign ++ " ") ++ [.operand a])
  | beginsWith a => Term.literals "begins_with(" ++ (.attr sortName ::
      (Term.literals ", " ++ (.operand a :: Term.literals ")")))
  | between low high => .attr sortName :: (Term.literals " BETWEEN " ++ (.operand low ::
      (Term.literals " AND " ++ [.operand high])))

/-- What an operator of the sort argument asks for, with its own operands. -/
def askedBy (k : KeyDecl) (o : Options) (argument : Data) (operator : String) :
    Except Fault Asked :=
  let operand := storedSortValue k o (argument.member operator)
  match operator with
  | "eq" => .compare "=" <$> operand
  | "lt" => .compare "<" <$> operand
  | "le" => .compare "<=" <$> operand
  | "gt" => .compare ">" <$> operand
  | "ge" => .compare ">=" <$> operand
  | "beginsWith" => .beginsWith <$> operand
  | _ => do
    let low ← storedSortValue k o ((argument.member "between").item 0)
    let high ← storedSortValue k o ((argument.member "between").item 1)
    return .between low high

/-- What all operators that are used ask for, in their order. -/
def allAsked (k : KeyDecl) (o : Options) (arguments : Data) : Except Fault (List Asked) :=
  (usedOperators k arguments).mapM fun operator =>
    askedBy k o (sortArgument k arguments) operator.1

/-- The partition attribute equals the partition argument, and everything that is asked of the
sort attribute holds. -/
def askedTerms (partition : String) (a : AttributeValue) (sortName : String)
    (asked : List Asked) : List Term :=
  .attr partition :: (Term.literals " = " ++ .operand a ::
    asked.flatMap fun condition => Term.literals " AND " ++ condition.terms sortName)

/-! ## What the placeholders are to stand for -/

/-- The operands of a condition with their placeholders. -/
def Asked.operands : Asked → List (String × AttributeValue)
  | compare _ a | beginsWith a => [(":sortKey", a)]
  | between low high => [(":sortKey0", low), (":sortKey1", high)]

/-- No name is to stand for two things. -/
def Unambiguous {α : Type} (es : List (String × α)) : Prop :=
  ∀ e ∈ es, ∀ f ∈ es, e.1 = f.1 → e.2 = f.2

/-! ## Expressions with what their placeholders are to stand for -/

/-- A part of an expression with what it is to stand for. -/
inductive Mark where
  | literal (c : Char)
  | name (placeholder attr : String)
  | value (placeholder : String) (a : AttributeValue)

namespace Mark

/-- The part as it stands in the expression. -/
def token : Mark → Token
  | literal c => .literal c
  | name placeholder _ => .name placeholder
  | value placeholder _ => .value placeholder

/-- What the part is to become. -/
def term : Mark → Term
  | literal c => .literal c
  | name _ attr => .attr attr
  | value _ a => .operand a

/-- A placeholder for a name, with the name. -/
def name? : Mark → Option (String × String)
  | name placeholder attr => some (placeholder, attr)
  | _ => none

/-- A placeholder for a value, with the value. -/
def value? : Mark → Option (String × AttributeValue)
  | value placeholder a => some (placeholder, a)
  | _ => none

/-- Literal characters. -/
def literals (s : String) : List Mark :=
  s.toList.map .literal

end Mark

/-- The condition as an operator writes it. -/
def Asked.marks (sortName : String) : Asked → List Mark
  | compare sign a =>
    .name "#sortKey" sortName :: (Mark.literals (" " ++ sign ++ " ") ++ [.value ":sortKey" a])
  | beginsWith a => Mark.literals "begins_with(" ++ (.name "#sortKey" sortName ::
      (Mark.literals ", " ++ (.value ":sortKey" a :: Mark.literals ")")))
  | between low high => .name "#sortKey" sortName :: (Mark.literals " BETWEEN " ++
      (.value ":sortKey0" low :: (Mark.literals " AND " ++ [.value ":sortKey1" high])))

/-- The whole expression. -/
def marksOf (partition : String) (a : AttributeValue) (sortName : String) (asked : List Asked) :
    List Mark :=
  .name ("#" ++ partition) partition :: (Mark.literals " = " ++ .value (":" ++ partition) a ::
    asked.flatMap fun condition => Mark.literals " AND " ++ condition.marks sortName)

section Marks

variable {partition sortName : String} {a : AttributeValue} {condition : Asked}
  {asked : List Asked} {clause : Clause} {clauses : List Clause}

namespace Mark

lemma token_literals (s : String) : (literals s).map token = literalTokens s := by
  rw [literals, List.map_map]
  rfl

lemma term_literals (s : String) : (literals s).map term = Term.literals s := by
  rw [literals, List.map_map]
  rfl

/-- Literal characters are left out by what takes placeholders only. -/
lemma filterMap_literals {β : Type} {f : Mark → Option β} (hf : ∀ c, f (.literal c) = none)
    (s : String) : (literals s).filterMap f = [] := by
  rw [literals, List.filterMap_map, List.filterMap_eq_nil_iff]
  exact fun c _ => hf c

end Mark

lemma Asked.term_marks (sortName : String) (condition : Asked) :
    (condition.marks sortName).map Mark.term = condition.terms sortName := by
  cases condition <;> simp [marks, terms, Mark.term_literals, Mark.term]

/-- The placeholders of a condition are the one for the sort attribute and those of its operands. -/
lemma Asked.filterMap_marks {β : Type} {f : Mark → Option β} (hf : ∀ c, f (.literal c) = none)
    (sortName : String) (condition : Asked) :
    (condition.marks sortName).filterMap f = (f (.name "#sortKey" sortName)).toList ++
      condition.operands.filterMap fun p => f (.value p.1 p.2) := by
  have hliterals : ∀ s, (Mark.literals s).flatMap (fun mark => (f mark).toList) = [] := fun s => by
    rw [← List.filterMap_eq_flatMap_toList, Mark.filterMap_literals hf]
  cases condition <;>
    simp [List.filterMap_eq_flatMap_toList, marks, operands, hliterals]

lemma term_marksOf (asked : List Asked) :
    (marksOf partition a sortName asked).map Mark.term =
      askedTerms partition a sortName asked := by
  have hasked : (asked.flatMap fun condition => Mark.literals " AND " ++
      condition.marks sortName).map Mark.term =
        asked.flatMap fun condition => Term.literals " AND " ++ condition.terms sortName := by
    rw [List.map_flatMap]
    refine List.flatMap_congr fun condition _ => ?_
    rw [List.map_append, Mark.term_literals, condition.term_marks]
  rw [marksOf, List.map_cons, List.map_append, List.map_cons, hasked, Mark.term_literals]
  rfl

lemma filterMap_marksOf {β : Type} {f : Mark → Option β} (hf : ∀ c, f (.literal c) = none)
    (asked : List Asked) :
    (marksOf partition a sortName asked).filterMap f =
      (f (.name ("#" ++ partition) partition)).toList ++
        ((f (.value (":" ++ partition) a)).toList ++
          asked.flatMap fun condition => (condition.marks sortName).filterMap f) := by
  have hasked : (asked.flatMap fun condition => Mark.literals " AND " ++
      condition.marks sortName).filterMap f =
        asked.flatMap fun condition => (condition.marks sortName).filterMap f := by
    rw [List.filterMap_flatMap]
    refine List.flatMap_congr fun condition _ => ?_
    rw [List.filterMap_append, Mark.filterMap_literals hf, List.nil_append]
  have hcons : ∀ mark marks, List.filterMap f (mark :: marks) =
      (f mark).toList ++ marks.filterMap f := fun mark marks => by
    simp only [List.filterMap_eq_flatMap_toList, List.flatMap_cons]
  rw [marksOf, hcons, List.filterMap_append, hcons, hasked, Mark.filterMap_literals hf,
    List.nil_append]

lemma name?_marksOf (asked : List Asked) :
    (marksOf partition a sortName asked).filterMap Mark.name? =
      ("#" ++ partition, partition) :: asked.map fun _ => ("#sortKey", sortName) := by
  rw [filterMap_marksOf fun _ => rfl, List.map_eq_flatMap]
  refine congrArg (_ :: ·) (List.flatMap_congr fun condition _ => ?_)
  rw [condition.filterMap_marks fun _ => rfl]
  simp [Mark.name?]

lemma value?_marksOf (asked : List Asked) :
    (marksOf partition a sortName asked).filterMap Mark.value? =
      (":" ++ partition, a) :: asked.flatMap Asked.operands := by
  rw [filterMap_marksOf fun _ => rfl]
  refine congrArg (_ :: ·) (List.flatMap_congr fun condition _ => ?_)
  rw [condition.filterMap_marks fun _ => rfl]
  simp [Mark.value?]

/-! ## Clauses that ask -/

/-- The clause says what is asked. -/
structure Clause.Says (clause : Clause) (condition : Asked) : Prop where
  tokens_eq : ∀ sortName, tokens clause.condition = (condition.marks sortName).map Mark.token
  operands_eq : clause.operands = condition.operands

lemma says_compare (sign condition : String) (hsign : sign ∈ ["=", "<", "<=", ">", ">="])
    (hcondition : condition = "#sortKey " ++ sign ++ " :sortKey") (a : AttributeValue) :
    Clause.Says ⟨condition, [(":sortKey", a)]⟩ (.compare sign a) := by
  have htokens : ∀ sign ∈ ["=", "<", "<=", ">", ">="],
      tokens ("#sortKey " ++ sign ++ " :sortKey") =
        .name "#sortKey" :: (literalTokens (" " ++ sign ++ " ") ++ [.value ":sortKey"]) := by
    decide +kernel
  refine ⟨fun sortName => ?_, rfl⟩
  simp only [hcondition]
  rw [htokens sign hsign, Asked.marks, List.map_cons, List.map_append, Mark.token_literals]
  rfl

lemma says_beginsWith (a : AttributeValue) :
    Clause.Says ⟨"begins_with(#sortKey, :sortKey)", [(":sortKey", a)]⟩ (.beginsWith a) := by
  have htokens : tokens "begins_with(#sortKey, :sortKey)" = literalTokens "begins_with(" ++
      (.name "#sortKey" :: (literalTokens ", " ++ (.value ":sortKey" :: literalTokens ")"))) := by
    decide +kernel
  refine ⟨fun sortName => ?_, rfl⟩
  rw [htokens, Asked.marks, List.map_append, List.map_cons, List.map_append, List.map_cons,
    Mark.token_literals, Mark.token_literals, Mark.token_literals]
  rfl

lemma says_between (low high : AttributeValue) :
    Clause.Says ⟨betweenCondition, [(":sortKey0", low), (":sortKey1", high)]⟩
      (.between low high) := by
  have htokens : tokens betweenCondition = .name "#sortKey" :: (literalTokens " BETWEEN " ++
      (.value ":sortKey0" :: (literalTokens " AND " ++ [.value ":sortKey1"]))) := by
    decide +kernel
  refine ⟨fun sortName => ?_, rfl⟩
  rw [htokens, Asked.marks, List.map_cons, List.map_append, List.map_cons, List.map_append,
    Mark.token_literals, Mark.token_literals]
  rfl

/-- The clause of an operator says what the operator asks for. -/
lemma says_of_clauseOf {k : KeyDecl} {o : Options} {argument : Data} {operator : String × String}
    (hoperator : operator ∈ sortOperators) (h : clauseOf k o argument operator = .ok clause) :
    ∃ condition, askedBy k o argument operator.1 = .ok condition ∧ clause.Says condition := by
  have hone : operator.1 ≠ "between" → ∃ a,
      storedSortValue k o (argument.member operator.1) = .ok a ∧
        clause = ⟨operator.2, [(":sortKey", a)]⟩ := by
    intro hne
    rw [clauseOf, if_neg hne] at h
    obtain ⟨a, ha, h⟩ := exists_of_bind_eq_ok h
    exact ⟨a, ha, (Except.ok.inj h).symm⟩
  simp only [sortOperators, List.mem_cons, List.not_mem_nil, or_false] at hoperator
  rcases hoperator with rfl | rfl | rfl | rfl | rfl | rfl | rfl
  · obtain ⟨a, ha, rfl⟩ := hone (by decide)
    exact ⟨.compare "=" a, by rw [askedBy, ha]; rfl,
      says_compare "=" _ (by decide) rfl a⟩
  · obtain ⟨a, ha, rfl⟩ := hone (by decide)
    exact ⟨.compare "<" a, by rw [askedBy, ha]; rfl,
      says_compare "<" _ (by decide) rfl a⟩
  · obtain ⟨a, ha, rfl⟩ := hone (by decide)
    exact ⟨.compare "<=" a, by rw [askedBy, ha]; rfl,
      says_compare "<=" _ (by decide) rfl a⟩
  · obtain ⟨a, ha, rfl⟩ := hone (by decide)
    exact ⟨.compare ">" a, by rw [askedBy, ha]; rfl,
      says_compare ">" _ (by decide) rfl a⟩
  · obtain ⟨a, ha, rfl⟩ := hone (by decide)
    exact ⟨.compare ">=" a, by rw [askedBy, ha]; rfl,
      says_compare ">=" _ (by decide) rfl a⟩
  · obtain ⟨a, ha, rfl⟩ := hone (by decide)
    exact ⟨.beginsWith a, by rw [askedBy, ha]; rfl, says_beginsWith a⟩
  · rw [clauseOf, if_pos rfl] at h
    obtain ⟨low, hlow, h⟩ := exists_of_bind_eq_ok h
    obtain ⟨high, hhigh, h⟩ := exists_of_bind_eq_ok h
    obtain rfl := Except.ok.inj h
    exact ⟨.between low high, by unfold askedBy; simp only [hlow, hhigh]; rfl,
      says_between low high⟩

lemma says_of_mapM {k : KeyDecl} {o : Options} {argument : Data}
    {operators : List (String × String)}
    (hoperators : ∀ operator ∈ operators, operator ∈ sortOperators)
    (h : operators.mapM (clauseOf k o argument) = .ok clauses) :
    ∃ asked, operators.mapM (fun operator => askedBy k o argument operator.1) = .ok asked ∧
      List.Forall₂ Clause.Says clauses asked := by
  induction operators generalizing clauses with
  | nil =>
    obtain rfl := Except.ok.inj h
    exact ⟨[], rfl, .nil⟩
  | cons operator operators ih =>
    rw [List.mapM_cons] at h
    obtain ⟨clause, hclause, h⟩ := exists_of_bind_eq_ok h
    obtain ⟨rest, hrest, h⟩ := exists_of_bind_eq_ok h
    obtain rfl := Except.ok.inj h
    obtain ⟨condition, hcondition, hsaid⟩ :=
      says_of_clauseOf (hoperators operator (by simp)) hclause
    obtain ⟨asked, hasked, hall⟩ :=
      ih (fun other hother => hoperators other (by simp [hother])) hrest
    exact ⟨condition :: asked, by rw [List.mapM_cons, hcondition, hasked]; rfl, .cons hsaid hall⟩

/-- The clauses of a query say what its operators ask for. -/
lemma says_of_clausesOf {k : KeyDecl} {o : Options} {arguments : Data}
    (h : clausesOf k o arguments = .ok clauses) :
    ∃ asked, allAsked k o arguments = .ok asked ∧ List.Forall₂ Clause.Says clauses asked :=
  says_of_mapM (fun _ => mem_sortOperators_of_used) h

/-! ## Replacing placeholders -/

/-- The key condition of clauses that say what is asked, cut into its parts. -/
lemma tokens_marksOf (hpartition : isSchemaName partition = true)
    (h : List.Forall₂ Clause.Says clauses asked) :
    tokens (KeyCondition.ofClauses partition a sortName clauses).expression =
      (marksOf partition a sortName asked).map Mark.token := by
  have hasked : (clauses.flatMap fun clause => literalTokens " AND " ++ tokens clause.condition) =
      (asked.flatMap fun condition => Mark.literals " AND " ++
        condition.marks sortName).map Mark.token := by
    induction h with
    | nil => rfl
    | cons hsaid _ ih =>
      rw [List.flatMap_cons, List.flatMap_cons, List.map_append, List.map_append,
        Mark.token_literals, ih, hsaid.tokens_eq sortName]
  rw [tokens_ofClauses hpartition, hasked, marksOf, List.map_cons, List.map_append, List.map_cons,
    Mark.token_literals]
  rfl

/-- The two maps of the key condition. -/
lemma maps_ofClauses (h : List.Forall₂ Clause.Says clauses asked) :
    let c := KeyCondition.ofClauses partition a sortName clauses
    c.names = .ofList (("#" ++ partition, partition) :: asked.map fun _ => ("#sortKey", sortName)) ∧
      c.values = .ofList ((":" ++ partition, a) :: asked.flatMap Asked.operands) := by
  have hnames : (clauses.map fun _ => ("#sortKey", sortName)) =
      asked.map fun _ => ("#sortKey", sortName) := by
    induction h with
    | nil => rfl
    | cons _ _ ih => rw [List.map_cons, List.map_cons, ih]
  have hvalues : clauses.flatMap Clause.operands = asked.flatMap Asked.operands := by
    clear hnames
    induction h with
    | nil => rfl
    | cons hsaid _ ih => rw [List.flatMap_cons, List.flatMap_cons, ih, hsaid.operands_eq]
  exact ⟨by rw [KeyCondition.ofClauses, hnames], by rw [KeyCondition.ofClauses, hvalues]⟩

/-- A part becomes what it is to stand for just if its placeholder has been given that. -/
lemma term_token_iff (c : KeyCondition) (mark : Mark) :
    c.term mark.token = mark.term ↔
      (∀ e ∈ mark.name?, c.names.get? e.1 = some e.2) ∧
        ∀ e ∈ mark.value?, c.values.get? e.1 = some e.2 := by
  cases mark with
  | literal d => exact iff_of_true rfl ⟨by simp [Mark.name?], by simp [Mark.value?]⟩
  | name placeholder attr =>
    have hvalue : ∀ e ∈ (Mark.name placeholder attr).value?, c.values.get? e.1 = some e.2 := by
      simp [Mark.value?]
    rw [and_iff_left hvalue]
    simp only [Mark.token, Mark.term, KeyCondition.term, Mark.name?, Option.mem_some_iff,
      forall_eq']
    cases c.names.get? placeholder with
    | none => exact iff_of_false (by simp) (by simp)
    | some found => simp
  | value placeholder a =>
    have hname : ∀ e ∈ (Mark.value placeholder a).name?, c.names.get? e.1 = some e.2 := by
      simp [Mark.name?]
    rw [and_iff_right hname]
    simp only [Mark.token, Mark.term, KeyCondition.term, Mark.value?, Option.mem_some_iff,
      forall_eq']
    cases c.values.get? placeholder with
    | none => exact iff_of_false (by simp) (by simp)
    | some found => simp

lemma forall_mem_filterMap {α β : Type} {f : α → Option β} {as : List α} {P : β → Prop} :
    (∀ a ∈ as, ∀ b ∈ f a, P b) ↔ ∀ b ∈ as.filterMap f, P b := by
  simp only [List.mem_filterMap, Option.mem_def]
  exact ⟨fun h b ⟨a, ha, hb⟩ => h a ha b hb, fun h a ha b hb => h b ⟨a, ha, hb⟩⟩

/-- **Replacing placeholders gives what is asked just if no placeholder is ambiguous.** -/
theorem terms_eq_iff (hpartition : isSchemaName partition = true)
    (h : List.Forall₂ Clause.Says clauses asked) :
    (KeyCondition.ofClauses partition a sortName clauses).terms =
        askedTerms partition a sortName asked ↔
      Unambiguous (("#" ++ partition, partition) :: asked.map fun _ => ("#sortKey", sortName)) ∧
        Unambiguous ((":" ++ partition, a) :: asked.flatMap Asked.operands) := by
  set c := KeyCondition.ofClauses partition a sortName clauses
  obtain ⟨hnames, hvalues⟩ : c.names = _ ∧ c.values = _ := maps_ofClauses h
  have hmarks : c.terms = askedTerms partition a sortName asked ↔
      ∀ mark ∈ marksOf partition a sortName asked, c.term mark.token = mark.term := by
    rw [KeyCondition.terms, tokens_marksOf hpartition h, ← term_marksOf, List.map_map,
      List.map_inj_left]
    rfl
  rw [hmarks]
  simp only [term_token_iff, forall_and]
  rw [forall_mem_filterMap (f := Mark.name?), forall_mem_filterMap (f := Mark.value?),
    name?_marksOf, value?_marksOf, hnames, hvalues]
  simp only [Entries.get?_ofList]
  exact and_congr Entries.last?_eq_some_iff Entries.last?_eq_some_iff

lemma Asked.exists_word {e : String × AttributeValue} (h : e ∈ condition.operands) :
    ∃ word ∈ ["sortKey", "sortKey0", "sortKey1"], ":" ++ word = e.1 := by
  cases condition with
  | compare sign a =>
    obtain rfl := List.mem_singleton.mp h
    exact ⟨"sortKey", by simp, rfl⟩
  | beginsWith a =>
    obtain rfl := List.mem_singleton.mp h
    exact ⟨"sortKey", by simp, rfl⟩
  | between low high =>
    rcases List.mem_pair.mp h with rfl | rfl
    · exact ⟨"sortKey0", by simp, rfl⟩
    · exact ⟨"sortKey1", by simp, rfl⟩

lemma Unambiguous.cons {α : Type} {placeholder : String} {x : α} {es : List (String × α)}
    (hes : Unambiguous es) (hnew : ∀ e ∈ es, e.1 ≠ placeholder) :
    Unambiguous ((placeholder, x) :: es) := by
  intro e he f hf hkey
  rcases List.mem_cons.mp he with rfl | he <;> rcases List.mem_cons.mp hf with rfl | hf
  · rfl
  · exact absurd hkey.symm (hnew f hf)
  · exact absurd hkey (hnew e he)
  · exact hes e he f hf hkey

lemma unambiguous_nil {α : Type} : Unambiguous ([] : List (String × α)) := by
  intro e he
  cases he

lemma Asked.unambiguous_operands (condition : Asked) : Unambiguous condition.operands := by
  cases condition with
  | compare sign a => exact unambiguous_nil.cons (by simp)
  | beginsWith a => exact unambiguous_nil.cons (by simp)
  | between low high => exact (unambiguous_nil.cons (by simp)).cons (by simp)

/-- **With a single operator, and a partition field that is not named like a placeholder, the key
condition means what is asked.** -/
theorem terms_eq_of_single (hpartition : isSchemaName partition = true)
    (hordinary : partition ∉ ["sortKey", "sortKey0", "sortKey1"])
    (hsaid : clause.Says condition) :
    (KeyCondition.ofClauses partition a sortName [clause]).terms =
      askedTerms partition a sortName [condition] := by
  have hmark : ∀ mark word : String, mark ++ word = mark ++ partition → word = partition :=
    fun mark word h => (String.append_right_inj mark).mp h
  refine (terms_eq_iff hpartition (.cons hsaid .nil)).mpr
    ⟨(unambiguous_nil.cons (by simp)).cons ?_, .cons ?_ ?_⟩
  · rintro e he hkey
    obtain rfl := List.mem_singleton.mp he
    exact hordinary (by simp [← hmark "#" "sortKey" hkey])
  · rw [List.flatMap_singleton]
    exact condition.unambiguous_operands
  · rintro e he hkey
    rw [List.flatMap_singleton] at he
    obtain ⟨word, hword, heq⟩ := Asked.exists_word he
    rw [hmark _ _ (heq.trans hkey)] at hword
    exact hordinary hword

end Marks

namespace Template

/-- **What a key condition means.** Where the statement for a query ends well and the arguments have
the partition, the variable has a key condition. Replacing its placeholders by what they stand for
gives what the operators ask for, each with its own operands, just if no placeholder is given two
things to stand for. -/
theorem queryExpression_means_iff {k : KeyDecl} {o : Options} {sc : Scene} {separator : String}
    {list : Bool} {m m' : Machine} (hk : k.Plain o) (hm : m.Stages sc)
    (hpresent : ((Data.map sc.arguments).member k.partition.name).isNull = false)
    (hrun : (queryExpression k list o).exec separator m = .ok () m') :
    ∃ (c : KeyCondition) (a : AttributeValue) (asked : List Asked) (v : Value),
      resolve m'.store m'.bindings modelQueryExpression = .ok v ∧ m'.store.read v = c.data ∧
      ((Data.map sc.arguments).member k.partition.name).stored = .ok a ∧
      allAsked k o (.map sc.arguments) = .ok asked ∧
      (c.terms = askedTerms k.partition.name a (k.sortAttribute o) asked ↔
        Unambiguous (("#" ++ k.partition.name, k.partition.name) ::
          asked.map fun _ => ("#sortKey", k.sortAttribute o)) ∧
        Unambiguous ((":" ++ k.partition.name, a) :: asked.flatMap Asked.operands)) := by
  obtain ⟨l, hl⟩ := hm
  obtain ⟨haccepts, c?, hc?⟩ := exists_keyConditionOf_of_run hl hk hrun
  obtain ⟨m'', hrun', -, q, hbound, hshows⟩ :=
    exec_queryExpression separator hl hk haccepts hc?
  obtain ⟨-, rfl⟩ := EStateM.Result.ok.inj (hrun.symm.trans hrun')
  rw [keyConditionOf_eq hpresent] at hc?
  obtain ⟨a, ha, hc?⟩ := exists_of_bind_eq_ok hc?
  obtain ⟨clauses, hclauses, hc?⟩ := exists_of_bind_eq_ok hc?
  obtain rfl := Except.ok.inj hc?
  obtain ⟨asked, hasked, hsaid⟩ := says_of_clausesOf hclauses
  exact ⟨_, a, asked, .ref q, resolve_queryExpression hbound, hshows.read_eq, ha, hasked,
    terms_eq_iff hk.partition hsaid⟩

/-- A key whose partition field is named like a placeholder. -/
def rankKey : KeyDecl where
  object := { name := "Score" }
  partition := { name := "sortKey", typeName := "ID" }
  sort := [{ name := "rank", typeName := "String" }]
  sort_nodup := by decide
  partition_notMem_sort := by decide

/-- The scores of one player with one rank. -/
def scoresWanted : Request where
  arguments := [("sortKey", .text "ana"), ("rank", .object [("eq", .text "gold")])]

/-- The condition on the sort attribute takes the placeholders of the condition on the partition. -/
theorem queryExpression_means_iff_scores :
    ∃ (m' : Machine) (c : KeyCondition) (v : Value),
      (queryExpression rankKey true {}).exec "#" (Machine.start scoresWanted) = .ok () m' ∧
        resolve m'.store m'.bindings modelQueryExpression = .ok v ∧ m'.store.read v = c.data ∧
        c.terms ≠ askedTerms "sortKey" (.text "ana") "rank" [.compare "=" (.text "gold")] := by
  have hk : rankKey.Plain {} := ⟨by decide, by decide, by decide⟩
  obtain ⟨l, hl⟩ := Machine.start_stages scoresWanted
  obtain ⟨m', hrun, -⟩ : ((queryExpression rankKey true {}).exec "#").Reaches _ _ :=
    exec_queryExpression "#" hl hk rfl rfl
  obtain ⟨c, a, asked, v, hv, hread, ha, hasked, hmeans⟩ :=
    queryExpression_means_iff hk ⟨l, hl⟩ rfl hrun
  obtain rfl : AttributeValue.text "ana" = a := Except.ok.inj ha
  obtain rfl : [Asked.compare "=" (.text "gold")] = asked := Except.ok.inj hasked
  refine ⟨m', c, v, hrun, hv, hread, fun hterms => ?_⟩
  have hnames := (hmeans.mp hterms).1 ("#sortKey", "sortKey") (by decide) ("#sortKey", "rank")
    (by decide) rfl
  exact absurd hnames (by decide)

end Template

end TableKeys
