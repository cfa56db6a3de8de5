/-
# Reading conditions from their text

The text of a condition consists of placeholders and fixed words. An atomic condition has the words
of its test before the field, between field and operands, between operands and at the end
(`Test.wording`); no test begins like another one (`wording_prefixFree`). Joined and negated
conditions stand in brackets.

* `readFormula_tokens`: a formula over placeholders is read back from its tokens, whatever follows.
-/
import TableKeys.Proofs.FilterFormulas
import TableKeys.Proofs.Placeholders

namespace TableKeys.Filter

/-! ## Wording -/

/-- The fixed words around the placeholders of an atomic condition. -/
structure Wording where
  /-- Before the field. -/
  opening : String
  /-- After the field. -/
  middle : String
  /-- Between operands. -/
  comma : String
  /-- At the end. -/
  closing : String

/-- The words of a test that has a sign between field and operand. -/
def Wording.sign (sign : String) : Wording :=
  ⟨"", " " ++ sign ++ " ", ", ", ""⟩

/-- The words of a test that is a function of field and operand. -/
def Wording.function (name : String) : Wording :=
  ⟨name ++ "(", ", ", ", ", ")"⟩

/-- The words that the database has for a test. -/
def Test.wording : Test → Wording
  | eq => .sign "="
  | ne => .sign "<>"
  | le => .sign "<="
  | lt => .sign "<"
  | ge => .sign ">="
  | gt => .sign ">"
  | contains => .function "contains"
  | beginsWith => .function "begins_with"
  | attributeType => .function "attribute_type"
  | between => ⟨"", " BETWEEN ", " AND ", ""⟩
  | oneOf => ⟨"", " IN (", ", ", ")"⟩
  | present => ⟨"attribute_exists(", ")", ", ", ""⟩
  | absent => ⟨"attribute_not_exists(", ")", ", ", ""⟩

/-- The number of operands of a test, unless it takes any number. -/
def Test.arity? : Test → Option Nat
  | between => some 2
  | oneOf => none
  | present | absent => some 0
  | _ => some 1

/-- The test takes so many operands. -/
def Test.takes (test : Test) (count : Nat) : Bool :=
  test.arity?.all (· == count)

/-- All tests. -/
def allTests : List Test :=
  [.eq, .ne, .le, .lt, .ge, .gt, .contains, .beginsWith, .attributeType, .between, .oneOf,
    .present, .absent]

lemma mem_allTests (test : Test) : test ∈ allTests := by
  cases test <;> decide

/-- The word between two conditions. -/
def Connective.sign : Connective → String
  | all => " AND "
  | any => " OR "

/-! ## Tokens -/

/-- The tokens of a row of operands. -/
def rowTokens (comma : String) (operands : List String) : List Token :=
  (literalTokens comma).intercalate (operands.map fun p => [.value p])

/-- The tokens of an atomic condition over placeholders. -/
def Atom.tokens (a : Atom String) : List Token :=
  literalTokens a.test.wording.opening ++ .name a.field :: (literalTokens a.test.wording.middle ++
    (rowTokens a.test.wording.comma a.operands ++ literalTokens a.test.wording.closing))

/-- The tokens of a formula over placeholders. -/
def Formula.tokens : Formula (Atom String) → List Token
  | nothing => []
  | atom a => a.tokens
  | join k f g => literalTokens "(" ++
      (f.tokens ++ (literalTokens k.sign ++ (g.tokens ++ literalTokens ")")))
  | negation f => literalTokens "(NOT " ++ (f.tokens ++ literalTokens ")")

/-- Every part of the formula asks for something, with as many operands as its test takes. -/
def Formula.Complete {α : Type} : Formula (Atom α) → Prop
  | nothing => False
  | atom a => a.test.takes a.operands.length = true
  | join _ f g => f.Complete ∧ g.Complete
  | negation f => f.Complete

/-- How deep the brackets of a formula go. -/
def Formula.depth {α : Type} : Formula α → Nat
  | nothing | atom _ => 0
  | join _ f g => max f.depth g.depth + 1
  | negation f => f.depth + 1

/-! ## The reader -/

/-- Passes over fixed words. -/
def skipWords (s : String) (ts : List Token) : Option (List Token) :=
  ts.dropPrefix? (literalTokens s)

/-- Reads the placeholder of a field. -/
def readName : List Token → Option (String × List Token)
  | .name p :: ts => some (p, ts)
  | _ => none

/-- Reads placeholders of values with words between them, at most so many. -/
def readRow (comma : String) : Nat → List Token → List String × List Token
  | 1, .value p :: ts => ([p], ts)
  | n + 2, .value p :: ts =>
    match skipWords comma ts with
    | some ts =>
      let (ps, ts) := readRow comma (n + 1) ts
      (p :: ps, ts)
    | none => ([p], ts)
  | _, ts => ([], ts)

/-- Reads an atomic condition with this test. -/
def readAs (ts : List Token) (test : Test) : Option (Atom String × List Token) := do
  let ts ← skipWords test.wording.opening ts
  let (field, ts) ← readName ts
  let ts ← skipWords test.wording.middle ts
  let (operands, ts) := readRow test.wording.comma (test.arity?.getD ts.length) ts
  let ts ← skipWords test.wording.closing ts
  if test.takes operands.length then some (⟨field, test, operands⟩, ts) else none

/-- Reads an atomic condition. -/
def readAtom (ts : List Token) : Option (Atom String × List Token) :=
  allTests.findSome? (readAs ts)

/-- Reads the word between two conditions. -/
def readConnective (ts : List Token) : Option (Connective × List Token) :=
  [Connective.all, .any].findSome? fun k => (skipWords k.sign ts).map (k, ·)

/-- Reads a condition with brackets that go less deep than this. -/
def readFormula : Nat → List Token → Option (Formula (Atom String) × List Token)
  | 0, _ => none
  | n + 1, ts =>
    match skipWords "(NOT " ts with
    | some ts => do
      let (f, ts) ← readFormula n ts
      let ts ← skipWords ")" ts
      some (.negation f, ts)
    | none =>
      match skipWords "(" ts with
      | some ts => do
        let (f, ts) ← readFormula n ts
        let (k, ts) ← readConnective ts
        let (g, ts) ← readFormula n ts
        let ts ← skipWords ")" ts
        some (.join k f g, ts)
      | none => (readAtom ts).map fun (a, ts) => (.atom a, ts)

/-- The formula over placeholders that a text says. -/
def readText (s : String) : Option (Formula (Atom String)) :=
  match readFormula (tokens s).length (tokens s) with
  | some (f, []) => some f
  | _ => none

/-! ## Reading back -/

@[simp] lemma skipWords_append (s : String) (rest : List Token) :
    skipWords s (literalTokens s ++ rest) = some rest :=
  List.dropPrefix?_append_of_beq rest (BEq.refl _)

lemma skipWords_eq_some {s : String} {ts rest : List Token} (h : skipWords s ts = some rest) :
    ts = literalTokens s ++ rest := by
  obtain ⟨us, rfl, hus⟩ := List.dropPrefix?_eq_some_iff.mp h
  rw [eq_of_beq hus]

lemma rowTokens_cons_cons (comma p p' : String) (ps : List String) :
    rowTokens comma (p :: p' :: ps) =
      .value p :: (literalTokens comma ++ rowTokens comma (p' :: ps)) := by
  simp [rowTokens, List.intercalate_cons_cons]

/-- A row is read up to its end if it is full or if nothing goes on with it. -/
lemma readRow_append (comma : String) {n : Nat} {operands : List String} {rest : List Token}
    (hn : operands.length ≤ n)
    (hrest : operands.length = n ∨
      (skipWords comma rest = none ∧ ∀ p ts, rest ≠ .value p :: ts)) :
    readRow comma n (rowTokens comma operands ++ rest) = (operands, rest) := by
  induction operands generalizing n with
  | nil =>
    change readRow comma n rest = _
    rcases hrest with rfl | ⟨-, hvalue⟩
    · rfl
    · unfold readRow
      split
      · exact absurd rfl (hvalue _ _)
      · exact absurd rfl (hvalue _ _)
      · rfl
  | cons p ps ih =>
    obtain ⟨n, rfl⟩ : ∃ k, n = k + 1 := ⟨n - 1, by simp at hn; omega⟩
    cases ps with
    | nil =>
      change readRow comma (n + 1) (.value p :: rest) = _
      cases n with
      | zero => rfl
      | succ n =>
        obtain ⟨hskip, -⟩ := hrest.resolve_left (by simp)
        rw [readRow, hskip]
    | cons p' ps =>
      obtain ⟨n, rfl⟩ : ∃ k, n = k + 1 := ⟨n - 1, by simp at hn; omega⟩
      rw [rowTokens_cons_cons, List.cons_append, List.append_assoc, readRow, skipWords_append]
      dsimp only
      rw [ih (by simpa using hn) (hrest.imp_left fun h => by simpa using h)]

lemma length_le_rowTokens (comma : String) (operands : List String) :
    operands.length ≤ (rowTokens comma operands).length := by
  induction operands with
  | nil => exact Nat.zero_le _
  | cons p ps ih =>
    cases ps with
    | nil => exact Nat.le_refl _
    | cons p' ps =>
      rw [rowTokens_cons_cons]
      simp only [List.length_cons, List.length_append] at ih ⊢
      omega

section Atoms

variable {a : Atom String}

/-- The operands are read up to the closing words. -/
lemma readRow_operands (h : a.test.takes a.operands.length = true) (rest : List Token)
    {limit : Nat} (hlimit : a.operands.length ≤ limit) :
    readRow a.test.wording.comma (a.test.arity?.getD limit)
      (rowTokens a.test.wording.comma a.operands ++
        (literalTokens a.test.wording.closing ++ rest)) =
          (a.operands, literalTokens a.test.wording.closing ++ rest) := by
  obtain ⟨field, test, operands⟩ := a
  cases harity : test.arity? with
  | some arity =>
    have hlength : operands.length = arity :=
      Eq.symm (by simpa [Test.takes, harity] using h)
    exact readRow_append _ (Nat.le_of_eq hlength) (.inl hlength)
  | none =>
    -- a test that takes any number of operands has them in brackets
    have htest : test = .oneOf := by
      cases test with
      | oneOf => rfl
      | _ => cases harity
    subst htest
    have hskip : skipWords ", " (literalTokens ")" ++ rest) = none := rfl
    have hvalue : ∀ p ts, literalTokens ")" ++ rest ≠ .value p :: ts :=
      fun p ts h => Token.noConfusion (List.cons.inj h).1
    exact readRow_append ", " hlimit (.inr ⟨hskip, hvalue⟩)

lemma readAs_tokens (h : a.test.takes a.operands.length = true) (rest : List Token) :
    readAs (a.tokens ++ rest) a.test = some (a, rest) := by
  have hname (ts : List Token) : readName (.name a.field :: ts) = some (a.field, ts) := rfl
  have hlimit : a.operands.length ≤ (rowTokens a.test.wording.comma a.operands ++
      (literalTokens a.test.wording.closing ++ rest)).length := by
    rw [List.length_append]
    exact Nat.le_add_right_of_le (length_le_rowTokens _ _)
  rw [readAs, Atom.tokens]
  simp only [List.append_assoc, List.cons_append, skipWords_append, Option.bind_eq_bind,
    Option.bind_some, hname, readRow_operands h rest hlimit, if_pos h]

end Atoms

/-! ## Beginnings -/

/-- The tokens of a condition with this test begin like this; a placeholder counts as `none`. -/
def Test.start (test : Test) : List (Option Char) :=
  test.wording.opening.toList.map some ++ none :: test.wording.middle.toList.map some

/-- The character that a token is. -/
def charOf? : Token → Option Char
  | .literal c => some c
  | _ => none

/-- **No test begins like another one.** -/
lemma wording_prefixFree : ∀ test ∈ allTests, ∀ test' ∈ allTests,
    test.start <+: test'.start → test = test' := by
  decide +kernel

lemma map_charOf?_literalTokens (s : String) :
    (literalTokens s).map charOf? = s.toList.map some := by
  rw [literalTokens, List.map_map]
  rfl

lemma start_isPrefix_tokens (a : Atom String) (rest : List Token) :
    a.test.start <+: (a.tokens ++ rest).map charOf? := by
  have htokens : (a.tokens ++ rest).map charOf? = a.test.start ++
      (rowTokens a.test.wording.comma a.operands ++
        literalTokens a.test.wording.closing ++ rest).map charOf? := by
    simp [Atom.tokens, Test.start, map_charOf?_literalTokens, charOf?]
  rw [htokens]
  exact List.prefix_append _ _

/-- What is read with a test begins like it. -/
lemma start_isPrefix_of_readAs {ts : List Token} {test : Test} {x : Atom String × List Token}
    (h : readAs ts test = some x) : test.start <+: ts.map charOf? := by
  unfold readAs at h
  simp only [Option.bind_eq_bind, Option.bind_eq_some_iff] at h
  obtain ⟨ts₁, hopening, ⟨field, ts₂⟩, hname, ts₃, hmiddle, -⟩ := h
  obtain rfl := skipWords_eq_some hopening
  obtain rfl := skipWords_eq_some hmiddle
  obtain ⟨p, rfl⟩ : ∃ p, ts₁ = .name p :: (literalTokens test.wording.middle ++ ts₃) := by
    unfold readName at hname
    split at hname
    · obtain ⟨-, rfl⟩ := Prod.mk.inj (Option.some.inj hname)
      exact ⟨_, rfl⟩
    · cases hname
  have htokens : (literalTokens test.wording.opening ++
      .name p :: (literalTokens test.wording.middle ++ ts₃)).map charOf? =
        test.start ++ ts₃.map charOf? := by
    simp [Test.start, map_charOf?_literalTokens, charOf?]
  rw [htokens]
  exact List.prefix_append _ _

lemma findSome?_of_unique {α β : Type} {f : α → Option β} {l : List α} {a : α} {b : β}
    (ha : a ∈ l) (hf : f a = some b) (hunique : ∀ x ∈ l, f x ≠ none → x = a) :
    l.findSome? f = some b := by
  induction l with
  | nil => cases ha
  | cons x l ih =>
    rw [List.findSome?_cons]
    cases hx : f x with
    | some c =>
      obtain rfl := hunique x (by simp) (by simp [hx])
      exact hx.symm.trans hf
    | none =>
      have hne : a ≠ x := by
        rintro rfl
        rw [hf] at hx
        cases hx
      exact ih ((List.mem_cons.mp ha).resolve_left hne) fun y hy => hunique y (by simp [hy])

/-- An atomic condition is read back from its tokens. -/
lemma readAtom_tokens {a : Atom String} (h : a.test.takes a.operands.length = true)
    (rest : List Token) : readAtom (a.tokens ++ rest) = some (a, rest) := by
  refine findSome?_of_unique (mem_allTests a.test) (readAs_tokens h rest) fun test _ hread => ?_
  obtain ⟨x, hx⟩ := Option.ne_none_iff_exists'.mp hread
  -- of two beginnings of the same tokens, one begins the other
  rcases List.prefix_or_prefix_of_prefix (start_isPrefix_of_readAs hx)
    (start_isPrefix_tokens a rest) with hprefix | hprefix
  · exact wording_prefixFree _ (mem_allTests _) _ (mem_allTests _) hprefix
  · exact (wording_prefixFree _ (mem_allTests _) _ (mem_allTests _) hprefix).symm

/-! ## Brackets -/

/-- The tokens do not begin with this character. -/
def StartsWithout (c : Char) (ts : List Token) : Prop :=
  ts.head? ≠ some (.literal c)

lemma skipWords_of_startsWithout {c : Char} {cs : List Char} {s : String} {ts : List Token}
    (hs : s.toList = c :: cs) (h : StartsWithout c ts) : skipWords s ts = none := by
  cases hskip : skipWords s ts with
  | none => rfl
  | some rest =>
    obtain rfl := skipWords_eq_some hskip
    exact absurd (by simp [literalTokens, hs]) h

/-- An atomic condition begins with a placeholder or with the name of a function. -/
lemma Atom.tokens_startsWithout {c : Char} (hc : c ∈ ['(', 'N']) (a : Atom String)
    (rest : List Token) : StartsWithout c (a.tokens ++ rest) := by
  have hall : ∀ test ∈ allTests, test.start.head? ∉ ['(', 'N'].map fun c => some (some c) := by
    decide +kernel
  have hx : a.test.start.head? ≠ some (some c) := by
    intro heq
    refine hall a.test (mem_allTests _) ?_
    rw [heq]
    exact List.mem_map.mpr ⟨c, hc, rfl⟩
  obtain ⟨x, xs, hstart⟩ := List.exists_cons_of_ne_nil (show a.test.start ≠ [] by simp [Test.start])
  obtain ⟨more, hmore⟩ := start_isPrefix_tokens a rest
  have hhead : ((a.tokens ++ rest).map charOf?).head? = a.test.start.head? := by
    rw [← hmore, hstart]
    rfl
  intro hliteral
  rw [List.head?_map, hliteral] at hhead
  exact hx hhead.symm

/-- A condition begins with a bracket, or as an atomic condition does. -/
lemma Formula.tokens_startsWithout {f : Formula (Atom String)} (h : f.Complete)
    (rest : List Token) : StartsWithout 'N' (f.tokens ++ rest) := by
  have hbracket (ts : List Token) : StartsWithout 'N' (.literal '(' :: ts) := by
    simp [StartsWithout]
  cases f with
  | nothing => exact absurd h id
  | atom a => exact a.tokens_startsWithout (by decide) rest
  | join k f g => exact hbracket _
  | negation f => exact hbracket _

lemma skipNot_of_startsWithout {ts : List Token} (h : StartsWithout 'N' ts) :
    skipWords "(NOT " (literalTokens "(" ++ ts) = none := by
  cases hskip : skipWords "(NOT " (literalTokens "(" ++ ts) with
  | none => rfl
  | some rest =>
    have htokens := skipWords_eq_some hskip
    have hrest : ts = literalTokens "NOT " ++ rest := (List.cons.inj htokens).2
    exact absurd (by rw [hrest]; rfl) h

lemma readConnective_append (k : Connective) (rest : List Token) :
    readConnective (literalTokens k.sign ++ rest) = some (k, rest) := by
  cases k with
  | all => simp [readConnective]
  | any =>
    have hall : skipWords Connective.all.sign (literalTokens Connective.any.sign ++ rest) = none :=
      rfl
    simp [readConnective, hall]

/-- **A condition is read back from its tokens**, whatever follows. -/
theorem readFormula_tokens {f : Formula (Atom String)} (h : f.Complete) {n : Nat}
    (hn : f.depth < n) (rest : List Token) :
    readFormula n (f.tokens ++ rest) = some (f, rest) := by
  induction f generalizing n rest with
  | nothing => exact absurd h id
  | atom a =>
    obtain ⟨n, rfl⟩ := Nat.exists_eq_succ_of_ne_zero (Nat.ne_of_gt hn)
    have hstarts := a.tokens_startsWithout (c := '(') (by decide) rest
    rw [readFormula, Formula.tokens, skipWords_of_startsWithout rfl hstarts,
      skipWords_of_startsWithout rfl hstarts]
    simp only [readAtom_tokens h, Option.map_some]
  | join k f g ihf ihg =>
    obtain ⟨n, rfl⟩ := Nat.exists_eq_succ_of_ne_zero (Nat.ne_of_gt (Nat.zero_lt_of_lt hn))
    have hdepth : f.depth < n ∧ g.depth < n := by
      simp only [Formula.depth] at hn
      omega
    rw [readFormula, Formula.tokens]
    simp only [List.append_assoc]
    rw [skipNot_of_startsWithout (Formula.tokens_startsWithout h.1 _), skipWords_append]
    simp only [ihf h.1 hdepth.1, readConnective_append, ihg h.2 hdepth.2, skipWords_append,
      Option.bind_eq_bind, Option.bind_some]
  | negation f ih =>
    obtain ⟨n, rfl⟩ := Nat.exists_eq_succ_of_ne_zero (Nat.ne_of_gt (Nat.zero_lt_of_lt hn))
    have hdepth : f.depth < n := Nat.lt_of_succ_lt_succ hn
    rw [readFormula, Formula.tokens, List.append_assoc, skipWords_append]
    simp only [List.append_assoc, ih h hdepth, skipWords_append, Option.bind_eq_bind,
      Option.bind_some]

/-- Brackets need tokens. -/
lemma depth_lt_length_tokens {f : Formula (Atom String)} (h : f.Complete) :
    f.depth < f.tokens.length := by
  induction f with
  | nothing => exact absurd h id
  | atom a =>
    simp only [Formula.depth, Formula.tokens, Atom.tokens, List.length_append, List.length_cons]
    omega
  | join k f g ihf ihg =>
    have hf := ihf h.1
    have hg := ihg h.2
    simp only [Formula.depth, Formula.tokens, List.length_append]
    have hbracket : (literalTokens "(").length = 1 := rfl
    omega
  | negation f ih =>
    have hf := ih h
    have hbracket : (literalTokens "(NOT ").length = 5 := rfl
    simp only [Formula.depth, Formula.tokens, List.length_append]
    omega

/-- **A text says the formula of its tokens.** -/
theorem readText_of_tokens {s : String} {f : Formula (Atom String)} (h : f.Complete)
    (hs : tokens s = f.tokens) : readText s = some f := by
  have hread := readFormula_tokens h (depth_lt_length_tokens h) []
  rw [List.append_nil] at hread
  rw [readText, hs, hread]

end TableKeys.Filter
