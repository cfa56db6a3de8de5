/-
# Placeholders in expressions

An expression names attributes and values by placeholders: a mark, `#` for a name or `:` for a
value, and the word after it. `tokens` cuts an expression into placeholders and other characters,
as the reader of the expression does. A word ends where no further character of it stands, so
expressions may be cut one by one if the second does not go on with a word (`tokens_append`).
-/
import TableKeys.Proofs.SchemaName

namespace TableKeys

/-- A part of an expression. -/
inductive Token where
  | literal (c : Char)
  /-- What stands for the name of an attribute. -/
  | name (placeholder : String)
  /-- What stands for a value. -/
  | value (placeholder : String)
deriving DecidableEq, Repr

/-- The placeholder at the beginning of a text. -/
def placeholder? : List Char → Option Token
  | [] => none
  | mark :: cs =>
    let word := cs.takeWhile isSchemaChar
    if word.isEmpty then none
    else if mark = '#' then some (.name (String.ofList (mark :: word)))
    else if mark = ':' then some (.value (String.ofList (mark :: word)))
    else none

/-- The parts of an expression, after a count of characters that belong to the last one. -/
def tokensFrom : Nat → List Char → List Token
  | _, [] => []
  | covered + 1, _ :: cs => tokensFrom covered cs
  | 0, c :: cs =>
    match placeholder? (c :: cs) with
    | some token => token :: tokensFrom (cs.takeWhile isSchemaChar).length cs
    | none => .literal c :: tokensFrom 0 cs

/-- The parts of an expression. -/
def tokens (s : String) : List Token :=
  tokensFrom 0 s.toList

/-- The placeholder, if it stands for a name. -/
def Token.name? : Token → Option String
  | name placeholder => some placeholder
  | _ => none

/-- The placeholder, if it stands for a value. -/
def Token.value? : Token → Option String
  | value placeholder => some placeholder
  | _ => none

/-- The placeholders for names in an expression. -/
def namePlaceholders (s : String) : List String :=
  (tokens s).filterMap Token.name?

/-- The placeholders for values in an expression. -/
def valuePlaceholders (s : String) : List String :=
  (tokens s).filterMap Token.value?

/-! ## Expressions one after the other -/

/-- The text does not go on with a word. -/
def EndsWord (cs : List Char) : Prop :=
  ∀ c ∈ cs.head?, isSchemaChar c = false

lemma endsWord_nil : EndsWord [] := by
  simp [EndsWord]

lemma endsWord_cons {c : Char} (h : isSchemaChar c = false) (cs : List Char) :
    EndsWord (c :: cs) := by
  simp [EndsWord, h]

section Append

variable {c : Char} {cs rest : List Char}

lemma takeWhile_append_of_endsWord (h : EndsWord rest) :
    (cs ++ rest).takeWhile isSchemaChar = cs.takeWhile isSchemaChar := by
  induction cs with
  | nil =>
    cases rest with
    | nil => rfl
    | cons d ds => exact List.takeWhile_cons_of_neg (by simp [h d rfl])
  | cons c cs ih =>
    rw [List.cons_append, List.takeWhile_cons, List.takeWhile_cons, ih]

lemma placeholder?_append (h : EndsWord rest) :
    placeholder? (c :: (cs ++ rest)) = placeholder? (c :: cs) := by
  rw [placeholder?, placeholder?, takeWhile_append_of_endsWord h]

lemma tokensFrom_append (h : EndsWord rest) (n : Nat) (cs : List Char) (hn : n ≤ cs.length) :
    tokensFrom n (cs ++ rest) = tokensFrom n cs ++ tokensFrom 0 rest := by
  -- the induction follows the cutting; a placeholder covers no more than what is left
  fun_induction tokensFrom n cs with
  | case1 n =>
    obtain rfl := Nat.le_zero.mp hn
    rfl
  | case2 covered c cs ih => exact ih (Nat.le_of_succ_le_succ hn)
  | case3 c cs token htoken ih =>
    rw [List.cons_append, tokensFrom, placeholder?_append h, htoken,
      takeWhile_append_of_endsWord h]
    exact congrArg (token :: ·) (ih (List.takeWhile_sublist _).length_le)
  | case4 c cs htoken ih =>
    rw [List.cons_append, tokensFrom, placeholder?_append h, htoken]
    exact congrArg (Token.literal c :: ·) (ih (Nat.zero_le _))

end Append

/-- **Expressions are cut one by one** if the second does not go on with a word. -/
theorem tokens_append (s : String) {t : String} (h : EndsWord t.toList) :
    tokens (s ++ t) = tokens s ++ tokens t := by
  rw [tokens, String.toList_append]
  exact tokensFrom_append h 0 _ (Nat.zero_le _)

/-- Characters that are no part of a placeholder. -/
def literalTokens (s : String) : List Token :=
  s.toList.map .literal

lemma filterMap_literalTokens {f : Token → Option String} (hf : ∀ c, f (.literal c) = none)
    (s : String) : (literalTokens s).filterMap f = [] := by
  rw [literalTokens, List.filterMap_map, List.filterMap_eq_nil_iff]
  exact fun c _ => hf c

lemma tokensFrom_plain_append {cs : List Char} (hname : '#' ∉ cs) (hvalue : ':' ∉ cs)
    (rest : List Char) :
    tokensFrom 0 (cs ++ rest) = cs.map .literal ++ tokensFrom 0 rest := by
  induction cs with
  | nil => rfl
  | cons c cs ih =>
    obtain ⟨hc, hcs⟩ : '#' ≠ c ∧ '#' ∉ cs := by simpa using hname
    obtain ⟨hc', hcs'⟩ : ':' ≠ c ∧ ':' ∉ cs := by simpa using hvalue
    have hnone : placeholder? (c :: (cs ++ rest)) = none := by
      simp [placeholder?, hc.symm, hc'.symm]
    rw [List.cons_append, tokensFrom, hnone]
    exact congrArg (Token.literal c :: ·) (ih hcs hcs')

/-- A text without marks has no placeholders, whatever comes after it. -/
theorem tokens_plain_append {s : String} (hname : '#' ∉ s.toList) (hvalue : ':' ∉ s.toList)
    (t : String) : tokens (s ++ t) = literalTokens s ++ tokens t := by
  rw [tokens, String.toList_append]
  exact tokensFrom_plain_append hname hvalue _

/-! ## Single placeholders -/

section Words

variable {word : String}

lemma takeWhile_word (h : isSchemaName word = true) :
    word.toList.takeWhile isSchemaChar = word.toList :=
  List.takeWhile_eq_self_iff.mpr fun _ hc => isSchemaChar_of_mem h hc

lemma tokensFrom_length (cs : List Char) : tokensFrom cs.length cs = [] := by
  induction cs with
  | nil => rfl
  | cons c cs ih => exact ih

lemma tokensFrom_word {mark : Char} {token : Token} (h : isSchemaName word = true)
    (htoken : placeholder? (mark :: word.toList) = some token) :
    tokensFrom 0 (mark :: word.toList) = [token] := by
  rw [tokensFrom, htoken]
  simp only
  rw [takeWhile_word h, tokensFrom_length]

lemma isEmpty_word (h : isSchemaName word = true) : word.toList.isEmpty = false := by
  obtain ⟨c, cs, hcs, -⟩ := isSchemaName_iff.mp h
  rw [hcs]
  rfl

lemma ofList_mark {mark : String} {c : Char} (h : mark.toList = [c]) :
    String.ofList (c :: word.toList) = mark ++ word := by
  refine String.toList_injective ?_
  rw [String.toList_ofList, String.toList_append, h]
  rfl

/-- A name after its mark is one placeholder. -/
theorem tokens_name (h : isSchemaName word = true) :
    tokens ("#" ++ word) = [.name ("#" ++ word)] := by
  rw [tokens, String.toList_append]
  refine tokensFrom_word h ?_
  rw [placeholder?, takeWhile_word h, isEmpty_word h]
  exact congrArg (fun s => some (Token.name s)) (ofList_mark rfl)

theorem tokens_value (h : isSchemaName word = true) :
    tokens (":" ++ word) = [.value (":" ++ word)] := by
  rw [tokens, String.toList_append]
  refine tokensFrom_word h ?_
  rw [placeholder?, takeWhile_word h, isEmpty_word h]
  exact congrArg (fun s => some (Token.value s)) (ofList_mark rfl)

end Words

end TableKeys
