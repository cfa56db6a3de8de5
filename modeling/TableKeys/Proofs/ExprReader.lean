/-
# Reading expressions from their text

The reader takes the text apart the way the text is written: `!` binds tighter than `==`, and
`==` tighter than `&&`; a text ends at the next double quote, and a path goes as far as it can.
What it gives for the text of a readable expression is that expression, with the conjuncts of
nested conjunctions side by side, as the text has them.

* `readExpr_of_print`: a readable expression is read back from its text.
-/
import TableKeys.Proofs.JsonText
import TableKeys.Proofs.Lookup
import TableKeys.Proofs.Readable
import Mathlib.Data.List.Forall2

namespace TableKeys.Template

open Text

/-- Reads something at the beginning of a row of characters; the rest is left. -/
abbrev Reader (α : Type) := List Char → Option (α × List Char)

namespace Reader

/-! ## Fixed texts and rows -/

/-- Passes over a text. -/
def skip (s : String) (cs : List Char) : Option (List Char) :=
  cs.dropPrefix? s.toList

@[simp] lemma skip_append (s : String) (rest : List Char) :
    skip s (s.toList ++ rest) = some rest :=
  List.dropPrefix?_append_of_beq rest (BEq.refl _)

lemma skip_eq_some {s : String} {cs rest : List Char} (h : skip s cs = some rest) :
    cs = s.toList ++ rest := by
  obtain ⟨us, rfl, hus⟩ := List.dropPrefix?_eq_some_iff.mp h
  rw [eq_of_beq hus]

lemma skip_eq_none {s : String} {c d : Char} {cs ds : List Char} (hs : s.toList = d :: ds)
    (h : c ≠ d) : skip s (c :: cs) = none := by
  cases hskip : skip s (c :: cs) with
  | none => rfl
  | some rest =>
    have hcs := skip_eq_some hskip
    rw [hs, List.cons_append] at hcs
    exact absurd (List.cons.inj hcs).1 h

/-- Reads things with a text between them, at most so many. -/
def joined {α : Type} (separator : String) (p : Reader α) : Nat → Reader (List α)
  | 0, _ => none
  | n + 1, cs => do
    let (a, cs) ← p cs
    match skip separator cs with
    | none => some ([a], cs)
    | some cs => do
      let (as, cs) ← joined separator p n cs
      some (a :: as, cs)

/-- Things that are read wherever something good follows them are read as a row. -/
lemma joined_intercalate {α : Type} {p : Reader α} (separator : String)
    (Good : List Char → Prop) (hgood : ∀ rest, Good (separator.toList ++ rest)) {as : List α}
    {uss : List (List Char)}
    (h : List.Forall₂ (fun a us => ∀ rest, Good rest → p (us ++ rest) = some (a, rest)) as uss)
    (hne : as ≠ []) {n : Nat} (hn : as.length ≤ n) {rest : List Char} (hrest : Good rest)
    (hstop : skip separator rest = none) :
    joined separator p n (separator.toList.intercalate uss ++ rest) = some (as, rest) := by
  induction h generalizing n with
  | nil => exact absurd rfl hne
  | @cons a us as uss ha has ih =>
    obtain ⟨n, rfl⟩ : ∃ k, n = k + 1 := ⟨n - 1, by simp at hn; omega⟩
    cases has with
    | nil => simp [joined, ha rest hrest, hstop]
    | @cons a' us' as uss ha' has =>
      rw [List.intercalate_cons_cons, List.append_assoc, List.append_assoc, joined,
        ha _ (hgood _)]
      have := ih (by simp) (n := n) (by simpa using hn)
      simp [this]

/-! ## What follows an expression -/

/-- No expression goes on with these characters. -/
def Stops (rest : List Char) : Prop :=
  ∀ c ∈ rest.head?, c ∈ [' ', ',', ')', ']', '\n']

/-- No expression goes on with these characters, nor does an operator follow. -/
structure Ends (rest : List Char) : Prop where
  stops : Stops rest
  conjunction : skip " && " rest = none
  equality : skip " == " rest = none

lemma stops_nil : Stops [] := by
  simp [Stops]

lemma stops_cons {c : Char} {rest : List Char} (h : c ∈ [' ', ',', ')', ']', '\n']) :
    Stops (c :: rest) := by
  simpa [Stops] using h

lemma ends_nil : Ends [] :=
  ⟨stops_nil, rfl, rfl⟩

lemma ends_comma (rest : List Char) : Ends (", ".toList ++ rest) :=
  ⟨stops_cons (by decide), rfl, rfl⟩

lemma ends_parenthesis (rest : List Char) : Ends (')' :: rest) :=
  ⟨stops_cons (by decide), rfl, rfl⟩

lemma ends_newline (rest : List Char) : Ends ('\n' :: rest) :=
  ⟨stops_cons (by decide), rfl, rfl⟩

lemma ends_bracket (rest : List Char) : Ends (']' :: rest) :=
  ⟨stops_cons (by decide), rfl, rfl⟩

lemma ends_brace (rest : List Char) : Ends (" \x7d".toList ++ rest) :=
  ⟨stops_cons (by decide), rfl, rfl⟩

lemma ends_directive (rest : List Char) : Ends (" )\n".toList ++ rest) :=
  ⟨stops_cons (by decide), rfl, rfl⟩

lemma ends_call (rest : List Char) : Ends (")\n".toList ++ rest) :=
  ends_parenthesis _

lemma ends_put (rest : List Char) : Ends ("))\n".toList ++ rest) :=
  ends_parenthesis _

lemma ends_assignment (rest : List Char) : Ends (" = ".toList ++ rest) :=
  ⟨stops_cons (by decide), rfl, rfl⟩

/-! ## Paths -/

/-- The part of a path at the beginning, where so many brackets are open. -/
def pathPrefix : Nat → List Char → List Char
  | _, [] => []
  | depth, c :: cs =>
    if isWord c || c == '.' then c :: pathPrefix depth cs
    else if c == '[' then c :: pathPrefix (depth + 1) cs
    else
      match depth with
      | 0 => []
      | depth + 1 => if c == ']' then c :: pathPrefix depth cs else []

/-- Reads a path, as far as it goes. -/
def path (cs : List Char) : List Char × List Char :=
  (pathPrefix 0 cs, cs.drop (pathPrefix 0 cs).length)

lemma pathPrefix_append {cs : List Char} {depth depth' : Nat} (rest : List Char)
    (h : bracketDepth? depth cs = some depth') :
    pathPrefix depth (cs ++ rest) = cs ++ pathPrefix depth' rest := by
  induction cs generalizing depth with
  | nil =>
    obtain rfl := Option.some.inj h
    rfl
  | cons c cs ih =>
    simp only [bracketDepth?] at h
    simp only [List.cons_append, pathPrefix]
    split_ifs at h ⊢
    · rw [ih h]
    · rw [ih h]
    · cases depth with
      | zero => cases h
      | succ depth =>
        dsimp only
        rw [ih h]
    · cases depth <;> cases h

lemma pathPrefix_of_stops {rest : List Char} (h : Stops rest) : pathPrefix 0 rest = [] := by
  cases rest with
  | nil => rfl
  | cons c rest =>
    have hc := h c rfl
    simp only [List.mem_cons, List.not_mem_nil, or_false] at hc
    rcases hc with rfl | rfl | rfl | rfl | rfl <;> rfl

/-- A path is read up to what stops it. -/
lemma path_append {cs rest : List Char} (h : bracketDepth? 0 cs = some 0)
    (hrest : pathPrefix 0 rest = []) : path (cs ++ rest) = (cs, rest) := by
  rw [path, pathPrefix_append rest h, hrest, List.append_nil, List.drop_left]

/-! ## Leaves -/

/-- Reads a text, up to the next double quote. -/
def quoted (cs : List Char) : Option (Expr × List Char) := do
  let rest ← skip "\"" (cs.dropWhile (· != '"'))
  some (.text (String.ofList (cs.takeWhile (· != '"'))), rest)

lemma quoted_append {s : String} (hs : '"' ∉ s.toList) (rest : List Char) :
    quoted (s.toList ++ '"' :: rest) = some (.text s, rest) := by
  have hall : ∀ c ∈ s.toList, (c != '"') = true := by
    intro c hc
    exact bne_iff_ne.mpr fun h => hs (h ▸ hc)
  have hskip : skip "\"" ('"' :: rest) = some rest := skip_append "\"" rest
  simp [quoted, List.takeWhile_append_of_pos hall, List.dropWhile_append_of_pos hall, hskip]

/-- Reads decimal digits, at least one. -/
def digits (cs : List Char) : Option (Nat × List Char) :=
  match cs.takeWhile Char.isDigit with
  | [] => none
  | ds => some (Nat.ofDigitChars 10 ds 0, cs.dropWhile Char.isDigit)

/-- Reads a whole number. -/
def number : Reader Expr
  | '-' :: cs => (digits cs).map fun (n, cs) => (.int (-n), cs)
  | cs => (digits cs).map fun (n, cs) => (.int n, cs)

lemma takeWhile_of_stops {rest : List Char} (h : Stops rest) :
    rest.takeWhile Char.isDigit = [] ∧ rest.dropWhile Char.isDigit = rest := by
  cases rest with
  | nil => exact ⟨rfl, rfl⟩
  | cons c rest =>
    have hc := h c rfl
    simp only [List.mem_cons, List.not_mem_nil, or_false] at hc
    rcases hc with rfl | rfl | rfl | rfl | rfl <;> exact ⟨rfl, rfl⟩

lemma digits_append (n : Nat) {rest : List Char} (h : Stops rest) :
    digits (n.repr.toList ++ rest) = some (n, rest) := by
  have hall : ∀ c ∈ Nat.toDigits 10 n, c.isDigit = true := fun c hc =>
    Nat.isDigit_of_mem_toDigits (by decide) (by decide) hc
  obtain ⟨htake, hdrop⟩ := takeWhile_of_stops h
  rw [Nat.repr_eq_ofList_toDigits, String.toList_ofList, digits,
    List.takeWhile_append_of_pos hall, List.dropWhile_append_of_pos hall, htake, hdrop,
    List.append_nil]
  split
  · rename_i hnil
    exact absurd hnil Nat.toDigits_ne_nil
  · rw [Nat.ofDigitChars_ten_toDigits]

/-- The text of a whole number begins with a digit or the sign. -/
lemma toList_int (n : Int) :
    ∃ c cs, (toString n).toList = c :: cs ∧ (c = '-' ∨ c.isDigit = true) := by
  cases n with
  | ofNat n =>
    obtain ⟨c, cs, hcs⟩ := List.exists_cons_of_ne_nil (Nat.toDigits_ne_nil (n := n) (b := 10))
    refine ⟨c, cs, ?_, .inr (Nat.isDigit_of_mem_toDigits (by decide) (by decide)
      (hcs ▸ List.mem_cons_self))⟩
    change n.repr.toList = c :: cs
    rw [Nat.repr_eq_ofList_toDigits, String.toList_ofList, hcs]
  | negSucc n =>
    refine ⟨'-', (n + 1).repr.toList, ?_, .inl rfl⟩
    change ("-" ++ (n + 1).repr).toList = _
    rw [String.toList_append]
    rfl

lemma number_of_ne_sign {c : Char} (h : c ≠ '-') (cs : List Char) :
    number (c :: cs) = (digits (c :: cs)).map fun (n, cs) => (.int n, cs) := by
  rw [number]
  intro ds hds
  exact h (List.cons.inj hds).1

lemma number_append (n : Int) {rest : List Char} (h : Stops rest) :
    number ((toString n).toList ++ rest) = some (.int n, rest) := by
  cases n with
  | ofNat n =>
    change number (n.repr.toList ++ rest) = _
    obtain ⟨c, cs, hcs⟩ := List.exists_cons_of_ne_nil (Nat.toDigits_ne_nil (n := n) (b := 10))
    have hc : c.isDigit = true :=
      Nat.isDigit_of_mem_toDigits (by decide) (by decide) (hcs ▸ List.mem_cons_self)
    have hread := digits_append n h
    rw [Nat.repr_eq_ofList_toDigits, String.toList_ofList, hcs, List.cons_append] at hread ⊢
    rw [number_of_ne_sign, hread]
    · rfl
    · rintro rfl
      exact absurd hc (by decide)
  | negSucc n =>
    have htext : (toString (Int.negSucc n)).toList = '-' :: (n + 1).repr.toList := by
      change ("-" ++ (n + 1).repr).toList = _
      rw [String.toList_append]
      rfl
    rw [htext, List.cons_append, number, digits_append _ h]
    rfl

/-- Reads a truth value or a number. -/
def literal (cs : List Char) : Option (Expr × List Char) :=
  match skip "true" cs with
  | some rest => some (.bool true, rest)
  | none =>
    match skip "false" cs with
    | some rest => some (.bool false, rest)
    | none => number cs

lemma literal_bool (b : Bool) (rest : List Char) :
    literal ((if b then "true" else "false").toList ++ rest) = some (.bool b, rest) := by
  cases b with
  | true =>
    rw [if_pos rfl, literal, skip_append]
  | false =>
    have htrue : skip "true" ("false".toList ++ rest) = none := rfl
    rw [if_neg Bool.false_ne_true, literal, htrue, skip_append]

lemma literal_int (n : Int) {rest : List Char} (h : Stops rest) :
    literal ((toString n).toList ++ rest) = some (.int n, rest) := by
  have hread := number_append n h
  obtain ⟨c, cs, hcs, hc⟩ := toList_int n
  rw [hcs, List.cons_append] at hread ⊢
  have htrue : skip "true" (c :: (cs ++ rest)) = none :=
    skip_eq_none rfl (by rintro rfl; rcases hc with hc | hc <;> exact absurd hc (by decide))
  have hfalse : skip "false" (c :: (cs ++ rest)) = none :=
    skip_eq_none rfl (by rintro rfl; rcases hc with hc | hc <;> exact absurd hc (by decide))
  rw [literal, htrue, hfalse]
  exact hread

/-! ## Expressions without operators -/

section Inner

variable (n : Nat) (inner : Reader Expr)

/-- Reads the argument of a function and the parenthesis after it. -/
def argument (cs : List Char) : Option (Expr × List Char) := do
  let (e, cs) ← inner cs
  let cs ← skip ")" cs
  some (e, cs)

/-- Reads the arguments of the function with a name. -/
def call (name cs : List Char) : Option (Expr × List Char) :=
  if name = "util.isNull".toList then (argument inner cs).map (Prod.map .isNull id)
  else if name = "util.dynamodb.toDynamoDB".toList then
    (argument inner cs).map (Prod.map .toAttribute id)
  else if name = "util.defaultIfNull".toList then do
    let (e, cs) ← inner cs
    let cs ← skip ", " cs
    let (default, cs) ← argument inner cs
    some (.defaultIfNull e default, cs)
  else if name = "util.parseJson".toList then do
    let cs ← skip "\"$util.transform.toDynamoDBFilterExpression(" cs
    let (e, cs) ← argument inner cs
    let cs ← skip "\")" cs
    some (.toFilter e, cs)
  else do
    let target ← name.dropSuffix? ".containsKey".toList
    let (key, cs) ← argument inner cs
    some (.containsKey (.ref (String.ofList target)) key, cs)

/-- Reads a reference or a call. -/
def reference (cs : List Char) : Option (Expr × List Char) :=
  match path cs with
  | (name, '(' :: cs) => call inner name cs
  | (name, cs) => some (.ref (String.ofList name), cs)

/-- Reads the items of a list and the bracket after them. -/
def items (cs : List Char) : Option (Expr × List Char) :=
  match skip "]" cs with
  | some cs => some (.list [], cs)
  | none => do
    let (es, cs) ← joined ", " inner n cs
    let cs ← skip "]" cs
    some (.list es, cs)

/-- Reads the entry of a map. -/
def entry (cs : List Char) : Option ((String × Expr) × List Char) := do
  let (key, cs) ← readJson cs
  let cs ← skip ": " cs
  let (e, cs) ← inner cs
  some ((key, e), cs)

/-- Reads the entries of a map and the brace after them. -/
def entries (cs : List Char) : Option (Expr × List Char) :=
  match skip "\x7d" cs with
  | some cs => some (.object [], cs)
  | none => do
    let cs ← skip " " cs
    let (entries, cs) ← joined ", " (entry inner) n cs
    let cs ← skip " \x7d" cs
    some (.object entries, cs)

/-- Reads an expression that begins with no operator and has none between its parts. -/
def atom : Reader Expr
  | '"' :: cs => quoted cs
  | '[' :: cs => items n inner cs
  | '{' :: cs => entries n inner cs
  | '$' :: cs => reference inner cs
  | cs => literal cs

/-- Reads an expression without an operator between its parts. -/
def unary : Reader Expr
  | '!' :: cs => (unary cs).map (Prod.map .not id)
  | cs => atom n inner cs

/-- Reads expressions with `==` between them. -/
def equality (cs : List Char) : Option (Expr × List Char) := do
  match ← joined " == " (unary n inner) (n + 1) cs with
  | ([], _) => none
  | (e :: es, cs) => some (es.foldl .equals e, cs)

/-- Reads expressions with `&&` between them. -/
def conjunction (cs : List Char) : Option (Expr × List Char) :=
  (joined " && " (equality n inner) (n + 1) cs).map (Prod.map Expr.ofConjuncts id)

end Inner

/-- Reads an expression of at most so many characters. -/
def expr : Nat → Reader Expr
  | 0 => fun _ => none
  | n + 1 => conjunction n (expr n)

/-! ## Reading back what was written -/

lemma length_le_intercalate (separator : List Char) {us : List Char} {uss : List (List Char)}
    (h : us ∈ uss) : us.length ≤ (separator.intercalate uss).length := by
  induction uss with
  | nil => cases h
  | cons vs uss ih =>
    cases uss with
    | nil =>
      obtain rfl := List.mem_singleton.mp h
      simp
    | cons ws uss =>
      rw [List.intercalate_cons_cons, List.length_append, List.length_append]
      rcases List.mem_cons.mp h with rfl | h
      · omega
      · have := ih h
        omega

lemma length_le_length_intercalate {separator : List Char} (hne : separator ≠ [])
    (uss : List (List Char)) : uss.length ≤ (separator.intercalate uss).length + 1 := by
  have hpos := List.length_pos_iff.mpr hne
  induction uss with
  | nil => simp
  | cons us uss ih =>
    cases uss with
    | nil => simp
    | cons vs uss =>
      rw [List.intercalate_cons_cons, List.length_append, List.length_append, List.length_cons]
      omega

/-- The readable expressions with fewer characters are read, and none begins with a bracket that
closes. -/
structure Reads (inner : Reader Expr) (n : Nat) : Prop where
  read : ∀ {e : Expr} {cs rest : List Char}, e.isReadable = true → e.Spells cs →
    cs.length < n → Ends rest → inner (cs ++ rest) = some (e.flat, rest)
  closing : ∀ rest, inner (']' :: rest) = none

section Inner

variable {inner : Reader Expr} {n : Nat} {e : Expr} {es : List Expr} {cs us rest : List Char}

lemma argument_append (h : Reads inner n) (he : e.isReadable = true) (hs : e.Spells us)
    (hn : us.length < n) (rest : List Char) :
    argument inner (us ++ ')' :: rest) = some (e.flat, rest) := by
  have hskip : skip ")" (')' :: rest) = some rest := skip_append ")" rest
  simp [argument, h.read he hs hn (ends_parenthesis rest), hskip]

/-- A name with an opening bracket after it is a call. -/
lemma reference_call {name : List Char} (hname : bracketDepth? 0 name = some 0)
    (rest : List Char) : reference inner (name ++ '(' :: rest) = call inner name rest := by
  rw [reference, path_append hname rfl]
  rfl

lemma reference_path {path : String} (hpath : isPath path = true) (hrest : Stops rest) :
    reference inner (path.toList ++ rest) = some (.ref path, rest) := by
  rw [reference, path_append (isPath_iff.mp hpath) (pathPrefix_of_stops hrest)]
  split
  · rename_i h
    obtain ⟨-, h⟩ := Prod.mk.inj h
    exact absurd (hrest '(' (by rw [h]; rfl)) (by decide)
  · rename_i h
    obtain ⟨rfl, rfl⟩ := Prod.mk.inj h
    rw [String.ofList_toList]

/-- The names of functions are no calls of `containsKey`. -/
lemma call_containsKey (path rest : List Char) :
    call inner (path ++ ".containsKey".toList) rest =
      (argument inner rest).map
        (Prod.map (Expr.containsKey (.ref (String.ofList path))) id) := by
  have hne : ∀ name : List Char, ¬ ".containsKey".toList <:+ name →
      path ++ ".containsKey".toList ≠ name := by
    rintro name hname rfl
    exact hname (List.suffix_append _ _)
  have hdrop : (path ++ ".containsKey".toList).dropSuffix? ".containsKey".toList = some path :=
    List.dropSuffix?_eq_some_iff.mpr ⟨_, rfl, BEq.refl _⟩
  rw [call, if_neg (hne _ (by decide)), if_neg (hne _ (by decide)), if_neg (hne _ (by decide)),
    if_neg (hne _ (by decide)), hdrop]
  cases argument inner rest <;> rfl

lemma length_flatAll_le {uss : List (List Char)} {separator : String}
    (hs : List.Forall₂ Expr.Spells es uss)
    (hn : (separator.toList.intercalate uss).length < n) (hne : separator.toList ≠ []) :
    (Expr.flatAll es).length ≤ n := by
  rw [Expr.flatAll_eq_map, List.length_map, hs.length_eq]
  have := length_le_length_intercalate hne uss
  omega

/-- The things of a row are read one by one. -/
lemma row_flat (h : Reads inner n) (hes : ∀ e ∈ es, e.isReadable = true)
    {uss : List (List Char)} (hs : List.Forall₂ Expr.Spells es uss)
    (hn : ∀ us ∈ uss, us.length < n) :
    List.Forall₂ (fun e us => ∀ rest, Ends rest → inner (us ++ rest) = some (e, rest))
      (Expr.flatAll es) uss := by
  rw [Expr.flatAll_eq_map, List.forall₂_map_left_iff]
  exact forall₂_of_mem hs fun e he us hus hs rest hrest =>
    h.read (hes e he) hs (hn us hus) hrest

lemma items_append (h : Reads inner n) (he : (Expr.list es).isReadable = true)
    {uss : List (List Char)} (hs : List.Forall₂ Expr.Spells es uss)
    (hn : (", ".toList.intercalate uss).length < n) :
    items n inner (", ".toList.intercalate uss ++ ']' :: rest) =
      some ((Expr.list es).flat, rest) := by
  have hclose : skip "]" (']' :: rest) = some rest := skip_append "]" rest
  cases es with
  | nil =>
    cases hs
    rw [items, List.intercalate_nil, List.nil_append, hclose, Expr.flat, Expr.flatAll]
  | cons e es =>
    have hread := joined_intercalate ", " Ends ends_comma
      (row_flat h (Expr.areReadable_iff.mp he) hs fun us hus =>
        Nat.lt_of_le_of_lt (length_le_intercalate _ hus) hn)
      (by simp [Expr.flatAll]) (length_flatAll_le hs hn (by decide)) (ends_bracket rest) rfl
    have hopen : skip "]" (", ".toList.intercalate uss ++ ']' :: rest) = none := by
      cases hskip : skip "]" (", ".toList.intercalate uss ++ ']' :: rest) with
      | none => rfl
      | some cs =>
        -- the first item would begin with the bracket
        rw [skip_eq_some hskip] at hread
        cases n with
        | zero => cases hread
        | succ n => simp [joined, h.closing] at hread
    rw [items, hopen]
    simp only [hread, hclose, Option.bind_eq_bind, Option.bind_some, Expr.flat]

lemma entry_append {entry : String × Expr} (h : Reads inner n)
    (he : entry.2.isReadable = true) (hs : Expr.Spells.Entry entry us) (hn : us.length < n)
    (hrest : Ends rest) :
    Reader.entry inner (us ++ rest) = some ((entry.1, entry.2.flat), rest) := by
  obtain ⟨vs, hvs, hus⟩ := hs
  rw [hus] at hn ⊢
  have hread := h.read (e := entry.2) he hvs (by simp at hn; omega) hrest
  rw [List.append_assoc, List.append_assoc, Reader.entry, readJson_jsonQuoted]
  simp only [Option.bind_eq_bind, Option.bind_some, skip_append, hread]

lemma entries_append {entries : List (String × Expr)} (h : Reads inner n)
    (he : (Expr.object entries).isReadable = true) (hne : entries ≠ [])
    {uss : List (List Char)} (hs : List.Forall₂ Expr.Spells.Entry entries uss)
    (hn : (", ".toList.intercalate uss).length < n) :
    Reader.entries n inner
        (" ".toList ++ (", ".toList.intercalate uss ++ (" \x7d".toList ++ rest))) =
      some ((Expr.object entries).flat, rest) := by
  have hrow : List.Forall₂
      (fun e us => ∀ rest, Ends rest → Reader.entry inner (us ++ rest) = some (e, rest))
      (Expr.flatEntries entries) uss := by
    rw [Expr.flatEntries_eq_map, List.forall₂_map_left_iff]
    exact forall₂_of_mem hs fun entry hentry us hus hs rest hrest =>
      entry_append h (Expr.areReadableEntries_iff.mp he entry hentry) hs
        (Nat.lt_of_le_of_lt (length_le_intercalate _ hus) hn) hrest
  have hlength : (Expr.flatEntries entries).length ≤ n := by
    rw [Expr.flatEntries_eq_map, List.length_map, hs.length_eq]
    have := length_le_length_intercalate (by decide : ", ".toList ≠ []) uss
    omega
  have hread := joined_intercalate ", " Ends ends_comma hrow
    (by rw [Expr.flatEntries_eq_map]; simpa using hne) hlength (ends_brace rest) rfl
  have hopen : skip "\x7d" (" ".toList ++
      (", ".toList.intercalate uss ++ (" \x7d".toList ++ rest))) = none := rfl
  have hflat : (Expr.object entries).flat = .object (Expr.flatEntries entries) := rfl
  rw [Reader.entries, hopen]
  simp only [skip_append, hread, Option.bind_eq_bind, Option.bind_some, hflat]

lemma atom_call (text name : String) (htext : text = "$" ++ name ++ "(")
    (hname : isPath name = true) (rest : List Char) :
    atom n inner (text.toList ++ rest) = call inner name.toList rest := by
  have hopen : text.toList = '$' :: name.toList ++ ['('] := by simp [htext]
  rw [hopen, List.append_assoc]
  exact reference_call (isPath_iff.mp hname) rest

lemma atom_int (i : Int) (hrest : Stops rest) :
    atom n inner ((toString i).toList ++ rest) = some (.int i, rest) := by
  have hread := literal_int i hrest
  obtain ⟨c, us, hus, hc⟩ := toList_int i
  rw [hus, List.cons_append] at hread ⊢
  rw [atom]
  · exact hread
  -- neither the sign nor a digit begins anything else
  all_goals
    rintro us hus
    obtain rfl := (List.cons.inj hus).1
    rcases hc with hc | hc <;> exact absurd hc (by decide)

lemma atom_containsKey {path : String} {key : Expr} (h : Reads inner n)
    (hpath : isPath path = true) (hkey : key.isReadable = true) (hs : key.Spells us)
    (hn : us.length < n) (rest : List Char) :
    atom n inner (("$" ++ (path ++ ".containsKey") ++ "(").toList ++ (us ++ ')' :: rest)) =
      some (.containsKey (.ref path) key.flat, rest) := by
  rw [atom_call _ _ rfl (isPath_append hpath (by decide)), String.toList_append,
    call_containsKey, argument_append h hkey hs hn rest, String.ofList_toList]
  rfl

lemma atom_defaultIfNull {default : Expr} {vs : List Char} (h : Reads inner n)
    (he : e.isReadable = true) (hdefault : default.isReadable = true) (hus : e.Spells us)
    (hvs : default.Spells vs) (hn : us.length < n) (hn' : vs.length < n) (rest : List Char) :
    atom n inner ("$util.defaultIfNull(".toList ++
        (us ++ (", ".toList ++ (vs ++ ')' :: rest)))) =
      some (.defaultIfNull e.flat default.flat, rest) := by
  have hread := h.read he hus hn (ends_comma (vs ++ ')' :: rest))
  have hread' := argument_append h hdefault hvs hn' rest
  rw [atom_call "$util.defaultIfNull(" "util.defaultIfNull" rfl (by decide), call,
    if_neg (by decide), if_neg (by decide), if_pos rfl]
  simp only [hread, hread', skip_append, Option.bind_eq_bind, Option.bind_some]

lemma atom_toFilter (h : Reads inner n) (he : e.isReadable = true) (hs : e.Spells us)
    (hn : us.length < n) (rest : List Char) :
    atom n inner ("$util.parseJson(\"$util.transform.toDynamoDBFilterExpression(".toList ++
        (us ++ (")\")".toList ++ rest))) = some (.toFilter e.flat, rest) := by
  have hread := argument_append h he hs hn ("\")".toList ++ rest)
  have htext : "$util.parseJson(\"$util.transform.toDynamoDBFilterExpression(".toList =
      "$util.parseJson(".toList ++ "\"$util.transform.toDynamoDBFilterExpression(".toList := by
    simp
  have hclose : ")\")".toList ++ rest = ')' :: ("\")".toList ++ rest) := rfl
  rw [htext, List.append_assoc, atom_call "$util.parseJson(" "util.parseJson" rfl (by decide),
    call, if_neg (by decide), if_neg (by decide), if_neg (by decide), if_pos rfl, hclose]
  simp only [hread, skip_append, Option.bind_eq_bind, Option.bind_some]

/-- An expression without operators is read up to what stops it. -/
lemma atom_append (h : Reads inner n) (he : e.isReadable = true)
    (hatom : ∀ a, e ≠ .not a) (hbare : e.isInfix = false) (hs : e.Spells cs)
    (hn : cs.length ≤ n) (hrest : Stops rest) :
    atom n inner (cs ++ rest) = some (e.flat, rest) := by
  cases e with
  | ref path =>
    rw [hs.ref]
    exact reference_path he hrest
  | text s =>
    rw [hs.text, List.append_assoc]
    exact quoted_append (by simpa [Expr.isReadable] using he) rest
  | int i =>
    rw [hs.int]
    exact atom_int i hrest
  | bool b =>
    have hread := literal_bool b rest
    rw [hs.bool]
    cases b <;> exact hread
  | object entries =>
    cases entries with
    | nil =>
      have hclose : skip "\x7d" ('}' :: rest) = some rest := skip_append "\x7d" rest
      rw [hs.object_nil]
      change Reader.entries n inner ('}' :: rest) = _
      rw [Reader.entries, hclose, Expr.flat, Expr.flatEntries]
    | cons entry entries =>
      obtain ⟨uss, hrow, rfl⟩ := hs.object_cons
      rw [List.append_assoc, List.append_assoc]
      exact entries_append h he (by simp) hrow (by simp at hn ⊢; omega)
  | list es =>
    obtain ⟨uss, hrow, rfl⟩ := hs.list
    rw [List.append_assoc, List.append_assoc]
    exact items_append h he hrow (by simp at hn ⊢; omega)
  | isNull e =>
    obtain ⟨us, hus, rfl⟩ := Expr.Spells.isNull hs
    have hread := argument_append (e := e) h he hus (by simp at hn; omega) rest
    rw [List.append_assoc, List.append_assoc,
      atom_call "$util.isNull(" "util.isNull" rfl (by decide)]
    exact congrArg (Option.map (Prod.map Expr.isNull id)) hread
  | toAttribute e =>
    obtain ⟨us, hus, rfl⟩ := Expr.Spells.toAttribute hs
    have hread := argument_append (e := e) h he hus (by simp at hn; omega) rest
    rw [List.append_assoc, List.append_assoc,
      atom_call "$util.dynamodb.toDynamoDB(" "util.dynamodb.toDynamoDB" rfl (by decide)]
    exact congrArg (Option.map (Prod.map Expr.toAttribute id)) hread
  | not e => exact absurd rfl (hatom e)
  | and es => cases hbare
  | equals a b => cases hbare
  | containsKey target key =>
    obtain ⟨us, vs, hus, hvs, rfl⟩ := Expr.Spells.containsKey hs
    cases target with
    | ref path =>
      obtain ⟨hpath, hkey⟩ := Bool.and_eq_true_iff.mp he
      obtain rfl := hus.ref
      simpa [Expr.flat] using atom_containsKey h hpath hkey hvs (by simp at hn; omega) rest
    | _ => cases he
  | defaultIfNull e default =>
    obtain ⟨us, vs, hus, hvs, rfl⟩ := Expr.Spells.defaultIfNull hs
    obtain ⟨he, hdefault⟩ := Bool.and_eq_true_iff.mp he
    have hlength : us.length < n ∧ vs.length < n := by simp at hn; omega
    simp only [List.append_assoc]
    exact atom_defaultIfNull h he hdefault hus hvs hlength.1 hlength.2 rest
  | toFilter e =>
    obtain ⟨us, hus, rfl⟩ := Expr.Spells.toFilter hs
    simp only [List.append_assoc]
    exact atom_toFilter (e := e) h he hus (by simp at hn; omega) rest
  | misfit | keyed | stray | unlisted => cases he

/-- No expression without operators begins with an exclamation mark. -/
lemma unary_of_atom {x : Expr × List Char} (h : atom n inner cs = some x) :
    unary n inner cs = some x := by
  match cs with
  | [] => exact h
  | c :: cs =>
    by_cases hc : c = '!'
    · subst hc
      cases h
    · rw [unary]
      · exact h
      · intro ds hds
        exact hc (List.cons.inj hds).1

/-- An expression without an operator between its parts is read up to what stops it. -/
lemma unary_append (h : Reads inner n) (he : e.isReadable = true) (hbare : e.isInfix = false)
    (hs : e.Spells cs) (hn : cs.length ≤ n) (hrest : Stops rest) :
    unary n inner (cs ++ rest) = some (e.flat, rest) := by
  induction cs generalizing e with
  | nil =>
    refine unary_of_atom (atom_append h he ?_ hbare hs hn hrest)
    rintro a rfl
    obtain ⟨us, -, hus⟩ := hs.not
    cases hus
  | cons c cs ih =>
    by_cases hnot : ∃ a, e = .not a
    · obtain ⟨a, rfl⟩ := hnot
      obtain ⟨us, hus, hcs⟩ := hs.not
      obtain ⟨rfl, rfl⟩ := List.cons.inj hcs
      obtain ⟨hbare, ha⟩ := Bool.and_eq_true_iff.mp he
      rw [List.cons_append, unary,
        ih ha ((Bool.not_eq_true' _).mp hbare) hus (Nat.le_of_succ_le hn)]
      rfl
    · exact unary_of_atom (atom_append h he (fun a ha => hnot ⟨a, ha⟩) hbare hs hn hrest)

end Inner

/-! ### Operators -/

lemma intercalate_append {separator : List Char} {uss vss : List (List Char)} (hu : uss ≠ [])
    (hv : vss ≠ []) : separator.intercalate (uss ++ vss) =
      separator.intercalate uss ++ separator ++ separator.intercalate vss := by
  induction uss with
  | nil => exact absurd rfl hu
  | cons us uss ih =>
    cases uss with
    | nil =>
      rw [List.singleton_append, List.intercalate_cons_of_ne_nil hv, List.intercalate_singleton]
    | cons us' uss =>
      rw [List.cons_append, List.cons_append, List.intercalate_cons_cons,
        ← List.cons_append, ih (by simp), List.intercalate_cons_cons]
      simp only [List.append_assoc]

/-- An expression in a row, with its characters. -/
structure Written (ok : Expr → Prop) (e : Expr) (us : List Char) : Prop where
  readable : e.isReadable = true
  spells : e.Spells us
  ok : ok e

lemma isInfix_eq_false {e : Expr} (hconjunction : e.isConjunction = false)
    (hequals : ∀ a b, e ≠ .equals a b) : e.isInfix = false := by
  cases e with
  | and es => cases hconjunction
  | equals a b => exact absurd rfl (hequals a b)
  | _ => rfl

/-- An expression that is no conjunction is a row with `==` between its members. -/
lemma exists_equalands {e : Expr} {cs : List Char} (he : e.isReadable = true)
    (hconjunction : e.isConjunction = false) (hs : e.Spells cs) :
    ∃ a as uss, List.Forall₂ (Written fun e => e.isInfix = false) (a :: as) uss ∧
      cs = " == ".toList.intercalate uss ∧
      e.flat = (as.map Expr.flat).foldl .equals a.flat := by
  induction hlength : cs.length using Nat.strongRecOn generalizing e cs with
  | ind length ih =>
    subst hlength
    by_cases hequals : ∃ a b, e = .equals a b
    · obtain ⟨a, b, rfl⟩ := hequals
      obtain ⟨us, vs, hus, hvs, rfl⟩ := Expr.Spells.equals hs
      simp only [Expr.isReadable, Bool.and_eq_true, Bool.not_eq_true'] at he
      obtain ⟨⟨⟨hconjunction, hbare⟩, ha⟩, hb⟩ := he
      obtain ⟨a', as, uss, hrow, rfl, hflat⟩ :=
        ih us.length (by simp) ha hconjunction hus rfl
      have hne : uss ≠ [] := by
        rintro rfl
        cases hrow
      refine ⟨a', as ++ [b], uss ++ [vs], List.rel_append hrow (.cons ⟨hb, hvs, hbare⟩ .nil),
        ?_, ?_⟩
      · rw [intercalate_append hne (by simp), List.intercalate_singleton]
      · rw [List.map_append, List.foldl_append, ← hflat]
        rfl
    · have hbare := isInfix_eq_false hconjunction fun a b hab => hequals ⟨a, b, hab⟩
      exact ⟨e, [], [cs], .cons ⟨he, hs, hbare⟩ .nil, List.intercalate_singleton.symm, rfl⟩

mutual

/-- An expression is a row with `&&` between its members. -/
theorem exists_conjuncts (e : Expr) {cs : List Char} (he : e.isReadable = true)
    (hs : e.Spells cs) :
    ∃ es uss, es ≠ [] ∧ (e.isConjunction = true → 2 ≤ es.length) ∧
      List.Forall₂ (Written fun e => e.isConjunction = false) es uss ∧
      cs = " && ".toList.intercalate uss ∧ e.flat.conjuncts = es.map Expr.flat := by
  cases e with
  | and es =>
    obtain ⟨uss, hrow, rfl⟩ := hs.and
    obtain ⟨hlength, hes⟩ := Bool.and_eq_true_iff.mp he
    have hlength := of_decide_eq_true hlength
    obtain ⟨es', uss', hle, hrest⟩ := exists_conjunctsOfAll es (by rintro rfl; cases hlength)
      hes hrow
    exact ⟨es', uss', List.length_pos_iff.mp (by omega), fun _ => Nat.le_trans hlength hle, hrest⟩
  | _ =>
    exact ⟨[_], [cs], by simp, nofun, .cons ⟨he, hs, rfl⟩ .nil,
      List.intercalate_singleton.symm, Expr.conjuncts_flat rfl⟩

theorem exists_conjunctsOfAll : ∀ (es : List Expr) {uss : List (List Char)}, es ≠ [] →
    Expr.areReadable es = true → List.Forall₂ Expr.Spells es uss →
    ∃ es' uss', es.length ≤ es'.length ∧
      List.Forall₂ (Written fun e => e.isConjunction = false) es' uss' ∧
      " && ".toList.intercalate uss = " && ".toList.intercalate uss' ∧
      Expr.flatConjuncts es = es'.map Expr.flat
  | [], _, hne, _, _ => absurd rfl hne
  | [e], _, _, he, .cons hs .nil => by
    obtain ⟨es', uss', hne, -, hrow, hcs, hflat⟩ :=
      exists_conjuncts e (Bool.and_eq_true_iff.mp he).1 hs
    refine ⟨es', uss', List.length_pos_iff.mpr hne, hrow, ?_, ?_⟩
    · rw [List.intercalate_singleton, hcs]
    · rw [Expr.flatConjuncts, Expr.flatConjuncts, List.append_nil, hflat]
  | e :: e' :: es, _, _, he, .cons hs (.cons hs' hrow) => by
    obtain ⟨he, hes⟩ := Bool.and_eq_true_iff.mp he
    obtain ⟨es₁, uss₁, hne, -, hrow₁, hcs₁, hflat₁⟩ := exists_conjuncts e he hs
    obtain ⟨es₂, uss₂, hle, hrow₂, hcs₂, hflat₂⟩ :=
      exists_conjunctsOfAll (e' :: es) (by simp) hes (.cons hs' hrow)
    have hpos := List.length_pos_iff.mpr hne
    have hlength := hrow₁.length_eq
    have hlength' := hrow₂.length_eq
    rw [List.length_cons] at hle
    refine ⟨es₁ ++ es₂, uss₁ ++ uss₂, ?_, List.rel_append hrow₁ hrow₂, ?_, ?_⟩
    · rw [List.length_cons, List.length_cons, List.length_append]
      omega
    · rw [List.intercalate_cons_cons, hcs₂, hcs₁,
        intercalate_append (List.length_pos_iff.mp (by omega))
          (List.length_pos_iff.mp (by omega))]
    · rw [Expr.flatConjuncts, hflat₁, hflat₂, List.map_append]

end

/-! ### Whole expressions -/

section Inner

variable {inner : Reader Expr} {n : Nat} {e : Expr} {cs rest : List Char}

/-- The members of a row are read one by one, wherever something good follows. -/
lemma row_written {ok : Expr → Prop} {p : Reader Expr} {Good : List Char → Prop} {es : List Expr}
    {uss : List (List Char)} (separator : String)
    (hread : ∀ {e us rest}, Written ok e us → us.length ≤ n → Good rest →
      p (us ++ rest) = some (e.flat, rest))
    (hrow : List.Forall₂ (Written ok) es uss)
    (hn : (separator.toList.intercalate uss).length ≤ n) :
    List.Forall₂ (fun e us => ∀ rest, Good rest → p (us ++ rest) = some (e, rest))
      (es.map Expr.flat) uss := by
  rw [List.forall₂_map_left_iff]
  exact forall₂_of_mem hrow fun e he us hus hwritten rest hrest =>
    hread hwritten (Nat.le_trans (length_le_intercalate _ hus) hn) hrest

lemma length_le_of_row {ok : Expr → Prop} {es : List Expr} {uss : List (List Char)}
    {separator : String} (hne : separator.toList ≠ []) (hrow : List.Forall₂ (Written ok) es uss)
    (hn : (separator.toList.intercalate uss).length ≤ n) :
    (es.map Expr.flat).length ≤ n + 1 := by
  rw [List.length_map, hrow.length_eq]
  have := length_le_length_intercalate hne uss
  omega

/-- An expression that is no conjunction is read up to what stops it, if no `==` follows. -/
lemma equality_append (h : Reads inner n) (he : e.isReadable = true)
    (hconjunction : e.isConjunction = false) (hs : e.Spells cs) (hn : cs.length ≤ n)
    (hrest : Stops rest) (hequality : skip " == " rest = none) :
    equality n inner (cs ++ rest) = some (e.flat, rest) := by
  obtain ⟨a, as, uss, hrow, rfl, hflat⟩ := exists_equalands he hconjunction hs
  have hread := joined_intercalate " == " Stops (fun _ => stops_cons (by decide))
    (row_written " == " (fun hwritten hn hrest =>
      unary_append h hwritten.readable hwritten.ok hwritten.spells hn hrest) hrow hn)
    (by simp) (length_le_of_row (by decide) hrow hn) hrest hequality
  rw [equality, hread, hflat]
  rfl

/-- An expression is read up to where it ends. -/
lemma conjunction_append (h : Reads inner n) (he : e.isReadable = true) (hs : e.Spells cs)
    (hn : cs.length ≤ n) (hrest : Ends rest) :
    conjunction n inner (cs ++ rest) = some (e.flat, rest) := by
  obtain ⟨es, uss, hne, hmany, hrow, rfl, hflat⟩ := exists_conjuncts e he hs
  have hread := joined_intercalate " && " (fun rest => Stops rest ∧ skip " == " rest = none)
    (fun _ => ⟨stops_cons (by decide), rfl⟩)
    (row_written " && " (fun hwritten hn hrest =>
      equality_append h hwritten.readable hwritten.ok hwritten.spells hn hrest.1 hrest.2) hrow hn)
    (by simpa using hne) (length_le_of_row (by decide) hrow hn)
    ⟨hrest.stops, hrest.equality⟩ hrest.conjunction
  have hmany' : e.isConjunction = true → 2 ≤ e.flat.conjuncts.length := by
    rw [hflat, List.length_map]
    exact hmany
  rw [conjunction, hread, ← hflat, Option.map_some, Prod.map_apply,
    Expr.ofConjuncts_conjuncts (by rwa [Expr.isConjunction_flat])]
  rfl

end Inner

/-- What begins with no expression is not read. -/
lemma expr_of_atom {n : Nat} {cs : List Char} (hcs : cs.head? ≠ some '!')
    (h : ∀ n, atom n (expr n) cs = none) : expr n cs = none := by
  have hunary : ∀ n, unary n (expr n) cs = none := by
    intro n
    rw [unary]
    · exact h n
    · rintro ds rfl
      exact hcs rfl
  cases n with
  | zero => rfl
  | succ n => simp [expr, conjunction, joined, equality, hunary]

lemma expr_closing (n : Nat) (rest : List Char) : expr n (']' :: rest) = none :=
  expr_of_atom (by simp) fun _ => rfl

/-- Expressions of fewer characters are read. -/
theorem reads_expr (n : Nat) : Reads (expr n) n := by
  induction n with
  | zero => exact ⟨fun _ _ hn _ => absurd hn (Nat.not_lt_zero _), expr_closing 0⟩
  | succ n ih =>
    exact ⟨fun he hs hn hrest => conjunction_append ih he hs (Nat.le_of_lt_succ hn) hrest,
      expr_closing (n + 1)⟩

end Reader

/-- The expression with a text. -/
def readExpr (s : String) : Option Expr :=
  match Reader.expr (s.length + 1) s.toList with
  | some (e, []) => some e
  | _ => none

/-- **A readable expression is read back from its text**, with the conjuncts of nested
conjunctions side by side. -/
theorem readExpr_of_print {e : Expr} {s : String} (he : e.isReadable = true)
    (hs : e.print = .ok s) : readExpr s = some e.flat := by
  have hread := (Reader.reads_expr (s.length + 1)).read he (.of_print hs)
    (by rw [String.length_toList]; exact Nat.lt_succ_self _) Reader.ends_nil
  rw [List.append_nil] at hread
  rw [readExpr, hread]

end TableKeys.Template
