/-
# Reading statements from their text

A statement begins on a line of its own, after blanks that say how deep it stands; the reader
passes over them. What a line begins with says what kind of statement it is. Statements go on
up to a line that closes them: the end of a block, a choice or a loop, or the end of the text.

* `readStatements_of_print`: a readable statement is read back from its text.
-/
import TableKeys.Proofs.ExprReader

namespace TableKeys.Template

open Text

namespace Reader

/-! ## Statements of one line -/

/-- Reads an expression of any length. -/
def expression (cs : List Char) : Option (Expr × List Char) :=
  expr (cs.length + 1) cs

/-- Reads the rest of an assignment. -/
def assignment (cs : List Char) : Option (Stmt × List Char) := do
  let (target, cs) ← expression cs
  let cs ← skip " = " cs
  let (value, cs) ← expression cs
  let cs ← skip " )\n" cs
  some (.set target value, cs)

/-- The put with a target; a text is put into the resolver metadata as the name of a field. -/
def putOf (target : List Char) (key value : Expr) : Stmt :=
  match key with
  | .text name =>
    if target = Stmt.metadataPath.toList then .metadataPut name value
    else .mapPut (.ref (String.ofList target)) key value
  | _ => .mapPut (.ref (String.ofList target)) key value

lemma putOf_of_map {path : String} {key value : Expr}
    (h : (path == Stmt.metadataPath && Stmt.isText key) = false) :
    putOf path.toList key.flat value = .mapPut (.ref path) key.flat value := by
  cases key with
  | text name =>
    have hpath : path.toList ≠ Stmt.metadataPath.toList := by
      simpa [Stmt.isText, String.toList_inj] using h
    change (if path.toList = _ then _ else _) = _
    rw [if_neg hpath, String.ofList_toList, Expr.flat_text]
  | _ =>
    change Stmt.mapPut (.ref (String.ofList path.toList)) _ _ = _
    rw [String.ofList_toList]

lemma putOf_metadataPath (name : String) (value : Expr) :
    putOf Stmt.metadataPath.toList (.text name) value = .metadataPut name value := by
  rw [putOf, if_pos rfl]

/-- Reads the rest of a put. -/
def put (cs : List Char) : Option (Stmt × List Char) :=
  match path cs with
  | (name, '(' :: cs) =>
    match name.dropSuffix? ".put".toList with
    | some target => do
      let (key, cs) ← expression cs
      let cs ← skip ", " cs
      let (value, cs) ← expression cs
      let cs ← skip "))\n" cs
      some (putOf target key value, cs)
    | none => do
      let target ← name.dropSuffix? ".putAll".toList
      let (value, cs) ← expression cs
      let cs ← skip "))\n" cs
      some (.putAll (.ref (String.ofList target)) value, cs)
  | _ => none

/-- Reads the rest of an error. -/
def raised (cs : List Char) : Option (Stmt × List Char) := do
  let (message, cs) ← expression cs
  match skip ")\n" cs with
  | some cs => some (.error message none, cs)
  | none => do
    let cs ← skip ", " cs
    let (type, cs) ← expression cs
    let cs ← skip ")\n" cs
    some (.error message (some type), cs)

/-- Reads the rest of an output. -/
def output (cs : List Char) : Option (Stmt × List Char) := do
  let (value, cs) ← expression cs
  let cs ← skip ")\n" cs
  some (.emit value, cs)

/-! ## Statements of several lines -/

/-- Reads what begins with one of several texts, and the rest as goes with that text. -/
def dispatch {α : Type} : List (String × Reader α) → Reader α
  | [], _ => none
  | (opening, p) :: table, cs =>
    match skip opening cs with
    | some cs => p cs
    | none => dispatch table cs

/-- Passes over blanks. -/
def skipBlanks (cs : List Char) : List Char :=
  cs.dropWhile (· == ' ')

section Inner

variable (inner : Reader (List Stmt))

/-- Reads statements and the line that closes them. -/
def closed (closing : String) (cs : List Char) : Option (List Stmt × List Char) := do
  let (ss, cs) ← inner cs
  let cs ← skip closing (skipBlanks cs)
  some (ss, cs)

/-- Reads the rest of a choice. -/
def choice (cs : List Char) : Option (Stmt × List Char) := do
  let (condition, cs) ← expression cs
  let cs ← skip " )\n" cs
  let (body, cs) ← inner cs
  match skip "#else\n" (skipBlanks cs) with
  | some cs => do
    let (otherwise, cs) ← closed inner "#end\n" cs
    some (.choice condition body (some otherwise), cs)
  | none => do
    let cs ← skip "#end\n" (skipBlanks cs)
    some (.choice condition body none, cs)

/-- Reads the rest of a loop. -/
def loop (cs : List Char) : Option (Stmt × List Char) := do
  let name := String.ofList (cs.takeWhile isWord)
  let cs ← skip " in " (cs.dropWhile isWord)
  let (items, cs) ← expression cs
  let cs ← skip " )\n" cs
  let (body, cs) ← closed inner "#end\n" cs
  some (.forEach name items body, cs)

/-- Reads the rest of a block, which ends with its name. -/
def block (cs : List Char) : Option (Stmt × List Char) := do
  let name ← (cs.takeWhile (· != '\n')).dropSuffix? ". **".toList
  let cs ← skip "\n" (cs.dropWhile (· != '\n'))
  let (body, cs) ← closed inner ("## [End] " ++ String.ofList name ++ ". **\n") cs
  some (.block (String.ofList name) body, cs)

/-- What a statement begins with, and how its rest is read. -/
def openings : List (String × Reader Stmt) := [
  ("#set( ", assignment),
  ("$util.qr($", put),
  ("$util.error(", raised),
  ("$util.toJson(", output),
  ("#if( ", choice inner),
  ("#foreach( $", loop inner),
  ("## [Start] ", block inner)]

/-- Reads a statement. -/
def statement (cs : List Char) : Option (Stmt × List Char) :=
  dispatch (openings inner) cs

end Inner

/-- The line closes the statements before it, or no line follows. -/
def closes (cs : List Char) : Bool :=
  cs.isEmpty || (skip "#end" cs).isSome || (skip "#else" cs).isSome ||
    (skip "## [End] " cs).isSome

/-- Reads statements up to what closes them, with at most so many and as deep. -/
def statements : Nat → Reader (List Stmt)
  | 0, _ => none
  | n + 1, cs =>
    if closes (skipBlanks cs) then some ([], cs)
    else do
      let (s, cs) ← statement (statements n) (skipBlanks cs)
      let (ss, cs) ← statements n cs
      some (s :: ss, cs)

end Reader

/-- The characters of a text in lines, each line with its end. -/
def endedLines (s : String) : List Char :=
  if s.isEmpty then [] else s.toList ++ ['\n']

/-- The statements with a text. -/
def readStatements (s : String) : Option (List Stmt) :=
  match Reader.statements (s.length + 2) (endedLines s) with
  | some (ss, []) => some ss
  | _ => none

namespace Reader

/-! ## Reading back what was written -/

lemma expression_append {e : Expr} {us rest : List Char} (he : e.isReadable = true)
    (hs : e.Spells us) (hrest : Ends rest) : expression (us ++ rest) = some (e.flat, rest) :=
  (reads_expr _).read he hs (by rw [List.length_append]; omega) hrest

/-- The characters of lines, each with its end. -/
def chars (lines : List String) : List Char :=
  lines.flatMap fun line => line.toList ++ ['\n']

lemma skipBlanks_indent (depth : Nat) {cs : List Char} (hcs : cs.head? ≠ some ' ') :
    skipBlanks ((Stmt.indent depth).toList ++ cs) = cs := by
  have hall : ∀ c ∈ List.replicate (2 * depth) ' ', (c == ' ') = true := by
    intro c hc
    rw [(List.mem_replicate.mp hc).2]
    rfl
  rw [skipBlanks, Stmt.indent, String.toList_ofList, List.dropWhile_append_of_pos hall]
  cases cs with
  | nil => rfl
  | cons c cs =>
    rw [List.dropWhile_cons_of_neg]
    simpa using hcs

section Dispatch

variable {α : Type} {opening : String} {p : Reader α} {table : List (String × Reader α)}
  {cs : List Char}

lemma dispatch_append : dispatch ((opening, p) :: table) (opening.toList ++ cs) = p cs := by
  rw [dispatch, skip_append]

lemma dispatch_of_none (h : skip opening cs = none) :
    dispatch ((opening, p) :: table) cs = dispatch table cs := by
  rw [dispatch, h]

/-- What was read began with one of the texts. -/
lemma exists_opening {x : α × List Char} (h : dispatch table cs = some x) :
    ∃ opening ∈ table.map Prod.fst, ∃ rest, cs = opening.toList ++ rest := by
  induction table with
  | nil => cases h
  | cons entry table ih =>
    rw [dispatch] at h
    cases hskip : skip entry.1 cs with
    | some rest => exact ⟨entry.1, List.mem_cons_self, rest, skip_eq_some hskip⟩
    | none =>
      rw [hskip] at h
      obtain ⟨opening, hmem, hrest⟩ := ih h
      exact ⟨opening, List.mem_cons_of_mem _ hmem, hrest⟩

end Dispatch

/-- A statement does not look like the end of the statements before it. -/
lemma statement_opens {inner : Reader (List Stmt)} {cs : List Char} {x : Stmt × List Char}
    (h : statement inner cs = some x) : cs.head? ≠ some ' ' ∧ closes cs = false := by
  obtain ⟨opening, hmem, rest, rfl⟩ := exists_opening h
  simp only [openings, List.map_cons, List.map_nil, List.mem_cons, List.not_mem_nil,
    or_false] at hmem
  rcases hmem with rfl | rfl | rfl | rfl | rfl | rfl | rfl <;> exact ⟨by simp, rfl⟩

lemma statements_cons {n : Nat} (depth : Nat) {cs rest : List Char} {s : Stmt}
    (h : statement (statements n) cs = some (s, rest)) :
    statements (n + 1) ((Stmt.indent depth).toList ++ cs) =
      (statements n rest).map (Prod.map (s :: ·) id) := by
  obtain ⟨hblank, hcloses⟩ := statement_opens h
  rw [statements, skipBlanks_indent depth hblank, hcloses, h, if_neg Bool.false_ne_true]
  change (do
    let (ss, cs) ← statements n rest
    some (s :: ss, cs)) = _
  cases statements n rest <;> rfl

lemma statements_closed {n : Nat} (depth : Nat) {cs : List Char} (hcs : cs.head? ≠ some ' ')
    (h : closes cs = true) : statements (n + 1) ((Stmt.indent depth).toList ++ cs) =
      some ([], (Stmt.indent depth).toList ++ cs) := by
  rw [statements, skipBlanks_indent depth hcs, h]
  rfl

/-! ### Lines -/

section Lines

variable {target key value e message type : Expr} {ts ks vs us : List Char}

lemma assignment_append (ht : target.isReadable = true) (hts : target.Spells ts)
    (hv : value.isReadable = true) (hvs : value.Spells vs) (rest : List Char) :
    assignment (ts ++ (" = ".toList ++ (vs ++ (" )\n".toList ++ rest)))) =
      some (.set target.flat value.flat, rest) := by
  simp only [assignment, expression_append ht hts (ends_assignment _),
    expression_append hv hvs (ends_directive _), skip_append, Option.bind_eq_bind,
    Option.bind_some]

/-- A path with a name after it is read up to the bracket, and the path is what stands before
the name. -/
lemma path_method {path : String} (method : String) (hpath : isPath path = true)
    (hmethod : isPath method = true) (rest : List Char) :
    Reader.path (path.toList ++ (method.toList ++ '(' :: rest)) =
        (path.toList ++ method.toList, '(' :: rest) ∧
      (path.toList ++ method.toList).dropSuffix? method.toList = some path.toList := by
  constructor
  · have hread := isPath_iff.mp (isPath_append hpath hmethod)
    rw [String.toList_append] at hread
    rw [← List.append_assoc]
    exact path_append hread rfl
  · exact List.dropSuffix?_eq_some_iff.mpr ⟨_, rfl, BEq.refl _⟩

lemma put_append {path : String} (hpath : isPath path = true) (hk : key.isReadable = true)
    (hks : key.Spells ks) (hv : value.isReadable = true) (hvs : value.Spells vs)
    (rest : List Char) :
    put (path.toList ++ (".put".toList ++ '(' ::
        (ks ++ (", ".toList ++ (vs ++ ("))\n".toList ++ rest)))))) =
      some (putOf path.toList key.flat value.flat, rest) := by
  obtain ⟨hread, hdrop⟩ := path_method ".put" hpath (by decide)
    (ks ++ (", ".toList ++ (vs ++ ("))\n".toList ++ rest))))
  simp only [put, hread, hdrop, expression_append hk hks (ends_comma _),
    expression_append hv hvs (ends_put _), skip_append, Option.bind_eq_bind, Option.bind_some]

lemma putAll_append {path : String} (hpath : isPath path = true)
    (hv : value.isReadable = true) (hvs : value.Spells vs) (rest : List Char) :
    put (path.toList ++ (".putAll".toList ++ '(' :: (vs ++ ("))\n".toList ++ rest)))) =
      some (.putAll (.ref path) value.flat, rest) := by
  obtain ⟨hread, hdrop⟩ := path_method ".putAll" hpath (by decide)
    (vs ++ ("))\n".toList ++ rest))
  have hput : (path.toList ++ ".putAll".toList).dropSuffix? ".put".toList = none := by
    cases h : (path.toList ++ ".putAll".toList).dropSuffix? ".put".toList with
    | none => rfl
    | some target =>
      obtain ⟨us, hus, hput⟩ := List.dropSuffix?_eq_some_iff.mp h
      rw [eq_of_beq hput] at hus
      -- the last characters differ
      have hlast := congrArg List.getLast? hus
      rw [List.getLast?_append, List.getLast?_append] at hlast
      simp at hlast
  simp only [put, hread, hdrop, hput, expression_append hv hvs (ends_put _), skip_append,
    Option.bind_eq_bind, Option.bind_some, String.ofList_toList]

lemma raised_append (hm : message.isReadable = true) (hms : message.Spells us)
    (rest : List Char) :
    raised (us ++ (")\n".toList ++ rest)) = some (.error message.flat none, rest) := by
  simp only [raised, expression_append hm hms (ends_call _), skip_append, Option.bind_eq_bind,
    Option.bind_some]

lemma raised_append_type (hm : message.isReadable = true) (hms : message.Spells us)
    (ht : type.isReadable = true) (hts : type.Spells ts) (rest : List Char) :
    raised (us ++ (", ".toList ++ (ts ++ (")\n".toList ++ rest)))) =
      some (.error message.flat (some type.flat), rest) := by
  have hnone : skip ")\n" (", ".toList ++ (ts ++ (")\n".toList ++ rest))) = none := rfl
  simp only [raised, expression_append hm hms (ends_comma _), hnone,
    expression_append ht hts (ends_call _), skip_append, Option.bind_eq_bind, Option.bind_some]

lemma output_append (hv : value.isReadable = true) (hvs : value.Spells vs) (rest : List Char) :
    output (vs ++ (")\n".toList ++ rest)) = some (.emit value.flat, rest) := by
  simp only [output, expression_append hv hvs (ends_call _), skip_append, Option.bind_eq_bind,
    Option.bind_some]

end Lines

section Bodies

variable {inner : Reader (List Stmt)} {e : Expr} {us bs os rest : List Char}
  {body otherwise : List Stmt} {depth : Nat}

/-- What a closing line is read as. -/
lemma skip_closing (depth : Nat) {closing : String} {c : Char} {cs : List Char}
    (hclosing : closing.toList = c :: cs) (hc : c ≠ ' ') (rest : List Char) :
    skip closing (skipBlanks ((Stmt.indent depth).toList ++ (closing.toList ++ rest))) =
      some rest := by
  rw [skipBlanks_indent depth (by simpa [hclosing] using hc), skip_append]

lemma closed_append {closing : String} {c : Char} {cs : List Char}
    (hclosing : closing.toList = c :: cs) (hc : c ≠ ' ')
    (hbody : inner (bs ++ ((Stmt.indent depth).toList ++ (closing.toList ++ rest))) =
      some (body, (Stmt.indent depth).toList ++ (closing.toList ++ rest))) :
    closed inner closing (bs ++ ((Stmt.indent depth).toList ++ (closing.toList ++ rest))) =
      some (body, rest) := by
  simp only [closed, hbody, skip_closing depth hclosing hc, Option.bind_eq_bind,
    Option.bind_some]

lemma choice_append (he : e.isReadable = true) (hs : e.Spells us)
    (hbody : inner (bs ++ ((Stmt.indent depth).toList ++ ("#end\n".toList ++ rest))) =
      some (body, (Stmt.indent depth).toList ++ ("#end\n".toList ++ rest))) :
    choice inner (us ++ (" )\n".toList ++
        (bs ++ ((Stmt.indent depth).toList ++ ("#end\n".toList ++ rest))))) =
      some (.choice e.flat body none, rest) := by
  have hnone : skip "#else\n"
      (skipBlanks ((Stmt.indent depth).toList ++ ("#end\n".toList ++ rest))) = none := by
    rw [skipBlanks_indent depth (by simp)]
    rfl
  simp only [choice, expression_append he hs (ends_directive _), hbody, hnone,
    skip_closing depth (rfl : "#end\n".toList = '#' :: _) (by decide), skip_append,
    Option.bind_eq_bind, Option.bind_some]

lemma choice_append_else (he : e.isReadable = true) (hs : e.Spells us)
    (hbody : inner (bs ++ ((Stmt.indent depth).toList ++ ("#else\n".toList ++
        (os ++ ((Stmt.indent depth).toList ++ ("#end\n".toList ++ rest)))))) =
      some (body, (Stmt.indent depth).toList ++ ("#else\n".toList ++
        (os ++ ((Stmt.indent depth).toList ++ ("#end\n".toList ++ rest))))))
    (hotherwise : inner (os ++ ((Stmt.indent depth).toList ++ ("#end\n".toList ++ rest))) =
      some (otherwise, (Stmt.indent depth).toList ++ ("#end\n".toList ++ rest))) :
    choice inner (us ++ (" )\n".toList ++ (bs ++ ((Stmt.indent depth).toList ++
        ("#else\n".toList ++
          (os ++ ((Stmt.indent depth).toList ++ ("#end\n".toList ++ rest)))))))) =
      some (.choice e.flat body (some otherwise), rest) := by
  simp only [choice, expression_append he hs (ends_directive _), hbody,
    skip_closing depth (rfl : "#else\n".toList = '#' :: _) (by decide), skip_append,
    closed_append (rfl : "#end\n".toList = '#' :: _) (by decide) hotherwise,
    Option.bind_eq_bind, Option.bind_some]

lemma loop_append {name : String} (hname : name.toList.all isWord = true)
    (he : e.isReadable = true) (hs : e.Spells us)
    (hbody : inner (bs ++ ((Stmt.indent depth).toList ++ ("#end\n".toList ++ rest))) =
      some (body, (Stmt.indent depth).toList ++ ("#end\n".toList ++ rest))) :
    loop inner (name.toList ++ (" in ".toList ++ (us ++ (" )\n".toList ++
        (bs ++ ((Stmt.indent depth).toList ++ ("#end\n".toList ++ rest))))))) =
      some (.forEach name e.flat body, rest) := by
  have hall := List.all_eq_true.mp hname
  have htake : ∀ cs, (" in ".toList ++ cs).takeWhile isWord = [] := fun _ => rfl
  have hdrop : ∀ cs, (" in ".toList ++ cs).dropWhile isWord = " in ".toList ++ cs := fun _ => rfl
  simp only [loop, List.takeWhile_append_of_pos hall, List.dropWhile_append_of_pos hall, htake,
    hdrop, List.append_nil, String.ofList_toList, expression_append he hs (ends_directive _),
    skip_append, closed_append (rfl : "#end\n".toList = '#' :: _) (by decide) hbody,
    Option.bind_eq_bind, Option.bind_some]

lemma block_append {name : String} (hname : '\n' ∉ name.toList)
    (hbody : inner (bs ++ ((Stmt.indent depth).toList ++
        (("## [End] " ++ name ++ ". **\n").toList ++ rest))) =
      some (body, (Stmt.indent depth).toList ++
        (("## [End] " ++ name ++ ". **\n").toList ++ rest))) :
    block inner (name.toList ++ (". **\n".toList ++ (bs ++ ((Stmt.indent depth).toList ++
        (("## [End] " ++ name ++ ". **\n").toList ++ rest))))) =
      some (.block name body, rest) := by
  have hall : ∀ c ∈ name.toList ++ ". **".toList, (c != '\n') = true := by
    intro c hc
    refine bne_iff_ne.mpr ?_
    rintro rfl
    rcases List.mem_append.mp hc with hc | hc
    · exact hname hc
    · exact absurd hc (by decide)
  have hdrop : (name.toList ++ ". **".toList).dropSuffix? ". **".toList = some name.toList :=
    List.dropSuffix?_eq_some_iff.mpr ⟨_, rfl, BEq.refl _⟩
  have hend : ("## [End] " ++ name ++ ". **\n").toList =
      '#' :: ("# [End] " ++ name ++ ". **\n").toList := by simp
  have htext : ∀ cs, name.toList ++ (". **\n".toList ++ cs) =
      (name.toList ++ ". **".toList) ++ ("\n".toList ++ cs) := by simp
  have htake : ∀ cs, ("\n".toList ++ cs).takeWhile (· != '\n') = [] := fun _ => rfl
  have hstop : ∀ cs, ("\n".toList ++ cs).dropWhile (· != '\n') = "\n".toList ++ cs :=
    fun _ => rfl
  rw [htext]
  simp only [block, List.takeWhile_append_of_pos hall, List.dropWhile_append_of_pos hall, htake,
    hstop, List.append_nil, hdrop, skip_append, String.ofList_toList,
    closed_append hend (by decide) hbody, Option.bind_eq_bind, Option.bind_some]

end Bodies

/-! ### Statements -/

lemma chars_append (lines lines' : List String) :
    chars (lines ++ lines') = chars lines ++ chars lines' :=
  List.flatMap_append

lemma chars_cons (line : String) (lines : List String) :
    chars (line :: lines) = line.toList ++ ('\n' :: chars lines) := by
  rw [chars, List.flatMap_cons, List.append_assoc]
  rfl

lemma closes_end (name : String) (rest : List Char) :
    closes (("## [End] " ++ name ++ ". **\n").toList ++ rest) = true := by
  have hskip : skip "## [End] " (("## [End] " ++ name ++ ". **\n").toList ++ rest) =
      some (name.toList ++ (". **\n".toList ++ rest)) := by
    rw [String.toList_append, String.toList_append, List.append_assoc, List.append_assoc,
      skip_append]
  rw [closes, hskip, Option.isSome_some, Bool.or_true]

/-- The lines are read as these statements, of which there are at most as many, if no more steps
are at hand than lines. -/
structure ReadBack (ts : List Stmt) (lines : List String) : Prop where
  short : ts.length ≤ lines.length
  read : ∀ {n : Nat} (rest : List Char), lines.length < n + ts.length →
    statements (n + ts.length) (chars lines ++ rest) =
      (statements n rest).map (Prod.map (ts ++ ·) id)

namespace ReadBack

variable {ts us : List Stmt} {lines lines' : List String} {t : Stmt} {n depth : Nat}

lemma nil : ReadBack [] [] := by
  refine ⟨Nat.le_refl _, fun {n} rest _ => ?_⟩
  change statements n rest = _
  cases statements n rest <;> rfl

lemma append (h : ReadBack ts lines) (h' : ReadBack us lines') :
    ReadBack (ts ++ us) (lines ++ lines') := by
  have hshort := h.short
  have hshort' := h'.short
  refine ⟨by rw [List.length_append, List.length_append]; omega, fun {n} rest hn => ?_⟩
  rw [List.length_append, List.length_append] at hn
  rw [List.length_append, Nat.add_comm ts.length, ← Nat.add_assoc, chars_append,
    List.append_assoc, h.read _ (by omega), h'.read _ (by omega), Option.map_map]
  congr 1
  funext x
  exact Prod.ext (List.append_assoc ..).symm rfl

/-- Statements are read up to the line that closes them. -/
lemma closed (h : ReadBack ts lines) (depth : Nat) {cs : List Char} (hcs : cs.head? ≠ some ' ')
    (hcloses : closes cs = true) (hn : lines.length < n) :
    statements n (chars lines ++ ((Stmt.indent depth).toList ++ cs)) =
      some (ts, (Stmt.indent depth).toList ++ cs) := by
  have hshort := h.short
  obtain ⟨k, rfl⟩ : ∃ k, n = k + 1 + ts.length := ⟨n - 1 - ts.length, by omega⟩
  rw [h.read _ (by omega), statements_closed depth hcs hcloses]
  exact congrArg some (Prod.ext (List.append_nil ts) rfl)

lemma closed_end (h : ReadBack ts lines) (depth : Nat) (rest : List Char)
    (hn : lines.length < n) :
    statements n (chars lines ++ ((Stmt.indent depth).toList ++ ("#end\n".toList ++ rest))) =
      some (ts, (Stmt.indent depth).toList ++ ("#end\n".toList ++ rest)) :=
  h.closed depth (by simp) rfl hn

lemma closed_else (h : ReadBack ts lines) (depth : Nat) (rest : List Char)
    (hn : lines.length < n) :
    statements n (chars lines ++ ((Stmt.indent depth).toList ++ ("#else\n".toList ++ rest))) =
      some (ts, (Stmt.indent depth).toList ++ ("#else\n".toList ++ rest)) :=
  h.closed depth (by simp) rfl hn

lemma closed_block (h : ReadBack ts lines) (depth : Nat) (name : String) (rest : List Char)
    (hn : lines.length < n) :
    statements n (chars lines ++ ((Stmt.indent depth).toList ++
        (("## [End] " ++ name ++ ". **\n").toList ++ rest))) =
      some (ts, (Stmt.indent depth).toList ++
        (("## [End] " ++ name ++ ". **\n").toList ++ rest)) :=
  h.closed depth (by simp) (closes_end name rest) hn

/-- A statement, with the text of its first line and the lines after it. -/
lemma single (depth : Nat) {head : String} {tail : List String}
    (hread : ∀ {n : Nat} (rest : List Char), tail.length < n →
      statement (statements n) (head.toList ++ '\n' :: (chars tail ++ rest)) = some (t, rest)) :
    ReadBack [t] (Stmt.line depth head :: tail) := by
  refine ⟨by simp, fun {n} rest hn => ?_⟩
  rw [chars_cons, Stmt.line, String.toList_append, List.append_assoc, List.append_assoc]
  exact statements_cons depth (hread rest (Nat.lt_of_succ_lt_succ hn))

/-- A statement of one line. -/
lemma line (depth : Nat) {text : String} (hread : ∀ inner rest,
      statement inner (text.toList ++ '\n' :: rest) = some (t, rest)) :
    ReadBack [t] [Stmt.line depth text] :=
  single depth fun rest _ => hread _ rest

end ReadBack

section Openings

variable (inner : Reader (List Stmt)) (cs : List Char)

lemma statement_set : statement inner ("#set( ".toList ++ cs) = assignment cs := by
  rw [statement, openings, dispatch_append]

lemma statement_put : statement inner ("$util.qr($".toList ++ cs) = put cs := by
  rw [statement, openings, dispatch_of_none rfl, dispatch_append]

lemma statement_error : statement inner ("$util.error(".toList ++ cs) = raised cs := by
  rw [statement, openings, dispatch_of_none rfl, dispatch_of_none rfl, dispatch_append]

lemma statement_emit : statement inner ("$util.toJson(".toList ++ cs) = output cs := by
  rw [statement, openings, dispatch_of_none rfl, dispatch_of_none rfl, dispatch_of_none rfl,
    dispatch_append]

lemma statement_choice : statement inner ("#if( ".toList ++ cs) = choice inner cs := by
  rw [statement, openings, dispatch_of_none rfl, dispatch_of_none rfl, dispatch_of_none rfl,
    dispatch_of_none rfl, dispatch_append]

lemma statement_loop : statement inner ("#foreach( $".toList ++ cs) = loop inner cs := by
  rw [statement, openings, dispatch_of_none rfl, dispatch_of_none rfl, dispatch_of_none rfl,
    dispatch_of_none rfl, dispatch_of_none rfl, dispatch_append]

lemma statement_block : statement inner ("## [Start] ".toList ++ cs) = block inner cs := by
  rw [statement, openings, dispatch_of_none rfl, dispatch_of_none rfl, dispatch_of_none rfl,
    dispatch_of_none rfl, dispatch_of_none rfl, dispatch_of_none rfl, dispatch_append]

end Openings

mutual

/-- The lines of a statement are read as the statement. -/
theorem readBack_lines : ∀ (s : Stmt) {depth : Nat} {lines : List String},
    s.isReadable = true → s.lines depth = .ok lines → ReadBack s.flat lines
  | .compound body, depth, lines, hs, h => readBack_linesOfAll body hs h
  | .block name body, depth, lines, hs, h => by
    obtain ⟨body', hbody, h⟩ := exists_of_bind_eq_ok h
    obtain rfl := Except.ok.inj h
    obtain ⟨hname, hs⟩ := Bool.and_eq_true_iff.mp hs
    refine .single depth fun {n} rest hn => ?_
    have hn : body'.length + 1 < n := by simpa using hn
    have hread := block_append (by simpa using hname)
      ((readBack_linesOfAll body hs hbody).closed_block (n := n) depth name rest
        (by omega))
    rw [← statement_block] at hread
    simpa [chars, Stmt.line] using hread
  | .set (.ref path) value, depth, lines, hs, h => by
    obtain ⟨t, ht, h⟩ := exists_of_bind_eq_ok h
    obtain ⟨v, hv, h⟩ := exists_of_bind_eq_ok h
    obtain rfl := Except.ok.inj h
    obtain ⟨hpath, hvalue⟩ := Bool.and_eq_true_iff.mp hs
    have htarget : (Expr.ref path).isReadable = true := hpath
    refine .line depth fun inner rest => ?_
    have hread := assignment_append htarget (.of_print ht) hvalue (.of_print hv) rest
    rw [← statement_set inner] at hread
    simpa using hread
  | .mapPut (.ref path) key value, depth, lines, hs, h => by
    obtain ⟨t, ht, h⟩ := exists_of_bind_eq_ok h
    obtain ⟨k, hk, h⟩ := exists_of_bind_eq_ok h
    obtain ⟨v, hv, h⟩ := exists_of_bind_eq_ok h
    obtain rfl := Except.ok.inj h
    obtain rfl := Except.ok.inj ht
    simp only [Stmt.isReadable, Bool.and_eq_true, Bool.not_eq_true'] at hs
    obtain ⟨⟨⟨hpath, hmetadata⟩, hkey⟩, hvalue⟩ := hs
    refine .line depth fun inner rest => ?_
    have hread := put_append hpath hkey (.of_print hk) hvalue (.of_print hv) rest
    rw [putOf_of_map hmetadata, ← statement_put inner] at hread
    simpa [Stmt.flat] using hread
  | .putAll (.ref path) value, depth, lines, hs, h => by
    obtain ⟨t, ht, h⟩ := exists_of_bind_eq_ok h
    obtain ⟨v, hv, h⟩ := exists_of_bind_eq_ok h
    obtain rfl := Except.ok.inj h
    obtain rfl := Except.ok.inj ht
    obtain ⟨hpath, hvalue⟩ := Bool.and_eq_true_iff.mp hs
    refine .line depth fun inner rest => ?_
    have hread := putAll_append hpath hvalue (.of_print hv) rest
    rw [← statement_put inner] at hread
    simpa using hread
  | .metadataPut name value, depth, lines, hs, h => by
    obtain ⟨v, hv, h⟩ := exists_of_bind_eq_ok h
    obtain rfl := Except.ok.inj h
    obtain ⟨hname, hvalue⟩ := Bool.and_eq_true_iff.mp hs
    have hpath : isPath Stmt.metadataPath = true := by decide
    have hkey : (Expr.text name).isReadable = true := hname
    refine .line depth fun inner rest => ?_
    have hread := put_append hpath hkey (.of_print rfl) hvalue (.of_print hv) rest
    rw [Expr.flat_text, putOf_metadataPath, ← statement_put inner] at hread
    simpa [Stmt.metadataPath] using hread
  | .choice condition body none, depth, lines, hs, h => by
    obtain ⟨c, hc, h⟩ := exists_of_bind_eq_ok h
    obtain ⟨body', hbody, h⟩ := exists_of_bind_eq_ok h
    cases h
    obtain ⟨hcondition, hs⟩ := Bool.and_eq_true_iff.mp hs
    refine .single depth fun {n} rest hn => ?_
    have hn : body'.length + 1 < n := by simpa using hn
    have hread := choice_append hcondition (.of_print hc)
      ((readBack_linesOfAll body hs hbody).closed_end (n := n) depth rest (by omega))
    rw [← statement_choice] at hread
    simpa [chars, Stmt.line] using hread
  | .choice condition body (some otherwise), depth, lines, hs, h => by
    obtain ⟨c, hc, h⟩ := exists_of_bind_eq_ok h
    obtain ⟨body', hbody, h⟩ := exists_of_bind_eq_ok h
    obtain ⟨others, hothers, h⟩ := exists_of_bind_eq_ok h
    obtain ⟨otherwise', hotherwise, hlines⟩ := exists_of_map_eq_ok hothers
    obtain rfl := Except.ok.inj h
    subst hlines
    simp only [Stmt.isReadable, Bool.and_eq_true] at hs
    obtain ⟨⟨hcondition, hs⟩, hss⟩ := hs
    refine .single depth fun {n} rest hn => ?_
    have hn : body'.length + otherwise'.length + 2 < n := by
      simp at hn
      omega
    have hread := choice_append_else hcondition (.of_print hc)
      ((readBack_linesOfAll body hs hbody).closed_else (n := n) depth _ (by omega))
      ((readBack_linesOfAll otherwise hss hotherwise).closed_end (n := n) depth rest (by omega))
    rw [← statement_choice] at hread
    simpa [chars, Stmt.line] using hread
  | .forEach name items body, depth, lines, hs, h => by
    obtain ⟨e, he, h⟩ := exists_of_bind_eq_ok h
    obtain ⟨body', hbody, h⟩ := exists_of_bind_eq_ok h
    obtain rfl := Except.ok.inj h
    obtain ⟨hs, hss⟩ := Bool.and_eq_true_iff.mp hs
    obtain ⟨hname, hitems⟩ := Bool.and_eq_true_iff.mp hs
    refine .single depth fun {n} rest hn => ?_
    have hn : body'.length + 1 < n := by simpa using hn
    have hread := loop_append hname hitems (.of_print he)
      ((readBack_linesOfAll body hss hbody).closed_end (n := n) depth rest (by omega))
    rw [← statement_loop] at hread
    simpa [chars, Stmt.line] using hread
  | .error message none, depth, lines, hs, h => by
    obtain ⟨m, hm, h⟩ := exists_of_bind_eq_ok h
    obtain rfl := Except.ok.inj h
    refine .line depth fun inner rest => ?_
    have hread := raised_append hs (.of_print hm) rest
    rw [← statement_error inner] at hread
    simpa using hread
  | .error message (some type), depth, lines, hs, h => by
    obtain ⟨m, hm, h⟩ := exists_of_bind_eq_ok h
    obtain ⟨t, ht, h⟩ := exists_of_bind_eq_ok h
    obtain ⟨t', ht', htext⟩ := exists_of_map_eq_ok ht
    obtain rfl := Except.ok.inj h
    subst htext
    obtain ⟨hmessage, htype⟩ := Bool.and_eq_true_iff.mp hs
    refine .line depth fun inner rest => ?_
    have hread := raised_append_type hmessage (.of_print hm) htype (.of_print ht') rest
    rw [← statement_error inner] at hread
    simpa using hread
  | .emit value, depth, lines, hs, h => by
    obtain ⟨v, hv, h⟩ := exists_of_bind_eq_ok h
    obtain rfl := Except.ok.inj h
    refine .line depth fun inner rest => ?_
    have hread := output_append hs (.of_print hv) rest
    rw [← statement_emit inner] at hread
    simpa using hread

/-- The lines of statements are read as the statements. -/
theorem readBack_linesOfAll : ∀ (ss : List Stmt) {depth : Nat} {lines : List String},
    Stmt.areReadable ss = true → Stmt.linesOfAll depth ss = .ok lines →
    ReadBack (Stmt.flatAll ss) lines
  | [], _, _, _, h => by
    obtain rfl := Except.ok.inj h
    exact .nil
  | s :: ss, depth, lines, hs, h => by
    obtain ⟨hs, hss⟩ := Bool.and_eq_true_iff.mp hs
    obtain ⟨first, hfirst, h⟩ := exists_of_bind_eq_ok h
    obtain ⟨others, hothers, h⟩ := exists_of_bind_eq_ok h
    obtain rfl := Except.ok.inj h
    exact (readBack_lines s hs hfirst).append (readBack_linesOfAll ss hss hothers)

end

/-! ### Whole texts -/

lemma chars_eq_intercalate {lines : List String} (hne : lines ≠ []) :
    chars lines = ("\n".intercalate lines).toList ++ ['\n'] := by
  rw [String.toList_intercalate]
  induction lines with
  | nil => exact absurd rfl hne
  | cons line lines ih =>
    cases lines with
    | nil => simp [chars]
    | cons line' lines =>
      rw [chars_cons, ih (by simp), List.map_cons, List.map_cons, List.map_cons,
        List.intercalate_cons_cons]
      simp

lemma length_le_chars (lines : List String) : lines.length ≤ (chars lines).length := by
  induction lines with
  | nil => exact Nat.le_refl _
  | cons line lines ih =>
    rw [chars_cons, List.length_append, List.length_cons, List.length_cons]
    omega

lemma length_endedLines_le (s : String) : (endedLines s).length ≤ s.length + 1 := by
  rw [endedLines]
  split
  · exact Nat.zero_le _
  · rw [List.length_append, String.length_toList]
    exact Nat.le_refl _

lemma statements_nil (n : Nat) : statements (n + 1) [] = some ([], []) := rfl

/-- A line without a statement is not read. -/
lemma statements_newline (n : Nat) : statements n ['\n'] = none := by
  cases n <;> rfl

/-- Lines that are read as statements to the end have no empty text. -/
lemma ReadBack.chars_eq {ts : List Stmt} {lines : List String} (h : ReadBack ts lines) :
    chars lines = endedLines ("\n".intercalate lines) := by
  by_cases hne : lines = []
  · subst hne
    rfl
  · have hchars := chars_eq_intercalate hne
    rw [endedLines]
    split
    · rename_i hempty
      -- otherwise the only line would be empty
      rw [String.isEmpty_iff.mp hempty] at hchars
      have hread := h.read (n := lines.length + 1) [] (by omega)
      rw [hchars] at hread
      simp [statements_newline, statements_nil] at hread
    · exact hchars

end Reader

/-- **A readable statement is read back from its text**, with flat expressions and the
statements of compounds in their place. -/
theorem readStatements_of_print {s : Stmt} {t : String} (hs : s.isReadable = true)
    (ht : s.print = .ok t) : readStatements t = some s.flat := by
  obtain ⟨lines, hlines, ht⟩ := exists_of_bind_eq_ok ht
  obtain rfl := Except.ok.inj ht
  have hback := Reader.readBack_lines s hs hlines
  have hlength : lines.length ≤ ("\n".intercalate lines).length + 1 := calc
    lines.length ≤ (Reader.chars lines).length := Reader.length_le_chars lines
    _ = (endedLines ("\n".intercalate lines)).length := by rw [hback.chars_eq]
    _ ≤ ("\n".intercalate lines).length + 1 := Reader.length_endedLines_le _
  have hshort := hback.short
  obtain ⟨n, hn⟩ : ∃ n, ("\n".intercalate lines).length + 2 = n + 1 + s.flat.length :=
    ⟨("\n".intercalate lines).length + 1 - s.flat.length, by omega⟩
  have hread := hback.read (n := n + 1) [] (by omega)
  rw [List.append_nil, hback.chars_eq, ← hn, Reader.statements_nil] at hread
  rw [readStatements, hread]
  exact congrArg some (List.append_nil _)

namespace Reader

/-- No expression begins like a statement. -/
lemma expr_of_opening {inner : Reader (List Stmt)} {opening : String}
    (h : opening ∈ (openings inner).map Prod.fst) (n : Nat) (rest : List Char) :
    expr n (opening.toList ++ rest) = none := by
  have hcall : ∀ (text name : String), text = "$" ++ name ++ "(" → isPath name = true →
      (∀ inner rest, call inner name.toList rest = none) →
      ∀ rest, expr n (text.toList ++ rest) = none := by
    intro text name htext hname hcall rest
    refine expr_of_atom (by simp [htext]) fun n => ?_
    rw [atom_call text name htext hname, hcall]
  simp only [openings, List.map_cons, List.map_nil, List.mem_cons, List.not_mem_nil,
    or_false] at h
  rcases h with rfl | rfl | rfl | rfl | rfl | rfl | rfl
  · exact expr_of_atom (by simp) fun _ => rfl
  · have htext : "$util.qr($".toList = "$util.qr(".toList ++ "$".toList := by simp
    rw [htext, List.append_assoc]
    exact hcall "$util.qr(" "util.qr" rfl (by decide) (fun _ _ => rfl) _
  · exact hcall "$util.error(" "util.error" rfl (by decide) (fun _ _ => rfl) rest
  · exact hcall "$util.toJson(" "util.toJson" rfl (by decide) (fun _ _ => rfl) rest
  · exact expr_of_atom (by simp) fun _ => rfl
  · exact expr_of_atom (by simp) fun _ => rfl
  · exact expr_of_atom (by simp) fun _ => rfl

lemma expr_blank (n : Nat) (rest : List Char) : expr n (' ' :: rest) = none :=
  expr_of_atom (by simp) fun _ => rfl

/-- What is read as statements to the end is not read as an expression. -/
lemma expr_of_statements {m : Nat} {cs : List Char} {ss : List Stmt} (hne : cs ≠ [])
    (h : statements m cs = some (ss, [])) (n : Nat) : expr n cs = none := by
  cases m with
  | zero => cases h
  | succ m =>
    rw [statements] at h
    split at h
    · exact absurd (Prod.mk.inj (Option.some.inj h)).2 hne
    · cases hstatement : statement (statements m) (skipBlanks cs) with
      | none =>
        rw [hstatement] at h
        cases h
      | some x =>
        obtain ⟨opening, hmem, rest, hrest⟩ := exists_opening hstatement
        obtain ⟨c, cs, rfl⟩ := List.exists_cons_of_ne_nil hne
        by_cases hc : c = ' '
        · rw [hc]
          exact expr_blank n cs
        · rw [skipBlanks, List.dropWhile_cons_of_neg (by simpa using hc)] at hrest
          rw [hrest]
          exact expr_of_opening hmem n rest

end Reader

/-- No readable statement has the text of a readable expression. -/
theorem print_ne_of_expr {e : Expr} {s : Stmt} {t : String} (he : e.isReadable = true)
    (hs : s.isReadable = true) (ht : e.print = .ok t) : s.print ≠ .ok t := by
  intro hst
  have hread := (Reader.reads_expr (t.length + 1)).read he (.of_print ht)
    (by rw [String.length_toList]; exact Nat.lt_succ_self _) (Reader.ends_newline [])
  have hstatements := readStatements_of_print hs hst
  rw [readStatements, endedLines] at hstatements
  split at hstatements
  · rename_i hmatch
    split at hmatch
    · rename_i hempty
      have hexpr := readExpr_of_print he ht
      rw [String.isEmpty_iff.mp hempty] at hexpr
      cases hexpr
    · rw [Reader.expr_of_statements (by simp) hmatch] at hread
      cases hread
  · cases hstatements

end TableKeys.Template
