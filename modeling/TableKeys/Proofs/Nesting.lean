/-
# Templates are well nested

Of the lines of a template only the directives matter here: `#if` and `#foreach` open, `#else`
turns an open choice to its other side, and `#end` closes what was opened last. Reading line after
line with a stack of what is open (`nest`) fails where a line turns or closes nothing, where a
choice is turned twice, and where a line is not indented by two blanks for each open directive;
`#else` and `#end` stand as deep as the line that they belong to.

What a statement is written as leaves every stack of the height of its depth as it was
(`NestedAt`). That holds of a single line, of lines one after the other, and of lines between an
opening and an end, so it holds of every statement by induction on the tree.

* `wellNested_render`: the text of a template is well nested, and after each stage nothing is open.
-/
import TableKeys.Proofs.StmtReader
import TableKeys.Proofs.Unbroken
import TableKeys.Resolver

namespace TableKeys.Template

/-! ## Reading lines with a stack -/

/-- A directive that is open: a choice, before or after its `#else`, or a loop. -/
inductive Opened where
  | choice
  | alternative
  | loop
deriving DecidableEq, Repr

/-- What a line does to the open directives. -/
inductive LineKind where
  | opens (directive : Opened)
  | turns
  | closes
  | plain
deriving DecidableEq, Repr

namespace LineKind

/-- The kind of a line, which its first characters tell. -/
def ofChars (cs : List Char) : LineKind :=
  if "#if(".toList.isPrefixOf cs then opens .choice
  else if "#foreach(".toList.isPrefixOf cs then opens .loop
  else if "#else".toList.isPrefixOf cs then turns
  else if "#end".toList.isPrefixOf cs then closes
  else plain

/-- How many directives are around a line, and what is open after it, the innermost first. There
is no place for a line that turns or closes what is not open. -/
def place? : LineKind → List Opened → Option (Nat × List Opened)
  | opens directive, stack => some (stack.length, directive :: stack)
  | turns, .choice :: stack => some (stack.length, .alternative :: stack)
  | closes, _ :: stack => some (stack.length, stack)
  | plain, stack => some (stack.length, stack)
  | turns, _ => none
  | closes, [] => none

end LineKind

/-- What is open after a line. -/
def nestLine (stack : List Opened) (line : List Char) : Option (List Opened) := do
  let text := Reader.skipBlanks line
  let (level, stack) ← (LineKind.ofChars text).place? stack
  if line.length = 2 * level + text.length then some stack else none

/-- What is open after several lines. -/
def nest (stack : List Opened) (lines : List (List Char)) : Option (List Opened) :=
  lines.foldlM nestLine stack

/-- The lines of a text that are not empty. -/
def textLines (s : String) : List (List Char) :=
  (s.toList.splitOn '\n').filter fun line => !line.isEmpty

/-- The text has the lines of these texts, one after the other, and perhaps more lines after them.
Nothing is open after each of them and at the end. -/
structure WellNested (stages : List String) (text : String) : Prop where
  stage : ∀ k ≤ stages.length, (stages.take k).flatMap textLines <+: textLines text ∧
    nest [] ((stages.take k).flatMap textLines) = some []
  whole : nest [] (textLines text) = some []

/-! ## Lines of texts -/

lemma textLines_append (s t : String) :
    textLines (s ++ "\n" ++ t) = textLines s ++ textLines t := by
  have hsplit : (s ++ "\n" ++ t).toList.splitOn '\n' =
      s.toList.splitOn '\n' ++ t.toList.splitOn '\n' := by
    rw [← List.splitOn_append_cons_self]
    simp
  rw [textLines, hsplit, List.filter_append]
  rfl

/-- The lines of texts one below the other are the lines of the texts. -/
lemma textLines_intercalate (ts : List String) :
    textLines ("\n".intercalate ts) = ts.flatMap textLines := by
  induction ts with
  | nil => rfl
  | cons t ts ih =>
    cases ts with
    | nil => simp
    | cons u us =>
      rw [String.intercalate_cons_cons, textLines_append, ih]
      exact List.flatMap_cons.symm

/-- A text in one line is its only line. -/
lemma textLines_of_oneLine {s : String} (hs : OneLine s) (hne : s ≠ "") :
    textLines s = [s.toList] := by
  have hlist : s.toList ≠ [] := by simpa using hne
  rw [textLines, List.splitOn_eq_singleton hs, List.filter_cons_of_pos (by simpa using hlist)]
  rfl

/-! ## The stack -/

lemma nest_append (stack : List Opened) (lines lines' : List (List Char)) :
    nest stack (lines ++ lines') = (nest stack lines).bind fun stack => nest stack lines' :=
  List.foldlM_append

lemma nest_cons (stack : List Opened) (line : List Char) (lines : List (List Char)) :
    nest stack (line :: lines) = (nestLine stack line).bind fun stack => nest stack lines :=
  List.foldlM_cons

/-- Texts that leave nothing open one by one leave nothing open together. -/
lemma nest_flatMap {ts : List String} (h : ∀ t ∈ ts, nest [] (textLines t) = some []) :
    nest [] (ts.flatMap textLines) = some [] := by
  induction ts with
  | nil => rfl
  | cons t ts ih =>
    obtain ⟨ht, hts⟩ := List.forall_mem_cons.mp h
    rw [List.flatMap_cons, nest_append, ht]
    exact ih hts

/-! ## Lines at a depth -/

/-- The text can be a line of this kind, after the blanks of its depth. -/
structure LineText (kind : LineKind) (text : String) : Prop where
  oneLine : OneLine text
  notBlank : ∃ c cs, text.toList = c :: cs ∧ c ≠ ' '
  ofChars : LineKind.ofChars text.toList = kind

/-- The lines are lines of their own, and none is empty. -/
def Whole (lines : List String) : Prop :=
  ∀ line ∈ lines, OneLine line ∧ line ≠ ""

namespace LineText

variable {kind : LineKind} {text : String}

lemma whole (h : LineText kind text) (depth : Nat) : Whole [Stmt.line depth text] := by
  have hindent : OneLine (Stmt.indent depth) := by
    simp [OneLine, Stmt.indent]
  obtain ⟨c, cs, htext, -⟩ := h.notBlank
  refine List.forall_mem_singleton.mpr ⟨?_, ?_⟩
  · simp [OneLine, Stmt.line, hindent, h.oneLine]
  · intro hempty
    have := congrArg String.toList hempty
    simp [Stmt.line, htext] at this

/-- A line at a depth has its place where as many directives are around it. -/
lemma nestLine_eq (h : LineText kind text) {depth : Nat} {stack stack' : List Opened}
    (hplace : kind.place? stack = some (depth, stack')) :
    nestLine stack (Stmt.line depth text).toList = some stack' := by
  obtain ⟨c, cs, htext, hc⟩ := h.notBlank
  have hlength : ((Stmt.indent depth).toList ++ text.toList).length =
      2 * depth + text.toList.length := by
    simp [Stmt.indent]
  rw [nestLine, Stmt.line, String.toList_append,
    Reader.skipBlanks_indent depth (by simpa [htext] using hc), h.ofChars, hplace, hlength]
  exact if_pos rfl

end LineText

lemma lineText_choice {condition : String} (h : OneLine condition) :
    LineText (.opens .choice) ("#if( " ++ condition ++ " )") :=
  ⟨by simp [OneLine, h], by simp, by simp [LineKind.ofChars]⟩

lemma lineText_loop {name items : String} (hname : OneLine name) (hitems : OneLine items) :
    LineText (.opens .loop) ("#foreach( $" ++ name ++ " in " ++ items ++ " )") :=
  ⟨by simp [OneLine, hname, hitems], by simp, by simp [LineKind.ofChars]⟩

lemma lineText_else : LineText .turns "#else" :=
  ⟨by decide, ⟨'#', "else".toList, by decide, by decide⟩, by decide⟩

lemma lineText_end : LineText .closes "#end" :=
  ⟨by decide, ⟨'#', "end".toList, by decide, by decide⟩, by decide⟩

/-- The lines leave open what is open before them, wherever as many directives are open as their
depth says. -/
structure NestedAt (depth : Nat) (lines : List String) : Prop where
  whole : Whole lines
  keeps : ∀ stack, stack.length = depth → nest stack (lines.map String.toList) = some stack

namespace NestedAt

variable {depth : Nat} {lines lines' body otherwise : List String} {text head : String}

lemma nil : NestedAt depth [] :=
  ⟨fun _ h => absurd h List.not_mem_nil, fun _ _ => rfl⟩

lemma append (h : NestedAt depth lines) (h' : NestedAt depth lines') :
    NestedAt depth (lines ++ lines') := by
  refine ⟨List.forall_mem_append.mpr ⟨h.whole, h'.whole⟩, fun stack hstack => ?_⟩
  rw [List.map_append, nest_append, h.keeps stack hstack]
  exact h'.keeps stack hstack

/-- A line that is no directive. -/
lemma plain (h : LineText .plain text) : NestedAt depth [Stmt.line depth text] := by
  refine ⟨h.whole depth, fun stack hstack => ?_⟩
  have hline : nestLine stack (Stmt.line depth text).toList = some stack :=
    h.nestLine_eq (by rw [LineKind.place?, hstack])
  rw [List.map_singleton, nest_cons, hline]
  rfl

/-- Lines between the line that opens a directive and the one that closes it. -/
lemma enclosed {directive : Opened} (last : Opened) (hhead : LineText (.opens directive) head)
    (hwhole : Whole body) (hbody : ∀ stack, stack.length = depth →
      nest (directive :: stack) (body.map String.toList) = some (last :: stack)) :
    NestedAt depth (Stmt.line depth head :: body ++ [Stmt.line depth "#end"]) := by
  refine ⟨?_, fun stack hstack => ?_⟩
  · exact List.forall_mem_append.mpr ⟨List.forall_mem_append.mpr ⟨hhead.whole depth, hwhole⟩,
      lineText_end.whole depth⟩
  · have hopens : nestLine stack (Stmt.line depth head).toList = some (directive :: stack) :=
      hhead.nestLine_eq (by rw [LineKind.place?, hstack])
    have hcloses : nestLine (last :: stack) (Stmt.line depth "#end").toList = some stack :=
      lineText_end.nestLine_eq (by rw [LineKind.place?, hstack])
    rw [List.map_append, List.map_cons, List.cons_append, nest_cons, hopens, Option.bind_some,
      nest_append, hbody stack hstack, Option.bind_some, List.map_singleton, nest_cons, hcloses]
    rfl

/-- A loop, or a choice with one side. -/
lemma single {directive : Opened} (hhead : LineText (.opens directive) head)
    (hbody : NestedAt (depth + 1) body) :
    NestedAt depth (Stmt.line depth head :: body ++ [Stmt.line depth "#end"]) :=
  enclosed directive hhead hbody.whole fun stack hstack =>
    hbody.keeps (directive :: stack) (by rw [List.length_cons, hstack])

/-- A choice with two sides. -/
lemma double (hhead : LineText (.opens .choice) head) (hbody : NestedAt (depth + 1) body)
    (hotherwise : NestedAt (depth + 1) otherwise) :
    NestedAt depth (Stmt.line depth head :: body ++ Stmt.line depth "#else" :: otherwise ++
      [Stmt.line depth "#end"]) := by
  rw [List.cons_append]
  refine enclosed .alternative hhead ?_ fun stack hstack => ?_
  · exact List.forall_mem_append.mpr ⟨hbody.whole,
      List.forall_mem_append.mpr ⟨lineText_else.whole depth, hotherwise.whole⟩⟩
  · have hfirst : nest (.choice :: stack) (body.map String.toList) = some (.choice :: stack) :=
      hbody.keeps _ (by rw [List.length_cons, hstack])
    have hturns : nestLine (.choice :: stack) (Stmt.line depth "#else").toList =
        some (.alternative :: stack) :=
      lineText_else.nestLine_eq (by rw [LineKind.place?, hstack])
    rw [List.map_append, nest_append, hfirst, Option.bind_some, List.map_cons, nest_cons, hturns,
      Option.bind_some]
    exact hotherwise.keeps _ (by rw [List.length_cons, hstack])

end NestedAt

/-! ## Statements -/

namespace Stmt

mutual

/-- The lines of an unbroken statement leave open what is open before them. -/
theorem exists_nestedAt : ∀ (s : Stmt) (depth : Nat), s.isUnbroken = true →
    ∃ ls, s.lines depth = .ok ls ∧ NestedAt depth ls
  | compound body, depth, h => exists_nestedAt_all body depth h
  | block name body, depth, h => by
    obtain ⟨hname, hbody⟩ := Bool.and_eq_true_iff.mp h
    obtain ⟨ls, hls, hnested⟩ := exists_nestedAt_all body depth hbody
    have hname : OneLine name := of_decide_eq_true hname
    have hstart : LineText .plain ("## [Start] " ++ name ++ ". **") :=
      ⟨by simp [OneLine, hname], by simp, by simp [LineKind.ofChars]⟩
    have hend : LineText .plain ("## [End] " ++ name ++ ". **") :=
      ⟨by simp [OneLine, hname], by simp, by simp [LineKind.ofChars]⟩
    exact ⟨_, by rw [lines, hls]; rfl,
      ((NestedAt.plain hstart).append hnested).append (.plain hend)⟩
  | set target value, depth, h => by
    obtain ⟨htarget, hvalue⟩ := Bool.and_eq_true_iff.mp h
    obtain ⟨t, ht, hline⟩ := target.exists_oneLine htarget
    obtain ⟨v, hv, hline'⟩ := value.exists_oneLine hvalue
    exact ⟨_, by rw [lines, ht, hv]; rfl, .plain
      ⟨by simp [OneLine, hline, hline'], by simp, by simp [LineKind.ofChars]⟩⟩
  | mapPut target key value, depth, h => by
    simp only [isUnbroken, Bool.and_eq_true] at h
    obtain ⟨t, ht, hline⟩ := target.exists_oneLine h.1.1
    obtain ⟨k, hk, hline'⟩ := key.exists_oneLine h.1.2
    obtain ⟨v, hv, hline''⟩ := value.exists_oneLine h.2
    exact ⟨_, by rw [lines, ht, hk, hv]; rfl, .plain
      ⟨by simp [OneLine, hline, hline', hline''], by simp, by simp [LineKind.ofChars]⟩⟩
  | putAll target value, depth, h => by
    obtain ⟨htarget, hvalue⟩ := Bool.and_eq_true_iff.mp h
    obtain ⟨t, ht, hline⟩ := target.exists_oneLine htarget
    obtain ⟨v, hv, hline'⟩ := value.exists_oneLine hvalue
    exact ⟨_, by rw [lines, ht, hv]; rfl, .plain
      ⟨by simp [OneLine, hline, hline'], by simp, by simp [LineKind.ofChars]⟩⟩
  | metadataPut name value, depth, h => by
    obtain ⟨hname, hvalue⟩ := Bool.and_eq_true_iff.mp h
    have hname : OneLine name := of_decide_eq_true hname
    obtain ⟨v, hv, hline⟩ := value.exists_oneLine hvalue
    exact ⟨_, by rw [lines, hv]; rfl, .plain
      ⟨by simp [OneLine, hname, hline], by simp, by simp [LineKind.ofChars]⟩⟩
  | choice condition body none, depth, h => by
    obtain ⟨hcondition, hbody⟩ := Bool.and_eq_true_iff.mp h
    obtain ⟨c, hc, hline⟩ := condition.exists_oneLine hcondition
    obtain ⟨ls, hls, hnested⟩ := exists_nestedAt_all body (depth + 1) hbody
    exact ⟨_, by rw [lines, hc, hls]; rfl, by
      rw [List.append_nil]
      exact .single (lineText_choice hline) hnested⟩
  | choice condition body (some otherwise), depth, h => by
    simp only [isUnbroken, Bool.and_eq_true] at h
    obtain ⟨c, hc, hline⟩ := condition.exists_oneLine h.1.1
    obtain ⟨ls, hls, hnested⟩ := exists_nestedAt_all body (depth + 1) h.1.2
    obtain ⟨ls', hls', hnested'⟩ := exists_nestedAt_all otherwise (depth + 1) h.2
    -- both sides stand one level deeper, under the choice before and after its `#else`
    exact ⟨_, by simp only [lines, hc, hls, hls']; rfl,
      .double (lineText_choice hline) hnested hnested'⟩
  | forEach name items body, depth, h => by
    simp only [isUnbroken, Bool.and_eq_true] at h
    have hname : OneLine name := of_decide_eq_true h.1.1
    obtain ⟨i, hi, hline⟩ := items.exists_oneLine h.1.2
    obtain ⟨ls, hls, hnested⟩ := exists_nestedAt_all body (depth + 1) h.2
    exact ⟨_, by rw [lines, hi, hls]; rfl, .single (lineText_loop hname hline) hnested⟩
  | error message none, depth, h => by
    obtain ⟨m, hm, hline⟩ := message.exists_oneLine h
    exact ⟨_, by rw [lines, hm]; rfl, .plain
      ⟨by simp [OneLine, hline], by simp, by simp [LineKind.ofChars]⟩⟩
  | error message (some type), depth, h => by
    obtain ⟨hmessage, htype⟩ := Bool.and_eq_true_iff.mp h
    obtain ⟨m, hm, hline⟩ := message.exists_oneLine hmessage
    obtain ⟨t, ht, hline'⟩ := type.exists_oneLine htype
    exact ⟨_, by simp only [lines, hm, ht]; rfl, .plain
      ⟨by simp [OneLine, hline, hline'], by simp, by simp [LineKind.ofChars]⟩⟩
  | emit value, depth, h => by
    obtain ⟨v, hv, hline⟩ := value.exists_oneLine h
    exact ⟨_, by rw [lines, hv]; rfl, .plain
      ⟨by simp [OneLine, hline], by simp, by simp [LineKind.ofChars]⟩⟩

/-- So do the lines of unbroken statements one after the other. -/
theorem exists_nestedAt_all : ∀ (ss : List Stmt) (depth : Nat), areUnbroken ss = true →
    ∃ ls, linesOfAll depth ss = .ok ls ∧ NestedAt depth ls
  | [], _, _ => ⟨[], rfl, .nil⟩
  | s :: ss, depth, h => by
    obtain ⟨hs, hss⟩ := Bool.and_eq_true_iff.mp h
    obtain ⟨ls, hls, hnested⟩ := exists_nestedAt s depth hs
    obtain ⟨ls', hls', hnested'⟩ := exists_nestedAt_all ss depth hss
    exact ⟨ls ++ ls', by rw [linesOfAll, hls, hls']; rfl, hnested.append hnested'⟩

end

end Stmt

/-- The lines of a text are the lines that it was put together from. -/
lemma Whole.textLines {lines : List String} (h : Whole lines) :
    textLines ("\n".intercalate lines) = lines.map String.toList := by
  rw [textLines_intercalate]
  induction lines with
  | nil => rfl
  | cons line lines ih =>
    obtain ⟨⟨hline, hne⟩, hlines⟩ := List.forall_mem_cons.mp h
    rw [List.flatMap_cons, textLines_of_oneLine hline hne, ih hlines]
    rfl

/-- An unbroken statement has a text that leaves nothing open. -/
lemma Stmt.exists_nest {s : Stmt} (h : s.isUnbroken = true) :
    ∃ t, s.print = .ok t ∧ nest [] (textLines t) = some [] := by
  obtain ⟨ls, hls, hnested⟩ := s.exists_nestedAt 0 h
  refine ⟨_, by rw [Stmt.print, hls]; rfl, ?_⟩
  rw [hnested.whole.textLines]
  exact hnested.keeps [] rfl

/-! ## Templates -/

lemma exists_printStages {ss : List Stmt} (h : ∀ s ∈ ss, s.isUnbroken = true) :
    ∃ ts, MappingTemplate.printStages (ss.map .stmt) = .ok ts ∧
      List.Forall₂ (fun s t => s.print = .ok t) ss ts ∧
      ∀ t ∈ ts, nest [] (textLines t) = some [] := by
  induction ss with
  | nil => exact ⟨[], rfl, .nil, fun _ ht => absurd ht List.not_mem_nil⟩
  | cons s ss ih =>
    obtain ⟨hs, hss⟩ := List.forall_mem_cons.mp h
    obtain ⟨t, ht, hnest⟩ := Stmt.exists_nest hs
    obtain ⟨ts, hts, hprints, hnests⟩ := ih hss
    refine ⟨t :: ts, ?_, .cons ht hprints, List.forall_mem_cons.mpr ⟨hnest, hnests⟩⟩
    rw [List.map_cons, MappingTemplate.printStages, Node.print, ht, hts]
    rfl

/-- The texts of stages, put together with perhaps a last line that is no directive, are well
nested. -/
lemma wellNested_intercalate {ts : List String} {terminator : Option String}
    (hts : ∀ t ∈ ts, nest [] (textLines t) = some [])
    (hterminator : ∀ t ∈ terminator, nest [] (textLines t) = some []) :
    WellNested ts ("\n".intercalate (ts ++ terminator.toList)) := by
  have hlines := textLines_intercalate (ts ++ terminator.toList)
  refine ⟨fun k _ => ⟨?_, nest_flatMap fun t ht => hts t (List.mem_of_mem_take ht)⟩, ?_⟩
  · have hsplit : ts ++ terminator.toList = ts.take k ++ (ts.drop k ++ terminator.toList) := by
      rw [← List.append_assoc, List.take_append_drop]
    rw [hlines, hsplit, List.flatMap_append]
    exact List.prefix_append _ _
  · rw [hlines]
    exact nest_flatMap (List.forall_mem_append.mpr
      ⟨hts, fun t ht => hterminator t (Option.mem_toList.mp ht)⟩)

/-- **Templates are well nested.** Any number of unbroken statements, followed by no line or by the
one that does nothing, have a text. Read line after line, it never turns or closes what is not open,
every line is indented by its depth, and nothing is open after any stage or at the end. -/
theorem wellNested_render (name : String) {ss : List Stmt} {terminator : Option String}
    (hss : ∀ s ∈ ss, s.isUnbroken = true)
    (hterminator : terminator = none ∨ terminator = some noOperation) :
    ∃ stages text, List.Forall₂ (fun s t => s.print = .ok t) ss stages ∧
      MappingTemplate.render ⟨name, ss.map .stmt, terminator⟩ = .ok text ∧
      WellNested stages text := by
  obtain ⟨ts, hts, hprints, hnests⟩ := exists_printStages hss
  have hrender : MappingTemplate.render ⟨name, ss.map .stmt, terminator⟩ =
      .ok ("\n".intercalate (ts ++ terminator.toList)) := by
    rw [MappingTemplate.render, hts]
    rfl
  refine ⟨ts, _, hprints, hrender, wellNested_intercalate hnests ?_⟩
  rcases hterminator with rfl | rfl
  · exact fun t ht => absurd ht (by simp)
  · intro t ht
    obtain rfl := Option.some.inj ht
    decide

/-- A choice in the other side of a choice, nothing, and a loop without statements in a block. -/
def guards : List Stmt :=
  [.choice (.isNull (.ref "x")) [.set (.ref "y") (.int 1)]
      (some [.choice (.ref "z") [.error (.text "boom") (some (.text "Kind"))] none]),
    .compound [],
    .block "Look" [.forEach "name" (.ref "names") []]]

/-- What the template with these stages is written as. -/
def guardsText : String :=
  "\n".intercalate [
    "#if( $util.isNull($x) )",
    "  #set( $y = 1 )",
    "#else",
    "  #if( $z )",
    "    $util.error(\"boom\", \"Kind\")",
    "  #end",
    "#end",
    "",
    "## [Start] Look. **",
    "#foreach( $name in $names )",
    "#end",
    "## [End] Look. **",
    "\x7b\x7d"]

theorem wellNested_render_guards :
    (∀ s ∈ guards, s.isUnbroken = true) ∧ ∃ stages, WellNested stages guardsText := by
  have hguards : ∀ s ∈ guards, s.isUnbroken = true := by decide
  have htext : MappingTemplate.render ⟨"guards", guards.map .stmt, some noOperation⟩ =
      .ok guardsText := by
    decide +kernel
  obtain ⟨stages, text, -, hrender, hnested⟩ :=
    wellNested_render "guards" hguards (.inr (rfl : some noOperation = _))
  obtain rfl := Except.ok.inj (htext.symm.trans hrender)
  exact ⟨hguards, stages, hnested⟩

/-- A line break in a text can look like the end of a directive. -/
example : (do
    let t ← (Stmt.emit (.text "\n#end")).print.toOption
    nest [] (textLines t)) = none := rfl

end TableKeys.Template
