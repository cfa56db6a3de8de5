/-
# Trees that can be read from their text

The text of a template does not quote, and it writes `&&`, `==` and `!` without parentheses.
So it shows the tree only where each of them stands in its place: `!` binds tighter than `==`,
and `==` tighter than `&&`; texts hold no double quote, paths are paths, and whole numbers are
not too long to be written. Such expressions and statements are readable.

* `Expr.exists_print`, `Stmt.exists_print`: what is readable has a text;
* `Expr.Spells.isNull` and its companions: the text of an expression, one statement for each
  form.
-/
import TableKeys.Proofs.Results
import TableKeys.Template.Printer

namespace TableKeys

namespace Template

open Text

/-! ## Paths -/

/-- How many brackets are open after a part of a path, if nothing stands in it but names,
points and brackets. -/
def bracketDepth? : Nat → List Char → Option Nat
  | depth, [] => some depth
  | depth, c :: cs =>
    if isWord c || c == '.' then bracketDepth? depth cs
    else if c == '[' then bracketDepth? (depth + 1) cs
    else
      match depth with
      | 0 => none
      | depth + 1 => if c == ']' then bracketDepth? depth cs else none

/-- The text can be a path: word characters, points, and brackets that match. -/
def isPath (s : String) : Bool :=
  bracketDepth? 0 s.toList == some 0

lemma bracketDepth?_append (cs ds : List Char) (depth : Nat) :
    bracketDepth? depth (cs ++ ds) =
      (bracketDepth? depth cs).bind fun depth => bracketDepth? depth ds := by
  induction cs generalizing depth with
  | nil => rfl
  | cons c cs ih =>
    simp only [List.cons_append, bracketDepth?]
    split
    · exact ih depth
    split
    · exact ih (depth + 1)
    cases depth with
    | zero => rfl
    | succ depth =>
      dsimp only
      split
      · exact ih depth
      · rfl

lemma isPath_iff {s : String} : isPath s = true ↔ bracketDepth? 0 s.toList = some 0 := by
  rw [isPath, beq_iff_eq]

lemma isPath_append {s t : String} (hs : isPath s = true) (ht : isPath t = true) :
    isPath (s ++ t) = true := by
  rw [isPath_iff] at hs ht ⊢
  rw [String.toList_append, bracketDepth?_append, hs]
  exact ht

/-! ## Readable expressions -/

namespace Expr

/-- The expression is a conjunction. -/
def isConjunction : Expr → Bool
  | and _ => true
  | _ => false

/-- The expression is written with an operator between its parts. -/
def isInfix : Expr → Bool
  | and _ | equals _ _ => true
  | _ => false

mutual

/-- The expression can be read from its text. -/
def isReadable : Expr → Bool
  | ref path => isPath path
  | text s => !s.toList.contains '"'
  | int n => Number.isWritable n
  | bool _ => true
  | object entries => areReadableEntries entries
  | list items => areReadable items
  | isNull e | toAttribute e | toFilter e => isReadable e
  | not e => !e.isInfix && isReadable e
  | and es => decide (2 ≤ es.length) && areReadable es
  | equals a b => !a.isConjunction && !b.isInfix && isReadable a && isReadable b
  | containsKey (ref path) key => isPath path && isReadable key
  | defaultIfNull e default => isReadable e && isReadable default
  | containsKey _ _ | misfit _ _ | keyed _ | stray _ | unlisted _ => false

/-- All of them can be read. -/
def areReadable : List Expr → Bool
  | [] => true
  | e :: es => isReadable e && areReadable es

/-- The values of all entries can be read. -/
def areReadableEntries : List (String × Expr) → Bool
  | [] => true
  | (_, e) :: entries => isReadable e && areReadableEntries entries

end

lemma areReadable_iff {es : List Expr} :
    areReadable es = true ↔ ∀ e ∈ es, e.isReadable = true := by
  induction es with
  | nil => simp [areReadable]
  | cons e es ih => simp [areReadable, ih]

lemma areReadableEntries_iff {entries : List (String × Expr)} :
    areReadableEntries entries = true ↔ ∀ entry ∈ entries, entry.2.isReadable = true := by
  induction entries with
  | nil => simp [areReadableEntries]
  | cons entry entries ih => simp [areReadableEntries, ih]

/-! ## Flat expressions

The text of a conjunction in a conjunction is the text of one conjunction. -/

/-- The conjuncts of a conjunction; any other expression is its own. -/
def conjuncts : Expr → List Expr
  | and es => es
  | e => [e]

mutual

/-- The expression with the conjuncts of every conjunct in its place. -/
def flat : Expr → Expr
  | object entries => object (flatEntries entries)
  | list items => list (flatAll items)
  | isNull e => isNull e.flat
  | not e => not e.flat
  | and es => and (flatConjuncts es)
  | equals a b => equals a.flat b.flat
  | containsKey target key => containsKey target.flat key.flat
  | defaultIfNull e default => defaultIfNull e.flat default.flat
  | toAttribute e => toAttribute e.flat
  | toFilter e => toFilter e.flat
  | e => e

/-- Several expressions, each of them flat. -/
def flatAll : List Expr → List Expr
  | [] => []
  | e :: es => e.flat :: flatAll es

/-- The entries of a map with flat values. -/
def flatEntries : List (String × Expr) → List (String × Expr)
  | [] => []
  | (name, e) :: entries => (name, e.flat) :: flatEntries entries

/-- The conjuncts of several flat conjuncts. -/
def flatConjuncts : List Expr → List Expr
  | [] => []
  | e :: es => e.flat.conjuncts ++ flatConjuncts es

end

/-- The expression with some conjuncts: a single one is the expression itself. -/
def ofConjuncts : List Expr → Expr
  | [e] => e
  | es => and es

lemma isConjunction_flat (e : Expr) : e.flat.isConjunction = e.isConjunction := by
  cases e <;> rfl

lemma ofConjuncts_conjuncts {e : Expr} (h : e.isConjunction = true → 2 ≤ e.conjuncts.length) :
    ofConjuncts e.conjuncts = e := by
  cases e with
  | and es =>
    match es, h rfl with
    | _ :: _ :: _, _ => rfl
  | _ => rfl

@[simp] lemma flat_ref (path : String) : (ref path).flat = ref path := rfl

@[simp] lemma flat_text (t : String) : (text t).flat = text t := rfl

lemma flatAll_eq_map (es : List Expr) : flatAll es = es.map flat := by
  induction es with
  | nil => rfl
  | cons e es ih => rw [flatAll, ih, List.map_cons]

lemma flatEntries_eq_map (entries : List (String × Expr)) :
    flatEntries entries = entries.map fun entry => (entry.1, entry.2.flat) := by
  induction entries with
  | nil => rfl
  | cons entry entries ih => rw [flatEntries, ih, List.map_cons]

lemma conjuncts_flat {e : Expr} (h : e.isConjunction = false) : e.flat.conjuncts = [e.flat] := by
  cases e <;> first | rfl | cases h

/-! ## Texts of expressions -/

/-- The expression is written with these characters. -/
def Spells (e : Expr) (cs : List Char) : Prop :=
  e.print = .ok (String.ofList cs)

namespace Spells

variable {e a b default target key : Expr} {es items : List Expr}
  {entries : List (String × Expr)} {cs : List Char}

lemma of_print {s : String} (h : e.print = .ok s) : e.Spells s.toList := by
  rw [Spells, h, String.ofList_toList]

/-- A text that is not wholly given by a part of it. -/
lemma of_wrapped {x : Except PrintError String} {before after : String}
    (h : (do let s ← x; return before ++ s ++ after) = .ok (String.ofList cs)) :
    ∃ us, x = .ok (String.ofList us) ∧ cs = before.toList ++ us ++ after.toList := by
  obtain ⟨s, rfl, hs⟩ := exists_of_bind_eq_ok h
  refine ⟨s.toList, by rw [String.ofList_toList], ?_⟩
  have := congrArg String.toList (Except.ok.inj hs)
  simpa using this.symm

lemma ref {path : String} (h : (ref path).Spells cs) : cs = '$' :: path.toList := by
  have := congrArg String.toList (Except.ok.inj h)
  simpa using this.symm

lemma text {s : String} (h : (text s).Spells cs) : cs = '"' :: s.toList ++ ['"'] := by
  have := congrArg String.toList (Except.ok.inj h)
  simpa using this.symm

lemma int {n : Int} (h : (int n).Spells cs) : cs = (toString n).toList := by
  have hwritten : (Scalar.int n).written.mapError PrintError.unwritten = .ok (String.ofList cs) := h
  cases hn : (Scalar.int n).written with
  | error f =>
    rw [hn] at hwritten
    cases hwritten
  | ok t =>
    obtain ⟨-, rfl⟩ := Scalar.written_eq_ok_iff.mp hn
    rw [hn] at hwritten
    have := congrArg String.toList (Except.ok.inj hwritten)
    simpa [Scalar.plain] using this.symm

lemma bool {b : Bool} (h : (bool b).Spells cs) :
    cs = (if b then "true" else "false").toList := by
  have := congrArg String.toList (Except.ok.inj h)
  simpa using this.symm

lemma isNull (h : (isNull e).Spells cs) :
    ∃ us, e.Spells us ∧ cs = "$util.isNull(".toList ++ us ++ ")".toList :=
  of_wrapped h

lemma toAttribute (h : (toAttribute e).Spells cs) :
    ∃ us, e.Spells us ∧ cs = "$util.dynamodb.toDynamoDB(".toList ++ us ++ ")".toList :=
  of_wrapped h

lemma toFilter (h : (toFilter e).Spells cs) :
    ∃ us, e.Spells us ∧ cs =
      "$util.parseJson(\"$util.transform.toDynamoDBFilterExpression(".toList ++ us ++
        ")\")".toList :=
  of_wrapped h

lemma not (h : (not e).Spells cs) : ∃ us, e.Spells us ∧ cs = '!' :: us := by
  obtain ⟨s, hs, h⟩ := exists_of_bind_eq_ok h
  refine ⟨s.toList, of_print hs, ?_⟩
  have := congrArg String.toList (Except.ok.inj h)
  simpa using this.symm

lemma equals (h : (equals a b).Spells cs) :
    ∃ us vs, a.Spells us ∧ b.Spells vs ∧ cs = us ++ " == ".toList ++ vs := by
  obtain ⟨s, hs, h⟩ := exists_of_bind_eq_ok h
  obtain ⟨t, ht, h⟩ := exists_of_bind_eq_ok h
  refine ⟨s.toList, t.toList, of_print hs, of_print ht, ?_⟩
  have := congrArg String.toList (Except.ok.inj h)
  simpa using this.symm

lemma containsKey (h : (containsKey target key).Spells cs) :
    ∃ us vs, target.Spells us ∧ key.Spells vs ∧
      cs = us ++ ".containsKey(".toList ++ vs ++ ")".toList := by
  obtain ⟨s, hs, h⟩ := exists_of_bind_eq_ok h
  obtain ⟨t, ht, h⟩ := exists_of_bind_eq_ok h
  refine ⟨s.toList, t.toList, of_print hs, of_print ht, ?_⟩
  have := congrArg String.toList (Except.ok.inj h)
  simpa using this.symm

lemma defaultIfNull (h : (defaultIfNull e default).Spells cs) :
    ∃ us vs, e.Spells us ∧ default.Spells vs ∧
      cs = "$util.defaultIfNull(".toList ++ us ++ ", ".toList ++ vs ++ ")".toList := by
  obtain ⟨s, hs, h⟩ := exists_of_bind_eq_ok h
  obtain ⟨t, ht, h⟩ := exists_of_bind_eq_ok h
  refine ⟨s.toList, t.toList, of_print hs, of_print ht, ?_⟩
  have := congrArg String.toList (Except.ok.inj h)
  simpa using this.symm

/-! ### Rows of expressions -/

lemma of_printAll {texts : List String} (h : printAll es = .ok texts) :
    List.Forall₂ Spells es (texts.map String.toList) := by
  induction es generalizing texts with
  | nil =>
    obtain rfl := Except.ok.inj h
    exact .nil
  | cons e es ih =>
    obtain ⟨s, hs, h⟩ := exists_of_bind_eq_ok h
    obtain ⟨rest, hrest, h⟩ := exists_of_bind_eq_ok h
    obtain rfl := Except.ok.inj h
    exact .cons (of_print hs) (ih hrest)

lemma and (h : (and es).Spells cs) :
    ∃ uss, List.Forall₂ Spells es uss ∧ cs = " && ".toList.intercalate uss := by
  obtain ⟨texts, htexts, h⟩ := exists_of_bind_eq_ok h
  refine ⟨_, of_printAll htexts, ?_⟩
  have := congrArg String.toList (Except.ok.inj h)
  simpa [String.toList_intercalate] using this.symm

lemma list (h : (list items).Spells cs) :
    ∃ uss, List.Forall₂ Spells items uss ∧
      cs = "[".toList ++ ", ".toList.intercalate uss ++ "]".toList := by
  obtain ⟨texts, htexts, h⟩ := exists_of_bind_eq_ok h
  refine ⟨_, of_printAll htexts, ?_⟩
  have := congrArg String.toList (Except.ok.inj h)
  simpa [String.toList_intercalate] using this.symm

/-- The entry of a map is written with these characters. -/
def Entry (entry : String × Expr) (cs : List Char) : Prop :=
  ∃ us, entry.2.Spells us ∧ cs = (jsonQuoted entry.1).toList ++ ": ".toList ++ us

lemma of_printEntries {texts : List String} (h : printEntries entries = .ok texts) :
    List.Forall₂ Entry entries (texts.map String.toList) := by
  induction entries generalizing texts with
  | nil =>
    obtain rfl := Except.ok.inj h
    exact .nil
  | cons entry entries ih =>
    obtain ⟨s, hs, h⟩ := exists_of_bind_eq_ok h
    obtain ⟨rest, hrest, h⟩ := exists_of_bind_eq_ok h
    obtain rfl := Except.ok.inj h
    exact .cons ⟨s.toList, of_print hs, by simp⟩ (ih hrest)

lemma object_nil (h : (object []).Spells cs) : cs = "\x7b\x7d".toList := by
  have := congrArg String.toList (Except.ok.inj h)
  simpa using this.symm

lemma object_cons {entry : String × Expr} (h : (object (entry :: entries)).Spells cs) :
    ∃ uss, List.Forall₂ Entry (entry :: entries) uss ∧
      cs = "\x7b ".toList ++ ", ".toList.intercalate uss ++ " \x7d".toList := by
  have h' : (do
      let entries ← printEntries (entry :: entries)
      return "\x7b " ++ ", ".intercalate entries ++ " \x7d") = .ok (String.ofList cs) := by
    rw [← h, print]
    simp
  obtain ⟨texts, htexts, h⟩ := exists_of_bind_eq_ok h'
  refine ⟨_, of_printEntries htexts, ?_⟩
  have := congrArg String.toList (Except.ok.inj h)
  simpa [String.toList_intercalate] using this.symm

end Spells

/-! ## Readable expressions have a text -/

mutual

theorem exists_print : ∀ e : Expr, e.isReadable = true → ∃ s, e.print = .ok s
  | .ref path, _ | .text s, _ | .bool b, _ | .object [], _ => ⟨_, rfl⟩
  | .int n, h => by
    have hwritten := Scalar.written_of_isWritable (a := .int n) h
    exact ⟨_, by rw [print, hwritten]; rfl⟩
  | .object (entry :: entries), h => by
    obtain ⟨texts, ht⟩ := exists_printEntries (entry :: entries) h
    refine ⟨"\x7b " ++ ", ".intercalate texts ++ " \x7d", ?_⟩
    rw [print, ht]
    · rfl
    · simp
  | .list items, h => by
    obtain ⟨texts, ht⟩ := exists_printAll items h
    exact ⟨_, by rw [print, ht]; rfl⟩
  | .isNull e, h | .toAttribute e, h | .toFilter e, h => by
    obtain ⟨s, hs⟩ := exists_print e h
    exact ⟨_, by rw [print, hs]; rfl⟩
  | .not e, h => by
    obtain ⟨s, hs⟩ := exists_print e (Bool.and_eq_true_iff.mp h).2
    exact ⟨_, by rw [print, hs]; rfl⟩
  | .and es, h => by
    obtain ⟨texts, ht⟩ := exists_printAll es (Bool.and_eq_true_iff.mp h).2
    exact ⟨_, by rw [print, ht]; rfl⟩
  | .equals a b, h => by
    obtain ⟨h, hb⟩ := Bool.and_eq_true_iff.mp h
    obtain ⟨s, hs⟩ := exists_print a (Bool.and_eq_true_iff.mp h).2
    obtain ⟨t, ht⟩ := exists_print b hb
    exact ⟨_, by rw [print, hs, ht]; rfl⟩
  | .containsKey (.ref path) key, h => by
    obtain ⟨t, ht⟩ := exists_print key (Bool.and_eq_true_iff.mp h).2
    exact ⟨_, by rw [print, print, ht]; rfl⟩
  | .defaultIfNull e default, h => by
    obtain ⟨he, hd⟩ := Bool.and_eq_true_iff.mp h
    obtain ⟨s, hs⟩ := exists_print e he
    obtain ⟨t, ht⟩ := exists_print default hd
    exact ⟨_, by rw [print, hs, ht]; rfl⟩

theorem exists_printAll : ∀ es : List Expr, areReadable es = true → ∃ texts, printAll es = .ok texts
  | [], _ => ⟨[], rfl⟩
  | e :: es, h => by
    obtain ⟨he, hes⟩ := Bool.and_eq_true_iff.mp h
    obtain ⟨s, hs⟩ := exists_print e he
    obtain ⟨texts, ht⟩ := exists_printAll es hes
    exact ⟨_, by rw [printAll, hs, ht]; rfl⟩

theorem exists_printEntries : ∀ entries : List (String × Expr),
    areReadableEntries entries = true → ∃ texts, printEntries entries = .ok texts
  | [], _ => ⟨[], rfl⟩
  | (key, e) :: entries, h => by
    obtain ⟨he, hes⟩ := Bool.and_eq_true_iff.mp h
    obtain ⟨s, hs⟩ := exists_print e he
    obtain ⟨texts, ht⟩ := exists_printEntries entries hes
    exact ⟨_, by rw [printEntries, hs, ht]; rfl⟩

end

end Expr

/-! ## Readable statements -/

namespace Stmt

/-- The path of the resolver metadata. -/
def metadataPath : String := "ctx.stash.metadata"

/-- The expression is a text. -/
def isText : Expr → Bool
  | .text _ => true
  | _ => false

mutual

/-- The statement can be read from its text. A text that is put into the resolver metadata is
read as the name of one of their fields. -/
def isReadable : Stmt → Bool
  | compound body => areReadable body
  | block name body => !name.toList.contains '\n' && areReadable body
  | set (.ref path) value => isPath path && value.isReadable
  | mapPut (.ref path) key value =>
    isPath path && !(path == metadataPath && isText key) && key.isReadable && value.isReadable
  | putAll (.ref path) value => isPath path && value.isReadable
  | metadataPut name value => !name.toList.contains '"' && value.isReadable
  | choice condition body none => condition.isReadable && areReadable body
  | choice condition body (some otherwise) =>
    condition.isReadable && areReadable body && areReadable otherwise
  | forEach name items body => name.toList.all isWord && items.isReadable && areReadable body
  | error message none => message.isReadable
  | error message (some type) => message.isReadable && type.isReadable
  | emit value => value.isReadable
  | set .. | mapPut .. | putAll .. | stray _ | unlisted .. => false

/-- All of them can be read. -/
def areReadable : List Stmt → Bool
  | [] => true
  | s :: ss => isReadable s && areReadable ss

end

mutual

/-- The statement with flat expressions, and with the statements of every compound in its
place. -/
def flat : Stmt → List Stmt
  | compound body => flatAll body
  | block name body => [block name (flatAll body)]
  | set target value => [set target.flat value.flat]
  | mapPut target key value => [mapPut target.flat key.flat value.flat]
  | putAll target value => [putAll target.flat value.flat]
  | metadataPut name value => [metadataPut name value.flat]
  | choice condition body none => [choice condition.flat (flatAll body) none]
  | choice condition body (some otherwise) =>
    [choice condition.flat (flatAll body) (some (flatAll otherwise))]
  | forEach name items body => [forEach name items.flat (flatAll body)]
  | error message none => [error message.flat none]
  | error message (some type) => [error message.flat (some type.flat)]
  | emit value => [emit value.flat]
  | s => [s]

/-- Several statements, each of them flat. -/
def flatAll : List Stmt → List Stmt
  | [] => []
  | s :: ss => flat s ++ flatAll ss

end

/-! ## Readable statements have a text -/

mutual

theorem exists_lines : ∀ (s : Stmt) (depth : Nat), s.isReadable = true →
    ∃ lines, s.lines depth = .ok lines
  | compound body, depth, h => exists_linesOfAll body depth h
  | block name body, depth, h => by
    obtain ⟨lines, hlines⟩ := exists_linesOfAll body depth (Bool.and_eq_true_iff.mp h).2
    exact ⟨_, by rw [Stmt.lines, hlines]; rfl⟩
  | set (.ref path) value, depth, h => by
    obtain ⟨v, hv⟩ := value.exists_print (Bool.and_eq_true_iff.mp h).2
    exact ⟨_, by rw [Stmt.lines, Expr.print, hv]; rfl⟩
  | mapPut (.ref path) key value, depth, h => by
    simp only [isReadable, Bool.and_eq_true] at h
    obtain ⟨k, hk⟩ := key.exists_print h.1.2
    obtain ⟨v, hv⟩ := value.exists_print h.2
    exact ⟨_, by rw [Stmt.lines, Expr.print, hk, hv]; rfl⟩
  | putAll (.ref path) value, depth, h => by
    obtain ⟨v, hv⟩ := value.exists_print (Bool.and_eq_true_iff.mp h).2
    exact ⟨_, by rw [Stmt.lines, Expr.print, hv]; rfl⟩
  | metadataPut name value, depth, h => by
    obtain ⟨v, hv⟩ := value.exists_print (Bool.and_eq_true_iff.mp h).2
    exact ⟨_, by rw [Stmt.lines, hv]; rfl⟩
  | choice condition body none, depth, h => by
    obtain ⟨hcondition, hbody⟩ := Bool.and_eq_true_iff.mp h
    obtain ⟨c, hc⟩ := condition.exists_print hcondition
    obtain ⟨lines, hlines⟩ := exists_linesOfAll body (depth + 1) hbody
    exact ⟨_, by rw [Stmt.lines, hc, hlines]; rfl⟩
  | choice condition body (some otherwise), depth, h => by
    simp only [isReadable, Bool.and_eq_true] at h
    obtain ⟨c, hc⟩ := condition.exists_print h.1.1
    obtain ⟨lines, hlines⟩ := exists_linesOfAll body (depth + 1) h.1.2
    obtain ⟨others, hothers⟩ := exists_linesOfAll otherwise (depth + 1) h.2
    exact ⟨_, by simp only [Stmt.lines, hc, hlines, hothers]; rfl⟩
  | forEach name items body, depth, h => by
    simp only [isReadable, Bool.and_eq_true] at h
    obtain ⟨e, he⟩ := items.exists_print h.1.2
    obtain ⟨lines, hlines⟩ := exists_linesOfAll body (depth + 1) h.2
    exact ⟨_, by rw [Stmt.lines, he, hlines]; rfl⟩
  | error message none, depth, h => by
    obtain ⟨m, hm⟩ := message.exists_print h
    exact ⟨_, by rw [Stmt.lines, hm]; rfl⟩
  | error message (some type), depth, h => by
    obtain ⟨hmessage, htype⟩ := Bool.and_eq_true_iff.mp h
    obtain ⟨m, hm⟩ := message.exists_print hmessage
    obtain ⟨t, ht⟩ := type.exists_print htype
    exact ⟨_, by simp only [Stmt.lines, hm, ht]; rfl⟩
  | emit value, depth, h => by
    obtain ⟨v, hv⟩ := value.exists_print h
    exact ⟨_, by rw [Stmt.lines, hv]; rfl⟩

theorem exists_linesOfAll : ∀ (ss : List Stmt) (depth : Nat), areReadable ss = true →
    ∃ lines, linesOfAll depth ss = .ok lines
  | [], _, _ => ⟨[], rfl⟩
  | s :: ss, depth, h => by
    obtain ⟨hs, hss⟩ := Bool.and_eq_true_iff.mp h
    obtain ⟨first, hfirst⟩ := exists_lines s depth hs
    obtain ⟨others, hothers⟩ := exists_linesOfAll ss depth hss
    exact ⟨_, by rw [linesOfAll, hfirst, hothers]; rfl⟩

end

/-- A readable statement has a text. -/
lemma exists_print {s : Stmt} (h : s.isReadable = true) : ∃ text, s.print = .ok text := by
  obtain ⟨lines, hlines⟩ := exists_lines s 0 h
  exact ⟨_, by rw [Stmt.print, hlines]; rfl⟩

end Stmt

end Template

end TableKeys
