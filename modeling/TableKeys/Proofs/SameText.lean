/-
# Nodes with the same text

A text that can be read determines the tree but for the nesting of conjunctions and compounds,
and that makes no difference to what the tree does. So readable nodes with the same text do the
same, whatever they run on.

* `outcome_eq_of_print`: two readable nodes with the same text have the same outcome.
-/
import TableKeys.Proofs.Steps
import TableKeys.Proofs.StmtReader
import TableKeys.Template.Mapping

namespace TableKeys.Template

/-! ## Flat expressions have the same value -/

lemma evalAnd_append (separator : String) (xs ys : List Expr) :
    evalAnd separator (xs ++ ys) = (do
      if ← evalAnd separator xs then evalAnd separator ys else return false) := by
  induction xs with
  | nil => simp [evalAnd]
  | cons x xs ih =>
    simp only [List.cons_append, evalAnd, ih, bind_assoc]
    congr 1
    funext v
    split <;> simp

/-- The conjuncts of an expression hold if the expression does. -/
lemma evalAnd_conjuncts (separator : String) (e : Expr) (next : Run Bool) :
    (do if ← evalAnd separator e.conjuncts then next else return false) = (do
      let v ← e.eval separator
      if v.holds then next else return false) := by
  cases e with
  | and es =>
    simp only [Expr.conjuncts, Expr.eval, bind_assoc, pure_bind]
    congr 1
    funext b
    cases b <;> rfl
  | _ =>
    simp only [Expr.conjuncts, evalAnd, bind_assoc]
    congr 1
    funext v
    cases v.holds <;> rfl

mutual

theorem eval_flat (separator : String) (e : Expr) : e.flat.eval separator = e.eval separator := by
  cases e with
  | object entries => rw [Expr.flat, Expr.eval, Expr.eval, evalEntries_flat separator entries]
  | list items => rw [Expr.flat, Expr.eval, Expr.eval, evalAll_flat separator items]
  | isNull e => rw [Expr.flat, Expr.eval, Expr.eval, eval_flat separator e]
  | not e => rw [Expr.flat, Expr.eval, Expr.eval, eval_flat separator e]
  | and es => rw [Expr.flat, Expr.eval, Expr.eval, evalAnd_flat separator es]
  | equals a b =>
    rw [Expr.flat, Expr.eval, Expr.eval, eval_flat separator a, eval_flat separator b]
  | containsKey target key =>
    rw [Expr.flat, Expr.eval, Expr.eval, eval_flat separator target, eval_flat separator key]
  | defaultIfNull e default =>
    rw [Expr.flat, Expr.eval, Expr.eval, eval_flat separator e, eval_flat separator default]
  | toAttribute e => rw [Expr.flat, Expr.eval, Expr.eval, eval_flat separator e]
  | toFilter e => rw [Expr.flat, Expr.eval, Expr.eval, eval_flat separator e]
  | _ => rfl

theorem evalAll_flat (separator : String) (es : List Expr) :
    evalAll separator (Expr.flatAll es) = evalAll separator es := by
  cases es with
  | nil => rfl
  | cons e es =>
    rw [Expr.flatAll, evalAll, evalAll, eval_flat separator e, evalAll_flat separator es]

theorem evalEntries_flat (separator : String) (entries : List (String × Expr)) :
    evalEntries separator (Expr.flatEntries entries) = evalEntries separator entries := by
  cases entries with
  | nil => rfl
  | cons entry entries =>
    obtain ⟨name, e⟩ := entry
    rw [Expr.flatEntries, evalEntries, evalEntries, eval_flat separator e,
      evalEntries_flat separator entries]

theorem evalAnd_flat (separator : String) (es : List Expr) :
    evalAnd separator (Expr.flatConjuncts es) = evalAnd separator es := by
  cases es with
  | nil => rfl
  | cons e es =>
    rw [Expr.flatConjuncts, evalAnd_append, evalAnd_conjuncts, eval_flat separator e,
      evalAnd_flat separator es, evalAnd]

end

/-! ## Flat statements do the same -/

lemma execAll_single (separator : String) (s : Stmt) :
    execAll separator [s] = s.exec separator := by
  simp [execAll]

mutual

/-- No member of a readable statement is missing. -/
theorem unlisted_not_mem_flat (s : Stmt) (hs : s.isReadable = true) (kind : String)
    (isNothing : Bool) : .unlisted kind isNothing ∉ s.flat := by
  cases s with
  | compound body => exact unlisted_not_mem_flatAll body hs kind isNothing
  | choice condition body otherwise => cases otherwise <;> simp [Stmt.flat]
  | error message type => cases type <;> simp [Stmt.flat]
  | unlisted => cases hs
  | _ => simp [Stmt.flat]

theorem unlisted_not_mem_flatAll (ss : List Stmt) (hs : Stmt.areReadable ss = true)
    (kind : String) (isNothing : Bool) : .unlisted kind isNothing ∉ Stmt.flatAll ss := by
  cases ss with
  | nil => exact List.not_mem_nil
  | cons s ss =>
    obtain ⟨hs, hss⟩ := Bool.and_eq_true_iff.mp hs
    rw [Stmt.flatAll, List.mem_append, not_or]
    exact ⟨unlisted_not_mem_flat s hs kind isNothing,
      unlisted_not_mem_flatAll ss hss kind isNothing⟩

end

/-- A branch of readable statements is executed as a list of them, flat or not. -/
lemma execBranch_flatAll {separator : String} {ss : List Stmt}
    (hs : Stmt.areReadable ss = true)
    (h : execAll separator (Stmt.flatAll ss) = execAll separator ss) :
    execBranch separator (Stmt.flatAll ss) = execBranch separator ss := by
  rw [execBranch_eq_execAll, execBranch_eq_execAll, h]
  · rintro kind rfl
    cases hs
  · intro kind hflat
    exact unlisted_not_mem_flatAll ss hs kind true (hflat ▸ List.mem_cons_self)

mutual

theorem exec_flat (separator : String) : ∀ s : Stmt, s.isReadable = true →
    execAll separator s.flat = s.exec separator
  | .compound body, hs => by
    rw [Stmt.flat, Stmt.exec, execAll_flat separator body hs]
  | .block name body, hs => by
    rw [Stmt.flat, execAll_single, Stmt.exec, Stmt.exec,
      execAll_flat separator body (Bool.and_eq_true_iff.mp hs).2]
  | .set (.ref path) value, _ => by
    rw [Stmt.flat, execAll_single, Stmt.exec, Stmt.exec, Expr.flat_ref, eval_flat]
  | .mapPut (.ref path) key value, _ => by
    rw [Stmt.flat, execAll_single, Stmt.exec, Stmt.exec, Expr.flat_ref, eval_flat, eval_flat]
  | .putAll (.ref path) value, _ => by
    rw [Stmt.flat, execAll_single, Stmt.exec, Stmt.exec, Expr.flat_ref, eval_flat]
  | .metadataPut name value, _ => by
    rw [Stmt.flat, execAll_single, Stmt.exec, Stmt.exec, eval_flat]
  | .choice condition body none, hs => by
    have hbody := (Bool.and_eq_true_iff.mp hs).2
    rw [Stmt.flat, execAll_single, Stmt.exec, Stmt.exec, eval_flat,
      execBranch_flatAll hbody (execAll_flat separator body hbody)]
  | .choice condition body (some otherwise), hs => by
    obtain ⟨hs, hotherwise⟩ := Bool.and_eq_true_iff.mp hs
    have hbody := (Bool.and_eq_true_iff.mp hs).2
    rw [Stmt.flat, execAll_single, Stmt.exec, Stmt.exec, eval_flat,
      execBranch_flatAll hbody (execAll_flat separator body hbody),
      execBranch_flatAll hotherwise (execAll_flat separator otherwise hotherwise)]
  | .forEach name items body, hs => by
    rw [Stmt.flat, execAll_single, Stmt.exec, Stmt.exec, eval_flat,
      execAll_flat separator body (Bool.and_eq_true_iff.mp hs).2]
  | .error message none, _ => by
    rw [Stmt.flat, execAll_single, Stmt.exec, Stmt.exec, eval_flat]
  | .error message (some type), _ => by
    rw [Stmt.flat, execAll_single, Stmt.exec, Stmt.exec, eval_flat]
    simp only [eval_flat]
  | .emit value, _ => by
    rw [Stmt.flat, execAll_single, Stmt.exec, Stmt.exec, eval_flat]

theorem execAll_flat (separator : String) (ss : List Stmt) (hs : Stmt.areReadable ss = true) :
    execAll separator (Stmt.flatAll ss) = execAll separator ss := by
  cases ss with
  | nil => rfl
  | cons s ss =>
    obtain ⟨hs, hss⟩ := Bool.and_eq_true_iff.mp hs
    rw [Stmt.flatAll, execAll_append, execAll, exec_flat separator s hs,
      execAll_flat separator ss hss]

end

/-! ## Outcomes -/

namespace Node

/-- The node can be read from its text. -/
def isReadable : Node → Bool
  | expr e => e.isReadable
  | stmt s => s.isReadable
  | stray _ => false

/-- What a node does: an expression has a value, and a statement has only an effect. -/
def outcome (separator : String) : Node → Run (Option Value)
  | expr e => some <$> e.eval separator
  | stmt s => (fun _ => none) <$> s.exec separator
  | stray kind => Run.misuse (.notEvaluable kind)

end Node

/-- **Readable nodes with the same text do the same.** From every state of a run, with any
context and any variables, they give the same value or the same failure, and they leave the
same state behind. -/
theorem outcome_eq_of_print {a b : Node} {text : String} (ha : a.isReadable = true)
    (hb : b.isReadable = true) (hat : a.print = .ok text) (hbt : b.print = .ok text)
    (separator : String) (m : Machine) : a.outcome separator m = b.outcome separator m := by
  match a, b with
  | .expr e, .expr e' =>
    have hflat : e.flat = e'.flat :=
      Option.some.inj ((readExpr_of_print ha hat).symm.trans (readExpr_of_print hb hbt))
    rw [Node.outcome, Node.outcome, ← eval_flat separator e, hflat, eval_flat]
  | .stmt s, .stmt s' =>
    have hflat : s.flat = s'.flat := Option.some.inj
      ((readStatements_of_print ha hat).symm.trans (readStatements_of_print hb hbt))
    rw [Node.outcome, Node.outcome, ← exec_flat separator s ha, hflat,
      exec_flat separator s' hb]
  | .expr e, .stmt s => exact absurd hbt (print_ne_of_expr ha hb hat)
  | .stmt s, .expr e => exact absurd hat (print_ne_of_expr hb ha hbt)
  | .stray _, _ => cases ha
  | _, .stray _ => cases hb

/-- A conjunction in a conjunction is written like one conjunction, and does the same. -/
theorem outcome_eq_of_print_nested :
    let a : Node := .expr (.and [.and [.bool true, .ref "ctx.args.id"], .bool false])
    let b : Node := .expr (.and [.bool true, .ref "ctx.args.id", .bool false])
    a.print = b.print ∧ a.outcome "#" (.start {}) = b.outcome "#" (.start {}) :=
  ⟨rfl, outcome_eq_of_print (by decide) (by decide) rfl rfl "#" _⟩

/-- The resolver metadata are a record, so a put into a map is refused there, while its text is
the text of a put into the metadata, which succeeds. -/
theorem mapPut_metadata_same_text :
    let a : Stmt := .mapPut (.ref "ctx.stash.metadata") (.text "modelObjectKey") (.bool true)
    let b : Stmt := .metadataPut "modelObjectKey" (.bool true)
    a.print = b.print ∧
      (evaluate {} (a.run "#")).result = .error (.misuse (.targetNotMap "ctx.stash.metadata")) ∧
      (evaluate {} (b.run "#")).result = .ok .null :=
  ⟨rfl, rfl, rfl⟩

end TableKeys.Template
