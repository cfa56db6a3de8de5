/-
# Where the errors of templates come from

An error that a template raises comes from one of its error statements: no expression, no
assignment and no put raises one, whatever else goes wrong there. What a run raises is hereditary
(`hereditary_raises`), so a run of statements raises what one of the error statements in them says
and nothing else (`execAll_raises`).
-/
import TableKeys.Proofs.Hereditary

namespace TableKeys.Template

/-! ## Runs -/

/-- The run raises errors of one kind only. -/
def Run.Raises {α : Type} (E : String → Data → Prop) (x : Run α) : Prop :=
  ∀ m message type m', x m = .error (.raised message type) m' → E message type

section Runs

variable {α β : Type} {E : String → Data → Prop}

namespace Run.Raises

lemma bind {x : Run α} {f : α → Run β} (hx : Raises E x) (hf : ∀ a, Raises E (f a)) :
    Raises E (x >>= f) := by
  intro m message type m' h
  change EStateM.bind x f m = _ at h
  unfold EStateM.bind at h
  cases hm : x m with
  | ok a m₁ =>
    rw [hm] at h
    exact hf a m₁ message type m' h
  | error e m₁ =>
    rw [hm] at h
    cases h
    exact hx m message type _ hm

lemma modify (f : Machine → Machine) :
    Raises E (MonadState.modifyGet fun m => ((), f m) : Run Unit) :=
  fun _ _ _ _ h => by cases h

end Run.Raises

open Run (Raises)

/-- Only error statements bear on what a run raises. -/
lemma hereditary_raises (E : String → Data → Prop) : Run.Hereditary (Raises E) where
  step _ _ := fun _ _ _ _ h => by cases h
  fail e he := fun m message type m' h => by
    cases h
    exact absurd rfl (he message type)
  bind := .bind

lemma raises_interpolate (separator s : String) : Raises E (interpolate separator s) := by
  have hC := hereditary_raises E
  refine hC.bind hC.get fun _ => hC.bind (hC.ofExcept _) fun _ => ?_
  exact hC.ite (hC.bind (.modify _) fun _ => hC.pure _) (hC.pure _)

end Runs

/-! ## Statements -/

section Statements

open Run (Raises)

variable {E : String → Data → Prop} {separator : String}

/-- Error statements raise errors of one kind only. -/
def ErrorsRaise (separator : String) (E : String → Data → Prop)
    (errors : List (Expr × Option Expr)) : Prop :=
  ∀ e ∈ errors, Raises E ((Stmt.error e.1 e.2).exec separator)

/-- **Statements raise what their error statements raise.** -/
theorem execAll_raises (ss : List Stmt) (h : ErrorsRaise separator E (allErrors ss)) :
    Raises E (execAll separator ss) :=
  (hereditary_raises E).execAll ss
    ⟨fun s _ => raises_interpolate separator s, fun e he _ => h e he⟩

end Statements

/-! ## Templates -/

/-- The error statements of a template. -/
def MappingTemplate.errors (t : MappingTemplate) : List (Expr × Option Expr) :=
  allErrors (t.stages.map Node.asStmt)

/-- One of the error statements raises this. -/
def RaisedBy (separator : String) (errors : List (Expr × Option Expr)) (message : String)
    (type : Data) : Prop :=
  ∃ e ∈ errors, ∃ m m', (Stmt.error e.1 e.2).exec separator m = .error (.raised message type) m'

lemma errorsRaise_raisedBy (separator : String) (errors : List (Expr × Option Expr)) :
    ErrorsRaise separator (RaisedBy separator errors) errors :=
  fun e he m _ _ m' h => ⟨e, he, m, m', h⟩

/-- **An error that a template raises comes from one of its error statements.** -/
theorem MappingTemplate.run_raises (separator : String) (t : MappingTemplate) :
    Run.Raises (RaisedBy separator t.errors) (t.run separator) := by
  have hC := hereditary_raises (RaisedBy separator t.errors)
  have hexec := execAll_raises _ (errorsRaise_raisedBy separator t.errors)
  refine .bind (.modify _) fun _ => .bind (.modify _) fun _ => .bind ?_ fun _ =>
    .bind hC.get fun _ => hC.pure _
  intro m message type m' h
  unfold Run.within at h
  cases hm : execAll separator (t.stages.map Node.asStmt) m with
  | ok u m₁ =>
    rw [hm] at h
    cases h
  | error e m₁ =>
    rw [hm] at h
    -- reporting a fault under the name of the template makes no error of it
    cases e with
    | raised message' type' =>
      cases h
      exact hexec m message type m' hm
    | fault cause =>
      simp only [Failure.within] at h
      split at h <;> cases h
    | misuse cause => cases h
    | evaluation template cause => cases h

end TableKeys.Template
