/-
# Properties that a run has from its parts

Some properties of runs are at stake in a few places of a template only: that errors of one kind
are raised, or that nothing is recorded. Such a property is hereditary if it is handed on from
runs to their sequence and if it holds of every single step that leaves the log alone and of
every failure but a raised error (`Run.Hereditary`). An expression has it if interpolating the
texts in it does (`Hereditary.eval`); a statement has it if its error statements do as well
(`Hereditary.exec`). Both are shown once, by induction on the tree.
-/
import TableKeys.Proofs.Unraised
import TableKeys.Template.Mapping

namespace TableKeys.Template

/-- The property holds of steps that record nothing, of failures that are not raised, and of runs
one after the other if it holds of each. -/
structure Run.Hereditary (C : ∀ {α : Type}, Run α → Prop) : Prop where
  step : ∀ {α : Type} (f : Machine → α × Machine), (∀ m, (f m).2.log = m.log) →
    C fun m => .ok (f m).1 (f m).2
  fail : ∀ {α : Type} (e : Failure), (∀ message type, e ≠ .raised message type) →
    C (throw e : Run α)
  bind : ∀ {α β : Type} {x : Run α} {f : α → Run β}, C x → (∀ a, C (f a)) → C (x >>= f)

namespace Run.Hereditary

variable {C : ∀ {α : Type}, Run α → Prop} {α : Type}

/-! ## Steps -/

section Steps

variable (hC : Run.Hereditary @C)

include hC

lemma pure (a : α) : C (Pure.pure a : Run α) :=
  hC.step (fun m => (a, m)) fun _ => rfl

lemma get : C (MonadState.get : Run Machine) :=
  hC.step (fun m => (m, m)) fun _ => rfl

lemma modify {f : Machine → Machine} (hf : ∀ m, (f m).log = m.log) :
    C (MonadState.modifyGet fun m => ((), f m) : Run Unit) :=
  hC.step (fun m => ((), f m)) hf

lemma fault (f : Fault) : C (Run.fault f : Run α) :=
  hC.fail (.fault f) fun _ _ => by simp

lemma misuse (cause : Misuse) : C (Run.misuse cause : Run α) :=
  hC.fail (.misuse cause) fun _ _ => by simp

lemma ofExcept (x : Except Fault α) : C (Run.ofExcept x) := by
  cases x with
  | ok a => exact hC.pure a
  | error f => exact hC.fault f

lemma resolve (path : String) : C (Run.resolve path) :=
  hC.bind hC.get fun _ => hC.ofExcept _

lemma read (v : Value) : C (Run.read v) :=
  hC.bind hC.get fun _ => hC.pure _

lemma load (d : Data) : C (Run.load d) :=
  hC.step (fun m => ((m.store.load d).1, { m with store := (m.store.load d).2 })) fun _ => rfl

lemma newMap (entries : Entries MapKey Value) : C (Run.newMap entries) :=
  hC.step (fun m => ((m.store.alloc (.map entries)).1,
    { m with store := (m.store.alloc (.map entries)).2 })) fun _ => rfl

lemma setCell (address : Address) (c : Cell) : C (Run.setCell address c) :=
  hC.modify fun _ => rfl

lemma putEntry (address : Address) (key : MapKey) (v : Value) :
    C (Run.putEntry address key v) := by
  refine hC.bind hC.get fun _ => ?_
  split
  · exact hC.setCell _ _
  · exact hC.pure _

lemma putField (address : Address) (field : Field) (v : Value) :
    C (Run.putField address field v) := by
  refine hC.bind hC.get fun _ => ?_
  split
  · exact hC.setCell _ _
  · exact hC.pure _

lemma setVariable (name : String) (v : Value) : C (Run.setVariable name v) :=
  hC.modify fun _ => rfl

lemma asKey (v : Value) : C (Run.asKey v) :=
  hC.bind (hC.read v) fun _ => hC.ofExcept _

end Steps

lemma ite (_ : Run.Hereditary @C) {c : Bool} {x y : Run α} (hx : C x) (hy : C y) :
    C (if c = true then x else y) := by
  cases c
  · exact hy
  · exact hx

end Run.Hereditary

/-! ## Texts -/

mutual

/-- The texts in an expression. -/
def Expr.texts : Expr → List String
  | .text s => [s]
  | .object entries => entryTexts entries
  | .keyed entries => keyedTexts entries
  | .list es | .and es => allTexts es
  | .isNull e | .not e | .toAttribute e | .toFilter e => e.texts
  | .equals a b | .containsKey a b | .defaultIfNull a b => a.texts ++ b.texts
  | .ref _ | .int _ | .bool _ | .misfit .. | .stray _ | .unlisted _ => []

/-- The texts in several expressions. -/
def allTexts : List Expr → List String
  | [] => []
  | e :: es => e.texts ++ allTexts es

/-- The texts in the values of a map. -/
def entryTexts : List (String × Expr) → List String
  | [] => []
  | (_, e) :: es => e.texts ++ entryTexts es

/-- The texts in the values of a map with any keys. -/
def keyedTexts : List (Scalar × Expr) → List String
  | [] => []
  | (_, e) :: es => e.texts ++ keyedTexts es

end

mutual

/-- The texts in a statement, those of its error statements included. -/
def Stmt.texts : Stmt → List String
  | .set _ value | .putAll _ value | .metadataPut _ value | .emit value => value.texts
  | .mapPut _ key value => value.texts ++ key.texts
  | .choice condition body none => condition.texts ++ bodyTexts body
  | .choice condition body (some otherwise) =>
    condition.texts ++ (bodyTexts body ++ bodyTexts otherwise)
  | .forEach _ items body => items.texts ++ bodyTexts body
  | .error message none => message.texts
  | .error message (some type) => message.texts ++ type.texts
  | .block _ body | .compound body => bodyTexts body
  | .stray _ | .unlisted .. => []

/-- The texts in several statements. -/
def bodyTexts : List Stmt → List String
  | [] => []
  | s :: ss => s.texts ++ bodyTexts ss

end

mutual

/-- The message and the type of each error statement in a statement. -/
def Stmt.errors : Stmt → List (Expr × Option Expr)
  | .error message type => [(message, type)]
  | .block _ body | .compound body | .forEach _ _ body => allErrors body
  | .choice _ body none => allErrors body
  | .choice _ body (some otherwise) => allErrors body ++ allErrors otherwise
  | _ => []

/-- The error statements in several statements. -/
def allErrors : List Stmt → List (Expr × Option Expr)
  | [] => []
  | s :: ss => s.errors ++ allErrors ss

end

namespace Run.Hereditary

variable {C : ∀ {α : Type}, Run α → Prop}

section Evaluation

variable (hC : Run.Hereditary @C)

include hC

/-! ## Expressions -/

lemma misfitValue (leaf : Leaf) (content : Scalar) : C (Template.misfitValue leaf content) := by
  unfold Template.misfitValue
  split
  · exact hC.fault _
  · exact hC.fault _
  · exact hC.pure _

lemma hasKey (target key : Value) : C (Template.hasKey target key) :=
  hC.bind hC.get fun _ => hC.bind (hC.asKey key) fun _ => hC.pure _

lemma equalValues (a b : Value) : C (Template.equalValues a b) :=
  hC.bind (hC.read a) fun _ => hC.bind (hC.read b) fun _ => hC.ofExcept _

lemma toAttributeValue (v : Value) : C (Template.toAttributeValue v) :=
  hC.bind (hC.read v) fun _ => hC.bind (hC.ofExcept _) fun _ => hC.load _

lemma toFilterExpression (v : Value) : C (Template.toFilterExpression v) := by
  refine hC.bind (hC.read v) fun d => ?_
  split
  · rename_i failure hfailure
    refine hC.fail failure fun message type hraised => ?_
    exact Filter.unraised_expression? d message type (hfailure.trans (congrArg _ hraised))
  · exact hC.pure _
  · exact hC.load _

variable {separator : String}

mutual

/-- **An expression has the property if interpolating its texts has it.** -/
theorem eval : ∀ e : Expr, (∀ s ∈ e.texts, C (interpolate separator s)) → C (e.eval separator)
  | .ref path, _ => by
    rw [Expr.eval]
    exact hC.resolve path
  | .text s, h => by
    rw [Expr.eval]
    exact hC.bind (h s (List.mem_singleton.mpr rfl)) fun _ => hC.pure _
  | .bool _, _ | .int _, _ => by
    rw [Expr.eval]
    exact hC.pure _
  | .misfit leaf content, _ => by
    rw [Expr.eval]
    exact hC.misfitValue leaf content
  | .object entries, h => by
    rw [Expr.eval]
    exact hC.bind (evalEntries entries h) fun _ => hC.newMap _
  | .keyed entries, h => by
    rw [Expr.eval]
    exact hC.bind (evalKeyed entries h) fun _ => hC.newMap _
  | .list items, h => by
    rw [Expr.eval]
    exact hC.bind (evalAll items h) fun _ => hC.pure _
  | .isNull e, h | .not e, h => by
    rw [Expr.eval]
    exact hC.bind (eval e h) fun _ => hC.pure _
  | .and es, h => by
    rw [Expr.eval]
    exact hC.bind (evalAnd es h) fun _ => hC.pure _
  | .equals a b, h => by
    obtain ⟨ha, hb⟩ := List.forall_mem_append.mp h
    rw [Expr.eval]
    exact hC.bind (eval a ha) fun _ => hC.bind (eval b hb) fun _ =>
      hC.bind (hC.equalValues _ _) fun _ => hC.pure _
  | .containsKey target key, h => by
    obtain ⟨htarget, hkey⟩ := List.forall_mem_append.mp h
    rw [Expr.eval]
    refine hC.bind (eval target htarget) fun _ => hC.bind hC.get fun _ => hC.ite ?_ (hC.pure _)
    exact hC.bind (eval key hkey) fun _ => hC.bind (hC.hasKey _ _) fun _ => hC.pure _
  | .defaultIfNull e default, h => by
    obtain ⟨he, hdefault⟩ := List.forall_mem_append.mp h
    rw [Expr.eval]
    exact hC.bind (eval e he) fun _ => hC.ite (eval default hdefault) (hC.pure _)
  | .toAttribute e, h => by
    rw [Expr.eval]
    exact hC.bind (eval e h) fun _ => hC.toAttributeValue _
  | .toFilter e, h => by
    rw [Expr.eval]
    exact hC.bind (eval e h) fun _ => hC.toFilterExpression _
  | .stray _, _ => by
    rw [Expr.eval]
    exact hC.misuse _
  | .unlisted _, _ => by
    rw [Expr.eval]
    exact hC.fault _

theorem evalAll : ∀ es : List Expr, (∀ s ∈ allTexts es, C (interpolate separator s)) →
    C (Template.evalAll separator es)
  | [], _ => by
    rw [Template.evalAll]
    exact hC.pure _
  | e :: es, h => by
    obtain ⟨he, hes⟩ := List.forall_mem_append.mp h
    rw [Template.evalAll]
    exact hC.bind (eval e he) fun _ => hC.bind (evalAll es hes) fun _ => hC.pure _

theorem evalEntries : ∀ es : List (String × Expr),
    (∀ s ∈ entryTexts es, C (interpolate separator s)) → C (Template.evalEntries separator es)
  | [], _ => by
    rw [Template.evalEntries]
    exact hC.pure _
  | (name, e) :: es, h => by
    obtain ⟨he, hes⟩ := List.forall_mem_append.mp h
    rw [Template.evalEntries]
    exact hC.bind (eval e he) fun _ => hC.bind (evalEntries es hes) fun _ => hC.pure _

theorem evalKeyed : ∀ es : List (Scalar × Expr),
    (∀ s ∈ keyedTexts es, C (interpolate separator s)) → C (Template.evalKeyed separator es)
  | [], _ => by
    rw [Template.evalKeyed]
    exact hC.pure _
  | (k, e) :: es, h => by
    obtain ⟨he, hes⟩ := List.forall_mem_append.mp h
    rw [Template.evalKeyed]
    exact hC.bind (eval e he) fun _ => hC.bind (evalKeyed es hes) fun _ => hC.pure _

theorem evalAnd : ∀ es : List Expr, (∀ s ∈ allTexts es, C (interpolate separator s)) →
    C (Template.evalAnd separator es)
  | [], _ => by
    rw [Template.evalAnd]
    exact hC.pure _
  | e :: es, h => by
    obtain ⟨he, hes⟩ := List.forall_mem_append.mp h
    rw [Template.evalAnd]
    exact hC.bind (eval e he) fun _ => hC.ite (evalAnd es hes) (hC.pure _)

end

/-! ## Assignments and puts -/

lemma pathOf (e : Expr) : C e.pathOf := by
  unfold Expr.pathOf
  split
  · exact hC.pure _
  · exact hC.pure _
  · exact hC.fault _

lemma pathText (part : String) (a : Scalar) : C (Template.pathText part a) := by
  unfold Template.pathText
  split
  · exact hC.pure _
  · exact hC.fault _

lemma assign (path : String) (v : Value) : C (Template.assign path v) := by
  unfold Template.assign
  refine hC.ite (hC.setVariable _ _) (hC.bind (hC.resolve _) fun _ => hC.bind hC.get fun _ => ?_)
  split
  · exact hC.putEntry _ _ _
  · split
    · exact hC.putField _ _ _
    · exact hC.misuse _
  · exact hC.misuse _

lemma mapAt (path : String) : C (Template.mapAt path) := by
  refine hC.bind (hC.resolve _) fun _ => hC.bind hC.get fun _ => ?_
  split
  · exact hC.pure _
  · exact hC.misuse _

lemma mergePairs (address : Address) (position : Nat) (elements : List Value) :
    C (Template.mergePairs address position elements) := by
  induction elements generalizing position with
  | nil => exact hC.pure _
  | cons element rest ih =>
    rw [Template.mergePairs]
    refine hC.bind (hC.bind hC.get fun _ => ?_) fun _ => hC.bind (hC.asKey _) fun _ =>
      hC.bind (hC.putEntry _ _ _) fun _ => ih _
    split
    · exact hC.fault _
    · exact hC.pure _
    · exact hC.fault _

lemma mergeEntries (address : Address) (entries : List (MapKey × Value)) :
    C (Template.mergeEntries address entries) := by
  induction entries with
  | nil => exact hC.pure _
  | cons entry rest ih => exact hC.bind (hC.putEntry _ _ _) fun _ => ih

lemma merge (address : Address) (source : Value) : C (Template.merge address source) := by
  refine hC.bind hC.get fun _ => ?_
  split
  · exact hC.mergeEntries _ _
  · split
    · exact hC.mergePairs _ _ _
    · exact hC.fault _

lemma partOf (v : Value) (field : Field) : C (Template.partOf v field) := by
  refine hC.bind hC.get fun _ => ?_
  split
  · exact hC.ite (hC.pure _) (hC.fault _)
  · exact hC.fault _

lemma metadataField (name : String) : C (Template.metadataField name) := by
  refine hC.bind hC.get fun _ => hC.bind (hC.partOf _ _) fun _ => hC.bind (hC.partOf _ _) fun _ =>
    hC.bind hC.get fun _ => ?_
  split
  · split
    · exact hC.pure _
    · exact hC.misuse _
  · exact hC.fault _

lemma loopMembers (v : Value) : C (Template.loopMembers v) := by
  refine hC.bind hC.get fun _ => ?_
  split
  · refine hC.ite (hC.pure _) ?_
    split
    · exact hC.pure _
    · exact hC.fault _
  · exact hC.pure _

lemma forMembers (name : String) {body : Run Unit} (h : C body) (vs : List Value) :
    C (Template.forMembers name body vs) := by
  induction vs with
  | nil => exact hC.pure _
  | cons v vs ih => exact hC.bind (hC.setVariable _ _) fun _ => hC.bind h fun _ => ih

/-! ## Statements -/

lemma execBranch {ss : List Stmt} (h : C (Template.execAll separator ss)) :
    C (Template.execBranch separator ss) := by
  by_cases hnothing : ∃ kind, ss = [.unlisted kind true]
  · obtain ⟨kind, rfl⟩ := hnothing
    rw [Template.execBranch]
    exact hC.pure _
  · rw [execBranch_eq_execAll separator ss fun kind heq => hnothing ⟨kind, heq⟩]
    exact h

end Evaluation

/-- Interpolating the texts has the property, and so has every error statement whose texts have
it. -/
structure Admits (C : ∀ {α : Type}, Run α → Prop) (separator : String) (texts : List String)
    (errors : List (Expr × Option Expr)) : Prop where
  texts : ∀ s ∈ texts, C (interpolate separator s)
  errors : ∀ e ∈ errors, (∀ s ∈ (Stmt.error e.1 e.2).texts, C (interpolate separator s)) →
    C ((Stmt.error e.1 e.2).exec separator)

namespace Admits

variable {separator : String} {texts texts' : List String}
  {errors errors' : List (Expr × Option Expr)}

lemma append (h : Admits @C separator (texts ++ texts') (errors ++ errors')) :
    Admits @C separator texts errors ∧ Admits @C separator texts' errors' := by
  obtain ⟨ht, ht'⟩ := List.forall_mem_append.mp h.texts
  obtain ⟨he, he'⟩ := List.forall_mem_append.mp h.errors
  exact ⟨⟨ht, he⟩, ⟨ht', he'⟩⟩

/-- The texts of a condition come before what depends on it. -/
lemma of_append (h : Admits @C separator (texts ++ texts') errors) :
    (∀ s ∈ texts, C (interpolate separator s)) ∧ Admits @C separator texts' errors := by
  obtain ⟨ht, ht'⟩ := List.forall_mem_append.mp h.texts
  exact ⟨ht, ht', h.errors⟩

end Admits

section Execution

variable {separator : String} (hC : Run.Hereditary @C)

include hC

mutual

/-- **A statement has the property if its texts and its error statements have it.** -/
theorem exec : ∀ s : Stmt, Admits @C separator s.texts s.errors → C (s.exec separator)
  | .set target value, h => by
    rw [Stmt.exec]
    exact hC.bind (hC.pathOf _) fun _ => hC.bind (hC.eval value h.texts) fun _ =>
      hC.bind (hC.pathText _ _) fun _ => hC.assign _ _
  | .mapPut target key value, h => by
    obtain ⟨hvalue, hkey⟩ := h.of_append
    rw [Stmt.exec]
    exact hC.bind (hC.pathOf _) fun _ => hC.bind (hC.pathText _ _) fun _ =>
      hC.bind (hC.mapAt _) fun _ => hC.bind (hC.eval value hvalue) fun _ =>
        hC.bind (hC.eval key hkey.texts) fun _ => hC.bind (hC.asKey _) fun _ => hC.putEntry _ _ _
  | .putAll target value, h => by
    rw [Stmt.exec]
    exact hC.bind (hC.pathOf _) fun _ => hC.bind (hC.pathText _ _) fun _ =>
      hC.bind (hC.mapAt _) fun _ => hC.bind (hC.eval value h.texts) fun _ =>
        hC.ite (hC.pure _) (hC.merge _ _)
  | .metadataPut name value, h => by
    rw [Stmt.exec]
    exact hC.bind (hC.metadataField _) fun _ => hC.bind (hC.eval value h.texts) fun _ =>
      hC.putField _ _ _
  | .choice condition body none, h => by
    obtain ⟨hcondition, hbody⟩ := h.of_append
    rw [Stmt.exec]
    exact hC.bind (hC.eval condition hcondition) fun _ =>
      hC.ite (hC.execBranch (execAll body hbody)) (hC.pure _)
  | .choice condition body (some otherwise), h => by
    obtain ⟨hcondition, hbranches⟩ := h.of_append
    obtain ⟨hbody, hotherwise⟩ := hbranches.append
    rw [Stmt.exec]
    exact hC.bind (hC.eval condition hcondition) fun _ =>
      hC.ite (hC.execBranch (execAll body hbody)) (hC.execBranch (execAll otherwise hotherwise))
  | .forEach name items body, h => by
    obtain ⟨hitems, hbody⟩ := h.of_append
    rw [Stmt.exec]
    exact hC.bind (hC.eval items hitems) fun _ => hC.bind (hC.loopMembers _) fun _ =>
      hC.forMembers name (execAll body hbody) _
  | .error message type, h => h.errors (message, type) (List.mem_singleton.mpr rfl) h.texts
  | .emit value, h => by
    rw [Stmt.exec]
    exact hC.bind (hC.eval value h.texts) fun _ => hC.modify fun _ => rfl
  | .block _ body, h | .compound body, h => by
    rw [Stmt.exec]
    exact execAll body h
  | .stray _, _ => by
    rw [Stmt.exec]
    exact hC.misuse _
  | .unlisted _ _, _ => by
    rw [Stmt.exec]
    exact hC.fault _

theorem execAll : ∀ ss : List Stmt, Admits @C separator (bodyTexts ss) (allErrors ss) →
    C (Template.execAll separator ss)
  | [], _ => by
    rw [Template.execAll]
    exact hC.pure _
  | s :: ss, h => by
    obtain ⟨hs, hss⟩ := h.append
    rw [Template.execAll]
    exact hC.bind (exec s hs) fun _ => execAll ss hss

end

end Execution

end Run.Hereditary

end TableKeys.Template
