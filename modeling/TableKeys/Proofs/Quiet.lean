/-
# Runs that record nothing

Only the interpolation of a text records something while a template runs, and only where several
components come in for paths of several steps. So a run whose texts have at most one reference by
such a path leaves the log as it is, however it ends (`Stmt.exec_quiet`). Of the texts in the
templates for reading and writing all are like that but the values of composite keys
(`Duty.texts_quiet`).
-/
import TableKeys.Proofs.Effects
import TableKeys.Proofs.Hereditary

namespace TableKeys.Template

open Snippet

/-! ## Runs -/

/-- The run leaves the log as it is, however it ends. -/
def Run.Quiet {α : Type} (x : Run α) : Prop :=
  ∀ m, match x m with
    | .ok _ m' | .error _ m' => m'.log = m.log

section Runs

variable {α β : Type} {separator : String}

namespace Run.Quiet

lemma log_of_ok {x : Run α} (h : Quiet x) {m m' : Machine} {a : α}
    (hx : x m = .ok a m') : m'.log = m.log := by
  have hlog := h m
  rwa [hx] at hlog

lemma log_of_error {x : Run α} (h : Quiet x) {m m' : Machine} {e : Failure}
    (hx : x m = .error e m') : m'.log = m.log := by
  have hlog := h m
  rwa [hx] at hlog

lemma bind {x : Run α} {f : α → Run β} (hx : Quiet x) (hf : ∀ a, Quiet (f a)) :
    Quiet (x >>= f) := by
  intro m
  cases hm : x m with
  | error e m₁ =>
    rw [Run.bind_error hm]
    exact hx.log_of_error hm
  | ok a m₁ =>
    rw [Run.bind_ok hm]
    have hlog := hf a m₁
    rw [hx.log_of_ok hm] at hlog
    exact hlog

end Run.Quiet

open Run (Quiet)

lemma hereditary_quiet : Run.Hereditary Quiet where
  step _ hf := fun m => hf m
  fail _ _ := fun _ => rfl
  bind := .bind

/-- An error statement leaves the log as it is if the texts of its message and its type do. -/
lemma quiet_error (message : Expr) (type : Option Expr)
    (h : ∀ s ∈ (Stmt.error message type).texts, Quiet (interpolate separator s)) :
    Quiet ((Stmt.error message type).exec separator) := by
  have hC := hereditary_quiet
  have hraise : ∀ v w, Quiet (do
      let message ← Run.read v
      let type ← Run.read w
      let message ← Run.ofExcept message.written
      throw (.raised message type) : Run Unit) :=
    fun v w => .bind (hC.read v) fun _ => .bind (hC.read w) fun _ =>
      .bind (hC.ofExcept _) fun _ _ => rfl
  cases type with
  | none =>
    rw [Stmt.exec]
    exact .bind (hC.eval message h) fun _ => .bind (hC.pure _) fun _ => hraise _ _
  | some type =>
    obtain ⟨hmessage, htype⟩ := List.forall_mem_append.mp h
    rw [Stmt.exec]
    exact .bind (hC.eval message hmessage) fun _ => .bind (hC.eval type htype) fun _ => hraise _ _

/-- **A statement leaves the log as it is if its texts do.** -/
theorem Stmt.exec_quiet (s : Stmt) (h : ∀ t ∈ s.texts, Quiet (interpolate separator t)) :
    Quiet (s.exec separator) :=
  hereditary_quiet.exec s ⟨h, fun e _ => quiet_error e.1 e.2⟩

end Runs

/-! ## Texts -/

/-- The piece refers to something by a path of several steps. -/
def Piece.isDotted : Piece → Bool
  | .literal _ => false
  | .reference _ path => path.contains '.'

/-- Components come in only where a path has several steps. -/
lemma length_components_le {m : Machine} {ps : List Piece} {done : Interpolated}
    (h : interpolatePieces m ps = .ok done) :
    done.components.length ≤ ps.countP Piece.isDotted := by
  induction ps generalizing done with
  | nil =>
    obtain rfl := Except.ok.inj h
    exact Nat.le_refl 0
  | cons p ps ih =>
    cases p with
    | literal c =>
      rw [interpolatePieces] at h
      obtain ⟨rest, hrest, h⟩ := exists_of_bind_eq_ok h
      obtain rfl := Except.ok.inj h
      simpa [Piece.isDotted] using ih hrest
    | reference raw path =>
      rw [interpolatePieces] at h
      obtain ⟨v, -, h⟩ := exists_of_bind_eq_ok h
      rw [List.countP_cons]
      split at h
      · obtain ⟨rest, hrest, h⟩ := exists_of_bind_eq_ok h
        obtain rfl := Except.ok.inj h
        exact (ih hrest).trans (Nat.le_add_right _ _)
      · obtain ⟨shown, -, h⟩ := exists_of_bind_eq_ok h
        obtain ⟨rest, hrest, h⟩ := exists_of_bind_eq_ok h
        obtain rfl := Except.ok.inj h
        have hhead : (if path.contains '.' = true then [shown] else []).length ≤
            if (Piece.reference raw path).isDotted = true then 1 else 0 := by
          rw [Piece.isDotted]
          cases path.contains '.' <;> exact Nat.le_refl _
        rw [List.length_append, Nat.add_comm]
        exact Nat.add_le_add (ih hrest) hhead

/-- A text with at most one reference by several steps records nothing. -/
lemma quiet_interpolate {s : String} (separator : String)
    (h : (pieces s).countP Piece.isDotted ≤ 1) : Run.Quiet (interpolate separator s) := by
  intro m
  cases hdone : interpolatePieces m (pieces s) with
  | error f =>
    rw [interpolate, Run.get_bind, Run.bind_error (Run.ofExcept_error hdone)]
  | ok done =>
    have hlength := (length_components_le hdone).trans h
    have hfew : ¬ 1 < done.components.length := Nat.not_lt.mpr hlength
    rw [interpolate, Run.get_bind, Run.bind_ok (Run.ofExcept_ok hdone)]
    simp [isAmbiguous, hfew, Run.pure_apply]

/-! ## The templates for reading and writing -/

section Snippets

variable {separator : String} {o : Options} {k : KeyDecl} {s : String}

lemma quiet_plain (h : '$' ∉ s.toList) : Run.Quiet (interpolate separator s) := by
  intro m
  rw [interpolate_plain h]

lemma mem_bodyTexts {ss : List Stmt} : s ∈ bodyTexts ss ↔ ∃ st ∈ ss, s ∈ st.texts := by
  induction ss with
  | nil => simp [bodyTexts]
  | cons st ss ih => simp [bodyTexts, ih]

lemma mem_entryTexts {es : List (String × Expr)} :
    s ∈ entryTexts es ↔ ∃ e ∈ es, s ∈ e.2.texts := by
  induction es with
  | nil => simp [entryTexts]
  | cons e es ih => simp [entryTexts, ih]

lemma mem_allTexts_texts {ts : List String} (h : s ∈ allTexts (ts.map .text)) : s ∈ ts := by
  induction ts with
  | nil => cases h
  | cons t ts ih =>
    rcases List.mem_append.mp h with h | h
    · exact List.mem_cons.mpr (.inl (List.mem_singleton.mp h))
    · exact List.mem_cons_of_mem t (ih h)

/-- The key of an item has no text but the value of its composite key. -/
lemma texts_setPrimaryKey {mutation : Bool} (h : s ∈ (setPrimaryKey k mutation o).texts) :
    s = compositeTemplate o (keyPath mutation) k.sortFields := by
  have hsort : ∀ e ∈ sortEntry k (keyPath mutation) o,
      ∀ t ∈ e.2.texts, t = compositeTemplate o (keyPath mutation) k.sortFields := by
    intro e he t ht
    unfold sortEntry at he
    split at he
    · cases he
    · obtain rfl := List.mem_singleton.mp he
      cases ht
    · obtain rfl := List.mem_singleton.mp he
      exact List.mem_singleton.mp ht
  have hpartition : ∀ e ∈ [(k.partition.name,
      Expr.toAttribute (.ref (keyPath mutation ++ "." ++ k.partition.name)))],
      ∀ t ∈ e.2.texts, t = compositeTemplate o (keyPath mutation) k.sortFields := by
    intro e he t ht
    obtain rfl := List.mem_singleton.mp he
    cases ht
  have hmem : s ∈ (modelObjectKey k mutation o).texts := by
    simpa [setPrimaryKey, Stmt.texts, bodyTexts] using h
  obtain ⟨e, he, hs⟩ := mem_entryTexts.mp hmem
  exact Entries.forall_mem_putAll
    (P := fun e : Expr => ∀ t ∈ e.texts, t = compositeTemplate o (keyPath mutation) k.sortFields)
    hpartition hsort e he s hs

lemma texts_recordOverride {synthetic argument : String}
    (h : s ∈ (recordOverride synthetic argument).texts) : s = argument ∨ s = synthetic := by
  simp only [recordOverride, nameOverrides, Stmt.texts, bodyTexts, Expr.texts, entryTexts,
    List.append_nil, List.nil_append, List.mem_append, List.mem_singleton] at h
  rcases h with h | h | h
  · exact .inl h
  · exact .inl h
  · exact .inr h

lemma quiet_recordOverride {synthetic argument : String} (hsynthetic : '$' ∉ synthetic.toList)
    (hargument : '$' ∉ argument.toList) :
    Run.Quiet ((recordOverride synthetic argument).exec separator) := by
  refine Stmt.exec_quiet _ fun s hs => ?_
  rcases texts_recordOverride hs with rfl | rfl
  · exact quiet_plain hargument
  · exact quiet_plain hsynthetic

lemma texts_writeComposite {synthetic template : String} {conditionally : Bool}
    (h : s ∈ (writeComposite synthetic template conditionally).texts) :
    s = template ∨ s = synthetic := by
  have hmem : s ∈ [template, synthetic] := by
    cases conditionally <;> exact h
  simpa using hmem

/-- The upkeep of a synthetic attribute has its schema name, its name and its value as texts. -/
lemma texts_compositeUpkeep {conditionally : Bool}
    (h : s ∈ (compositeUpkeep k conditionally o).texts) :
    s = compositeArgument k.sortFields ∨ s = compositeName o k.sortFields ∨
      s = compositeTemplate o mergedValues k.sortFields := by
  rcases List.mem_append.mp h with h | h
  · rcases texts_recordOverride h with h | h
    · exact .inl h
    · exact .inr (.inl h)
  · rcases List.mem_append.mp h with h | h
    · rcases texts_writeComposite h with h | h
      · exact .inr (.inr h)
      · exact .inr (.inl h)
    · cases h

/-- The message for a missing field refers to the name of the field and to nothing else. -/
lemma quiet_missingFieldMessage {index : String} (hindex : '$' ∉ index.toList)
    (mutation : KeyMutation) :
    Run.Quiet (interpolate separator (missingFieldMessage index mutation)) := by
  have htail : piecesFrom 0 ("$" ++ keyFieldName ++ "'.").toList =
      .reference ("$" ++ keyFieldName).toList keyFieldName.toList ::
        "'.".toList.map .literal := by decide
  have hhead :
      ((refusalHead index mutation).toList.map Piece.literal).countP Piece.isDotted = 0 := by
    simp [List.countP_map, Function.comp_def, Piece.isDotted]
  refine quiet_interpolate separator ?_
  rw [pieces, toList_missingFieldMessage, piecesFrom_literal (notMem_refusalHead hindex mutation),
    htail, List.countP_append, hhead]
  decide

/-- The check of the input for an index records nothing. -/
lemma texts_indexValidation {i : IndexDecl} {mutation : KeyMutation}
    (hfields : ∀ f ∈ i.sortFields, '$' ∉ f.toList) (hindex : '$' ∉ i.name.toList)
    (h : s ∈ (indexValidation i mutation).texts) : Run.Quiet (interpolate separator s) := by
  have hpieces : pieces ("$" ++ keyFieldName) =
      [.reference ("$" ++ keyFieldName).toList keyFieldName.toList] := by decide
  have hfield : Run.Quiet (interpolate separator ("$" ++ keyFieldName)) := by
    refine quiet_interpolate separator ?_
    rw [hpieces]
    decide
  simp only [indexValidation, lookForField, refuseField, inputHasField, Stmt.texts, bodyTexts,
    Expr.texts, allTexts, List.append_nil, List.nil_append, List.mem_append,
    List.mem_singleton] at h
  rcases h with h | rfl | rfl | rfl
  · exact quiet_plain (hfields s (mem_allTexts_texts h))
  · exact hfield
  · exact hfield
  · exact quiet_missingFieldMessage hindex mutation

/-- The upkeep of a synthetic attribute may record something for its value only. -/
lemma quiet_ensureCompositeKey (separator : String) {conditionally : Bool} {st : Stmt}
    (hk : k.Plain o) (hst : ensureCompositeKey k conditionally o = some st) (h : s ∈ st.texts) :
    s = compositeTemplate o mergedValues k.sortFields ∨ Run.Quiet (interpolate separator s) := by
  cases hcomposite : k.isComposite with
  | false =>
    rw [ensureCompositeKey, if_neg (by simp [hcomposite])] at hst
    cases hst
  | true =>
    rw [ensureCompositeKey_eq hcomposite] at hst
    obtain rfl := Option.some.inj hst
    rcases texts_compositeUpkeep h with rfl | rfl | rfl
    · exact .inr (quiet_plain (notMem_compositeArgument k.sortFields))
    · exact .inr (quiet_plain hk.compositeName)
    · exact .inl rfl

/-- **Of the texts in the templates for a primary key all but the value of its composite key record
nothing.** -/
theorem primarySnippets_quiet (separator : String) (hk : k.Plain o) {op : Operation}
    (hop : op ≠ .list) (h : s ∈ bodyTexts ((Session.primarySnippets k o op).filterMap id)) :
    (∃ mutation, s = compositeTemplate o (keyPath mutation) k.sortFields) ∨
      Run.Quiet (interpolate separator s) := by
  obtain ⟨st, hst, hs⟩ := mem_bodyTexts.mp h
  have hset : ∀ mutation, s ∈ (setPrimaryKey k mutation o).texts →
      ∃ mutation, s = compositeTemplate o (keyPath mutation) k.sortFields :=
    fun mutation hs => ⟨mutation, texts_setPrimaryKey hs⟩
  have hsome : some st ∈ Session.primarySnippets k o op := by simpa using hst
  cases op with
  | list => exact absurd rfl hop
  | get =>
    obtain rfl : st = setPrimaryKey k false o := by simpa [Session.primarySnippets] using hsome
    exact .inl (hset _ hs)
  | delete =>
    obtain rfl | rfl : st = mergeInputsAndDefaults ∨ st = setPrimaryKey k true o := by
      simpa [Session.primarySnippets] using hsome
    · cases hs
    · exact .inl (hset _ hs)
  | create | update =>
    obtain rfl | rfl | hkeep : st = mergeInputsAndDefaults ∨ st = setPrimaryKey k true o ∨
        some st = ensureCompositeKey k false o := by
      simpa [Session.primarySnippets] using hsome
    · cases hs
    · exact .inl (hset _ hs)
    · exact (quiet_ensureCompositeKey separator hk hkeep.symm hs).imp (fun h => ⟨true, h⟩) id

/-- **Of the texts in the templates for an index all but the value of its composite key record
nothing.** -/
theorem indexSnippets_quiet (separator : String) {i : IndexDecl} (hi : i.Plain o)
    (hname : '$' ∉ i.name.toList) {op : Operation}
    (h : s ∈ bodyTexts
      ((some mergeInputsAndDefaults :: Session.indexSnippets i o op).filterMap id)) :
    s = compositeTemplate o mergedValues i.sortFields ∨ Run.Quiet (interpolate separator s) := by
  obtain ⟨st, hst, hs⟩ := mem_bodyTexts.mp h
  have hsome : st = mergeInputsAndDefaults ∨ some st ∈ Session.indexSnippets i o op := by
    simpa using hst
  have hvalidate : ∀ mutation, validateIndexArgument i mutation = some st →
      Run.Quiet (interpolate separator s) := by
    intro mutation hvalidation
    cases hcomposite : i.isComposite with
    | false =>
      rw [validateIndexArgument, if_neg (by simp [hcomposite])] at hvalidation
      cases hvalidation
    | true =>
      rw [validateIndexArgument_eq hcomposite] at hvalidation
      obtain rfl := Option.some.inj hvalidation
      exact texts_indexValidation
        (fun f hf => notMem_of_isSchemaName (hi.sortFields f hf) (by decide)) hname hs
  rcases hsome with rfl | hsome
  · cases hs
  · cases op with
    | create | update =>
      obtain hvalidation | hkeep : some st = validateIndexArgument i _ ∨
          some st = ensureCompositeKey i.toKeyDecl true o := by
        simpa [Session.indexSnippets] using hsome
      · exact .inr (hvalidate _ hvalidation.symm)
      · exact quiet_ensureCompositeKey separator hi hkeep.symm hs
    | delete =>
      have hkeep : some st = ensureCompositeKey i.toKeyDecl false o := by
        simpa [Session.indexSnippets] using hsome
      exact quiet_ensureCompositeKey separator hi hkeep.symm hs
    | get | list => cases hsome

end Snippets

end TableKeys.Template
