/-
# Checking the input for an index

An index with two or more sort fields takes all of them from the input or none. The check goes
through the fields twice: first to see whether the input has one of them, then to find one that
it does not have (`missingField?`).

* `exec_validateIndexArgument`: input that lacks a field is refused; all else is left alone, and
  the template knows whether the input has a field of the index.
-/
import TableKeys.Proofs.Writes

namespace TableKeys

/-- The map has one of these fields. -/
def Entries.hasSome (es : Entries MapKey Data) (fields : List String) : Bool :=
  fields.any fun f => es.has (.text f)

/-- The first of these fields that a map with some of them does not have. -/
def missingField? (es : Entries MapKey Data) (fields : List String) : Option String :=
  if es.hasSome fields then fields.find? fun f => !es.has (.text f) else none

namespace Template

open Snippet Text

/-- The message to a caller who left out a field of an index, up to the name of the field. -/
def refusalHead (index : String) (mutation : KeyMutation) : String :=
  "When " ++ mutation.verb ++ " any part of the composite sort key for @index '" ++ index ++
    "', you must provide all fields for the key. Missing key: '"

/-- The message to a caller who left out this field of an index. -/
def refusalText (index : String) (mutation : KeyMutation) (field : String) : String :=
  refusalHead index mutation ++ field ++ "'."

lemma toList_missingFieldMessage (index : String) (mutation : KeyMutation) :
    (missingFieldMessage index mutation).toList =
      (refusalHead index mutation).toList ++ ("$" ++ keyFieldName ++ "'.").toList := by
  have hhead : "', you must provide all fields for the key. Missing key: '$".toList =
      "', you must provide all fields for the key. Missing key: '".toList ++ ['$'] := by decide
  simp only [missingFieldMessage, refusalHead, String.toList_append, hhead, List.append_assoc]
  rfl

lemma notMem_refusalHead {index : String} (h : '$' ∉ index.toList) (mutation : KeyMutation) :
    '$' ∉ (refusalHead index mutation).toList := by
  have hverb : '$' ∉ mutation.verb.toList := by cases mutation <;> decide
  simp only [refusalHead, String.toList_append, List.mem_append, not_or]
  exact ⟨⟨⟨⟨by decide, hverb⟩, by decide⟩, h⟩, by decide⟩

section Fields

variable {separator : String} {m : Machine} {sc : Scene} {inp : Entries MapKey Data}
  {f : String}

/-! ## The field that is gone through -/

/-- The variable for the field leads to its name. -/
lemma resolve_keyFieldName (h : m.bindings.get? keyFieldName = some (.text f)) :
    resolve m.store m.bindings keyFieldName = .ok (.text f) := by
  rw [resolve_variable m.store m.bindings (by decide), h]
  rfl

lemma pieceText_keyFieldName (h : m.bindings.get? keyFieldName = some (.text f))
    (ps : List Piece) :
    pieceText m (.reference ("$" ++ keyFieldName).toList keyFieldName.toList :: ps) =
      (f.toList ++ ·) <$> pieceText m ps := by
  rw [pieceText_reference (resolve_keyFieldName h)]
  show (do let rest ← pieceText m ps; return f.toList ++ rest) = _
  cases pieceText m ps <;> rfl

lemma eval_keyFieldName (separator : String) (h : m.bindings.get? keyFieldName = some (.text f)) :
    ∃ log, (Expr.text ("$" ++ keyFieldName)).eval separator m =
      .ok (.text f) { m with log := log } := by
  have hpieces : pieces ("$" ++ keyFieldName) =
      [.reference ("$" ++ keyFieldName).toList keyFieldName.toList] := by decide
  have htext : pieceText m (pieces ("$" ++ keyFieldName)) = .ok f.toList := by
    rw [hpieces, pieceText_keyFieldName h, pieceText_nil]
    exact congrArg Except.ok (List.append_nil _)
  obtain ⟨log, hlog⟩ := eval_text_ok separator htext
  exact ⟨log, by rw [hlog, String.ofList_toList]⟩

/-- Whether the input has the field. -/
lemma eval_inputHasField (separator : String) (h : m.Merged sc) (hinp : sc.maps .input = some inp)
    (hf : m.bindings.get? keyFieldName = some (.text f)) :
    ∃ log, inputHasField.eval separator m =
      .ok (.bool (inp.has (.text f))) { m with log := log } := by
  obtain ⟨l, hl, -⟩ := h
  obtain ⟨ws, hc, row⟩ := hl.store.content_map hinp
  obtain ⟨log, hlog⟩ := eval_keyFieldName separator hf
  have hinput : (Expr.ref inputPath).eval separator m = .ok (.ref (l.cell (.map .input))) m :=
    eval_ref (hl.resolve_input (by simp [hinp]))
  have hentries : m.store.entries? (.ref (l.cell (.map .input))) = some ws := by
    rw [Store.entries?, hc]
  have hhas : Entries.has ws (.text f) = inp.has (.text f) := by
    have hrel := rowOf_get? row (.text f)
    rw [Entries.has, Entries.has]
    cases hi : inp.get? (.text f) <;> cases hw : Entries.get? ws (.text f) <;>
      rw [hi, hw] at hrel <;> first | rfl | cases hrel
  have hkey : hasKey (.ref (l.cell (.map .input))) (.text f) { m with log := log } =
      .ok (inp.has (.text f)) { m with log := log } := by
    rw [hasKey, Run.get_bind, Run.bind_ok (Run.asKey_text f), hentries, ← hhas]
    rfl
  refine ⟨log, ?_⟩
  rw [inputHasField, Expr.eval, Run.bind_ok hinput, Run.get_bind, hentries, Option.isSome_some,
    if_pos rfl, Run.bind_ok hlog, Run.bind_ok hkey]
  rfl

lemma pieceText_missingFieldMessage {index : String} (hindex : '$' ∉ index.toList)
    (mutation : KeyMutation) (hf : m.bindings.get? keyFieldName = some (.text f)) :
    pieceText m (pieces (missingFieldMessage index mutation)) =
      .ok (refusalText index mutation f).toList := by
  have htail : piecesFrom 0 ("$" ++ keyFieldName ++ "'.").toList =
      .reference ("$" ++ keyFieldName).toList keyFieldName.toList ::
        "'.".toList.map .literal := by decide
  have hrest : pieceText m ("'.".toList.map .literal) = .ok "'.".toList := by
    rw [pieceText, interpolatePieces_literals]
    rfl
  rw [pieces, toList_missingFieldMessage, piecesFrom_literal (notMem_refusalHead hindex mutation),
    pieceText_literals, htail, pieceText_keyFieldName hf, hrest, refusalText, String.toList_append,
    String.toList_append, List.append_assoc]
  rfl

/-- The caller is told which field is missing; only the name of the index may spoil this. -/
lemma exec_refusal (separator index : String) (mutation : KeyMutation)
    (hf : m.bindings.get? keyFieldName = some (.text f)) :
    ∃ e m', (Stmt.error (.text (missingFieldMessage index mutation)) none).exec separator m =
      .error e m' ∧
        ('$' ∉ index.toList → e = .raised (refusalText index mutation f) .null) := by
  have hraise : ∀ s m₁, (Expr.text (missingFieldMessage index mutation)).eval separator m =
      .ok (.text s) m₁ →
        (Stmt.error (.text (missingFieldMessage index mutation)) none).exec separator m =
          .error (.raised s .null) m₁ := by
    intro s m₁ h
    rw [Stmt.exec, Run.bind_ok h]
    rfl
  cases hpieces : pieceText m (pieces (missingFieldMessage index mutation)) with
  | error fault =>
    refine ⟨.fault fault, m, ?_, fun hindex => ?_⟩
    · rw [Stmt.exec, Run.bind_error (eval_text_error hpieces)]
    · rw [pieceText_missingFieldMessage hindex mutation hf] at hpieces
      cases hpieces
  | ok cs =>
    obtain ⟨log, hlog⟩ := eval_text_ok separator hpieces
    refine ⟨_, _, hraise _ _ hlog, fun hindex => ?_⟩
    rw [pieceText_missingFieldMessage hindex mutation hf] at hpieces
    rw [← Except.ok.inj hpieces, String.ofList_toList]

end Fields

/-! ## Going through the fields -/

/-- The variable for the fields of an index. -/
def keyFieldNames : String := "keyFieldNames"

/-- In the middle of a check: the scene, and whether a field was found. -/
structure Machine.Checking (m : Machine) (sc : Scene) (fields : List String) (seen : Bool) :
    Prop where
  merged : m.Merged sc
  seen : m.bindings.get? hasSeenSomeKeyArg = some (.bool seen)
  names : m.bindings.get? keyFieldNames = some (.list (fields.map .text))

namespace Machine

variable {m m' : Machine} {sc : Scene} {fields : List String} {seen : Bool}

namespace Checking

lemma extend (h : m.Checking sc fields seen) (hm : m.Extends m') : m'.Checking sc fields seen :=
  ⟨h.merged.extend hm, by rw [hm.bindings, h.seen], by rw [hm.bindings, h.names]⟩

/-- The next field. -/
lemma next (h : m.Checking sc fields seen) (f : String) :
    Machine.Checking { m with bindings := m.bindings.put keyFieldName (.text f) } sc fields seen :=
  ⟨h.merged.setVariable (by decide) (by decide) _,
    by rw [Entries.get?_put_of_ne _ _ (by decide), h.seen],
    by rw [Entries.get?_put_of_ne _ _ (by decide), h.names]⟩

lemma see (h : m.Checking sc fields seen) (seen' : Bool) :
    Machine.Checking { m with bindings := m.bindings.put hasSeenSomeKeyArg (.bool seen') }
      sc fields seen' :=
  ⟨h.merged.setVariable (by decide) (by decide) _, Entries.get?_put_self _ _ _,
    by rw [Entries.get?_put_of_ne _ _ (by decide), h.names]⟩

end Checking

end Machine

@[simp] lemma Value.holds_bool (b : Bool) : (Value.bool b).holds = b := by
  cases b <;> rfl

section Loops

variable {separator : String} {m : Machine} {sc : Scene} {inp : Entries MapKey Data}
  {fields fs : List String} {seen : Bool}

/-- What is done for each field first: a field of the input is seen. -/
def lookForField : Stmt :=
  .choice inputHasField [.set (.ref hasSeenSomeKeyArg) (.bool true)] none

/-- What is done for each field then: a field that the input lacks is refused. -/
def refuseField (index : String) (mutation : KeyMutation) : Stmt :=
  .choice (.and [.ref hasSeenSomeKeyArg, .not inputHasField])
    [.error (.text (missingFieldMessage index mutation)) none] none

lemma exec_lookForField (separator : String) {f : String} (h : m.Checking sc fields seen)
    (hinp : sc.maps .input = some inp) (hf : m.bindings.get? keyFieldName = some (.text f)) :
    (lookForField.exec separator).Reaches m fun m' =>
      m'.Checking sc fields (seen || inp.has (.text f)) := by
  obtain ⟨log, hlog⟩ := eval_inputHasField separator h.merged hinp hf
  have h' := h.extend (.of_log log)
  cases hhas : inp.has (.text f) with
  | false =>
    rw [hhas] at hlog
    refine ⟨_, exec_choice_none hlog rfl, ?_⟩
    rw [Bool.or_false]
    exact h'
  | true =>
    rw [hhas] at hlog
    refine ⟨_, ((exec_choice_true hlog rfl).trans (execBranch_singleton (by simp))).trans
      (exec_set_variable (by decide) (eval_bool true)), ?_⟩
    rw [Bool.or_true]
    exact h'.see true

lemma forMembers_cons_ok {name : String} {body : Run Unit} {v : Value} {vs : List Value}
    {m' : Machine} (h : body { m with bindings := m.bindings.put name v } = .ok () m') :
    forMembers name body (v :: vs) m = forMembers name body vs m' := by
  show (body >>= fun _ => forMembers name body vs) { m with bindings := m.bindings.put name v } = _
  rw [Run.bind_ok h]

lemma forMembers_cons_error {name : String} {body : Run Unit} {v : Value} {vs : List Value}
    {e : Failure} {m' : Machine}
    (h : body { m with bindings := m.bindings.put name v } = .error e m') :
    forMembers name body (v :: vs) m = .error e m' := by
  show (body >>= fun _ => forMembers name body vs) { m with bindings := m.bindings.put name v } = _
  rw [Run.bind_error h]

/-- The first time through the fields. -/
lemma forMembers_lookForField (hinp : sc.maps .input = some inp)
    (h : m.Checking sc fields seen) :
    (forMembers keyFieldName (execAll separator [lookForField]) (fs.map .text)).Reaches m
      fun m' => m'.Checking sc fields (seen || inp.hasSome fs) := by
  induction fs generalizing m seen with
  | nil => exact ⟨m, rfl, by simpa [Entries.hasSome] using h⟩
  | cons f fs ih =>
    obtain ⟨m₁, hbody, hm₁⟩ := exec_lookForField separator (h.next f) hinp
      (Entries.get?_put_self _ _ _)
    rw [← execAll_singleton] at hbody
    rw [Entries.hasSome, List.any_cons, ← Bool.or_assoc, List.map_cons, Run.Reaches,
      forMembers_cons_ok hbody]
    exact ih hm₁

/-- The field is to be refused. -/
lemma eval_refuseCondition (separator : String) {f : String} (h : m.Checking sc fields seen)
    (hinp : sc.maps .input = some inp) (hf : m.bindings.get? keyFieldName = some (.text f)) :
    ∃ log, (Expr.and [.ref hasSeenSomeKeyArg, .not inputHasField]).eval separator m =
      .ok (.bool (seen && !inp.has (.text f))) { m with log := log } := by
  have hseen : (Expr.ref hasSeenSomeKeyArg).eval separator m = .ok (.bool seen) m :=
    eval_ref (by rw [resolve_variable m.store m.bindings (by decide), h.seen]; rfl)
  cases seen with
  | false =>
    refine ⟨m.log, ?_⟩
    have hand : evalAnd separator [.ref hasSeenSomeKeyArg, .not inputHasField] m = .ok false m := by
      rw [evalAnd, Run.bind_ok hseen]
      rfl
    rw [Expr.eval, Run.bind_ok hand]
    rfl
  | true =>
    obtain ⟨log, hlog⟩ := eval_inputHasField separator h.merged hinp hf
    have hnot : (Expr.not inputHasField).eval separator m =
        .ok (.bool (!inp.has (.text f))) { m with log := log } := by
      rw [Expr.eval, Run.bind_ok hlog, Value.holds_bool]
      rfl
    have hand : evalAnd separator [.ref hasSeenSomeKeyArg, .not inputHasField] m =
        .ok (!inp.has (.text f)) { m with log := log } := by
      rw [evalAnd, Run.bind_ok hseen, if_pos (Value.holds_bool true), evalAnd, Run.bind_ok hnot,
        Value.holds_bool]
      cases inp.has (.text f) <;> rfl
    refine ⟨log, ?_⟩
    rw [Expr.eval, Run.bind_ok hand]
    rfl

variable {index : String} {mutation : KeyMutation}

/-- A field that the input has is passed over. -/
lemma exec_refuseField_pass (separator index : String) (mutation : KeyMutation) {f : String}
    (h : m.Checking sc fields seen)
    (hinp : sc.maps .input = some inp) (hf : m.bindings.get? keyFieldName = some (.text f))
    (hpass : (seen && !inp.has (.text f)) = false) :
    ((refuseField index mutation).exec separator).Reaches m
      fun m' => m'.Checking sc fields seen := by
  obtain ⟨log, hlog⟩ := eval_refuseCondition separator h hinp hf
  rw [hpass] at hlog
  exact ⟨_, exec_choice_none hlog rfl, h.extend (.of_log log)⟩

lemma exec_refuseField_refuse (separator index : String) (mutation : KeyMutation) {f : String}
    (h : m.Checking sc fields seen)
    (hinp : sc.maps .input = some inp) (hf : m.bindings.get? keyFieldName = some (.text f))
    (hrefuse : (seen && !inp.has (.text f)) = true) :
    ∃ e m', (refuseField index mutation).exec separator m = .error e m' ∧
      ('$' ∉ index.toList → e = .raised (refusalText index mutation f) .null) := by
  obtain ⟨log, hlog⟩ := eval_refuseCondition separator h hinp hf
  rw [hrefuse] at hlog
  have hf' : ({ m with log := log } : Machine).bindings.get? keyFieldName = some (.text f) := hf
  obtain ⟨e, m', hraise, he⟩ := exec_refusal separator index mutation hf'
  refine ⟨e, m', ?_, he⟩
  rw [refuseField, exec_choice_true hlog rfl, execBranch_singleton (by simp), hraise]

/-- The run ends well if no field is missing, and is refused otherwise. -/
def Run.Validates (x : Run Unit) (m : Machine) (index : String) (mutation : KeyMutation)
    (Q : Machine → Prop) : Option String → Prop
  | none => x.Reaches m Q
  | some f => ∃ e m', x m = .error e m' ∧
      ('$' ∉ index.toList → e = .raised (refusalText index mutation f) .null)

lemma Run.Validates.of_eq {x y : Run Unit} {m' : Machine} {Q : Machine → Prop}
    {missing : Option String} (h : y.Validates m' index mutation Q missing) (heq : x m = y m') :
    x.Validates m index mutation Q missing := by
  cases missing with
  | none =>
    obtain ⟨m'', hy, hm''⟩ := h
    exact ⟨m'', heq.trans hy, hm''⟩
  | some f =>
    obtain ⟨e, m'', hy, he⟩ := h
    exact ⟨e, m'', heq.trans hy, he⟩

lemma Run.Validates.mono {x : Run Unit} {Q Q' : Machine → Prop} {missing : Option String}
    (h : x.Validates m index mutation Q missing) (hQ : ∀ m', Q m' → Q' m') :
    x.Validates m index mutation Q' missing := by
  cases missing with
  | none => exact Run.Reaches.mono h hQ
  | some f => exact h

lemma execAll_cons_validates {s : Stmt} {ss : List Stmt} {P Q : Machine → Prop}
    {missing : Option String} (h : (s.exec separator).Reaches m P)
    (hss : ∀ m', P m' → (execAll separator ss).Validates m' index mutation Q missing) :
    (execAll separator (s :: ss)).Validates m index mutation Q missing := by
  obtain ⟨m', hs, hm'⟩ := h
  exact (hss m' hm').of_eq (execAll_cons_ok hs)

/-- The second time through the fields. -/
lemma forMembers_refuseField (hinp : sc.maps .input = some inp) (h : m.Checking sc fields seen) :
    (forMembers keyFieldName (execAll separator [refuseField index mutation])
      (fs.map .text)).Validates m index mutation (fun m' => m'.Checking sc fields seen)
        (fs.find? fun f => seen && !inp.has (.text f)) := by
  induction fs generalizing m with
  | nil => exact ⟨m, rfl, h⟩
  | cons f fs ih =>
    have h' := h.next f
    have hf : (m.bindings.put keyFieldName (Value.text f)).get? keyFieldName = some (.text f) :=
      Entries.get?_put_self _ _ _
    cases hrefuse : seen && !inp.has (.text f) with
    | false =>
      obtain ⟨m₁, hbody, hm₁⟩ := exec_refuseField_pass separator index mutation h' hinp hf hrefuse
      rw [← execAll_singleton] at hbody
      rw [List.find?_cons, hrefuse]
      exact (ih hm₁).of_eq (forMembers_cons_ok hbody)
    | true =>
      obtain ⟨e, m₁, hbody, he⟩ :=
        exec_refuseField_refuse separator index mutation h' hinp hf hrefuse
      rw [← execAll_singleton] at hbody
      rw [List.find?_cons, hrefuse]
      exact ⟨e, m₁, forMembers_cons_error hbody, he⟩

/-! ## The whole check -/

lemma evalAll_texts (h : ∀ f ∈ fs, '$' ∉ f.toList) :
    evalAll separator (fs.map .text) m = .ok (fs.map .text) m := by
  induction fs with
  | nil =>
    rw [List.map_nil, evalAll]
    rfl
  | cons f fs ih =>
    rw [List.map_cons, evalAll, Run.bind_ok (eval_text_plain (h f (by simp))),
      Run.bind_ok (ih fun g hg => h g (by simp [hg]))]
    rfl

/-- A loop over the fields of an index. -/
lemma exec_forEach {body : List Stmt} (h : m.Checking sc fields seen) :
    (Stmt.forEach keyFieldName (.ref keyFieldNames) body).exec separator m =
      forMembers keyFieldName (execAll separator body) (fields.map .text) m := by
  have hnames : (Expr.ref keyFieldNames).eval separator m =
      .ok (.list (fields.map .text)) m :=
    eval_ref (by rw [resolve_variable m.store m.bindings (by decide), h.names]; rfl)
  have hmembers : loopMembers (.list (fields.map .text)) m = .ok (fields.map .text) m := rfl
  rw [Stmt.exec, Run.bind_ok hnames, Run.bind_ok hmembers]

/-- The check of the input for an index with two or more sort fields. -/
def indexValidation (i : IndexDecl) (mutation : KeyMutation) : Stmt :=
  .block ("Validate " ++ mutation.name ++ " mutation for @index '" ++ i.name ++ "'") [
    .set (.ref hasSeenSomeKeyArg) (.bool false),
    .set (.ref keyFieldNames) (.list (i.sortFields.map .text)),
    .forEach keyFieldName (.ref keyFieldNames) [lookForField],
    .forEach keyFieldName (.ref keyFieldNames) [refuseField i.name mutation]]

lemma validateIndexArgument_eq {i : IndexDecl} (hcomposite : i.isComposite = true)
    (mutation : KeyMutation) :
    validateIndexArgument i mutation = some (indexValidation i mutation) :=
  if_pos hcomposite

lemma exec_beginCheck (h : m.Merged sc) :
    ((Stmt.set (.ref hasSeenSomeKeyArg) (.bool false)).exec separator).Reaches m fun m' =>
      m'.Merged sc ∧ m'.bindings.get? hasSeenSomeKeyArg = some (.bool false) :=
  ⟨_, exec_set_variable (by decide) (eval_bool false),
    h.setVariable (by decide) (by decide) _, Entries.get?_put_self _ _ _⟩

lemma exec_nameFields (h : m.Merged sc)
    (hseen : m.bindings.get? hasSeenSomeKeyArg = some (.bool seen))
    (hfields : ∀ f ∈ fields, '$' ∉ f.toList) :
    ((Stmt.set (.ref keyFieldNames) (.list (fields.map .text))).exec separator).Reaches m
      fun m' => m'.Checking sc fields seen := by
  have heval : (Expr.list (fields.map .text)).eval separator m =
      .ok (.list (fields.map .text)) m := by
    rw [Expr.eval, Run.bind_ok (evalAll_texts hfields)]
    rfl
  exact ⟨_, exec_set_variable (by decide) heval, h.setVariable (by decide) (by decide) _,
    by rw [Entries.get?_put_of_ne _ _ (by decide), hseen], Entries.get?_put_self _ _ _⟩

lemma missingField?_eq_find? (inp : Entries MapKey Data) (fields : List String) :
    missingField? inp fields =
      fields.find? fun f => inp.hasSome fields && !inp.has (.text f) := by
  rw [missingField?]
  cases inp.hasSome fields with
  | false => exact (List.find?_eq_none.mpr (by simp)).symm
  | true => simp

/-- **Input that has some but not all fields of an index is refused.** All other input is left
alone, and it is known whether it has a field of the index. -/
theorem exec_validateIndexArgument (separator : String) (mutation : KeyMutation) {i : IndexDecl}
    (h : m.Merged sc) (hinp : sc.maps .input = some inp)
    (hfields : ∀ f ∈ i.sortFields, '$' ∉ f.toList) :
    ((indexValidation i mutation).exec separator).Validates m i.name mutation
      (fun m' => m'.Merged sc ∧
        m'.bindings.get? hasSeenSomeKeyArg = some (.bool (inp.hasSome i.sortFields)))
      (missingField? inp i.sortFields) := by
  rw [indexValidation, Stmt.exec]
  refine execAll_cons_validates (exec_beginCheck h) fun m₁ hm₁ => ?_
  refine execAll_cons_validates (exec_nameFields hm₁.1 hm₁.2 hfields) fun m₂ hm₂ => ?_
  have hlook : ((Stmt.forEach keyFieldName (.ref keyFieldNames) [lookForField]).exec
      separator).Reaches m₂ fun m' => m'.Checking sc i.sortFields (inp.hasSome i.sortFields) := by
    rw [Run.Reaches, exec_forEach hm₂]
    exact forMembers_lookForField hinp hm₂
  refine execAll_cons_validates hlook fun m₃ hm₃ => ?_
  have hrefuse : (forMembers keyFieldName (execAll separator [refuseField i.name mutation])
      (i.sortFields.map .text)).Validates m₃ i.name mutation
        (fun m' => m'.Checking sc i.sortFields (inp.hasSome i.sortFields))
        (missingField? inp i.sortFields) := by
    rw [missingField?_eq_find?]
    exact forMembers_refuseField hinp hm₃
  refine (hrefuse.of_eq ?_).mono fun m' hm' => ⟨hm'.merged, hm'.seen⟩
  rw [execAll_singleton, exec_forEach hm₃]

end Loops

end Template

end TableKeys
