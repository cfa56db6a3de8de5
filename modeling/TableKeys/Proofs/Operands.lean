/-
# Operands of conditions

Before a condition on the sort attribute is added, its operand is made ready. For a composite sort
key the leading components are put together in a variable: after each component the variable holds
the components so far, joined by the separator (`exec_assembleFrom`). For any other key there is
nothing to do. Either way the operand then is an expression that supplies the stored value
(`exec_sortOperand`), as long as the variable keeps its value.
-/
import TableKeys.Proofs.Arguments
import TableKeys.Proofs.KeyCondition

namespace TableKeys

open Template Snippet

/-! ## Leading components -/

section Leading

variable {d : Data} {f : String} {fs : List String}

lemma leadingTexts_of_null (h : (d.member f).isNull = true) :
    leadingTexts d (f :: fs) = .ok [] := by
  simp [leadingTexts, h]
  rfl

lemma leadingTexts_cons (h : (d.member f).isNull = false) :
    leadingTexts d (f :: fs) = do
      let t ← (d.member f).interpolated
      let ts ← leadingTexts d fs
      return t :: ts := by
  rw [leadingTexts, List.map_cons, List.takeWhile_cons_of_pos (by simp [h]), List.mapM_cons]
  rfl

end Leading

namespace Template

lemma isBracedPath_of_isSchemaName {name : String} (h : isSchemaName name = true) :
    isBracedPath name.toList = true := by
  obtain ⟨c, cs, hcs, hc, hall⟩ := isSchemaName_iff.mp h
  rw [hcs, isBracedPath, hc, Bool.true_and, List.all_eq_true]
  exact fun d hd => isBracedPathChar_of_isSchemaChar (hall d hd)

lemma isBracedPath_append {path s : String} (h : isBracedPath path.toList = true)
    (hs : ∀ c ∈ s.toList, isBracedPathChar c = true) :
    isBracedPath (path ++ s).toList = true := by
  rw [String.toList_append]
  match hp : path.toList, h with
  | c :: cs, h =>
    obtain ⟨hc, hcs⟩ := Bool.and_eq_true_iff.mp h
    rw [List.cons_append, isBracedPath, hc, Bool.true_and, List.all_eq_true]
    exact List.forall_mem_append.mpr ⟨List.all_eq_true.mp hcs, hs⟩

lemma isBracedPath_argument {name : String} (h : isSchemaName name = true) :
    isBracedPath ("ctx.args." ++ name).toList = true := by
  have hpath := isBracedPath_child (show isBracedPath "ctx.args".toList = true by decide) h
  rwa [show "ctx.args" ++ "." = "ctx.args." from rfl] at hpath

section Assembling

variable {separator keySeparator operand name field : String} {m₀ m : Machine} {l : Layout}
  {sc : Scene} {d : Data} {v : Value} {texts done : List String} {t : String}

/-- The next component comes after those that the variable holds, if it can be a text. -/
lemma pieceText_assembledText (hname : isSchemaName name = true)
    (hvariable : m.bindings.get? name = some (.text (keySeparator.intercalate done)))
    (hbraced : isBracedPath (child operand field).toList = true)
    (hseparator : '$' ∉ keySeparator.toList)
    (hpath : resolve m.store m.bindings (child operand field) = .ok v) :
    pieceText m (pieces (assembledText operand name keySeparator done.isEmpty field)) =
      (fun t => (keySeparator.intercalate (done ++ [t])).toList) <$>
        referenceText m.store (braced (child operand field)) v := by
  have hcomponent : pieceText m (piecesFrom 0 (braced (child operand field)).toList) =
      String.toList <$> referenceText m.store (braced (child operand field)) v := by
    have hp := piecesFrom_braced hbraced []
    rw [List.append_nil] at hp
    rw [hp, pieceText_reference hpath]
    cases referenceText m.store (braced (child operand field)) v with
    | error f => rfl
    | ok t => simp [piecesFrom, pieceText_nil, pure, Except.pure, bind, Except.bind]
  cases hdone : done.isEmpty with
  | true =>
    obtain rfl := List.isEmpty_iff.mp hdone
    rw [assembledText, if_pos rfl, pieces, hcomponent]
    simp
  | false =>
    have hne : done ≠ [] := by simpa using hdone
    have hresolve : resolve m.store m.bindings name =
        .ok (.text (keySeparator.intercalate done)) := by
      rw [resolve_variable m.store m.bindings hname, hvariable]
      rfl
    have hshown : referenceText m.store (braced name) (.text (keySeparator.intercalate done)) =
        .ok (keySeparator.intercalate done) := rfl
    rw [assembledText, if_neg (by simp), pieces, String.toList_append, String.toList_append,
      List.append_assoc, piecesFrom_braced (isBracedPath_of_isSchemaName hname),
      piecesFrom_literal hseparator, pieceText_reference hresolve, hshown, pieceText_literals,
      hcomponent]
    cases referenceText m.store (braced (child operand field)) v with
    | error f => rfl
    | ok t =>
      simp [String.intercalate_append_of_ne_nil hne, pure, Except.pure, bind, Except.bind]

/-- The same for an operand of the scene. -/
lemma pieceText_component (h₀ : m₀.Holds l sc) (hm : m₀.Continues m)
    (hoperand : sc.Leads operand d) (hbraced : isBracedPath operand.toList = true)
    (hname : isSchemaName name = true) (hseparator : '$' ∉ keySeparator.toList)
    (hfield : isSchemaName field = true) (hpresent : (d.member field).isNull = false)
    (hvariable : m.bindings.get? name = some (.text (keySeparator.intercalate done))) :
    pieceText m (pieces (assembledText operand name keySeparator done.isEmpty field)) =
      (fun t => (keySeparator.intercalate (done ++ [t])).toList) <$>
        (d.member field).interpolated := by
  obtain ⟨v, hv, hshows⟩ := hoperand.member hfield m₀ m l h₀ hm
  rw [pieceText_assembledText hname hvariable (isBracedPath_child hbraced hfield) hseparator hv,
    referenceText_eq hshows, if_neg (by simp [hpresent])]

/-- A component that can be a text is taken up. -/
lemma exec_component (separator : String) (h₀ : m₀.Holds l sc) (hm : m₀.Continues m)
    (hoperand : sc.Leads operand d) (hbraced : isBracedPath operand.toList = true)
    (hname : isSchemaName name = true) (hseparator : '$' ∉ keySeparator.toList)
    (hfield : isSchemaName field = true) (hpresent : (d.member field).isNull = false)
    (hvariable : m.bindings.get? name = some (.text (keySeparator.intercalate done)))
    (ht : (d.member field).interpolated = .ok t) :
    ((Stmt.set (.ref name)
        (.text (assembledText operand name keySeparator done.isEmpty field))).exec
          separator).Reaches m
      fun m' => m.Rebinds name m' ∧
        m'.bindings.get? name = some (.text (keySeparator.intercalate (done ++ [t]))) := by
  have htext :=
    pieceText_component h₀ hm hoperand hbraced hname hseparator hfield hpresent hvariable
  rw [ht] at htext
  obtain ⟨log, hlog⟩ := eval_text_ok separator htext
  rw [String.ofList_toList] at hlog
  exact ⟨_, exec_set_variable (notMem_of_isSchemaName hname (by decide)) hlog,
    Machine.Rebinds.put m name _ log, Entries.get?_put_self _ _ _⟩

/-- **The components from some field on are taken up, as long as they are there.** One that cannot
be a text ends the run with its fault. -/
theorem exec_assembleFrom (separator : String) (done : List String) {fields : List String}
    (h₀ : m₀.Holds l sc) (hm : m₀.Continues m) (hoperand : sc.Leads operand d)
    (hbraced : isBracedPath operand.toList = true) (hname : isSchemaName name = true)
    (hctx : name ≠ "ctx") (hseparator : '$' ∉ keySeparator.toList)
    (hfields : ∀ f ∈ fields, isSchemaName f = true)
    (hvariable : m.bindings.get? name = some (.text (keySeparator.intercalate done))) :
    match leadingTexts d fields with
    | .ok texts =>
      (execAll separator (assembleFrom operand name keySeparator done.isEmpty fields)).Reaches m
        fun m' => m.Rebinds name m' ∧
          m'.bindings.get? name = some (.text (keySeparator.intercalate (done ++ texts)))
    | .error fault =>
      (execAll separator
        (assembleFrom operand name keySeparator done.isEmpty fields)).Faults fault m := by
  -- by induction on the fields; `done` are the components that the variable holds
  induction fields generalizing m done with
  | nil =>
    rw [show leadingTexts d [] = .ok [] from rfl]
    exact ⟨m, execAll_nil, .refl m name, by rwa [List.append_nil]⟩
  | cons f fs ih =>
    have hf := hfields f (by simp)
    have hcondition := h₀.eval_present separator hm (hoperand.member hf)
    rw [assembleFrom]
    cases hnull : (d.member f).isNull with
    | true =>
      rw [leadingTexts_of_null hnull]
      refine ⟨m, ?_, .refl m name, by rwa [List.append_nil]⟩
      rw [execAll_singleton, exec_choice_none hcondition (by simp [hnull, Value.holds])]
    | false =>
      have htaken : (Value.scalar (.bool !(d.member f).isNull)).holds = true := by
        simp [hnull, Value.holds]
      rw [leadingTexts_cons hnull]
      cases ht : (d.member f).interpolated with
      | error fault =>
        have htext := pieceText_component h₀ hm hoperand hbraced hname hseparator hf hnull hvariable
        rw [ht] at htext
        exact faults_cons (faults_choice hcondition htaken (by simp)
          (faults_cons (set_faults ⟨m, eval_text_error htext⟩)))
      | ok t =>
        obtain ⟨m₁, hset, hrebinds, hvariable₁⟩ :=
          exec_component separator h₀ hm hoperand hbraced hname hseparator hf hnull hvariable ht
        have hrest := ih (done ++ [t]) (hm.rebind hrebinds hctx)
          (fun g hg => hfields g (by simp [hg])) hvariable₁
        rw [show (done ++ [t]).isEmpty = false by simp] at hrest
        cases hts : leadingTexts d fs with
        | error fault =>
          rw [hts] at hrest
          refine faults_cons (faults_choice hcondition htaken (by simp)
            (faults_cons_after ⟨m₁, hset, rfl⟩ ?_))
          rintro _ rfl
          exact hrest
        | ok ts =>
          rw [hts] at hrest
          obtain ⟨m', hexec, hm', hvalue⟩ := hrest
          refine ⟨m', ?_, hrebinds.trans hm', by rwa [List.append_assoc] at hvalue⟩
          rw [execAll_singleton, exec_choice_true hcondition htaken,
            execBranch_eq_execAll _ _ (by simp), execAll_cons_ok hset, hexec]

/-- **The leading components of an operand are put together in a variable**, unless one of them
cannot be a text. -/
theorem exec_assembleComposite (separator : String) {o : Options} {fields : List String}
    (h₀ : m₀.Holds l sc) (hm : m₀.Continues m) (hoperand : sc.Leads operand d)
    (hbraced : isBracedPath operand.toList = true) (hname : isSchemaName name = true)
    (hctx : name ≠ "ctx") (hseparator : '$' ∉ o.keySeparator.toList)
    (hfields : ∀ f ∈ fields, isSchemaName f = true) :
    match leadingTexts d fields with
    | .ok texts =>
      ((assembleComposite operand fields name o).exec separator).Reaches m fun m' =>
        m.Rebinds name m' ∧
          m'.bindings.get? name = some (.text (o.keySeparator.intercalate texts))
    | .error fault =>
      ((assembleComposite operand fields name o).exec separator).Faults fault m := by
  have hset : (Stmt.set (.ref name) (.text "")).exec separator m =
      .ok () { m with bindings := m.bindings.put name (.text "") } :=
    exec_set_variable (notMem_of_isSchemaName hname (by decide)) (eval_text_plain (by decide))
  have hrebinds := Machine.Rebinds.put m name (.text "") m.log
  have hfrom := exec_assembleFrom separator [] h₀ (hm.rebind hrebinds hctx) hoperand hbraced hname
    hctx hseparator hfields (Entries.get?_put_self _ _ _)
  rw [assembleComposite, Stmt.exec]
  cases htexts : leadingTexts d fields with
  | ok texts =>
    rw [htexts] at hfrom
    obtain ⟨m', hexec, hm', hvalue⟩ := hfrom
    exact ⟨m', (execAll_cons_ok hset).trans hexec, hrebinds.trans hm', hvalue⟩
  | error fault =>
    rw [htexts] at hfrom
    refine faults_cons_after ⟨_, hset, rfl⟩ ?_
    rintro _ rfl
    exact hfrom

/-! ## Operands that are ready -/

/-- As long as the variable keeps its value, the expression has a value with this stored form. -/
def Supplies (separator : String) (m₀ m : Machine) (name : String) (e : Expr)
    (a : AttributeValue) : Prop :=
  ∀ m₁, m₀.Continues m₁ → m₁.bindings.get? name = m.bindings.get? name →
    ∃ v m₂, e.eval separator m₁ = .ok v m₂ ∧ m₁.Extends m₂ ∧ (m₂.store.read v).stored = .ok a

lemma Supplies.keep {m' : Machine} {e : Expr} {a : AttributeValue}
    (h : Supplies separator m₀ m name e a)
    (hvalue : m'.bindings.get? name = m.bindings.get? name) :
    Supplies separator m₀ m' name e a :=
  fun m₁ hm₁ hname => h m₁ hm₁ (hname.trans hvalue)

lemma supplies_variable (hname : isSchemaName name = true)
    (hvalue : m.bindings.get? name = some (.text t)) :
    Supplies separator m₀ m name (.text (braced name)) (.text t) := by
  intro m₁ _ hsame
  have hpath : resolve m₁.store m₁.bindings name = .ok (.text t) := by
    rw [resolve_variable m₁.store m₁.bindings hname, hsame, hvalue]
    rfl
  have htext : pieceText m₁ (pieces (braced name)) = .ok t.toList := by
    have hp := piecesFrom_braced (isBracedPath_of_isSchemaName hname) []
    rw [List.append_nil] at hp
    rw [pieces, hp, pieceText_reference hpath, show referenceText m₁.store (braced name) (.text t) =
      .ok t from rfl]
    simp [piecesFrom, pieceText_nil, pure, Except.pure, bind, Except.bind]
  obtain ⟨log, hlog⟩ := eval_text_ok separator htext
  rw [String.ofList_toList] at hlog
  exact ⟨_, _, hlog, .of_log log, rfl⟩

lemma supplies_operand {a : AttributeValue} (h₀ : m₀.Holds l sc) (hoperand : sc.Leads operand d)
    (ha : d.stored = .ok a) : Supplies separator m₀ m name (.ref operand) a := by
  intro m₁ hm₁ _
  obtain ⟨v, hv, hshows⟩ := h₀.eval_leads separator hm₁ hoperand
  exact ⟨v, m₁, hv, .refl m₁, by rw [hshows.read_eq, ha]⟩

/-- **An operand is made ready**, and what it supplies is its stored form. -/
theorem exec_sortOperand (separator : String) {k : KeyDecl} {o : Options} {a : AttributeValue}
    (h₀ : m₀.Holds l sc) (hm : m₀.Continues m) (hoperand : sc.Leads operand d)
    (hbraced : isBracedPath operand.toList = true) (hname : isSchemaName name = true)
    (hctx : name ≠ "ctx") (hk : k.Plain o) (ha : storedSortValue k o d = .ok a) :
    (execAll separator (sortOperand k operand name o).1).Reaches m fun m' =>
      m.Rebinds name m' ∧ Supplies separator m₀ m' name (sortOperand k operand name o).2 a := by
  unfold storedSortValue sortValue at ha
  unfold sortOperand
  cases hcomposite : k.isComposite with
  | false =>
    rw [hcomposite] at ha
    exact ⟨m, execAll_nil, .refl m name, supplies_operand h₀ hoperand ha⟩
  | true =>
    rw [hcomposite, if_pos rfl] at ha
    obtain ⟨joined, hjoined, ha⟩ := exists_of_bind_eq_ok ha
    obtain ⟨texts, htexts, rfl⟩ := exists_of_map_eq_ok hjoined
    obtain rfl := Except.ok.inj ha
    have hassembled := exec_assembleComposite separator h₀ hm hoperand hbraced hname hctx
      hk.keySeparator hk.sortFields
    rw [htexts] at hassembled
    obtain ⟨m', hexec, hm', hvalue⟩ := hassembled
    refine ⟨m', ?_, hm', supplies_variable hname hvalue⟩
    rw [if_pos rfl, execAll_singleton]
    exact hexec

end Assembling

end Template

end TableKeys
