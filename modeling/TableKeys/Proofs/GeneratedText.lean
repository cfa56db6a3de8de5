/-
# Generated templates can be read

The snippets of keys and indexes are built so that their texts show their trees: what stands
under `!`, `==` and `&&` needs no parentheses, no text holds a double quote, and no
conjunction stands in another. That holds for fields named as in a schema, whatever the
separators and the name of an index, as long as these have no double quotes and no newlines.

* `readExpr_of_generated`: every expression in a generated tree is read back from its text;
* `readStatements_of_generated`: so is the tree, but for the nesting of compounds.
-/
import TableKeys.Proofs.SchemaName
import TableKeys.Proofs.StmtReader
import TableKeys.Snippet.Request

namespace TableKeys.Template

open Text Snippet

/-! ## Parts of expressions -/

namespace Expr

mutual

/-- The expressions that occur in an expression, itself included. -/
def parts : Expr → List Expr
  | object entries => object entries :: partsOfEntries entries
  | keyed entries => keyed entries :: partsOfKeyed entries
  | list items => list items :: partsOfAll items
  | isNull e => isNull e :: e.parts
  | not e => not e :: e.parts
  | and es => and es :: partsOfAll es
  | equals a b => equals a b :: (a.parts ++ b.parts)
  | containsKey target key => containsKey target key :: (target.parts ++ key.parts)
  | defaultIfNull e default => defaultIfNull e default :: (e.parts ++ default.parts)
  | toAttribute e => toAttribute e :: e.parts
  | toFilter e => toFilter e :: e.parts
  | e => [e]

/-- The expressions that occur in several expressions. -/
def partsOfAll : List Expr → List Expr
  | [] => []
  | e :: es => e.parts ++ partsOfAll es

/-- The expressions that occur in the entries of a map. -/
def partsOfEntries : List (String × Expr) → List Expr
  | [] => []
  | (_, e) :: entries => e.parts ++ partsOfEntries entries

/-- The expressions that occur in the entries of a map with any keys. -/
def partsOfKeyed : List (Scalar × Expr) → List Expr
  | [] => []
  | (_, e) :: entries => e.parts ++ partsOfKeyed entries

end

mutual

/-- No conjunction stands directly in another. -/
def isUnnested : Expr → Bool
  | object entries => areUnnestedEntries entries
  | list items => areUnnested items
  | isNull e | not e | toAttribute e | toFilter e => isUnnested e
  | and es => es.all (!·.isConjunction) && areUnnested es
  | equals a b | containsKey a b | defaultIfNull a b => isUnnested a && isUnnested b
  | _ => true

/-- No conjunction stands directly in another in any of them. -/
def areUnnested : List Expr → Bool
  | [] => true
  | e :: es => isUnnested e && areUnnested es

/-- No conjunction stands directly in another in any entry. -/
def areUnnestedEntries : List (String × Expr) → Bool
  | [] => true
  | (_, e) :: entries => isUnnested e && areUnnestedEntries entries

end

mutual

/-- An expression in which no conjunction stands in another is flat. -/
theorem flat_of_isUnnested (e : Expr) (h : e.isUnnested = true) : e.flat = e := by
  cases e with
  | object entries => rw [flat, flatEntries_of_areUnnested entries h]
  | list items => rw [flat, flatAll_of_areUnnested items h]
  | isNull e => rw [flat, flat_of_isUnnested e h]
  | not e => rw [flat, flat_of_isUnnested e h]
  | toAttribute e => rw [flat, flat_of_isUnnested e h]
  | toFilter e => rw [flat, flat_of_isUnnested e h]
  | and es =>
    obtain ⟨hconjuncts, hes⟩ := Bool.and_eq_true_iff.mp h
    rw [flat, flatConjuncts_of_areUnnested es hconjuncts hes]
  | equals a b =>
    obtain ⟨ha, hb⟩ := Bool.and_eq_true_iff.mp h
    rw [flat, flat_of_isUnnested a ha, flat_of_isUnnested b hb]
  | containsKey a b =>
    obtain ⟨ha, hb⟩ := Bool.and_eq_true_iff.mp h
    rw [flat, flat_of_isUnnested a ha, flat_of_isUnnested b hb]
  | defaultIfNull a b =>
    obtain ⟨ha, hb⟩ := Bool.and_eq_true_iff.mp h
    rw [flat, flat_of_isUnnested a ha, flat_of_isUnnested b hb]
  | _ => rfl

theorem flatAll_of_areUnnested (es : List Expr) (h : areUnnested es = true) :
    flatAll es = es := by
  cases es with
  | nil => rfl
  | cons e es =>
    obtain ⟨he, hes⟩ := Bool.and_eq_true_iff.mp h
    rw [flatAll, flat_of_isUnnested e he, flatAll_of_areUnnested es hes]

theorem flatEntries_of_areUnnested (entries : List (String × Expr))
    (h : areUnnestedEntries entries = true) : flatEntries entries = entries := by
  cases entries with
  | nil => rfl
  | cons entry entries =>
    obtain ⟨name, e⟩ := entry
    obtain ⟨he, hes⟩ := Bool.and_eq_true_iff.mp h
    rw [flatEntries, flat_of_isUnnested e he, flatEntries_of_areUnnested entries hes]

theorem flatConjuncts_of_areUnnested (es : List Expr)
    (hconjuncts : es.all (!·.isConjunction) = true) (h : areUnnested es = true) :
    flatConjuncts es = es := by
  cases es with
  | nil => rfl
  | cons e es =>
    obtain ⟨he, hes⟩ := Bool.and_eq_true_iff.mp h
    obtain ⟨hconjunct, hconjuncts⟩ := Bool.and_eq_true_iff.mp hconjuncts
    rw [flatConjuncts, conjuncts_flat ((Bool.not_eq_true' _).mp hconjunct),
      flat_of_isUnnested e he, flatConjuncts_of_areUnnested es hconjuncts hes]
    rfl

end

/-- The expression is read back from its text as it is. -/
def isExact (e : Expr) : Bool :=
  e.isReadable && e.isUnnested

lemma isExact_iff {e : Expr} :
    e.isExact = true ↔ e.isReadable = true ∧ e.isUnnested = true := by
  rw [isExact, Bool.and_eq_true]

mutual

/-- What occurs in an expression that is read back as it is, is so too. -/
theorem isExact_of_mem_parts (e : Expr) (h : e.isExact = true) :
    ∀ p ∈ e.parts, p.isExact = true := by
  obtain ⟨hr, hu⟩ := isExact_iff.mp h
  cases e with
  | object entries =>
    exact List.forall_mem_cons.mpr ⟨h, isExact_of_mem_partsOfEntries entries hr hu⟩
  | list items => exact List.forall_mem_cons.mpr ⟨h, isExact_of_mem_partsOfAll items hr hu⟩
  | isNull e => exact List.forall_mem_cons.mpr ⟨h, isExact_of_mem_parts e h⟩
  | toAttribute e => exact List.forall_mem_cons.mpr ⟨h, isExact_of_mem_parts e h⟩
  | toFilter e => exact List.forall_mem_cons.mpr ⟨h, isExact_of_mem_parts e h⟩
  | not e =>
    have he := isExact_iff.mpr ⟨(Bool.and_eq_true_iff.mp hr).2, hu⟩
    exact List.forall_mem_cons.mpr ⟨h, isExact_of_mem_parts e he⟩
  | and es =>
    exact List.forall_mem_cons.mpr ⟨h, isExact_of_mem_partsOfAll es
      (Bool.and_eq_true_iff.mp hr).2 (Bool.and_eq_true_iff.mp hu).2⟩
  | equals a b =>
    simp only [isReadable, isUnnested, Bool.and_eq_true] at hr hu
    exact List.forall_mem_cons.mpr ⟨h, List.forall_mem_append.mpr
      ⟨isExact_of_mem_parts a (isExact_iff.mpr ⟨hr.1.2, hu.1⟩),
        isExact_of_mem_parts b (isExact_iff.mpr ⟨hr.2, hu.2⟩)⟩⟩
  | containsKey target key =>
    cases target with
    | ref path =>
      simp only [isReadable, isUnnested, Bool.and_eq_true] at hr hu
      exact List.forall_mem_cons.mpr ⟨h, List.forall_mem_append.mpr
        ⟨List.forall_mem_singleton.mpr (isExact_iff.mpr ⟨hr.1, rfl⟩),
          isExact_of_mem_parts key (isExact_iff.mpr ⟨hr.2, hu.2⟩)⟩⟩
    | _ => cases hr
  | defaultIfNull e default =>
    simp only [isReadable, isUnnested, Bool.and_eq_true] at hr hu
    exact List.forall_mem_cons.mpr ⟨h, List.forall_mem_append.mpr
      ⟨isExact_of_mem_parts e (isExact_iff.mpr ⟨hr.1, hu.1⟩),
        isExact_of_mem_parts default (isExact_iff.mpr ⟨hr.2, hu.2⟩)⟩⟩
  | ref | text | int | bool => exact List.forall_mem_singleton.mpr h
  | misfit | keyed | stray | unlisted => cases hr

theorem isExact_of_mem_partsOfAll (es : List Expr) (hr : areReadable es = true)
    (hu : areUnnested es = true) : ∀ p ∈ partsOfAll es, p.isExact = true := by
  cases es with
  | nil => exact fun _ hp => absurd hp List.not_mem_nil
  | cons e es =>
    obtain ⟨her, hr⟩ := Bool.and_eq_true_iff.mp hr
    obtain ⟨heu, hu⟩ := Bool.and_eq_true_iff.mp hu
    exact List.forall_mem_append.mpr ⟨isExact_of_mem_parts e (isExact_iff.mpr ⟨her, heu⟩),
      isExact_of_mem_partsOfAll es hr hu⟩

theorem isExact_of_mem_partsOfEntries (entries : List (String × Expr))
    (hr : areReadableEntries entries = true) (hu : areUnnestedEntries entries = true) :
    ∀ p ∈ partsOfEntries entries, p.isExact = true := by
  cases entries with
  | nil => exact fun _ hp => absurd hp List.not_mem_nil
  | cons entry entries =>
    obtain ⟨her, hr⟩ := Bool.and_eq_true_iff.mp hr
    obtain ⟨heu, hu⟩ := Bool.and_eq_true_iff.mp hu
    exact List.forall_mem_append.mpr ⟨isExact_of_mem_parts entry.2 (isExact_iff.mpr ⟨her, heu⟩),
      isExact_of_mem_partsOfEntries entries hr hu⟩

end

end Expr

/-! ## Expressions in statements -/

namespace Stmt

mutual

/-- The expressions that stand in a statement, without the parts of each. -/
def roots : Stmt → List Expr
  | compound body | block _ body => rootsOfAll body
  | set target value | putAll target value => [target, value]
  | mapPut target key value => [target, key, value]
  | metadataPut _ value | emit value => [value]
  | choice condition body none => condition :: rootsOfAll body
  | choice condition body (some otherwise) =>
    condition :: (rootsOfAll body ++ rootsOfAll otherwise)
  | forEach _ items body => items :: rootsOfAll body
  | error message none => [message]
  | error message (some type) => [message, type]
  | stray _ | unlisted .. => []

/-- The expressions that stand in several statements. -/
def rootsOfAll : List Stmt → List Expr
  | [] => []
  | s :: ss => roots s ++ rootsOfAll ss

end

/-- The expressions that occur in a statement. -/
def expressions (s : Stmt) : List Expr :=
  s.roots.flatMap Expr.parts

mutual

/-- What stands in a readable statement is readable. -/
theorem isReadable_of_mem_roots : ∀ s : Stmt, s.isReadable = true →
    ∀ e ∈ s.roots, e.isReadable = true
  | compound body, h => isReadable_of_mem_rootsOfAll body h
  | block name body, h => isReadable_of_mem_rootsOfAll body (Bool.and_eq_true_iff.mp h).2
  | set (.ref path) value, h | putAll (.ref path) value, h => by
    obtain ⟨hpath, hvalue⟩ := Bool.and_eq_true_iff.mp h
    have htarget : (Expr.ref path).isReadable = true := hpath
    simp [roots, htarget, hvalue]
  | mapPut (.ref path) key value, h => by
    simp only [isReadable, Bool.and_eq_true] at h
    have htarget : (Expr.ref path).isReadable = true := h.1.1.1
    simp [roots, htarget, h]
  | metadataPut name value, h => by
    simpa [roots] using (Bool.and_eq_true_iff.mp h).2
  | choice condition body none, h => by
    obtain ⟨hcondition, hbody⟩ := Bool.and_eq_true_iff.mp h
    exact List.forall_mem_cons.mpr ⟨hcondition, isReadable_of_mem_rootsOfAll body hbody⟩
  | choice condition body (some otherwise), h => by
    simp only [isReadable, Bool.and_eq_true] at h
    exact List.forall_mem_cons.mpr ⟨h.1.1, List.forall_mem_append.mpr
      ⟨isReadable_of_mem_rootsOfAll body h.1.2,
        isReadable_of_mem_rootsOfAll otherwise h.2⟩⟩
  | forEach name items body, h => by
    simp only [isReadable, Bool.and_eq_true] at h
    exact List.forall_mem_cons.mpr ⟨h.1.2, isReadable_of_mem_rootsOfAll body h.2⟩
  | error message none, h => List.forall_mem_singleton.mpr h
  | error message (some type), h => by
    obtain ⟨hmessage, htype⟩ := Bool.and_eq_true_iff.mp h
    simp [roots, hmessage, htype]
  | emit value, h => List.forall_mem_singleton.mpr h

theorem isReadable_of_mem_rootsOfAll : ∀ ss : List Stmt, areReadable ss = true →
    ∀ e ∈ rootsOfAll ss, e.isReadable = true
  | [], _ => fun _ he => absurd he List.not_mem_nil
  | s :: ss, h => by
    obtain ⟨hs, hss⟩ := Bool.and_eq_true_iff.mp h
    exact List.forall_mem_append.mpr
      ⟨isReadable_of_mem_roots s hs, isReadable_of_mem_rootsOfAll ss hss⟩

end

lemma areReadable_append {ss ts : List Stmt} :
    areReadable (ss ++ ts) = true ↔ areReadable ss = true ∧ areReadable ts = true := by
  induction ss with
  | nil => simp [areReadable]
  | cons s ss ih => simp [areReadable, ih, and_assoc]

lemma rootsOfAll_append (ss ts : List Stmt) :
    rootsOfAll (ss ++ ts) = rootsOfAll ss ++ rootsOfAll ts := by
  induction ss with
  | nil => rfl
  | cons s ss ih => simp [rootsOfAll, ih]

/-- The statement is read back from its text, and its expressions as they are. -/
structure Exact (s : Stmt) : Prop where
  readable : s.isReadable = true
  unnested : ∀ e ∈ s.roots, e.isUnnested = true

/-- The statements are read back from their texts, and their expressions as they are. -/
structure AllExact (ss : List Stmt) : Prop where
  readable : areReadable ss = true
  unnested : ∀ e ∈ rootsOfAll ss, e.isUnnested = true

namespace AllExact

variable {ss ts : List Stmt} {s : Stmt}

lemma nil : AllExact [] :=
  ⟨rfl, fun _ he => absurd he List.not_mem_nil⟩

lemma append (hs : AllExact ss) (ht : AllExact ts) : AllExact (ss ++ ts) := by
  refine ⟨areReadable_append.mpr ⟨hs.readable, ht.readable⟩, ?_⟩
  rw [rootsOfAll_append]
  exact List.forall_mem_append.mpr ⟨hs.unnested, ht.unnested⟩

lemma cons (hs : s.Exact) (ht : AllExact ts) : AllExact (s :: ts) :=
  ⟨Bool.and_eq_true_iff.mpr ⟨hs.readable, ht.readable⟩,
    List.forall_mem_append.mpr ⟨hs.unnested, ht.unnested⟩⟩

lemma of_forall (h : ∀ s ∈ ss, s.Exact) : AllExact ss := by
  induction ss with
  | nil => exact .nil
  | cons s ss ih =>
    obtain ⟨hs, hss⟩ := List.forall_mem_cons.mp h
    exact .cons hs (ih hss)

end AllExact

namespace Exact

variable {body otherwise : List Stmt} {e target key value message type : Expr}
  {path name : String}

lemma compound (h : AllExact body) : (compound body).Exact :=
  ⟨h.readable, h.unnested⟩

lemma block (hname : '\n' ∉ name.toList) (h : AllExact body) : (block name body).Exact :=
  ⟨by simpa [isReadable, hname] using h.readable, h.unnested⟩

lemma set (hpath : isPath path = true) (hvalue : value.isExact = true) :
    (set (.ref path) value).Exact := by
  obtain ⟨hr, hu⟩ := Expr.isExact_iff.mp hvalue
  exact ⟨by simp [isReadable, hpath, hr], by simp [roots, Expr.isUnnested, hu]⟩

lemma putAll (hpath : isPath path = true) (hvalue : value.isExact = true) :
    (putAll (.ref path) value).Exact := by
  obtain ⟨hr, hu⟩ := Expr.isExact_iff.mp hvalue
  exact ⟨by simp [isReadable, hpath, hr], by simp [roots, Expr.isUnnested, hu]⟩

lemma mapPut (hpath : isPath path = true) (hmetadata : path ≠ metadataPath)
    (hkey : key.isExact = true) (hvalue : value.isExact = true) :
    (mapPut (.ref path) key value).Exact := by
  obtain ⟨hkr, hku⟩ := Expr.isExact_iff.mp hkey
  obtain ⟨hr, hu⟩ := Expr.isExact_iff.mp hvalue
  exact ⟨by simp [isReadable, hpath, hmetadata, hkr, hr], by simp [roots, Expr.isUnnested, hku, hu]⟩

lemma metadataPut (hname : '"' ∉ name.toList) (hvalue : value.isExact = true) :
    (metadataPut name value).Exact := by
  obtain ⟨hr, hu⟩ := Expr.isExact_iff.mp hvalue
  exact ⟨by simp [isReadable, hname, hr], by simp [roots, hu]⟩

lemma choice (he : e.isExact = true) (h : AllExact body) : (choice e body none).Exact := by
  obtain ⟨hr, hu⟩ := Expr.isExact_iff.mp he
  exact ⟨by simp [isReadable, hr, h.readable], List.forall_mem_cons.mpr ⟨hu, h.unnested⟩⟩

lemma choiceElse (he : e.isExact = true) (h : AllExact body) (ho : AllExact otherwise) :
    (Stmt.choice e body (some otherwise)).Exact := by
  obtain ⟨hr, hu⟩ := Expr.isExact_iff.mp he
  exact ⟨by simp [isReadable, hr, h.readable, ho.readable], List.forall_mem_cons.mpr
    ⟨hu, List.forall_mem_append.mpr ⟨h.unnested, ho.unnested⟩⟩⟩

lemma forEach (hname : name.toList.all isWord = true) (he : e.isExact = true)
    (h : AllExact body) : (forEach name e body).Exact := by
  obtain ⟨hr, hu⟩ := Expr.isExact_iff.mp he
  exact ⟨by simp [isReadable, hname, hr, h.readable],
    List.forall_mem_cons.mpr ⟨hu, h.unnested⟩⟩

lemma error (hmessage : message.isExact = true) : (error message none).Exact := by
  obtain ⟨hr, hu⟩ := Expr.isExact_iff.mp hmessage
  exact ⟨hr, List.forall_mem_singleton.mpr hu⟩

lemma errorOfType (hmessage : message.isExact = true) (htype : type.isExact = true) :
    (Stmt.error message (some type)).Exact := by
  obtain ⟨hr, hu⟩ := Expr.isExact_iff.mp hmessage
  obtain ⟨htr, htu⟩ := Expr.isExact_iff.mp htype
  exact ⟨by simp [isReadable, hr, htr], by simp [roots, hu, htu]⟩

lemma emit (hvalue : value.isExact = true) : (emit value).Exact := by
  obtain ⟨hr, hu⟩ := Expr.isExact_iff.mp hvalue
  exact ⟨hr, List.forall_mem_singleton.mpr hu⟩

end Exact

/-- Every expression in such a statement is read back as it is. -/
lemma Exact.isExact {s : Stmt} (h : s.Exact) : ∀ e ∈ s.expressions, e.isExact = true := by
  intro e he
  obtain ⟨root, hroot, he⟩ := List.mem_flatMap.mp he
  exact Expr.isExact_of_mem_parts root
    (Expr.isExact_iff.mpr ⟨isReadable_of_mem_roots s h.readable root hroot,
      h.unnested root hroot⟩) e he

end Stmt

/-! ## Names and texts of generated templates -/

lemma isPath_of_schemaChars {s : String} (h : ∀ c ∈ s.toList, isSchemaChar c = true) :
    isPath s = true := by
  rw [isPath_iff]
  generalize s.toList = cs at h
  induction cs with
  | nil => rfl
  | cons c cs ih =>
    rw [bracketDepth?, isWord_of_isSchemaChar (h c List.mem_cons_self), Bool.true_or, if_pos rfl]
    exact ih fun d hd => h d (List.mem_cons_of_mem _ hd)

lemma isPath_of_schemaName {s : String} (h : isSchemaName s = true) : isPath s = true :=
  isPath_of_schemaChars fun _ => isSchemaChar_of_mem h

lemma isPath_child {path name : String} (hpath : isPath path = true) (hname : isPath name = true) :
    isPath (child path name) = true :=
  isPath_append (isPath_append hpath (by decide)) hname

/-- The characters of a text are written as they are, in a text and in a line. -/
structure Quotable (s : String) : Prop where
  quote : '"' ∉ s.toList
  newline : '\n' ∉ s.toList

lemma notMem_compositeTemplate {o : Options} {path : String} {fields : List String}
    (hsep : '"' ∉ o.keySeparator.toList) (hpath : '"' ∉ path.toList)
    (hfields : ∀ f ∈ fields, isSchemaName f = true) :
    '"' ∉ (compositeTemplate o path fields).toList := by
  refine notMem_intercalate hsep fun t ht => ?_
  obtain ⟨f, hf, rfl⟩ := List.mem_map.mp ht
  have hname := notMem_of_isSchemaName (hfields f hf) (by decide : isSchemaChar '"' = false)
  simp [braced, hpath, hname]

namespace Expr

section

variable {e a b default key : Expr} {s path : String} {es : List Expr}
  {entries : List (String × Expr)}

@[simp] lemma isExact_ref : (ref path).isExact = isPath path :=
  Bool.and_true _

@[simp] lemma isExact_int (n : Int) : (int n).isExact = Number.isWritable n := Bool.and_true _

@[simp] lemma isExact_bool (b : Bool) : (bool b).isExact = true := rfl

@[simp] lemma isExact_isNull : (isNull e).isExact = e.isExact := rfl

@[simp] lemma isExact_toAttribute : (toAttribute e).isExact = e.isExact := rfl

@[simp] lemma isExact_toFilter : (toFilter e).isExact = e.isExact := rfl

@[simp] lemma isExact_present : (present e).isExact = e.isExact := rfl

lemma isExact_text (h : '"' ∉ s.toList) : (text s).isExact = true := by
  simp [isExact, isReadable, isUnnested, h]

lemma isExact_defaultIfNull (he : e.isExact = true) (hd : default.isExact = true) :
    (defaultIfNull e default).isExact = true := by
  simp only [isExact_iff] at he hd
  simp [isExact, isReadable, isUnnested, he, hd]

lemma isExact_and (ha : a.isExact = true) (hb : b.isExact = true)
    (hac : a.isConjunction = false) (hbc : b.isConjunction = false) :
    (and [a, b]).isExact = true := by
  simp only [isExact_iff] at ha hb
  simp [isExact, isReadable, isUnnested, areReadable, areUnnested, ha, hb, hac, hbc]

lemma areUnnested_iff : areUnnested es = true ↔ ∀ e ∈ es, e.isUnnested = true := by
  induction es with
  | nil => simp [areUnnested]
  | cons e es ih => simp [areUnnested, ih]

lemma areUnnestedEntries_iff :
    areUnnestedEntries entries = true ↔ ∀ entry ∈ entries, entry.2.isUnnested = true := by
  induction entries with
  | nil => simp [areUnnestedEntries]
  | cons entry entries ih => simp [areUnnestedEntries, ih]

lemma isExact_list (h : ∀ e ∈ es, e.isExact = true) : (list es).isExact = true := by
  simp only [isExact_iff] at h ⊢
  exact ⟨areReadable_iff.mpr fun e he => (h e he).1, areUnnested_iff.mpr fun e he => (h e he).2⟩

lemma isExact_object (h : ∀ entry ∈ entries, entry.2.isExact = true) :
    (object entries).isExact = true := by
  simp only [isExact_iff] at h ⊢
  exact ⟨areReadableEntries_iff.mpr fun e he => (h e he).1,
    areUnnestedEntries_iff.mpr fun e he => (h e he).2⟩

end

end Expr

namespace Node

/-- The expressions that occur in a node. -/
def expressions : Node → List Expr
  | expr e => e.parts
  | stmt s => s.expressions
  | stray _ => []

end Node

end TableKeys.Template

namespace TableKeys.Snippet

open Template Text

/-! ## Snippets -/

/-- The fields are named as in a schema, and the separators have no double quotes. -/
structure Printable (k : KeyDecl) (o : Options) : Prop where
  fields : ∀ f ∈ k.fields, isSchemaName f.name = true
  keySeparator : '"' ∉ o.keySeparator.toList
  nameSeparator : '"' ∉ o.nameSeparator.toList

section

variable {k : KeyDecl} {o : Options}

namespace Printable

lemma partition (h : Printable k o) : isSchemaName k.partition.name = true :=
  h.fields k.partition (by simp [KeyDecl.fields])

lemma sortFields (h : Printable k o) : ∀ f ∈ k.sortFields, isSchemaName f = true := by
  intro f hf
  obtain ⟨g, hg, rfl⟩ := List.mem_map.mp hf
  exact h.fields g (by simp [KeyDecl.fields, hg])

end Printable

lemma exact_mergeInputsAndDefaults : mergeInputsAndDefaults.Exact :=
  .block (by decide) (.cons (.set (by decide) (Expr.isExact_defaultIfNull (by decide) (by decide)))
    (.cons (.putAll (by decide) (by decide)) .nil))

lemma isExact_modelObjectKey (h : Printable k o) (mutation : Bool) :
    (modelObjectKey k mutation o).isExact = true := by
  have hpath : isPath (keyPath mutation) = true := by cases mutation <;> decide
  have hquote : '"' ∉ (keyPath mutation).toList := by cases mutation <;> decide
  have hvalue : ∀ f, isSchemaName f = true →
      (Expr.toAttribute (.ref (keyPath mutation ++ "." ++ f))).isExact = true := fun f hf => by
    rw [Expr.isExact_toAttribute, Expr.isExact_ref]
    exact isPath_child hpath (isPath_of_schemaName hf)
  have hpartition : ∀ entry ∈ [(k.partition.name,
      Expr.toAttribute (.ref (keyPath mutation ++ "." ++ k.partition.name)))],
      entry.2.isExact = true :=
    List.forall_mem_singleton.mpr (hvalue _ h.partition)
  have hput := fun {name : String} {e : Expr} (he : e.isExact = true) =>
    Entries.forall_mem_put (P := fun e => Expr.isExact e = true) (k := name) hpartition he
  refine Expr.isExact_object ?_
  unfold sortEntry
  have hsort := h.sortFields
  split
  · exact hpartition
  · rename_i field heq
    exact hput (hvalue field (hsort field (by simp [heq])))
  · exact hput
      (Expr.isExact_text (notMem_compositeTemplate h.keySeparator hquote hsort))

lemma exact_setPrimaryKey (h : Printable k o) (mutation : Bool) :
    (setPrimaryKey k mutation o).Exact :=
  .block (by decide)
    (.cons (.metadataPut (by decide) (isExact_modelObjectKey h mutation)) .nil)

lemma notMem_compositeName_quote (h : Printable k o) :
    '"' ∉ (compositeName o k.sortFields).toList :=
  notMem_compositeName h.nameSeparator fun f hf =>
    notMem_of_isSchemaName (h.sortFields f hf) (by decide)

lemma notMem_compositeArgument_quote (fields : List String) :
    '"' ∉ (compositeArgument fields).toList := by
  intro hc
  exact absurd (compositeArgument_schemaChars fields '"' hc) (by decide)

lemma exact_ensureCompositeKey (h : Printable k o) (conditionally : Bool) {s : Stmt}
    (hs : ensureCompositeKey k conditionally o = some s) : s.Exact := by
  rw [ensureCompositeKey] at hs
  split at hs
  · obtain rfl := Option.some.inj hs
    have hname : (Expr.text (compositeName o k.sortFields)).isExact = true :=
      Expr.isExact_text (notMem_compositeName_quote h)
    have hargument : (Expr.text (compositeArgument k.sortFields)).isExact = true :=
      Expr.isExact_text (notMem_compositeArgument_quote k.sortFields)
    have htemplate : (Expr.text (compositeTemplate o mergedValues k.sortFields)).isExact = true :=
      Expr.isExact_text (notMem_compositeTemplate h.keySeparator (by decide) h.sortFields)
    have hwrite : (Stmt.mapPut (.ref inputPath) (.text (compositeName o k.sortFields))
        (.text (compositeTemplate o mergedValues k.sortFields))).Exact :=
      .mapPut (by decide) (by decide) hname htemplate
    refine .compound (.cons (.choiceElse (by decide)
      (.cons (.metadataPut (by decide) (Expr.isExact_object (List.forall_mem_singleton.mpr
        hargument))) .nil)
      (.cons (.mapPut (by decide) (by decide) hname hargument) .nil)) (.cons ?_ .nil))
    rw [writeComposite]
    cases conditionally with
    | false => exact hwrite
    | true => exact .choice (by decide) (.cons hwrite .nil)
  · cases hs

lemma exact_validateIndexArgument {i : IndexDecl} (h : Printable i.toKeyDecl o)
    (hname : Quotable i.name) (m : KeyMutation) {s : Stmt}
    (hs : validateIndexArgument i m = some s) : s.Exact := by
  rw [validateIndexArgument] at hs
  split at hs
  · obtain rfl := Option.some.inj hs
    have hseen : (Expr.ref hasSeenSomeKeyArg).isExact = true := by decide
    have hnames : (Expr.ref "keyFieldNames").isExact = true := by decide
    have hhas : inputHasField.isExact = true := by decide
    have hfields : (Expr.list (i.sortFields.map .text)).isExact = true := by
      refine Expr.isExact_list (List.forall_mem_map.mpr fun f hf => Expr.isExact_text ?_)
      exact notMem_of_isSchemaName (h.sortFields f hf) (by decide)
    have hmessage : (Expr.text (missingFieldMessage i.name m)).isExact = true := by
      refine Expr.isExact_text ?_
      have hquote := hname.quote
      have hverb : '"' ∉ m.verb.toList := by cases m <;> decide
      simp [missingFieldMessage, keyFieldName, hquote, hverb]
    have hblock : '\n' ∉ ("Validate " ++ m.name ++ " mutation for @index '" ++ i.name ++
        "'").toList := by
      have hnewline := hname.newline
      have hmutation : '\n' ∉ m.name.toList := by cases m <;> decide
      simp [hnewline, hmutation]
    exact .block hblock (.cons (.set (by decide) (by decide)) (.cons (.set (by decide) hfields)
      (.cons (.forEach (by decide) hnames
        (.cons (.choice hhas (.cons (.set (by decide) (by decide)) .nil)) .nil))
      (.cons (.forEach (by decide) hnames
        (.cons (.choice (by decide) (.cons (.error hmessage) .nil)) .nil)) .nil))))
  · cases hs

/-! ### Key conditions -/

/-- What the steps of a key condition are made of: paths that are paths, and texts without double
quotes. -/
lemma exact_assembleFrom {operand name separator : String} (hoperand : isPath operand = true)
    (hoperandQuote : '"' ∉ operand.toList) (hname : isPath name = true)
    (hnameQuote : '"' ∉ name.toList) (hsep : '"' ∉ separator.toList) {fields : List String}
    (hfields : ∀ f ∈ fields, isSchemaName f = true) (first : Bool) :
    Stmt.AllExact (assembleFrom operand name separator first fields) := by
  induction fields generalizing first with
  | nil => exact .nil
  | cons field fields ih =>
    obtain ⟨hfield, hfields⟩ := List.forall_mem_cons.mp hfields
    have hpath := isPath_child hoperand (isPath_of_schemaName hfield)
    have hquote := notMem_of_isSchemaName hfield (by decide : isSchemaChar '"' = false)
    have htext : (Expr.text (assembledText operand name separator first field)).isExact = true := by
      refine Expr.isExact_text ?_
      cases first <;> simp [assembledText, braced, child, hoperandQuote, hnameQuote, hsep, hquote]
    refine .cons (.choice ?_ (.cons (.set hname htext) (ih hfields false))) .nil
    rw [Expr.isExact_present, Expr.isExact_ref]
    exact hpath

/-- An operand of the sort argument, by its path. -/
structure OperandPath (operand : String) : Prop where
  isPath : isPath operand = true
  quote : '"' ∉ operand.toList

lemma exact_sortOperand (h : Printable k o) {operand name : String} (hoperand : OperandPath operand)
    (hname : OperandPath name) :
    Stmt.AllExact (sortOperand k operand name o).1 ∧
      (sortOperand k operand name o).2.isExact = true := by
  rw [sortOperand]
  split
  · exact ⟨.cons (.compound (.cons (.set hname.isPath (by decide))
      (exact_assembleFrom hoperand.isPath hoperand.quote hname.isPath hname.quote h.keySeparator
        h.sortFields true))) .nil,
      Expr.isExact_text (by simpa [braced] using hname.quote)⟩
  · exact ⟨.nil, by simpa using hoperand.isPath⟩

lemma exact_addCondition {sortName condition : String} (hname : '"' ∉ sortName.toList)
    (hcondition : '"' ∉ condition.toList) :
    Stmt.AllExact (addCondition modelQueryExpression sortName condition) := by
  have htext : (Expr.text (braced (child modelQueryExpression "expression") ++ " AND " ++
      condition)).isExact = true :=
    Expr.isExact_text (by simpa [braced, child, modelQueryExpression] using hcondition)
  exact .cons (.set (by decide) htext)
    (.cons (.mapPut (by decide) (by decide) (by decide) (Expr.isExact_text hname)) .nil)

lemma exact_bindValue {placeholder : String} {value : Expr}
    (hplaceholder : '"' ∉ placeholder.toList) (hvalue : value.isExact = true) :
    (bindValue modelQueryExpression placeholder value).Exact :=
  .mapPut (by decide) (by decide) (Expr.isExact_text hplaceholder)
    (by rwa [Expr.isExact_toAttribute])

lemma isExact_operatorUsed {argument operator : String} (hargument : isPath argument = true)
    (hoperator : isPath operator = true) : (operatorUsed argument operator).isExact = true :=
  Expr.isExact_and (by simpa using hargument) (by simpa using isPath_child hargument hoperator)
    rfl rfl

lemma OperandPath.child {operand name : String} (h : OperandPath operand)
    (hname : OperandPath name) : OperandPath (child operand name) :=
  ⟨isPath_child h.isPath hname.isPath, by simp [Template.child, h.quote, hname.quote]⟩

/-- The argument for the sort attribute can be a step of a path. -/
lemma operandPath_sortArgument (h : Printable k o) {argument : String}
    (hargument : k.sortArgument? = some argument) : OperandPath argument := by
  have hchars : ∀ c ∈ argument.toList, isSchemaChar c = true := by
    rw [KeyDecl.sortArgument?] at hargument
    split at hargument
    · cases hargument
    · rename_i field heq
      obtain rfl := Option.some.inj hargument
      exact fun c hc => isSchemaChar_of_mem (h.sortFields _ (by simp [heq])) hc
    · obtain rfl := Option.some.inj hargument
      exact compositeArgument_schemaChars _
  exact ⟨isPath_of_schemaChars hchars, fun hc => absurd (hchars '"' hc) (by decide)⟩

lemma notMem_sortName (h : Printable k o) {name : String} (hname : k.sortName? o = some name) :
    '"' ∉ name.toList := by
  rw [KeyDecl.sortName?] at hname
  split at hname
  · cases hname
  · rename_i field heq
    obtain rfl := Option.some.inj hname
    exact notMem_of_isSchemaName (h.sortFields _ (by simp [heq])) (by decide)
  · obtain rfl := Option.some.inj hname
    exact notMem_compositeName_quote h

lemma sortKeyOperators_printable : ∀ entry ∈ sortKeyOperators,
    isPath entry.1 = true ∧ '"' ∉ entry.1.toList ∧ '"' ∉ entry.2.toList := by
  decide

lemma exact_oneOperandConditions (h : Printable k o) {argument sortName : String}
    (hargument : OperandPath argument) (hname : '"' ∉ sortName.toList) :
    Stmt.AllExact (oneOperandConditions k modelQueryExpression argument sortName o) := by
  refine .of_forall (List.forall_mem_map.mpr fun entry hentry => ?_)
  obtain ⟨hpath, hquote, hcondition⟩ := sortKeyOperators_printable entry hentry
  have hoperand := hargument.child ⟨hpath, hquote⟩
  obtain ⟨hprepare, hvalue⟩ := exact_sortOperand h hoperand
    (⟨by decide, by decide⟩ : OperandPath "sortKeyValue")
  exact .choice (isExact_operatorUsed hargument.isPath hpath)
    ((hprepare.append (exact_addCondition hname hcondition)).append
      (.cons (exact_bindValue (by decide) hvalue) .nil))

lemma exact_betweenConditions (h : Printable k o) {argument sortName : String}
    (hargument : OperandPath argument) (hname : '"' ∉ sortName.toList) :
    (betweenConditions k modelQueryExpression argument sortName o).Exact := by
  have hbetween := hargument.child (⟨by decide, by decide⟩ : OperandPath "between")
  have hindex : ∀ index, OperandPath index →
      OperandPath (Template.child argument "between" ++ index) := fun index hi =>
    ⟨isPath_append hbetween.isPath hi.isPath, by simp [hbetween.quote, hi.quote]⟩
  obtain ⟨hprepareLow, hlow⟩ := exact_sortOperand h (hindex "[0]" ⟨by decide, by decide⟩)
    (⟨by decide, by decide⟩ : OperandPath "sortKeyValue0")
  obtain ⟨hprepareHigh, hhigh⟩ := exact_sortOperand h (hindex "[1]" ⟨by decide, by decide⟩)
    (⟨by decide, by decide⟩ : OperandPath "sortKeyValue1")
  exact .choice (isExact_operatorUsed hargument.isPath (by decide))
    (((hprepareLow.append hprepareHigh).append (exact_addCondition hname (by decide))).append
      (.cons (exact_bindValue (by decide) hlow) (.cons (exact_bindValue (by decide) hhigh) .nil)))

lemma exact_sortKeyConditions (h : Printable k o) :
    Stmt.AllExact (sortKeyConditions k modelQueryExpression o) := by
  rw [sortKeyConditions]
  split
  · rename_i argument sortName hargument hname
    have hpath : OperandPath ("ctx.args." ++ argument) :=
      (⟨by decide, by decide⟩ : OperandPath "ctx.args").child
        (operandPath_sortArgument h hargument)
    have hquote := notMem_sortName h hname
    exact (exact_oneOperandConditions h hpath hquote).append
      (.cons (exact_betweenConditions h hpath hquote) .nil)
  · exact .nil

lemma exact_keyCondition (h : Printable k o) :
    (keyCondition k modelQueryExpression o).Exact := by
  have hpartition := notMem_of_isSchemaName h.partition (by decide : isSchemaChar '"' = false)
  have hargument : (Expr.ref ("ctx.args." ++ k.partition.name)).isExact = true := by
    rw [Expr.isExact_ref]
    exact isPath_append (by decide) (isPath_of_schemaName h.partition)
  have hexpression : (Expr.text ("#" ++ k.partition.name ++ " = :" ++
      k.partition.name)).isExact = true :=
    Expr.isExact_text (by simp [hpartition])
  refine .choice (by rwa [Expr.isExact_present])
    (.append (.cons (.set (by decide) hexpression) (.cons (.set (by decide) ?_)
      (.cons (.set (by decide) ?_) .nil))) (exact_sortKeyConditions h))
  · exact Expr.isExact_object (List.forall_mem_singleton.mpr (Expr.isExact_text hpartition))
  · exact Expr.isExact_object (List.forall_mem_singleton.mpr
      (by rwa [Expr.isExact_toAttribute]))

lemma exact_checkDirection (h : Printable k o) (list : Bool) :
    Stmt.AllExact (checkDirection k list) := by
  have hdirection : (present (.ref sortDirectionPath)).isExact = true := by decide
  have htype : (Expr.text invalidArguments).isExact = true := by decide
  have hpartition := notMem_of_isSchemaName h.partition (by decide : isSchemaChar '"' = false)
  rw [checkDirection]
  split
  · exact .cons (.choice hdirection (.cons (.errorOfType (by decide) htype) .nil)) .nil
  split
  · have hargument : (Expr.isNull (.ref ("ctx.args." ++ k.partition.name))).isExact = true := by
      rw [Expr.isExact_isNull, Expr.isExact_ref]
      exact isPath_append (by decide) (isPath_of_schemaName h.partition)
    exact .cons (.choice (Expr.isExact_and hargument hdirection rfl rfl)
      (.cons (.errorOfType (Expr.isExact_text (by simp [hpartition])) htype) .nil)) .nil
  · exact .nil

lemma exact_queryExpression (h : Printable k o) (list : Bool) :
    (queryExpression k list o).Exact :=
  .block (by decide) (.append (exact_checkDirection h list)
    (.cons (.set (by decide) (by decide)) (.cons (exact_keyCondition h) .nil)))

lemma exact_listQuery (h : Printable k o) : (listQuery k o).Exact :=
  .compound (.cons (exact_queryExpression h true)
    (.cons (.metadataPut (by decide) (by decide)) .nil))

lemma exact_queryRequest {i : IndexDecl} (h : Printable i.toKeyDecl o) (hname : Quotable i.name)
    {n : Int} (hlimit : o.pageLimit = .int n) (hn : Number.isWritable n = true) :
    (queryRequest i o).Exact := by
  have hdefault : (Expr.defaultIfNull (.ref "ctx.args.limit") (.intOf o.pageLimit)).isExact =
      true := by
    rw [hlimit]
    exact Expr.isExact_defaultIfNull (by decide) ((Expr.isExact_int n).trans hn)
  have hrequest : (Expr.object [
      ("version", .text requestVersion), ("operation", .text "Query"), ("limit", .ref "limit"),
      ("query", .ref modelQueryExpression), ("index", .text i.name)]).isExact = true := by
    refine Expr.isExact_object ?_
    simp only [List.forall_mem_cons, List.not_mem_nil, false_imp_iff, implies_true, and_true]
    exact ⟨by decide, by decide, by decide, by decide, Expr.isExact_text hname.quote⟩
  exact .compound (.cons (exact_queryExpression h false) (.cons (.set (by decide) hdefault)
    (.cons (.set (by decide) hrequest)
    (.cons (.choiceElse (by decide) (.cons (.set (by decide) (by decide)) .nil)
      (.cons (.set (by decide) (by decide)) .nil))
    (.cons (.choice (by decide) (.cons (.set (by decide) (by decide)) .nil))
    (.cons (.choice (by decide) (.cons (.set (by decide) (by decide)) .nil))
    (.cons (.emit (by decide)) .nil)))))))

lemma exact_queryResponse : queryResponse.Exact :=
  .compound (.cons (.choice (by decide) (.cons (.errorOfType (by decide) (by decide)) .nil))
    (.cons (.emit (by decide)) .nil))

end

/-! ### All of them -/

/-- The declaration that a snippet is made for has fields named as in a schema and, if it is an
index, a name without double quotes and newlines; a key condition is made for the variable
that queries use, and the page limit of a request is a whole number, as it should be, whose digits
are not too many to be written. -/
def Request.IsPrintable (o : Options) : Request → Prop
  | .mergeInputsAndDefaults | .queryResponse => True
  | .modelObjectKey k _ | .setPrimaryKey k _ | .ensureCompositeKey k _ | .queryExpression k _
  | .listQuery k => Printable k o
  | .keyCondition k query => Printable k o ∧ query = modelQueryExpression
  | .validateIndexArgument d _ => Printable d.key o ∧ ∀ i, d = .index i → Quotable i.name
  | .queryRequest d =>
    Printable d.key o ∧ (∀ i, d = .index i → Quotable i.name) ∧
      ∃ n, o.pageLimit = .int n ∧ Number.isWritable n = true

/-- What a snippet generator makes is read back from its text, and its expressions as they are. -/
lemma exact_of_make {o : Options} {r : Request} (hr : r.IsPrintable o) {node : Node}
    (hmake : r.make o = .ok (some node)) :
    (∃ e, node = .expr e ∧ e.isExact = true) ∨ ∃ s, node = .stmt s ∧ s.Exact := by
  cases r with
  | mergeInputsAndDefaults =>
    cases hmake
    exact .inr ⟨_, rfl, exact_mergeInputsAndDefaults⟩
  | modelObjectKey k mutation =>
    cases hmake
    exact .inl ⟨_, rfl, isExact_modelObjectKey hr mutation⟩
  | setPrimaryKey k mutation =>
    cases hmake
    exact .inr ⟨_, rfl, exact_setPrimaryKey hr mutation⟩
  | ensureCompositeKey k conditionally =>
    obtain ⟨s, hs, rfl⟩ := Option.map_eq_some_iff.mp (Except.ok.inj hmake)
    exact .inr ⟨s, rfl, exact_ensureCompositeKey hr conditionally hs⟩
  | validateIndexArgument d mutation =>
    simp only [Request.make] at hmake
    split at hmake
    · cases hm : mutation.text?.bind KeyMutation.ofName? with
      | none =>
        rw [hm] at hmake
        cases hmake
      | some m =>
        rw [hm] at hmake
        cases d with
        | primary k => cases hmake
        | index i =>
          obtain ⟨s, hs, rfl⟩ := Option.map_eq_some_iff.mp (Except.ok.inj hmake)
          exact .inr ⟨s, rfl, exact_validateIndexArgument hr.1 (hr.2 i rfl) m hs⟩
    · cases hmake
  | keyCondition k query =>
    cases hmake
    obtain ⟨hk, rfl⟩ := hr
    exact .inr ⟨_, rfl, exact_keyCondition hk⟩
  | queryExpression k list =>
    cases hmake
    exact .inr ⟨_, rfl, exact_queryExpression hr list⟩
  | listQuery k =>
    cases hmake
    exact .inr ⟨_, rfl, exact_listQuery hr⟩
  | queryRequest d =>
    cases d with
    | primary k => cases hmake
    | index i =>
      cases hmake
      obtain ⟨hk, hname, n, hlimit, hn⟩ := hr
      exact .inr ⟨_, rfl, exact_queryRequest hk (hname i rfl) hlimit hn⟩
  | queryResponse =>
    cases hmake
    exact .inr ⟨_, rfl, exact_queryResponse⟩

/-- **Generated trees are read back from their texts**: every expression in them is read from its
own text, and of a statement the whole is, with the statements of compounds in their place. -/
theorem generated_read_back {o : Options} {r : Request} (hr : r.IsPrintable o) {node : Node}
    (hmake : r.make o = .ok (some node)) :
    (∀ e ∈ node.expressions, ∃ text, e.print = .ok text ∧ readExpr text = some e) ∧
      ∀ s, node = .stmt s → ∃ text, s.print = .ok text ∧ readStatements text = some s.flat := by
  have hmade := exact_of_make hr hmake
  refine ⟨fun e he => ?_, ?_⟩
  · have hexact : e.isExact = true := by
      rcases hmade with ⟨root, rfl, hroot⟩ | ⟨s, rfl, hs⟩
      · exact Expr.isExact_of_mem_parts root hroot e he
      · exact hs.isExact e he
    obtain ⟨hreadable, hunnested⟩ := Expr.isExact_iff.mp hexact
    obtain ⟨text, htext⟩ := e.exists_print hreadable
    have hread := readExpr_of_print hreadable htext
    rw [Expr.flat_of_isUnnested e hunnested] at hread
    exact ⟨text, htext, hread⟩
  · rintro s rfl
    rcases hmade with ⟨e, he, -⟩ | ⟨s', hs', hs⟩
    · cases he
    · obtain rfl := Node.stmt.inj hs'
      obtain ⟨text, htext⟩ := Stmt.exists_print hs.readable
      exact ⟨text, htext, readStatements_of_print hs.readable htext⟩

/-- An index of letters by sender, and by year and week of arrival. -/
def letterIndex : IndexDecl where
  object := { name := "Letter" }
  partition := { name := "sender", typeName := "ID" }
  sort := [{ name := "year", typeName := "Int" }, { name := "week", typeName := "Int" }]
  sort_nodup := by decide
  partition_notMem_sort := by decide
  name := "bySender"
  name_ne := by decide
  queryField := some "lettersBySender"
  primaryPartition := none

/-- The check of the fields of an index before an update is read back from its text. -/
theorem letter_validation_read_back :
    ∃ s, Request.make {} (.validateIndexArgument (.index letterIndex) (.text "update")) =
        .ok (some (.stmt s)) ∧
      (∀ e ∈ s.expressions, ∃ text, e.print = .ok text ∧ readExpr text = some e) ∧
      ∃ text, s.print = .ok text ∧ readStatements text = some s.flat := by
  refine ⟨_, rfl, ?_⟩
  have hread := @generated_read_back {}
    (.validateIndexArgument (.index letterIndex) (.text "update"))
    ⟨⟨by simp [Decl.key, letterIndex, KeyDecl.fields]; decide, by decide, by decide⟩, ?_⟩ _ rfl
  · exact ⟨hread.1, hread.2 _ rfl⟩
  · intro i hi
    obtain rfl := Decl.index.inj hi
    exact ⟨by decide, by decide⟩

end TableKeys.Snippet
