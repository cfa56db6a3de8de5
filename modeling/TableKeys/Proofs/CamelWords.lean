/-
# The words of a schema name

The schema name of a composite key runs the names of its fields together, each after the first
with a capital. Cut before every capital and every underscore it falls into the words of the
fields (`nameWords_compositeArgument`), where the first letter of a word counts as small; which
word ends a field is forgotten. From its words the name can be put together again (`camel_words`).
So two rows of fields have one schema name exactly if they have the same words
(`compositeArgument_eq_iff`).
-/
import TableKeys.Proofs.Arguments
import Mathlib.Data.List.SplitBy

namespace TableKeys

open Text

/-! ## Words -/

/-- Inside a name a new word begins with this character. -/
def beginsWord (c : Char) : Bool :=
  c.isUpper || c == '_'

/-- The text cut before every character that begins a word. -/
def wordPieces (cs : List Char) : List (List Char) :=
  cs.splitBy fun _ c => !beginsWord c

/-- The text with its first letter in its small form. -/
def lowered : List Char → List Char
  | [] => []
  | c :: cs => c.toLower :: cs

/-- The text with its first letter in its capital form. -/
def raised : List Char → List Char
  | [] => []
  | c :: cs => c.toUpper :: cs

/-- The words of a name, with small first letters. -/
def nameWords (name : String) : List (List Char) :=
  (wordPieces name.toList).map lowered

/-- The words of several names one after the other. -/
def fieldWords (fields : List String) : List (List Char) :=
  fields.flatMap nameWords

/-- Words run together, each after the first with a capital. -/
def camel : List (List Char) → List Char
  | [] => []
  | w :: ws => w ++ ws.flatMap raised

/-! ## Capital and small forms -/

lemma toLower_of_isNameStart {c : Char} (h : isNameStart c = true) :
    beginsWord c.toUpper = true ∧ c.toUpper.toLower = c.toLower ∧
      c.toLower.toLower = c.toLower :=
  forall_ascii (P := fun c => isNameStart c = true → beginsWord c.toUpper = true ∧
      c.toUpper.toLower = c.toLower ∧ c.toLower.toLower = c.toLower)
    (by decide) (toNat_lt_of_isSchemaChar (isSchemaChar_of_isNameStart h)) h

lemma isSchemaChar_of_beginsWord {c : Char} (h : beginsWord c = true) : isSchemaChar c = true := by
  have hschema : isSchemaChar c = (((c.isUpper || c.isLower) || c.isDigit) || c == '_') := rfl
  rw [beginsWord, Bool.or_eq_true] at h
  rcases h with h | h <;> simp [hschema, h]

lemma toUpper_of_beginsWord {c : Char} (h : beginsWord c = true) : c.toLower.toUpper = c :=
  forall_ascii (P := fun c => beginsWord c = true → c.toLower.toUpper = c)
    (by decide) (toNat_lt_of_isSchemaChar (isSchemaChar_of_beginsWord h)) h

/-! ## Cutting -/

lemma wordPieces_append (cs : List Char) {d : Char} (hd : beginsWord d = true) (ds : List Char) :
    wordPieces (cs ++ d :: ds) = wordPieces cs ++ wordPieces (d :: ds) :=
  List.splitBy_append_cons ds fun _ _ => by simp [hd]

/-- Where a text is cut does not depend on its first character. -/
lemma wordPieces_cons (cs : List Char) : ∃ p ps, ∀ c, wordPieces (c :: cs) = (c :: p) :: ps := by
  obtain ⟨p, ps, hpieces⟩ : ∃ p ps, wordPieces ('a' :: cs) = p :: ps :=
    List.exists_cons_of_ne_nil (List.splitBy_ne_nil.mpr (by simp))
  obtain ⟨hflatten, hnil, hchain, hcut⟩ := List.splitBy_eq_iff.mp hpieces
  obtain ⟨c, p, rfl⟩ := List.exists_cons_of_ne_nil fun hp : p = [] => hnil (by simp [hp])
  obtain ⟨rfl, hcs⟩ := List.cons.inj hflatten
  refine ⟨p, ps, fun d => List.splitBy_eq_iff.mpr ⟨by rw [hcs]; rfl, ?_, ?_, ?_⟩⟩
  · simpa using hnil
  · intro q hq
    rcases List.mem_cons.mp hq with rfl | hq
    · have hfirst := hchain ('a' :: p) (by simp)
      cases p with
      | nil => exact List.isChain_singleton _
      | cons b p => simpa [List.isChain_cons_cons] using hfirst
    · exact hchain q (by simp [hq])
  · cases ps with
    | nil => exact List.isChain_singleton _
    | cons q ps => simpa [List.isChain_cons_cons] using hcut

/-- Every piece but the first begins a word. -/
lemma beginsWord_of_wordPieces {cs p : List Char} {ps : List (List Char)}
    (h : wordPieces cs = p :: ps) : ∀ q ∈ ps, ∃ d ds, q = d :: ds ∧ beginsWord d = true := by
  have hcut : (p :: ps).IsChain fun a b => ∃ _ : a ≠ [], ∃ hb : b ≠ [],
      (!beginsWord (b.head hb)) = false := by
    rw [← h]
    exact List.isChain_getLast_head_splitBy (fun _ c => !beginsWord c) cs
  clear h
  induction ps generalizing p with
  | nil => simp
  | cons q ps ih =>
    obtain ⟨⟨-, hq, hbegins⟩, hrest⟩ := List.isChain_cons_cons.mp hcut
    intro q' hq'
    rcases List.mem_cons.mp hq' with rfl | hq'
    · obtain ⟨d, ds, rfl⟩ := List.exists_cons_of_ne_nil hq
      exact ⟨d, ds, rfl, by simpa using hbegins⟩
    · exact ih hrest q' hq'

/-- The case of the first letter does not matter to the words. -/
lemma lowered_wordPieces {c d : Char} (h : c.toLower = d.toLower) (cs : List Char) :
    (wordPieces (c :: cs)).map lowered = (wordPieces (d :: cs)).map lowered := by
  obtain ⟨p, ps, hpieces⟩ := wordPieces_cons cs
  rw [hpieces, hpieces, List.map_cons, List.map_cons, lowered, lowered, h]

/-- **A text that begins small is put together again from its words.** -/
theorem camel_words {c : Char} (hc : c.toLower = c) (cs : List Char) :
    camel ((wordPieces (c :: cs)).map lowered) = c :: cs := by
  obtain ⟨p, ps, hpieces⟩ := wordPieces_cons cs
  have hrest : ∀ q ∈ ps, raised (lowered q) = q := by
    intro q hq
    obtain ⟨d, ds, rfl, hd⟩ := beginsWord_of_wordPieces (hpieces c) q hq
    rw [lowered, raised, toUpper_of_beginsWord hd]
  have hflatten : ((c :: p) :: ps).flatten = c :: cs := by
    rw [← hpieces c]
    exact List.flatten_splitBy _ _
  rw [hpieces, List.map_cons, lowered, hc, camel, List.flatMap_map, List.flatMap_congr hrest,
    List.flatMap_id', ← List.flatten_cons, hflatten]

/-! ## Schema names of composite keys -/

lemma toList_capitalize {f : String} (h : isSchemaName f = true) :
    (capitalize f).toList = raised f.toList := by
  obtain ⟨c, cs, hf, hc, -⟩ := isSchemaName_iff.mp h
  have hcapital : capital c = [c.toUpper] :=
    if_pos (toNat_lt_of_isSchemaChar (isSchemaChar_of_isNameStart hc))
  rw [capitalize, hf]
  simp [hcapital, raised]

lemma toList_uncapitalize (f : String) : (uncapitalize f).toList = lowered f.toList := by
  unfold uncapitalize
  cases hf : f.toList with
  | nil => simp [hf, lowered]
  | cons c cs => simp [lowered]

lemma toList_compositeArgument {f : String} {fs : List String}
    (h : ∀ g ∈ f :: fs, isSchemaName g = true) :
    (compositeArgument (f :: fs)).toList =
      lowered f.toList ++ fs.flatMap fun g => raised g.toList := by
  have hnames : (((f :: fs).map schemaName).filter (· != "")) = f :: fs := by
    rw [List.map_congr_left fun g hg => schemaName_of_isSchemaName (h g hg), List.map_id',
      List.filter_eq_self.mpr]
    intro g hg
    obtain ⟨c, cs, hchars, -⟩ := isSchemaName_iff.mp (h g hg)
    have hne : g ≠ "" := by
      rintro rfl
      simp at hchars
    simpa using hne
  rw [compositeArgument, hnames]
  simp only [String.toList_append, toList_uncapitalize, String.toList_join, List.flatMap_map]
  rw [List.flatMap_congr fun g hg => toList_capitalize (h g (by simp [hg]))]

lemma wordPieces_fields (cs : List Char) {fs : List String}
    (h : ∀ f ∈ fs, isSchemaName f = true) :
    wordPieces (cs ++ fs.flatMap fun f => raised f.toList) =
      wordPieces cs ++ fs.flatMap fun f => wordPieces (raised f.toList) := by
  induction fs generalizing cs with
  | nil => simp
  | cons f fs ih =>
    obtain ⟨c, rest, hf, hc, -⟩ := isSchemaName_iff.mp (h f (by simp))
    rw [List.flatMap_cons, List.flatMap_cons, ← List.append_assoc,
      ih _ fun g hg => h g (by simp [hg]), ← List.append_assoc]
    rw [hf, raised, wordPieces_append cs (toLower_of_isNameStart hc).1]

/-- **A schema name has the words of its fields.** -/
theorem nameWords_compositeArgument {fields : List String}
    (h : ∀ f ∈ fields, isSchemaName f = true) :
    nameWords (compositeArgument fields) = fieldWords fields := by
  cases fields with
  | nil => rfl
  | cons f fs =>
    have hlowered : (wordPieces (lowered f.toList)).map lowered = nameWords f := by
      obtain ⟨c, cs, hf, hc, -⟩ := isSchemaName_iff.mp (h f (by simp))
      rw [nameWords, hf, lowered, lowered_wordPieces (toLower_of_isNameStart hc).2.2]
    have hraised : ∀ g ∈ fs, (wordPieces (raised g.toList)).map lowered = nameWords g := by
      intro g hg
      obtain ⟨c, cs, hgs, hc, -⟩ := isSchemaName_iff.mp (h g (by simp [hg]))
      rw [nameWords, hgs, raised, lowered_wordPieces (toLower_of_isNameStart hc).2.1]
    rw [nameWords, toList_compositeArgument h,
      wordPieces_fields _ fun g hg => h g (by simp [hg]), List.map_append, List.map_flatMap,
      hlowered, List.flatMap_congr hraised, fieldWords, List.flatMap_cons]

/-- A schema name begins small. -/
lemma camel_nameWords {fields : List String} (h : ∀ f ∈ fields, isSchemaName f = true) :
    camel (nameWords (compositeArgument fields)) = (compositeArgument fields).toList := by
  cases fields with
  | nil => rfl
  | cons f fs =>
    obtain ⟨c, cs, hf, hc, -⟩ := isSchemaName_iff.mp (h f (by simp))
    rw [nameWords, toList_compositeArgument h, hf, lowered, List.cons_append]
    exact camel_words (toLower_of_isNameStart hc).2.2 _

/-- **Two rows of fields have one schema name exactly if they have the same words.** -/
theorem compositeArgument_eq_iff {fs gs : List String} (hfs : ∀ f ∈ fs, isSchemaName f = true)
    (hgs : ∀ g ∈ gs, isSchemaName g = true) :
    compositeArgument fs = compositeArgument gs ↔ fieldWords fs = fieldWords gs := by
  rw [← nameWords_compositeArgument hfs, ← nameWords_compositeArgument hgs]
  constructor
  · exact congrArg nameWords
  · intro h
    rw [← String.toList_inj, ← camel_nameWords hfs, h, camel_nameWords hgs]

example : fieldWords ["status", "dateYear"] = fieldWords ["statusDate", "Year"] := by decide

end TableKeys
