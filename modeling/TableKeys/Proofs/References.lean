/-
# What becomes of references in texts

Interpolation is followed piece by piece: the text that a row of pieces gives is the texts of
its parts run together (`pieceText_append`). A text without a dollar sign stands for itself,
and a reference in braces stands for what its path refers to, or for itself if that is null.

The main statement is about the template of a composite key: it becomes the components,
joined by the separator (`pieceText_compositeTemplate`). Nothing that comes in for a component
is looked at again, whatever it holds.
-/
import TableKeys.Proofs.SchemaName
import TableKeys.Template.Eval

namespace TableKeys.Template

open Text

/-! ## Cutting a text into pieces -/

lemma piecesFrom_drop (n : Nat) (cs : List Char) :
    piecesFrom n cs = piecesFrom 0 (cs.drop n) := by
  induction n generalizing cs with
  | zero => simp
  | succ n ih => cases cs with
    | nil => simp [piecesFrom]
    | cons c cs => simpa [piecesFrom] using ih cs

/-- Characters other than the dollar sign are literal. -/
lemma piecesFrom_literal {cs : List Char} (h : '$' ∉ cs) (rest : List Char) :
    piecesFrom 0 (cs ++ rest) = cs.map .literal ++ piecesFrom 0 rest := by
  induction cs with
  | nil => rfl
  | cons c cs ih =>
    obtain ⟨hc, hcs⟩ : '$' ≠ c ∧ '$' ∉ cs := by simpa using h
    have href : reference? (c :: (cs ++ rest)) = none := by
      unfold reference?
      split
      · rename_i heq
        cases heq
        exact absurd rfl hc
      · rfl
    rw [List.cons_append, piecesFrom, href, ih hcs]
    rfl

/-- A path as it may stand in braces. -/
def isBracedPath (path : List Char) : Bool :=
  match path with
  | [] => false
  | c :: cs => isNameStart c && cs.all isBracedPathChar

lemma bracedPath?_append {path : List Char} (h : isBracedPath path = true) (rest : List Char) :
    bracedPath? ('{' :: path ++ '}' :: rest) = some path := by
  match path, h with
  | c :: cs, h =>
    simp only [isBracedPath, Bool.and_eq_true, List.all_eq_true] at h
    have htake : (cs ++ '}' :: rest).takeWhile isBracedPathChar = cs := by
      rw [List.takeWhile_append_of_pos h.2]
      simp [show isBracedPathChar '}' = false by decide]
    have hdrop : (cs ++ '}' :: rest).dropWhile isBracedPathChar = '}' :: rest := by
      rw [List.dropWhile_append_of_pos h.2]
      simp [show isBracedPathChar '}' = false by decide]
    simp [bracedPath?, h.1, htake, hdrop]

/-- A reference in braces is one piece. -/
lemma piecesFrom_braced {path : String} (h : isBracedPath path.toList = true)
    (rest : List Char) :
    piecesFrom 0 ((braced path).toList ++ rest) =
      .reference (braced path).toList path.toList :: piecesFrom 0 rest := by
  have hraw : (braced path).toList = '$' :: '{' :: path.toList ++ ['}'] := by
    simp [braced, String.toList_append]
  have href : reference? ('$' :: ('{' :: path.toList ++ '}' :: rest)) =
      some ('$' :: '{' :: path.toList ++ ['}'], path.toList) := by
    have hb := bracedPath?_append h rest
    simp only [List.cons_append] at hb
    simp [reference?, hb]
  have hcons : '$' :: '{' :: path.toList ++ ['}'] ++ rest =
      '$' :: ('{' :: path.toList ++ '}' :: rest) := by simp
  have hlength : ('$' :: '{' :: path.toList ++ ['}']).length - 1 = path.toList.length + 2 := by
    simp
  have hrest : piecesFrom (path.toList.length + 2) ('{' :: path.toList ++ '}' :: rest) =
      piecesFrom 0 rest := by
    rw [piecesFrom_drop]
    simp
  rw [hraw, hcons, piecesFrom, href]
  simp only
  rw [hlength, hrest]

/-! ## The text of a row of pieces -/

/-- The text that interpolation makes of a row of pieces. -/
def pieceText (m : Machine) (ps : List Piece) : Except Fault (List Char) :=
  Interpolated.text <$> interpolatePieces m ps

/-- What stands for a reference: the value as it enters a text, or the reference itself if the
value is null. -/
def referenceText (store : Store) (raw : String) (v : Value) : Except Fault String :=
  if v.isNull then .ok raw else (store.read v).interpolated

lemma pieceText_nil (m : Machine) : pieceText m [] = .ok [] := rfl

lemma pieceText_literal (m : Machine) (c : Char) (ps : List Piece) :
    pieceText m (.literal c :: ps) = (c :: ·) <$> pieceText m ps := by
  rw [pieceText, interpolatePieces, pieceText]
  cases interpolatePieces m ps <;> rfl

lemma pieceText_literals (m : Machine) (cs : List Char) (ps : List Piece) :
    pieceText m (cs.map .literal ++ ps) = (cs ++ ·) <$> pieceText m ps := by
  induction cs with
  | nil => simp
  | cons c cs ih =>
    rw [List.map_cons, List.cons_append, pieceText_literal, ih]
    cases pieceText m ps <;> rfl

lemma pieceText_reference {m : Machine} {raw path : String} {v : Value}
    (h : resolve m.store m.bindings path = .ok v) (ps : List Piece) :
    pieceText m (.reference raw.toList path.toList :: ps) = do
      let shown ← referenceText m.store raw v
      let rest ← pieceText m ps
      return shown.toList ++ rest := by
  rw [pieceText, interpolatePieces, String.ofList_toList, h, pieceText, referenceText]
  simp only [bind, Except.bind]
  cases v.isNull with
  | true => cases interpolatePieces m ps <;> rfl
  | false =>
    cases (m.store.read v).interpolated with
    | error f => rfl
    | ok shown => cases interpolatePieces m ps <;> rfl

/-! ## Templates of composite keys -/

lemma isBracedPathChar_of_isSchemaChar {c : Char} (h : isSchemaChar c = true) :
    isBracedPathChar c = true := by
  simp [isBracedPathChar, isWord_of_isSchemaChar h]

lemma isBracedPath_child {path name : String} (h : isBracedPath path.toList = true)
    (hname : isSchemaName name = true) : isBracedPath (path ++ "." ++ name).toList = true := by
  rw [toList_child]
  match hp : path.toList, h with
  | c :: cs, h =>
    simp only [isBracedPath, Bool.and_eq_true, List.all_eq_true] at h
    simp only [List.cons_append, isBracedPath, Bool.and_eq_true, List.all_eq_true,
      List.mem_append, List.mem_cons]
    refine ⟨h.1, ?_⟩
    rintro d (hd | rfl | hd)
    · exact h.2 d hd
    · decide
    · exact isBracedPathChar_of_isSchemaChar (isSchemaChar_of_mem hname hd)

/-- The reference to a field in the template of a composite key. -/
def fieldReference (path field : String) : Piece :=
  .reference (braced (path ++ "." ++ field)).toList (path ++ "." ++ field).toList

/-- **The template of a composite key consists of the references to its fields, with the separator
between them.** -/
theorem pieces_compositeTemplate {o : Options} {path : String} {fields : List String}
    (hpath : isBracedPath path.toList = true) (hsep : '$' ∉ o.keySeparator.toList)
    (hfields : ∀ f ∈ fields, isSchemaName f = true) :
    pieces (compositeTemplate o path fields) =
      (o.keySeparator.toList.map Piece.literal).intercalate
        (fields.map fun f => [fieldReference path f]) := by
  have hpieces : pieces (compositeTemplate o path fields) =
      piecesFrom 0 (o.keySeparator.toList.intercalate
        (fields.map fun field => (braced (path ++ "." ++ field)).toList)) := by
    rw [pieces, compositeTemplate, String.toList_intercalate, List.map_map]
    rfl
  -- by induction on the fields; the last one has no separator after it
  rw [hpieces]
  clear hpieces
  induction fields with
  | nil => rfl
  | cons f fs ih =>
    have hbraced := isBracedPath_child hpath (hfields f (by simp))
    cases fs with
    | nil =>
      have hp := piecesFrom_braced hbraced []
      rw [List.append_nil] at hp
      simpa [fieldReference, piecesFrom] using hp
    | cons g gs =>
      have htail := ih fun x hx => hfields x (by simp [hx])
      simp only [List.map_cons] at htail
      simp only [List.map_cons, List.intercalate_cons_cons, List.append_assoc]
      rw [piecesFrom_braced hbraced, piecesFrom_literal hsep, htail]
      rfl

/-- The texts of the components of a composite key, each found under its name after a path. -/
def componentReferences (m : Machine) (path : String) (member : String → Value)
    (fields : List String) : Except Fault (List String) :=
  fields.mapM fun field => referenceText m.store (braced (path ++ "." ++ field)) (member field)

/-- **The template of a composite key becomes the components, joined by the separator.** -/
theorem pieceText_compositeTemplate {m : Machine} {o : Options} {path : String}
    {member : String → Value} {fields : List String} (hpath : isBracedPath path.toList = true)
    (hsep : '$' ∉ o.keySeparator.toList) (hne : fields ≠ [])
    (hfields : ∀ f ∈ fields, isSchemaName f = true)
    (hresolve : ∀ f ∈ fields, resolve m.store m.bindings (path ++ "." ++ f) = .ok (member f)) :
    pieceText m (pieces (compositeTemplate o path fields)) =
      (fun texts => (o.keySeparator.intercalate texts).toList) <$>
        componentReferences m path member fields := by
  rw [pieces_compositeTemplate hpath hsep hfields]
  induction fields with
  | nil => exact absurd rfl hne
  | cons f fs ih =>
    have hhead := hresolve f (by simp)
    cases fs with
    | nil =>
      simp only [List.map_cons, List.map_nil, List.intercalate_singleton, fieldReference,
        pieceText_reference hhead, componentReferences, List.mapM_cons, List.mapM_nil]
      cases referenceText m.store (braced (path ++ "." ++ f)) (member f) with
      | error e => rfl
      | ok t => simp [pieceText_nil, pure, Except.pure, bind, Except.bind]
    | cons g gs =>
      have htail := ih (by simp) (fun x hx => hfields x (by simp [hx]))
        (fun x hx => hresolve x (by simp [hx]))
      simp only [List.map_cons] at htail
      simp only [List.map_cons, List.intercalate_cons_cons, List.append_assoc]
      rw [List.singleton_append, fieldReference, pieceText_reference hhead, pieceText_literals,
        htail]
      simp only [componentReferences, List.mapM_cons]
      cases referenceText m.store (braced (path ++ "." ++ f)) (member f) with
      | error e => rfl
      | ok t =>
        simp only [bind, Except.bind]
        cases referenceText m.store (braced (path ++ "." ++ g)) (member g) with
        | error e => rfl
        | ok u =>
          simp only
          cases gs.mapM fun field =>
              referenceText m.store (braced (path ++ "." ++ field)) (member field) with
          | error e => rfl
          | ok us => simp [pure, Except.pure]

end TableKeys.Template
