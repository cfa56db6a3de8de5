/-
# References inside texts

A text may hold references to paths: `${path}`, or `$path` without braces, which extends as
far as the path can go on; an exclamation mark may follow the dollar sign. Outside braces a
path is a name followed by steps `.name` and indexes `[digits]`. Everything else is literal.

`pieces` cuts a text into literal characters and references. It does so once, before anything
is put in, so text that comes in for a reference is never cut again.

* `isPrefix_of_reference?`: a reference stands at the beginning of the text and is not empty;
* `raw_pieces`: the pieces put together again are the text.
-/
import TableKeys.Text.Word
import TableKeys.Text.Search

namespace TableKeys.Template

open Text

/-- A piece of a text. -/
inductive Piece where
  | literal (c : Char)
  /-- A reference: how it is written, and the path it refers to. -/
  | reference (raw path : List Char)
deriving DecidableEq, Repr

/-- The characters of a piece. -/
def Piece.raw : Piece → List Char
  | literal c => [c]
  | reference raw _ => raw

/-- A character that may stand in a path between braces. -/
def isBracedPathChar (c : Char) : Bool :=
  isWord c || c == '.' || c == '[' || c == ']'

/-- A path between braces. -/
def bracedPath? : List Char → Option (List Char)
  | '{' :: c :: cs =>
    if isNameStart c && (cs.dropWhile isBracedPathChar).head? == some '}' then
      some (c :: cs.takeWhile isBracedPathChar)
    else none
  | _ => none

/-- The next characters are an index. -/
def startsIndex (cs : List Char) : Bool :=
  !(cs.takeWhile isDecimalDigit).isEmpty && (cs.dropWhile isDecimalDigit).head? == some ']'

/-- The rest of a path without braces: `inName` as long as a name may go on, after a count of
characters that belong to it in any case. -/
def barePathRest (inName : Bool) : Nat → List Char → List Char
  | _, [] => []
  | known + 1, c :: cs => c :: barePathRest inName known cs
  | 0, c :: cs =>
    if inName && isWord c then c :: barePathRest true 0 cs
    else if c == '.' && cs.head?.any isNameStart then c :: barePathRest true 1 cs
    else if c == '[' && startsIndex cs then
      c :: barePathRest false ((cs.takeWhile isDecimalDigit).length + 1) cs
    else []

/-- A path without braces. -/
def barePath? : List Char → Option (List Char)
  | c :: cs => if isNameStart c then some (c :: barePathRest true 0 cs) else none
  | [] => none

/-- The reference at the beginning of a text: how it is written, and its path. -/
def reference? : List Char → Option (List Char × List Char)
  | '$' :: cs =>
    let mark := if cs.head? == some '!' then ['!'] else []
    let rest := cs.drop mark.length
    match bracedPath? rest with
    | some path => some ('$' :: mark ++ '{' :: path ++ ['}'], path)
    | none =>
      (barePath? rest).map fun path => ('$' :: mark ++ path, path)
  | _ => none

/-- The pieces of a text, after a count of characters that belong to the last piece. -/
def piecesFrom : Nat → List Char → List Piece
  | _, [] => []
  | covered + 1, _ :: cs => piecesFrom covered cs
  | 0, c :: cs =>
    match reference? (c :: cs) with
    | some (raw, path) => .reference raw path :: piecesFrom (raw.length - 1) cs
    | none => .literal c :: piecesFrom 0 cs

/-- The pieces of a text. -/
def pieces (s : String) : List Piece :=
  piecesFrom 0 s.toList

/-! ## The pieces of a text make it up -/

theorem isPrefix_of_bracedPath? {cs path : List Char} (h : bracedPath? cs = some path) :
    '{' :: path ++ ['}'] <+: cs := by
  unfold bracedPath? at h
  split at h
  · next c cs =>
    split at h
    · next hc =>
      cases h
      obtain ⟨rest, hrest⟩ : ∃ rest, cs.dropWhile isBracedPathChar = '}' :: rest := by
        simpa [List.head?_eq_some_iff] using (Bool.and_eq_true_iff.mp hc).2
      refine ⟨rest, ?_⟩
      have hsplit := List.takeWhile_append_dropWhile (p := isBracedPathChar) (l := cs)
      rw [hrest] at hsplit
      simpa using hsplit
    · cases h
  · cases h

theorem isPrefix_barePathRest (inName : Bool) (n : Nat) (cs : List Char) :
    barePathRest inName n cs <+: cs := by
  fun_induction barePathRest inName n cs with
  | case1 => exact List.nil_prefix
  | case6 => exact List.nil_prefix
  | _ => simpa [List.cons_prefix_cons]

theorem isPrefix_of_barePath? {cs path : List Char} (h : barePath? cs = some path) :
    path <+: cs := by
  match cs, h with
  | c :: cs, h =>
    simp only [barePath?] at h
    split at h
    · cases h
      exact List.cons_prefix_cons.mpr ⟨rfl, isPrefix_barePathRest true 0 cs⟩
    · cases h

/-- A reference is written with at least one character, and it stands at the beginning. -/
theorem isPrefix_of_reference? {cs raw path : List Char} (h : reference? cs = some (raw, path)) :
    raw <+: cs ∧ raw ≠ [] := by
  unfold reference? at h
  split at h
  · next cs =>
    obtain ⟨mark, hmark, hdrop⟩ : ∃ mark, (if cs.head? == some '!' then ['!'] else []) = mark ∧
        mark ++ cs.drop mark.length = cs := by
      cases cs with
      | nil => exact ⟨[], rfl, rfl⟩
      | cons c cs =>
        by_cases hc : c = '!'
        · exact ⟨['!'], by simp [hc], by simp [hc]⟩
        · exact ⟨[], by simp [hc], by simp⟩
    simp only [hmark] at h
    split at h
    · next path' hb =>
      cases h
      have hp := (List.prefix_append_right_inj ('$' :: mark)).mpr (isPrefix_of_bracedPath? hb)
      refine ⟨?_, by simp⟩
      simpa [hdrop] using hp
    · obtain ⟨path', hb, he⟩ := Option.map_eq_some_iff.mp h
      cases he
      have hp := (List.prefix_append_right_inj ('$' :: mark)).mpr (isPrefix_of_barePath? hb)
      refine ⟨?_, by simp⟩
      simpa [hdrop] using hp
  · cases h

theorem raw_piecesFrom (n : Nat) (cs : List Char) :
    (piecesFrom n cs).flatMap Piece.raw = cs.drop n := by
  fun_induction piecesFrom n cs with
  | case1 => simp
  | case2 covered c cs ih => simpa using ih
  | case3 c cs raw path h ih =>
    obtain ⟨⟨rest, hrest⟩, hne⟩ := isPrefix_of_reference? h
    match raw, hne with
    | r :: raw, _ =>
      obtain ⟨rfl, rfl⟩ : r = c ∧ raw ++ rest = cs := by simpa using hrest
      simpa [Piece.raw] using ih
  | case4 c cs h ih => simpa [Piece.raw] using ih

/-- **The pieces of a text, put together again, are the text.** -/
theorem raw_pieces (s : String) : (pieces s).flatMap Piece.raw = s.toList := by
  simpa [pieces] using raw_piecesFrom 0 s.toList

end TableKeys.Template
