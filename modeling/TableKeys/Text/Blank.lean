/-
# Blank characters

The characters that may surround a word without belonging to it, and the removal of those
at both ends of a text.
-/

namespace TableKeys.Text

/-- Code points of the blank characters. -/
def blanks : List Nat := [
  9, 10, 11, 12, 13, 28, 29, 30, 31, 32, 133, 160, 5760, 8192, 8193, 8194, 8195, 8196, 8197,
  8198, 8199, 8200, 8201, 8202, 8232, 8233, 8239, 8287, 12288]

/-- The character is blank. -/
def isBlank (c : Char) : Bool :=
  blanks.contains c.toNat

/-- The separators of files, groups, records and units among the control characters. -/
def isInformationSeparator (c : Char) : Bool :=
  28 ≤ c.toNat && c.toNat ≤ 31

/-- The characters without those at the two ends that satisfy a condition. -/
def trim (p : Char → Bool) (cs : List Char) : List Char :=
  ((cs.dropWhile p).reverse.dropWhile p).reverse

/-- The text without the blanks at its two ends. -/
def trimBlanks (s : String) : String :=
  String.ofList (trim isBlank s.toList)

/-- Whatever the core library takes for white space is blank. -/
theorem isBlank_of_isWhitespace {c : Char} (h : c.isWhitespace = true) : isBlank c = true := by
  simp only [Char.isWhitespace, Bool.or_eq_true, decide_eq_true_eq] at h
  rcases h with ((rfl | rfl) | rfl) | rfl <;> decide

end TableKeys.Text
