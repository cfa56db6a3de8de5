/-
# Reading JSON texts

A text in JSON ends at the first double quote that no backslash escapes. Between the quotes
a character stands for itself, or an escape stands for it: a letter after a backslash, or one
or two units of UTF-16 in four hexadecimal digits each.

* `readJson_jsonQuoted`: a text is read back from its form in JSON, whatever follows.
-/
import TableKeys.Text.Quoted
import Mathlib.Tactic.Common

namespace TableKeys.Text

/-! ## Hexadecimal digits -/

/-- The value of a hexadecimal digit. -/
def hexValue (c : Char) : Nat :=
  if c.isDigit then c.toNat - '0'.toNat else c.toNat - 'a'.toNat + 10

lemma hexValue_digitChar {n : Nat} (h : n < 16) : hexValue n.digitChar = n := by
  have hall : ∀ n : Fin 16, hexValue (n : Nat).digitChar = n := by decide
  exact hall ⟨n, h⟩

/-- The number that four hexadecimal digits write. -/
def hexNumber (a b c d : Char) : Nat :=
  16 * (16 * (16 * hexValue a + hexValue b) + hexValue c) + hexValue d

lemma hexDigits_succ {width n : Nat} (hn : 16 ≤ n) :
    hexDigits (width + 1) n = hexDigits width (n / 16) ++ [(n % 16).digitChar] := by
  rw [hexDigits, hexDigits, Nat.toDigits_of_base_le (by decide) hn]
  simp

lemma hexDigits_of_lt {width n : Nat} (hn : n < 16) :
    hexDigits (width + 1) n = List.replicate width '0' ++ [n.digitChar] := by
  rw [hexDigits, Nat.toDigits_of_lt_base hn]
  simp

lemma hexDigits_eq {width n : Nat} :
    hexDigits (width + 2) n = hexDigits (width + 1) (n / 16) ++ [(n % 16).digitChar] := by
  by_cases hn : 16 ≤ n
  · exact hexDigits_succ hn
  · have hlt : n < 16 := by omega
    rw [hexDigits_of_lt hlt, Nat.div_eq_of_lt hlt, hexDigits_of_lt (by decide),
      Nat.mod_eq_of_lt hlt, List.replicate_succ']
    rfl

/-- Four digits are enough for a unit of UTF-16, and they write it. -/
lemma hexDigits_four {n : Nat} (hn : n < 0x10000) :
    ∃ a b c d, hexDigits 4 n = [a, b, c, d] ∧ hexNumber a b c d = n := by
  refine ⟨(n / 16 / 16 / 16).digitChar, (n / 16 / 16 % 16).digitChar, (n / 16 % 16).digitChar,
    (n % 16).digitChar, ?_, ?_⟩
  · rw [hexDigits_eq, hexDigits_eq, hexDigits_eq, hexDigits_of_lt (by omega)]
    rfl
  · rw [hexNumber, hexValue_digitChar (by omega), hexValue_digitChar (by omega),
      hexValue_digitChar (by omega), hexValue_digitChar (by omega)]
    omega

/-! ## Escapes -/

/-- What a letter after a backslash stands for. -/
def unescaped : Char → Char
  | 'n' => '\n'
  | 'r' => '\r'
  | 't' => '\t'
  | 'b' => '\x08'
  | 'f' => '\x0c'
  | c => c

/-- The unit is the first one of two. -/
def isLeading (n : Nat) : Bool :=
  0xd800 ≤ n && n < 0xdc00

/-- Reads the rest of a JSON text, of which a leading unit may have been read already. -/
def readJsonRest : Option Nat → List Char → Option (List Char × List Char)
  | _, '"' :: rest => some ([], rest)
  | leading, '\\' :: 'u' :: a :: b :: c :: d :: rest =>
    let n := hexNumber a b c d
    match leading with
    | some m => (readJsonRest none rest).map fun (cs, rest) =>
        (Char.ofNat (0x10000 + (m - 0xd800) * 0x400 + (n - 0xdc00)) :: cs, rest)
    | none =>
      if isLeading n then readJsonRest (some n) rest
      else (readJsonRest none rest).map fun (cs, rest) => (Char.ofNat n :: cs, rest)
  | _, '\\' :: c :: rest =>
    (readJsonRest none rest).map fun (cs, rest) => (unescaped c :: cs, rest)
  | _, c :: rest => (readJsonRest none rest).map fun (cs, rest) => (c :: cs, rest)
  | _, [] => none

/-- Reads a JSON text at the beginning of a row of characters. -/
def readJson : List Char → Option (String × List Char)
  | '"' :: cs => (readJsonRest none cs).map fun (cs, rest) => (String.ofList cs, rest)
  | _ => none

section Units

variable {n : Nat} (hn : n < 0x10000) (rest : List Char)

include hn

lemma readJsonRest_unit :
    readJsonRest none (jsonUnit n ++ rest) =
      if isLeading n then readJsonRest (some n) rest
      else (readJsonRest none rest).map fun (cs, rest) => (Char.ofNat n :: cs, rest) := by
  obtain ⟨a, b, c, d, hdigits, hvalue⟩ := hexDigits_four hn
  rw [jsonUnit, hdigits]
  simp [readJsonRest, hvalue]

lemma readJsonRest_trailing (m : Nat) :
    readJsonRest (some m) (jsonUnit n ++ rest) = (readJsonRest none rest).map fun (cs, rest) =>
      (Char.ofNat (0x10000 + (m - 0xd800) * 0x400 + (n - 0xdc00)) :: cs, rest) := by
  obtain ⟨a, b, c, d, hdigits, hvalue⟩ := hexDigits_four hn
  rw [jsonUnit, hdigits]
  simp [readJsonRest, hvalue]

end Units

/-- No character is a unit that stands for half of one. -/
lemma not_isLeading (c : Char) : isLeading c.toNat = false := by
  have hvalid : c.toNat < 0xd800 ∨ 0xdfff < c.toNat ∧ c.toNat < 0x110000 := c.valid
  simp only [isLeading, Bool.and_eq_false_iff, decide_eq_false_iff_not, Nat.not_le,
    Nat.not_lt]
  omega

/-- Two units stand for a character beyond the reach of one. -/
lemma readJsonRest_units {c : Char} (hc : 0x10000 ≤ c.toNat) (rest : List Char) :
    readJsonRest none (jsonUnit (0xd800 + (c.toNat - 0x10000) / 0x400) ++
        jsonUnit (0xdc00 + (c.toNat - 0x10000) % 0x400) ++ rest) =
      (readJsonRest none rest).map fun (cs, rest) => (c :: cs, rest) := by
  have hvalid : c.toNat < 0xd800 ∨ 0xdfff < c.toNat ∧ c.toNat < 0x110000 := c.valid
  have hleading : isLeading (0xd800 + (c.toNat - 0x10000) / 0x400) = true := by
    simp only [isLeading, Bool.and_eq_true, decide_eq_true_eq]
    omega
  have hchar : 0x10000 + (0xd800 + (c.toNat - 0x10000) / 0x400 - 0xd800) * 0x400 +
      (0xdc00 + (c.toNat - 0x10000) % 0x400 - 0xdc00) = c.toNat := by omega
  rw [List.append_assoc, readJsonRest_unit (by omega), if_pos hleading,
    readJsonRest_trailing (by omega), hchar, Char.ofNat_toNat]

/-- One character is read back. -/
lemma readJsonRest_jsonChar (c : Char) (rest : List Char) :
    readJsonRest none (jsonChar c ++ rest) =
      (readJsonRest none rest).map fun (cs, rest) => (c :: cs, rest) := by
  unfold jsonChar
  split
  · rename_i h
    simp only [Bool.or_eq_true, beq_iff_eq] at h
    rcases h with rfl | rfl <;> rfl
  split
  · rename_i h
    rw [beq_iff_eq.mp h]
    rfl
  split
  · rename_i h
    rw [beq_iff_eq.mp h]
    rfl
  split
  · rename_i h
    rw [beq_iff_eq.mp h]
    rfl
  split
  · rename_i h
    rw [beq_iff_eq.mp h]
    rfl
  split
  · rename_i h
    rw [beq_iff_eq.mp h]
    rfl
  rename_i hquote _ _ _ _ _
  simp only [Bool.or_eq_true, beq_iff_eq, not_or] at hquote
  split
  · rw [List.singleton_append, readJsonRest]
    · exact hquote.1
    · intro _ _ _ _ _ h
      exact absurd h hquote.2
    · intro _ _ h
      exact absurd h hquote.2
  split
  · rw [readJsonRest_unit (by omega), not_isLeading, if_neg Bool.false_ne_true,
      Char.ofNat_toNat]
  · exact readJsonRest_units (by omega) rest

/-- **A text is read back from its form in JSON.** -/
theorem readJson_jsonQuoted (s : String) (rest : List Char) :
    readJson ((jsonQuoted s).toList ++ rest) = some (s, rest) := by
  have hrest : ∀ cs : List Char, readJsonRest none (cs.flatMap jsonChar ++ ('"' :: rest)) =
      some (cs, rest) := by
    intro cs
    induction cs with
    | nil => rfl
    | cons c cs ih =>
      rw [List.flatMap_cons, List.append_assoc, readJsonRest_jsonChar, ih]
      rfl
  have h := hrest s.toList
  simp [jsonQuoted, readJson, h]

end TableKeys.Text
