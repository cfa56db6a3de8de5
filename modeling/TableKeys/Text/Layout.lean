/-
# Layouts

A layout is a text with places in it for other texts. A place is written `%s`; two percent
signs stand for one. Other directives begin with a percent sign as well: flags, a width, a
precision and a size may come before the letter, and most letters want something other than
a text. Every directive uses up one of the texts that are supplied.

* `fault?_of_plain`: text without percent signs has no fault.
-/
import TableKeys.Text.Word

namespace TableKeys.Text

/-- What is wrong with a layout that is filled with texts. -/
inductive LayoutFault where
  /-- There are fewer texts than places. -/
  | tooFewTexts
  /-- A directive names the text that it wants. -/
  | namedPlace
  /-- A width or a precision is to be taken from the texts. -/
  | suppliedNumber
  | widthTooBig
  | precisionTooBig
  /-- The layout ends within a directive. -/
  | incomplete
  /-- A directive for single characters. -/
  | wantsCharacter
  /-- A directive for numbers, by its letter. -/
  | wantsNumber (letter : Char)
  /-- A directive for whole numbers, by its letter. -/
  | wantsWhole (letter : Char)
  /-- A directive for fractional numbers. -/
  | wantsFraction
  /-- There is no directive with this letter. -/
  | unknown (letter : Char) (position : Nat)
deriving DecidableEq, Repr

namespace LayoutFault

/-- The fault lies in the directive itself and not in the texts that are supplied. -/
def isMalformed : LayoutFault → Bool
  | widthTooBig | precisionTooBig | incomplete | unknown .. => true
  | _ => false

/-- A character of a message; one outside of visible ASCII is not shown. -/
def shownLetter (c : Char) : Char :=
  if 31 ≤ c.toNat && c.toNat ≤ 126 then c else '?'

/-- The fault in words. -/
def text : LayoutFault → String
  | tooFewTexts => "not enough arguments for format string"
  | namedPlace => "format requires a mapping"
  | suppliedNumber => "* wants int"
  | widthTooBig => "width too big"
  | precisionTooBig => "precision too big"
  | incomplete => "incomplete format"
  | wantsCharacter => "%c requires int or char"
  | wantsNumber letter =>
    "%" ++ letter.toString ++ " format: a real number is required, not str"
  | wantsWhole letter =>
    "%" ++ letter.toString ++ " format: an integer is required, not str"
  | wantsFraction => "must be real number, not str"
  | unknown letter position =>
    "unsupported format character '" ++ (shownLetter letter).toString ++ "' (0x" ++
      String.ofList (Nat.toDigits 16 letter.toNat) ++ ") at index " ++ toString position

end LayoutFault

namespace Layout

/-- The greatest width of a directive. -/
def maxWidth : Nat := 9223372036854775807

/-- The greatest precision of a directive. -/
def maxPrecision : Nat := 2147483647

/-- A flag of a directive. -/
def isFlag (c : Char) : Bool :=
  c == '-' || c == '+' || c == ' ' || c == '#' || c == '0'

/-- A mark for the size of a number, which means nothing here. -/
def isSizeMark (c : Char) : Bool :=
  c == 'h' || c == 'l' || c == 'L'

/-- The number at the beginning and what follows it, if the number is not too big. -/
def readNumber (limit : Nat) (tooBig : LayoutFault) (cs : List Char) :
    Except LayoutFault (List Char) :=
  if digitsValue (cs.takeWhile Char.isDigit) ≤ limit then .ok (cs.dropWhile Char.isDigit)
  else .error tooBig

/-- What follows the width and the precision of a directive. A star in the place of either wants
a number. -/
def readSizes (supply : Nat) (cs : List Char) : Except LayoutFault (List Char) :=
  let star : LayoutFault := if supply = 0 then .tooFewTexts else .suppliedNumber
  match cs with
  | '*' :: _ => .error star
  | cs => do
    let rest ← readNumber maxWidth .widthTooBig cs
    match rest with
    | '.' :: '*' :: _ => .error star
    | '.' :: rest => readNumber maxPrecision .precisionTooBig rest
    | rest => return rest

/-- The letter of the directive that goes on with the given characters, and what follows it. -/
def readDirective (supply : Nat) (cs : List Char) : Except LayoutFault (Char × List Char) := do
  if cs.head? == some '(' then throw .namedPlace
  let rest ← readSizes supply (cs.dropWhile isFlag)
  let rest := match rest with
    | c :: rest => if isSizeMark c then rest else c :: rest
    | [] => []
  match rest with
  | c :: rest => return (c, rest)
  | [] => throw .incomplete

/-- What is wrong with a directive with the given letter that is to be filled with a text. -/
def letterFault? (letter : Char) (position : Nat) : Option LayoutFault :=
  if ['s', 'r', 'a'].contains letter then none
  else if letter == 'c' then some .wantsCharacter
  else if ['d', 'i', 'u'].contains letter then some (.wantsNumber letter)
  else if ['o', 'x', 'X'].contains letter then some (.wantsWhole letter)
  else if ['e', 'E', 'f', 'F', 'g', 'G'].contains letter then some .wantsFraction
  else some (.unknown letter position)

/-- The first fault of a layout from a position on, when so many texts are left; the first
characters may be covered by the directive before. -/
def faultFrom? : (covered supply position : Nat) → List Char → Option LayoutFault
  | _, _, _, [] => none
  | covered + 1, supply, position, _ :: cs => faultFrom? covered supply (position + 1) cs
  | 0, supply, position, c :: cs =>
    if c != '%' then faultFrom? 0 supply (position + 1) cs
    else if cs.head? == some '%' then faultFrom? 1 supply (position + 1) cs
    else
      match readDirective supply cs with
      | .error fault => some fault
      | .ok (letter, rest) =>
        let length := cs.length - rest.length
        match supply with
        | 0 => some .tooFewTexts
        | supply + 1 =>
          match letterFault? letter (position + length) with
          | some fault => some fault
          | none => faultFrom? length supply (position + 1) cs

/-- The first fault of a layout that is filled with so many texts. -/
def fault? (supply : Nat) (cs : List Char) : Option LayoutFault :=
  faultFrom? 0 supply 0 cs

theorem faultFrom?_of_plain {cs : List Char} (h : '%' ∉ cs) (supply position : Nat) :
    faultFrom? 0 supply position cs = none := by
  induction cs generalizing position with
  | nil => rfl
  | cons c cs ih =>
    rw [List.mem_cons, not_or] at h
    obtain ⟨hc, hcs⟩ := h
    have hne : (c != '%') = true := by simpa using Ne.symm hc
    rw [faultFrom?, if_pos hne]
    exact ih hcs _

/-- Text without percent signs has no fault. -/
theorem fault?_of_plain {cs : List Char} (h : '%' ∉ cs) (supply : Nat) :
    fault? supply cs = none :=
  faultFrom?_of_plain h supply 0

end Layout

end TableKeys.Text
