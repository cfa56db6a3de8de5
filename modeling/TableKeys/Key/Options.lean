/-
# Options

The options of key generation: two separators, one for the values and one for the names of
composite keys, neither of them empty; names that the generated declarations refer to; and
flags, whose values come from outside and are looked at only when they are needed.
-/
import TableKeys.Data.Shown
import TableKeys.Text.Blank

namespace TableKeys

open Text

/-- Flags by name. -/
abbrev Flags := Entries MapKey Data

/-- A flag that is neither a truth value nor the word for one. -/
structure NotBoolean where
  flag : MapKey
  value : Data
deriving Repr

/-- The error in words; if they cannot be written, why. -/
def NotBoolean.text (e : NotBoolean) : String :=
  if e.flag.isWritable && e.value.isWritable then
    "Feature flag '" ++ e.flag.plain ++ "' is not a boolean: " ++ e.value.shown
  else Fault.tooLong.text

namespace Flags

/-- The truth value that a flag has, if it is set. The words are taken in any case and with
blanks around them; small letters are looked for only where the word has letters of ASCII. -/
def boolean? (flags : Flags) (name : MapKey) : Except NotBoolean (Option Bool) :=
  match (flags.get? name).getD .null with
  | .null => .ok none
  | .bool b => .ok (some b)
  | .text s =>
    let word := String.ofList ((trimBlanks s).toList.map Char.toLower)
    if word = "true" then .ok (some true)
    else if word = "false" then .ok (some false)
    else .error ⟨name, .text s⟩
  | value => .error ⟨name, value⟩

end Flags

/-- The options as they are given. -/
structure Settings where
  /-- Joins the components of the value of a composite key. -/
  keySeparator : String := "#"
  /-- Joins the field names in the name of a composite key. -/
  nameSeparator : String := "#"
  /-- How many items a page has, unless a request says otherwise; it is passed on as it is. -/
  pageLimit : Scalar := .int 100
  readCapacityParameter : Scalar := .text "DynamoDBModelTableReadIOPS"
  writeCapacityParameter : Scalar := .text "DynamoDBModelTableWriteIOPS"
  payPerRequestCondition : String := "ShouldUsePayPerRequestBilling"
  /-- The slot of a resolver that snippets go into. -/
  slot : String := "postAuth"
  flags : Flags := []

/-- Options with separators that are not empty. -/
structure Options extends Settings where
  keySeparator_ne : keySeparator ≠ "" := by decide
  nameSeparator_ne : nameSeparator ≠ "" := by decide

/-- Why settings are no options. -/
inductive SettingsError where
  | emptyKeySeparator
  | emptyNameSeparator
deriving DecidableEq, Repr

/-- The error in words. -/
def SettingsError.text : SettingsError → String
  | emptyKeySeparator => "composite_key_separator must not be empty"
  | emptyNameSeparator => "composite_name_separator must not be empty"

/-- The settings as options. -/
def Settings.check (s : Settings) : Except SettingsError Options :=
  if hk : s.keySeparator = "" then .error .emptyKeySeparator
  else if hn : s.nameSeparator = "" then .error .emptyNameSeparator
  else .ok { s with keySeparator_ne := hk, nameSeparator_ne := hn }

/-- Indexes are global even where they could be local. -/
def Options.globalOnly (o : Options) : Except NotBoolean Bool :=
  (·.getD false) <$> Flags.boolean? o.flags (.text "secondaryKeyAsGSI")

end TableKeys
