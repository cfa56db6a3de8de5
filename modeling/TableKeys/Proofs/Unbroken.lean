/-
# Trees without line breaks

Every expression is meant to be written in one line. Nothing that the printer writes of its own
breaks the line, and neither does a number, a text in JSON or a row of bytes between quotes; a
text, a path or a name is written as it is. So a tree in which these hold no line break, and no
whole number has too many digits to be written (`isUnbroken`), has all of its expressions in one
line each.

* `Expr.exists_oneLine`: an unbroken expression has a text, which is in one line.
-/
import TableKeys.Proofs.NumberText
import TableKeys.Proofs.Results
import TableKeys.Template.Printer

namespace TableKeys

open Number Text

/-- The text is in one line. -/
abbrev OneLine (s : String) : Prop := '\n' ∉ s.toList

/-! ## Quoted texts -/

namespace Text

lemma newline_notMem_toDigits (n : Nat) : '\n' ∉ Nat.toDigits 16 n := by
  have hdigit : ∀ n : Fin 16, '\n' ≠ (n : Nat).digitChar := by decide
  induction n using Nat.strongRecOn with
  | _ n ih =>
    by_cases hn : n < 16
    · rw [Nat.toDigits_of_lt_base hn, List.mem_singleton]
      exact hdigit ⟨n, hn⟩
    · rw [Nat.toDigits_of_base_le (by decide) (by omega), List.mem_append, List.mem_singleton]
      rintro (h | h)
      · exact ih (n / 16) (by omega) h
      · exact hdigit ⟨n % 16, Nat.mod_lt n (by decide)⟩ h

lemma newline_notMem_hexDigits (width n : Nat) : '\n' ∉ hexDigits width n := by
  rw [hexDigits, List.mem_append]
  rintro (h | h)
  · exact absurd (List.eq_of_mem_replicate h) (by decide)
  · exact newline_notMem_toDigits n h

lemma newline_notMem_ite {p : Prop} [Decidable p] {cs ds : List Char} (hcs : '\n' ∉ cs)
    (hds : '\n' ∉ ds) : '\n' ∉ if p then cs else ds := by
  split
  · exact hcs
  · exact hds

lemma newline_notMem_pair {c d : Char} (hc : c ≠ '\n') (hd : d ≠ '\n') : '\n' ∉ [c, d] := by
  simp [Ne.symm hc, Ne.symm hd]

lemma newline_notMem_jsonUnit (n : Nat) : '\n' ∉ jsonUnit n := by
  simp [jsonUnit, newline_notMem_hexDigits]

lemma newline_notMem_jsonChar (c : Char) : '\n' ∉ jsonChar c := by
  by_cases hc : c = '\n'
  · subst hc
    decide
  -- one step for each way of writing a character
  · refine newline_notMem_ite (newline_notMem_pair (by decide) hc) <|
      newline_notMem_ite (by decide) <| newline_notMem_ite (by decide) <|
      newline_notMem_ite (by decide) <| newline_notMem_ite (by decide) <|
      newline_notMem_ite (by decide) <| newline_notMem_ite (by simpa using Ne.symm hc) <|
      newline_notMem_ite (newline_notMem_jsonUnit _) ?_
    exact fun h => (List.mem_append.mp h).elim (newline_notMem_jsonUnit _)
      (newline_notMem_jsonUnit _)

/-- A text in JSON is in one line. -/
lemma oneLine_jsonQuoted (s : String) : OneLine (jsonQuoted s) := by
  simp [OneLine, jsonQuoted, newline_notMem_jsonChar]

lemma newline_notMem_quotedChar {quote : Char} (hquote : quote ≠ '\n') (c : Char) :
    '\n' ∉ quotedChar quote c := by
  by_cases hc : c = '\n'
  · subst hc
    simp [quotedChar, Ne.symm hquote]
  · refine newline_notMem_ite (newline_notMem_pair (by decide) hc) <|
      newline_notMem_ite (by decide) <| newline_notMem_ite (by decide) <|
      newline_notMem_ite (by decide) <| newline_notMem_ite (by simpa using Ne.symm hc) <|
      newline_notMem_ite ?_ <| newline_notMem_ite ?_ ?_
    all_goals simp [newline_notMem_hexDigits]

/-- Bytes between quotes are in one line. -/
lemma oneLine_quotedBytes (bytes : List UInt8) : OneLine (quotedBytes bytes) := by
  have hquote : ∀ cs, quoteFor cs ≠ '\n' := by
    intro cs
    unfold quoteFor
    split <;> decide
  have hchar : ∀ (cs : List Char) (c : Char), '\n' ∉
      if c.toNat < 128 then quotedChar (quoteFor cs) c else '\\' :: 'x' :: hexDigits 2 c.toNat := by
    intro cs c
    exact newline_notMem_ite (newline_notMem_quotedChar (hquote cs) c)
      (by simp [newline_notMem_hexDigits])
  have hfirst : ∀ cs, '\n' ≠ quoteFor cs := fun cs => Ne.symm (hquote cs)
  simp only [OneLine, quotedBytes, String.toList_ofList, List.cons_append, List.mem_cons,
    List.mem_append, List.mem_flatMap, List.not_mem_nil, or_false]
  rintro (h | h | ⟨c, -, h⟩ | h)
  · exact absurd h (by decide)
  · exact hfirst _ h
  · exact hchar _ c h
  · exact hfirst _ h

end Text

/-! ## Numbers -/

namespace Number

lemma newline_notMem_write {style : NumberStyle} (hmark : style.mark ≠ '\n') (c : Nat) (e : Int) :
    '\n' ∉ style.write c e := by
  intro h
  rcases style.isNumeric_write c e _ h with h | h | h | h | h
  · exact absurd h (by decide)
  · exact absurd h (by decide)
  · exact absurd h (by decide)
  · exact absurd h (by decide)
  · exact hmark h.symm

lemma newline_notMem_signText (negative : Bool) : '\n' ∉ Decimal.signText negative := by
  cases negative <;> decide

lemma oneLine_toString (n : Int) : OneLine (toString n) := by
  cases n with
  | ofNat n => exact notMem_toString (by decide) n
  | negSucc n =>
    change '\n' ∉ ("-" ++ (n + 1).repr).toList
    rw [← Nat.toString_eq_repr, String.toList_append, List.mem_append]
    rintro (h | h)
    · exact absurd h (by decide)
    · exact notMem_toString (by decide) (n + 1) h

lemma Decimal.oneLine_text (d : Decimal) : OneLine d.text := by
  cases d with
  | finite negative c e =>
    have hwrite := newline_notMem_write (by decide : style.mark ≠ '\n') c e
    simp [OneLine, text, newline_notMem_signText, hwrite]
  | infinite negative => simp [OneLine, text, newline_notMem_signText]
  | nan negative signaling payload mark =>
    have hpayload : '\n' ∉ if payload = 0 then [] else Nat.toDigits 10 payload :=
      newline_notMem_ite List.not_mem_nil fun h =>
        absurd (AllDigits.toDigits payload _ h) (by decide)
    have hsignaling : '\n' ∉ if signaling = true then ['s'] else [] :=
      newline_notMem_ite (by decide) (by decide)
    rw [OneLine, text, String.toList_ofList, List.mem_append, List.mem_append, List.mem_append]
    rintro (((h | h) | h) | h)
    · exact newline_notMem_signText negative h
    · exact hsignaling h
    · exact absurd h (by decide)
    · exact hpayload h

lemma Binary64.oneLine_text (x : Binary64) : OneLine x.text := by
  cases x with
  | finite negative mantissa exponent =>
    have hwrite := newline_notMem_write (by decide : style.mark ≠ '\n')
    simp [OneLine, text, newline_notMem_signText, hwrite]
  | infinite negative => cases negative <;> decide
  | nan mark => exact (by decide : OneLine "nan")

end Number

/-! ## Scalars -/

/-- A scalar is written in one line if it is no text with line breaks. -/
lemma Scalar.oneLine_plain {a : Scalar} (h : ∀ s, a.text? = some s → OneLine s) :
    OneLine a.plain := by
  cases a with
  | null => decide
  | bool b => cases b <;> decide
  | int n => exact oneLine_toString n
  | float x => exact x.oneLine_text
  | decimal d => exact d.oneLine_text
  | text s => exact h s rfl
  | bytes b => exact oneLine_quotedBytes b

lemma Data.oneLine_jsonFloat (x : Binary64) : OneLine (jsonFloat x) := by
  match x with
  | .finite .. => exact Binary64.oneLine_text _
  | .infinite true => decide
  | .infinite false => decide
  | .nan _ => exact (by decide : OneLine "NaN")

lemma Data.oneLine_jsonScalar {a : Scalar} {t : String} (h : jsonScalar a = .ok t) :
    OneLine t := by
  cases a with
  | int n =>
    obtain ⟨-, rfl⟩ := Scalar.written_eq_ok_iff.mp h
    exact oneLine_toString n
  | null =>
    obtain rfl := Except.ok.inj h
    decide
  | bool b =>
    obtain rfl := Except.ok.inj h
    cases b <;> decide
  | float x =>
    obtain rfl := Except.ok.inj h
    exact oneLine_jsonFloat x
  | decimal _ | text _ | bytes _ =>
    obtain rfl := Except.ok.inj h
    exact oneLine_jsonQuoted _

namespace Template

/-! ## Expressions -/

namespace Expr

mutual

/-- Nothing in the expression is out of place, its texts and paths are in one line, and its whole
numbers can be written. The keys of maps may be any others: they are written with their line
breaks escaped. -/
def isUnbroken : Expr → Bool
  | ref path => decide (OneLine path)
  | text s => decide (OneLine s)
  | int n => Number.isWritable n
  | bool _ => true
  | misfit leaf content =>
    (leaf == .bool || content.isWritable) && content.text?.all fun s => decide (OneLine s)
  | object entries => areUnbrokenEntries entries
  | keyed entries => areUnbrokenKeyed entries
  | list es | and es => areUnbroken es
  | isNull e | not e | toAttribute e | toFilter e => e.isUnbroken
  | equals a b | containsKey a b | defaultIfNull a b => a.isUnbroken && b.isUnbroken
  | stray _ | unlisted _ => false

/-- All of them are unbroken. -/
def areUnbroken : List Expr → Bool
  | [] => true
  | e :: es => e.isUnbroken && areUnbroken es

/-- The values of all entries are unbroken. -/
def areUnbrokenEntries : List (String × Expr) → Bool
  | [] => true
  | (_, e) :: entries => e.isUnbroken && areUnbrokenEntries entries

/-- The values of all entries are unbroken, and their keys can be written. -/
def areUnbrokenKeyed : List (Scalar × Expr) → Bool
  | [] => true
  | (key, e) :: entries => key.isWritable && e.isUnbroken && areUnbrokenKeyed entries

end

/-- A leaf whose content can be written in one line is written in one line. -/
lemma exists_oneLine_misfit {leaf : Leaf} {content : Scalar}
    (hwritable : (leaf == .bool || content.isWritable) = true) (h : OneLine content.plain) :
    ∃ t, printMisfit leaf content = .ok t ∧ OneLine t := by
  cases leaf with
  | ref =>
    exact ⟨"$" ++ content.plain, by rw [printMisfit, Scalar.written_of_isWritable hwritable]; rfl,
      by simpa [OneLine] using h⟩
  | text =>
    exact ⟨"\"" ++ content.plain ++ "\"",
      by rw [printMisfit, Scalar.written_of_isWritable hwritable]; rfl, by simpa [OneLine] using h⟩
  | int => exact ⟨_, Scalar.written_of_isWritable hwritable, h⟩
  | bool =>
    refine ⟨if content.isNothing then "false" else "true", rfl, ?_⟩
    split <;> decide

/-- Texts in one line, in brackets and with separators. -/
lemma oneLine_enclosed {before separator after : String} {texts : List String}
    (hbefore : OneLine before) (hseparator : OneLine separator) (hafter : OneLine after)
    (h : ∀ t ∈ texts, OneLine t) : OneLine (before ++ separator.intercalate texts ++ after) := by
  have htexts := notMem_intercalate hseparator h
  simp only [OneLine, String.toList_append, List.mem_append, not_or]
  exact ⟨⟨hbefore, htexts⟩, hafter⟩

mutual

/-- **An unbroken expression is written in one line.** -/
theorem exists_oneLine : ∀ e : Expr, e.isUnbroken = true → ∃ t, e.print = .ok t ∧ OneLine t
  | ref path, h => by
    have hpath : OneLine path := of_decide_eq_true h
    exact ⟨_, rfl, by simpa [OneLine] using hpath⟩
  | text s, h => by
    have hs : OneLine s := of_decide_eq_true h
    exact ⟨_, rfl, by simpa [OneLine] using hs⟩
  | int n, h => by
    have hwritten := Scalar.written_of_isWritable (a := .int n) h
    exact ⟨_, by rw [print, hwritten]; rfl, Number.oneLine_toString n⟩
  | bool b, _ => ⟨_, rfl, by cases b <;> decide⟩
  | misfit leaf content, h => by
    obtain ⟨hwritable, htext⟩ := Bool.and_eq_true_iff.mp h
    obtain ⟨t, ht, hline⟩ := exists_oneLine_misfit hwritable (Scalar.oneLine_plain fun s hs => by
      rw [hs] at htext
      exact of_decide_eq_true htext)
    exact ⟨t, by rw [print, ht]; rfl, hline⟩
  | object [], _ => ⟨_, rfl, by decide⟩
  | object (entry :: entries), h => by
    obtain ⟨ts, hts, hlines⟩ := exists_oneLine_entries (entry :: entries) h
    exact ⟨_, by rw [print, hts]; exacts [rfl, List.cons_ne_nil _ _],
      oneLine_enclosed (by decide) (by decide) (by decide) hlines⟩
  | keyed [], _ => ⟨_, rfl, by decide⟩
  | keyed (entry :: entries), h => by
    obtain ⟨ts, hts, hlines⟩ := exists_oneLine_keyed (entry :: entries) h
    exact ⟨_, by rw [print, hts]; exacts [rfl, List.cons_ne_nil _ _],
      oneLine_enclosed (by decide) (by decide) (by decide) hlines⟩
  | list items, h => by
    obtain ⟨ts, hts, hlines⟩ := exists_oneLine_all items h
    exact ⟨_, by rw [print, hts]; rfl, oneLine_enclosed (by decide) (by decide) (by decide) hlines⟩
  | and es, h => by
    obtain ⟨ts, hts, hlines⟩ := exists_oneLine_all es h
    exact ⟨_, by rw [print, hts]; rfl, notMem_intercalate (by decide) hlines⟩
  | isNull e, h | not e, h | toAttribute e, h | toFilter e, h => by
    obtain ⟨t, ht, hline⟩ := exists_oneLine e h
    exact ⟨_, by rw [print, ht]; rfl, by simpa [OneLine] using hline⟩
  | equals a b, h | containsKey a b, h | defaultIfNull a b, h => by
    obtain ⟨ha, hb⟩ := Bool.and_eq_true_iff.mp h
    obtain ⟨t, ht, hline⟩ := exists_oneLine a ha
    obtain ⟨u, hu, hline'⟩ := exists_oneLine b hb
    exact ⟨_, by rw [print, ht, hu]; rfl, by simp [OneLine, hline, hline']⟩

/-- Unbroken expressions are written in one line each. -/
theorem exists_oneLine_all : ∀ es : List Expr, areUnbroken es = true →
    ∃ ts, printAll es = .ok ts ∧ ∀ t ∈ ts, OneLine t
  | [], _ => ⟨[], rfl, fun _ ht => absurd ht List.not_mem_nil⟩
  | e :: es, h => by
    obtain ⟨he, hes⟩ := Bool.and_eq_true_iff.mp h
    obtain ⟨t, ht, hline⟩ := exists_oneLine e he
    obtain ⟨ts, hts, hlines⟩ := exists_oneLine_all es hes
    exact ⟨t :: ts, by rw [printAll, ht, hts]; rfl, List.forall_mem_cons.mpr ⟨hline, hlines⟩⟩

/-- The entries of a map are written in one line each. -/
theorem exists_oneLine_entries : ∀ entries : List (String × Expr),
    areUnbrokenEntries entries = true →
    ∃ ts, printEntries entries = .ok ts ∧ ∀ t ∈ ts, OneLine t
  | [], _ => ⟨[], rfl, fun _ ht => absurd ht List.not_mem_nil⟩
  | (key, e) :: entries, h => by
    obtain ⟨he, hentries⟩ := Bool.and_eq_true_iff.mp h
    obtain ⟨t, ht, hline⟩ := exists_oneLine e he
    obtain ⟨ts, hts, hlines⟩ := exists_oneLine_entries entries hentries
    have hentry : OneLine (jsonQuoted key ++ ": " ++ t) := by
      simp [OneLine, oneLine_jsonQuoted key, hline]
    exact ⟨_, by rw [printEntries, ht, hts]; rfl, List.forall_mem_cons.mpr ⟨hentry, hlines⟩⟩

/-- The entries of a map with any keys are written in one line each. -/
theorem exists_oneLine_keyed : ∀ entries : List (Scalar × Expr),
    areUnbrokenKeyed entries = true →
    ∃ ts, printKeyed entries = .ok ts ∧ ∀ t ∈ ts, OneLine t
  | [], _ => ⟨[], rfl, fun _ ht => absurd ht List.not_mem_nil⟩
  | (key, e) :: entries, h => by
    obtain ⟨hhead, hentries⟩ := Bool.and_eq_true_iff.mp h
    obtain ⟨hkey, he⟩ := Bool.and_eq_true_iff.mp hhead
    obtain ⟨s, hs⟩ := Data.jsonScalar_ok hkey
    obtain ⟨t, ht, hline⟩ := exists_oneLine e he
    obtain ⟨ts, hts, hlines⟩ := exists_oneLine_keyed entries hentries
    have hentry : OneLine (s ++ ": " ++ t) := by
      simp [OneLine, Data.oneLine_jsonScalar hs, hline]
    exact ⟨_, by rw [printKeyed, hs, ht, hts]; rfl, List.forall_mem_cons.mpr ⟨hentry, hlines⟩⟩

end

end Expr

/-! ## Statements -/

namespace Stmt

mutual

/-- Nothing in the statement is out of place, its texts, paths and names are in one line, and its
whole numbers can be written. -/
def isUnbroken : Stmt → Bool
  | compound body => areUnbroken body
  | block name body => decide (OneLine name) && areUnbroken body
  | set target value | putAll target value => target.isUnbroken && value.isUnbroken
  | mapPut target key value => target.isUnbroken && key.isUnbroken && value.isUnbroken
  | metadataPut name value => decide (OneLine name) && value.isUnbroken
  | choice condition body none => condition.isUnbroken && areUnbroken body
  | choice condition body (some otherwise) =>
    condition.isUnbroken && areUnbroken body && areUnbroken otherwise
  | forEach name items body => decide (OneLine name) && items.isUnbroken && areUnbroken body
  | error message none => message.isUnbroken
  | error message (some type) => message.isUnbroken && type.isUnbroken
  | emit value => value.isUnbroken
  | stray _ | unlisted .. => false

/-- All of them are unbroken. -/
def areUnbroken : List Stmt → Bool
  | [] => true
  | s :: ss => s.isUnbroken && areUnbroken ss

end

end Stmt

end Template

end TableKeys
