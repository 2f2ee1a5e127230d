import Mathlib.Data.List.Basic
import Mathlib.Data.List.Infix
import QbsCore.Library.Texts

/-!
# String literals

Reading string literals of the language and arrays of them, and writing a string as a
literal.  A literal is read character by character; what is pending after an escape is
the state of the reader.

Main results:

- Definitions {lit}`JsLiterals.stringLiteral` and {lit}`JsLiterals.arrayLiteral`.
- Theorem {lit}`JsLiterals.reads_toJSLiteral`: a string without line terminators is read
  back from its literal.
- Theorem {lit}`JsLiterals.length_le_of_scan_quoted`: what is read from a string that was
  just put in quotes is as long as the string only when the string is plain.

Current gaps:

- Octal escapes are not part of the language.
-/

namespace Qbs

namespace JsLiterals

/-! ## Characters -/

def isLineTerminator (c : Char) : Bool :=
  c = '\n' || c = '\r' || c = '\u2028' || c = '\u2029'

/-- A character that cannot stand for itself in a literal: a line terminator, or the null
character, which ends the text for the parser. -/
def isUnreadable (c : Char) : Bool :=
  isLineTerminator c || c = '\x00'

def isSpace (c : Char) : Bool :=
  (9 ≤ c.toNat && c.toNat ≤ 13) || c = ' ' || c = '\u0085' || c = '\u00a0' || c = '\u1680' ||
    (0x2000 ≤ c.toNat && c.toNat ≤ 0x200a) || c = '\u2028' || c = '\u2029' || c = '\u202f' ||
    c = '\u205f' || c = '\u3000'

def hexDigit? (c : Char) : Option Nat :=
  if '0' ≤ c ∧ c ≤ '9' then some (c.toNat - '0'.toNat)
  else if 'a' ≤ c ∧ c ≤ 'f' then some (c.toNat - 'a'.toNat + 10)
  else if 'A' ≤ c ∧ c ≤ 'F' then some (c.toNat - 'A'.toNat + 10)
  else none

/-- What a character behind a backslash stands for when it is not the start of a longer escape. -/
def singleEscape : Char → Char
  | 'b' => '\x08'
  | 'f' => '\x0c'
  | 'n' => '\n'
  | 'r' => '\r'
  | 't' => '\t'
  | 'v' => '\x0b'
  | c => c

/-! ## String literals -/

/-- What a reader of a literal is in the middle of: nothing, an escape, the digits of a code unit,
or a pair of surrogates of which the first has been read. -/
inductive Pending where
  | text
  | escape
  | digits (left value : Nat) (high : Option Nat)
  | pair (high : Nat)
  | pairEscape (high : Nat)
deriving DecidableEq

/-- What follows once all digits of a code unit have been read. -/
def codeUnit (high : Option Nat) (value : Nat) : Option (Option Char × Pending) :=
  match high with
  | none =>
      if 0xd800 ≤ value ∧ value < 0xdc00 then some (none, .pair value)
      else if 0xdc00 ≤ value ∧ value < 0xe000 then none
      else some (some (Char.ofNat value), .text)
  | some h =>
      if 0xdc00 ≤ value ∧ value < 0xe000 then
        some (some (Char.ofNat (0x10000 + (h - 0xd800) * 0x400 + (value - 0xdc00))), .text)
      else none

/-- The character that the reader gets from the next one, if any, and what is pending then. The
end of the literal is not handled here. -/
def next (pending : Pending) (c : Char) (lookahead : Option Char) :
    Option (Option Char × Pending) :=
  match pending with
  | .text =>
      if c = '\\' then some (none, .escape)
      else if isUnreadable c then none
      else some (some c, .text)
  | .escape =>
      if c = 'x' then some (none, .digits 2 0 none)
      else if c = 'u' then some (none, .digits 4 0 none)
      else if c = '0' then
        if lookahead.any Char.isDigit then none else some (some '\x00', .text)
      else if c.isDigit || c = '\x00' then none
      -- A line may be continued on the next one.
      else if isLineTerminator c then some (none, .text)
      else some (some (singleEscape c), .text)
  | .digits left value high =>
      match hexDigit? c with
      | none => none
      | some d =>
          if left ≤ 1 then codeUnit high (value * 16 + d)
          else some (none, .digits (left - 1) (value * 16 + d) high)
  | .pair high => if c = '\\' then some (none, .pairEscape high) else none
  | .pairEscape high => if c = 'u' then some (none, .digits 4 0 (some high)) else none

/-- Read a literal up to its closing quote: its value and the text behind it. -/
def scan (quote : Char) : Pending → List Char → Option (List Char × List Char)
  | _, [] => none
  | pending, c :: text =>
      if pending = .text ∧ c = quote then some ([], text)
      else
        match next pending c text.head? with
        | none => none
        | some (out, pending) =>
            (scan quote pending text).map fun r => (out.toList ++ r.1, r.2)

/-- Read a string literal in either kind of quotes. -/
def stringLiteral : List Char → Option (List Char × List Char)
  | [] => none
  | quote :: text => if quote = '"' ∨ quote = '\'' then scan quote .text text else none

/-! ## Arrays -/

/-- What is being skipped between tokens: white space, or a comment of either kind. The second
character of what opens or closes a block comment is skipped in a state of its own. -/
inductive Gap where
  | space
  | line
  | blockOpen
  | block
  | blockClose

/-- Skip white space and comments. -/
def skip : Gap → List Char → List Char
  | _, [] => []
  | .space, c :: text =>
      if isSpace c then skip .space text
      else if c = '/' ∧ text.head? = some '/' then skip .line text
      else if c = '/' ∧ text.head? = some '*' then skip .blockOpen text
      else c :: text
  | .line, c :: text => skip (if c = '\n' then .space else .line) text
  | .blockOpen, _ :: text => skip .block text
  | .block, c :: text =>
      skip (if c = '*' ∧ text.head? = some '/' then .blockClose else .block) text
  | .blockClose, _ :: text => skip .space text

/-- Read the elements of an array up to its closing bracket. A comma may stand behind the last
one. -/
def arrayElements : Nat → List Char → Option (List (List Char) × List Char)
  | 0, _ => none
  | fuel + 1, text =>
      match skip .space text with
      | ']' :: text => some ([], text)
      | text =>
          match stringLiteral text with
          | none => none
          | some (value, text) =>
              match skip .space text with
              | ',' :: text => (arrayElements fuel text).map fun r => (value :: r.1, r.2)
              | ']' :: text => some ([value], text)
              | _ => none

/-- Read an array of string literals: its value and the text behind it. -/
def arrayLiteral : List Char → Option (List (List Char) × List Char)
  | '[' :: text => arrayElements (text.length + 1) text
  | _ => none

/-! ## Writing -/

/-- Backslashes and quotes are escaped. -/
def escapeChar (c : Char) : List Char :=
  if c = '\\' ∨ c = '"' then ['\\', c] else [c]

/-- A string as a literal. -/
def toJSLiteral (str : List Char) : List Char :=
  '"' :: (str.flatMap escapeChar ++ ['"'])

/-- A string in quotes, with nothing escaped. -/
def quoted (str : List Char) : List Char :=
  '"' :: (str ++ ['"'])

/-! ## What is read -/

/-- A text is a literal for a string, whatever follows. -/
def Reads (text str : List Char) : Prop :=
  ∀ rest, stringLiteral (text ++ rest) = some (str, rest)

/-- A text is no literal, whatever follows. -/
def Broken (text : List Char) : Prop :=
  ∀ rest, stringLiteral (text ++ rest) = none

/-- All characters of a string can stand for themselves in a literal, quotes and backslashes
apart. -/
def Readable (str : List Char) : Prop :=
  ∀ c ∈ str, isUnreadable c = false

/-- All characters of a string can stand for themselves between quotes. -/
def Plain (str : List Char) : Prop :=
  ∀ c ∈ str, isUnreadable c = false ∧ c ≠ '"' ∧ c ≠ '\\'

instance (str : List Char) : Decidable (Readable str) :=
  List.decidableBAll (isUnreadable · = false) str

instance (str : List Char) : Decidable (Plain str) :=
  List.decidableBAll (fun c => isUnreadable c = false ∧ c ≠ '"' ∧ c ≠ '\\') str

variable {c quote : Char} {rest str text : List Char} {pending : Pending}

theorem Plain.readable (h : Plain str) : Readable str :=
  fun c hc => (h c hc).1

theorem isUnreadable_of_next {d : Char} {lookahead : Option Char}
    (h : next .text c lookahead = some (some d, pending)) :
    d = c ∧ pending = .text ∧ isUnreadable c = false ∧ c ≠ '\\' := by
  unfold next at h
  dsimp only at h
  split_ifs at h with hc hu
  · cases h
  · cases h
    exact ⟨rfl, rfl, by simpa using hu, hc⟩

/-- One character of the text is read at a time, and an escape costs at least one of them. -/
theorem scan_cons {r : List Char × List Char} (h : scan quote pending (c :: text) = some r) :
    (pending = .text ∧ c = quote ∧ r = ([], text)) ∨
      ∃ out pending' r', ¬(pending = .text ∧ c = quote) ∧
        next pending c text.head? = some (out, pending') ∧
        scan quote pending' text = some r' ∧ r = (out.toList ++ r'.1, r'.2) := by
  unfold scan at h
  split at h <;> rename_i hquote
  · left
    exact ⟨hquote.1, hquote.2, (Option.some.inj h).symm⟩
  · right
    split at h
    · cases h
    · rename_i out pending' hnext
      rcases Option.map_eq_some_iff.mp h with ⟨r', hr', hr⟩
      exact ⟨out, pending', r', hquote, hnext, hr', hr.symm⟩

/-! ## Escaped strings -/

theorem scan_text (hquote : c ≠ quote) (hescape : c ≠ '\\') :
    scan quote .text (c :: text) =
      if isUnreadable c then none
      else (scan quote .text text).map fun r => (c :: r.1, r.2) := by
  rw [scan, if_neg fun h => hquote h.2, next, if_neg hescape]
  split_ifs <;> rfl

theorem scan_escaped_quote (h : c = '\\' ∨ c = '"') :
    scan '"' .text ('\\' :: c :: text) =
      (scan '"' .text text).map fun r => (c :: r.1, r.2) := by
  have hescape : next .text '\\' (some c) = some (none, .escape) := rfl
  have hc : next .escape c text.head? = some (some c, .text) := by
    rcases h with rfl | rfl <;> rfl
  rw [scan, if_neg (by decide), List.head?_cons, hescape]
  simp only [scan, hc, reduceCtorEq, false_and, if_false, Option.toList_none, List.nil_append,
    Option.toList_some, List.singleton_append]
  cases scan '"' .text text <;> rfl

/-- An escaped string is read back when it is readable, and is no literal otherwise. -/
theorem scan_escaped (str rest : List Char) :
    scan '"' .text (str.flatMap escapeChar ++ '"' :: rest) =
      if Readable str then some (str, rest) else none := by
  induction str with
  | nil => simp [scan, Readable]
  | cons c str ih =>
      rw [List.flatMap_cons, List.append_assoc]
      by_cases hescape : c = '\\' ∨ c = '"'
      · rw [escapeChar, if_pos hescape]
        have hc : isUnreadable c = false := by
          rcases hescape with rfl | rfl <;> rfl
        have hreadable : Readable (c :: str) ↔ Readable str := by
          simp [Readable, hc]
        change scan '"' .text ('\\' :: c :: (str.flatMap escapeChar ++ '"' :: rest)) = _
        rw [scan_escaped_quote hescape, ih]
        simp only [hreadable]
        split_ifs <;> rfl
      · rw [escapeChar, if_neg hescape]
        rw [not_or] at hescape
        change scan '"' .text (c :: (str.flatMap escapeChar ++ '"' :: rest)) = _
        rw [scan_text hescape.2 hescape.1, ih]
        cases hc : isUnreadable c with
        | true =>
            have hreadable : ¬Readable (c :: str) := by
              simp [Readable, hc]
            rw [if_pos rfl, if_neg hreadable]
        | false =>
            have hreadable : Readable (c :: str) ↔ Readable str := by
              simp [Readable, hc]
            simp only [hreadable, Bool.false_eq_true, if_false]
            split_ifs <;> rfl

theorem stringLiteral_toJSLiteral (str rest : List Char) :
    stringLiteral (toJSLiteral str ++ rest) =
      if Readable str then some (str, rest) else none := by
  have htext : toJSLiteral str ++ rest = '"' :: (str.flatMap escapeChar ++ '"' :: rest) := by
    simp [toJSLiteral]
  rw [htext, stringLiteral, if_pos (Or.inl rfl), scan_escaped]

/-- A readable string is read back from its literal. -/
theorem reads_toJSLiteral (h : Readable str) : Reads (toJSLiteral str) str := by
  intro rest
  rw [stringLiteral_toJSLiteral, if_pos h]

theorem broken_toJSLiteral (h : ¬Readable str) : Broken (toJSLiteral str) := by
  intro rest
  rw [stringLiteral_toJSLiteral, if_neg h]

example : stringLiteral (toJSLiteral "a\"\\b".toList ++ [',']) = some ("a\"\\b".toList, [',']) := by
  decide

/-! ## Quoted strings -/

theorem escapeChar_of_plain (h : Plain str) : str.flatMap escapeChar = str := by
  induction str with
  | nil => rfl
  | cons c str ih =>
      rcases List.forall_mem_cons.mp h with ⟨hc, hstr⟩
      rw [List.flatMap_cons, ih hstr, escapeChar, if_neg (not_or.mpr ⟨hc.2.2, hc.2.1⟩),
        List.singleton_append]

/-- A plain string in quotes is its literal. -/
theorem quoted_eq (h : Plain str) : quoted str = toJSLiteral str := by
  rw [quoted, toJSLiteral, escapeChar_of_plain h]

/-- A literal does not go on behind the quote that closes the line. -/
theorem scan_closingQuote (h : pending ≠ .text) :
    scan '"' pending ('"' :: ',' :: '\n' :: rest) = none := by
  cases pending with
  | text => exact absurd rfl h
  | escape => rfl
  | digits left value high => rfl
  | pair high => rfl
  | pairEscape high => rfl

/-- What is read from a quoted string on a line of its own is not longer than the string, and as
long only when the string is plain. -/
theorem length_le_of_scan_quoted {value rest' : List Char}
    (h : scan '"' pending (str ++ '"' :: ',' :: '\n' :: rest) = some (value, rest')) :
    value.length ≤ str.length ∧
      (pending = .text → value.length = str.length →
        Plain str ∧ rest' = ',' :: '\n' :: rest) := by
  induction str generalizing pending value rest' with
  | nil =>
      by_cases hpending : pending = .text
      · subst hpending
        simp only [List.nil_append, scan, and_self, if_true, Option.some.injEq, Prod.mk.injEq] at h
        simp [Plain, ← h.1, ← h.2]
      · rw [List.nil_append, scan_closingQuote hpending] at h
        cases h
  | cons c str ih =>
      rcases scan_cons h with ⟨-, -, hr⟩ | ⟨out, pending', ⟨value', rest''⟩, hquote, hnext, hscan, hr⟩
      · cases hr
        simp
      · rcases ih hscan with ⟨hle, heq⟩
        simp only [Prod.mk.injEq] at hr
        rcases hr with ⟨hvalue, hrest⟩
        subst hvalue hrest
        have hout : out.toList.length ≤ 1 := by cases out <;> simp
        rw [List.length_append, List.length_cons]
        refine ⟨by omega, ?_⟩
        intro hpending hlength
        subst hpending
        cases out with
        | none =>
            rw [Option.toList_none, List.length_nil] at hlength
            omega
        | some d =>
            rcases isUnreadable_of_next hnext with ⟨-, htext, hreadable, hescape⟩
            rw [Option.toList_some, List.length_singleton] at hlength
            rcases heq htext (by omega) with ⟨hplain, hrest⟩
            refine ⟨?_, hrest⟩
            intro ch hch
            rcases List.mem_cons.mp hch with hch | hch
            · subst hch
              exact ⟨hreadable, fun hc => hquote ⟨rfl, hc⟩, hescape⟩
            · exact hplain ch hch

/-! ## Arrays that are written line by line -/

/-- Spaces in front of a line. -/
def indent (n : Nat) : List Char :=
  List.replicate n ' '

/-- Each text on a line of its own, with a comma behind it. -/
def lines (n : Nat) (texts : List (List Char)) : List Char :=
  texts.flatMap fun text => indent n ++ (text ++ [',', '\n'])

theorem length_le_length_lines (n : Nat) (texts : List (List Char)) :
    texts.length ≤ (lines n texts).length := by
  induction texts with
  | nil => simp
  | cons text texts ih =>
      simp only [lines, List.flatMap_cons, List.length_append, List.length_cons] at ih ⊢
      omega

theorem skip_indent (n : Nat) (text : List Char) :
    skip .space (indent n ++ text) = skip .space text := by
  induction n with
  | zero => rfl
  | succ n ih =>
      rw [indent, List.replicate_succ, List.cons_append, ← ih]
      simp [skip, isSpace, indent]

theorem skip_newline (text : List Char) : skip .space ('\n' :: text) = skip .space text := by
  simp [skip, isSpace]

/-- A literal starts with a quote. -/
theorem Reads.head (h : Reads text str) :
    ∃ quote rest, text = quote :: rest ∧ (quote = '"' ∨ quote = '\'') := by
  cases text with
  | nil => cases h []
  | cons quote rest =>
      refine ⟨quote, rest, rfl, ?_⟩
      by_contra hquote
      have hnone := h []
      rw [List.cons_append, stringLiteral, if_neg hquote] at hnone
      cases hnone

theorem skip_quote (h : quote = '"' ∨ quote = '\'') (text : List Char) :
    skip .space (quote :: text) = quote :: text := by
  rcases h with rfl | rfl <;> simp [skip, isSpace]

variable {strs texts : List (List Char)} {fuel n : Nat}

/-- The first line of an array that has any. -/
theorem arrayElements_line (h : quote = '"' ∨ quote = '\'') :
    arrayElements (fuel + 1) ('\n' :: (indent n ++ ((quote :: text ++ [',', '\n']) ++ rest))) =
      match stringLiteral (quote :: (text ++ ',' :: '\n' :: rest)) with
      | none => none
      | some (value, text) =>
          match skip .space text with
          | ',' :: text => (arrayElements fuel text).map fun r => (value :: r.1, r.2)
          | ']' :: text => some ([value], text)
          | _ => none := by
  rw [arrayElements, skip_newline, skip_indent]
  simp only [List.cons_append, List.append_assoc, List.nil_append]
  rw [skip_quote h]
  rcases h with rfl | rfl <;> rfl

theorem arrayElements_end (fuel n : Nat) (rest : List Char) :
    arrayElements (fuel + 1) ('\n' :: (indent n ++ ']' :: rest)) = some ([], rest) := by
  rw [arrayElements, skip_newline, skip_indent]
  simp [skip, isSpace]

theorem lines_cons (n : Nat) (text : List Char) (texts : List (List Char)) (rest : List Char) :
    lines n (text :: texts) ++ rest =
      indent n ++ ((text ++ [',', '\n']) ++ (lines n texts ++ rest)) := by
  simp [lines]

theorem skip_comma (text : List Char) : skip .space (',' :: text) = ',' :: text := by
  simp [skip, isSpace]

/-- A literal on the first line is read, and reading goes on behind its comma. -/
theorem arrayElements_reads (h : Reads text str) :
    arrayElements (fuel + 1) ('\n' :: (indent n ++ ((text ++ [',', '\n']) ++ rest))) =
      (arrayElements fuel ('\n' :: rest)).map fun r => (str :: r.1, r.2) := by
  rcases h.head with ⟨quote, tail, rfl, hquote⟩
  have hread := h (',' :: '\n' :: rest)
  rw [List.cons_append] at hread
  rw [arrayElements_line hquote, hread]
  simp only [skip_comma]

/-- An array of literals is read back. -/
theorem arrayElements_lines (h : List.Forall₂ Reads texts strs) (hfuel : texts.length < fuel)
    (n m : Nat) (rest : List Char) :
    arrayElements fuel ('\n' :: (lines n texts ++ (indent m ++ ']' :: rest))) =
      some (strs, rest) := by
  induction h generalizing fuel with
  | nil =>
      obtain ⟨fuel, rfl⟩ := Nat.exists_eq_add_of_lt hfuel
      exact arrayElements_end _ m rest
  | @cons text str texts strs hread hreads ih =>
      obtain ⟨fuel, rfl⟩ : ∃ f, fuel = f + 1 := Nat.exists_eq_succ_of_ne_zero (by omega)
      rw [lines_cons, arrayElements_reads hread, ih (by simpa using hfuel)]
      rfl

example : arrayLiteral "[ 'a', // b\n /*]*/\"\\u00e4\\x41\\n\",]; x".toList =
    some (["a".toList, "äA\n".toList], "; x".toList) := by
  decide

/-- An array of literals is not read when one of them stands for a string that is not readable. -/
theorem arrayElements_broken
    (h : ∀ text ∈ texts, (∃ str, Reads text str) ∨ ∃ str, text = toJSLiteral str)
    (hmem : toJSLiteral str ∈ texts) (hstr : ¬Readable str) (fuel n : Nat) (rest : List Char) :
    arrayElements fuel ('\n' :: (lines n texts ++ rest)) = none := by
  induction texts generalizing fuel with
  | nil => cases hmem
  | cons text texts ih =>
      cases fuel with
      | zero => rfl
      | succ fuel =>
          have hbroken : ∀ s, ¬Readable s → arrayElements (fuel + 1)
              ('\n' :: (lines n (toJSLiteral s :: texts) ++ rest)) = none := by
            intro s hs
            have hnone := broken_toJSLiteral hs (',' :: '\n' :: (lines n texts ++ rest))
            rw [toJSLiteral, List.cons_append] at hnone
            rw [lines_cons, toJSLiteral, arrayElements_line (Or.inl rfl), hnone]
          have hreads : ∀ s, Reads text s → toJSLiteral str ∈ texts → arrayElements (fuel + 1)
              ('\n' :: (lines n (text :: texts) ++ rest)) = none := by
            intro s hs hmem
            rw [lines_cons, arrayElements_reads hs,
              ih (fun t ht => h t (List.mem_cons_of_mem text ht)) hmem]
            rfl
          rcases List.mem_cons.mp hmem with hEq | hmem
          · rw [← hEq]
            exact hbroken str hstr
          · rcases h text List.mem_cons_self with ⟨s, hs⟩ | ⟨s, hs⟩
            · exact hreads s hs hmem
            · by_cases hreadable : Readable s
              · exact hreads s (hs ▸ reads_toJSLiteral hreadable) hmem
              · rw [hs]
                exact hbroken s hreadable

/-- When an array of quoted strings that have possibly been shortened is read back as the array of
the strings, none of them was shortened and all of them are plain. -/
theorem plain_of_arrayElements_quoted {f : List Char → List Char}
    (hf : ∀ str, (f str).length ≤ str.length) {strs : List (List Char)} {fuel n : Nat}
    {rest rest' : List Char}
    (h : arrayElements fuel ('\n' :: (lines n (strs.map fun str => quoted (f str)) ++ rest)) =
      some (strs, rest')) :
    ∀ str ∈ strs, Plain (f str) ∧ (f str).length = str.length := by
  induction strs generalizing fuel with
  | nil => simp
  | cons str strs ih =>
      cases fuel with
      | zero => cases h
      | succ fuel =>
          have hscan : ∀ more, stringLiteral ('"' :: (f str ++ ['"'] ++ ',' :: '\n' :: more)) =
              scan '"' .text (f str ++ '"' :: ',' :: '\n' :: more) := by
            intro more
            simp [stringLiteral]
          rw [List.map_cons, lines_cons, quoted, arrayElements_line (Or.inl rfl), hscan] at h
          split at h
          · cases h
          rename_i value text hvalue
          have hEq : value = str := by
            split at h
            · rcases Option.map_eq_some_iff.mp h with ⟨r, -, hr⟩
              exact (List.cons.inj (Prod.mk.inj hr).1).1
            · exact (List.cons.inj (Prod.mk.inj (Option.some.inj h)).1).1
            · cases h
          subst hEq
          rcases length_le_of_scan_quoted hvalue with ⟨hle, hplain⟩
          have hlength : (f value).length = value.length := le_antisymm (hf value) hle
          rcases hplain rfl hlength.symm with ⟨hplain, htext⟩
          rw [htext, skip_comma] at h
          rcases Option.map_eq_some_iff.mp h with ⟨r, hr, hEq⟩
          simp only [Prod.mk.injEq, List.cons.injEq, true_and] at hEq
          rw [List.forall_mem_cons]
          exact ⟨⟨hplain, hlength⟩, ih (hr.trans (congrArg some (Prod.ext hEq.1 hEq.2)))⟩

end JsLiterals

end Qbs
