import Mathlib.Data.List.Basic

/-!
# Compact JSON

Objects with scalar values as JSON texts without white space.  The texts of numbers are
a parameter.

Main results:

- Theorem {lit}`CompactJson.quoted_append_inj`: a string in quotes can be read off the
  beginning of a text.
- Theorem {lit}`CompactJson.objectText_injective`: different objects have different texts
  if all their numbers are finite.

Current gaps:

- Arrays, null and nested objects are left out.
-/

namespace CompactJson

/-- Texts of numbers. Numbers that are not finite do not have one of their own. -/
structure NumberText (Number : Type) where
  isFinite : Number → Bool
  text : Number → List Char
  text_injective : ∀ m n, isFinite m → isFinite n → text m = text n → m = n
  text_chars : ∀ n, isFinite n → ∀ ch, ch ∈ text n → ch ∈ "0123456789+-.e".toList
  text_ne_nil : ∀ n, isFinite n → text n ≠ []

/-- The values in an object. -/
inductive Scalar (Number : Type) where
  | string (s : String)
  | number (n : Number)
  | bool (b : Bool)
deriving DecidableEq

/-! ## Strings -/

/-- The hexadecimal digit for four bits. -/
def hexDigit (n : Nat) : Char :=
  "0123456789abcdef".toList.getD n '0'

/-- The text of a character in quotes. -/
def escaped (ch : Char) : List Char :=
  if ch = '"' then ['\\', '"']
  else if ch = '\\' then ['\\', '\\']
  else if ch = '\x08' then ['\\', 'b']
  else if ch = '\x0c' then ['\\', 'f']
  else if ch = '\n' then ['\\', 'n']
  else if ch = '\r' then ['\\', 'r']
  else if ch = '\t' then ['\\', 't']
  else if ch.toNat < 32 then
    ['\\', 'u', '0', '0', hexDigit (ch.toNat / 16), hexDigit (ch.toNat % 16)]
  else [ch]

/-- The text of a string. -/
def quoted (s : String) : List Char :=
  '"' :: s.toList.flatMap escaped ++ ['"']

/-- The number that a hexadecimal digit stands for. -/
def hexValue (ch : Char) : Nat :=
  "0123456789abcdef".toList.idxOf ch

/-- The character after a backslash, and the rest of the text. -/
def unescapeSpecial : List Char → Option (Char × List Char)
  | 'u' :: '0' :: '0' :: high :: low :: text =>
      some (Char.ofNat (16 * hexValue high + hexValue low), text)
  | 'b' :: text => some ('\x08', text)
  | 'f' :: text => some ('\x0c', text)
  | 'n' :: text => some ('\n', text)
  | 'r' :: text => some ('\r', text)
  | 't' :: text => some ('\t', text)
  | ch :: text => some (ch, text)
  | [] => none

/-- The first character of a text in quotes, and the rest of the text. -/
def unescape : List Char → Option (Char × List Char)
  | ch :: text => if ch = '\\' then unescapeSpecial text else some (ch, text)
  | [] => none

theorem hexValue_hexDigit : ∀ n < 16, hexValue (hexDigit n) = n := by
  decide +kernel

theorem unescape_escaped (ch : Char) (text : List Char) :
    unescape (escaped ch ++ text) = some (ch, text) := by
  unfold escaped
  split_ifs with h₁ h₂ h₃ h₄ h₅ h₆ h₇ h₈
  · rw [h₁]
    rfl
  · rw [h₂]
    rfl
  · rw [h₃]
    rfl
  · rw [h₄]
    rfl
  · rw [h₅]
    rfl
  · rw [h₆]
    rfl
  · rw [h₇]
    rfl
  · have hvalue : 16 * hexValue (hexDigit (ch.toNat / 16)) + hexValue (hexDigit (ch.toNat % 16)) =
        ch.toNat := by
      rw [hexValue_hexDigit _ (by omega), hexValue_hexDigit _ (by omega)]
      omega
    simp [unescape, unescapeSpecial, hvalue]
  · simp [unescape, h₂]

theorem escaped_head_ne_quote (ch : Char) : ∃ first rest, escaped ch = first :: rest ∧
    first ≠ '"' := by
  by_cases hquote : ch = '"'
  · exact ⟨'\\', ['"'], by simp [escaped, hquote], by decide⟩
  · unfold escaped
    split_ifs with h₂ h₃ h₄ h₅ h₆ h₇ h₈
    all_goals first
      | exact ⟨'\\', _, rfl, by decide⟩
      | exact ⟨ch, [], rfl, hquote⟩

theorem escaped_append_inj {ch ch' : Char} {text text' : List Char}
    (h : escaped ch ++ text = escaped ch' ++ text') : ch = ch' ∧ text = text' := by
  have hunescape := congrArg unescape h
  rw [unescape_escaped, unescape_escaped] at hunescape
  exact Prod.mk.inj (Option.some.inj hunescape)

/-- Characters up to the closing quote. -/
theorem flatMap_escaped_append_inj {l l' text text' : List Char}
    (h : l.flatMap escaped ++ '"' :: text = l'.flatMap escaped ++ '"' :: text') :
    l = l' ∧ text = text' := by
  induction l generalizing l' with
  | nil =>
      cases l' with
      | nil => exact ⟨rfl, (List.cons.inj h).2⟩
      | cons ch' l' =>
          rcases escaped_head_ne_quote ch' with ⟨first, rest, hescaped, hne⟩
          rw [List.flatMap_cons, hescaped] at h
          exact absurd (List.cons.inj h).1.symm hne
  | cons ch l ih =>
      cases l' with
      | nil =>
          rcases escaped_head_ne_quote ch with ⟨first, rest, hescaped, hne⟩
          rw [List.flatMap_cons, hescaped] at h
          exact absurd (List.cons.inj h).1 hne
      | cons ch' l' =>
          rw [List.flatMap_cons, List.flatMap_cons, List.append_assoc, List.append_assoc] at h
          have hhead := escaped_append_inj h
          have htail := ih hhead.2
          rw [hhead.1, htail.1]
          exact ⟨rfl, htail.2⟩

/-- A string in quotes can be read off the beginning of a text. -/
theorem quoted_append_inj {s s' : String} {text text' : List Char}
    (h : quoted s ++ text = quoted s' ++ text') : s = s' ∧ text = text' := by
  unfold quoted at h
  simp only [List.cons_append, List.append_assoc, List.nil_append] at h
  have hinner := flatMap_escaped_append_inj (List.cons.inj h).2
  exact ⟨String.toList_inj.mp hinner.1, hinner.2⟩

/-! ## Values and objects -/

variable {Number : Type} (numbers : NumberText Number)

/-- The text of a value. -/
def scalarText : Scalar Number → List Char
  | .string s => quoted s
  | .number n => if numbers.isFinite n then numbers.text n else "null".toList
  | .bool true => "true".toList
  | .bool false => "false".toList

/-- A value whose text stands for no other value. -/
def Scalar.isFinite : Scalar Number → Bool
  | .number n => numbers.isFinite n
  | _ => true

/-- The text of an entry of an object. -/
def entryText (e : String × Scalar Number) : List Char :=
  quoted e.1 ++ ':' :: scalarText numbers e.2

/-- The text of the entries after the first one and of the closing brace. -/
def tailText : List (String × Scalar Number) → List Char
  | [] => ['}']
  | e :: entries => ',' :: (entryText numbers e ++ tailText entries)

/-- The text of an object. -/
def objectText : List (String × Scalar Number) → List Char
  | [] => ['{', '}']
  | e :: entries => '{' :: (entryText numbers e ++ tailText numbers entries)

variable {numbers}

/-- A text without commas and braces ends where the first one stands. -/
theorem append_stop_inj {l l' text text' : List Char} {stop stop' : Char}
    (hl : ∀ ch, ch ∈ l → ch ≠ ',' ∧ ch ≠ '}') (hl' : ∀ ch, ch ∈ l' → ch ≠ ',' ∧ ch ≠ '}')
    (hstop : stop = ',' ∨ stop = '}') (hstop' : stop' = ',' ∨ stop' = '}')
    (h : l ++ stop :: text = l' ++ stop' :: text') : l = l' ∧ stop :: text = stop' :: text' := by
  have hout : ∀ {ch : Char}, (ch ≠ ',' ∧ ch ≠ '}') → ¬(ch = ',' ∨ ch = '}') := by
    intro ch hch hor
    rcases hor with hcomma | hbrace
    · exact hch.1 hcomma
    · exact hch.2 hbrace
  induction l generalizing l' with
  | nil =>
      cases l' with
      | nil => exact ⟨rfl, h⟩
      | cons ch' l' =>
          have hhead := (List.cons.inj h).1
          exact absurd (hhead ▸ hstop) (hout (hl' ch' List.mem_cons_self))
  | cons ch l ih =>
      cases l' with
      | nil =>
          have hhead := (List.cons.inj h).1
          exact absurd (hhead ▸ hstop') (hout (hl ch List.mem_cons_self))
      | cons ch' l' =>
          have hcons := List.cons.inj h
          have htail := ih (fun c hc => hl c (List.mem_cons_of_mem _ hc))
            (fun c hc => hl' c (List.mem_cons_of_mem _ hc)) hcons.2
          rw [hcons.1, htail.1]
          exact ⟨rfl, htail.2⟩

theorem scalarText_number {n : Number} (hn : numbers.isFinite n) :
    scalarText numbers (.number n) = numbers.text n :=
  if_pos hn

/-- The texts of numbers and truth values have no commas and braces. -/
theorem scalarText_chars {v : Scalar Number} (hv : v.isFinite numbers) (hs : ∀ s, v ≠ .string s)
    {ch : Char} (hch : ch ∈ scalarText numbers v) : ch ≠ ',' ∧ ch ≠ '}' := by
  cases v with
  | string s => exact absurd rfl (hs s)
  | number n =>
      rw [scalarText_number hv] at hch
      have hdigits := numbers.text_chars n hv ch hch
      constructor
      · intro hcomma
        rw [hcomma] at hdigits
        exact absurd hdigits (by decide)
      · intro hbrace
        rw [hbrace] at hdigits
        exact absurd hdigits (by decide)
  | bool b =>
      have hletters : ∀ c, c ∈ scalarText numbers (.bool b) → c ≠ ',' ∧ c ≠ '}' := by
        cases b <;> simp [scalarText]
      exact hletters ch hch

/-- Strings, numbers and truth values. -/
inductive Kind where
  | string
  | number
  | bool
deriving DecidableEq

def Scalar.kind : Scalar Number → Kind
  | .string _ => .string
  | .number _ => .number
  | .bool _ => .bool

/-- The kind of a value whose text begins with a character. -/
def kindOfHead (first : Char) : Kind :=
  if first = '"' then .string else if first = 't' ∨ first = 'f' then .bool else .number

theorem kindOfHead_scalarText {v : Scalar Number} (hv : v.isFinite numbers) {first : Char}
    {rest text : List Char} (h : scalarText numbers v ++ text = first :: rest) :
    kindOfHead first = v.kind := by
  cases v with
  | string s =>
      rw [← (List.cons.inj h).1]
      rfl
  | number n =>
      rw [scalarText_number hv] at h
      cases htext : numbers.text n with
      | nil => exact absurd htext (numbers.text_ne_nil n hv)
      | cons first' rest' =>
          rw [htext] at h
          have hdigit := numbers.text_chars n hv first' (by simp [htext])
          rw [← (List.cons.inj h).1]
          have hnumber : ("0123456789+-.e".toList.all fun ch => kindOfHead ch = .number) = true := by
            decide +kernel
          exact of_decide_eq_true (List.all_eq_true.mp hnumber first' hdigit)
  | bool b =>
      cases b with
      | false =>
          rw [← (List.cons.inj h).1]
          rfl
      | true =>
          rw [← (List.cons.inj h).1]
          rfl

theorem exists_scalarText_eq_cons {v : Scalar Number} (hv : v.isFinite numbers) :
    ∃ first rest, scalarText numbers v = first :: rest := by
  apply List.exists_cons_of_ne_nil
  cases v with
  | string s => exact List.cons_ne_nil _ _
  | number n =>
      rw [scalarText_number hv]
      exact numbers.text_ne_nil n hv
  | bool b => cases b <;> exact List.cons_ne_nil _ _

/-- A value can be read off a text in which a comma or a brace comes next. -/
theorem scalarText_append_inj {v v' : Scalar Number} (hv : v.isFinite numbers)
    (hv' : v'.isFinite numbers) {text text' : List Char} {stop stop' : Char}
    (hstop : stop = ',' ∨ stop = '}') (hstop' : stop' = ',' ∨ stop' = '}')
    (h : scalarText numbers v ++ stop :: text = scalarText numbers v' ++ stop' :: text') :
    v = v' ∧ stop :: text = stop' :: text' := by
  have hkind : v.kind = v'.kind := by
    rcases exists_scalarText_eq_cons hv' with ⟨first, rest, hfirst⟩
    have htext : scalarText numbers v' ++ stop' :: text' = first :: (rest ++ stop' :: text') := by
      rw [hfirst]
      rfl
    rw [← kindOfHead_scalarText hv (h.trans htext), kindOfHead_scalarText hv' htext]
  cases v with
  | string s =>
      cases v' with
      | string s' =>
          have hquoted := quoted_append_inj h
          rw [hquoted.1]
          exact ⟨rfl, hquoted.2⟩
      | number n' => cases hkind
      | bool b' => cases hkind
  | number n =>
      have hchars := fun ch => @scalarText_chars _ numbers (.number n) hv (by simp) ch
      cases v' with
      | string s' => cases hkind
      | number n' =>
          have hchars' := fun ch => @scalarText_chars _ numbers (.number n') hv' (by simp) ch
          have hsplit := append_stop_inj hchars hchars' hstop hstop' h
          rw [scalarText_number hv, scalarText_number hv'] at hsplit
          rw [numbers.text_injective n n' hv hv' hsplit.1]
          exact ⟨rfl, hsplit.2⟩
      | bool b' => cases hkind
  | bool b =>
      have hchars := fun ch => @scalarText_chars _ numbers (.bool b) rfl (by simp) ch
      cases v' with
      | string s' => cases hkind
      | number n' => cases hkind
      | bool b' =>
          have hchars' := fun ch => @scalarText_chars _ numbers (.bool b') rfl (by simp) ch
          have hsplit := append_stop_inj hchars hchars' hstop hstop' h
          refine ⟨?_, hsplit.2⟩
          cases b with
          | false =>
              cases b' with
              | false => rfl
              | true => exact absurd hsplit.1 (by simp [scalarText])
          | true =>
              cases b' with
              | false => exact absurd hsplit.1 (by simp [scalarText])
              | true => rfl

/-- The text of an entry can be read off a text in which a comma or a brace comes next. -/
theorem entryText_append_inj {e e' : String × Scalar Number} (he : e.2.isFinite numbers)
    (he' : e'.2.isFinite numbers) {text text' : List Char} {stop stop' : Char}
    (hstop : stop = ',' ∨ stop = '}') (hstop' : stop' = ',' ∨ stop' = '}')
    (h : entryText numbers e ++ stop :: text = entryText numbers e' ++ stop' :: text') :
    e = e' ∧ stop :: text = stop' :: text' := by
  unfold entryText at h
  rw [List.append_assoc, List.append_assoc] at h
  have hkey := quoted_append_inj h
  have hvalue := scalarText_append_inj he he' hstop hstop' (List.cons.inj hkey.2).2
  exact ⟨Prod.ext hkey.1 hvalue.1, hvalue.2⟩

theorem exists_tailText_eq_cons (entries : List (String × Scalar Number)) :
    ∃ stop text, tailText numbers entries = stop :: text ∧ (stop = ',' ∨ stop = '}') := by
  cases entries with
  | nil => exact ⟨_, _, rfl, Or.inr rfl⟩
  | cons e entries => exact ⟨_, _, rfl, Or.inl rfl⟩

/-- The entries that an object text begins with. -/
theorem entryText_tailText_inj {e e' : String × Scalar Number} (he : e.2.isFinite numbers)
    (he' : e'.2.isFinite numbers) {entries entries' : List (String × Scalar Number)}
    (h : entryText numbers e ++ tailText numbers entries =
      entryText numbers e' ++ tailText numbers entries') :
    e = e' ∧ tailText numbers entries = tailText numbers entries' := by
  rcases @exists_tailText_eq_cons _ numbers entries with ⟨stop, text, htail, hstop⟩
  rcases @exists_tailText_eq_cons _ numbers entries' with ⟨stop', text', htail', hstop'⟩
  rw [htail, htail'] at h ⊢
  exact entryText_append_inj he he' hstop hstop' h

theorem tailText_injective {entries entries' : List (String × Scalar Number)}
    (he : ∀ e, e ∈ entries → e.2.isFinite numbers) (he' : ∀ e, e ∈ entries' → e.2.isFinite numbers)
    (h : tailText numbers entries = tailText numbers entries') : entries = entries' := by
  induction entries generalizing entries' with
  | nil =>
      cases entries' with
      | nil => rfl
      | cons e' entries' => exact absurd (List.cons.inj h).1 (by decide)
  | cons e entries ih =>
      cases entries' with
      | nil => exact absurd (List.cons.inj h).1 (by decide)
      | cons e' entries' =>
          have hfirst := entryText_tailText_inj (he e List.mem_cons_self)
            (he' e' List.mem_cons_self) (List.cons.inj h).2
          have hrest := ih (fun d hd => he d (List.mem_cons_of_mem _ hd))
            (fun d hd => he' d (List.mem_cons_of_mem _ hd)) hfirst.2
          rw [hfirst.1, hrest]

/-- Different objects have different texts. -/
theorem objectText_injective {entries entries' : List (String × Scalar Number)}
    (he : ∀ e, e ∈ entries → e.2.isFinite numbers) (he' : ∀ e, e ∈ entries' → e.2.isFinite numbers)
    (h : objectText numbers entries = objectText numbers entries') : entries = entries' := by
  cases entries with
  | nil =>
      cases entries' with
      | nil => rfl
      | cons e' entries' => exact absurd (List.cons.inj (List.cons.inj h).2).1 (by decide)
  | cons e entries =>
      cases entries' with
      | nil => exact absurd (List.cons.inj (List.cons.inj h).2).1 (by decide)
      | cons e' entries' =>
          have hfirst := entryText_tailText_inj (he e List.mem_cons_self)
            (he' e' List.mem_cons_self) (List.cons.inj h).2
          have hrest := tailText_injective (fun d hd => he d (List.mem_cons_of_mem _ hd))
            (fun d hd => he' d (List.mem_cons_of_mem _ hd)) hfirst.2
          rw [hfirst.1, hrest]

end CompactJson
