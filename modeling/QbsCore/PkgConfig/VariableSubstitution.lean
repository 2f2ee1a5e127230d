import QbsCore.PkgConfig.Package

/-!
# Variables in package files

The values in a package file can refer to variables.  A variable is looked up in the environment,
in the global variables and in the variables that the file has defined so far.

Main results:

- Theorem {lit}`PcParser.readAs_unique`, {lit}`PcParser.exists_readAs`: each text can be read in
  exactly one way.
- Theorem {lit}`PcParser.substitutesRight_iff`: in which texts the variables are replaced as they
  should be.

Current gaps:

- The lines of a package file are not modelled; a text comes with the variables that are known
  when it is reached.
-/

namespace Qbs

namespace PcParser

/-! ## Looking up variables -/

/-- The values of variables by their names. -/
abbrev VariablesMap := List (StdString × StdString)

/-- The variables that do not come from a package file. -/
structure OptionVariables where
  globalVariables : VariablesMap
  systemVariables : VariablesMap

/-- The environment variable that overrides a variable of a package. -/
def varToEnvVar (pkg var : StdString) : StdString :=
  ("PKG_CONFIG_".toList ++ pkg ++ ['_'] ++ var).map fun p =>
    if p.toUpper.isAlphanum then p.toUpper else '_'

/-- The value of the environment variable that overrides a variable. -/
def systemVariable (options : OptionVariables) (pkg : PcPackage) (var : StdString) :
    Option StdString :=
  if pkg.baseFileName = [] then none
  else options.systemVariables.lookup (varToEnvVar pkg.baseFileName var)

def packageGetVariable (options : OptionVariables) (pkg : PcPackage) (var : StdString) :
    StdString :=
  if var = [] then []
  else
    let varval := (options.globalVariables.lookup var).getD []
    match systemVariable options pkg var with
    | some value => value
    | none => if varval = [] then (pkg.variablesMap.lookup var).getD [] else varval

/-! ## Substitution -/

def missingBraceException : PcException where
  message := "Missing closing '\x7d'".toList

def undefinedVariableException (pkg : PcPackage) (var : StdString) : PcException where
  message := "Variable '".toList ++ var ++ "' not defined in '".toList ++ pkg.filePath

def inBraces (c : Char) : Bool :=
  c ≠ '\x7d'

/-- The loop that moves the text to the result. -/
def substituteLoop (options : OptionVariables) (pkg : PcPackage) (result : StdString) :
    StdString → Except PcException StdString
  | [] => .ok result
  | c :: str =>
      if c = '$' ∧ str.head? = some '$' then
        substituteLoop options pkg (result ++ ['$']) (str.drop 1)
      else if c = '$' ∧ str.head? = some '\x7b' then
        if '\x7d' ∈ str.drop 1 then
          let varname := (str.drop 1).takeWhile inBraces
          let varval := packageGetVariable options pkg varname
          if varval = [] then .error (undefinedVariableException pkg varname)
          else substituteLoop options pkg (result ++ varval)
            (((str.drop 1).dropWhile inBraces).drop 1)
        else .error missingBraceException
      else substituteLoop options pkg (result ++ [c]) str
termination_by str => str.length
decreasing_by
  · simp only [List.length_drop, List.length_cons]
    omega
  · have hle := (List.dropWhile_sublist (l := str.drop 1) inBraces).length_le
    simp at hle ⊢
    omega
  · simp

def trimAndSubstitute (options : OptionVariables) (pkg : PcPackage) (str : StdString) :
    Except PcException StdString :=
  substituteLoop options pkg [] (trimmed str)

/-! ## Reading a text -/

/-- What a text consists of. -/
inductive Piece where
  | escapedDollar
  | reference (name : StdString)
  | unterminated
  | other (c : Char)

/-- The pieces of a text, from left to right. -/
inductive ReadAs : StdString → List Piece → Prop
  | done : ReadAs [] []
  | escapedDollar {str pieces} (h : ReadAs str pieces) :
      ReadAs ('$' :: '$' :: str) (.escapedDollar :: pieces)
  | reference {name str pieces} (hname : '\x7d' ∉ name) (h : ReadAs str pieces) :
      ReadAs ('$' :: '\x7b' :: (name ++ '\x7d' :: str)) (.reference name :: pieces)
  | unterminated {str} (hstr : '\x7d' ∉ str) : ReadAs ('$' :: '\x7b' :: str) [.unterminated]
  | other {c str pieces}
      (hc : c = '$' → str.head? ≠ some '$' ∧ str.head? ≠ some '\x7b') (h : ReadAs str pieces) :
      ReadAs (c :: str) (.other c :: pieces)

variable {name str : StdString}

theorem inBraces_of_mem (hname : '\x7d' ∉ name) :
    ∀ c ∈ name, inBraces c = true := by
  intro c hc
  have hne : c ≠ '\x7d' := fun heq => hname (heq ▸ hc)
  simpa [inBraces] using hne

/-- A name before a closing brace. -/
theorem takeWhile_inBraces (hname : '\x7d' ∉ name) (str : StdString) :
    (name ++ '\x7d' :: str).takeWhile inBraces = name := by
  simp [List.takeWhile_append_of_pos (inBraces_of_mem hname), inBraces]

theorem dropWhile_inBraces (hname : '\x7d' ∉ name) (str : StdString) :
    (name ++ '\x7d' :: str).dropWhile inBraces = '\x7d' :: str := by
  simp [List.dropWhile_append_of_pos (inBraces_of_mem hname), inBraces]

theorem exists_readAs (str : StdString) : ∃ pieces, ReadAs str pieces := by
  match str with
  | [] => exact ⟨[], .done⟩
  | c :: str =>
      by_cases hc : c = '$' ∧ (str.head? = some '$' ∨ str.head? = some '\x7b')
      · obtain ⟨rfl, hhead⟩ := hc
        cases str with
        | nil => simp at hhead
        | cons d str =>
            rcases hhead with hd | hd
            · obtain rfl : d = '$' := by simpa using hd
              obtain ⟨pieces, h⟩ := exists_readAs str
              exact ⟨_, .escapedDollar h⟩
            · obtain rfl : d = '\x7b' := by simpa using hd
              by_cases hbrace : '\x7d' ∈ str
              · obtain ⟨name, rest, rfl, hname⟩ := List.eq_append_cons_of_mem hbrace
                obtain ⟨pieces, h⟩ := exists_readAs rest
                exact ⟨_, .reference hname h⟩
              · exact ⟨_, .unterminated hbrace⟩
      · obtain ⟨pieces, h⟩ := exists_readAs str
        exact ⟨_, .other (by simpa [not_or] using hc) h⟩
termination_by str.length

/-- A name ends at the first closing brace. -/
theorem name_unique {name' str' : StdString} (hname : '\x7d' ∉ name) (hname' : '\x7d' ∉ name')
    (h : name ++ '\x7d' :: str = name' ++ '\x7d' :: str') :
    name = name' ∧ str = str' := by
  have htake := congrArg (List.takeWhile inBraces) h
  have hdrop := congrArg (List.dropWhile inBraces) h
  rw [takeWhile_inBraces hname, takeWhile_inBraces hname'] at htake
  rw [dropWhile_inBraces hname, dropWhile_inBraces hname'] at hdrop
  exact ⟨htake, by simpa using hdrop⟩

theorem readAs_unique {pieces pieces' : List Piece} (h : ReadAs str pieces)
    (h' : ReadAs str pieces') : pieces = pieces' := by
  induction h generalizing pieces' with
  | done =>
      cases h'
      rfl
  | @escapedDollar str pieces _ ih =>
      cases h' with
      | escapedDollar h' => rw [ih h']
      | other hc h' => simp at hc
  | @reference name str pieces hname _ ih =>
      generalize htext : '$' :: '\x7b' :: (name ++ '\x7d' :: str) = text at h'
      cases h' with
      | done => simp at htext
      | escapedDollar h' => simp at htext
      | reference hname' h' =>
          obtain ⟨rfl, rfl⟩ := name_unique hname hname' (by simpa using htext)
          rw [ih h']
      | unterminated hstr =>
          simp only [List.cons.injEq, true_and] at htext
          simp [← htext] at hstr
      | other hc h' =>
          simp only [List.cons.injEq] at htext
          simp [← htext.1, ← htext.2] at hc
  | @unterminated str hstr =>
      generalize htext : '$' :: '\x7b' :: str = text at h'
      cases h' with
      | done => simp at htext
      | escapedDollar h' => simp at htext
      | reference hname' h' =>
          simp only [List.cons.injEq, true_and] at htext
          simp [htext] at hstr
      | unterminated hstr => rfl
      | other hc h' =>
          simp only [List.cons.injEq] at htext
          simp [← htext.1, ← htext.2] at hc
  | @other c str pieces hc _ ih =>
      cases h' with
      | escapedDollar h' => simp at hc
      | reference hname' h' => simp at hc
      | unterminated hstr => simp at hc
      | other hc' h' => rw [ih h']

/-! ## What the loop does with the pieces -/

variable (options : OptionVariables) (pkg : PcPackage)

namespace Piece

/-- What a piece is replaced by. -/
def replacement : Piece → StdString
  | escapedDollar => ['$']
  | reference name => packageGetVariable options pkg name
  | unterminated => []
  | other c => [c]

/-- Whether the loop ends with an exception at a piece. -/
def Raises : Piece → Prop
  | reference name => packageGetVariable options pkg name = []
  | unterminated => True
  | _ => False

end Piece

theorem substituteLoop_reference (hname : '\x7d' ∉ name) (result str : StdString) :
    substituteLoop options pkg result ('$' :: '\x7b' :: (name ++ '\x7d' :: str)) =
      if packageGetVariable options pkg name = [] then
        .error (undefinedVariableException pkg name)
      else substituteLoop options pkg (result ++ packageGetVariable options pkg name) str := by
  rw [substituteLoop]
  simp [takeWhile_inBraces hname, dropWhile_inBraces hname]

theorem substituteLoop_unterminated (hstr : '\x7d' ∉ str) (result : StdString) :
    substituteLoop options pkg result ('$' :: '\x7b' :: str) = .error missingBraceException := by
  rw [substituteLoop]
  simp [hstr]

theorem substituteLoop_escapedDollar (result str : StdString) :
    substituteLoop options pkg result ('$' :: '$' :: str) =
      substituteLoop options pkg (result ++ ['$']) str := by
  rw [substituteLoop]
  simp

theorem substituteLoop_other {c : Char}
    (hc : c = '$' → str.head? ≠ some '$' ∧ str.head? ≠ some '\x7b') (result : StdString) :
    substituteLoop options pkg result (c :: str) =
      substituteLoop options pkg (result ++ [c]) str := by
  rw [substituteLoop, if_neg fun h => (hc h.1).1 h.2, if_neg fun h => (hc h.1).2 h.2]

/-- The loop replaces the pieces one by one, unless it ends with an exception at one of them. -/
theorem substituteLoop_of_readAs {str : StdString} {pieces : List Piece} (h : ReadAs str pieces)
    (result : StdString) :
    ((∃ piece ∈ pieces, piece.Raises options pkg) ∧
        ∃ e, substituteLoop options pkg result str = .error e) ∨
      ((∀ piece ∈ pieces, ¬ piece.Raises options pkg) ∧
        substituteLoop options pkg result str =
          .ok (result ++ pieces.flatMap (Piece.replacement options pkg))) := by
  induction h generalizing result with
  | done => simp [substituteLoop]
  | escapedDollar _ ih =>
      rw [substituteLoop_escapedDollar]
      simpa [Piece.Raises, Piece.replacement] using ih (result ++ ['$'])
  | @reference name str pieces hname _ ih =>
      rw [substituteLoop_reference options pkg hname]
      by_cases hempty : packageGetVariable options pkg name = []
      · simp [Piece.Raises, hempty]
      · simpa [Piece.Raises, Piece.replacement, hempty] using
          ih (result ++ packageGetVariable options pkg name)
  | unterminated hstr => simp [substituteLoop_unterminated options pkg hstr, Piece.Raises]
  | @other c str pieces hc _ ih =>
      rw [substituteLoop_other options pkg hc]
      simpa [Piece.Raises, Piece.replacement] using ih (result ++ [c])

/-! ## Correct substitution -/

/-- The variable has a value in one of the places where it is looked up. -/
def IsDefined (var : StdString) : Prop :=
  (options.globalVariables.lookup var).isSome ∨ (systemVariable options pkg var).isSome ∨
    (pkg.variablesMap.lookup var).isSome

/-- Whether a text with a piece must not be accepted. -/
def Piece.Invalid : Piece → Prop
  | reference name => ¬ IsDefined options pkg name
  | unterminated => True
  | _ => False

/-- There is an exception exactly if a reference is not terminated or not defined, and otherwise
all pieces are replaced. -/
def SubstitutesRight (str : StdString) : Prop :=
  ∃ pieces, ReadAs (trimmed str) pieces ∧
    ((∃ e, trimAndSubstitute options pkg str = .error e) ↔
      ∃ piece ∈ pieces, piece.Invalid options pkg) ∧
    ∀ result, trimAndSubstitute options pkg str = .ok result →
      result = pieces.flatMap (Piece.replacement options pkg)

/-- If the text is valid, no variable that it refers to has an empty value. -/
def ValuesNonempty (str : StdString) : Prop :=
  ∀ pieces, ReadAs (trimmed str) pieces → (∀ piece ∈ pieces, ¬ piece.Invalid options pkg) →
    ∀ name, Piece.reference name ∈ pieces → packageGetVariable options pkg name ≠ []

/-- A variable that is not defined has no value. -/
theorem packageGetVariable_of_not_isDefined {var : StdString} (h : ¬ IsDefined options pkg var) :
    packageGetVariable options pkg var = [] := by
  simp only [IsDefined, not_or, Option.not_isSome_iff_eq_none] at h
  simp [packageGetVariable, h.1, h.2.1, h.2.2]

/-- What must not be accepted leads to an exception. -/
theorem Piece.Invalid.raises {piece : Piece} (h : piece.Invalid options pkg) :
    piece.Raises options pkg := by
  cases piece with
  | reference name => exact packageGetVariable_of_not_isDefined options pkg h
  | unterminated => exact h
  | escapedDollar => exact h
  | other c => exact h

/-- Only an empty value makes the difference between an exception and a wrong text. -/
theorem Piece.raises_iff (piece : Piece) :
    piece.Raises options pkg ↔ piece.Invalid options pkg ∨
      ∃ name, piece = .reference name ∧ packageGetVariable options pkg name = [] := by
  constructor
  · intro h
    cases piece with
    | reference name => exact .inr ⟨name, rfl, h⟩
    | unterminated => exact .inl h
    | escapedDollar => exact .inl h
    | other c => exact .inl h
  · intro h
    rcases h with h | ⟨name, rfl, hempty⟩
    · exact h.raises
    · exact hempty

/-- Variables are replaced right exactly if no empty value is needed. -/
theorem substitutesRight_iff (str : StdString) :
    SubstitutesRight options pkg str ↔ ValuesNonempty options pkg str := by
  constructor
  · intro ⟨pieces, hread, hraises, _⟩ pieces' hread' hvalid name hname hempty
    obtain rfl := readAs_unique hread hread'
    have hraise : ∃ e, trimAndSubstitute options pkg str = .error e := by
      rcases substituteLoop_of_readAs options pkg hread [] with ⟨_, herror⟩ | ⟨hnone, _⟩
      · exact herror
      · exact absurd hempty (hnone _ hname)
    obtain ⟨piece, hmem, hinvalid⟩ := hraises.mp hraise
    exact hvalid piece hmem hinvalid
  · intro hvalues
    obtain ⟨pieces, hread⟩ := exists_readAs (trimmed str)
    refine ⟨pieces, hread, ?_⟩
    rcases substituteLoop_of_readAs options pkg hread [] with ⟨⟨piece, hmem, hraises⟩, herror⟩ | ⟨hnone, hok⟩
    · have hinvalid : ∃ piece ∈ pieces, piece.Invalid options pkg := by
        by_contra hvalid
        push Not at hvalid
        rcases (piece.raises_iff options pkg).mp hraises with h | ⟨name, rfl, hempty⟩
        · exact hvalid piece hmem h
        · exact hvalues pieces hread hvalid name hmem hempty
      refine ⟨iff_of_true herror hinvalid, fun result hresult => ?_⟩
      obtain ⟨e, he⟩ := herror
      rw [trimAndSubstitute, he] at hresult
      cases hresult
    · refine ⟨iff_of_false ?_ ?_, fun result hresult => ?_⟩
      · intro ⟨e, he⟩
        rw [trimAndSubstitute, hok] at he
        cases he
      · intro ⟨piece, hmem, hinvalid⟩
        exact hnone piece hmem hinvalid.raises
      · rw [trimAndSubstitute, hok] at hresult
        simpa using (Except.ok.inj hresult).symm

/-- A package file that defines a variable with an empty value. -/
def emptyVariable : PcPackage :=
  { PcPackage.empty with filePath := "/usr/lib/pkgconfig/foo.pc".toList,
                         baseFileName := "foo".toList, variablesMap := [("suffix".toList, [])] }

/-- A reference to the variable with the empty value is refused. -/
theorem not_substitutesRight_emptyVariable :
    ¬ SubstitutesRight ⟨[], []⟩ emptyVariable "$\x7bsuffix\x7d".toList := by
  intro ⟨pieces, hread, hraises, _⟩
  have hpieces : ReadAs "$\x7bsuffix\x7d".toList [.reference "suffix".toList] :=
    @ReadAs.reference "suffix".toList _ _ (by decide) .done
  obtain rfl := readAs_unique hread hpieces
  have hdefined : IsDefined ⟨[], []⟩ emptyVariable "suffix".toList := .inr (.inr (by decide))
  obtain ⟨piece, hmem, hinvalid⟩ := hraises.mp ⟨undefinedVariableException emptyVariable
    "suffix".toList, by decide +kernel⟩
  obtain rfl := List.mem_singleton.mp hmem
  exact hinvalid hdefined

end PcParser

end Qbs
