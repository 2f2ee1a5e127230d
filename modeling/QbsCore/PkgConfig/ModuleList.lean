import QbsCore.Library.Fallible
import QbsCore.PkgConfig.Package

/-!
# Lists of required modules

The fields of a package file that name other packages are split into modules by a state
machine, character by character.  A second scanner takes each module apart.

Main results:

- Theorem {lit}`PcParser.parseModuleList_written_iff`: the written lists that are read back.

Current gaps:

- None.
-/

namespace Qbs

namespace PcParser

open PcPackage

def isModuleSeparator (c : Char) : Bool :=
  c = ',' || isspace c

def isModuleOperator (c : Char) : Bool :=
  c = '<' || c = '>' || c = '!' || c = '='

/-! ## Splitting the list -/

inductive State where
  | outsideModule
  | inModuleName
  | beforeOperator
  | inOperator
  | afterOperator
  | inModuleVersion
deriving DecidableEq

/-- Whether an operator is the first thing after white space. -/
def operatorAhead (str : StdString) : Bool :=
  match str.dropWhile isspace with
  | [] => false
  | c :: _ => isModuleOperator c

/-- The state after a character, which may depend on the characters after it. -/
def nextState (state : State) (c : Char) (rest : StdString) : State :=
  match state with
  | .outsideModule => if !isModuleSeparator c then .inModuleName else .outsideModule
  | .inModuleName =>
      if isspace c then
        if operatorAhead (c :: rest) then .beforeOperator else .outsideModule
      else if isModuleSeparator c then .outsideModule
      else .inModuleName
  | .beforeOperator =>
      if isspace c then .beforeOperator
      else if isModuleOperator c then .inOperator
      else .beforeOperator
  | .inOperator => if !isModuleOperator c then .afterOperator else .inOperator
  | .afterOperator => if !isspace c then .inModuleVersion else .afterOperator
  | .inModuleVersion => if isModuleSeparator c then .outsideModule else .inModuleVersion

/-- The loop over the characters. What was read since the start of the current module is
`pending`. -/
def splitLoop (state : State) (pending : StdString) (result : List StdString) :
    StdString → List StdString
  | [] =>
      if pending = [] then result else result ++ [pending.dropWhile isModuleSeparator]
  | c :: rest =>
      if nextState state c rest = .outsideModule ∧ state ≠ .outsideModule then
        -- A module has ended; the next one starts at the character after it.
        splitLoop .outsideModule [c] (result ++ [pending.dropWhile isModuleSeparator]) rest
      else splitLoop (nextState state c rest) (pending ++ [c]) result rest

def splitModuleList (str : StdString) : List StdString :=
  splitLoop .outsideModule [] [] str

/-! ## Exceptions -/

def unknownComparisonException (filePath verName comp : StdString) : PcException where
  message := "Unknown version comparison operator '".toList ++ comp ++
    "' after package name '".toList ++ verName ++ "' in file '".toList ++ filePath ++ "'".toList

def emptyPackageNameException (filePath : StdString) : PcException where
  message := "Empty package name in Requires or Conflicts in file '".toList ++ filePath ++
    "'".toList

def noVersionException (filePath verName : StdString) : PcException where
  message := "Comparison operator but no version after package name '".toList ++ verName ++
    "' in file '".toList ++ filePath ++ "'".toList

/-! ## Taking a module apart -/

def comparisonFromString (filePath verName comp : StdString) :
    Except PcException ComparisonType :=
  if comp = [] then .ok .alwaysMatch
  else if comp = "=".toList then .ok .equal
  else if comp = ">=".toList then .ok .greaterThanEqual
  else if comp = "<=".toList then .ok .lessThanEqual
  else if comp = ">".toList then .ok .greaterThan
  else if comp = "<".toList then .ok .lessThan
  else if comp = "!=".toList then .ok .notEqual
  else .error (unknownComparisonException filePath verName comp)

/-- A name ends at white space and at a null character, which also stands behind the text. -/
def inName (c : Char) : Bool :=
  c ≠ '\x00' && !isspace c

def inWord (c : Char) : Bool :=
  !isspace c

/-- One round of the loop over the modules. -/
def parseModule (filePath module : StdString) : Except PcException RequiredVersion := do
  let name := module.takeWhile inName
  if name = [] then throw (emptyPackageNameException filePath)
  let rest := (module.dropWhile inName).dropWhile isspace
  let comparison ← comparisonFromString filePath name (rest.takeWhile inWord)
  let rest := (rest.dropWhile inWord).dropWhile isspace
  let version := rest.takeWhile inWord
  if comparison ≠ .alwaysMatch ∧ version = [] then throw (noVersionException filePath name)
  return ⟨name, comparison, version⟩

/-- Read a list of modules for the package in some file. -/
def parseModuleList (filePath str : StdString) : Except PcException (List RequiredVersion) :=
  (splitModuleList str).mapM (parseModule filePath)

/-! ## Written lists -/

/-- A name or a version: no separators and no operator characters. -/
structure IsWord (word : StdString) : Prop where
  nonempty : word ≠ []
  plain : ∀ c, c ∈ word → isModuleSeparator c = false ∧ isModuleOperator c = false

instance (word : StdString) : Decidable (IsWord word) :=
  haveI := List.decidableBAll
    (fun c => isModuleSeparator c = false ∧ isModuleOperator c = false) word
  decidable_of_iff _ ⟨fun h : word ≠ [] ∧ _ => ⟨h.1, h.2⟩, fun h => ⟨h.nonempty, h.plain⟩⟩

/-- Some white space. -/
structure IsSpace (str : StdString) : Prop where
  nonempty : str ≠ []
  isspace : ∀ c, c ∈ str → isspace c = true

instance (str : StdString) : Decidable (IsSpace str) :=
  haveI := List.decidableBAll (isspace · = true) str
  decidable_of_iff _ ⟨fun h : str ≠ [] ∧ _ => ⟨h.1, h.2⟩, fun h => ⟨h.nonempty, h.isspace⟩⟩

/-- Any mixture of white space and commas. -/
def IsSeparators (str : StdString) : Prop :=
  ∀ c, c ∈ str → isModuleSeparator c = true

instance (str : StdString) : Decidable (IsSeparators str) :=
  List.decidableBAll (isModuleSeparator · = true) str

def operatorText : ComparisonType → StdString
  | .lessThan => "<".toList
  | .greaterThan => ">".toList
  | .lessThanEqual => "<=".toList
  | .greaterThanEqual => ">=".toList
  | .equal => "=".toList
  | .notEqual => "!=".toList
  | .alwaysMatch => []

/-- How one required module is written. -/
inductive WritesEntry : RequiredVersion → StdString → Prop
  | plain {name : StdString} (hname : IsWord name) : WritesEntry ⟨name, .alwaysMatch, []⟩ name
  | versioned {name before after version : StdString} {comparison : ComparisonType}
      (hname : IsWord name) (hbefore : IsSpace before) (hcomparison : comparison ≠ .alwaysMatch)
      (hafter : IsSpace after) (hversion : IsWord version) :
      WritesEntry ⟨name, comparison, version⟩
        (name ++ (before ++ (operatorText comparison ++ (after ++ version))))

/-- How a list of required modules is written. -/
inductive WritesEntries : List RequiredVersion → StdString → Prop
  | nil : WritesEntries [] []
  | single {entry : RequiredVersion} {text : StdString} (hentry : WritesEntry entry text) :
      WritesEntries [entry] text
  | cons {entry next : RequiredVersion} {entries : List RequiredVersion}
      {text separators rest : StdString} (hentry : WritesEntry entry text)
      (hseparators : IsSeparators separators) (hnonempty : separators ≠ [])
      (hrest : WritesEntries (next :: entries) rest) :
      WritesEntries (entry :: next :: entries) (text ++ (separators ++ rest))

/-! ## Characters -/

variable {c : Char} {comparison : ComparisonType} {entry : RequiredVersion}
  {before name rest str tail text word : StdString}

theorem isspace_eq_false (h : isModuleSeparator c = false) : isspace c = false := by
  simp only [isModuleSeparator, Bool.or_eq_false_iff] at h
  exact h.2

theorem IsWord.isspace (h : IsWord word) (hc : c ∈ word) :
    isspace c = false :=
  isspace_eq_false (h.plain c hc).1

theorem isModuleOperator_of_mem_operatorText (h : c ∈ operatorText comparison) :
    isModuleOperator c = true := by
  cases comparison <;> simp [operatorText] at h <;> simp [isModuleOperator, h] <;>
    rcases h with h | h <;> simp [h]

theorem isspace_of_isModuleOperator (h : isModuleOperator c = true) :
    isspace c = false := by
  simp only [isModuleOperator, Bool.or_eq_true, decide_eq_true_eq] at h
  rcases h with ((h | h) | h) | h <;> rw [h] <;> decide

theorem operatorText_ne_nil (h : comparison ≠ .alwaysMatch) :
    operatorText comparison ≠ [] := by
  cases comparison <;> simp [operatorText] at h ⊢

theorem comparisonFromString_operatorText (filePath verName : StdString)
    (comparison : ComparisonType) :
    comparisonFromString filePath verName (operatorText comparison) = .ok comparison := by
  cases comparison <;> rfl

/-- The longest run of characters of a kind in front of something else. -/
theorem takeWhile_append_boundary {p : Char → Bool} {run : StdString} (rest : StdString)
    (hrun : ∀ c, c ∈ run → p c = true) (hrest : ∀ c tail, rest = c :: tail → p c = false) :
    (run ++ rest).takeWhile p = run ∧ (run ++ rest).dropWhile p = rest := by
  rw [List.takeWhile_append_of_pos hrun, List.dropWhile_append_of_pos hrun]
  cases rest with
  | nil => simp
  | cons c tail => simp [hrest c tail rfl]

/-! ## Reading one module -/

theorem inName_of_isWord (h : IsWord word) (hnull : '\x00' ∉ word) (hc : c ∈ word) :
    inName c = true := by
  have hne : c ≠ '\x00' := fun heq => hnull (heq ▸ hc)
  simp [inName, hne, h.isspace hc]

theorem head_of_isSpace (h : IsSpace before) (heq : before ++ rest = c :: tail) :
    isspace c = true := by
  cases before with
  | nil => exact absurd rfl h.nonempty
  | cons d before =>
      rw [List.cons_append, List.cons.injEq] at heq
      rw [← heq.1]
      exact h.isspace d List.mem_cons_self

theorem head_of_isWord (h : IsWord word) (heq : word ++ rest = c :: tail) :
    isModuleSeparator c = false ∧ isModuleOperator c = false := by
  cases word with
  | nil => exact absurd rfl h.nonempty
  | cons d word =>
      rw [List.cons_append, List.cons.injEq] at heq
      rw [← heq.1]
      exact h.plain d List.mem_cons_self

theorem head_of_operatorText (h : comparison ≠ .alwaysMatch)
    (heq : operatorText comparison ++ rest = c :: tail) : isModuleOperator c = true := by
  have hne := operatorText_ne_nil h
  apply @isModuleOperator_of_mem_operatorText c comparison
  cases htext : operatorText comparison with
  | nil => exact absurd htext hne
  | cons d text =>
      rw [htext, List.cons_append, List.cons.injEq] at heq
      simp [heq.1]

theorem parseModule_plain (hname : IsWord name) (hnull : '\x00' ∉ name) (filePath : StdString) :
    parseModule filePath name = .ok ⟨name, .alwaysMatch, []⟩ := by
  have hsplit := takeWhile_append_boundary [] (fun c => inName_of_isWord hname hnull)
    (by simp)
  rw [List.append_nil] at hsplit
  unfold parseModule
  rw [hsplit.1, hsplit.2]
  simp [hname.nonempty, comparisonFromString]

variable {after trailing version : StdString}

theorem parseModule_versioned (hname : IsWord name) (hnull : '\x00' ∉ name)
    (hbefore : IsSpace before) (hcomparison : comparison ≠ .alwaysMatch) (hafter : IsSpace after)
    (hversion : IsWord version) (filePath : StdString) :
    parseModule filePath (name ++ (before ++ (operatorText comparison ++ (after ++ version)))) =
      .ok ⟨name, comparison, version⟩ := by
  have hnameSplit := takeWhile_append_boundary
    (before ++ (operatorText comparison ++ (after ++ version)))
    (fun c => inName_of_isWord hname hnull) (by
      intro c tail heq
      simp [inName, head_of_isSpace hbefore heq])
  have hbeforeSplit := takeWhile_append_boundary
    (operatorText comparison ++ (after ++ version)) hbefore.isspace (by
      intro c tail heq
      exact isspace_of_isModuleOperator (head_of_operatorText hcomparison heq))
  have hoperator : ∀ c, c ∈ operatorText comparison → inWord c = true := by
    intro c hc
    simp [inWord, isspace_of_isModuleOperator (isModuleOperator_of_mem_operatorText hc)]
  have hoperatorSplit := takeWhile_append_boundary (after ++ version) hoperator (by
    intro c tail heq
    simp [inWord, head_of_isSpace hafter heq])
  have hafterSplit := takeWhile_append_boundary version hafter.isspace (by
    intro c tail heq
    rw [← List.append_nil version] at heq
    exact isspace_eq_false (head_of_isWord hversion heq).1)
  have hword : ∀ c, c ∈ version → inWord c = true := by
    intro c hc
    simp [inWord, hversion.isspace hc]
  have hversionSplit := takeWhile_append_boundary [] hword (by simp)
  rw [List.append_nil] at hversionSplit
  unfold parseModule
  rw [hnameSplit.1, hnameSplit.2, hbeforeSplit.2]
  simp only [hname.nonempty, if_false]
  rw [hoperatorSplit.1, hoperatorSplit.2, comparisonFromString_operatorText, hafterSplit.2,
    hversionSplit.1]
  simp [hversion.nonempty]

/-- A name with a null character is cut off there, and the null character is no operator. -/
theorem parseModule_null (hnull : '\x00' ∈ name) (hspace : ∀ c, c ∈ name → isspace c = false)
    (filePath : StdString) (v : RequiredVersion) :
    parseModule filePath (name ++ rest) ≠ .ok v := by
  rcases List.eq_append_cons_of_mem hnull with ⟨before, after, heq, hbefore⟩
  have hinName : ∀ c, c ∈ before → inName c = true := by
    intro c hc
    have hne : c ≠ '\x00' := fun h => hbefore (h ▸ hc)
    have hc : c ∈ name := by
      rw [heq]
      exact List.mem_append_left _ hc
    simp [inName, hne, hspace c hc]
  have hsplit := takeWhile_append_boundary ('\x00' :: (after ++ rest)) hinName (by
    intro c tail h
    rw [← (List.cons.inj h).1]
    decide)
  have htext : name ++ rest = before ++ '\x00' :: (after ++ rest) := by
    rw [heq, List.append_assoc, List.cons_append]
  have hskip : ('\x00' :: (after ++ rest)).dropWhile isspace = '\x00' :: (after ++ rest) :=
    List.dropWhile_cons_of_neg (by decide)
  have hcomparison : ∀ tail, comparisonFromString filePath before ('\x00' :: tail) =
      .error (unknownComparisonException filePath before ('\x00' :: tail)) := by
    intro tail
    simp [comparisonFromString]
  have hword : ('\x00' :: (after ++ rest)).takeWhile inWord =
      '\x00' :: (after ++ rest).takeWhile inWord :=
    List.takeWhile_cons_of_pos (by decide)
  intro h
  unfold parseModule at h
  rw [htext, hsplit.1, hsplit.2, hskip] at h
  by_cases hnil : before = []
  · simp [hnil] at h
  · simp [hnil, hword, hcomparison] at h

/-! ## Splitting a written list -/

variable {pending rest : StdString} {result : List StdString} {state : State}

/-- A character that does not end a module. -/
theorem splitLoop_step {after : State} (h : nextState state c rest = after)
    (hstay : after = .outsideModule → state = .outsideModule) :
    splitLoop state pending result (c :: rest) = splitLoop after (pending ++ [c]) result rest := by
  rw [splitLoop, h, if_neg]
  intro hleave
  exact hleave.2 (hstay hleave.1)

/-- Characters that do not change the state. -/
theorem splitLoop_stay (h : ∀ c, c ∈ str → ∀ tail, nextState state c tail = state) :
    splitLoop state pending result (str ++ rest) = splitLoop state (pending ++ str) result rest := by
  induction str generalizing pending with
  | nil => simp
  | cons c str ih =>
      have hc := h c List.mem_cons_self (str ++ rest)
      rw [List.cons_append, splitLoop_step hc id, ih fun d hd => h d (List.mem_cons_of_mem c hd)]
      simp

/-- A character that ends a module. -/
theorem splitLoop_leave (h : nextState state c rest = .outsideModule)
    (hstate : state ≠ .outsideModule) :
    splitLoop state pending result (c :: rest) =
      splitLoop .outsideModule [c] (result ++ [pending.dropWhile isModuleSeparator]) rest := by
  rw [splitLoop, if_pos ⟨h, hstate⟩]

/-- Separators before a module are skipped. -/
theorem splitLoop_separators (h : IsSeparators str) :
    splitLoop .outsideModule pending result (str ++ rest) =
      splitLoop .outsideModule (pending ++ str) result rest := by
  apply splitLoop_stay
  intro c hc tail
  simp [nextState, h c hc]

/-- The first character of a run changes the state, and the others keep it. -/
theorem splitLoop_run (after : State) (hne : str ≠ []) (hafter : after ≠ .outsideModule)
    (hfirst : ∀ c tail, str = c :: tail → nextState state c (tail ++ rest) = after)
    (hstay : ∀ c, c ∈ str → ∀ tail, nextState after c tail = after) :
    splitLoop state pending result (str ++ rest) = splitLoop after (pending ++ str) result rest := by
  cases str with
  | nil => exact absurd rfl hne
  | cons c str =>
      rw [List.cons_append, splitLoop_step (hfirst c str rfl) fun h => absurd h hafter,
        splitLoop_stay fun d hd => hstay d (List.mem_cons_of_mem c hd)]
      simp

/-- A name is read. -/
theorem splitLoop_name (hname : IsWord name) :
    splitLoop .outsideModule pending result (name ++ rest) =
      splitLoop .inModuleName (pending ++ name) result rest := by
  apply splitLoop_run .inModuleName hname.nonempty (by simp)
  · intro c tail heq
    simp [nextState, hname.plain c (by simp [heq])]
  · intro c hc tail
    have hplain := (hname.plain c hc).1
    simp [nextState, hplain, isspace_eq_false hplain]

/-- White space, an operator, white space and a version are read. -/
theorem splitLoop_version (hbefore : IsSpace before) (hcomparison : comparison ≠ .alwaysMatch)
    (hafter : IsSpace after) (hversion : IsWord version) :
    splitLoop .inModuleName pending result
        (before ++ (operatorText comparison ++ (after ++ (version ++ rest)))) =
      splitLoop .inModuleVersion
        (pending ++ (before ++ (operatorText comparison ++ (after ++ version)))) result rest := by
  have hoperator : ∀ c, c ∈ operatorText comparison → isModuleOperator c = true :=
    fun c hc => isModuleOperator_of_mem_operatorText hc
  have hnoOperator : ∀ c, isspace c = true → isModuleOperator c = false := by
    intro c hc
    by_contra hcontra
    rw [Bool.not_eq_false] at hcontra
    rw [isspace_of_isModuleOperator hcontra] at hc
    simp at hc
  have hahead : operatorAhead
      (before ++ (operatorText comparison ++ (after ++ (version ++ rest)))) = true := by
    unfold operatorAhead
    rw [List.dropWhile_append_of_pos hbefore.isspace]
    cases htext : operatorText comparison with
    | nil => exact absurd htext (operatorText_ne_nil hcomparison)
    | cons c text =>
        have hc : isModuleOperator c = true := hoperator c (by simp [htext])
        simp [isspace_of_isModuleOperator hc, hc]
  rw [splitLoop_run .beforeOperator hbefore.nonempty (by simp),
    splitLoop_run .inOperator (operatorText_ne_nil hcomparison) (by simp),
    splitLoop_run .afterOperator hafter.nonempty (by simp),
    splitLoop_run .inModuleVersion hversion.nonempty (by simp)]
  · simp
  · intro c tail heq
    simp [nextState, hversion.isspace (c := c) (by simp [heq])]
  · intro c hc tail
    simp [nextState, (hversion.plain c hc).1]
  · intro c tail heq
    simp [nextState, hnoOperator c (hafter.isspace c (by simp [heq]))]
  · intro c hc tail
    simp [nextState, hafter.isspace c hc]
  · intro c tail heq
    have hc := hoperator c (by simp [heq])
    simp [nextState, isspace_of_isModuleOperator hc, hc]
  · intro c hc tail
    simp [nextState, hoperator c hc]
  · intro c tail heq
    rw [heq, List.cons_append] at hahead
    simp [nextState, hbefore.isspace c (by simp [heq]), hahead]
  · intro c hc tail
    simp [nextState, hbefore.isspace c hc]

/-- After separators there is no operator. -/
theorem operatorAhead_separators (hstr : IsSeparators str)
    (hrest : ∀ c tail, rest = c :: tail → isspace c = false ∧ isModuleOperator c = false) :
    operatorAhead (str ++ rest) = false := by
  unfold operatorAhead
  induction str with
  | nil =>
      cases rest with
      | nil => simp
      | cons c tail => simp [hrest c tail rfl]
  | cons c str ih =>
      by_cases hspace : isspace c = true
      · rw [List.cons_append, List.dropWhile_cons_of_pos hspace]
        exact ih fun d hd => hstr d (List.mem_cons_of_mem c hd)
      · have hcomma := hstr c List.mem_cons_self
        simp only [isModuleSeparator, Bool.or_eq_true, decide_eq_true_eq] at hcomma
        rw [hcomma.resolve_right hspace]
        have hplain : isspace ',' = false ∧ isModuleOperator ',' = false := by decide
        simp [hplain.1, hplain.2]

/-- After an entry the machine is in a name or in a version. -/
theorem splitLoop_entry (h : WritesEntry entry text) (rest : StdString) :
    ∃ state, (state = .inModuleName ∨ state = .inModuleVersion) ∧
      ∀ pending result, splitLoop .outsideModule pending result (text ++ rest) =
        splitLoop state (pending ++ text) result rest := by
  cases h with
  | plain hname => exact ⟨.inModuleName, Or.inl rfl, fun _ _ => splitLoop_name hname⟩
  | versioned hname hbefore hcomparison hafter hversion =>
      refine ⟨.inModuleVersion, Or.inr rfl, ?_⟩
      intro pending result
      simp only [List.append_assoc]
      rw [splitLoop_name hname, splitLoop_version hbefore hcomparison hafter hversion]
      simp

/-- A separator ends a module unless an operator comes after it. -/
theorem nextState_separator (hstate : state = .inModuleName ∨ state = .inModuleVersion)
    (hc : isModuleSeparator c = true) (hahead : operatorAhead (c :: rest) = false) :
    nextState state c rest = .outsideModule := by
  rcases hstate with hstate | hstate
  · simp [hstate, nextState, hahead, hc]
  · simp [hstate, nextState, hc]

theorem WritesEntry.name_prefix (h : WritesEntry entry text) :
    IsWord entry.name ∧ ∃ tail, text = entry.name ++ tail := by
  cases h with
  | plain hname => exact ⟨hname, [], by simp⟩
  | versioned hname _ _ _ _ => exact ⟨hname, _, rfl⟩

/-- The separators before an entry are not part of its module. -/
theorem dropWhile_entry (h : WritesEntry entry text) (hpending : IsSeparators pending) :
    (pending ++ text).dropWhile isModuleSeparator = text := by
  rcases h.name_prefix with ⟨hname, tail, htext⟩
  refine (takeWhile_append_boundary text hpending ?_).2
  intro c tail' heq
  rw [htext] at heq
  exact (head_of_isWord hname heq).1

theorem WritesEntry.head (h : WritesEntry entry text) (heq : text ++ rest = c :: tail) :
    isspace c = false ∧ isModuleOperator c = false := by
  rcases h.name_prefix with ⟨hname, tail', htext⟩
  rw [htext, List.append_assoc] at heq
  have hhead := head_of_isWord hname heq
  exact ⟨isspace_eq_false hhead.1, hhead.2⟩

/-- What follows the last entry. -/
theorem splitLoop_trailing (htrailing : IsSeparators trailing) (hpending : IsSeparators pending) :
    splitLoop .outsideModule pending result trailing =
      if pending ++ trailing = [] then result else result ++ [[]] := by
  have hall : IsSeparators (pending ++ trailing) := by
    intro c hc
    rcases List.mem_append.mp hc with hc | hc
    · exact hpending c hc
    · exact htrailing c hc
  have hskip : splitLoop .outsideModule pending result (trailing ++ []) =
      splitLoop .outsideModule (pending ++ trailing) result [] :=
    splitLoop_separators htrailing
  rw [List.append_nil] at hskip
  rw [hskip, splitLoop]
  have hdrop : (pending ++ trailing).dropWhile isModuleSeparator = [] := by
    have hdrop := (takeWhile_append_boundary [] hall (by simp)).2
    rwa [List.append_nil] at hdrop
  rw [hdrop]

/-- A written list is split into the texts of its entries; separators after the last one give an
empty module. -/
theorem splitLoop_entries {entries : List RequiredVersion} {body : StdString}
    (h : WritesEntries entries body) (hne : entries ≠ []) (htrailing : IsSeparators trailing)
    (hpending : IsSeparators pending) :
    ∃ texts, List.Forall₂ WritesEntry entries texts ∧
      splitLoop .outsideModule pending result (body ++ trailing) =
        result ++ texts ++ if trailing = [] then [] else [[]] := by
  induction h generalizing pending result with
  | nil => exact absurd rfl hne
  | @single entry text hentry =>
      refine ⟨[text], List.Forall₂.cons hentry List.Forall₂.nil, ?_⟩
      rcases splitLoop_entry hentry trailing with ⟨state, hstate, hread⟩
      rw [hread]
      cases trailing with
      | nil =>
          have hnonempty : pending ++ text ≠ [] := by
            intro hnil
            rcases hentry.name_prefix with ⟨hname, tail, htext⟩
            rw [htext] at hnil
            simp [hname.nonempty] at hnil
          rw [splitLoop, if_neg hnonempty, dropWhile_entry hentry hpending]
          simp
      | cons c trailing =>
          have hahead : operatorAhead (c :: trailing ++ []) = false :=
            operatorAhead_separators htrailing (by simp)
          rw [List.append_nil] at hahead
          have hnext := nextState_separator hstate (htrailing c List.mem_cons_self) hahead
          have hleave : state ≠ .outsideModule := by
            rcases hstate with hstate | hstate <;> simp [hstate]
          rw [splitLoop_leave hnext hleave, dropWhile_entry hentry hpending, splitLoop_trailing]
          · simp
          · exact fun d hd => htrailing d (List.mem_cons_of_mem c hd)
          · intro d hd
            rw [List.mem_singleton.mp hd]
            exact htrailing c List.mem_cons_self
  | @cons entry next entries text separators rest hentry hseparators hnonempty hrest ih =>
      rcases splitLoop_entry hentry (separators ++ (rest ++ trailing)) with ⟨state, hstate, hread⟩
      simp only [List.append_assoc]
      rw [hread]
      cases separators with
      | nil => exact absurd rfl hnonempty
      | cons c separators =>
          have hheads : ∀ d tail, rest ++ trailing = d :: tail →
              isspace d = false ∧ isModuleOperator d = false := by
            intro d tail heq
            cases hrest with
            | single hnext => exact hnext.head heq
            | cons hnext _ _ _ =>
                rw [List.append_assoc] at heq
                exact hnext.head heq
          have hahead : operatorAhead (c :: (separators ++ (rest ++ trailing))) = false :=
            operatorAhead_separators hseparators hheads
          have hnext := nextState_separator hstate (hseparators c List.mem_cons_self) hahead
          have hleave : state ≠ .outsideModule := by
            rcases hstate with hstate | hstate <;> simp [hstate]
          have hc : IsSeparators ([c] ++ separators) := hseparators
          rcases @ih ([c] ++ separators) (result ++ [text]) (by simp) hc with
            ⟨texts, htexts, hsplit⟩
          refine ⟨text :: texts, List.Forall₂.cons hentry htexts, ?_⟩
          rw [List.cons_append, splitLoop_leave hnext hleave, dropWhile_entry hentry hpending,
            splitLoop_separators fun d hd => hseparators d (List.mem_cons_of_mem c hd), hsplit]
          simp

/-! ## Round trip -/

theorem parseModule_entry_iff (h : WritesEntry entry text) (filePath : StdString)
    {v : RequiredVersion} :
    parseModule filePath text = .ok v ↔ v = entry ∧ '\x00' ∉ entry.name := by
  by_cases hnull : '\x00' ∈ entry.name
  · rcases h.name_prefix with ⟨hname, tail, htext⟩
    rw [htext]
    have herror : parseModule filePath (entry.name ++ tail) ≠ .ok v :=
      parseModule_null hnull (fun c hc => hname.isspace hc) filePath v
    simp [herror, hnull]
  · have hok : parseModule filePath text = .ok entry := by
      cases h with
      | plain hname => exact parseModule_plain hname hnull filePath
      | versioned hname hbefore hcomparison hafter hversion =>
          exact parseModule_versioned hname hnull hbefore hcomparison hafter hversion filePath
    rw [hok]
    simp [hnull, eq_comm]

theorem mapM_parseModule_iff {entries vs : List RequiredVersion} {texts : List StdString}
    (h : List.Forall₂ WritesEntry entries texts) (filePath : StdString) :
    texts.mapM (parseModule filePath) = .ok vs ↔
      vs = entries ∧ ∀ entry, entry ∈ entries → '\x00' ∉ entry.name := by
  induction h generalizing vs with
  | nil =>
      rw [List.mapM_nil, Fallible.pure_eq_ok_iff]
      simp [eq_comm]
  | @cons entry text entries texts hentry _ ih =>
      rw [List.mapM_cons]
      simp only [Fallible.bind_eq_ok_iff, Fallible.pure_eq_ok_iff, parseModule_entry_iff hentry, ih]
      constructor
      · intro hvs
        rcases hvs with ⟨v, ⟨hv, hnull⟩, vs', ⟨hvs', hnulls⟩, heq⟩
        rw [hv, hvs'] at heq
        refine ⟨heq.symm, ?_⟩
        simpa [hnull] using hnulls
      · intro hvs
        rcases hvs with ⟨hvs, hnull⟩
        simp only [List.mem_cons, forall_eq_or_imp] at hnull
        exact ⟨entry, ⟨rfl, hnull.1⟩, entries, ⟨rfl, hnull.2⟩, hvs.symm⟩

/-- A written list is read back exactly if nothing stands after its last entry (and before the first
one, if there is none), and no name has a null character. -/
theorem parseModuleList_written_iff (filePath : StdString) (entries : List RequiredVersion)
    (leading body trailing : StdString) (hleading : IsSeparators leading)
    (hbody : WritesEntries entries body) (htrailing : IsSeparators trailing) :
    parseModuleList filePath (leading ++ (body ++ trailing)) = .ok entries ↔
      trailing = [] ∧ (entries = [] → leading = []) ∧
        ∀ entry, entry ∈ entries → '\x00' ∉ entry.name := by
  have hempty : parseModule filePath [] = .error (emptyPackageNameException filePath) := by
    simp [parseModule]
    rfl
  unfold parseModuleList splitModuleList
  rw [splitLoop_separators hleading, List.nil_append]
  by_cases hne : entries = []
  · subst hne
    cases hbody
    rw [List.nil_append, splitLoop_trailing htrailing hleading]
    split
    · rename_i hnil
      rw [List.append_eq_nil_iff] at hnil
      simp [hnil]
    · rename_i hnil
      rw [List.append_eq_nil_iff] at hnil
      simp [hempty]
      tauto
  · have hsplitting : ∃ texts, List.Forall₂ WritesEntry entries texts ∧
        splitLoop .outsideModule leading [] (body ++ trailing) =
          [] ++ texts ++ if trailing = [] then [] else [[]] :=
      splitLoop_entries hbody hne htrailing hleading
    rcases hsplitting with ⟨texts, htexts, hsplit⟩
    rw [hsplit, List.nil_append]
    cases trailing with
    | nil =>
        simp only [if_true, List.append_nil]
        rw [mapM_parseModule_iff htexts]
        simp [hne]
    | cons c trailing =>
        simp [List.mapM_append, hempty]

/-- A list with a version and separators of both kinds. -/
theorem parseModuleList_written_sample :
    parseModuleList "a.pc".toList (" ".toList ++ ("glib >= 2.0".toList ++ (", ".toList ++
        "zlib".toList) ++ [])) =
      .ok [⟨"glib".toList, .greaterThanEqual, "2.0".toList⟩, ⟨"zlib".toList, .alwaysMatch, []⟩] := by
  have hglib : WritesEntry ⟨"glib".toList, .greaterThanEqual, "2.0".toList⟩ "glib >= 2.0".toList :=
    @WritesEntry.versioned _ " ".toList " ".toList _ _ (by decide) (by decide)
      (by decide) (by decide) (by decide)
  have hzlib : WritesEntry ⟨"zlib".toList, .alwaysMatch, []⟩ "zlib".toList :=
    WritesEntry.plain (by decide)
  have hseparators : IsSeparators ", ".toList := by decide
  have hbody := WritesEntries.cons hglib hseparators (by decide) (WritesEntries.single hzlib)
  exact (parseModuleList_written_iff "a.pc".toList _ " ".toList _ [] (by decide) hbody
    (by decide)).mpr ⟨rfl, by decide, by decide⟩

/-- After a comma at the end there is another module, without a name. -/
theorem parseModuleList_trailing_comma :
    ¬∀ (filePath : StdString) (entries : List RequiredVersion) (leading body trailing : StdString),
      IsSeparators leading → WritesEntries entries body → IsSeparators trailing →
        parseModuleList filePath (leading ++ (body ++ trailing)) = .ok entries := by
  intro h
  have hzlib : WritesEntry ⟨"zlib".toList, .alwaysMatch, []⟩ "zlib".toList :=
    WritesEntry.plain (by decide)
  have hread := h [] _ [] _ ",".toList (by decide) (WritesEntries.single hzlib) (by decide)
  exact absurd hread (by decide)

end PcParser

end Qbs
