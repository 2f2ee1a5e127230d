import Mathlib.Data.List.Nodup
import Mathlib.Data.List.Perm.Subperm

/-!
# Scanning C++ files

A scanner goes through the tokens of a C++ file.  It notes the names of the headers in include
directives, and whether there are macros that moc has to run for.  The tokens are those that the
lexer delivers, with a literal in angle brackets where it was asked for one.

Main results:

- Theorem {lit}`includedFiles_scanTokens`: the scanner finds the headers of those directives that
  it comes across.
- Theorem {lit}`hasQObjectMacro_scanTokens` and its companions: the same for macros.
- Theorem {lit}`scansRight_iff`: when it finds all of them.

Current gaps:

- The lexer is left out.
-/

namespace Qbs

namespace CppScanner

inductive TokenKind where
  | pound
  | identifier
  | stringLiteral
  | angleStringLiteral
  | other
deriving DecidableEq

/-- A token with its text, and whether it is the first one on its line. -/
structure Token where
  kind : TokenKind
  text : List Char
  newline : Bool
deriving DecidableEq

/-- What a token is before one is read. -/
def Token.none : Token :=
  ⟨.other, [], false⟩

inductive IncludeFlag where
  | localInclude
  | globalInclude
deriving DecidableEq

/-- The name of a header: where its text starts, and its size. -/
structure ScanResult where
  fileName : List Char
  size : Int
  flags : IncludeFlag
deriving DecidableEq

inductive FileType where
  | unknown
  | hpp
  | cpp
  | c
  | objc
  | objcpp
  | rc
deriving DecidableEq

structure Opaq where
  fileType : FileType
  includedFiles : List ScanResult
  hasQObjectMacro : Bool
  hasPluginMetaDataMacro : Bool
  currentResultIndex : Nat

/-- The scanner when a file was opened. -/
def Opaq.opened (fileType : FileType) : Opaq :=
  ⟨fileType, [], false, false, 0⟩

namespace Token

variable (tk : Token)

def equals (literal : String) : Bool :=
  tk.text = literal.toList

def isIdentifier : Bool :=
  tk.kind = .identifier

/-- The token starts a directive. -/
def startsDirective : Bool :=
  tk.newline && tk.kind = .pound

/-- The token is the name of an include directive, in the line of what is before it. -/
def namesInclude : Bool :=
  !tk.newline && tk.isIdentifier && (tk.equals "include" || tk.equals "import")

/-- The token is a literal for a header, in the line of what is before it. -/
def isHeader : Bool :=
  !tk.newline && (tk.kind = .stringLiteral || tk.kind = .angleStringLiteral)

def isDefine : Bool :=
  tk.isIdentifier && tk.equals "define"

def isQObject : Bool :=
  tk.isIdentifier && (tk.equals "Q_OBJECT" || tk.equals "Q_GADGET" || tk.equals "Q_NAMESPACE")

def isPluginMetaData : Bool :=
  tk.isIdentifier && tk.equals "Q_PLUGIN_METADATA"

end Token

/-! ## The scanner -/

namespace Opaq

variable (o : Opaq)

/-- Add the header if the token is one. Two is taken from its length for the delimiters. -/
def addHeader (tk : Token) : Opaq :=
  if tk.isHeader then
    { o with
      includedFiles := o.includedFiles ++
        [⟨tk.text.drop 1, (tk.text.length : Int) - 2,
          if tk.kind = .stringLiteral then .localInclude else .globalInclude⟩] }
  else o

/-- Note that there is a macro. -/
def noteMacro (tk : Token) : Opaq :=
  if tk.isQObject then { o with hasQObjectMacro := true }
  else if tk.isPluginMetaData then { o with hasPluginMetaDataMacro := true }
  else o

/-- There is no need to go on if nothing but macros is looked for. -/
def hasAllMacros : Bool :=
  o.hasQObjectMacro &&
    (o.hasPluginMetaDataMacro || o.fileType = .cpp || o.fileType = .objcpp)

end Opaq

/-- Go through the tokens. A token after one that starts a directive is not looked at further,
and neither is the one after the name of an include directive. -/
def scanTokens (scanForFileTags scanForDependencies : Bool) : Token → List Token → Opaq → Opaq
  | _, [], o => o
  | oldTk, tk :: rest, o =>
      if tk.startsDirective then
        match rest with
        | [] => o
        | name :: rest =>
            if scanForDependencies && name.namesInclude then
              match rest with
              | [] => o
              | header :: rest =>
                  scanTokens scanForFileTags scanForDependencies header rest (o.addHeader header)
            else scanTokens scanForFileTags scanForDependencies name rest o
      else if tk.isIdentifier && scanForFileTags && !oldTk.isDefine then
        if !scanForDependencies && (o.noteMacro tk).hasAllMacros then o.noteMacro tk
        else scanTokens scanForFileTags scanForDependencies tk rest (o.noteMacro tk)
      else scanTokens scanForFileTags scanForDependencies tk rest o

def scanCppFile (fileType : FileType) (tokens : List Token)
    (scanForFileTags scanForDependencies : Bool) : Opaq :=
  scanTokens scanForFileTags scanForDependencies .none tokens (.opened fileType)

/-- The next result of a scanner. -/
def next (o : Opaq) : Option ScanResult × Opaq :=
  match o.includedFiles[o.currentResultIndex]? with
  | some result => (some result, { o with currentResultIndex := o.currentResultIndex + 1 })
  | none => (none, o)

/-- The results that some calls give, one after the other. -/
def nextResults : Nat → Opaq → List ScanResult
  | 0, _ => []
  | calls + 1, o =>
      match next o with
      | (none, _) => []
      | (some result, o) => result :: nextResults calls o

def additionalFileTags (o : Opaq) : List String :=
  if o.hasQObjectMacro then
    match o.fileType with
    | .cpp | .objcpp => if o.hasPluginMetaDataMacro then ["moc_cpp_plugin"] else ["moc_cpp"]
    | .hpp => if o.hasPluginMetaDataMacro then ["moc_hpp_plugin"] else ["moc_hpp"]
    | _ => []
  else []

/-! ## What is in a file -/

/-- The tokens with those before and after them. -/
def positions : Token → List Token → List (Token × List Token)
  | _, [] => []
  | oldTk, tk :: rest => (oldTk, tk :: rest) :: positions tk rest

/-- The literal of an include directive that starts with the first token. -/
def includeAt : List Token → Option Token
  | tk :: name :: header :: _ =>
      if tk.startsDirective && name.namesInclude && header.isHeader then some header else none
  | _ => none

/-- The literal ends with the delimiter that belongs to the one that it starts with. -/
def Token.isTerminated (tk : Token) : Bool :=
  decide (2 ≤ tk.text.length) &&
    decide (tk.text.getLast? = some (if tk.kind = .stringLiteral then '"' else '>'))

/-- The text between the delimiters. -/
def Token.between (tk : Token) : List Char :=
  if tk.isTerminated then (tk.text.drop 1).dropLast else tk.text.drop 1

def Token.includeFlag (tk : Token) : IncludeFlag :=
  if tk.kind = .stringLiteral then .localInclude else .globalInclude

/-- The names of the headers in the include directives of a file. -/
def headersOf (tokens : List Token) : List (List Char × IncludeFlag) :=
  (positions .none tokens).filterMap fun p =>
    (includeAt p.2).map fun header => (header.between, header.includeFlag)

/-- The name of the header in a result. There is none if the size is negative. -/
def ScanResult.header (result : ScanResult) : Option (List Char × IncludeFlag) :=
  if 0 ≤ result.size then some (result.fileName.take result.size.toNat, result.flags) else none

/-- A macro of a kind is at a position: neither the name of a directive nor right after a
definition. -/
def occursAt (kind : Token → Bool) (p : Token × List Token) : Bool :=
  match p.2 with
  | [] => false
  | tk :: _ => kind tk && !p.1.isDefine && !(p.1.startsDirective && !tk.newline)

/-- There is a macro of a kind in a file. -/
def Occurs (kind : Token → Bool) (tokens : List Token) : Prop :=
  ∃ p, p ∈ positions .none tokens ∧ occursAt kind p = true

/-- The scanner finds the headers of all include directives and the macros, in both modes. -/
structure ScansRight (fileType : FileType) (tokens : List Token) : Prop where
  includedFiles : ∀ scanForFileTags,
    (scanCppFile fileType tokens scanForFileTags true).includedFiles.map ScanResult.header =
      (headersOf tokens).map some
  hasQObjectMacro : ∀ scanForDependencies,
    (scanCppFile fileType tokens true scanForDependencies).hasQObjectMacro = true ↔
      Occurs Token.isQObject tokens
  hasPluginMetaDataMacro : ∀ scanForDependencies,
    (scanCppFile fileType tokens true scanForDependencies).hasPluginMetaDataMacro = true ↔
      Occurs Token.isPluginMetaData tokens
  additionalFileTags : additionalFileTags (scanCppFile fileType tokens true true) =
    additionalFileTags (scanCppFile fileType tokens true false)

/-! ## What the scanner comes across -/

/-- The positions at which the scanner looks at a token. -/
def visited (scanForDependencies : Bool) : Token → List Token → List (Token × List Token)
  | _, [] => []
  | oldTk, tk :: rest =>
      if tk.startsDirective then
        match rest with
        | [] => [(oldTk, [tk])]
        | name :: rest =>
            if scanForDependencies && name.namesInclude then
              match rest with
              | [] => [(oldTk, [tk, name])]
              | header :: rest =>
                  (oldTk, tk :: name :: header :: rest) :: visited scanForDependencies header rest
            else (oldTk, tk :: name :: rest) :: visited scanForDependencies name rest
      else (oldTk, tk :: rest) :: visited scanForDependencies tk rest

/-- The token at a position gets noted if it is looked at. -/
def notedAt (kind : Token → Bool) (p : Token × List Token) : Bool :=
  match p.2 with
  | [] => false
  | tk :: _ => kind tk && !p.1.isDefine

/-- The positions at which plugin metadata are looked for. In C++ source files, they are not any
more after another macro, if only macros are looked for. -/
def soughtForMetaData (fileType : FileType) (scanForDependencies : Bool)
    (ps : List (Token × List Token)) : List (Token × List Token) :=
  if !scanForDependencies && (fileType = .cpp || fileType = .objcpp) then
    ps.takeWhile fun p => !notedAt Token.isQObject p
  else ps

/-- The scanner comes across all include directives, the literals in which have both delimiters,
and across a macro of each kind just if there is one. -/
structure ScansRightWhen (fileType : FileType) (tokens : List Token) : Prop where
  includes : ∀ p, p ∈ positions .none tokens → (includeAt p.2).isSome = true →
    p ∈ visited true .none tokens
  isTerminated : ∀ p, p ∈ positions .none tokens → ∀ header, includeAt p.2 = some header →
    header.isTerminated = true
  qObject : ∀ scanForDependencies, Occurs Token.isQObject tokens ↔
    ∃ p, p ∈ visited scanForDependencies .none tokens ∧ notedAt Token.isQObject p = true
  pluginMetaData : ∀ scanForDependencies, Occurs Token.isPluginMetaData tokens ↔
    ∃ p, p ∈ soughtForMetaData fileType scanForDependencies
        (visited scanForDependencies .none tokens) ∧
      notedAt Token.isPluginMetaData p = true

theorem visited_sublist (scanForDependencies : Bool) (oldTk : Token) (tokens : List Token) :
    (visited scanForDependencies oldTk tokens).Sublist (positions oldTk tokens) := by
  fun_induction visited scanForDependencies oldTk tokens with
  | case1 => simp
  | case2 oldTk tk => simp [positions]
  | case3 oldTk tk _ name => simp [positions]
  | case4 oldTk tk _ name _ header rest ih =>
      simp only [positions]
      exact ((ih.cons _).cons _).cons_cons _
  | case5 oldTk tk _ name rest _ ih =>
      simp only [positions]
      exact (ih.cons _).cons_cons _
  | case6 oldTk tk rest _ ih =>
      simp only [positions]
      exact ih.cons_cons _

variable {name tk : Token}

theorem visited_include {scanForDependencies : Bool} (hstarts : tk.startsDirective = true)
    (hname : (scanForDependencies && name.namesInclude) = true) (oldTk header : Token)
    (rest : List Token) :
    visited scanForDependencies oldTk (tk :: name :: header :: rest) =
      (oldTk, tk :: name :: header :: rest) :: visited scanForDependencies header rest := by
  rw [visited.eq_def]
  simp only [hstarts, hname, if_true]

theorem visited_directive {scanForDependencies : Bool} {tk name : Token}
    (hstarts : tk.startsDirective = true)
    (hname : ¬(scanForDependencies && name.namesInclude) = true) (oldTk : Token)
    (rest : List Token) :
    visited scanForDependencies oldTk (tk :: name :: rest) =
      (oldTk, tk :: name :: rest) :: visited scanForDependencies name rest := by
  rw [visited.eq_def]
  simp only [hstarts, hname, if_true, if_false, Bool.false_eq_true]

theorem visited_other (scanForDependencies : Bool) (hstarts : ¬tk.startsDirective = true)
    (oldTk : Token) (rest : List Token) :
    visited scanForDependencies oldTk (tk :: rest) =
      (oldTk, tk :: rest) :: visited scanForDependencies tk rest := by
  rw [visited.eq_def]
  simp only [hstarts, if_false, Bool.false_eq_true]

/-- The result for the literal of an include directive. -/
def resultOf (header : Token) : ScanResult :=
  ⟨header.text.drop 1, (header.text.length : Int) - 2, header.includeFlag⟩

theorem Opaq.includedFiles_addHeader (o : Opaq) (tk : Token) :
    (o.addHeader tk).includedFiles =
      o.includedFiles ++ if tk.isHeader then [resultOf tk] else [] := by
  unfold addHeader
  split
  · simp [resultOf, Token.includeFlag]
  · simp

namespace Opaq

variable (o : Opaq) (tk : Token)

@[simp] theorem includedFiles_noteMacro : (o.noteMacro tk).includedFiles = o.includedFiles := by
  unfold noteMacro
  split
  · simp
  · split <;> simp

@[simp] theorem fileType_noteMacro : (o.noteMacro tk).fileType = o.fileType := by
  unfold noteMacro
  split
  · simp
  · split <;> simp

@[simp] theorem fileType_addHeader : (o.addHeader tk).fileType = o.fileType := by
  unfold addHeader
  split <;> simp

@[simp] theorem hasQObjectMacro_noteMacro :
    (o.noteMacro tk).hasQObjectMacro = (o.hasQObjectMacro || tk.isQObject) := by
  unfold noteMacro
  split
  · simp [*]
  · split <;> simp [*]

@[simp] theorem hasQObjectMacro_addHeader :
    (o.addHeader tk).hasQObjectMacro = o.hasQObjectMacro := by
  unfold addHeader
  split <;> simp

@[simp] theorem hasPluginMetaDataMacro_addHeader :
    (o.addHeader tk).hasPluginMetaDataMacro = o.hasPluginMetaDataMacro := by
  unfold addHeader
  split <;> simp

end Opaq

/-- A token is one macro only. -/
theorem Token.not_isPluginMetaData (h : tk.isQObject = true) :
    tk.isPluginMetaData = false := by
  simp only [isQObject, equals, Bool.and_eq_true, Bool.or_eq_true, decide_eq_true_eq] at h
  rcases h with ⟨-, (h | h) | h⟩ <;> simp [isPluginMetaData, equals, h]

@[simp] theorem Opaq.hasPluginMetaDataMacro_noteMacro (o : Opaq) (tk : Token) :
    (o.noteMacro tk).hasPluginMetaDataMacro =
      (o.hasPluginMetaDataMacro || tk.isPluginMetaData) := by
  unfold noteMacro
  split
  · rename_i h
    simp [Token.not_isPluginMetaData h]
  · split <;> simp [*]

theorem includeAt_of_not_starts (h : tk.startsDirective = false) (rest : List Token) :
    includeAt (tk :: rest) = none := by
  match rest with
  | [] | [_] | _ :: _ :: _ => simp [includeAt, h]

theorem includeAt_of_not_names (h : name.namesInclude = false) (tk : Token) (rest : List Token) :
    includeAt (tk :: name :: rest) = none := by
  cases rest <;> simp [includeAt, h]

theorem includeAt_cons (hstarts : tk.startsDirective = true) (hname : name.namesInclude = true)
    (header : Token) (rest : List Token) :
    includeAt (tk :: name :: header :: rest) = if header.isHeader then some header else none := by
  simp [includeAt, hstarts, hname]

/-- The literals of the include directives that the scanner comes across. -/
theorem includedFiles_scanTokens (scanForFileTags : Bool) (oldTk : Token) (tokens : List Token)
    (o : Opaq) :
    (scanTokens scanForFileTags true oldTk tokens o).includedFiles =
      o.includedFiles ++ (visited true oldTk tokens).filterMap
        fun p => (includeAt p.2).map resultOf := by
  fun_induction scanTokens scanForFileTags true oldTk tokens o with
  | case1 => simp [visited]
  | case2 oldTk tk o hstarts => simp [visited, hstarts, includeAt]
  | case3 oldTk tk o hstarts name hname =>
      rw [Bool.true_and] at hname
      simp [visited, hstarts, hname, includeAt]
  | case4 oldTk tk o hstarts name hname header rest ih =>
      rw [ih, Opaq.includedFiles_addHeader, List.append_assoc, visited_include hstarts hname]
      rw [Bool.true_and] at hname
      simp only [List.filterMap_cons, includeAt_cons hstarts hname header rest]
      cases header.isHeader <;> simp
  | case5 oldTk tk o hstarts name rest hname ih =>
      rw [ih, visited_directive hstarts hname]
      rw [Bool.true_and, Bool.not_eq_true] at hname
      simp [includeAt_of_not_names hname tk rest]
  | case6 oldTk tk rest o hstarts hidentifier hall => simp at hall
  | case7 oldTk tk rest o hstarts hidentifier hall ih =>
      rw [ih, Opaq.includedFiles_noteMacro, visited_other true hstarts]
      rw [Bool.not_eq_true] at hstarts
      simp [includeAt_of_not_starts hstarts rest]
  | case8 oldTk tk rest o hstarts hidentifier ih =>
      rw [ih, visited_other true hstarts]
      rw [Bool.not_eq_true] at hstarts
      simp [includeAt_of_not_starts hstarts rest]

/-! ## Macros -/

variable {kind : Token → Bool}

/-- A token that starts a directive is no macro. -/
theorem notedAt_of_starts (hkind : ∀ tk, kind tk = true → tk.isIdentifier = true)
    (hstarts : tk.startsDirective = true) (oldTk : Token) (rest : List Token) :
    notedAt kind (oldTk, tk :: rest) = false := by
  have hidentifier : tk.isIdentifier = false := by
    simp only [Token.startsDirective, Bool.and_eq_true, decide_eq_true_eq] at hstarts
    simp [Token.isIdentifier, hstarts.2]
  have hnot : kind tk = false := by
    by_contra h
    rw [Bool.not_eq_false] at h
    rw [hkind tk h] at hidentifier
    simp at hidentifier
  simp [notedAt, hnot]

theorem isIdentifier_of_isQObject (tk : Token) (h : tk.isQObject = true) :
    tk.isIdentifier = true := by
  rw [Token.isQObject, Bool.and_eq_true] at h
  exact h.1

theorem isIdentifier_of_isPluginMetaData (tk : Token) (h : tk.isPluginMetaData = true) :
    tk.isIdentifier = true := by
  rw [Token.isPluginMetaData, Bool.and_eq_true] at h
  exact h.1

/-- What is not an identifier, or right after a definition, is not noted. -/
theorem notedAt_of_not_identifier (hkind : ∀ tk, kind tk = true → tk.isIdentifier = true)
    {oldTk : Token} (h : ¬(tk.isIdentifier && true && !oldTk.isDefine) = true) (rest : List Token) :
    notedAt kind (oldTk, tk :: rest) = false := by
  unfold notedAt
  cases hk : kind tk with
  | false => simp [hk]
  | true =>
      rw [hkind tk hk] at h
      simpa [hk] using h

theorem notedAt_of_identifier {oldTk : Token}
    (h : (tk.isIdentifier && true && !oldTk.isDefine) = true) (rest : List Token) :
    notedAt kind (oldTk, tk :: rest) = kind tk := by
  simp only [Bool.and_true, Bool.and_eq_true, Bool.not_eq_true'] at h
  simp [notedAt, h.2]

/-- The scanner notes a macro if it comes across one. -/
theorem hasQObjectMacro_scanTokens (scanForDependencies : Bool) (oldTk : Token)
    (tokens : List Token) (o : Opaq) :
    (scanTokens true scanForDependencies oldTk tokens o).hasQObjectMacro =
      (o.hasQObjectMacro || (visited scanForDependencies oldTk tokens).any
        (notedAt Token.isQObject)) := by
  fun_induction scanTokens true scanForDependencies oldTk tokens o with
  | case1 => simp [visited]
  | case2 oldTk tk o hstarts =>
      simp [visited, hstarts, notedAt_of_starts isIdentifier_of_isQObject hstarts]
  | case3 oldTk tk o hstarts name hname =>
      simp [visited, hstarts, hname, notedAt_of_starts isIdentifier_of_isQObject hstarts]
  | case4 oldTk tk o hstarts name hname header rest ih =>
      rw [ih, visited_include hstarts hname]
      simp [notedAt_of_starts isIdentifier_of_isQObject hstarts]
  | case5 oldTk tk o hstarts name rest hname ih =>
      rw [ih, visited_directive hstarts hname]
      simp [notedAt_of_starts isIdentifier_of_isQObject hstarts]
  | case6 oldTk tk rest o hstarts hidentifier hall =>
      -- the loop was left with all macros, which include this one
      have hhas : (o.noteMacro tk).hasQObjectMacro = true := by
        rw [Bool.and_eq_true, Opaq.hasAllMacros, Bool.and_eq_true] at hall
        exact hall.2.1
      rw [visited_other scanForDependencies hstarts, List.any_cons, notedAt_of_identifier hidentifier,
        ← Bool.or_assoc, ← Opaq.hasQObjectMacro_noteMacro, hhas, Bool.true_or]
  | case7 oldTk tk rest o hstarts hidentifier hall ih =>
      rw [ih, visited_other scanForDependencies hstarts, List.any_cons, notedAt_of_identifier hidentifier,
        Opaq.hasQObjectMacro_noteMacro, Bool.or_assoc]
  | case8 oldTk tk rest o hstarts hidentifier ih =>
      rw [ih, visited_other scanForDependencies hstarts, List.any_cons,
        notedAt_of_not_identifier isIdentifier_of_isQObject hidentifier, Bool.false_or]

theorem soughtForMetaData_cons {p : Token × List Token}
    (h : notedAt Token.isQObject p = false) (fileType : FileType) (scanForDependencies : Bool)
    (ps : List (Token × List Token)) :
    soughtForMetaData fileType scanForDependencies (p :: ps) =
      p :: soughtForMetaData fileType scanForDependencies ps := by
  unfold soughtForMetaData
  split
  · simp [h]
  · simp

/-- The same for plugin metadata, while there is need to go on. -/
theorem hasPluginMetaDataMacro_scanTokens (scanForDependencies : Bool) (oldTk : Token)
    (tokens : List Token) (o : Opaq)
    (hgoOn : (!scanForDependencies && o.hasAllMacros) = false) :
    (scanTokens true scanForDependencies oldTk tokens o).hasPluginMetaDataMacro =
      (o.hasPluginMetaDataMacro ||
        (soughtForMetaData o.fileType scanForDependencies
          (visited scanForDependencies oldTk tokens)).any (notedAt Token.isPluginMetaData)) := by
  have hstart := fun {tk : Token} (hstarts : tk.startsDirective = true) (oldTk : Token)
    (rest : List Token) => And.intro
      (notedAt_of_starts isIdentifier_of_isQObject hstarts oldTk rest)
      (notedAt_of_starts isIdentifier_of_isPluginMetaData hstarts oldTk rest)
  fun_induction scanTokens true scanForDependencies oldTk tokens o with
  | case1 => simp [visited, soughtForMetaData]
  | case2 oldTk tk o hstarts =>
      rcases hstart hstarts oldTk [] with ⟨hqObject, hpluginMetaData⟩
      simp [visited, hstarts, soughtForMetaData, hqObject, hpluginMetaData]
  | case3 oldTk tk o hstarts name hname =>
      rcases hstart hstarts oldTk [name] with ⟨hqObject, hpluginMetaData⟩
      simp [visited, hstarts, hname, soughtForMetaData, hqObject, hpluginMetaData]
  | case4 oldTk tk o hstarts name hname header rest ih =>
      rcases hstart hstarts oldTk (name :: header :: rest) with ⟨hqObject, hpluginMetaData⟩
      rw [ih (by simpa [Opaq.hasAllMacros] using hgoOn), visited_include hstarts hname,
        soughtForMetaData_cons hqObject, List.any_cons, hpluginMetaData]
      simp
  | case5 oldTk tk o hstarts name rest hname ih =>
      rcases hstart hstarts oldTk (name :: rest) with ⟨hqObject, hpluginMetaData⟩
      rw [ih hgoOn, visited_directive hstarts hname, soughtForMetaData_cons hqObject,
        List.any_cons, hpluginMetaData, Bool.false_or]
  | case6 oldTk tk rest o hstarts hidentifier hall =>
      simp only [Bool.and_eq_true, Bool.not_eq_true', Opaq.hasAllMacros, Bool.or_eq_true,
        Opaq.fileType_noteMacro, Opaq.hasQObjectMacro_noteMacro,
        Opaq.hasPluginMetaDataMacro_noteMacro, decide_eq_true_eq] at hall
      rw [visited_other scanForDependencies hstarts, Opaq.hasPluginMetaDataMacro_noteMacro]
      by_cases hsource : o.fileType = .cpp ∨ o.fileType = .objcpp
      · -- this is the first macro, and nothing is looked for behind it
        have hfirst : tk.isQObject = true := by
          simp only [hall.1, Opaq.hasAllMacros, Bool.not_false, Bool.true_and] at hgoOn
          rcases hall.2.1 with hbefore | hfirst
          · rcases hsource with h | h <;> simp [hbefore, h] at hgoOn
          · exact hfirst
        rw [soughtForMetaData, if_pos (by rcases hsource with h | h <;> simp [hall.1, h]),
          List.takeWhile_cons, notedAt_of_identifier hidentifier, hfirst,
          Token.not_isPluginMetaData hfirst]
        simp
      · rw [soughtForMetaData, if_neg (by simp [not_or.mp hsource]), List.any_cons,
          notedAt_of_identifier hidentifier, ← Bool.or_assoc]
        have hhas : (o.hasPluginMetaDataMacro || tk.isPluginMetaData) = true := by
          rw [Bool.or_eq_true]
          tauto
        rw [hhas, Bool.true_or]
  | case7 oldTk tk rest o hstarts hidentifier hall ih =>
      rw [Bool.not_eq_true] at hall
      rw [ih hall, visited_other scanForDependencies hstarts, Opaq.fileType_noteMacro,
        Opaq.hasPluginMetaDataMacro_noteMacro, Bool.or_assoc]
      have hpluginMetaData : notedAt Token.isPluginMetaData (oldTk, tk :: rest) =
          tk.isPluginMetaData := notedAt_of_identifier hidentifier rest
      by_cases hqObject : notedAt Token.isQObject (oldTk, tk :: rest) = true
      · -- the loop goes on after a macro only if all positions are looked at
        rw [notedAt_of_identifier hidentifier] at hqObject
        have hnot : (!scanForDependencies && (o.fileType = .cpp || o.fileType = .objcpp)) =
            false := by
          simp only [Opaq.hasAllMacros, Opaq.hasQObjectMacro_noteMacro, hqObject, Bool.or_true,
            Bool.true_and, Opaq.fileType_noteMacro] at hall
          cases scanForDependencies
          · simp_all
          · simp
        simp [soughtForMetaData, hnot, hpluginMetaData]
      · rw [Bool.not_eq_true] at hqObject
        rw [soughtForMetaData_cons hqObject, List.any_cons, hpluginMetaData]
  | case8 oldTk tk rest o hstarts hidentifier ih =>
      rw [ih hgoOn, visited_other scanForDependencies hstarts,
        soughtForMetaData_cons
          (notedAt_of_not_identifier isIdentifier_of_isQObject hidentifier rest), List.any_cons,
        notedAt_of_not_identifier isIdentifier_of_isPluginMetaData hidentifier, Bool.false_or]

/-! ## When everything is found -/

/-- The size in a result is that of the text between the delimiters if there are two. -/
theorem header_resultOf_iff (tk : Token) :
    (resultOf tk).header = some (tk.between, tk.includeFlag) ↔ tk.isTerminated = true := by
  unfold ScanResult.header resultOf Token.between
  have hlength : ∀ n : Nat, ((n : Int) - 2).toNat = n - 2 := by omega
  cases hterminated : tk.isTerminated with
  | true =>
      simp only [Token.isTerminated, Bool.and_eq_true, decide_eq_true_eq] at hterminated
      have hsize : (0 : Int) ≤ (tk.text.length : Int) - 2 := by omega
      rw [if_pos hsize, if_pos rfl, hlength, List.dropLast_eq_take, List.length_drop]
      simp only [iff_true, Option.some.injEq, Prod.mk.injEq, and_true]
      rw [Nat.sub_sub]
  | false =>
      simp only [Bool.false_eq_true, if_false, iff_false]
      split
      · rename_i hsize
        intro heq
        have hlengths := congrArg (fun h => (h.getD ([], .localInclude)).1.length) heq
        simp only [Option.getD_some, List.length_take, List.length_drop, hlength] at hlengths
        omega
      · simp

/-- The positions come in the order of the tokens. -/
theorem pairwise_positions (oldTk : Token) (tokens : List Token) :
    (positions oldTk tokens).Pairwise fun p q => q.2.length < p.2.length := by
  have hle : ∀ (oldTk : Token) (tokens : List Token) (p : Token × List Token),
      p ∈ positions oldTk tokens → p.2.length ≤ tokens.length := by
    intro oldTk tokens
    induction tokens generalizing oldTk with
    | nil => simp [positions]
    | cons tk rest ih =>
        intro p hp
        rcases List.mem_cons.mp hp with heq | hp
        · simp [heq]
        · have h := ih tk p hp
          rw [List.length_cons]
          omega
  induction tokens generalizing oldTk with
  | nil => simp [positions]
  | cons tk rest ih =>
      refine List.pairwise_cons.mpr ⟨?_, ih tk⟩
      intro p hp
      have h := hle tk rest p hp
      rw [List.length_cons]
      omega

theorem nodup_positions (oldTk : Token) (tokens : List Token) :
    (positions oldTk tokens).Nodup := by
  refine (pairwise_positions oldTk tokens).imp ?_
  intro p q hlt heq
  rw [heq] at hlt
  omega

/-- What is found in some of the elements is what is in all of them if and only if each element with
something in it is among those, and the same is found in it. -/
theorem filterMap_eq_iff {α β : Type} {f g : α → Option β} {l l' : List α}
    (hsublist : l.Sublist l') (hnodup : l'.Nodup) (hsome : ∀ a, (f a).isSome = (g a).isSome) :
    l.filterMap f = l'.filterMap g ↔
      ∀ a, a ∈ l' → (g a).isSome = true → a ∈ l ∧ f a = g a := by
  have hfilter : ∀ (h : α → Option β) (l : List α),
      ((l.filter fun a => (h a).isSome).map h) = (l.filterMap h).map some := by
    intro h l
    induction l with
    | nil => simp
    | cons a l ih =>
        rw [List.filter_cons, List.filterMap_cons]
        cases ha : h a with
        | none => simpa using ih
        | some b => simpa [ha] using ih
  have hsublist' := hsublist.filter fun a => (g a).isSome
  have hfilterF : (l.filter fun a => (f a).isSome) = l.filter fun a => (g a).isSome := by
    refine List.filter_congr ?_
    intro a _
    rw [hsome a]
  constructor
  · intro h a ha hga
    have hmap : (l.filter fun a => (g a).isSome).map f =
        (l'.filter fun a => (g a).isSome).map g := by
      rw [← hfilterF, hfilter f l, hfilter g l', h]
    have hlength : (l.filter fun a => (g a).isSome).length =
        (l'.filter fun a => (g a).isSome).length := by
      have hlength := congrArg List.length hmap
      simpa using hlength
    have heq := hsublist'.eq_of_length hlength
    have hmem : a ∈ l.filter fun a => (g a).isSome := by
      rw [heq]
      exact List.mem_filter.mpr ⟨ha, hga⟩
    refine ⟨(List.mem_filter.mp hmem).1, ?_⟩
    rw [heq] at hmap hmem
    exact List.map_inj_left.mp hmap a hmem
  · intro h
    have hsubset : (l'.filter fun a => (g a).isSome) ⊆ l.filter fun a => (g a).isSome := by
      intro a ha
      rcases List.mem_filter.mp ha with ⟨ha, hga⟩
      exact List.mem_filter.mpr ⟨(h a ha hga).1, hga⟩
    have heq := hsublist'.eq_of_length_le
      (List.subperm_of_subset (hnodup.filter _) hsubset).length_le
    apply List.map_injective_iff.mpr fun _ _ h => Option.some.inj h
    rw [← hfilter f l, ← hfilter g l', hfilterF, heq]
    refine List.map_congr_left ?_
    intro a ha
    rcases List.mem_filter.mp ha with ⟨ha, hga⟩
    exact (h a ha hga).2

theorem additionalFileTags_congr {o o' : Opaq} (hfileType : o.fileType = o'.fileType)
    (hqObject : o.hasQObjectMacro = o'.hasQObjectMacro)
    (hpluginMetaData : o.hasPluginMetaDataMacro = o'.hasPluginMetaDataMacro) :
    additionalFileTags o = additionalFileTags o' := by
  rw [additionalFileTags, additionalFileTags, hfileType, hqObject, hpluginMetaData]

theorem fileType_scanTokens (scanForFileTags scanForDependencies : Bool) (oldTk : Token)
    (tokens : List Token) (o : Opaq) :
    (scanTokens scanForFileTags scanForDependencies oldTk tokens o).fileType = o.fileType := by
  fun_induction scanTokens scanForFileTags scanForDependencies oldTk tokens o with
  | case1 | case2 | case3 => simp
  | case4 _ _ _ _ _ _ _ _ ih => simpa using ih
  | case5 _ _ _ _ _ _ _ ih => exact ih
  | case6 => simp
  | case7 _ _ _ _ _ _ _ ih => simpa using ih
  | case8 _ _ _ _ _ _ ih => exact ih

theorem any_iff {ps : List (Token × List Token)} {kind : Token × List Token → Bool} :
    ps.any kind = true ↔ ∃ p, p ∈ ps ∧ kind p = true := by
  simp

theorem includedFiles_eq_iff (fileType : FileType) (tokens : List Token) (scanForFileTags : Bool) :
    (scanCppFile fileType tokens scanForFileTags true).includedFiles.map ScanResult.header =
        (headersOf tokens).map some ↔
      ∀ p, p ∈ positions .none tokens → ∀ header, includeAt p.2 = some header →
        p ∈ visited true .none tokens ∧ header.isTerminated = true := by
  rw [scanCppFile, includedFiles_scanTokens, headersOf, Opaq.opened, List.nil_append,
    List.map_filterMap, List.map_filterMap,
    filterMap_eq_iff (visited_sublist true .none tokens) (nodup_positions .none tokens)]
  · refine forall_congr' fun p => imp_congr_right fun _ => ?_
    cases hinclude : includeAt p.2 with
    | none => simp
    | some header => simp [header_resultOf_iff]
  · intro p
    cases includeAt p.2 <;> simp

/-- The scanner finds everything if and only if it comes across all include directives, the
literals in these have both delimiters, and it comes across a macro of each kind if there is
one. -/
theorem scansRight_iff (fileType : FileType) (tokens : List Token) :
    ScansRight fileType tokens ↔ ScansRightWhen fileType tokens := by
  have hqObject : ∀ scanForDependencies,
      (scanCppFile fileType tokens true scanForDependencies).hasQObjectMacro = true ↔
        ∃ p, p ∈ visited scanForDependencies .none tokens ∧
          notedAt Token.isQObject p = true := by
    intro scanForDependencies
    rw [scanCppFile, hasQObjectMacro_scanTokens, Opaq.opened, Bool.false_or, any_iff]
  have hpluginMetaData : ∀ scanForDependencies,
      (scanCppFile fileType tokens true scanForDependencies).hasPluginMetaDataMacro = true ↔
        ∃ p, p ∈ soughtForMetaData fileType scanForDependencies
            (visited scanForDependencies .none tokens) ∧
          notedAt Token.isPluginMetaData p = true := by
    intro scanForDependencies
    rw [scanCppFile, hasPluginMetaDataMacro_scanTokens scanForDependencies .none tokens _
      (by simp [Opaq.opened, Opaq.hasAllMacros]), Opaq.opened, Bool.false_or, any_iff]
  constructor
  · intro h
    have hincludes := (includedFiles_eq_iff fileType tokens true).mp (h.includedFiles true)
    refine ⟨?_, ?_, ?_, ?_⟩
    · intro p hp hsome
      rcases Option.isSome_iff_exists.mp hsome with ⟨header, hheader⟩
      exact (hincludes p hp header hheader).1
    · intro p hp header hheader
      exact (hincludes p hp header hheader).2
    · intro scanForDependencies
      exact (h.hasQObjectMacro scanForDependencies).symm.trans (hqObject scanForDependencies)
    · intro scanForDependencies
      exact (h.hasPluginMetaDataMacro scanForDependencies).symm.trans
        (hpluginMetaData scanForDependencies)
  · intro h
    have hqObject' := fun scanForDependencies =>
      (hqObject scanForDependencies).trans (h.qObject scanForDependencies).symm
    have hpluginMetaData' := fun scanForDependencies =>
      (hpluginMetaData scanForDependencies).trans (h.pluginMetaData scanForDependencies).symm
    refine ⟨?_, hqObject', hpluginMetaData', additionalFileTags_congr ?_ ?_ ?_⟩
    · intro scanForFileTags
      refine (includedFiles_eq_iff fileType tokens scanForFileTags).mpr ?_
      intro p hp header hheader
      exact ⟨h.includes p hp (by simp [hheader]), h.isTerminated p hp header hheader⟩
    · rw [scanCppFile, scanCppFile, fileType_scanTokens, fileType_scanTokens]
    · exact Bool.eq_iff_iff.mpr ((hqObject' true).trans (hqObject' false).symm)
    · exact Bool.eq_iff_iff.mpr ((hpluginMetaData' true).trans (hpluginMetaData' false).symm)

/-! ## A directive after an empty one -/

/-- A number sign that is alone on its line, and an include directive in the next line. -/
def tokensAfterNull : List Token :=
  [⟨.pound, ['#'], true⟩, ⟨.pound, ['#'], true⟩, ⟨.identifier, "include".toList, false⟩,
    ⟨.stringLiteral, "\"a.h\"".toList, false⟩]

/-- The include directive after an empty directive is missed. -/
theorem not_scansRight_tokensAfterNull : ¬ScansRight .cpp tokensAfterNull := by
  intro h
  exact absurd (h.includedFiles true) (by decide)

end CppScanner

end Qbs
