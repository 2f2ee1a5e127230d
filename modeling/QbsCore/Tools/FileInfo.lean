import QbsCore.Library.Segments
import QbsCore.Library.Texts

/-!
# Paths as texts

The functions on file paths that look at their texts only, for Unix.

Main results:

- Definitions {lit}`FileInfo.resolvePath` and {lit}`FileInfo.cleanPath`.
-/

namespace Qbs

/-- The text of a path. -/
abbrev PathText := List Char

/-- A segment of a path that goes up. -/
def dotDot : PathText :=
  ['.', '.']

namespace FileInfo

def isAbsolute (path : PathText) : Bool :=
  path.head? = some '/'

def isPattern (str : PathText) : Bool :=
  str.any fun ch => ch = '*' || ch = '?' || ch = ']' || ch = '['

/-- What is after the last slash. -/
def fileName (fp : PathText) : PathText :=
  (fp.reverse.takeWhile fun ch => ch ≠ '/').reverse

/-- What is before the last slash. -/
def beforeLastSlash (fp : PathText) : PathText :=
  ((fp.reverse.dropWhile fun ch => ch ≠ '/').drop 1).reverse

/-- Cut off the last slash with all that is after it, if there is one. -/
def truncated (r : PathText) : PathText :=
  if '/' ∈ r then beforeLastSlash r else r

/-- Go up for each pair of dots at the start of the second path. -/
def goUp : PathText → PathText → PathText × PathText
  | r, '.' :: '.' :: '/' :: s => goUp (truncated r) s
  | r, s => if s = dotDot then (truncated r, []) else (r, s)

/-- Concatenate two paths; the first one has to be absolute. -/
def resolvePath (homePath base rel : PathText) : PathText :=
  if !isAbsolute base then []
  else if isAbsolute rel then rel
  else if rel = ['.'] then base
  else if rel = ['~'] then homePath
  else if ['~', '/'].isPrefixOf rel then homePath ++ rel.drop 1
  else
    let r := if base.getLast? = some '/' then base.dropLast else base
    let parts := goUp r rel
    if parts.2 = [] then parts.1 else parts.1 ++ '/' :: parts.2

/-- Add a segment to the ones before it, of which the last one comes first. -/
def pushSegment (stack : List PathText) (s : PathText) : List PathText :=
  if s = [] ∨ s = ['.'] then stack
  else if s = dotDot then
    match stack with
    | [] => [s]
    | top :: rest => if top = dotDot then s :: stack else rest
  else s :: stack

/-- Remove what is redundant from the segments of a path. -/
def normalized (segments : List PathText) : List PathText :=
  (segments.foldl pushSegment []).reverse

/-- Remove redundant slashes, single dots and, as far as possible, double dots. -/
def cleanPath (path : PathText) : PathText :=
  if path = [] then []
  else
    let segments := normalized (path.splitOn '/')
    if isAbsolute path then
      if segments = [] then ['/'] else Segments.joined '/' segments
    else if segments = [] then ['.'] else ['/'].intercalate segments

/-- The directory of a file. -/
def path (fp : PathText) : PathText :=
  if fp = [] then []
  else if '/' ∉ fp then ['.']
  else
    let p := cleanPath (beforeLastSlash fp)
    if p = [] then ['/'] else p

end FileInfo

end Qbs
