import QbsCore.Library.Fallible

/-!
# Errors

The exceptions of the program: failed internal checks and errors with a text for the
user.

Main results:

- Theorem {lit}`qbsCheck_eq_ok_iff`: a check passes exactly when its condition holds.

Current gaps:

- The code locations in an error are left out.
-/

namespace Qbs

/-- An error of the build: a failed internal check or a message for the user. Running out
of fuel is no error of the code; it marks a recursion that was cut off. -/
inductive ErrorInfo where
  | check (condition : String)
  | message (text : String)
  | outOfFuel
deriving DecidableEq

/-- An error with several items. -/
def ErrorInfo.ofItems (items : List String) : ErrorInfo :=
  .message ("\n".intercalate items)

/-- A failed check throws. -/
def qbsCheck (cond : Bool) (condition : String) : Except ErrorInfo Unit :=
  if cond then .ok () else .error (.check condition)

@[simp]
theorem qbsCheck_eq_ok_iff {cond : Bool} {text : String} {u : Unit} :
    qbsCheck cond text = .ok u ↔ cond = true := by
  unfold qbsCheck
  split <;> simp_all

end Qbs
