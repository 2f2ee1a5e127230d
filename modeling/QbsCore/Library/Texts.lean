import Mathlib.Data.List.Basic

/-!
# Texts

Texts are lists of characters.

Main results:

- Instance {lit}`Texts.lawfulBEq`: the test of texts for equality is right, so that it can be
  decided whether a text is in a list.
-/

namespace Texts

instance lawfulBEq : LawfulBEq (List Char) :=
  inferInstance

end Texts
