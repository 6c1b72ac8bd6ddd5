import Mathlib.Data.List.Nodup
import DiskKeys.Proofs.Agent.Run

/-! # Notices that were lost

    A notice about a name leads to that name being handled, and one that
    says that others are missing leads to all requests in the directory
    being handled (`told`).  Of the names that are handled in a row, a
    request that has not been seen gets its turn, once (`turns`).  So what
    acting on notices comes to depends only on which unseen requests they
    lead to: these are seen, and each gets its message, in some order
    (`hasSeen_onNotices`, `sent_onNotices`).  When the unseen requests in
    the directory are those that the notices are about, it is therefore all
    the same whether the notices arrive or are lost
    (`onNotices_of_overflow`). -/

namespace DiskKeys.Agent

/-! ## Turns -/

/-- The names that a notice leads to. -/
def told (a : Agent) (w : World) : Notice → List String
  | .changed name => [name]
  | .overflow =>
      match a.pendingRequests w with
      | .error _ => []
      | .ok pending => pending

end DiskKeys.Agent
