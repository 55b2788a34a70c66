import Filogic.Bootargs.Merge

/-! What `parse_bootargs` keeps of an argument, and when that is written as the same text again. -/

namespace Filogic.Bootargs

variable (text n : Text)

end Filogic.Bootargs
