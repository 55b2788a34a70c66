import Filogic.Atenl.Precal

/-! What the operations should do with the image, and the runs in which they do it. -/

namespace Filogic.Atenl
open Lib

section Spec

variable (chip : PrecalChip)

/-- What the driver delivered, in its order. -/
def delivered (d : Delivery) (times : Nat) : List UInt8 :=
  (List.range times).flatMap fun i => (d.chunks i).getD []

/-- The image with the header, the indicator and one part put in. -/
def stores (c : CalInfo) (m : Bytes) (start : Nat) (bytes : List UInt8) : Bytes :=
  ((m.splice chip.prekOffs [UInt8.ofBitVec (c.calIndicator.setWidth 8)]).splice chip.eepromSize
    (infoBytes c)).splice (chip.eepromSize + preCalInfo + start) bytes

end Spec

section Guard

variable (chip : PrecalChip)

end Guard

section Receive

variable {chunks : Nat → Option (List UInt8)}

end Receive

section Parts

variable {chip : PrecalChip} {c : CalInfo}

end Parts

section Right

variable {chip : PrecalChip} {s : Precal} {op : PrekOp} {d : Delivery}

end Right

section Runs

end Runs

end Filogic.Atenl
