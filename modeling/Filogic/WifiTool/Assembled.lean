import Filogic.WifiTool.Uci

/-! The packages from which the VAP maps are put together as they should be. -/

namespace Filogic.WifiTool

section Options

variable (hal : Hal)

def radioStep (radio : Int) (op : String × String) : Int :=
  if op.1 = "device" then (radioNum hal op.2).getD radio else radio

/-- The radio that the options name, or else the first one. -/
def radioOf (options : List (String × String)) : Int := options.foldl (radioStep hal) 0

/-- The mode, with the radio that was named before it. -/
def seenAt : Int → List (String × String) → Option (Int × String)
  | _, [] => none
  | radio, op :: rest =>
      if op.1 = "mode" then some (radio, op.2) else seenAt (radioStep hal radio op) rest

def isSta (value : String) : Bool := startsWith value "sta"

def isAp (value : String) : Bool := !startsWith value "sta" && startsWith value "ap"

/-- An interface has a radio of the arrays, and a mode that comes after the radio, or needs none. -/
structure GoodIntf (options : List (String × String)) : Prop where
  inside : (arrayIndex (radioOf hal options)).isSome
  mode : ∃ value, seenAt hal 0 options = some (radioOf hal options, value) ∧
    (isSta value ∨ isAp value)

end Options

section Step

variable (hal : Hal)

/-- What an interface section does, whose mode saw its radio. -/
def intfStep (s : Uci) (r : Fin 3) (sta : Bool) (settings : String → Option String) : Uci :=
  if sta then
    { s with
      staCount := Function.update s.staCount r (s.staCount r + 1)
      handled := s.handled ++ [(⟨r, true, -1, r + s.staCount r * hal.maxRadioNum,
        s.staCount r + s.apCount r, settings⟩, none)] }
  else
    let intf : IntfParam := ⟨r, false, r + s.apCount r * hal.maxRadioNum, 0,
      s.staCount r + s.apCount r, settings⟩
    let result := setApParam hal intf (s.vapMap r)
    { s with
      apCount := Function.update s.apCount r (s.apCount r + 1)
      vapMap := Function.update s.vapMap r { result.1 with numVaps := result.1.numVaps + 1 }
      handled := s.handled ++ [(intf, result.2)] }

end Step

end Filogic.WifiTool
