import Filogic.Hnat.Fields
import Filogic.Hnat.Start

/-! `hnat.c`: the deletion of bound entries by MAC address, by IP address and by Wi-Fi station. The
loops have the default table size for their bound. -/

namespace Filogic.Hnat
open Lib

/-- `mtk_get_wdma_rx_port` -/
def mtkGetWdmaRxPort (wdmaIdx : Nat) : Option Nat :=
  if wdmaIdx = 2 then some 13
  else if wdmaIdx = 1 then some 9
  else if wdmaIdx = 0 then some 8
  else none

/-- What a purge is asked for. -/
inductive PurgeKey where
  | mac (mac : Bytes)
  | ip (isIpv4 : Bool) (addr : Bytes)
  | station (wdmaIdx bssid wcid : Nat)

/-- Where a packet type has the addresses of the flow's inner end: the source of what it sends,
and the destination of what it gets, after translation where the type has one. -/
def endpointAddresses (netsys : Netsys) (isIpv4 : Bool) : FoeIpAct → List Nat
  | .ipv4Hnapt | .ipv4Hnat => if isIpv4 then [4, 24] else []
  | .ipv4Dslite | .ipv4MapE => if isIpv4 then [4, 8] else []
  | .ipv6ThreeTRoute | .ipv6FiveTRoute | .ipv6SixRd => if isIpv4 then [] else [4, 20]
  | .ipv6Hnapt | .ipv6Hnat => if isIpv4 ∨ netsys ≠ .v3 then [] else [4, 84]
  | .ipv4MapT | .unused _ => []

/-- The entry has the key in the fields that its own packet type keeps it in. -/
def Carries (netsys : Netsys) (entry : FoeEntry) : PurgeKey → Prop
  | .mac mac =>
    let s := structOf entry.bfib1.pktType
    macAt entry.union s.dmacHi s.dmacLo = mac.slice 0 6 ∨
      macAt entry.union s.smacHi s.smacLo = mac.slice 0 6
  | .ip isIpv4 addr =>
    ∃ k ∈ endpointAddresses netsys isIpv4 entry.bfib1.pktType,
      addressAt entry.union k (if isIpv4 then 1 else 4) =
        addr.slice 0 (if isIpv4 then 4 else 16)
  | .station wdmaIdx bssid wcid =>
    let s := structOf entry.bfib1.pktType
    winfoAt netsys entry.union (s.winfo netsys) = (bssid, wcid) ∧
      mtkGetWdmaRxPort wdmaIdx = some (dpAt netsys entry.union s.infoBlk2)

/-- The purge shall delete this entry. -/
def Due (netsys : Netsys) (ppeNum : Nat) (allocated : Nat → Nat) (foe : Nat → Nat → FoeEntry)
    (key : PurgeKey) (ppe index : Nat) : Prop :=
  ppe < ppeNum ∧ index < allocated ppe ∧ (foe ppe index).bfib1.state = .bind ∧
    Carries netsys (foe ppe index) key

end Filogic.Hnat
