import Filogic.Lib.Prog
import Filogic.Lib.Bytes
import Filogic.Snand.Device
import Filogic.Snand.Ecc
import Filogic.Snand.Page
import Filogic.Snand.Exec
import Filogic.Snand.Image
import Filogic.Snand.Fetch
import Filogic.Snand.Agreement
import Filogic.Snand.BadBlock
import Filogic.Snand.Status
import Filogic.Hnat.Mcast
import Filogic.Hnat.Membership
import Filogic.Hnat.Foe
import Filogic.Hnat.Hook
import Filogic.Hnat.Lock
import Filogic.Nmbm.Instance
import Filogic.Nmbm.Lower
import Filogic.Nmbm.BlockState
import Filogic.Nmbm.InfoTable
import Filogic.Nmbm.Update
import Filogic.Nmbm.Attach
import Filogic.Nmbm.Api
import Filogic.Nmbm.ReadOnly
import Filogic.Nmbm.States
import Filogic.Nmbm.Within
import Filogic.Nmbm.Writing
import Filogic.Nmbm.MgmtRange
import Filogic.Nmbm.TableBounds
import Filogic.Nmbm.MtdExact
import Filogic.Nmbm.FastWrite
import Filogic.Nmbm.Search
import Filogic.Nmbm.Repair
import Filogic.Snand.MtdExact
import Filogic.Snand.AutoOob
import Filogic.Snand.RawFormat
import Filogic.Snand.EmptySector
import Filogic.Snand.EmptyPage
import Filogic.Snand.Setup
import Filogic.Snand.EraseRange
import Filogic.Eth.Monitor
import Filogic.Eth.Streaks
import Filogic.Eth.Handshake
import Filogic.Eth.OpenStop
import Filogic.Hnat.Netdev
import Filogic.Hnat.Start
import Filogic.Hnat.Mirror
import Filogic.Hnat.Purge
import Filogic.Hnat.Neigh
import Filogic.Hnat.Ageing
import Filogic.Hnat.Teardown
import Filogic.Hnat.Xlat
import Filogic.Hnat.Static
import Filogic.Eth.Hwlro
import Filogic.Eth.RxOwned
import Filogic.Eth.TxOwned
import Filogic.Eth.Rollback
import Filogic.Eth.Encoded
import Filogic.Mtd.Placed
import Filogic.Mtd.Footprint
import Filogic.Mtd.ReadBack
import Filogic.Dsa.Isolated
import Filogic.Dsa.VlanMembers
import Filogic.Mt753x.Applied
import Filogic.Bootargs.Preserved
import Filogic.Atenl.TestState
import Filogic.Atenl.PrecalStored
import Filogic.Atenl.FrameReply
import Filogic.WifiTool.Package
import Filogic.Jffs2.Appended
import Filogic.Jffs2.Parsed
import Filogic.Jffs2.Room
import Filogic.Ppe.Offload
import Filogic.Nmbm.Sealed
import Filogic.Nmbm.Marks
import Filogic.Nmbm.Created
import Filogic.Nmbm.Found
import Filogic.Nmbm.RoundTrip
import Filogic.Nmbm.PanicWrite
import Filogic.Wed.Mcu
import Filogic.Wed.RxQueue
import Filogic.Atenl.Bulk
import Filogic.Atenl.Channel
import Filogic.SwitchTool.VlanClear
import Filogic.SwitchTool.Refused
import Filogic.Eth.Attempt
import Filogic.Mib.Counters
import Filogic.Mt753x.Netlink
import Filogic.Mt753x.LinkChange
import Filogic.Mt753x.PhyAccess
import Filogic.Atenl.EepromFile
import Filogic.Dsa.FdbDump
import Filogic.Bootargs.Summary
import Filogic.Bootargs.DmTable
import Filogic.Vendor.Csi
import Filogic.Bootargs.Buffers
import Filogic.Hnat.Rate
import Filogic.Thermal.Lvts
import Filogic.WifiTool.Strings
import Filogic.Xdns.Lists
import Filogic.Wed.CmdQueue
import Filogic.Wed.Messages
import Filogic.Wed.Firmware
import Filogic.Wed.Control
import Filogic.Ppe.Committed
import Filogic.Ppe.Rules
import Filogic.Ppe.Replace
import Filogic.Ppe.AllOrNothing
import Filogic.Wed.Attach
import Filogic.Wed.Cleanup
import Filogic.Wed.Attempts
import Filogic.Lib.Records
import Filogic.Lib.OnesComplement
import Filogic.Ppe.Roam
import Filogic.Hnat.Chkbase
