import Ralink.BlockAck.ReorderWindow
import Ralink.BlockAck.Conservation
import Ralink.BlockAck.Delivery
import Ralink.Nvram.RoundTrip
import Ralink.Nvram.ReadYourWrites
import Ralink.Nvram.Shared
import Ralink.Flash.Partial
import Ralink.HwNat.FlowSet
import Ralink.HwNat.Groups
import Ralink.HwNat.FirstMatch
import Ralink.HwNat.IpRange
import Ralink.HwNat.KeyedStore
import Ralink.Raeth.EchoFilter
import Ralink.HwNat.PingPong
import Ralink.Igmp.Membership
import Ralink.Wps.PinLock
import Ralink.Mlme.Concurrent
import Ralink.Timer.Served
import Ralink.Defrag.Model
import Ralink.Bss.Truthful
import Ralink.Station.Sound
import Ralink.P2p.GroupSet
import Ralink.P2p.Persistent
import Ralink.Wpa.PmkidMap
import Ralink.Wpa.Interference
import Ralink.Wpa.Rejected
import Ralink.Wpa.Reinstall
import Ralink.Wpa.Rekey
import Ralink.Uapsd.Delivery
import Ralink.Uapsd.Order
import Ralink.Nand.ReadBack
import Ralink.Crypt.Cbc
import Ralink.Rsn.Extract
import Ralink.Spectrum.Outstanding
import Ralink.Nand.MarkedBad
import Ralink.Rsn.Accepts
import Ralink.Wpa.KeyBounds
import Ralink.Wpa.Understood
import Ralink.Rx.Aggregate
import Ralink.Bss.Inside
import Ralink.BigInteger.LongDivision
import Ralink.BigInteger.SquareMul
import Ralink.Goahead.SetNth
import Ralink.Goahead.DeleteNth
import Ralink.Goahead.Display
import Ralink.HwNat.Layers
import Ralink.HwNat.Binding
import Ralink.Mat.OwnTag
import Ralink.Igmp.Records
import Ralink.Nvram.Import
import Ralink.Wsc.SubItems
import Ralink.Wsc.Required
import Ralink.Spectrum.Enqueue
import Ralink.BlockAck.Touched
import Ralink.Flash.Spi
import Ralink.Crypt.Michael
import Ralink.Crypt.OneCipher
import Ralink.Crypt.HashParts
import Ralink.Crypt.SoftEncrypt
import Ralink.Bss.Beacon
import Ralink.BigInteger.Bytes
