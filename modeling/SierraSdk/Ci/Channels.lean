import Mathlib.Data.List.Basic

/-!
# The IPC channel table

The channels of package ci in the order of `ciipcchanfixedinfo`; a channel's number is its
position in the table. Request and response channels are used between the applications and
the daemon, each paired with a notification channel. The modem channels `QMURR1` to
`QMURR8` are one for each QMI instance.
-/

namespace SierraSdk

namespace Ci

/-- The names in the channel table. -/
inductive CiIpc where
  | qmrr1
  | qmnotif1
  | qmrr2
  | qmnotif2
  | qmrr3
  | qmnotif3
  | uqmrr1
  | uimrr1
  | uimrr2
  | ui
  | diag
  | udiag
  | nmea
  | uqmrr2
  | uqmrr3
  | uqmrr4
  | uqmrr5
  | uqmrr6
  | uqmrr7
  | uqmrr8
  deriving DecidableEq

/-- How the IPC of a channel is used. -/
inductive CiIpcIfUseTyp where
  | cirr
  | cinotif
  | ciui
  | cidrsvc
  | ciifinvalid
  deriving DecidableEq

open CiIpc CiIpcIfUseTyp

/-- The channel table: name, peer and IPC usage. `none` is the peer `"DUMMY"`, and stands
for the peer `UNMEA` as well, which the table does not contain. -/
def ciipcchanfixedinfo : List (CiIpc × Option CiIpc × CiIpcIfUseTyp) :=
  [(qmrr1, some qmnotif1, cirr), (qmnotif1, some qmrr1, cinotif),
    (qmrr2, some qmnotif2, cirr), (qmnotif2, some qmrr2, cinotif),
    (qmrr3, some qmnotif3, cirr), (qmnotif3, some qmrr3, cinotif),
    (uqmrr1, none, ciifinvalid), (uimrr1, none, ciifinvalid), (uimrr2, none, ciifinvalid),
    (ui, none, ciui), (diag, some udiag, cidrsvc), (udiag, some diag, ciifinvalid),
    (nmea, none, cidrsvc), (uqmrr2, none, ciifinvalid), (uqmrr3, none, ciifinvalid),
    (uqmrr4, none, ciifinvalid), (uqmrr5, none, ciifinvalid), (uqmrr6, none, ciifinvalid),
    (uqmrr7, none, ciifinvalid), (uqmrr8, none, ciifinvalid)]

/-- The number of a channel: its position in the table. -/
def cigetchannelnum (name : CiIpc) : UInt8 :=
  (ciipcchanfixedinfo.findIdx fun entry => entry.1 = name).toUInt8

/-- The IPC usage of a channel number, if the table has such a channel. -/
def cigetifusetype (channel : UInt8) : Option CiIpcIfUseTyp :=
  (ciipcchanfixedinfo[channel.toNat]?).map fun entry => entry.2.2

/-- The number of a request and response channel. -/
structure CiRrChannel where
  channel : UInt8
  cirr : cigetifusetype channel = some cirr
  deriving DecidableEq

/-- The numbers of the notification channels, in table order. -/
def cigetnotifchannums : List UInt8 :=
  (ciipcchanfixedinfo.filter fun entry => entry.2.2 = cinotif).map
    fun entry => cigetchannelnum entry.1

end Ci

end SierraSdk
