import SierraSdk.Qm.ControlBlock

/-!
# The request parser

Before a request goes to the modem, `qmparser` looks into the messages of two services. In
the WDS service it keeps track of the current WDS client: a request to set the IP family
makes the IPv4 or IPv6 client of its instance the current one, three other messages leave
the current client as it is, and all remaining ones select a client of their instance by the
IP family in force. In the DMS service it notes that a firmware download was requested.

`wdsChoice` is what a WDS request selects, if anything; all other parts of the control block
but the IP family and the firmware data stay as they are.
-/

namespace SierraSdk

namespace Qm

open Am

def eQMI_WDS_START_NET : UInt16 := 32
def eQMI_WDS_STOP_NET : UInt16 := 33
def eQMI_WDS_GET_SETTINGS : UInt16 := 45
def eQMI_WDS_SET_IP_FAMILY : UInt16 := 77
def eQMI_DMS_SET_FIRMWARE_ID : UInt16 := 62
def eQMI_DMS_SET_FIRMWARE_PREF : UInt16 := 72

/-- The IPv4 client of an instance, with the client of the last instance for all others. -/
def wdsClientOf (instanceid : UInt8) : QmiClient :=
  if h : instanceid.toNat < 7 then .wds ⟨instanceid.toNat, by omega⟩ else .wds 7

/-- The IPv6 client of an instance, with the client of the last instance for all others. -/
def wdsV6ClientOf (instanceid : UInt8) : QmiClient :=
  if h : instanceid.toNat < 7 then .wdsV6 ⟨instanceid.toNat, by omega⟩ else .wdsV6 7

/-- The IP family preference in a request to set it: the value of the first TLV. -/
def ipFamilyPreference (pmsg : List UInt8) : UInt8 := pmsg.getD 7 0

/-- Set the current WDS client and the IP family of a request to set the IP family. For the
last instance both families select its IPv6 client. -/
def psrwds_setipfamily (s : QmTcb) (instanceid : UInt8) (pmsg : List UInt8) : QmTcb :=
  if ipFamilyPreference pmsg = 4 then
    { s with
      activewdsclient :=
        if instanceid.toNat < 7 then wdsClientOf instanceid else .wdsV6 7
      activeHandle := 4 }
  else if ipFamilyPreference pmsg = 6 then
    { s with activewdsclient := wdsV6ClientOf instanceid, activeHandle := 6 }
  else s

/-- The parser of the WDS service. -/
def qmparserwds (s : QmTcb) (instanceid : UInt8) (pmsg : List UInt8) : QmTcb :=
  let msgid := piget16 pmsg 0
  if msgid = eQMI_WDS_SET_IP_FAMILY then psrwds_setipfamily s instanceid pmsg
  else if msgid = eQMI_WDS_START_NET ∨ msgid = eQMI_WDS_STOP_NET ∨
      msgid = eQMI_WDS_GET_SETTINGS then s
  else if s.activeHandle = 6 then { s with activewdsclient := wdsV6ClientOf instanceid }
  else { s with activewdsclient := wdsClientOf instanceid }

/-- The parser of the DMS service. -/
def qmparserdms (s : QmTcb) (pmsg : List UInt8) : QmTcb :=
  let msgid := piget16 pmsg 0
  if msgid = eQMI_DMS_SET_FIRMWARE_PREF ∨ msgid = eQMI_DMS_SET_FIRMWARE_ID then
    { s with fms_data := { s.fms_data with fw_download_requested := true } }
  else s

/-- Parse a request of a service. -/
def qmparser (s : QmTcb) (instanceid : UInt8) (svc : EQmiService) (pmsg : List UInt8) :
    QmTcb :=
  match svc with
  | .wds => qmparserwds s instanceid pmsg
  | .dms => qmparserdms s pmsg
  | _ => s

/-- The WDS client that a WDS request makes the current one, if it does. -/
def wdsChoice (activeHandle : ℕ) (instanceid : UInt8) (pmsg : List UInt8) :
    Option QmiClient :=
  let msgid := piget16 pmsg 0
  if msgid = eQMI_WDS_SET_IP_FAMILY then
    if ipFamilyPreference pmsg = 4 then
      some (if instanceid.toNat < 7 then wdsClientOf instanceid else .wdsV6 7)
    else if ipFamilyPreference pmsg = 6 then some (wdsV6ClientOf instanceid)
    else none
  else if msgid = eQMI_WDS_START_NET ∨ msgid = eQMI_WDS_STOP_NET ∨
      msgid = eQMI_WDS_GET_SETTINGS then none
  else if activeHandle = 6 then some (wdsV6ClientOf instanceid)
  else some (wdsClientOf instanceid)

/-- The parser changes the current WDS client, the IP family and the firmware data only. -/
theorem qmparser_frame (s : QmTcb) (instanceid : UInt8) (svc : EQmiService)
    (pmsg : List UInt8) :
    qmparser s instanceid svc pmsg =
      { s with
        activewdsclient := (qmparser s instanceid svc pmsg).activewdsclient
        activeHandle := (qmparser s instanceid svc pmsg).activeHandle
        fms_data := (qmparser s instanceid svc pmsg).fms_data } := by
  cases svc with
  | wds =>
      simp only [qmparser, qmparserwds, psrwds_setipfamily]
      split_ifs <;> rfl
  | dms =>
      simp only [qmparser, qmparserdms]
      split_ifs <;> rfl
  | _ => rfl

section Frame

variable (s : QmTcb) (instanceid : UInt8) (svc : EQmiService) (pmsg : List UInt8)

@[simp] theorem qmparser_qmbusy : (qmparser s instanceid svc pmsg).qmbusy = s.qmbusy := by
  rw [qmparser_frame]

@[simp] theorem qmparser_qmipcchannel :
    (qmparser s instanceid svc pmsg).qmipcchannel = s.qmipcchannel := by
  rw [qmparser_frame]

@[simp] theorem qmparser_qmiclients :
    (qmparser s instanceid svc pmsg).qmiclients = s.qmiclients := by
  rw [qmparser_frame]

@[simp] theorem qmparser_qmtxpool :
    (qmparser s instanceid svc pmsg).qmtxpool = s.qmtxpool := by
  rw [qmparser_frame]

@[simp] theorem qmparser_qmtxsmlpool :
    (qmparser s instanceid svc pmsg).qmtxsmlpool = s.qmtxsmlpool := by
  rw [qmparser_frame]

end Frame

/-- A WDS request selects its choice, or leaves the current WDS client. -/
theorem qmparser_wds_activewdsclient (s : QmTcb) (instanceid : UInt8) (pmsg : List UInt8) :
    (qmparser s instanceid .wds pmsg).activewdsclient =
      (wdsChoice s.activeHandle instanceid pmsg).getD s.activewdsclient := by
  simp only [qmparser, qmparserwds, psrwds_setipfamily, wdsChoice]
  split_ifs <;> rfl

theorem wdsClientOf_eq {instanceid : UInt8} (hinst : instanceid.toNat < 8) :
    wdsClientOf instanceid = .wds ⟨instanceid.toNat, hinst⟩ := by
  unfold wdsClientOf
  split_ifs with h7
  · rfl
  · have heq : instanceid.toNat = 7 := by omega
    simp [heq]

theorem wdsV6ClientOf_eq {instanceid : UInt8} (hinst : instanceid.toNat < 8) :
    wdsV6ClientOf instanceid = .wdsV6 ⟨instanceid.toNat, hinst⟩ := by
  unfold wdsV6ClientOf
  split_ifs with h7
  · rfl
  · have heq : instanceid.toNat = 7 := by omega
    simp [heq]

/-- What a WDS request of an instance selects is a client of that instance. -/
theorem wdsChoice_instance {activeHandle : ℕ} {instanceid : UInt8} {pmsg : List UInt8}
    {client : QmiClient} (hinst : instanceid.toNat < 8)
    (h : wdsChoice activeHandle instanceid pmsg = some client) :
    client = .wds ⟨instanceid.toNat, hinst⟩ ∨ client = .wdsV6 ⟨instanceid.toNat, hinst⟩ := by
  have hlast : ¬ instanceid.toNat < 7 → QmiClient.wdsV6 7 = .wdsV6 ⟨instanceid.toNat, hinst⟩ := by
    intro h7
    have heq : instanceid.toNat = 7 := by omega
    simp [heq]
  rw [← wdsClientOf_eq hinst, ← wdsV6ClientOf_eq hinst]
  simp only [wdsChoice] at h
  split_ifs at h with _ _ h7 <;> obtain rfl := Option.some.inj h
  · exact .inl rfl
  · exact .inr ((hlast h7).trans (wdsV6ClientOf_eq hinst).symm)
  · exact .inr rfl
  · exact .inr rfl
  · exact .inl rfl

end Qm

end SierraSdk
