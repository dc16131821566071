import CameraCentral.Host.Dialogue
import CameraCentral.Host.Event

/-!
# The scanner

The scanner owns the search for cameras.  It knows whether a scan is running, whether one is still
wanted, and which cameras were seen.  What is wanted is decided by explicit starts and stops
alone: after a stop nothing starts by itself, and after a start the scan comes back whenever the
link to a camera is lost.

The list of devices belongs to the explicit starts.  A start that finds no scan running empties
it, whatever the host then says; scans that come back by themselves go on with the old list.
-/

namespace CameraCentral

/-- A camera that was seen. -/
structure Device where
  address : Address
  /-- The name that its first report gave. -/
  name : String
  /-- The strength of the signal in its last report, in dBm. -/
  rssi : Int8
deriving DecidableEq, Repr

/-- The device after a report: a report from its address brings the strength of the signal up to
date. -/
def Device.refresh (device : Device) (report : Advert.Report) : Device :=
  if device.address = report.address then { device with rssi := report.rssi } else device

/-- The search for cameras. -/
structure Scanner where
  params : ScanParams := {}
  /-- A scan is running. -/
  running : Bool := false
  /-- A scan is wanted, so that it comes back by itself. -/
  wanted : Bool := false
  /-- The cameras seen, in the order of their first reports. -/
  devices : List Device := []
deriving DecidableEq, Repr

namespace Scanner

/-! ## Starting and stopping -/

/-- Asks for a scan. -/
def launch (scanner : Scanner) : Dialogue (Scanner × Except Fault Unit) :=
  .ask (.startScan scanner.params) fun
    | .accepted => .done ({ scanner with running := true }, .ok ())
    | .refused why => .done (scanner, .error (.host why))

/-- Starts a scan because someone asked for it.  A scan that is running goes on. -/
def start (scanner : Scanner) : Dialogue (Scanner × Except Fault Unit) :=
  if scanner.running then .done ({ scanner with wanted := true }, .ok ())
  else launch { scanner with wanted := true, devices := [] }

/-- Has a scan come back by itself, without asking for one now. -/
def want (scanner : Scanner) : Scanner := { scanner with wanted := true }

/-- Breaks the scan off, so that a connection can be made.  It is still wanted as before. -/
def cancel (scanner : Scanner) : Dialogue (Scanner × Except Fault Unit) :=
  .ask .cancelScan fun
    | .accepted => .done ({ scanner with running := false }, .ok ())
    | .refused why => .done (scanner, .error (.host why))

/-- Stops scanning because someone asked for it. -/
def stop (scanner : Scanner) : Dialogue (Scanner × Except Fault Unit) :=
  if scanner.running then cancel { scanner with wanted := false }
  else .done ({ scanner with wanted := false }, .ok ())

/-- The scan ended by itself. -/
def complete (scanner : Scanner) : Scanner := { scanner with running := false }

/-! ## Coming back -/

/-- What to do once a camera was lost or could not be reached: scan again after a pause, if a scan
is wanted and none is running. -/
def restartReaction (scanner : Scanner) : Reaction :=
  if Settings.autoRescan ∧ scanner.wanted ∧ ¬ scanner.running then
    .restartScanAfter Settings.scanRestartDelayMs
  else .nothing

/-- Without a scan being wanted there is nothing to do. -/
theorem restartReaction_of_unwanted {scanner : Scanner} (unwanted : ¬ scanner.wanted) :
    scanner.restartReaction = .nothing := by
  rw [restartReaction, if_neg]
  rintro ⟨-, wanted, -⟩
  exact unwanted wanted

/-- The pause is over: tries once to scan again, unless that has become pointless. -/
def resume (scanner : Scanner) : Dialogue Scanner :=
  if scanner.wanted ∧ ¬ scanner.running then Prod.fst <$> scanner.launch
  else .done scanner

/-! ## The list of devices -/

/-- Whether the device with this address is in the list. -/
def Knows (scanner : Scanner) (address : Address) : Prop :=
  ∃ device ∈ scanner.devices, device.address = address

instance (scanner : Scanner) (address : Address) : Decidable (scanner.Knows address) :=
  inferInstanceAs (Decidable (∃ device ∈ scanner.devices, device.address = address))

/-- Takes down a report, and says whether it added a device.  A full list stays as it is, but
devices in it are still brought up to date. -/
def record (scanner : Scanner) (report : Advert.Report) : Scanner × Bool :=
  if scanner.Knows report.address then
    ({ scanner with devices := scanner.devices.map (·.refresh report) }, false)
  else if scanner.devices.length < Settings.maxDiscovered then
    ({ scanner with devices := scanner.devices ++ [⟨report.address, report.name, report.rssi⟩] },
      true)
  else (scanner, false)

/-- Taking down a report neither starts a scan nor ends one. -/
@[simp] theorem running_record (scanner : Scanner) (report : Advert.Report) :
    (scanner.record report).1.running = scanner.running := by
  unfold record
  split
  · rfl
  · split <;> rfl

/-- Taking down a report does not make a scan wanted. -/
@[simp] theorem wanted_record (scanner : Scanner) (report : Advert.Report) :
    (scanner.record report).1.wanted = scanner.wanted := by
  unfold record
  split
  · rfl
  · split <;> rfl

/-- The names of the devices in the list, in order. -/
def names (scanner : Scanner) : List String := scanner.devices.map Device.name

end Scanner

end CameraCentral
