import CameraCentral.Proofs.History
import CameraCentral.Proofs.Host.Lockstep
import CameraCentral.Scanner
import Mathlib.Data.List.Induction

/-!
# The list of cameras that were seen

The scanner keeps a list of cameras, and a history of what it was told determines the list.  What
counts are the reports taken down since the list was emptied last (`Scanner.reported`), which is
when a scan was asked for while none was running.  `Scanner.Lists` says what the list is for given
reports: the first distinct addresses, each with the name that it had first and the strength that
its signal had last.

One report more leaves such a list one (`Lists.record`), and nothing else that the scanner is told
changes the list (`Turn.devices_kept`).  So the list is exact at every moment, whatever the host
answers (`devices_exact`).
-/

namespace CameraCentral

/-- With an element more at the end of a list, the distinct elements are the same if it was there
before, and one more if not. -/
theorem eraseDups_concat {α : Type} [DecidableEq α] (l : List α) (a : α) :
    (l ++ [a]).eraseDups = if a ∈ l then l.eraseDups else l.eraseDups ++ [a] := by
  rw [List.eraseDups_append]
  by_cases h : a ∈ l
  · have hrest : [a].removeAll l = [] := by simp [List.removeAll, h]
    rw [if_pos h, hrest, List.eraseDups_nil, List.append_nil]
  · have hrest : [a].removeAll l = [a] := by simp [List.removeAll, h]
    rw [if_neg h, hrest]
    rfl

namespace Scanner

/-! ## What the list is -/

/-- A device is as these reports tell: it has the name of the first report from its address, and the
strength of the last. -/
structure Told (reports : List Advert.Report) (device : Device) : Prop where
  name : ∃ first, reports.find? (·.address = device.address) = some first ∧
    device.name = first.name
  rssi : ∃ last, (reports.filter (·.address = device.address)).getLast? = some last ∧
    device.rssi = last.rssi

/-- The list of devices is what it should be for these reports. -/
structure Lists (devices : List Device) (reports : List Advert.Report) : Prop where
  addresses : devices.map (·.address) =
    (reports.map (·.address)).eraseDups.take Settings.maxDiscovered
  told : ∀ device ∈ devices, Told reports device

section Lists

variable {scanner : Scanner} {reports : List Advert.Report} {report : Advert.Report}
  {devices : List Device} {device : Device}

/-- A device is the same after a report from another address. -/
theorem Told.other (told : Told reports device) (other : device.address ≠ report.address) :
    Told (reports ++ [report]) device := by
  obtain ⟨⟨first, hfirst, hname⟩, last, hlast, hrssi⟩ := told
  refine ⟨⟨first, by rw [List.find?_append, hfirst]; rfl, hname⟩, last, ?_, hrssi⟩
  have hnone : [report].filter (·.address = device.address) = [] := by simp [Ne.symm other]
  rw [List.filter_append, hnone, List.append_nil, hlast]

/-- A device is brought up to date with a report, whether it is from its address or not. -/
theorem Told.refresh (told : Told reports device) :
    Told (reports ++ [report]) (device.refresh report) := by
  unfold Device.refresh
  by_cases same : device.address = report.address
  · obtain ⟨first, hfirst, hname⟩ := told.name
    have hone : [report].filter (·.address = device.address) = [report] := by simp [same]
    rw [if_pos same]
    refine ⟨⟨first, by rw [List.find?_append, hfirst]; rfl, hname⟩, report, ?_, rfl⟩
    rw [List.filter_append, hone, List.getLast?_concat]
  · rw [if_neg same]
    exact told.other same

/-- A device is as its first report tells. -/
theorem told_of_new (new : ∀ r ∈ reports, r.address ≠ report.address) :
    Told (reports ++ [report]) ⟨report.address, report.name, report.rssi⟩ := by
  have hnone : reports.find? (·.address = report.address) = none :=
    List.find?_eq_none.2 fun r hr => by simpa using new r hr
  have hone : [report].filter (·.address = report.address) = [report] := by simp
  refine ⟨⟨report, ?_, rfl⟩, report, ?_, rfl⟩
  · rw [List.find?_append, hnone]
    simp
  · rw [List.filter_append, hone, List.getLast?_concat]

/-- Nothing is in the list before the first report. -/
theorem Lists.nil : Lists [] [] := ⟨rfl, by simp⟩

/-- There are as many devices as distinct addresses, or as many as there is room for. -/
theorem Lists.length_eq (lists : Lists devices reports) :
    devices.length = min Settings.maxDiscovered (reports.map (·.address)).eraseDups.length := by
  rw [← List.length_take, ← lists.addresses, List.length_map]

/-- While there is room the list has all addresses. -/
theorem Lists.addresses_of_room (lists : Lists devices reports)
    (room : devices.length < Settings.maxDiscovered) :
    devices.map (·.address) = (reports.map (·.address)).eraseDups := by
  have hlength := lists.length_eq
  rw [lists.addresses, List.take_of_length_le (by omega)]

/-- The address of a device does not change. -/
theorem map_address_refresh (devices : List Device) (report : Advert.Report) :
    (devices.map (·.refresh report)).map (·.address) = devices.map (·.address) := by
  rw [List.map_map]
  refine List.map_congr_left fun device _ => ?_
  unfold Device.refresh
  rw [Function.comp_apply]
  split <;> rfl

/-- A report from a device in the list brings the list up to date. -/
theorem Lists.refresh (lists : Lists devices reports)
    (known : report.address ∈ devices.map (·.address)) :
    Lists (devices.map (·.refresh report)) (reports ++ [report]) := by
  have hseen : report.address ∈ reports.map (·.address) := by
    rw [lists.addresses] at known
    exact List.mem_eraseDups.1 (List.mem_of_mem_take known)
  refine ⟨?_, List.forall_mem_map.2 fun device hdevice => (lists.told device hdevice).refresh⟩
  rw [map_address_refresh, lists.addresses, List.map_append, List.map_singleton,
    eraseDups_concat, if_pos hseen]

/-- A report from an address that is not in the list says nothing about the devices in it. -/
theorem Lists.told_concat (lists : Lists devices reports)
    (unknown : report.address ∉ devices.map (·.address)) :
    ∀ device ∈ devices, Told (reports ++ [report]) device := by
  intro device hdevice
  refine (lists.told device hdevice).other fun heq => ?_
  exact unknown (List.mem_map.2 ⟨device, hdevice, heq⟩)

/-- A report from a new address adds a device where there is room. -/
theorem Lists.add (lists : Lists devices reports)
    (unknown : report.address ∉ devices.map (·.address))
    (room : devices.length < Settings.maxDiscovered) :
    Lists (devices ++ [⟨report.address, report.name, report.rssi⟩]) (reports ++ [report]) := by
  have haddresses := lists.addresses_of_room room
  have hunseen : report.address ∉ reports.map (·.address) := by
    rwa [haddresses, List.mem_eraseDups] at unknown
  refine ⟨?_, List.forall_mem_append.2 ⟨lists.told_concat unknown, ?_⟩⟩
  · rw [List.map_append, haddresses, List.map_append, List.map_singleton, List.map_singleton,
      eraseDups_concat, if_neg hunseen, List.take_of_length_le]
    rw [List.length_append, ← haddresses, List.length_map]
    exact room
  · refine List.forall_mem_singleton.2 (told_of_new fun r hr heq => ?_)
    exact hunseen (List.mem_map.2 ⟨r, hr, heq⟩)

/-- A report from an address that is not in a full list changes nothing. -/
theorem Lists.full (lists : Lists devices reports)
    (unknown : report.address ∉ devices.map (·.address))
    (full : ¬ devices.length < Settings.maxDiscovered) : Lists devices (reports ++ [report]) := by
  refine ⟨?_, lists.told_concat unknown⟩
  have hlength := lists.length_eq
  rw [lists.addresses, List.map_append, List.map_singleton, eraseDups_concat]
  split
  · rfl
  · rw [List.take_append_of_le_length (by omega)]

/-- Everything that taking down a report can come to. -/
theorem record_cases (scanner : Scanner) (report : Advert.Report) :
    (report.address ∈ scanner.devices.map (·.address) ∧
        (scanner.record report).1.devices = scanner.devices.map (·.refresh report) ∧
        (scanner.record report).2 = false) ∨
      (report.address ∉ scanner.devices.map (·.address) ∧
        scanner.devices.length < Settings.maxDiscovered ∧
        (scanner.record report).1.devices =
          scanner.devices ++ [⟨report.address, report.name, report.rssi⟩] ∧
        (scanner.record report).2 = true) ∨
      report.address ∉ scanner.devices.map (·.address) ∧
        ¬ scanner.devices.length < Settings.maxDiscovered ∧
        (scanner.record report).1.devices = scanner.devices ∧
        (scanner.record report).2 = false := by
  have hknows : report.address ∈ scanner.devices.map (·.address) ↔
      scanner.Knows report.address := List.mem_map
  unfold Scanner.record
  by_cases known : scanner.Knows report.address
  · rw [if_pos known]
    exact .inl ⟨hknows.2 known, rfl, rfl⟩
  · rw [if_neg known]
    by_cases room : scanner.devices.length < Settings.maxDiscovered
    · rw [if_pos room]
      exact .inr (.inl ⟨mt hknows.1 known, room, rfl, rfl⟩)
    · rw [if_neg room]
      exact .inr (.inr ⟨mt hknows.1 known, room, rfl, rfl⟩)

/-- **The list is exact after one report more.** -/
theorem Lists.record (lists : Lists scanner.devices reports) (report : Advert.Report) :
    Lists (scanner.record report).1.devices (reports ++ [report]) := by
  rcases scanner.record_cases report with ⟨known, hdevices, -⟩ | ⟨unknown, room, hdevices, -⟩ |
    ⟨unknown, full, hdevices, -⟩
  · rw [hdevices]
    exact lists.refresh known
  · rw [hdevices]
    exact lists.add unknown room
  · rw [hdevices]
    exact lists.full unknown full

/-- A report is said to add a device exactly if it does, and if not the same addresses are in the
list as before. -/
theorem record_adds (scanner : Scanner) (report : Advert.Report) :
    ((scanner.record report).2 = true ↔ (scanner.record report).1.devices =
        scanner.devices ++ [⟨report.address, report.name, report.rssi⟩]) ∧
      ((scanner.record report).2 = false ↔
        (scanner.record report).1.devices.map (·.address) = scanner.devices.map (·.address)) := by
  have hlonger : ∀ {devices : List Device} {device : Device},
      devices.map (·.address) = scanner.devices.map (·.address) →
        devices ≠ scanner.devices ++ [device] := by
    rintro devices device hsame rfl
    simpa using congrArg List.length hsame
  rcases scanner.record_cases report with ⟨-, hdevices, hadded⟩ | ⟨-, -, hdevices, hadded⟩ |
    ⟨-, -, hdevices, hadded⟩
  · have hsame := map_address_refresh scanner.devices report
    rw [hdevices, hadded]
    exact ⟨iff_of_false Bool.false_ne_true (hlonger hsame), iff_of_true rfl hsame⟩
  · rw [hdevices, hadded]
    exact ⟨iff_of_true rfl rfl, iff_of_false Bool.false_ne_true.symm fun hsame => hlonger hsame rfl⟩
  · rw [hdevices, hadded]
    exact ⟨iff_of_false Bool.false_ne_true (hlonger rfl), iff_of_true rfl rfl⟩

/-- A report adds a device if its address is one of the first ones and was not seen before. -/
theorem Lists.record_true_iff (lists : Lists scanner.devices reports) (report : Advert.Report) :
    (scanner.record report).2 = true ↔ report.address ∉ reports.map (·.address) ∧
      (reports.map (·.address)).eraseDups.length < Settings.maxDiscovered := by
  have hlength := lists.length_eq
  rcases scanner.record_cases report with ⟨known, -, hadded⟩ | ⟨unknown, room, -, hadded⟩ |
    ⟨-, full, -, hadded⟩
  · rw [lists.addresses] at known
    have hseen := List.mem_eraseDups.1 (List.mem_of_mem_take known)
    simp [hadded, hseen]
  · rw [lists.addresses_of_room room, List.mem_eraseDups] at unknown
    exact iff_of_true hadded ⟨unknown, by omega⟩
  · have hfull : ¬ (reports.map (·.address)).eraseDups.length < Settings.maxDiscovered := by omega
    simp [hadded, hfull]

end Lists

/-! ## What the scanner can be told -/

/-- What the scanner can be asked, or told. -/
inductive Call where
  | start
  | stop
  | cancel
  | want
  | complete
  | resume
  | record (report : Advert.Report)
deriving DecidableEq, Repr

/-- What a call returns: the result of what was asked for, or whether a report added a device. -/
inductive Response where
  | nothing
  | result (result : Except Fault Unit)
  | recorded (added : Bool)

/-- The dialogue that carries a call out. -/
def dialogue (scanner : Scanner) : Call → Dialogue (Scanner × Response)
  | .start => (fun done => (done.1, .result done.2)) <$> scanner.start
  | .stop => (fun done => (done.1, .result done.2)) <$> scanner.stop
  | .cancel => (fun done => (done.1, .result done.2)) <$> scanner.cancel
  | .want => .done (scanner.want, .nothing)
  | .complete => .done (scanner.complete, .nothing)
  | .resume => (fun resumed => (resumed, .nothing)) <$> scanner.resume
  | .record report =>
    .done ((scanner.record report).1, .recorded (scanner.record report).2)

/-- One call of the scanner, carried out against some host. -/
abbrev Turn := Dialogue.Turn dialogue

/-- A scan is asked for while none is running, whether the host takes it on or not. -/
def Turn.Empties (turn : Turn) : Prop := turn.call = .start ∧ turn.before.running = false

instance : DecidablePred Turn.Empties := fun turn =>
  inferInstanceAs (Decidable (turn.call = .start ∧ turn.before.running = false))

/-- The report that is taken down in a turn, if one is. -/
def Call.report? : Call → Option Advert.Report
  | record report => some report
  | _ => none

/-- The reports taken down since a scan was last asked for while none was running. -/
def reported (history : List Turn) : List Advert.Report :=
  history.foldl
    (fun reports turn => if turn.Empties then [] else reports ++ turn.call.report?.toList) []

theorem reported_concat (history : List Turn) (turn : Turn) :
    reported (history ++ [turn]) =
      if turn.Empties then [] else reported history ++ turn.call.report?.toList := by
  simp [reported]

variable {scanner scanner' : Scanner} {exchanges : List Exchange} {result : Except Fault Unit}
  {turn : Turn}

/-- To ask for a scan changes no device. -/
theorem devices_of_launch (h : scanner.launch.Yields exchanges (scanner', result)) :
    scanner'.devices = scanner.devices := by
  rcases h.ask_cases with ⟨rest, -, hrest⟩ | ⟨why, rest, -, hrest⟩
  · obtain ⟨-, hdone⟩ := Dialogue.yields_done_iff.1 hrest
    cases hdone
    rfl
  · obtain ⟨-, hdone⟩ := Dialogue.yields_done_iff.1 hrest
    cases hdone
    rfl

/-- To break a scan off changes no device. -/
theorem devices_of_cancel (h : scanner.cancel.Yields exchanges (scanner', result)) :
    scanner'.devices = scanner.devices := by
  rcases h.ask_cases with ⟨rest, -, hrest⟩ | ⟨why, rest, -, hrest⟩
  · obtain ⟨-, hdone⟩ := Dialogue.yields_done_iff.1 hrest
    cases hdone
    rfl
  · obtain ⟨-, hdone⟩ := Dialogue.yields_done_iff.1 hrest
    cases hdone
    rfl

/-- To start empties the list, unless a scan is running. -/
theorem devices_of_start (h : scanner.start.Yields exchanges (scanner', result)) :
    scanner'.devices = if scanner.running then scanner.devices else [] := by
  unfold start at h
  by_cases running : scanner.running
  · rw [if_pos running] at h
    obtain ⟨-, hdone⟩ := Dialogue.yields_done_iff.1 h
    cases hdone
    exact (if_pos running).symm
  · rw [if_neg running] at h
    rw [if_neg running, devices_of_launch h]

/-- To stop changes no device. -/
theorem devices_of_stop (h : scanner.stop.Yields exchanges (scanner', result)) :
    scanner'.devices = scanner.devices := by
  unfold stop at h
  split at h
  · rw [devices_of_cancel h]
  · obtain ⟨-, hdone⟩ := Dialogue.yields_done_iff.1 h
    cases hdone
    rfl

/-- A scan that comes back by itself goes on with the old list. -/
theorem devices_of_resume (h : scanner.resume.Yields exchanges scanner') :
    scanner'.devices = scanner.devices := by
  unfold resume at h
  split at h
  · obtain ⟨⟨launched, result⟩, hlaunch, rfl⟩ := Dialogue.yields_map_iff.1 h
    exact devices_of_launch hlaunch
  · obtain ⟨-, rfl⟩ := Dialogue.yields_done_iff.1 h
    rfl

/-- The list is emptied when a scan is asked for while none is running. -/
theorem Turn.devices_of_empties (empties : turn.Empties) : turn.after.devices = [] := by
  obtain ⟨scanner, call, exchanges, response, scanner', yields⟩ := turn
  obtain ⟨rfl, idle⟩ := empties
  obtain ⟨⟨middle, result⟩, hstart, hdone⟩ := Dialogue.yields_map_iff.1 yields
  cases hdone
  rw [devices_of_start hstart, if_neg (Bool.eq_false_iff.1 idle)]

/-- What takes down a report is said of it. -/
theorem Turn.of_record {report : Advert.Report} (records : turn.call = .record report) :
    turn.after = (turn.before.record report).1 ∧
      turn.response = .recorded (turn.before.record report).2 := by
  obtain ⟨scanner, call, exchanges, response, scanner', yields⟩ := turn
  obtain rfl := records
  obtain ⟨-, hdone⟩ := Dialogue.yields_done_iff.1 yields
  cases hdone
  exact ⟨rfl, rfl⟩

/-- Nothing but reports, and a scan that is asked for while none is running, changes the list. -/
theorem Turn.devices_kept (kept : ¬ turn.Empties) (silent : turn.call.report? = none) :
    turn.after.devices = turn.before.devices := by
  obtain ⟨scanner, call, exchanges, response, scanner', yields⟩ := turn
  cases call with
  | record report => cases silent
  | want | complete =>
    obtain ⟨-, hdone⟩ := Dialogue.yields_done_iff.1 yields
    cases hdone
    rfl
  | start =>
    obtain ⟨⟨middle, result⟩, hstart, hdone⟩ := Dialogue.yields_map_iff.1 yields
    cases hdone
    have running : scanner.running = true := by
      cases hrunning : scanner.running with
      | true => rfl
      | false => exact absurd ⟨rfl, hrunning⟩ kept
    rw [devices_of_start hstart, if_pos running]
  | stop =>
    obtain ⟨⟨middle, result⟩, hstop, hdone⟩ := Dialogue.yields_map_iff.1 yields
    cases hdone
    exact devices_of_stop hstop
  | cancel =>
    obtain ⟨⟨middle, result⟩, hcancel, hdone⟩ := Dialogue.yields_map_iff.1 yields
    cases hdone
    exact devices_of_cancel hcancel
  | resume =>
    obtain ⟨middle, hresume, hdone⟩ := Dialogue.yields_map_iff.1 yields
    cases hdone
    exact devices_of_resume hresume

/-! ## The names -/

/-- The names of the devices, copied one after the other into a list with as much room. -/
def copyNames (scanner : Scanner) : List String :=
  scanner.devices.foldl
    (fun names device =>
      if names.length < Settings.maxDiscovered then names ++ [device.name] else names) []

/-- No name gets lost where there is room for the devices. -/
theorem copyNames_eq (room : scanner.devices.length ≤ Settings.maxDiscovered) :
    scanner.copyNames = scanner.names := by
  have hcopy : ∀ (devices : List Device) (names : List String),
      names.length + devices.length ≤ Settings.maxDiscovered →
        devices.foldl (fun names device =>
          if names.length < Settings.maxDiscovered then names ++ [device.name] else names) names =
            names ++ devices.map (·.name) := by
    intro devices
    induction devices with
    | nil => simp
    | cons device devices ih =>
      intro names hroom
      rw [List.length_cons] at hroom
      rw [List.foldl_cons, if_pos (by omega), ih _ (by simp; omega), List.append_assoc,
        List.singleton_append, List.map_cons]
  exact hcopy scanner.devices [] (by simpa using room)

/-! ## Runs -/

/-- A turn keeps the list exact. -/
theorem Turn.lists {past : List Turn} (lists : Lists turn.before.devices (reported past)) :
    Lists turn.after.devices (reported (past ++ [turn])) := by
  rw [reported_concat]
  by_cases empties : turn.Empties
  · rw [if_pos empties, turn.devices_of_empties empties]
    exact .nil
  rw [if_neg empties]
  cases hreport : turn.call.report? with
  | none =>
    rw [turn.devices_kept empties hreport, Option.toList_none, List.append_nil]
    exact lists
  | some report =>
    have records : turn.call = .record report := by
      cases hcall : turn.call with
      | record other =>
        rw [hcall] at hreport
        rw [Option.some.inj hreport]
      | _ =>
        rw [hcall] at hreport
        cases hreport
    rw [(turn.of_record records).1]
    exact lists.record report

/-- The list is exact in a run, at its end and before each of its turns. -/
theorem lists_of_turns {params : ScanParams} {history : List Turn}
    (turns : Dialogue.Turns { params } history scanner) :
    Lists scanner.devices (reported history) ∧
      Throughout (fun past turn => Lists turn.before.devices (reported past)) history := by
  induction history using List.reverseRecOn generalizing scanner with
  | nil =>
    obtain rfl : scanner = { params } := turns
    exact ⟨.nil, throughout_nil _⟩
  | append_singleton past turn ih =>
    obtain ⟨earlier, rfl⟩ := Dialogue.turns_concat_iff.1 turns
    obtain ⟨lists, throughout⟩ := ih earlier
    exact ⟨turn.lists lists, throughout_concat_iff.2 ⟨throughout, lists⟩⟩

/-- **The list of devices is exact.**  Whatever a new scanner is told, and whatever the host
answers, its list holds the first distinct addresses of the reports taken down since a scan was last
asked for while none was running, in the order in which they were seen, as many as there is room
for.  Each device has the name that its first report gave and the strength of its last report, and
its name is in the same place in the list of names, of which none gets lost when they are copied.

In each turn, a report is said to add a device exactly if it does, which is when its address is new
and there is room for it; otherwise the same addresses are in the list as before.  And nothing but
reports, and to ask for a scan while none is running, changes the list. -/
theorem devices_exact {params : ScanParams} {history : List Turn}
    (turns : Dialogue.Turns { params } history scanner) :
    Lists scanner.devices (reported history) ∧
    (scanner.names = scanner.devices.map (·.name) ∧ scanner.copyNames = scanner.names) ∧
    Throughout (fun past turn =>
      (∀ report, turn.call = .record report → ∃ added, turn.response = .recorded added ∧
        (added = true ↔ turn.after.devices =
          turn.before.devices ++ [⟨report.address, report.name, report.rssi⟩]) ∧
        (added = true ↔ report.address ∉ (reported past).map (·.address) ∧
          ((reported past).map (·.address)).eraseDups.length < 20) ∧
        (added = false ↔
          turn.after.devices.map (·.address) = turn.before.devices.map (·.address))) ∧
      (turn.call.report? = none → ¬ turn.Empties →
        turn.after.devices = turn.before.devices)) history := by
  obtain ⟨lists, throughout⟩ := lists_of_turns turns
  refine ⟨lists, ⟨rfl, copyNames_eq (lists.length_eq ▸ Nat.min_le_left _ _)⟩, ?_⟩
  intro past turn later heq
  have hbefore : Lists turn.before.devices (reported past) := throughout past turn later heq
  refine ⟨fun report records => ?_, fun silent kept => turn.devices_kept kept silent⟩
  obtain ⟨hafter, hresponse⟩ := turn.of_record records
  obtain ⟨hadds, hkeeps⟩ := turn.before.record_adds report
  rw [hafter]
  exact ⟨_, hresponse, hadds, hbefore.record_true_iff report, hkeeps⟩

/-- The report of a camera that tells its name. -/
def near : Advert.Report :=
  .receive (.ofBytes .publicDevice 1 0 0 0 0 0) (-60)
    [0x03, 0x03, 0xA6, 0xFE, 0x07, 0x09, 0x47, 0x6F, 0x50, 0x72, 0x6F, 0x31]

/-- The report of a device that tells nothing. -/
def far : Advert.Report := .receive (.ofBytes .publicDevice 2 0 0 0 0 0) (-70) []

/-- A device is reported before a scan is asked for.  Then two are reported, and the first of them
once more with a weak signal, between scans that end and come back. -/
def searching : List Call :=
  [.record far, .start, .record near, .start, .cancel, .record far, .resume, .complete,
    .record (.receive near.address (-80) []), .stop]

/-- The two devices are in the list in the order of their reports since the scan was asked for. -/
theorem devices_exact_searching :
    let scanner := Dialogue.grantedEnd dialogue {} searching
    scanner.devices.map (·.address) = [near.address, far.address] ∧
      ∃ device ∈ scanner.devices, device.address = near.address ∧ device.name = near.name ∧
        device.rssi = -80 := by
  intro scanner
  have turns : Dialogue.Turns { params := {} } (Dialogue.grantedTurns dialogue {} searching)
    scanner := Dialogue.turns_granted _ _
  obtain ⟨lists, -, -⟩ := devices_exact turns
  have hreported : reported (Dialogue.grantedTurns dialogue {} searching) =
      [near, far, .receive near.address (-80) []] := by rfl
  rw [hreported] at lists
  have haddresses : scanner.devices.map (·.address) = [near.address, far.address] :=
    lists.addresses.trans (by decide)
  obtain ⟨device, hdevice, haddress⟩ : ∃ device ∈ scanner.devices,
      device.address = near.address := List.mem_map.1 (by rw [haddresses]; simp)
  obtain ⟨⟨first, hfirst, hname⟩, last, hlast, hrssi⟩ := lists.told device hdevice
  rw [haddress] at hfirst hlast
  obtain rfl : near = first := Option.some.inj hfirst
  obtain rfl : Advert.Report.receive near.address (-80) [] = last := Option.some.inj hlast
  exact ⟨haddresses, device, hdevice, haddress, hname, hrssi⟩

end Scanner

end CameraCentral
