import CameraCentral.Proofs.Peer.Steps

/-!
# Entries of a database

What it means to enter a finding into a database, told without the tables of bounded length:
`Finding.enter` says where the entry goes, and `Finding.refusal?` which fault there is if it cannot
go there.  `Peer.file_eq` says that filing an entry does the one or ends in the other.
-/

namespace CameraCentral

namespace Table

variable {α : Type} {p : α → Prop} [DecidablePred p] {change : α → Except Fault α}
  {missing : Fault} {table : List α} {entry : α}

/-- Changes the first entry that satisfies `p`, if there is one. -/
def amend (p : α → Prop) [DecidablePred p] (f : α → α) (table : List α) : List α :=
  table.modify (table.findIdx fun entry => p entry) f

theorem amend_cons (f : α → α) (first : α) (table : List α) :
    amend p f (first :: table) =
      if p first then f first :: table else first :: amend p f table := by
  unfold amend
  rw [List.findIdx_cons]
  by_cases h : p first
  · simp [h]
  · simp [h]

/-- What a change of one entry does not touch stays as it is in the whole table. -/
theorem map_amend {β : Type} (f : α → α) (g : α → β) (h : ∀ a, g (f a) = g a) (table : List α) :
    (amend p f table).map g = table.map g := by
  induction table with
  | nil => rfl
  | cons first table ih =>
    rw [amend_cons]
    by_cases hp : p first
    · rw [if_pos hp, List.map_cons, List.map_cons, h]
    · rw [if_neg hp, List.map_cons, List.map_cons, ih]

/-- Without an entry that satisfies `p` there is nothing to change. -/
theorem alterFirst_of_find?_eq_none (h : table.find? (fun entry => p entry) = none) :
    alterFirst p change missing table = .error missing := by
  induction table with
  | nil => rfl
  | cons first table ih =>
    obtain ⟨hp, hrest⟩ : ¬ p first ∧ table.find? (fun entry => p entry) = none := by
      by_cases hp : p first
      · simp [hp] at h
      · exact ⟨hp, by simpa [hp] using h⟩
    rw [alterFirst, if_neg hp, ih hrest]
    rfl

/-- When the first entry that satisfies `p` cannot be changed, that is the fault. -/
theorem alterFirst_of_error {why : Fault} (h : table.find? (fun entry => p entry) = some entry)
    (hchange : change entry = .error why) : alterFirst p change missing table = .error why := by
  induction table with
  | nil => cases h
  | cons first table ih =>
    by_cases hp : p first
    · obtain rfl : first = entry := by simpa [hp] using h
      rw [alterFirst, if_pos hp, hchange]
      rfl
    · rw [alterFirst, if_neg hp, ih (by simpa [hp] using h)]
      rfl

/-- When the first entry that satisfies `p` can be changed, it is changed in its place. -/
theorem alterFirst_of_ok {f : α → α} (h : table.find? (fun entry => p entry) = some entry)
    (hchange : change entry = .ok (f entry)) :
    alterFirst p change missing table = .ok (amend p f table) := by
  induction table with
  | nil => cases h
  | cons first table ih =>
    rw [amend_cons]
    by_cases hp : p first
    · obtain rfl : first = entry := by simpa [hp] using h
      rw [alterFirst, if_pos hp, if_pos hp, hchange]
      rfl
    · rw [alterFirst, if_neg hp, if_neg hp, ih (by simpa [hp] using h)]
      rfl

end Table

/-! ## Entering a finding -/

/-- A service with one more characteristic behind the others. -/
def Service.withCharacteristic (service : Service) (decl : CharacteristicDecl) : Service :=
  { service with characteristics := service.characteristics ++ [{ decl with }] }

/-- A characteristic with one more descriptor behind the others. -/
def Characteristic.withDescriptor (characteristic : Characteristic) (descriptor : Descriptor) :
    Characteristic :=
  { characteristic with descriptors := characteristic.descriptors ++ [descriptor] }

/-- A service with one more descriptor under the first characteristic whose value has the handle. -/
def Service.withDescriptor (service : Service) (value : AttHandle) (descriptor : Descriptor) :
    Service :=
  { service with
    characteristics :=
      Table.amend (·.value = value) (·.withDescriptor descriptor) service.characteristics }

/-- The services of a database after a finding was entered: a service goes behind the others, a
characteristic under the first service that contains both its handles, and a descriptor under the
first characteristic, in the order of the services, whose value has the handle. -/
def Finding.enter (services : List Service) : Finding → List Service
  | .service decl => services ++ [({ decl with } : Service)]
  | .characteristic decl =>
    Table.amend (fun s => s.Contains decl.declaration ∧ s.Contains decl.value)
      (·.withCharacteristic decl) services
  | .descriptor value d =>
    Table.amend (fun s => ∃ c ∈ s.characteristics, c.value = value) (·.withDescriptor value d)
      services
  | .servicesDone _ | .characteristicsDone _ | .descriptorsDone _ => services

/-- Why a finding cannot be entered, if it cannot be: the range of a service is reversed, there is
no service for a characteristic or no characteristic for a descriptor, or the table in which the
entry belongs is full. -/
def Finding.refusal? (services : List Service) : Finding → Option Fault
  | .service decl =>
    if decl.last < decl.first then some (.handleOutOfRange decl.last)
    else if services.length < Settings.maxServices then none
    else some .serviceTableFull
  | .characteristic decl =>
    match services.find? fun s => s.Contains decl.declaration ∧ s.Contains decl.value with
    | none => some (.handleOutOfRange decl.declaration)
    | some s =>
      if s.characteristics.length < Settings.maxCharacteristics then none
      else some .characteristicTableFull
  | .descriptor value _ =>
    match (services.flatMap (·.characteristics)).find? fun c => c.value = value with
    | none => some (.characteristicNotFound value)
    | some c =>
      if c.descriptors.length < Settings.maxDescriptors then none else some .descriptorTableFull
  | .servicesDone _ | .characteristicsDone _ | .descriptorsDone _ => none

namespace Peer

/-- What comes of filing a finding: the fault if it is refused, and otherwise the peer with the
finding entered. -/
def entered (peer : Peer) (finding : Finding) : Except Fault Peer :=
  match finding.refusal? peer.services with
  | some why => .error why
  | none => .ok { peer with services := finding.enter peer.services }

/-- A finding that is refused ends in the fault. -/
theorem entered_of_refused {peer : Peer} {finding : Finding} {why : Fault}
    (h : finding.refusal? peer.services = some why) : peer.entered finding = .error why := by
  rw [entered, h]

/-- A finding that is not refused is entered. -/
theorem entered_of_fits {peer : Peer} {finding : Finding}
    (h : finding.refusal? peer.services = none) :
    peer.entered finding = .ok { peer with services := finding.enter peer.services } := by
  rw [entered, h]

theorem addService_eq_entered (peer : Peer) (decl : ServiceDecl) :
    peer.addService decl = peer.entered (.service decl) := by
  unfold addService Table.push
  by_cases reversed : decl.last < decl.first
  · have refused : (Finding.service decl).refusal? peer.services =
        some (.handleOutOfRange decl.last) := if_pos reversed
    rw [if_pos reversed, entered_of_refused refused]
  · by_cases room : peer.services.length < Settings.maxServices
    · have fits : (Finding.service decl).refusal? peer.services = none := by
        simp [Finding.refusal?, reversed, room]
      rw [if_neg reversed, if_pos room, entered_of_fits fits]
      rfl
    · have refused : (Finding.service decl).refusal? peer.services = some .serviceTableFull := by
        simp [Finding.refusal?, reversed, room]
      rw [if_neg reversed, if_neg room, entered_of_refused refused]
      rfl

theorem addCharacteristic_eq_entered (peer : Peer) (decl : CharacteristicDecl) :
    peer.addCharacteristic decl = peer.entered (.characteristic decl) := by
  unfold addCharacteristic
  cases found : peer.services.find? fun s =>
      s.Contains decl.declaration ∧ s.Contains decl.value with
  | none =>
    have refused : (Finding.characteristic decl).refusal? peer.services =
        some (.handleOutOfRange decl.declaration) := by
      simp only [Finding.refusal?, found]
    rw [Table.alterFirst_of_find?_eq_none found, entered_of_refused refused]
    rfl
  | some service =>
    by_cases room : service.characteristics.length < Settings.maxCharacteristics
    · have hadd : service.add decl = .ok (service.withCharacteristic decl) := by
        rw [Service.add, Table.push, if_pos room]
        rfl
      have fits : (Finding.characteristic decl).refusal? peer.services = none := by
        simp only [Finding.refusal?, found, if_pos room]
      rw [Table.alterFirst_of_ok (f := (·.withCharacteristic decl)) found hadd,
        entered_of_fits fits]
      rfl
    · have hadd : service.add decl = .error .characteristicTableFull := by
        rw [Service.add, Table.push, if_neg room]
        rfl
      have refused : (Finding.characteristic decl).refusal? peer.services =
          some .characteristicTableFull := by
        simp only [Finding.refusal?, found, if_neg room]
      rw [Table.alterFirst_of_error found hadd, entered_of_refused refused]
      rfl

/-- The first service with a characteristic whose value has a handle is the one with the first such
characteristic. -/
theorem find?_service_of_characteristic {services : List Service} {value : AttHandle}
    {characteristic : Characteristic}
    (found : ((services.flatMap (·.characteristics)).find? fun c => c.value = value) =
      some characteristic) :
    ∃ service : Service,
      (services.find? fun s => ∃ c ∈ s.characteristics, c.value = value) = some service ∧
      (service.characteristics.find? fun c => c.value = value) = some characteristic := by
  induction services with
  | nil => cases found
  | cons service services ih =>
    rw [List.flatMap_cons, List.find?_append] at found
    cases hfirst : service.characteristics.find? fun c => c.value = value with
    | none =>
      rw [hfirst, Option.none_or] at found
      have hnone : ¬ ∃ c ∈ service.characteristics, c.value = value := by
        rintro ⟨c, hc, hvalue⟩
        exact absurd hvalue (by simpa using List.find?_eq_none.1 hfirst c hc)
      rw [List.find?_cons_of_neg (by simpa using hnone)]
      exact ih found
    | some c =>
      rw [hfirst, Option.some_or] at found
      have hsome : ∃ c ∈ service.characteristics, c.value = value :=
        ⟨c, List.mem_of_find?_eq_some hfirst, by simpa using List.find?_some hfirst⟩
      exact ⟨service, List.find?_cons_of_pos (by simpa using hsome), hfirst.trans found⟩

theorem addDescriptor_eq_entered (peer : Peer) (value : AttHandle) (descriptor : Descriptor) :
    peer.addDescriptor value descriptor = peer.entered (.descriptor value descriptor) := by
  unfold addDescriptor
  cases found : (peer.services.flatMap (·.characteristics)).find? fun c => c.value = value with
  | none =>
    have hnone : (peer.services.find? fun s => ∃ c ∈ s.characteristics, c.value = value) =
        none := by
      refine List.find?_eq_none.2 fun s hs => ?_
      rw [decide_eq_true_eq]
      rintro ⟨c, hc, hvalue⟩
      exact absurd (decide_eq_true hvalue)
        (List.find?_eq_none.1 found c (List.mem_flatMap.2 ⟨s, hs, hc⟩))
    have refused : (Finding.descriptor value descriptor).refusal? peer.services =
        some (.characteristicNotFound value) := by
      simp only [Finding.refusal?, found]
    rw [Table.alterFirst_of_find?_eq_none hnone, entered_of_refused refused]
    rfl
  | some characteristic =>
    obtain ⟨service, hservice, hcharacteristic⟩ := find?_service_of_characteristic found
    by_cases room : characteristic.descriptors.length < Settings.maxDescriptors
    · have hcadd : characteristic.add descriptor =
          .ok (characteristic.withDescriptor descriptor) := by
        rw [Characteristic.add, Table.push, if_pos room]
        rfl
      have hadd : service.addDescriptor value descriptor =
          .ok (service.withDescriptor value descriptor) := by
        rw [Service.addDescriptor,
          Table.alterFirst_of_ok (f := (·.withDescriptor descriptor)) hcharacteristic hcadd]
        rfl
      have fits : (Finding.descriptor value descriptor).refusal? peer.services = none := by
        simp only [Finding.refusal?, found, if_pos room]
      rw [Table.alterFirst_of_ok (f := (·.withDescriptor value descriptor)) hservice hadd,
        entered_of_fits fits]
      rfl
    · have hcadd : characteristic.add descriptor = .error .descriptorTableFull := by
        rw [Characteristic.add, Table.push, if_neg room]
        rfl
      have hadd : service.addDescriptor value descriptor = .error .descriptorTableFull := by
        rw [Service.addDescriptor, Table.alterFirst_of_error hcharacteristic hcadd]
        rfl
      have refused : (Finding.descriptor value descriptor).refusal? peer.services =
          some .descriptorTableFull := by
        simp only [Finding.refusal?, found, if_neg room]
      rw [Table.alterFirst_of_error hservice hadd, entered_of_refused refused]
      rfl

/-- **Filing a finding enters it, or ends in the fault for which it is refused.** -/
theorem file_eq (peer : Peer) (finding : Finding) : peer.file finding = peer.entered finding := by
  cases finding with
  | service decl => exact addService_eq_entered peer decl
  | characteristic decl => exact addCharacteristic_eq_entered peer decl
  | descriptor value descriptor => exact addDescriptor_eq_entered peer value descriptor
  | servicesDone _ | characteristicsDone _ | descriptorsDone _ => rfl

/-- A finding can be filed if it is not refused, and then it is entered. -/
theorem file_eq_ok_iff {peer peer' : Peer} {finding : Finding} :
    peer.file finding = .ok peer' ↔ finding.refusal? peer.services = none ∧
      peer' = { peer with services := finding.enter peer.services } := by
  rw [file_eq]
  cases h : finding.refusal? peer.services with
  | none => simp [entered_of_fits h, eq_comm]
  | some why => simp [entered_of_refused h]

/-- A finding cannot be filed if it is refused, and then that is the fault. -/
theorem file_eq_error_iff {peer : Peer} {finding : Finding} {why : Fault} :
    peer.file finding = .error why ↔ finding.refusal? peer.services = some why := by
  rw [file_eq]
  cases h : finding.refusal? peer.services with
  | none => simp [entered_of_fits h]
  | some why' => simp [entered_of_refused h]

end Peer

end CameraCentral
