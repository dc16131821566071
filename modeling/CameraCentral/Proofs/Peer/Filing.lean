import CameraCentral.Proofs.Gatt.Database
import CameraCentral.Proofs.Peer.Steps

/-!
# Filing a database

While a database is discovered its tables fill up from the front.  In the first phase every service
is filed without its characteristics, in the second the characteristics of one service after the
other are filed without their descriptors, and in the third the descriptors of one characteristic
after the other.

A well-formed database can be filed: there is room for every entry, and every entry is filed where
it belongs, because the places that come before it in the tables do not fit it.
-/

namespace CameraCentral

/-- A characteristic as it is declared, without its descriptors. -/
def Characteristic.bare (characteristic : Characteristic) : Characteristic :=
  { characteristic with descriptors := [] }

/-- A service as it is declared, without its characteristics. -/
def Service.bare (service : Service) : Service :=
  { service with characteristics := [] }

/-- A service with its characteristics, but without their descriptors. -/
def Service.undescribed (service : Service) : Service :=
  { service with characteristics := service.characteristics.map Characteristic.bare }

/-- The range for descriptors does not depend on the descriptors that are known. -/
theorem Service.descriptorEnd_congr {service service' : Service}
    (hlast : service.last = service'.last)
    (h : service.characteristics.map (·.declaration) =
      service'.characteristics.map (·.declaration)) (value : AttHandle) :
    service.descriptorEnd value = service'.descriptorEnd value := by
  unfold descriptorEnd
  rw [h, hlast]

namespace Peer

variable {peer : Peer} {finding : Finding}

/-! ## What a walk does with a finding that it waits for -/

/-- An entry that the walk waits for is filed. -/
theorem onFinding_of_entry (expected : peer.progress.Expects finding)
    (entry : finding.status? = none) :
    peer.onFinding finding = .done (peer.filed (peer.file finding)) := by
  unfold onFinding
  split
  · rfl
  · cases entry
  · rfl
  · cases entry
  · rfl
  · cases entry
  · rename_i progress finding hservice hservices hcharacteristic hcharacteristics hdescriptor _
    exact absurd expected (by unfold Progress.Expects; split <;> grind)

/-- At the end of an answer the walk asks on. -/
theorem onFinding_of_done (expected : peer.progress.Expects finding)
    (done : finding.status? = some .success) : peer.onFinding finding = peer.askOn := by
  unfold onFinding askOn
  split
  · cases done
  · cases done
    rename_i phase
    rw [phase]
    rfl
  · cases done
  · cases done
    rename_i phase
    rw [phase]
    rfl
  · cases done
  · cases done
    rename_i phase
    rw [phase]
    rfl
  · exact absurd expected (by unfold Progress.Expects; split <;> grind)

/-! ## Filing one entry -/

/-- A service is filed behind those that were filed before. -/
theorem addService_eq_ok {decl : ServiceDecl} (ordered : decl.first ≤ decl.last)
    (room : peer.services.length < Settings.maxServices) :
    peer.addService decl = .ok { peer with services := peer.services ++ [{ decl with }] } := by
  have hordered : ¬ decl.last < decl.first := by grind
  rw [addService, if_neg hordered, Table.push, if_pos room]
  rfl

/-- A characteristic is filed under the first service that contains it. -/
theorem addCharacteristic_eq_ok {decl : CharacteristicDecl} {before after : List Service}
    (service : Service) (h : peer.services = before ++ service :: after)
    (other : ∀ s ∈ before, ¬ (s.Contains decl.declaration ∧ s.Contains decl.value))
    (contains : service.Contains decl.declaration ∧ service.Contains decl.value)
    (room : service.characteristics.length < Settings.maxCharacteristics) :
    peer.addCharacteristic decl = .ok { peer with
      services := before ++
        { service with characteristics := service.characteristics ++ [{ decl with }] } ::
          after } := by
  have hadd : service.add decl =
      .ok { service with characteristics := service.characteristics ++ [{ decl with }] } := by
    rw [Service.add, Table.push, if_pos room]
    rfl
  rw [addCharacteristic, h, Table.alterFirst_append _ other contains hadd]
  rfl

/-- A descriptor is filed under the first characteristic with its value handle. -/
theorem addDescriptor_eq_ok {value : AttHandle} {descriptor : Descriptor}
    {before after : List Service} (service : Service) {first rest : List Characteristic}
    (characteristic : Characteristic) (h : peer.services = before ++ service :: after)
    (hsplit : service.characteristics = first ++ characteristic :: rest)
    (hbefore : ∀ s ∈ before, ¬ ∃ c ∈ s.characteristics, c.value = value)
    (hfirst : ∀ c ∈ first, ¬ c.value = value) (hvalue : characteristic.value = value)
    (room : characteristic.descriptors.length < Settings.maxDescriptors) :
    peer.addDescriptor value descriptor = .ok { peer with
      services := before ++
        { service with
          characteristics := first ++
            { characteristic with descriptors := characteristic.descriptors ++ [descriptor] } ::
              rest } ::
          after } := by
  have hadd : characteristic.add descriptor =
      .ok { characteristic with descriptors := characteristic.descriptors ++ [descriptor] } := by
    rw [Characteristic.add, Table.push, if_pos room]
    rfl
  have haddDescriptor : service.addDescriptor value descriptor = .ok { service with
      characteristics := first ++
        { characteristic with descriptors := characteristic.descriptors ++ [descriptor] } ::
          rest } := by
    rw [Service.addDescriptor, hsplit, Table.alterFirst_append _ hfirst hvalue hadd]
    rfl
  have hself : ∃ c ∈ service.characteristics, c.value = value :=
    ⟨characteristic, by simp [hsplit], hvalue⟩
  rw [addDescriptor, h, Table.alterFirst_append _ hbefore hself haddDescriptor]
  rfl

/-! ## Filing an answer -/

/-- The services that a peer reports are filed in their order. -/
theorem foldlM_file_services (peer : Peer) (filed services : List Service)
    (ordered : ∀ service ∈ services, service.first ≤ service.last)
    (room : filed.length + services.length ≤ Settings.maxServices) :
    (services.map fun service => Finding.service service.toServiceDecl).foldlM file
        { peer with services := filed } =
      .ok { peer with services := filed ++ services.map Service.bare } := by
  induction services generalizing filed with
  | nil => simp [pure, Except.pure]
  | cons service services ih =>
    have hfile : file { peer with services := filed } (.service service.toServiceDecl) =
        .ok { peer with services := filed ++ [service.bare] } :=
      addService_eq_ok (ordered service List.mem_cons_self) (by simp at room; simp; omega)
    rw [List.map_cons, List.foldlM_cons, hfile]
    have hrest := ih (filed ++ [service.bare])
      (fun s hs => ordered s (List.mem_cons_of_mem service hs)) (by simp at room ⊢; omega)
    rw [List.append_assoc] at hrest
    exact hrest

/-- The characteristics that a peer reports for a service are filed under it in their order. -/
theorem foldlM_file_characteristics (peer : Peer) (before after : List Service) (service : Service)
    (filed characteristics : List Characteristic)
    (other : ∀ s ∈ before, ∀ c ∈ characteristics,
      ¬ (s.Contains c.declaration ∧ s.Contains c.value))
    (contains : ∀ c ∈ characteristics,
      service.Contains c.declaration ∧ service.Contains c.value)
    (room : filed.length + characteristics.length ≤ Settings.maxCharacteristics) :
    (characteristics.map fun c => Finding.characteristic c.toCharacteristicDecl).foldlM file
        { peer with services := before ++ { service with characteristics := filed } :: after } =
      .ok { peer with
        services := before ++
          { service with characteristics := filed ++ characteristics.map Characteristic.bare } ::
            after } := by
  induction characteristics generalizing filed with
  | nil => simp [pure, Except.pure]
  | cons c characteristics ih =>
    have hfile : file
        { peer with services := before ++ { service with characteristics := filed } :: after }
          (.characteristic c.toCharacteristicDecl) =
        .ok { peer with
          services := before ++ { service with characteristics := filed ++ [c.bare] } ::
            after } :=
      addCharacteristic_eq_ok { service with characteristics := filed } rfl
        (fun s hs => other s hs c List.mem_cons_self) (contains c List.mem_cons_self)
        (by simp at room; simp; omega)
    rw [List.map_cons, List.foldlM_cons, hfile]
    have hrest := ih (filed ++ [c.bare])
      (fun s hs c' hc' => other s hs c' (List.mem_cons_of_mem c hc'))
      (fun c' hc' => contains c' (List.mem_cons_of_mem c hc')) (by simp at room ⊢; omega)
    rw [List.append_assoc] at hrest
    exact hrest

/-- The descriptors that a peer reports for a characteristic are filed under it in their order. -/
theorem foldlM_file_descriptors (peer : Peer) (before after : List Service) (service : Service)
    (first rest : List Characteristic) (characteristic : Characteristic)
    (filed descriptors : List Descriptor)
    (hbefore : ∀ s ∈ before, ¬ ∃ c ∈ s.characteristics, c.value = characteristic.value)
    (hfirst : ∀ c ∈ first, ¬ c.value = characteristic.value)
    (room : filed.length + descriptors.length ≤ Settings.maxDescriptors) :
    (descriptors.map fun d => Finding.descriptor characteristic.value d).foldlM file
        { peer with
          services := before ++
            { service with
              characteristics := first ++ { characteristic with descriptors := filed } :: rest } ::
              after } =
      .ok { peer with
        services := before ++
          { service with
            characteristics := first ++
              { characteristic with descriptors := filed ++ descriptors } :: rest } ::
            after } := by
  induction descriptors generalizing filed with
  | nil => simp [pure, Except.pure]
  | cons d descriptors ih =>
    have hfile : file
        { peer with
          services := before ++
            { service with
              characteristics := first ++ { characteristic with descriptors := filed } :: rest } ::
              after }
          (.descriptor characteristic.value d) =
        .ok { peer with
          services := before ++
            { service with
              characteristics := first ++
                { characteristic with descriptors := filed ++ [d] } :: rest } ::
              after } :=
      addDescriptor_eq_ok
        { service with
          characteristics := first ++ { characteristic with descriptors := filed } :: rest }
        { characteristic with descriptors := filed } rfl rfl hbefore hfirst rfl
        (by simp at room; simp; omega)
    rw [List.map_cons, List.foldlM_cons, hfile]
    have hrest := ih (filed ++ [d]) (by simp at room ⊢; omega)
    rw [List.append_assoc] at hrest
    exact hrest

end Peer

end CameraCentral
