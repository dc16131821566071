import CameraCentral.Peer.Walk

/-!
# Steps of a walk

`Peer.WalkStep` lists everything that a finding can do to a walk: it is not expected and changes
nothing, it is an entry that is filed or cannot be, or it ends the answer to a request, and then the
walk fails or asks on.  `Peer.AskStep` lists what asking on can come to.  `walkStep_of_onFinding`
says that there is nothing else.

From the rules the facts follow that hold whatever the peer reports: a walk that is not under way
is left alone, requests are only made for the peer's own connection, and a walk is over exactly when
it reports an outcome.
-/

namespace CameraCentral

/-- The findings that a walk waits for at its place. -/
def Progress.Expects : Progress → Finding → Prop
  | services, .service _ | services, .servicesDone _ => True
  | characteristics _, .characteristic _ | characteristics _, .characteristicsDone _ => True
  | descriptors _ _, .descriptor _ _ | descriptors _ _, .descriptorsDone _ => True
  | _, _ => False

instance : (progress : Progress) → (finding : Finding) → Decidable (progress.Expects finding)
  | .services, .service _ | .services, .servicesDone _ => .isTrue trivial
  | .characteristics _, .characteristic _ => .isTrue trivial
  | .characteristics _, .characteristicsDone _ => .isTrue trivial
  | .descriptors _ _, .descriptor _ _ | .descriptors _ _, .descriptorsDone _ => .isTrue trivial
  | .services, .characteristic _ | .services, .characteristicsDone _ => .isFalse id
  | .services, .descriptor _ _ | .services, .descriptorsDone _ => .isFalse id
  | .characteristics _, .service _ | .characteristics _, .servicesDone _ => .isFalse id
  | .characteristics _, .descriptor _ _ | .characteristics _, .descriptorsDone _ => .isFalse id
  | .descriptors _ _, .service _ | .descriptors _ _, .servicesDone _ => .isFalse id
  | .descriptors _ _, .characteristic _ => .isFalse id
  | .descriptors _ _, .characteristicsDone _ => .isFalse id
  | .notStarted, finding | .complete, finding | .failed, finding =>
    .isFalse fun expected => by cases finding <;> exact expected

/-- A walk that waits for something is under way. -/
theorem Progress.inFlight_of_expects {progress : Progress} {finding : Finding}
    (h : progress.Expects finding) : progress.InFlight := by
  cases progress with
  | notStarted | complete | failed => exact h.elim
  | services | characteristics _ | descriptors _ _ => trivial

/-- The status with which a finding ends the answer to a request, if it ends one. -/
def Finding.status? : Finding → Option Status
  | servicesDone status | characteristicsDone status | descriptorsDone status => some status
  | service _ | characteristic _ | descriptor _ _ => none

/-- A walk at this place has this to report: nothing while it is under way, and once it is over how
it ended. -/
def Progress.Reports (progress : Progress) : Option Outcome → Prop
  | none => progress.InFlight
  | some .complete => progress = .complete
  | some (.failed _) => progress = .failed

namespace Peer

/-- Files an entry that was found; a finding that is no entry leaves nothing to file. -/
def file (peer : Peer) : Finding → Except Fault Peer
  | .service decl => peer.addService decl
  | .characteristic decl => peer.addCharacteristic decl
  | .descriptor value descriptor => peer.addDescriptor value descriptor
  | .servicesDone _ | .characteristicsDone _ | .descriptorsDone _ => .ok peer

/-- What the walk asks next, once the request that is out has been answered. -/
def askOn (peer : Peer) : Dialogue (Peer × Option Outcome) :=
  match peer.progress with
  | .services => peer.askCharacteristics 0
  | .characteristics service => peer.askCharacteristics (service + 1)
  | .descriptors service characteristic => peer.askDescriptors service (characteristic + 1)
  | _ => .done (peer, none)

/-- What asking for more can come to. -/
inductive AskStep (peer : Peer) : List Exchange → Peer → Option Outcome → Prop where
  | characteristics (span : Span) (hspan : span ∈ peer.spans) :
    AskStep peer [⟨.discoverCharacteristics peer.conn span.first span.last, .accepted⟩]
      { peer with progress := .characteristics span.service } none
  | characteristicsRefused (span : Span) (hspan : span ∈ peer.spans) (why : HostFault) :
    AskStep peer [⟨.discoverCharacteristics peer.conn span.first span.last, .refused why⟩]
      { peer with progress := .failed } (some (.failed (.host why)))
  | descriptors (slot : Slot) (hslot : slot ∈ peer.slots) :
    AskStep peer [⟨.discoverDescriptors peer.conn slot.value slot.last, .accepted⟩]
      { peer with progress := .descriptors slot.service slot.characteristic } none
  | descriptorsRefused (slot : Slot) (hslot : slot ∈ peer.slots) (why : HostFault) :
    AskStep peer [⟨.discoverDescriptors peer.conn slot.value slot.last, .refused why⟩]
      { peer with progress := .failed } (some (.failed (.host why)))
  | complete : AskStep peer [] { peer with progress := .complete } (some .complete)

/-- What a finding can do to a walk. -/
inductive WalkStep (peer : Peer) (finding : Finding) :
    List Exchange → Peer → Option Outcome → Prop where
  | unexpected (h : ¬ peer.progress.Expects finding) : WalkStep peer finding [] peer none
  | filed (expected : peer.progress.Expects finding) (entry : finding.status? = none)
      (peer' : Peer) (h : peer.file finding = .ok peer') : WalkStep peer finding [] peer' none
  | unfiled (expected : peer.progress.Expects finding) (entry : finding.status? = none)
      (why : Fault) (h : peer.file finding = .error why) :
    WalkStep peer finding [] { peer with progress := .failed } (some (.failed why))
  | broken (expected : peer.progress.Expects finding) (status : Status)
      (done : finding.status? = some status) (failed : ¬ status.IsSuccess) :
    WalkStep peer finding [] { peer with progress := .failed } (some (.failed status.fault))
  | goesOn (expected : peer.progress.Expects finding) (status : Status)
      (done : finding.status? = some status) (success : status.IsSuccess)
      {exchanges : List Exchange} {peer' : Peer} {outcome : Option Outcome}
      (yields : peer.askOn.Yields exchanges (peer', outcome))
      (step : AskStep peer exchanges peer' outcome) :
    WalkStep peer finding exchanges peer' outcome

variable {peer peer' : Peer} {finding : Finding} {exchanges : List Exchange}
  {outcome : Option Outcome}

/-! ## There is nothing else -/

/-- Asking for descriptors does what `AskStep` says. -/
theorem askStep_of_askDescriptors {service characteristic : Nat}
    (h : (peer.askDescriptors service characteristic).Yields exchanges (peer', outcome)) :
    AskStep peer exchanges peer' outcome := by
  unfold askDescriptors at h
  split at h
  · obtain ⟨rfl, hvalue⟩ := Dialogue.yields_done_iff.1 h
    cases hvalue
    exact .complete
  · rename_i slot hnext
    have hslot : slot ∈ peer.slots := List.mem_of_find?_eq_some hnext
    rcases h.ask_cases with ⟨rest, rfl, hrest⟩ | ⟨why, rest, rfl, hrest⟩
    · obtain ⟨rfl, hvalue⟩ := Dialogue.yields_done_iff.1 hrest
      cases hvalue
      exact .descriptors slot hslot
    · obtain ⟨rfl, hvalue⟩ := Dialogue.yields_done_iff.1 hrest
      cases hvalue
      exact .descriptorsRefused slot hslot why

/-- Asking for characteristics does what `AskStep` says. -/
theorem askStep_of_askCharacteristics {service : Nat}
    (h : (peer.askCharacteristics service).Yields exchanges (peer', outcome)) :
    AskStep peer exchanges peer' outcome := by
  unfold askCharacteristics at h
  split at h
  · exact askStep_of_askDescriptors h
  · rename_i span hnext
    have hspan : span ∈ peer.spans := List.mem_of_find?_eq_some hnext
    rcases h.ask_cases with ⟨rest, rfl, hrest⟩ | ⟨why, rest, rfl, hrest⟩
    · obtain ⟨rfl, hvalue⟩ := Dialogue.yields_done_iff.1 hrest
      cases hvalue
      exact .characteristics span hspan
    · obtain ⟨rfl, hvalue⟩ := Dialogue.yields_done_iff.1 hrest
      cases hvalue
      exact .characteristicsRefused span hspan why

/-- An entry that the walk waits for is filed or ends the walk. -/
theorem walkStep_of_filed (expected : peer.progress.Expects finding)
    (entry : finding.status? = none)
    (h : (Dialogue.done (peer.filed (peer.file finding))).Yields exchanges (peer', outcome)) :
    WalkStep peer finding exchanges peer' outcome := by
  obtain ⟨rfl, hvalue⟩ := Dialogue.yields_done_iff.1 h
  cases hfile : peer.file finding with
  | ok filed =>
    rw [hfile] at hvalue
    cases hvalue
    exact .filed expected entry peer' hfile
  | error why =>
    rw [hfile] at hvalue
    cases hvalue
    exact .unfiled expected entry why hfile

/-- The end of an answer ends the walk or makes it ask on. -/
theorem walkStep_of_afterDone (expected : peer.progress.Expects finding) {status : Status}
    (done : finding.status? = some status)
    (asks : ∀ {exchanges peer' outcome}, peer.askOn.Yields exchanges (peer', outcome) →
      AskStep peer exchanges peer' outcome)
    (h : (peer.afterDone status peer.askOn).Yields exchanges (peer', outcome)) :
    WalkStep peer finding exchanges peer' outcome := by
  unfold afterDone at h
  split at h
  · rename_i success
    exact .goesOn expected status done success h (asks h)
  · rename_i failed
    obtain ⟨rfl, hvalue⟩ := Dialogue.yields_done_iff.1 h
    cases hvalue
    exact .broken expected status done failed

/-- A finding does to a walk what `WalkStep` says. -/
theorem walkStep_of_onFinding (h : (peer.onFinding finding).Yields exchanges (peer', outcome)) :
    WalkStep peer finding exchanges peer' outcome := by
  unfold onFinding at h
  split at h
  case h_1 phase =>
    exact walkStep_of_filed (by rw [phase]; trivial) rfl h
  case h_2 phase =>
    refine walkStep_of_afterDone (by rw [phase]; trivial) rfl ?_ (by rwa [askOn, phase])
    rw [askOn, phase]
    exact askStep_of_askCharacteristics
  case h_3 phase =>
    exact walkStep_of_filed (by rw [phase]; trivial) rfl h
  case h_4 phase =>
    refine walkStep_of_afterDone (by rw [phase]; trivial) rfl ?_ (by rwa [askOn, phase])
    rw [askOn, phase]
    exact askStep_of_askCharacteristics
  case h_5 phase =>
    exact walkStep_of_filed (by rw [phase]; trivial) rfl h
  case h_6 phase =>
    refine walkStep_of_afterDone (by rw [phase]; trivial) rfl ?_ (by rwa [askOn, phase])
    rw [askOn, phase]
    exact askStep_of_askDescriptors
  case h_7 =>
    obtain ⟨rfl, hvalue⟩ := Dialogue.yields_done_iff.1 h
    cases hvalue
    refine .unexpected fun expected => ?_
    unfold Progress.Expects at expected
    split at expected <;> grind

/-! ## What holds whatever the peer reports -/

/-- Filing an entry only touches the database. -/
theorem file_eq_ok {filed : Peer} (h : peer.file finding = .ok filed) :
    filed = { peer with services := filed.services } := by
  have hmap : ∀ {tables : Except Fault (List Service)},
      tables.map (fun services => { peer with services }) = .ok filed →
        filed = { peer with services := filed.services } := by
    intro tables htables
    obtain ⟨services, -, rfl⟩ := map_eq_ok_iff.1 htables
    rfl
  cases finding with
  | service decl =>
    change peer.addService decl = .ok filed at h
    unfold addService at h
    split at h
    · cases h
    · exact hmap h
  | characteristic decl => exact hmap h
  | descriptor value descriptor => exact hmap h
  | servicesDone status | characteristicsDone status | descriptorsDone status => cases h; rfl

/-- A walk belongs to one connection. -/
theorem AskStep.conn_eq (h : AskStep peer exchanges peer' outcome) : peer'.conn = peer.conn := by
  cases h <;> rfl

/-- A walk belongs to one device. -/
theorem AskStep.address_eq (h : AskStep peer exchanges peer' outcome) :
    peer'.address = peer.address := by
  cases h <;> rfl

/-- A finding leaves the connection of the walk as it is. -/
theorem WalkStep.conn_eq (h : WalkStep peer finding exchanges peer' outcome) :
    peer'.conn = peer.conn := by
  cases h with
  | unexpected _ => rfl
  | filed _ _ _ h => rw [file_eq_ok h]
  | unfiled _ _ _ _ => rfl
  | broken _ _ _ _ => rfl
  | goesOn _ _ _ _ _ step => exact step.conn_eq

/-- A finding leaves the device of the walk as it is. -/
theorem WalkStep.address_eq (h : WalkStep peer finding exchanges peer' outcome) :
    peer'.address = peer.address := by
  cases h with
  | unexpected _ => rfl
  | filed _ _ _ h => rw [file_eq_ok h]
  | unfiled _ _ _ _ => rfl
  | broken _ _ _ _ => rfl
  | goesOn _ _ _ _ _ step => exact step.address_eq

/-- A walk that is not under way takes nothing in. -/
theorem WalkStep.of_not_inFlight (h : WalkStep peer finding exchanges peer' outcome)
    (halted : ¬ peer.progress.InFlight) : exchanges = [] ∧ peer' = peer ∧ outcome = none := by
  cases h with
  | unexpected _ => exact ⟨rfl, rfl, rfl⟩
  | filed expected _ _ _ => exact absurd (Progress.inFlight_of_expects expected) halted
  | unfiled expected _ _ _ => exact absurd (Progress.inFlight_of_expects expected) halted
  | broken expected _ _ _ => exact absurd (Progress.inFlight_of_expects expected) halted
  | goesOn expected _ _ _ _ _ => exact absurd (Progress.inFlight_of_expects expected) halted

/-- A walk that reports an outcome was under way. -/
theorem WalkStep.inFlight_of_outcome {ending : Outcome}
    (h : WalkStep peer finding exchanges peer' (some ending)) : peer.progress.InFlight := by
  cases h with
  | unfiled expected _ _ _ => exact Progress.inFlight_of_expects expected
  | broken expected _ _ _ => exact Progress.inFlight_of_expects expected
  | goesOn expected _ _ _ _ _ => exact Progress.inFlight_of_expects expected

/-- Asking on leaves the walk under way unless it reports how the walk ended. -/
theorem AskStep.reports (h : AskStep peer exchanges peer' outcome) :
    peer'.progress.Reports outcome := by
  cases h with
  | characteristics _ _ | descriptors _ _ => trivial
  | characteristicsRefused _ _ _ | descriptorsRefused _ _ _ => rfl
  | complete => rfl

/-- A walk that is under way stays so until it reports how it ended. -/
theorem WalkStep.reports (h : WalkStep peer finding exchanges peer' outcome)
    (running : peer.progress.InFlight)  :
    peer'.progress.Reports outcome := by
  cases h with
  | unexpected _ => exact running
  | filed _ _ _ h =>
    rw [file_eq_ok h]
    exact running
  | unfiled _ _ _ _ => rfl
  | broken _ _ _ _ => rfl
  | goesOn _ _ _ _ _ step => exact step.reports

end Peer

/-! ## Requests to the database of a peer -/

/-- A request is one to the database of a peer if it is for discovery or for a write. -/
def Request.IsGatt (request : Request) : Prop :=
  request.kind ∈ [Request.Kind.discoverServices, .discoverCharacteristics, .discoverDescriptors,
    .write, .writeNoResponse]

instance (request : Request) : Decidable request.IsGatt :=
  inferInstanceAs (Decidable (_ ∈ _))

theorem Request.not_isGatt_terminate (conn : ConnHandle) (reason : UInt8) :
    ¬ (Request.terminate conn reason).IsGatt := by
  simp [IsGatt, kind]

theorem Request.not_isGatt_secure (conn : ConnHandle) : ¬ (Request.secure conn).IsGatt := by
  simp [IsGatt, kind]

namespace Peer

variable {peer peer' : Peer} {finding : Finding} {exchanges : List Exchange}
  {outcome : Option Outcome}

/-- A walk only asks about its own connection. -/
theorem AskStep.request_conn (h : AskStep peer exchanges peer' outcome) {x : Exchange}
    (hx : x ∈ exchanges) : x.request.conn? = some peer.conn := by
  cases h with
  | complete => cases hx
  | characteristics _ _ | characteristicsRefused _ _ _ | descriptors _ _
  | descriptorsRefused _ _ _ =>
    obtain rfl := List.mem_singleton.1 hx
    rfl

/-- A walk that asks something is under way, and asks about its own connection. -/
theorem WalkStep.request_conn (h : WalkStep peer finding exchanges peer' outcome) {x : Exchange}
    (hx : x ∈ exchanges) : peer.progress.InFlight ∧ x.request.conn? = some peer.conn := by
  cases h with
  | unexpected _ => cases hx
  | filed _ _ _ _ => cases hx
  | unfiled _ _ _ _ => cases hx
  | broken _ _ _ _ => cases hx
  | goesOn expected _ _ _ _ step =>
    exact ⟨Progress.inFlight_of_expects expected, step.request_conn hx⟩

/-- Asking on is asking for characteristics or for descriptors. -/
theorem AskStep.request_kind (h : AskStep peer exchanges peer' outcome) {x : Exchange}
    (hx : x ∈ exchanges) :
    x.request.kind = .discoverCharacteristics ∨ x.request.kind = .discoverDescriptors := by
  cases h with
  | complete => cases hx
  | characteristics _ _ | characteristicsRefused _ _ _ =>
    obtain rfl := List.mem_singleton.1 hx
    exact .inl rfl
  | descriptors _ _ | descriptorsRefused _ _ _ =>
    obtain rfl := List.mem_singleton.1 hx
    exact .inr rfl

/-- A walk that is under way asks for characteristics or for descriptors. -/
theorem WalkStep.request_kind (h : WalkStep peer finding exchanges peer' outcome) {x : Exchange}
    (hx : x ∈ exchanges) :
    x.request.kind = .discoverCharacteristics ∨ x.request.kind = .discoverDescriptors := by
  cases h with
  | unexpected _ => cases hx
  | filed _ _ _ _ => cases hx
  | unfiled _ _ _ _ => cases hx
  | broken _ _ _ _ => cases hx
  | goesOn _ _ _ _ _ step => exact step.request_kind hx

end Peer

end CameraCentral
