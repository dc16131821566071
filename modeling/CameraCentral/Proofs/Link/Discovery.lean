import CameraCentral.Proofs.Link.Session
import CameraCentral.Proofs.Peer.Cursor
import Mathlib.Data.List.Basic

/-!
# Discovering a camera

When the connection of the camera is encrypted, the link walks through the camera's database,
subscribes to the camera service, and is ready for commands.  Here this is followed in a session
with a peer that answers from a well-formed database, for every such database.

The walk goes through the database from the front.  In each phase the tables of the peer are split
at the place of the walk: what lies before it is filed, and what lies behind it is not.  The phases
are proved by induction on what lies behind.
-/

namespace CameraCentral

/-! ## What is asked for -/

/-- What is asked about the characteristics of a service. -/
def Service.inquiry (conn : ConnHandle) (service : Service) : List Request :=
  if service.first < service.last then
    [.discoverCharacteristics conn service.first service.last]
  else []

/-- What is asked about the descriptors of a characteristic. -/
def Service.descriptorInquiry (conn : ConnHandle) (service : Service)
    (characteristic : Characteristic) : List Request :=
  if characteristic.value < service.descriptorEnd characteristic.value then
    [.discoverDescriptors conn characteristic.value
      (service.descriptorEnd characteristic.value)]
  else []

/-- What is asked to switch a characteristic on: its client configuration is written, if it can push
its value and has one. -/
def Characteristic.subscription (conn : ConnHandle) (characteristic : Characteristic) :
    List Request :=
  match characteristic.properties.subscription?, characteristic.find? Uuid.clientConfiguration with
  | some bits, some descriptor => [.write conn descriptor.handle (Bytes.ofWord bits)]
  | _, _ => []

/-- Everything that is asked about a database: for its services, then for the characteristics of
every service that has room for them, and then for the descriptors of every characteristic that has
room for them. -/
def Database.inquiries (conn : ConnHandle) (database : Database) : List Request :=
  .discoverServices conn ::
    (database.services.flatMap (·.inquiry conn) ++
      database.services.flatMap fun service =>
        service.characteristics.flatMap (service.descriptorInquiry conn))

/-- A characteristic without descriptors is filed when its declaration is. -/
theorem Characteristic.bare_eq_self {characteristic : Characteristic}
    (h : characteristic.descriptors = []) : characteristic.bare = characteristic := by
  unfold bare
  rw [← h]

namespace Service

/-- A service when the descriptors of the first of its characteristics are filed, and those of the
rest are not. -/
def describedTo (service : Service) (first rest : List Characteristic) : Service :=
  { service with characteristics := first ++ rest.map Characteristic.bare }

/-- While descriptors are filed the ranges for them stay the same. -/
theorem descriptorEnd_describedTo (service : Service) {first rest : List Characteristic}
    (h : service.characteristics = first ++ rest) (value : AttHandle) :
    (service.describedTo first rest).descriptorEnd value = service.descriptorEnd value := by
  have hlast : (service.describedTo first rest).last = service.last := rfl
  have hdeclarations : (service.describedTo first rest).characteristics.map (·.declaration) =
      service.characteristics.map (·.declaration) := by
    simp [describedTo, h, Characteristic.bare, Function.comp_def]
  exact descriptorEnd_congr hlast hdeclarations value

theorem describedTo_append (service : Service) (first rest : List Characteristic)
    (characteristic : Characteristic) :
    service.describedTo (first ++ [characteristic]) rest =
      { service with
        characteristics := first ++ characteristic :: rest.map Characteristic.bare } := by
  simp [describedTo]

/-- A service without room is filed as it is when its declaration is. -/
theorem bare_eq_undescribed {service : Service} (h : service.characteristics = []) :
    service.bare = service.undescribed := by
  unfold bare undescribed
  rw [h]
  rfl

end Service

namespace Link

namespace Session

variable {database : Database} {conn : ConnHandle} {link : Link} {peer old : Peer}
  {before after : List Service} {service : Service}

/-! ## Asking -/

/-- The session after the characteristics of a service were asked for. -/
theorem onward_askCharacteristics {i : Nat} {span : Span} (h : peer.nextSpan? i = some span)
    (hconn : peer.conn = conn) (asked : List Request) :
    onward database conn link asked [] (peer.askCharacteristics i) =
      ⟨link.refreshed { peer with progress := .characteristics span.service },
        database.answer conn (.discoverCharacteristics conn span.first span.last),
        asked ++ [.discoverCharacteristics conn span.first span.last]⟩ := by
  subst hconn
  unfold Peer.askCharacteristics
  rw [h]
  simp [onward, resume, follow, Dialogue.Run.requests, agree]

/-- The session after the descriptors of a characteristic were asked for. -/
theorem onward_askDescriptors {i j : Nat} {slot : Slot} (h : peer.nextSlot? i j = some slot)
    (hconn : peer.conn = conn) (asked : List Request) :
    onward database conn link asked [] (peer.askDescriptors i j) =
      ⟨link.refreshed { peer with progress := .descriptors slot.service slot.characteristic },
        database.answer conn (.discoverDescriptors conn slot.value slot.last),
        asked ++ [.discoverDescriptors conn slot.value slot.last]⟩ := by
  subst hconn
  unfold Peer.askDescriptors
  rw [h]
  simp [onward, resume, follow, Dialogue.Run.requests, agree]

/-! ## Services -/

/-- **The first phase files the services.** -/
theorem leads_services (known : link.peers.find? conn = some old) (hconn : peer.conn = conn)
    (asked : List Request) :
    Leads database conn
      ⟨link.refreshed { peer with services := [], progress := .services },
        database.answer conn (.discoverServices conn), asked⟩
      (onward database conn link asked []
        ({ peer with services := database.services.map Service.bare }.askCharacteristics 0)) := by
  have hfold := Peer.foldlM_file_services { peer with progress := .services } []
    database.services (fun service hservice => (database.formed service hservice).ordered)
    (by simpa using database.room)
  rw [Database.answer_discoverServices]
  refine leads_answer hfold known hconn ?_ trivial rfl
  intro entry hentry
  obtain ⟨service, -, rfl⟩ := List.mem_map.1 hentry
  exact ⟨trivial, rfl⟩

/-! ## Characteristics -/

/-- The characteristics of the service at the place of the walk are filed. -/
theorem leads_service (known : link.peers.find? conn = some old) (hconn : peer.conn = conn)
    (h : database.services = before ++ service :: after) (asked : List Request) :
    Leads database conn
      (onward database conn link asked []
        ({ peer with
          services := before.map Service.undescribed ++
            (service :: after).map Service.bare }.askCharacteristics before.length))
      (onward database conn link (asked ++ service.inquiry conn) []
        ({ peer with
          services := before.map Service.undescribed ++
            service.undescribed :: after.map Service.bare }.askCharacteristics
              (before.length + 1))) := by
  have hformed := Database.formed_of_split h
  by_cases room : service.first < service.last
  · have hnext : { peer with
        services := before.map Service.undescribed ++
          (service :: after).map Service.bare }.nextSpan? before.length =
          some ⟨before.length, service.first, service.last⟩ :=
      Peer.nextSpan?_of_lt service.bare rfl (List.length_map _) room
    have hother : ∀ s ∈ before.map Service.undescribed, ∀ c ∈ service.characteristics,
        ¬ (s.Contains c.declaration ∧ s.Contains c.value) := by
      intro s hs c hc hcontains
      obtain ⟨other, hmem, rfl⟩ := List.mem_map.1 hs
      exact Database.not_contains h (hformed.contains hc).1 other (List.mem_append_left _ hmem)
        hcontains.1
    have hfold := Peer.foldlM_file_characteristics
      { peer with progress := .characteristics before.length } (before.map Service.undescribed)
      (after.map Service.bare) service [] service.characteristics hother
      (fun c hc => hformed.contains hc) (by simpa using hformed.room)
    rw [onward_askCharacteristics hnext hconn,
      Database.answer_discoverCharacteristics conn h, Service.inquiry, if_pos room]
    refine leads_answer hfold known hconn ?_ trivial rfl
    intro entry hentry
    obtain ⟨c, -, rfl⟩ := List.mem_map.1 hentry
    exact ⟨trivial, rfl⟩
  · have hnil := hformed.characteristics_eq_nil room
    have hnext : { peer with
        services := before.map Service.undescribed ++
          (service :: after).map Service.bare }.nextSpan? before.length = _ :=
      Peer.nextSpan?_of_not_lt service.bare rfl (List.length_map _) room
    rw [Peer.askCharacteristics, hnext, ← Service.bare_eq_undescribed hnil, Service.inquiry,
      if_neg room, List.append_nil]
    exact Leads.refl _

/-- **The second phase files the characteristics.** -/
theorem leads_characteristics (known : link.peers.find? conn = some old) (hconn : peer.conn = conn)
    (h : database.services = before ++ after) (asked : List Request) :
    Leads database conn
      (onward database conn link asked []
        ({ peer with
          services := before.map Service.undescribed ++
            after.map Service.bare }.askCharacteristics before.length))
      (onward database conn link (asked ++ after.flatMap (·.inquiry conn)) []
        ({ peer with
          services := database.services.map Service.undescribed }.askDescriptors 0 0)) := by
  induction after generalizing before asked with
  | nil =>
    have hnext : { peer with services := before.map Service.undescribed }.nextSpan? before.length =
        none := Peer.nextSpan?_length (List.length_map _)
    simp only [List.append_nil, List.map_nil, List.flatMap_nil] at h ⊢
    rw [Peer.askCharacteristics, hnext, h]
    exact Leads.refl _
  | cons service after ih =>
    refine Leads.trans (leads_service known hconn h asked) ?_
    have hsplit : database.services = (before ++ [service]) ++ after := by simp [h]
    have hrest := ih hsplit (asked ++ service.inquiry conn)
    simpa using hrest

/-! ## Descriptors -/

/-- The descriptors of the characteristic at the place of the walk are filed. -/
theorem leads_characteristic (known : link.peers.find? conn = some old) (hconn : peer.conn = conn)
    (h : database.services = before ++ service :: after) {first rest : List Characteristic}
    {characteristic : Characteristic}
    (hsplit : service.characteristics = first ++ characteristic :: rest) (asked : List Request) :
    Leads database conn
      (onward database conn link asked []
        ({ peer with
          services := before ++ service.describedTo first (characteristic :: rest) ::
            after.map Service.undescribed }.askDescriptors before.length first.length))
      (onward database conn link (asked ++ service.descriptorInquiry conn characteristic) []
        ({ peer with
          services := before ++ service.describedTo (first ++ [characteristic]) rest ::
            after.map Service.undescribed }.askDescriptors before.length (first.length + 1))) := by
  have hformed := Database.formed_of_split h
  have hself : characteristic ∈ service.characteristics := by simp [hsplit]
  have hend := service.descriptorEnd_describedTo hsplit characteristic.value
  by_cases room : characteristic.value < service.descriptorEnd characteristic.value
  · have hnext : { peer with
        services := before ++ service.describedTo first (characteristic :: rest) ::
          after.map Service.undescribed }.nextSlot? before.length first.length =
          some ⟨before.length, first.length, characteristic.value,
            (service.describedTo first (characteristic :: rest)).descriptorEnd
              characteristic.value⟩ :=
      Peer.nextSlot?_of_lt (service.describedTo first (characteristic :: rest))
        characteristic.bare rfl rfl rfl rfl (lt_of_lt_of_eq room hend.symm)
    rw [hend] at hnext
    have hbefore : ∀ s ∈ before, ¬ ∃ c ∈ s.characteristics, c.value = characteristic.value := by
      rintro other hother ⟨c, hc, heq⟩
      exact Database.value_ne h hself other (List.mem_append_left _ hother) c hc heq
    have hfold := Peer.foldlM_file_descriptors
      { peer with progress := .descriptors before.length first.length } before
      (after.map Service.undescribed) service first (rest.map Characteristic.bare) characteristic []
      characteristic.descriptors hbefore (hformed.value_ne hsplit)
      (by simpa using hformed.descriptorRoom characteristic hself)
    rw [onward_askDescriptors hnext hconn, Database.answer_discoverDescriptors conn h hsplit,
      Service.descriptorInquiry, if_pos room, Service.describedTo_append]
    refine leads_answer hfold known hconn ?_ trivial rfl
    intro entry hentry
    obtain ⟨d, -, rfl⟩ := List.mem_map.1 hentry
    exact ⟨trivial, rfl⟩
  · have hnext : { peer with
        services := before ++ service.describedTo first (characteristic :: rest) ::
          after.map Service.undescribed }.nextSlot? before.length first.length = _ :=
      Peer.nextSlot?_of_not_lt (service.describedTo first (characteristic :: rest))
        characteristic.bare rfl rfl rfl rfl (fun hlt => room (lt_of_lt_of_eq hlt hend))
    have hnil := hformed.descriptors_eq_nil hself room
    rw [Peer.askDescriptors, hnext, Service.descriptorInquiry, if_neg room, List.append_nil,
      Service.describedTo_append, Service.describedTo, List.map_cons,
      Characteristic.bare_eq_self hnil]
    exact Leads.refl _

/-- The descriptors of the service at the place of the walk are filed. -/
theorem leads_described (known : link.peers.find? conn = some old) (hconn : peer.conn = conn)
    (h : database.services = before ++ service :: after) {first rest : List Characteristic}
    (hsplit : service.characteristics = first ++ rest) (asked : List Request) :
    Leads database conn
      (onward database conn link asked []
        ({ peer with
          services := before ++ service.describedTo first rest ::
            after.map Service.undescribed }.askDescriptors before.length first.length))
      (onward database conn link
        (asked ++ rest.flatMap (service.descriptorInquiry conn)) []
        ({ peer with
          services := before ++ service :: after.map Service.undescribed }.askDescriptors
            (before.length + 1) 0)) := by
  induction rest generalizing first asked with
  | nil =>
    rw [List.append_nil] at hsplit
    subst hsplit
    have hself : service.describedTo service.characteristics [] = service := by
      simp [Service.describedTo]
    have hnext : { peer with
        services := before ++ service :: after.map Service.undescribed }.nextSlot? before.length
          service.characteristics.length = _ := Peer.nextSlot?_of_service_over service rfl rfl rfl
    rw [hself, Peer.askDescriptors, hnext, List.flatMap_nil, List.append_nil]
    exact Leads.refl _
  | cons characteristic rest ih =>
    refine Leads.trans (leads_characteristic known hconn h hsplit asked) ?_
    have hsplit' : service.characteristics = (first ++ [characteristic]) ++ rest := by
      simp [hsplit]
    have hrest := ih hsplit' (asked ++ service.descriptorInquiry conn characteristic)
    simpa using hrest

/-- **The third phase files the descriptors.** -/
theorem leads_descriptors (known : link.peers.find? conn = some old) (hconn : peer.conn = conn)
    (h : database.services = before ++ after) (asked : List Request) :
    Leads database conn
      (onward database conn link asked []
        ({ peer with
          services := before ++ after.map Service.undescribed }.askDescriptors before.length 0))
      (onward database conn link
        (asked ++ after.flatMap fun service =>
          service.characteristics.flatMap (service.descriptorInquiry conn)) []
        (.done ({ peer with services := database.services, progress := .complete },
          some .complete))) := by
  induction after generalizing before asked with
  | nil =>
    have hnext : { peer with services := before }.nextSlot? before.length 0 = none :=
      Peer.nextSlot?_length rfl
    simp only [List.append_nil, List.map_nil, List.flatMap_nil] at h ⊢
    rw [Peer.askDescriptors, hnext, h]
    exact Leads.refl _
  | cons service after ih =>
    have hdescribed : service.undescribed = service.describedTo [] service.characteristics := rfl
    rw [List.map_cons, hdescribed]
    refine Leads.trans (leads_described known hconn h (List.nil_append _).symm asked) ?_
    have hsplit : database.services = (before ++ [service]) ++ after := by simp [h]
    have hrest := ih hsplit
      (asked ++ service.characteristics.flatMap (service.descriptorInquiry conn))
    simpa using hrest

/-! ## The walk -/

/-- **The walk files the database as it is.** -/
theorem leads_walk (database : Database) (link : Link) (known : link.peers.find? conn = some old)
    (hconn : peer.conn = conn) :
    Leads database conn
      ⟨link.refreshed { peer with services := [], progress := .services },
        database.answer conn (.discoverServices conn), [.discoverServices conn]⟩
      (onward database conn link (database.inquiries conn) []
        (.done ({ peer with services := database.services, progress := .complete },
          some .complete))) := by
  have hcharacteristics := leads_characteristics known hconn
    (List.nil_append database.services).symm [.discoverServices conn]
  have hdescriptors := leads_descriptors known hconn (List.nil_append database.services).symm
    (.discoverServices conn :: database.services.flatMap (·.inquiry conn))
  exact Leads.trans (leads_services known hconn _) (Leads.trans hcharacteristics hdescriptors)

/-! ## Subscribing -/

/-- What switches a characteristic on is asked for if there is anything to ask for. -/
theorem subscription_eq (conn : ConnHandle) (characteristic : Characteristic) :
    characteristic.subscription conn = (characteristic.switch? conn).toList := by
  unfold Characteristic.subscription Characteristic.switch?
  by_cases pushes : characteristic.properties.Pushes
  · obtain ⟨bits, hbits, hdata⟩ := Properties.subscription?_of_pushes pushes
    rw [hbits, if_pos pushes, ← hdata]
    cases characteristic.find? Uuid.clientConfiguration <;> rfl
  · rw [Properties.subscription?_of_not_pushes pushes, if_neg pushes]
    rfl

/-- What switching on the camera service asks for, with a host that takes every request on. -/
theorem requests_subscribeAll (hconn : peer.conn = conn)
    (found : peer.findService? Uuid.cameraService = some service) :
    (peer.subscribeAll.run agree ()).requests =
      service.characteristics.flatMap (·.subscription conn) := by
  subst hconn
  have yields := Dialogue.yields_run agree peer.subscribeAll ()
  refine (Peer.yields_subscribeAll_iff.1 yields).1.trans ?_
  unfold Peer.subscriptions Peer.cameraCharacteristics
  rw [found, Option.map_some, Option.getD_some, List.filterMap_eq_flatMap_toList]
  simp only [subscription_eq]

/-- There is nothing to report about writes. -/
theorem answer_subscriptions (database : Database) (conn : ConnHandle)
    (characteristics : List Characteristic) :
    (characteristics.flatMap (·.subscription conn)).flatMap (database.answer conn) = [] := by
  refine List.flatMap_eq_nil_iff.2 fun request hrequest => ?_
  obtain ⟨characteristic, -, hmem⟩ := List.mem_flatMap.1 hrequest
  unfold Characteristic.subscription at hmem
  split at hmem
  · obtain rfl := List.mem_singleton.1 hmem
    exact if_pos rfl
  · cases hmem

/-! ## The whole discovery -/

/-- On an encrypted connection the walk begins. -/
theorem leads_encrypted (known : link.peers.find? conn = some peer)
    (halted : ¬ peer.progress.InFlight) :
    Leads database conn ⟨link, [.encryptionChange conn .success], []⟩
      ⟨{ link with stage := .serviceDiscovery }.refreshed
          { peer with services := [], progress := .services },
        database.answer conn (.discoverServices conn), [.discoverServices conn]⟩ := by
  have hconn : peer.conn = conn := Registry.conn_of_find?_eq_some known
  subst hconn
  have hrun : (link.onEncryptionChange peer.conn .success).run agree () =
      ⟨({ link with stage := .serviceDiscovery }.refreshed
          { peer with services := [], progress := .services }, .nothing),
        [⟨.discoverServices peer.conn, .accepted⟩], ()⟩ := by
    unfold onEncryptionChange Registry.discoverAll Peer.startWalk
    simp only [known, if_neg halted]
    rfl
  refine Leads.of_event ?_
  change Leads database peer.conn
    (resume database peer.conn [] [] (link.onEncryptionChange peer.conn .success)) _
  unfold resume Dialogue.Run.requests
  rw [hrun, List.map_singleton, List.flatMap_singleton, List.nil_append, List.nil_append]
  exact Leads.refl _

/-- At the end of the walk the camera service is switched on, and the link is ready. -/
theorem onward_complete (database : Database) (link : Link) (peer : Peer)
    (known : link.peers.find? conn = some old) (hconn : peer.conn = conn) (asked : List Request)
    (camera : link.camera.conn = some conn)
    (found : peer.findService? Uuid.cameraService = some service) {command : Characteristic}
    (takes : service.find? Uuid.command = some command) :
    onward database conn link asked [] (.done (peer, some .complete)) =
      ⟨{ link.refreshed peer with
          stage := .ready
          camera := { link.camera with commandHandle := some command.value } },
        [], asked ++ service.characteristics.flatMap (·.subscription conn)⟩ := by
  have hself : (link.refreshed peer).peers.find? conn = some peer := by
    subst hconn
    exact Registry.find?_put_self known
  have hhandle : peer.commandHandle? = some command.value := by
    rw [Peer.commandHandle?, found, Option.bind_some, takes, Option.map_some]
  have hsubscribed : (link.refreshed peer).subscribed peer =
      { link.refreshed peer with
        stage := .ready
        camera := { link.camera with commandHandle := some command.value } } := by
    rw [subscribed, hhandle, hconn]
    exact if_pos camera
  change resume database conn [] (asked ++ []) ((link.refreshed peer).onWalkComplete conn) = _
  rw [onWalkComplete, hself, List.append_nil]
  change resume database conn [] asked (peer.subscribeAll >>= fun _ =>
    .done ((link.refreshed peer).subscribed peer, .nothing)) = _
  rw [resume_bind, requests_subscribeAll hconn found, answer_subscriptions, hsubscribed]
  simp [resume, Dialogue.Run.requests]

/-- **Every well-formed camera is discovered.**  On an encrypted connection of the camera the walk
files the whole database as it is, whatever the database is, and then the link is ready for commands
to the characteristic for commands.  What is asked for on the way is what there is to ask about, in
order, and nothing waits to be reported at the end. -/
theorem discovery (known : link.peers.find? conn = some peer) (halted : ¬ peer.progress.InFlight)
    (camera : link.camera.conn = some conn)
    (found : database.services.find? (·.uuid ≈ Uuid.cameraService) = some service)
    {command : Characteristic} (takes : service.find? Uuid.command = some command) :
    Leads database conn ⟨link, [.encryptionChange conn .success], []⟩
      ⟨{ link with
          stage := .ready
          peers := link.peers.put { peer with services := database.services, progress := .complete }
          camera := { link.camera with commandHandle := some command.value } },
        [], database.inquiries conn ++ service.characteristics.flatMap (·.subscription conn)⟩ := by
  have hconn : peer.conn = conn := Registry.conn_of_find?_eq_some known
  have hwalk := leads_walk database { link with stage := .serviceDiscovery } known hconn
  have hcomplete := onward_complete database { link with stage := .serviceDiscovery }
    { peer with services := database.services, progress := .complete } known hconn
    (database.inquiries conn) camera found takes
  rw [hcomplete] at hwalk
  exact Leads.trans (leads_encrypted known halted) hwalk

/-! ### One camera -/

/-- A camera that takes commands and notifies their results, with one more service that has no room
for anything. -/
def sample : Database where
  services :=
    [⟨⟨.short 0x180A, 1, 1⟩, []⟩,
      ⟨⟨Uuid.cameraService, 2, 9⟩,
        [⟨⟨Uuid.command, 3, 4, ⟨Properties.write⟩⟩, []⟩,
          ⟨⟨Uuid.commandResponse, 5, 6, ⟨Properties.notify⟩⟩,
            [⟨Uuid.clientConfiguration, 7⟩]⟩]⟩]
  room := by decide
  disjoint := by decide
  formed := by
    simp only [List.forall_mem_cons]
    refine ⟨?_, ?_, ?_⟩
    · constructor <;> decide
    · constructor <;> decide
    · simp

/-- The camera is discovered on a link that has just come up. -/
theorem discovery_sample :
    let link := Link.after (new {})
      [(.event (.linkEstablished 5 sampleAddress .success), {})]
    ∃ session, Leads sample 5 ⟨link, [.encryptionChange 5 .success], []⟩ session ∧
      session.link.stage = .ready ∧ session.link.camera.commandHandle = some 4 ∧
      session.queue = [] ∧
      session.asked = [.discoverServices 5, .discoverCharacteristics 5 2 9,
        .discoverDescriptors 5 6 9, .write 5 7 [0x01, 0x00]] := by
  intro link
  have known : link.peers.find? 5 =
      some { conn := 5, address := sampleAddress } := by decide
  have halted : ¬ Progress.notStarted.InFlight := by decide
  have camera : link.camera.conn = some 5 := by decide
  have h : Leads sample 5 ⟨link, [.encryptionChange 5 .success], []⟩ _ :=
    discovery known halted camera rfl rfl
  exact ⟨_, h, rfl, rfl, rfl, by decide⟩

end Session

end Link

end CameraCentral
