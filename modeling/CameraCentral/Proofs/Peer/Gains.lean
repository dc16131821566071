import CameraCentral.Proofs.Peer.Entries
import CameraCentral.Proofs.Peer.Filing
import Mathlib.Logic.Function.Basic

/-!
# What a peer gains by an entry

An entry that is filed is one more entry in one table of the peer's database, and everything else
stays where it is.  `Peer.Gains` shows the place: the tables are split there, and the entries in
front of it are those that the search for it passes over.  `gains_iff` says that filing does exactly
this or is refused.

The tables themselves are only seen through the look-ups of a peer, which take the first entry that
they find.  An entry may therefore come to stand in front of another one of the same name, or behind
it; `Gains.seen` says what is found afterwards in each case.
-/

namespace CameraCentral

/-- Nothing is found among entries that all fail `p`. -/
theorem find?_eq_none_of_forall {α : Type} {p : α → Prop} [DecidablePred p] {front : List α}
    (passed : ∀ a ∈ front, ¬ p a) : front.find? (fun a => p a) = none :=
  List.find?_eq_none.2 fun a ha => by simpa using passed a ha

/-- What is found in a list that is split at an entry. -/
theorem find?_append_cons {α : Type} (p : α → Bool) (front : List α) (entry : α)
    (back : List α) : (front ++ entry :: back).find? p =
      (front.find? p).or (if p entry then some entry else back.find? p) := by
  rw [List.find?_append, List.find?_cons]
  split <;> simp [*]

namespace Peer

/-- What a peer gains by an entry that is filed. -/
inductive Gains (peer : Peer) : Finding → Peer → Prop
  /-- A service goes behind the others.  Its range is not reversed. -/
  | service (decl : ServiceDecl) (ordered : decl.first ≤ decl.last)
      (room : peer.services.length < Settings.maxServices) :
    Gains peer (.service decl) { peer with services := peer.services ++ [{ decl with }] }
  /-- A characteristic goes behind the others of the first service that contains both its
  handles. -/
  | characteristic (decl : CharacteristicDecl) (before : List Service) (service : Service)
      (after : List Service) (split : peer.services = before ++ service :: after)
      (passed : ∀ s ∈ before, ¬ (s.Contains decl.declaration ∧ s.Contains decl.value))
      (contains : service.Contains decl.declaration ∧ service.Contains decl.value)
      (room : service.characteristics.length < Settings.maxCharacteristics) :
    Gains peer (.characteristic decl)
      { peer with services := before ++ service.withCharacteristic decl :: after }
  /-- A descriptor goes behind the others of the first characteristic, in the order of the services,
  whose value has the handle. -/
  | descriptor (value : AttHandle) (d : Descriptor) (before : List Service) (service : Service)
      (after : List Service) (split : peer.services = before ++ service :: after)
      (passed : ∀ s ∈ before, ∀ c ∈ s.characteristics, c.value ≠ value)
      (first : List Characteristic) (c : Characteristic) (rest : List Characteristic)
      (split' : service.characteristics = first ++ c :: rest)
      (passed' : ∀ c ∈ first, c.value ≠ value) (found : c.value = value)
      (room : c.descriptors.length < Settings.maxDescriptors) :
    Gains peer (.descriptor value d)
      { peer with
        services := before ++
          { service with characteristics := first ++ c.withDescriptor d :: rest } :: after }

variable {peer peer' : Peer} {entry : Finding}

/-! ## Filing is gaining -/

theorem addService_eq_ok_iff {decl : ServiceDecl} :
    peer.addService decl = .ok peer' ↔ peer.Gains (.service decl) peer' := by
  constructor
  · intro h
    unfold addService at h
    split at h
    · cases h
    · rename_i ordered
      obtain ⟨services, hpush, rfl⟩ := map_eq_ok_iff.1 h
      obtain ⟨room, rfl⟩ := Table.push_eq_ok_iff.1 hpush
      exact .service decl (by grind) room
  · intro gains
    cases gains with
    | service _ ordered room => exact addService_eq_ok ordered room

theorem addCharacteristic_eq_ok_iff {decl : CharacteristicDecl} :
    peer.addCharacteristic decl = .ok peer' ↔ peer.Gains (.characteristic decl) peer' := by
  constructor
  · intro h
    obtain ⟨services, halter, rfl⟩ := map_eq_ok_iff.1 h
    obtain ⟨before, service, service', after, split, passed, contains, hadd, rfl⟩ :=
      Table.alterFirst_eq_ok_iff.1 halter
    obtain ⟨characteristics, hpush, rfl⟩ := map_eq_ok_iff.1 hadd
    obtain ⟨room, rfl⟩ := Table.push_eq_ok_iff.1 hpush
    exact .characteristic decl before service after split passed contains room
  · intro gains
    cases gains with
    | characteristic _ before service after split passed contains room =>
      exact addCharacteristic_eq_ok service split passed contains room

theorem addDescriptor_eq_ok_iff {value : AttHandle} {d : Descriptor} :
    peer.addDescriptor value d = .ok peer' ↔ peer.Gains (.descriptor value d) peer' := by
  constructor
  · intro h
    obtain ⟨services, halter, rfl⟩ := map_eq_ok_iff.1 h
    obtain ⟨before, service, service', after, split, passed, -, hadd, rfl⟩ :=
      Table.alterFirst_eq_ok_iff.1 halter
    obtain ⟨characteristics, hcharacteristics, rfl⟩ := map_eq_ok_iff.1 hadd
    obtain ⟨first, c, c', rest, split', passed', found, hc, rfl⟩ :=
      Table.alterFirst_eq_ok_iff.1 hcharacteristics
    obtain ⟨descriptors, hpush, rfl⟩ := map_eq_ok_iff.1 hc
    obtain ⟨room, rfl⟩ := Table.push_eq_ok_iff.1 hpush
    exact .descriptor value d before service after split (by simpa using passed) first c rest split'
      passed' found room
  · intro gains
    cases gains with
    | descriptor _ _ before service after split passed first c rest split' passed' found room =>
      exact addDescriptor_eq_ok service c split split' (by simpa using passed) passed' found room

/-- **An entry is filed exactly if the peer gains it.** -/
theorem gains_iff (isEntry : entry.status? = none) :
    peer.file entry = .ok peer' ↔ peer.Gains entry peer' := by
  cases entry with
  | service decl => exact addService_eq_ok_iff
  | characteristic decl => exact addCharacteristic_eq_ok_iff
  | descriptor value d => exact addDescriptor_eq_ok_iff
  | servicesDone _ | characteristicsDone _ | descriptorsDone _ => cases isEntry

/-! ## What the look-ups see -/

/-- What the look-ups of a peer see of an entry that was filed.  A service is found unless another
one of its name was found before.  A characteristic is added to the first service that contains both
its handles, and in that service is seen by a look-up that finds it; under the handle of its value
there is a characteristic to be found, which is the new one or was found there before.  A descriptor
is added to the characteristic that is found under the handle.  Nothing else is found in another
way. -/
def Seen (peer peer' : Peer) : Finding → Prop
  | .service decl =>
    (∀ uuid, peer'.findService? uuid =
      (peer.findService? uuid).or (if decl.uuid ≈ uuid then some { decl with } else none)) ∧
    peer'.findCharacteristic? = peer.findCharacteristic?
  | .characteristic decl =>
    ∃ service,
      (peer.services.find? fun s => s.Contains decl.declaration ∧ s.Contains decl.value) =
        some service ∧
      (∀ uuid, peer'.findService? uuid = peer.findService? uuid ∨
        peer.findService? uuid = some service ∧
          peer'.findService? uuid = some (service.withCharacteristic decl)) ∧
      ∃ found, (found = { decl with } ∨ peer.findCharacteristic? decl.value = some found) ∧
        peer'.findCharacteristic? =
          Function.update peer.findCharacteristic? decl.value (some found)
  | .descriptor value d =>
    ∃ c, peer.findCharacteristic? value = some c ∧
      peer'.findCharacteristic? =
        Function.update peer.findCharacteristic? value (some (c.withDescriptor d))
  | .servicesDone _ | .characteristicsDone _ | .descriptorsDone _ => False

/-- The characteristics of a database that is split at a service. -/
theorem findCharacteristic?_split {before after : List Service} {service : Service}
    (split : peer.services = before ++ service :: after) (value : AttHandle) :
    peer.findCharacteristic? value =
      ((before.flatMap (·.characteristics)).find? fun c => c.value = value).or
        ((service.characteristics.find? fun c => c.value = value).or
          ((after.flatMap (·.characteristics)).find? fun c => c.value = value)) := by
  rw [findCharacteristic?, split, List.flatMap_append, List.flatMap_cons, List.find?_append,
    List.find?_append]

theorem Gains.seen_service {decl : ServiceDecl} (gains : peer.Gains (.service decl) peer') :
    peer.Seen peer' (.service decl) := by
  cases gains with
  | service _ ordered room =>
    constructor
    · intro uuid
      rw [findService?, List.find?_append, List.find?_singleton]
      simp [findService?]
    · funext value
      simp [findCharacteristic?]

/-- Where a characteristic was added behind the others of one service, the look-ups for other
handles find what they found before. -/
theorem findCharacteristic?_withCharacteristic {before after : List Service} {service : Service}
    (split : peer.services = before ++ service :: after) (decl : CharacteristicDecl) :
    ∃ found : Characteristic,
      (found = { decl with } ∨ peer.findCharacteristic? decl.value = some found) ∧
      findCharacteristic?
          { peer with services := before ++ service.withCharacteristic decl :: after } =
        Function.update peer.findCharacteristic? decl.value (some found) := by
  have hafter : ∀ value, findCharacteristic?
      { peer with services := before ++ service.withCharacteristic decl :: after } value =
        ((before.flatMap (·.characteristics)).find? fun c => c.value = value).or
          (((service.characteristics.find? fun c => c.value = value).or
            (if decl.value = value then some { decl with } else none)).or
              ((after.flatMap (·.characteristics)).find? fun c => c.value = value)) := by
    intro value
    rw [findCharacteristic?_split rfl value, Service.withCharacteristic, List.find?_append,
      List.find?_singleton]
    simp
  have hothers : ∀ value ≠ decl.value, findCharacteristic?
      { peer with services := before ++ service.withCharacteristic decl :: after } value =
        peer.findCharacteristic? value := by
    intro value hne
    rw [hafter, findCharacteristic?_split split, if_neg hne.symm, Option.or_none]
  -- under its own handle the characteristic is found, unless one in front of it has the handle
  obtain ⟨found, hfound, hown⟩ : ∃ found : Characteristic,
      (found = { decl with } ∨ peer.findCharacteristic? decl.value = some found) ∧
      findCharacteristic?
        { peer with services := before ++ service.withCharacteristic decl :: after } decl.value =
          some found := by
    rw [hafter, findCharacteristic?_split split, if_pos rfl]
    cases (before.flatMap (·.characteristics)).find? fun c => c.value = decl.value with
    | some c => exact ⟨c, .inr rfl, rfl⟩
    | none =>
      cases service.characteristics.find? fun c => c.value = decl.value with
      | some c => exact ⟨c, .inr rfl, rfl⟩
      | none => exact ⟨_, .inl rfl, rfl⟩
  refine ⟨found, hfound, funext fun value => ?_⟩
  by_cases h : value = decl.value
  · rw [h, hown, Function.update_self]
  · rw [hothers value h, Function.update_of_ne h]

theorem Gains.seen_characteristic {decl : CharacteristicDecl}
    (gains : peer.Gains (.characteristic decl) peer') : peer.Seen peer' (.characteristic decl) := by
  cases gains with
  | characteristic _ before service after split passed contains room =>
    refine ⟨service, ?_, fun uuid => ?_, ?_⟩
    · rw [split, find?_append_cons, find?_eq_none_of_forall passed]
      simp [contains]
    · have huuid : (service.withCharacteristic decl).uuid = service.uuid := rfl
      simp only [findService?, split, find?_append_cons, huuid]
      cases before.find? fun s => s.uuid ≈ uuid with
      | some s => exact .inl rfl
      | none =>
        simp only [Option.none_or]
        by_cases hname : service.uuid ≈ uuid
        · have hfound : decide (service.uuid ≈ uuid) = true := decide_eq_true hname
          exact .inr ⟨if_pos hfound, if_pos hfound⟩
        · have hmissed : ¬ decide (service.uuid ≈ uuid) = true :=
            fun h => hname (of_decide_eq_true h)
          exact .inl ((if_neg hmissed).trans (if_neg hmissed).symm)
    · exact findCharacteristic?_withCharacteristic split decl

theorem Gains.seen_descriptor {value : AttHandle} {d : Descriptor}
    (gains : peer.Gains (.descriptor value d) peer') : peer.Seen peer' (.descriptor value d) := by
  cases gains with
  | descriptor _ _ before service after split passed first c rest split' passed' found room =>
    have hbefore :
        ((before.flatMap (·.characteristics)).find? fun c => c.value = value) = none := by
      refine find?_eq_none_of_forall fun c hc => ?_
      obtain ⟨s, hs, hc⟩ := List.mem_flatMap.1 hc
      exact passed s hs c hc
    have hfirst : (first.find? fun c => c.value = value) = none := find?_eq_none_of_forall passed'
    refine ⟨c, ?_, funext fun other => ?_⟩
    · rw [findCharacteristic?_split split, hbefore, split', find?_append_cons, hfirst]
      simp [found]
    · have hvalue : (c.withDescriptor d).value = c.value := rfl
      rw [findCharacteristic?_split rfl, find?_append_cons, hvalue]
      by_cases h : other = value
      · subst h
        rw [hbefore, hfirst, Function.update_self]
        simp [found]
      · have hne : ¬ c.value = other := fun heq => h (heq.symm.trans found)
        rw [Function.update_of_ne h, findCharacteristic?_split split, split', find?_append_cons]
        simp [hne]

/-- **The look-ups see an entry that was filed, and nothing else that is new.** -/
theorem Gains.seen (gains : peer.Gains entry peer') : peer.Seen peer' entry := by
  cases entry with
  | service decl => exact gains.seen_service
  | characteristic decl => exact gains.seen_characteristic
  | descriptor value d => exact gains.seen_descriptor
  | servicesDone _ | characteristicsDone _ | descriptorsDone _ => cases gains

end Peer

end CameraCentral
