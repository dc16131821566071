import CameraCentral.Proofs.Peer.Outcome
import CameraCentral.Proofs.Peer.Placement

/-!
# Every walk ends

A walk waits at a place of its database for the end of an answer, and each end of an answer that it
takes in ends the walk or sends it to a place further on (`Peer.WalkStep.moves`).  What else it is
told ends it or leaves it where it is.

That alone would not end a walk, because its tables grow while it is under way, and the end of an
answer to one request begins the count of characteristics anew.  But no place is passed twice, and
tables that grow keep the places that they have.  So the places that were passed, but for the one at
which the walk began, are different places of the tables as they are at the end, whatever the peer
reports and however its handles lie (`Toured`), and there are no more of these than services and
characteristics.
-/

namespace CameraCentral

/-! ## Places -/

/-- The order in which a walk comes to its places. -/
inductive Progress.Precedes : Progress → Progress → Prop
  | characteristics (i : Nat) : Precedes .services (.characteristics i)
  | descriptors (i j : Nat) : Precedes .services (.descriptors i j)
  | nextService {i i' : Nat} (h : i < i') : Precedes (.characteristics i) (.characteristics i')
  | nextPhase (i i' j' : Nat) : Precedes (.characteristics i) (.descriptors i' j')
  | nextCharacteristic {i j i' j' : Nat} (h : i < i' ∨ i = i' ∧ j < j') :
    Precedes (.descriptors i j) (.descriptors i' j')

/-- A finding is the end of the answer for which a walk waits at this place. -/
def Progress.AnsweredBy (progress : Progress) (finding : Finding) : Prop :=
  progress.Expects finding ∧ finding.status?.isSome

instance (progress : Progress) (finding : Finding) : Decidable (progress.AnsweredBy finding) :=
  inferInstanceAs (Decidable (_ ∧ _))

/-- A place is not passed before itself. -/
theorem Progress.not_precedes_self (progress : Progress) : ¬ progress.Precedes progress := by
  intro h
  cases h with
  | nextService h => exact Nat.lt_irrefl _ h
  | nextCharacteristic h => omega

/-- What is behind a place that is behind another is behind that one. -/
theorem Progress.Precedes.trans {progress progress' progress'' : Progress}
    (h : progress.Precedes progress') (h' : progress'.Precedes progress'') :
    progress.Precedes progress'' := by
  cases h with
  | characteristics i =>
    cases h' with
    | nextService _ => exact .characteristics _
    | nextPhase _ i' j' => exact .descriptors i' j'
  | descriptors i j =>
    cases h' with
    | nextCharacteristic _ => exact .descriptors _ _
  | nextService h =>
    cases h' with
    | nextService h' => exact .nextService (Nat.lt_trans h h')
    | nextPhase _ i' j' => exact .nextPhase _ i' j'
  | nextPhase i i' j' =>
    cases h' with
    | nextCharacteristic _ => exact .nextPhase _ _ _
  | nextCharacteristic h =>
    cases h' with
    | nextCharacteristic h' => exact .nextCharacteristic (by omega)

/-- Every place that is behind another is behind the first one. -/
theorem Progress.Precedes.of_start {progress progress' : Progress}
    (h : progress.Precedes progress') : Precedes .services progress' := by
  cases h with
  | characteristics i => exact .characteristics i
  | descriptors i j => exact .descriptors i j
  | nextService _ => exact .characteristics _
  | nextPhase _ i' j' => exact .descriptors i' j'
  | nextCharacteristic _ => exact .descriptors _ _

namespace Peer

variable {peer peer' : Peer} {finding : Finding} {exchanges : List Exchange}
  {outcome : Option Outcome} {progress : Progress}

/-- The places of a database at which a walk can wait, but for the first one: at every service for
its characteristics, and at every characteristic for its descriptors. -/
def places (peer : Peer) : List Progress :=
  (List.range peer.services.length).map .characteristics ++
    peer.services.zipIdx.flatMap fun (service, i) =>
      (List.range service.characteristics.length).map (.descriptors i)

/-- There are as many places as services and characteristics. -/
theorem length_places (peer : Peer) :
    peer.places.length =
      peer.services.length + (peer.services.flatMap (·.characteristics)).length := by
  have hslots : ∀ (services : List Service) (n : Nat),
      ((services.zipIdx n).flatMap fun (service, i) =>
        (List.range service.characteristics.length).map (Progress.descriptors i)).length =
          (services.flatMap (·.characteristics)).length := by
    intro services
    induction services with
    | nil => exact fun _ => rfl
    | cons service services ih =>
      intro n
      rw [List.zipIdx_cons, List.flatMap_cons, List.flatMap_cons, List.length_append,
        List.length_append, ih (n + 1), List.length_map, List.length_range]
  rw [places, List.length_append, List.length_map, List.length_range, hslots]

/-- The places of a database are those that a cursor behind the first place can point to. -/
theorem mem_places_iff :
    progress ∈ peer.places ↔
      Progress.Precedes .services progress ∧ progress.PointsInto peer.services := by
  unfold places
  rw [List.mem_append, List.mem_map, List.mem_flatMap]
  constructor
  · rintro (⟨i, hi, rfl⟩ | ⟨⟨service, i⟩, hservice, hslot⟩)
    · exact ⟨.characteristics i, _, List.getElem?_eq_getElem (List.mem_range.1 hi)⟩
    · obtain ⟨j, hj, rfl⟩ := List.mem_map.1 hslot
      exact ⟨.descriptors i j, service, _, List.mk_mem_zipIdx_iff_getElem?.1 hservice,
        List.getElem?_eq_getElem (List.mem_range.1 hj)⟩
  · rintro ⟨later, points⟩
    cases later with
    | characteristics i =>
      obtain ⟨service, hservice⟩ := points
      exact .inl ⟨i, List.mem_range.2 (List.getElem?_eq_some_iff.1 hservice).1, rfl⟩
    | descriptors i j =>
      obtain ⟨service, c, hservice, hc⟩ := points
      refine .inr ⟨(service, i), List.mk_mem_zipIdx_iff_getElem?.2 hservice, ?_⟩
      exact List.mem_map.2 ⟨j, List.mem_range.2 (List.getElem?_eq_some_iff.1 hc).1, rfl⟩

/-- Tables in which every service stays at its index and loses no characteristic keep their
places. -/
theorem places_subset (kept : ∀ (i : Nat) (service : Service), peer.services[i]? = some service →
      ∃ service' : Service, peer'.services[i]? = some service' ∧
        service.characteristics.length ≤ service'.characteristics.length) :
    peer.places ⊆ peer'.places := by
  intro progress hprogress
  obtain ⟨later, points⟩ := mem_places_iff.1 hprogress
  exact mem_places_iff.2 ⟨later, points.mono kept⟩

/-! ## Moving on -/

/-- A walk that asks for descriptors and goes on is at the place from which it asked, or behind. -/
theorem reaches_of_askDescriptors {i j : Nat}
    (yields : (peer.askDescriptors i j).Yields exchanges (peer', none)) :
    ∃ i' j', peer'.progress = .descriptors i' j' ∧ (i < i' ∨ i = i' ∧ j ≤ j') := by
  unfold askDescriptors at yields
  cases hnext : peer.nextSlot? i j with
  | none =>
    rw [hnext] at yields
    obtain ⟨-, hvalue⟩ := Dialogue.yields_done_iff.1 yields
    cases hvalue
  | some slot =>
    rw [hnext] at yields
    have hplace := List.find?_some hnext
    rcases yields.ask_cases with ⟨rest, rfl, hrest⟩ | ⟨why, rest, rfl, hrest⟩
    · obtain ⟨-, hvalue⟩ := Dialogue.yields_done_iff.1 hrest
      cases hvalue
      exact ⟨slot.service, slot.characteristic, rfl, of_decide_eq_true hplace⟩
    · obtain ⟨-, hvalue⟩ := Dialogue.yields_done_iff.1 hrest
      cases hvalue

/-- A walk that asks for characteristics and goes on is at the service from which it asked, or
behind, or it has come to the descriptors. -/
theorem reaches_of_askCharacteristics {i : Nat}
    (yields : (peer.askCharacteristics i).Yields exchanges (peer', none)) :
    (∃ i', peer'.progress = .characteristics i' ∧ i ≤ i') ∨
      ∃ i' j', peer'.progress = .descriptors i' j' := by
  unfold askCharacteristics at yields
  cases hnext : peer.nextSpan? i with
  | none =>
    rw [hnext] at yields
    obtain ⟨i', j', hprogress, -⟩ := reaches_of_askDescriptors yields
    exact .inr ⟨i', j', hprogress⟩
  | some span =>
    rw [hnext] at yields
    have hplace := List.find?_some hnext
    rcases yields.ask_cases with ⟨rest, rfl, hrest⟩ | ⟨why, rest, rfl, hrest⟩
    · obtain ⟨-, hvalue⟩ := Dialogue.yields_done_iff.1 hrest
      cases hvalue
      exact .inl ⟨span.service, rfl, of_decide_eq_true hplace⟩
    · obtain ⟨-, hvalue⟩ := Dialogue.yields_done_iff.1 hrest
      cases hvalue

/-- A walk that asks on and is not over has moved on. -/
theorem precedes_of_askOn (running : peer.progress.InFlight)
    (yields : peer.askOn.Yields exchanges (peer', none)) :
    peer.progress.Precedes peer'.progress := by
  unfold askOn at yields
  cases hprogress : peer.progress with
  | services =>
    rw [hprogress] at yields
    rcases reaches_of_askCharacteristics yields with ⟨i', hplace, -⟩ | ⟨i', j', hplace⟩
    · exact hplace ▸ .characteristics i'
    · exact hplace ▸ .descriptors i' j'
  | characteristics i =>
    rw [hprogress] at yields
    rcases reaches_of_askCharacteristics yields with ⟨i', hplace, hle⟩ | ⟨i', j', hplace⟩
    · exact hplace ▸ .nextService (Nat.lt_of_succ_le hle)
    · exact hplace ▸ .nextPhase i i' j'
  | descriptors i j =>
    rw [hprogress] at yields
    obtain ⟨i', j', hplace, hle⟩ := reaches_of_askDescriptors yields
    exact hplace ▸ .nextCharacteristic (by omega)
  | notStarted | complete | failed =>
    rw [hprogress] at running
    exact running.elim

/-- A finding leaves the entries that a database has where they are. -/
theorem WalkStep.places_subset (walk : peer.WalkStep finding exchanges peer' outcome) :
    peer.places ⊆ peer'.places := by
  refine Peer.places_subset fun i service hservice => ?_
  cases walk with
  | filed expected entry peer' h => exact ((gains_iff entry).1 h).kept i service hservice
  | goesOn expected status done success yields step =>
    exact ⟨service, step.services_eq.symm ▸ hservice, Nat.le_refl _⟩
  | unexpected | unfiled | broken => exact ⟨service, hservice, Nat.le_refl _⟩

/-- **A walk moves on at the end of an answer, and only then.**  A finding that does not end a walk
sends it further on, to a place of its database, if it ends the answer for which the walk waits, and
otherwise leaves it where it is. -/
theorem WalkStep.moves (walk : peer.WalkStep finding exchanges peer' none) :
    if peer.progress.AnsweredBy finding then
      peer.progress.Precedes peer'.progress ∧ peer'.progress ∈ peer'.places
    else peer'.progress = peer.progress := by
  cases walk with
  | unexpected unexpected =>
    rw [if_neg fun answered => unexpected answered.1]
  | filed expected entry peer' h =>
    rw [if_neg fun answered => by simpa [entry] using answered.2, file_eq_ok h]
  | goesOn expected status done success yields step =>
    rw [if_pos ⟨expected, by rw [done]; rfl⟩]
    have moved := precedes_of_askOn (Progress.inFlight_of_expects expected) yields
    exact ⟨moved, mem_places_iff.2 ⟨moved.of_start, step.pointsInto⟩⟩

/-! ## The places that were passed -/

/-- A walk has passed these places, in the order in which it came to them.  All but the first are
places of its database, and while it is under way it is at a place behind them. -/
structure Toured (peer : Peer) (passed : List Progress) : Prop where
  inOrder : passed.Pairwise Progress.Precedes
  there : ∀ place ∈ passed.tail, place ∈ peer.places
  ahead : peer.progress.InFlight → ∀ place ∈ passed, place.Precedes peer.progress
  arrived : peer.progress.InFlight → passed ≠ [] → peer.progress ∈ peer.places

variable {passed : List Progress}

/-- A walk that passes nothing is at the same place of a database that may have grown, or it is
over. -/
theorem Toured.stay (toured : peer.Toured passed) (grown : peer.places ⊆ peer'.places)
    (same : peer'.progress.InFlight → peer'.progress = peer.progress) : peer'.Toured passed where
  inOrder := toured.inOrder
  there place hplace := grown (toured.there place hplace)
  ahead running := by
    have hsame := same running
    rw [hsame] at running ⊢
    exact toured.ahead running
  arrived running hpassed := by
    have hsame := same running
    rw [hsame] at running ⊢
    exact grown (toured.arrived running hpassed)

/-- A walk passes the place where it is when it goes on to a place behind it, or when it ends. -/
theorem Toured.pass (toured : peer.Toured passed) (running : peer.progress.InFlight)
    (grown : peer.places ⊆ peer'.places)
    (moved : peer'.progress.InFlight →
      peer.progress.Precedes peer'.progress ∧ peer'.progress ∈ peer'.places) :
    peer'.Toured (passed ++ [peer.progress]) where
  inOrder := by
    refine List.pairwise_append.2 ⟨toured.inOrder, List.pairwise_singleton _ _, ?_⟩
    intro place hplace last hlast
    obtain rfl := List.mem_singleton.1 hlast
    exact toured.ahead running place hplace
  there := by
    intro place hplace
    cases passed with
    | nil => cases hplace
    | cons first rest =>
      rcases List.mem_append.1 hplace with hplace | hplace
      · exact grown (toured.there place hplace)
      · obtain rfl := List.mem_singleton.1 hplace
        exact grown (toured.arrived running (List.cons_ne_nil _ _))
  ahead running' := by
    obtain ⟨precedes, -⟩ := moved running'
    refine List.forall_mem_append.2 ⟨fun place hplace => ?_, List.forall_mem_singleton.2 precedes⟩
    exact (toured.ahead running place hplace).trans precedes
  arrived running' _ := (moved running').2

/-- **No place is passed twice**, so the places passed are no more than the services and the
characteristics, and the first place. -/
theorem Toured.length_le (toured : peer.Toured passed) :
    passed.length ≤
      1 + peer.services.length + (peer.services.flatMap (·.characteristics)).length := by
  have nodup : passed.Nodup := by
    refine toured.inOrder.imp ?_
    rintro place _ precedes rfl
    exact place.not_precedes_self precedes
  have htail : passed.tail.length ≤ peer.places.length :=
    (nodup.sublist (List.tail_sublist passed)).length_le_of_subset toured.there
  rw [length_places] at htail
  have hcons : passed.length ≤ passed.tail.length + 1 := by
    rw [List.length_tail]
    omega
  omega

end Peer

namespace Registry

variable {start registry : Registry} {history : List Turn} {conn : ConnHandle} {turn : Turn}
  {peer : Peer}

/-! ## Walks in a run -/

/-- The place that the walk of a connection passes in a turn: the one at which it is when the answer
for which it waits there ends. -/
def Turn.passed? (conn : ConnHandle) (turn : Turn) : Option Progress :=
  match turn.finding? conn, turn.before.find? conn with
  | some finding, some peer =>
    if peer.progress.AnsweredBy finding then some peer.progress else none
  | _, _ => none

/-- The places that the walk of a connection passes in a history. -/
def passed (conn : ConnHandle) (history : List Turn) : List Progress :=
  history.filterMap (Turn.passed? conn)

/-- What becomes of a peer in a turn while its walk is under way: it is dropped, or it is left where
it is and keeps its entries, or a finding is taken into its walk. -/
theorem Turn.walk_or_kept (known : turn.before.find? conn = some peer)
    (running : peer.progress.InFlight) :
    (turn.finding? conn = none ∧ ∀ peer', turn.after.find? conn = some peer' →
        peer'.progress = peer.progress ∧ peer.places ⊆ peer'.places) ∨
      ∃ finding outcome peer', turn.finding? conn = some finding ∧
        turn.response = .outcome outcome ∧ turn.after.find? conn = some peer' ∧
        peer.WalkStep finding turn.exchanges peer' outcome := by
  have unchanged : turn.after.find? conn = some peer → ∀ peer',
      turn.after.find? conn = some peer' →
        peer'.progress = peer.progress ∧ peer.places ⊆ peer'.places := by
    intro same peer' hpeer'
    obtain rfl := Option.some.inj (same.symm.trans hpeer')
    exact ⟨rfl, fun _ hplace => hplace⟩
  by_cases own : turn.call.conn? = some conn
  swap
  · obtain ⟨unheard, -, same⟩ := turn.frame own
    exact .inl ⟨unheard, unchanged (same.trans known)⟩
  have step := turn.step
  have byHand : ∀ {entry}, turn.call.entry? = some entry → turn.finding? conn = none :=
    fun h => (Turn.of_entry h).2
  obtain ⟨registry, call, exchanges, response, registry', yields⟩ := turn
  dsimp only at step own byHand known unchanged ⊢
  cases step with
  | added conn' address registry' h =>
    obtain rfl : conn' = conn := Option.some.inj own
    cases known.symm.trans (add_eq_ok_iff.1 h).1
  | unadded | undeleted | walkUnknown => exact .inl ⟨rfl, unchanged known⟩
  | deleted conn' peer' known' =>
    obtain rfl : conn' = conn := Option.some.inj own
    exact .inl ⟨rfl, by simp⟩
  | filed h old peer' known' fits =>
    obtain rfl := Option.some.inj ((Call.conn?_of_entry? h).symm.trans own)
    obtain rfl := Option.some.inj (known.symm.trans known')
    have gains := (Peer.gains_iff (Call.status?_of_entry? h)).1 fits
    refine .inl ⟨byHand h, fun new hnew => ?_⟩
    rw [find?_put_of_known known (by rw [Peer.file_eq_ok fits])] at hnew
    obtain rfl := Option.some.inj hnew
    exact ⟨by rw [Peer.file_eq_ok fits], Peer.places_subset gains.kept⟩
  | unfiled h | unfilable h => exact .inl ⟨byHand h, unchanged known⟩
  | walkStarted conn' old known' halted | walkRefused conn' old known' halted =>
    obtain rfl : conn' = conn := Option.some.inj own
    obtain rfl := Option.some.inj (known.symm.trans known')
    exact absurd running halted
  | walkRunning conn' old known' _ =>
    obtain rfl : conn' = conn := Option.some.inj own
    obtain rfl := Option.some.inj (known.symm.trans known')
    exact .inl ⟨rfl, unchanged (find?_put_of_known known rfl)⟩
  | walked conn' finding old peer' known' walk =>
    obtain rfl : conn' = conn := Option.some.inj own
    obtain rfl := Option.some.inj (known.symm.trans known')
    exact .inr ⟨finding, _, peer', if_pos rfl, rfl, find?_put_of_known known walk.conn_eq, walk⟩
  | ignored event h =>
    refine .inl ⟨?_, unchanged known⟩
    cases event with
    | discovery conn' finding =>
      obtain rfl : conn' = conn := Option.some.inj own
      cases known.symm.trans (h conn' finding rfl)
    | _ => rfl

instance (registry : Registry) (conn : ConnHandle) : Decidable (registry.Walks conn) :=
  match h : registry.find? conn with
  | some peer => decidable_of_iff peer.progress.InFlight (by simp [Walks, h])
  | none => .isFalse (by simp [Walks, h])

/-- A turn takes a walk on to a place behind the one that it passes, or leaves it where it is, or
ends it. -/
theorem Turn.toured {places : List Progress} {peer' : Peer}
    (known : turn.before.find? conn = some peer) (running : peer.progress.InFlight)
    (hafter : turn.after.find? conn = some peer') (toured : peer.Toured places) :
    peer'.Toured (places ++ (turn.passed? conn).toList) := by
  rcases turn.walk_or_kept known running with ⟨unheard, kept⟩ |
    ⟨finding, outcome, new, heard, -, hnew, walk⟩
  · obtain ⟨same, grown⟩ := kept peer' hafter
    rw [passed?, unheard, Option.toList_none, List.append_nil]
    exact toured.stay grown fun _ => same
  · obtain rfl := Option.some.inj (hafter.symm.trans hnew)
    have going : peer'.progress.InFlight → peer.WalkStep finding turn.exchanges peer' none := by
      intro running'
      cases outcome with
      | none => exact walk
      | some outcome => exact absurd running' (walk.reports running).not_inFlight
    rw [passed?, heard, known]
    by_cases answered : peer.progress.AnsweredBy finding
    · simp only [if_pos answered, Option.toList_some]
      refine toured.pass running walk.places_subset fun running' => ?_
      have moves := (going running').moves
      rwa [if_pos answered] at moves
    · simp only [if_neg answered, Option.toList_none, List.append_nil]
      refine toured.stay walk.places_subset fun running' => ?_
      have moves := (going running').moves
      rwa [if_neg answered] at moves

theorem passed_concat (conn : ConnHandle) (history : List Turn) (turn : Turn) :
    passed conn (history ++ [turn]) = passed conn history ++ (turn.passed? conn).toList := by
  cases hplace : turn.passed? conn <;> simp [passed, hplace]

/-- What a walk passes while it is under way are different places of its database, as it was when it
was seen last. -/
theorem Run.toured (run : Run start history registry) (walks : start.Walks conn)
    (walking : ∀ turn ∈ history, turn.before.Walks conn) :
    ∃ peer : Peer, peer.Toured (passed conn history) ∧ (start.WithinLimits → peer.WithinLimits) ∧
      ∀ peer', registry.find? conn = some peer' → peer' = peer := by
  induction run with
  | nil =>
    obtain ⟨peer, known, -⟩ := walks
    refine ⟨peer, ⟨.nil, by simp [passed], by simp [passed], by simp [passed]⟩, ?_, ?_⟩
    · exact fun limits => limits peer (List.mem_of_find?_eq_some known)
    · exact fun peer' known' => Option.some.inj (known'.symm.trans known)
  | concat run turn next ih =>
    obtain ⟨seen, toured, limits, last⟩ := ih fun t ht => walking t (List.mem_append_left _ ht)
    obtain ⟨peer, known, running⟩ := walking turn (by simp)
    obtain rfl := last peer (next ▸ known)
    rw [passed_concat]
    cases hafter : turn.after.find? conn with
    | some peer' =>
      refine ⟨peer', turn.toured known running hafter toured, fun hstart => ?_, ?_⟩
      · exact (run.concat turn next).withinLimits hstart peer' (List.mem_of_find?_eq_some hafter)
      · exact fun other hother => (Option.some.inj hother).symm
    | none =>
      -- The peer was dropped, so nothing was taken into its walk.
      have hplace : turn.passed? conn = none := by
        rcases turn.walk_or_kept known running with ⟨unheard, -⟩ | ⟨_, _, peer', -, -, hpeer', -⟩
        · rw [Turn.passed?, unheard]
        · cases hafter.symm.trans hpeer'
      rw [hplace, Option.toList_none, List.append_nil]
      exact ⟨peer, toured, limits, by simp⟩

/-- **Every walk ends.**  Let a walk be under way in some registry, and let it be under way before
every turn of a run from there, in which the peer and the host may answer what they like, entries
may be filed by hand, and anything may be done with other connections.

* A finding about the connection ends the walk with the outcome that is reported, or no outcome is
  reported.  In this case the walk goes on to a place behind the one where it was if the finding
  ends the answer for which it waits, and stays where it is if not.
* The walk passes no more places than the database at the end of the run has services and
  characteristics, and one.  So it takes in no more ends of answers before it has reported its
  outcome, with the one that ends it.
* If the registry was within its limits, these are not more than `1 + 12 + 120`. -/
theorem Run.walk_ends (run : Run start history registry) (walks : start.Walks conn)
    (walking : ∀ turn ∈ history, turn.before.Walks conn) :
    (∀ turn ∈ history, ∀ finding, turn.finding? conn = some finding →
      ∃ peer peer' : Peer, turn.before.find? conn = some peer ∧
        turn.after.find? conn = some peer' ∧
        ((∃ outcome, turn.Reports conn outcome ∧ peer'.progress.Reports (some outcome)) ∨
          turn.response = .outcome none ∧
            if peer.progress.AnsweredBy finding then peer.progress.Precedes peer'.progress
            else peer'.progress = peer.progress)) ∧
    (∀ peer, registry.find? conn = some peer →
      (passed conn history).length ≤
        1 + peer.services.length + (peer.services.flatMap (·.characteristics)).length) ∧
    (start.WithinLimits → (passed conn history).length ≤ 1 + 12 + 120) := by
  obtain ⟨seen, toured, limits, last⟩ := run.toured walks walking
  refine ⟨?_, ?_, ?_⟩
  · intro turn hturn finding heard
    obtain ⟨peer, known, running⟩ := walking turn hturn
    rcases turn.walk_or_kept known running with ⟨unheard, -⟩ |
      ⟨finding', outcome, peer', heard', hresponse, hafter, walk⟩
    · cases heard.symm.trans unheard
    · obtain rfl := Option.some.inj (heard.symm.trans heard')
      refine ⟨peer, peer', known, hafter, ?_⟩
      cases outcome with
      | some outcome =>
        exact .inl ⟨outcome, ⟨by rw [heard]; rfl, hresponse⟩, walk.reports running⟩
      | none =>
        refine .inr ⟨hresponse, ?_⟩
        have moves := walk.moves
        split at moves
        · rename_i answered
          rw [if_pos answered]
          exact moves.1
        · rename_i unanswered
          rwa [if_neg unanswered]
  · intro peer known
    obtain rfl := last peer known
    exact toured.length_le
  · intro hstart
    have hcharacteristics := (limits hstart).length_characteristics_le
    have hservices := (limits hstart).services
    have hlength := toured.length_le
    change _ ≤ 12 * 10 at hcharacteristics
    change _ ≤ 12 at hservices
    omega

/-- The walk through the database of the second peer passes three places, one for each request. -/
theorem walk_ends_company :
    let first := Turn.against Script.reply {} company (.discoverAll 5)
    let history := playback first.after (findings.map fun event => (.event event, {}))
    first.after.Walks 5 ∧ (∀ turn ∈ history, turn.before.Walks 5) ∧ first.after.WithinLimits ∧
      passed 5 history = [.services, .characteristics 1, .descriptors 1 1] ∧
      (passed 5 history).length ≤ 1 + 12 + 120 := by
  intro first history
  have run : Run first.after history _ := run_playback first.after _
  have walks : first.after.Walks 5 := by decide
  have walking : ∀ turn ∈ history, turn.before.Walks 5 := by decide
  have limits : first.after.WithinLimits := by
    refine first.step.withinLimits fun peer hpeer => ?_
    have hbare : ∀ peer ∈ company.peers, peer.services = [] := by decide
    have hservices := hbare peer hpeer
    exact ⟨by simp [hservices], by simp [hservices]⟩
  obtain ⟨-, -, hlimit⟩ := run.walk_ends walks walking
  exact ⟨walks, walking, limits, by decide, hlimit limits⟩

end Registry

end CameraCentral
