import CameraCentral.Proofs.Peer.History
import Mathlib.Data.List.Nodup

/-!
# Distinct connections

The registry looks a peer up by its connection and changes the first one that it finds.  In a
registry that began empty no two peers have the same connection (`Run.distinct`), so there is only
one to find, and putting it back where it is changes nothing (`Distinct.put_eq_self`).  So nothing
depends on the order in which the peers are kept, and one may drop a peer by moving the last one
into its place (`Distinct.find?_swapErase`).
-/

namespace CameraCentral

namespace Registry

/-- No two of the peers have the same connection. -/
def Distinct (registry : Registry) : Prop := (registry.peers.map (·.conn)).Nodup

variable {registry registry' : Registry} {conn : ConnHandle} {peer : Peer} {call : Call}
  {exchanges : List Exchange} {response : Response}

/-- A peer that is put where it stands already changes nothing. -/
theorem Distinct.put_eq_self (distinct : registry.Distinct)
    (known : registry.find? conn = some peer) : registry.put peer = registry := by
  have hpeer : peer ∈ registry.peers := List.mem_of_find?_eq_some known
  have hsame : ∀ old ∈ registry.peers, (if old.conn = peer.conn then peer else old) = old := by
    intro old hold
    by_cases h : old.conn = peer.conn
    · rw [if_pos h]
      exact List.inj_on_of_nodup_map distinct hpeer hold h.symm
    · rw [if_neg h]
  unfold put
  rw [List.map_congr_left hsame, List.map_id']

/-- Putting a peer somewhere leaves the connections as they are. -/
theorem Distinct.put (distinct : registry.Distinct) (peer : Peer) :
    (registry.put peer).Distinct := by
  have hconns : (registry.put peer).peers.map (·.conn) = registry.peers.map (·.conn) := by
    unfold Registry.put
    rw [List.map_map]
    apply List.map_congr_left
    intro old hold
    by_cases h : old.conn = peer.conn
    · simp [h]
    · simp [h]
  unfold Distinct
  rwa [hconns]

/-- The peers that stay when one is dropped have distinct connections. -/
theorem Distinct.erase (distinct : registry.Distinct) (conn : ConnHandle) :
    (registry.erase conn).Distinct := by
  apply List.Nodup.sublist _ distinct
  exact List.filter_sublist.map Peer.conn

/-- A connection that is registered was not registered before. -/
theorem Distinct.of_add {address : Address} (distinct : registry.Distinct)
    (added : registry.add conn address = .ok registry') : registry'.Distinct := by
  obtain ⟨unknown, -, rfl⟩ := add_eq_ok_iff.1 added
  unfold Distinct
  rw [List.map_append, List.nodup_append]
  refine ⟨distinct, List.nodup_singleton _, ?_⟩
  intro other hother new hnew
  obtain ⟨peer, hpeer, rfl⟩ := List.mem_map.1 hother
  obtain rfl : new = conn := List.mem_singleton.1 hnew
  have hfree := List.find?_eq_none.1 unknown peer hpeer
  simpa using hfree

/-- A turn keeps the connections distinct. -/
theorem Step.distinct (step : Step registry call exchanges registry' response)
    (distinct : registry.Distinct) : registry'.Distinct := by
  cases step with
  | added conn address registry' h => exact distinct.of_add h
  | deleted conn peer known => exact distinct.erase conn
  | filed h peer peer' known fits => exact distinct.put peer'
  | walkStarted conn peer known halted => exact distinct.put _
  | walkRefused conn peer known halted why => exact distinct.put _
  | walkRunning conn peer known running => exact distinct.put peer
  | walked conn finding peer peer' known walk => exact distinct.put peer'
  | unadded | undeleted | unfiled | unfilable | walkUnknown | ignored => exact distinct

/-- **The connections of a registry that began empty are distinct**, before and after every turn. -/
theorem Run.distinct {history : List Turn} (run : Run {} history registry) :
    registry.Distinct ∧ ∀ turn ∈ history, turn.before.Distinct := by
  induction run with
  | nil => exact ⟨List.nodup_nil, by simp⟩
  | concat run turn next ih =>
    obtain ⟨hregistry, hhistory⟩ := ih
    rw [← next] at hregistry
    refine ⟨turn.step.distinct hregistry, ?_⟩
    intro past hpast
    rcases List.mem_append.1 hpast with hpast | hpast
    · exact hhistory past hpast
    · obtain rfl := List.mem_singleton.1 hpast
      exact hregistry

/-! ## The order of the peers -/

/-- Drops the peer of a connection, and moves the last peer into its place. -/
def swapErase (registry : Registry) (conn : ConnHandle) : Registry :=
  match registry.peers.findIdx? (fun peer => peer.conn = conn), registry.peers.getLast? with
  | some place, some last => ⟨(registry.peers.set place last).dropLast⟩
  | _, _ => registry

/-- A look-up does not depend on the order of the peers. -/
theorem Distinct.find?_eq_of_perm (distinct : registry.Distinct)
    (same : registry'.peers.Perm registry.peers) (conn : ConnHandle) :
    registry'.find? conn = registry.find? conn := by
  have distinct' : (registry'.peers.map (·.conn)).Nodup :=
    (same.map Peer.conn).nodup_iff.2 distinct
  have sees : ∀ {r r' : Registry}, (r'.peers.map (·.conn)).Nodup → r'.peers.Perm r.peers →
      ∀ peer, r.find? conn = some peer → r'.find? conn = some peer := by
    intro r r' hdistinct hsame peer known
    have hpeer : peer ∈ r'.peers := hsame.mem_iff.2 (List.mem_of_find?_eq_some known)
    cases hfind : r'.find? conn with
    | none =>
      have hfree := List.find?_eq_none.1 hfind peer hpeer
      exact absurd (decide_eq_true (conn_of_find?_eq_some known)) hfree
    | some other =>
      have hother : other ∈ r'.peers := List.mem_of_find?_eq_some hfind
      have hconn : other.conn = peer.conn :=
        (conn_of_find?_eq_some hfind).trans (conn_of_find?_eq_some known).symm
      rw [List.inj_on_of_nodup_map hdistinct hother hpeer hconn]
  apply Option.ext
  intro peer
  exact ⟨sees distinct same.symm peer, sees distinct' same peer⟩

/-- Nobody else has the connection of a peer, so exactly this peer is dropped. -/
theorem Distinct.erase_append_cons {before later : List Peer}
    (distinct : Distinct ⟨before ++ peer :: later⟩) :
    Registry.erase ⟨before ++ peer :: later⟩ peer.conn = ⟨before ++ later⟩ := by
  unfold Distinct at distinct
  simp only [List.map_append, List.map_cons, List.nodup_append, List.nodup_cons] at distinct
  obtain ⟨-, ⟨hlater, -⟩, hbefore⟩ := distinct
  apply congrArg Registry.mk
  rw [List.filter_append, List.filter_cons_of_neg (by simp)]
  congr 1
  · apply List.filter_eq_self.2
    intro other hother
    have hne := hbefore other.conn (List.mem_map_of_mem hother) peer.conn (by simp)
    exact decide_eq_true hne
  · apply List.filter_eq_self.2
    intro other hother
    have hne : other.conn ≠ peer.conn := by
      intro heq
      exact hlater (heq ▸ List.mem_map_of_mem hother)
    exact decide_eq_true hne

/-- Moving the last peer into the place of the dropped one leaves the same peers as closing the
gap does. -/
theorem Distinct.perm_swapErase (distinct : registry.Distinct) (conn : ConnHandle) :
    (registry.swapErase conn).peers.Perm (registry.erase conn).peers := by
  obtain ⟨peers⟩ := registry
  cases hplace : peers.findIdx? (fun peer => decide (peer.conn = conn)) with
  | none =>
    have hfree := List.findIdx?_eq_none_iff.1 hplace
    have hall : (Registry.mk peers).erase conn = ⟨peers⟩ := by
      apply congrArg Registry.mk
      apply List.filter_eq_self.2
      intro peer hpeer
      simpa using hfree peer hpeer
    simp only [swapErase, hplace, hall, List.Perm.refl]
  | some place =>
    obtain ⟨before, peer, later, rfl, rfl, hconn⟩ : ∃ before peer later,
        peers = before ++ peer :: later ∧ place = before.length ∧ peer.conn = conn := by
      obtain ⟨hlt, hat, -⟩ := List.findIdx?_eq_some_iff_getElem.1 hplace
      refine ⟨peers.take place, peers[place], peers.drop (place + 1), ?_, ?_, by simpa using hat⟩
      · rw [← List.drop_eq_getElem_cons hlt, List.take_append_drop]
      · rw [List.length_take, Nat.min_eq_left (Nat.le_of_lt hlt)]
    rw [← hconn, distinct.erase_append_cons, hconn]
    rcases List.eq_nil_or_concat later with rfl | ⟨middle, last, rfl⟩
    · simp [swapErase, hplace]
    · rw [List.concat_eq_append] at hplace ⊢
      have hlast : (before ++ peer :: (middle ++ [last])).getLast? = some last := by
        rw [← List.cons_append, ← List.append_assoc, List.getLast?_concat]
      have hset : (before ++ peer :: (middle ++ [last])).set before.length last =
          before ++ last :: (middle ++ [last]) := by
        rw [List.set_append_right _ _ (Nat.le_refl _), Nat.sub_self, List.set_cons_zero]
      simp only [swapErase, hplace, hlast, hset]
      rw [← List.cons_append, ← List.append_assoc, List.dropLast_concat]
      apply List.Perm.append_left
      exact (List.perm_append_singleton last middle).symm

/-- A dropped peer is gone whichever way the gap is closed, and the others are still there. -/
theorem Distinct.find?_swapErase (distinct : registry.Distinct) (conn other : ConnHandle) :
    (registry.swapErase conn).find? other = (registry.erase conn).find? other :=
  (distinct.erase conn).find?_eq_of_perm (distinct.perm_swapErase conn) other

end Registry

end CameraCentral
