import CameraCentral.Proofs.Bond.Edits
import CameraCentral.Proofs.History
import Mathlib.Logic.Function.Basic

/-!
# The keyring as a bounded queue of addresses

What a keyring should be is easier to say with the order and the records kept apart.  A `Roster` is
a list of addresses, and a record for each of them.  A new record of a listed address leaves the
list alone, a new address goes to the end of it, and if the list is full then its head is dropped
first.  A keyring that began empty is at any time the roster that was edited in the same way
(`follows`).

What it holds can also be read off the history of its edits.  The bond of an address is the last one
that was added for it, unless the address lost it since (`find?_edited_iff`), and the bonds stand in
the order in which their addresses came in (`pairwise_cameBefore`).  Later bonds of an address do
not count for the order, but an address that was lost and comes in again comes in anew.
`edited_bounded_queue` puts all of this together.
-/

namespace CameraCentral

open Function (update update_apply)

/-! ## Rosters -/

/-- Addresses in order, and the record of each. -/
structure Roster where
  /-- The addresses, the one that came in first in front. -/
  order : List Address := []
  /-- The record of an address, if it is one of them. -/
  record : Address → Option Bond := fun _ => none

namespace Roster

/-- The records in order. -/
def bonds (roster : Roster) : List Bond := roster.order.filterMap roster.record

/-- Drops the address in front, if the list of addresses is full. -/
def makeRoom (roster : Roster) : Roster :=
  match roster.order with
  | [] => roster
  | oldest :: others =>
    if roster.order.length < Settings.maxBonds then roster
    else ⟨others, update roster.record oldest none⟩

/-- Puts a bond on record.  An address that is not listed yet goes to the end, for which there has
to be room. -/
def insert (roster : Roster) (bond : Bond) : Roster :=
  if bond.address ∈ roster.order then
    { roster with record := update roster.record bond.address (some bond) }
  else
    ⟨roster.makeRoom.order ++ [bond.address],
      update roster.makeRoom.record bond.address (some bond)⟩

/-- Takes an address off the list, and its record with it. -/
def remove (roster : Roster) (address : Address) : Roster :=
  ⟨roster.order.filter (· ≠ address), update roster.record address none⟩

variable {roster : Roster}

theorem order_makeRoom (roster : Roster) :
    roster.makeRoom.order =
      if roster.order.length < Settings.maxBonds then roster.order else roster.order.tail := by
  obtain ⟨order, record⟩ := roster
  cases order with
  | nil => rfl
  | cons oldest others =>
    simp only [makeRoom]
    split <;> rfl

theorem record_makeRoom (roster : Roster) (address : Address) :
    roster.makeRoom.record address =
      if Settings.maxBonds ≤ roster.order.length ∧ roster.order.head? = some address then none
      else roster.record address := by
  obtain ⟨order, record⟩ := roster
  cases order with
  | nil => simp [makeRoom]
  | cons oldest others =>
    simp only [makeRoom, List.head?_cons, Option.some.injEq]
    split
    · next hroom => rw [if_neg fun h => absurd h.1 (by omega)]
    · next hfull =>
      simp only [Nat.le_of_not_lt hfull, true_and, Function.update_apply, eq_comm (a := address)]

end Roster

namespace Keyring

/-- The same edits, made to an empty roster. -/
def rostered (edits : List Edit) : Roster :=
  edits.foldl (fun roster edit =>
    match edit with
    | .insert bond => roster.insert bond
    | .remove address => roster.remove address) {}

variable {ring : Keyring} {bond : Bond} {address : Address} {roster : Roster} {edits : List Edit}

/-! ## The roster is followed -/

/-- The addresses that a keyring has beside the newest bond. -/
theorem addresses_spared (ring : Keyring) :
    (spared ring.bonds).map (·.address) =
      if ring.addresses.length < Settings.maxBonds then ring.addresses
      else ring.addresses.tail := by
  have hlength : ring.addresses.length = ring.bonds.length := List.length_map _
  unfold spared
  rw [hlength]
  split
  · rfl
  · exact List.map_tail

/-- A keyring has the addresses of a roster in order, and finds its records. -/
structure Follows (ring : Keyring) (roster : Roster) : Prop where
  addresses_eq : ring.addresses = roster.order
  find?_eq : ∀ address, ring.find? address = roster.record address

/-- The bonds are the bonds of the addresses, in order. -/
theorem Distinct.bonds_eq (distinct : ring.Distinct) :
    ring.bonds = ring.addresses.filterMap ring.find? := by
  have hown : ∀ bond ∈ ring.bonds, ring.find? bond.address = some bond := fun bond hbond =>
    distinct.find?_eq_some_iff.2 ⟨hbond, rfl⟩
  rw [addresses, List.filterMap_map]
  exact (List.filterMap_some ▸ List.filterMap_congr hown).symm

namespace Follows

theorem bonds_eq (follows : Follows ring roster) (distinct : ring.Distinct) :
    ring.bonds = roster.bonds := by
  rw [distinct.bonds_eq, follows.addresses_eq, Roster.bonds]
  exact List.filterMap_congr fun address _ => follows.find?_eq address

/-- Adding a bond. -/
theorem insert (follows : Follows ring roster) (distinct : ring.Distinct) (bond : Bond) :
    Follows (ring.insert bond) (roster.insert bond) := by
  have horder := follows.addresses_eq
  by_cases hmem : bond.address ∈ ring.addresses
  · rw [Roster.insert, if_pos (horder ▸ hmem)]
    refine ⟨(addresses_insert_of_mem hmem).trans horder, fun address => ?_⟩
    rw [distinct.find?_insert, if_neg fun evicts : ring.Evicts bond address => evicts.1 hmem]
    simp only [update_apply, follows.find?_eq, eq_comm (a := address)]
  · rw [Roster.insert, if_neg (horder ▸ hmem)]
    constructor
    · rw [addresses, bonds_insert_of_not_mem hmem, List.map_append, addresses_spared,
        roster.order_makeRoom, horder, List.map_singleton]
    · intro address
      have hevicts : ring.Evicts bond address ↔
          Settings.maxBonds ≤ roster.order.length ∧ roster.order.head? = some address := by
        rw [Evicts, and_iff_right hmem, horder]
      rw [distinct.find?_insert]
      simp only [update_apply, roster.record_makeRoom, follows.find?_eq, hevicts,
        eq_comm (a := address)]

/-- Removing a bond. -/
theorem remove (follows : Follows ring roster) (distinct : ring.Distinct) (removed : Address) :
    Follows (ring.remove removed).1 (roster.remove removed) := by
  constructor
  · rw [addresses_remove, List.Nodup.erase_eq_filter distinct, follows.addresses_eq]
    refine List.filter_congr fun address _ => ?_
    rw [decide_not]
    rfl
  · intro address
    rw [distinct.find?_remove]
    simp only [Roster.remove, update_apply, follows.find?_eq, eq_comm (a := address)]

end Follows

/-- An edited keyring follows the roster that is edited in the same way. -/
theorem follows (edits : List Edit) : Follows (edited edits) (rostered edits) := by
  induction edits using List.reverseRecOn with
  | nil => exact ⟨rfl, fun _ => rfl⟩
  | append_singleton edits edit ih =>
    have distinct := distinct_edited edits
    rw [edited_concat, rostered, List.foldl_concat]
    cases edit with
    | insert bond => exact ih.insert distinct bond
    | remove address => exact ih.remove distinct address

/-! ## What the history of the edits tells -/

/-- An edit, and the keyring that it met. -/
abbrev Turn := Encounter Keyring Edit

namespace Turn

/-- A bond of the address is added. -/
def Records (turn : Turn) (address : Address) : Prop :=
  match turn.input with
  | .insert bond => bond.address = address
  | .remove _ => False

/-- The address comes in: a bond of it is added, and there was none. -/
def Joins (turn : Turn) (address : Address) : Prop :=
  turn.Records address ∧ address ∉ turn.before.addresses

/-- The address is removed, or evicted. -/
def Loses (turn : Turn) (address : Address) : Prop :=
  match turn.input with
  | .insert bond => turn.before.Evicts bond address
  | .remove removed => removed = address

instance : (turn : Turn) → (address : Address) → Decidable (turn.Records address)
  | ⟨_, .insert bond⟩, address => inferInstanceAs (Decidable (bond.address = address))
  | ⟨_, .remove _⟩, _ => .isFalse id

instance (turn : Turn) (address : Address) : Decidable (turn.Joins address) :=
  inferInstanceAs (Decidable (_ ∧ _))

end Turn

/-- What happens to a keyring that begins empty in some edits. -/
def history (edits : List Edit) : List Turn := trail edit {} edits

theorem history_concat (edits : List Edit) (edit : Edit) :
    history (edits ++ [edit]) = history edits ++ [⟨edited edits, edit⟩] :=
  trail_concat Keyring.edit {} edits edit

/-- After an edit an address has the bond that is added for it, and otherwise the one that it had
and does not lose. -/
theorem Distinct.find?_edit (distinct : ring.Distinct) (edit : Edit) :
    (ring.edit edit).find? address = some bond ↔
      (edit = .insert bond ∧ bond.address = address) ∨
        (¬ Turn.Records ⟨ring, edit⟩ address ∧ ¬ Turn.Loses ⟨ring, edit⟩ address) ∧
          ring.find? address = some bond := by
  cases edit with
  | insert added =>
    rw [edit_insert, distinct.find?_insert]
    simp only [Turn.Records, Turn.Loses, Edit.insert.injEq]
    by_cases hsame : added.address = address
    · rw [if_pos hsame, Option.some.injEq]
      simp only [hsame, not_true_eq_false, false_and, or_false]
      exact ⟨fun h => ⟨h, h ▸ hsame⟩, And.left⟩
    · have hother : ¬ (added = bond ∧ bond.address = address) := by
        rintro ⟨rfl, h⟩
        exact hsame h
      rw [if_neg hsame, or_iff_right hother, and_iff_right hsame]
      by_cases hevicts : ring.Evicts added address <;> simp [hevicts]
  | remove removed =>
    rw [edit_remove, distinct.find?_remove]
    simp only [Turn.Records, Turn.Loses, reduceCtorEq, false_and, false_or, not_false_eq_true,
      true_and]
    by_cases hsame : removed = address <;> simp [hsame]

/-- A bond was added, and since then no other one was added for its address, nor was the address
lost. -/
def Stands (history : List Turn) (bond : Bond) : Prop :=
  Since (fun turn : Turn => ¬ turn.Records bond.address ∧ ¬ turn.Loses bond.address)
    (fun turn => turn.input = .insert bond) history

/-- The bond of an address is the one that was added for it last, if it was not lost since. -/
theorem find?_edited_iff :
    (edited edits).find? address = some bond ↔
      bond.address = address ∧ Stands (history edits) bond := by
  induction edits using List.reverseRecOn with
  | nil => exact iff_of_false (by simp [edited, find?]) fun h => not_since_nil _ _ h.2
  | append_singleton edits edit ih =>
    rw [edited_concat, history_concat, Stands, since_concat_iff, ← Stands,
      (distinct_edited edits).find?_edit, ih]
    by_cases hsame : bond.address = address
    · subst hsame
      simp only [and_true, true_and]
    · simp only [hsame, false_and, and_false, or_self]

/-! ## The order in which addresses came in -/

/-- When an address came in: the last time that a bond of it was added while there was none. -/
def came? (history : List Turn) (address : Address) : Option Nat :=
  ((history.zipIdx.filter fun entry => entry.1.Joins address).getLast?).map Prod.snd

/-- One address came in before another. -/
def CameBefore (history : List Turn) (first second : Address) : Prop :=
  ∃ s t, came? history first = some s ∧ came? history second = some t ∧ s < t

variable {past : List Turn} {turn : Turn} {first second : Address} {t : Nat}

theorem came?_concat_of_joins (joins : turn.Joins address) :
    came? (past ++ [turn]) address = some past.length := by
  simp [came?, List.zipIdx_append, joins]

theorem came?_concat_of_not_joins (joins : ¬ turn.Joins address) :
    came? (past ++ [turn]) address = came? past address := by
  simp [came?, List.zipIdx_append, joins]

theorem lt_length_of_came? (h : came? past address = some t) : t < past.length := by
  obtain ⟨⟨turn, place⟩, hlast, rfl⟩ := Option.map_eq_some_iff.1 h
  have hmem := (List.mem_filter.1 (List.mem_of_getLast? hlast)).1
  simpa using (List.mem_zipIdx hmem).2.1

theorem CameBefore.asymm (h : CameBefore past first second) : ¬ CameBefore past second first := by
  obtain ⟨s, t, hs, ht, hlt⟩ := h
  rintro ⟨t', s', ht', hs', hlt'⟩
  rw [ht] at ht'
  rw [hs] at hs'
  cases ht'
  cases hs'
  exact Nat.lt_asymm hlt hlt'

/-- Addresses that were there already did not come in now. -/
theorem came?_concat_of_mem (h : address ∈ turn.before.addresses) :
    came? (past ++ [turn]) address = came? past address :=
  came?_concat_of_not_joins fun joins => joins.2 h

/-- After an edit a keyring has some of the addresses that it had, in the same order, and possibly
one that comes in, behind them. -/
theorem addresses_edit_cases (ring : Keyring) (edit : Edit) :
    (ring.edit edit).addresses.Sublist ring.addresses ∨
    ∃ kept address, kept.Sublist ring.addresses ∧ Turn.Joins ⟨ring, edit⟩ address ∧
      (ring.edit edit).addresses = kept ++ [address] := by
  cases edit with
  | insert bond =>
    by_cases hmem : bond.address ∈ ring.addresses
    · exact .inl (addresses_insert_of_mem hmem ▸ List.Sublist.refl _)
    · refine .inr ⟨(spared ring.bonds).map (·.address), bond.address, ?_, ⟨rfl, hmem⟩, ?_⟩
      · exact (spared_sublist ring.bonds).map _
      · rw [edit_insert, addresses, bonds_insert_of_not_mem hmem, List.map_append,
          List.map_singleton]
  | remove removed =>
    rw [edit_remove, addresses_remove]
    exact .inl List.erase_sublist

/-- Every address that a keyring has came in at some time. -/
theorem exists_came? (edits : List Edit) :
    ∀ address ∈ (edited edits).addresses, ∃ t, came? (history edits) address = some t := by
  induction edits using List.reverseRecOn with
  | nil => simp [edited, addresses]
  | append_singleton edits edit ih =>
    rw [edited_concat, history_concat]
    intro address hmem
    by_cases joins : Turn.Joins ⟨edited edits, edit⟩ address
    · exact ⟨_, came?_concat_of_joins joins⟩
    · rw [came?_concat_of_not_joins joins]
      apply ih
      rcases addresses_edit_cases (edited edits) edit with
        hkept | ⟨kept, joined, hkept, hjoins, hnow⟩
      · exact hkept.subset hmem
      · rw [hnow, List.mem_append, List.mem_singleton] at hmem
        rcases hmem with hmem | rfl
        · exact hkept.subset hmem
        · exact absurd hjoins joins

/-- The bonds stand in the order in which their addresses came in. -/
theorem pairwise_cameBefore (edits : List Edit) :
    (edited edits).addresses.Pairwise (CameBefore (history edits)) := by
  induction edits using List.reverseRecOn with
  | nil => exact List.Pairwise.nil
  | append_singleton edits edit ih =>
    rw [edited_concat, history_concat]
    have hbefore : (edited edits).addresses.Pairwise
        (CameBefore (history edits ++ [⟨edited edits, edit⟩])) := by
      refine ih.imp_of_mem fun {first second} hfirst hsecond h => ?_
      rwa [CameBefore, came?_concat_of_mem hfirst, came?_concat_of_mem hsecond]
    rcases addresses_edit_cases (edited edits) edit with
      hkept | ⟨kept, joined, hkept, hjoins, hnow⟩
    · exact hbefore.sublist hkept
    · rw [hnow, List.pairwise_append]
      refine ⟨hbefore.sublist hkept, List.pairwise_singleton _ _, ?_⟩
      intro address hmem later hlater
      -- What comes in now comes in behind everything else.
      obtain rfl := List.mem_singleton.1 hlater
      obtain ⟨t, ht⟩ := exists_came? edits address (hkept.subset hmem)
      refine ⟨t, _, ?_, came?_concat_of_joins hjoins, lt_length_of_came? ht⟩
      rw [came?_concat_of_mem (hkept.subset hmem), ht]

/-- A bond is the oldest one that a keyring has under the name of a key. -/
structure Oldest (edits : List Edit) (diversifier : UInt16) (random : Vector UInt8 8)
    (bond : Bond) : Prop where
  mem : bond ∈ (edited edits).bonds
  name : bond.diversifier = diversifier ∧ bond.random = random
  first : ∀ other ∈ (edited edits).bonds, other.diversifier = diversifier ∧ other.random = random →
    other = bond ∨ CameBefore (history edits) bond.address other.address

variable {diversifier : UInt16} {random : Vector UInt8 8} {other : Bond}

theorem Oldest.eq (oldest : Oldest edits diversifier random bond)
    (oldest' : Oldest edits diversifier random other) : bond = other := by
  rcases oldest.first other oldest'.mem oldest'.name with rfl | hbefore
  · rfl
  rcases oldest'.first bond oldest.mem oldest.name with rfl | hbefore'
  · rfl
  · exact absurd hbefore hbefore'.asymm

/-- Of the bonds whose key goes by a name, the oldest is found. -/
theorem findByKeyName?_edited_iff :
    (edited edits).findByKeyName? diversifier random = some bond ↔
      Oldest edits diversifier random bond := by
  have hfound : ∀ {found}, (edited edits).findByKeyName? diversifier random = some found →
      Oldest edits diversifier random found := by
    intro found h
    obtain ⟨hname, before, after, hbonds, hbefore⟩ := List.find?_eq_some_iff_append.1 h
    have horder := pairwise_cameBefore edits
    rw [addresses, List.pairwise_map, hbonds, List.pairwise_append, List.pairwise_cons] at horder
    refine ⟨by simp [hbonds], by simpa using hname, fun other hother hother' => ?_⟩
    rw [hbonds, List.mem_append, List.mem_cons] at hother
    rcases hother with hother | rfl | hother
    · have hunnamed := hbefore other hother
      rw [Bool.not_eq_true', decide_eq_false_iff_not] at hunnamed
      exact absurd hother' hunnamed
    · exact .inl rfl
    · exact .inr (horder.2.1.1 other hother)
  refine ⟨hfound, fun oldest => ?_⟩
  cases h : (edited edits).findByKeyName? diversifier random with
  | none => exact absurd oldest.name (by simpa using List.find?_eq_none.1 h bond oldest.mem)
  | some found => rw [(hfound h).eq oldest]

/-- An edit that adds no bond of an address, and does not make it lose its own, leaves it alone. -/
theorem Distinct.find?_edit_of_other (distinct : ring.Distinct) {edit : Edit}
    (hrecords : ¬ Turn.Records ⟨ring, edit⟩ address) (hloses : ¬ Turn.Loses ⟨ring, edit⟩ address) :
    (ring.edit edit).find? address = ring.find? address := by
  refine Option.ext fun bond => ?_
  have hother : ¬ (edit = .insert bond ∧ bond.address = address) := by
    rintro ⟨rfl, hsame⟩
    exact hrecords hsame
  rw [distinct.find?_edit, or_iff_right hother]
  exact and_iff_right ⟨hrecords, hloses⟩

/-- **A keyring is a bounded queue of addresses, with a record for each.**  After any edits of a
keyring that began empty it holds, in order, what the roster holds that was edited in the same way;
that is at most as many bonds as there is room for, and one an address.  The bond of an address is
the one that was added for it last if it was neither removed nor evicted since, and an edit leaves
all other bonds as they are.  The bonds stand in the order in which their addresses came in, and by
the name of its key the first of these is found. -/
theorem edited_bounded_queue (edits : List Edit) :
    ((edited edits).bonds = (rostered edits).bonds ∧
      (edited edits).addresses = (rostered edits).order ∧
      (∀ address, (edited edits).find? address = (rostered edits).record address) ∧
      ∀ address, ((edited edits).remove address).2 = true ↔ address ∈ (rostered edits).order) ∧
    ((rostered edits).order.Nodup ∧ (rostered edits).order.length ≤ Settings.maxBonds) ∧
    (∀ address bond, (edited edits).find? address = some bond ↔
      bond.address = address ∧ Stands (history edits) bond) ∧
    (∀ edit address, ¬ Turn.Records ⟨edited edits, edit⟩ address →
      ¬ Turn.Loses ⟨edited edits, edit⟩ address →
      (edited (edits ++ [edit])).find? address = (edited edits).find? address) ∧
    (edited edits).addresses.Pairwise (CameBefore (history edits)) ∧
    ∀ diversifier random,
      (∀ bond, (edited edits).findByKeyName? diversifier random = some bond ↔
        Oldest edits diversifier random bond) ∧
      ((edited edits).findByKeyName? diversifier random = none ↔
        ∀ bond ∈ (edited edits).bonds,
          ¬ (bond.diversifier = diversifier ∧ bond.random = random)) := by
  have distinct := distinct_edited edits
  have hfollows := follows edits
  refine ⟨⟨hfollows.bonds_eq distinct, hfollows.addresses_eq, hfollows.find?_eq, ?_⟩, ?_,
    fun _ _ => find?_edited_iff, ?_, pairwise_cameBefore edits,
    fun _ _ => ⟨fun _ => findByKeyName?_edited_iff, ?_⟩⟩
  · intro address
    rw [← Bool.not_eq_false, remove_eq_false_iff, ← hfollows.addresses_eq, held,
      List.count_eq_zero, not_not]
  · rw [← hfollows.addresses_eq]
    refine ⟨distinct, ?_⟩
    rw [addresses, List.length_map]
    exact length_bonds_edited_le edits
  · intro edit address hrecords hloses
    rw [edited_concat, distinct.find?_edit_of_other hrecords hloses]
  · rw [findByKeyName?, List.find?_eq_none]
    simp

end Keyring

end CameraCentral
