import CameraCentral.Bond.Keyring
import Mathlib.Data.List.Induction
import Mathlib.Data.List.Nodup

/-!
# One bond an address

A keyring never holds more bonds than it has room for, whatever is done to it
(`length_bonds_after_le`).  That no two of its bonds have the same address is another matter.
Adding and removing bonds keep the addresses distinct, but reading a stored form takes the records
as they come, so a keyring can end up with two bonds of one address, and then removing that address
uncovers the second bond.  `distinct_after_iff` says that reading is the only way to get there, and
`find?_remove_eq_none_iff` and `remove_remove_eq_false_iff` that two bonds of one address are the
only reason for which forgetting it can stay incomplete.
-/

namespace CameraCentral

namespace Keyring

/-! ## What can be done to a keyring -/

/-- A call that changes a keyring. -/
inductive Call where
  | insert (bond : Bond)
  | remove (address : Address)
  | markClean
  | decode (data : Bytes)
deriving DecidableEq, Repr

/-- The keyring after a call. -/
def perform (ring : Keyring) : Call → Keyring
  | .insert bond => ring.insert bond
  | .remove address => (ring.remove address).1
  | .markClean => ring.markClean
  | .decode data => decode data

/-- The keyring after some calls. -/
def after (ring : Keyring) (calls : List Call) : Keyring := calls.foldl perform ring

@[simp] theorem after_nil (ring : Keyring) : ring.after [] = ring := rfl

@[simp] theorem after_concat (ring : Keyring) (calls : List Call) (call : Call) :
    ring.after (calls ++ [call]) = (ring.after calls).perform call := by
  simp [after]

/-- The addresses of the bonds, in order. -/
def addresses (ring : Keyring) : List Address := ring.bonds.map (·.address)

/-- No two of the bonds have the same address. -/
def Distinct (ring : Keyring) : Prop := ring.addresses.Nodup

instance (ring : Keyring) : Decidable ring.Distinct := inferInstanceAs (Decidable (List.Nodup _))

/-- How many bonds of an address there are. -/
def held (ring : Keyring) (address : Address) : Nat := ring.addresses.count address

/-- Addresses are distinct if there is at most one bond of each. -/
theorem distinct_iff_held_le_one {ring : Keyring} :
    ring.Distinct ↔ ∀ address, ring.held address ≤ 1 :=
  List.nodup_iff_count_le_one

variable {ring : Keyring} {bond : Bond} {address : Address}

/-! ## Adding a bond -/

/-- Where a bond goes: to the place of a bond of its address, or behind the bonds that are spared if
there is none of its address. -/
theorem insert_cases (ring : Keyring) (bond : Bond) :
    (∃ before old after, ring.bonds = before ++ old :: after ∧ old.address = bond.address ∧
      (ring.insert bond).bonds = before ++ bond :: after) ∨
    (bond.address ∉ ring.addresses ∧ (ring.insert bond).bonds = spared ring.bonds ++ [bond]) := by
  cases hplace : ring.bonds.findIdx? fun old => old.address = bond.address with
  | some i =>
    obtain ⟨h, hi, -⟩ := List.findIdx?_eq_some_iff_getElem.1 hplace
    obtain ⟨before, after, hbonds, -, hset⟩ := @List.exists_of_set _ i bond ring.bonds h
    refine .inl ⟨before, ring.bonds[i], after, hbonds, by simpa using hi, ?_⟩
    simp only [insert, hplace, hset]
  | none =>
    have hnew := List.findIdx?_eq_none_iff.1 hplace
    refine .inr ⟨fun hmem => ?_, by simp only [insert, hplace]⟩
    obtain ⟨old, hold, hsame⟩ := List.mem_map.1 hmem
    simpa [hsame] using hnew old hold

/-- A bond that takes the place of one of its address leaves the addresses as they are. -/
theorem addresses_insert_of_mem (h : bond.address ∈ ring.addresses) :
    (ring.insert bond).addresses = ring.addresses := by
  rcases insert_cases ring bond with ⟨before, old, after, hbonds, hsame, hnow⟩ | ⟨hnew, -⟩
  · simp only [addresses, hbonds, hnow, List.map_append, List.map_cons, hsame]
  · exact absurd h hnew

/-- A bond of a new address goes behind the bonds that are spared. -/
theorem bonds_insert_of_not_mem (h : bond.address ∉ ring.addresses) :
    (ring.insert bond).bonds = spared ring.bonds ++ [bond] := by
  rcases insert_cases ring bond with ⟨before, old, after, hbonds, hsame, -⟩ | ⟨-, hnow⟩
  · rw [addresses, hbonds, List.map_append, List.map_cons, hsame] at h
    simp at h
  · exact hnow

theorem spared_sublist (bonds : List Bond) : (spared bonds).Sublist bonds := by
  unfold spared
  split
  · exact List.Sublist.refl bonds
  · exact List.tail_sublist bonds

theorem length_spared_lt {bonds : List Bond} (h : bonds.length ≤ Settings.maxBonds) :
    (spared bonds).length < Settings.maxBonds := by
  have hroom : 0 < Settings.maxBonds := by decide
  unfold spared
  split
  · assumption
  · rw [List.length_tail]
    omega

/-- Adding a bond never overfills a keyring. -/
theorem length_bonds_insert_le (h : ring.bonds.length ≤ Settings.maxBonds) (bond : Bond) :
    (ring.insert bond).bonds.length ≤ Settings.maxBonds := by
  rcases insert_cases ring bond with ⟨before, old, after, hbonds, -, hnow⟩ | ⟨-, hnow⟩
  · rw [hbonds] at h
    rw [hnow]
    simpa using h
  · rw [hnow, List.length_append, List.length_singleton]
    exact length_spared_lt h

/-- Adding a bond keeps the addresses distinct: it comes in place of the one bond of its address, or
its address is new. -/
theorem Distinct.insert (distinct : ring.Distinct) (bond : Bond) : (ring.insert bond).Distinct := by
  unfold Distinct
  by_cases hmem : bond.address ∈ ring.addresses
  · rwa [addresses_insert_of_mem hmem]
  · have hspared := (spared_sublist ring.bonds).map (·.address)
    rw [addresses, bonds_insert_of_not_mem hmem, List.map_append, List.map_singleton]
    refine List.Nodup.append (distinct.sublist hspared) (List.nodup_singleton _) ?_
    rw [List.disjoint_singleton]
    exact fun h => hmem (hspared.subset h)

/-! ## Removing a bond -/

/-- Of the bonds of an address, the oldest goes. -/
theorem bonds_remove (ring : Keyring) (address : Address) :
    (ring.remove address).1.bonds = ring.bonds.eraseP fun bond => bond.address = address := by
  cases hfind : ring.find? address with
  | some bond => simp only [remove, hfind]
  | none =>
    simp only [remove, hfind]
    exact (List.eraseP_of_forall_not (List.find?_eq_none.1 hfind)).symm

/-- There is a bond to find if there is one at all. -/
theorem find?_eq_none_iff : ring.find? address = none ↔ ring.held address = 0 := by
  simp [find?, held, addresses, List.count_eq_zero]

theorem remove_eq_false_iff : (ring.remove address).2 = false ↔ ring.held address = 0 := by
  rw [← find?_eq_none_iff]
  cases hfind : ring.find? address with
  | some bond => simp [remove, hfind]
  | none => simp [remove, hfind]

theorem addresses_remove (ring : Keyring) (address : Address) :
    (ring.remove address).1.addresses = ring.addresses.erase address := by
  unfold addresses
  rw [bonds_remove, List.erase_eq_eraseP, List.eraseP_map]
  congr 2
  funext bond
  exact decide_eq_decide.2 eq_comm

/-- One bond of the address goes at a time. -/
theorem held_remove (ring : Keyring) (address : Address) :
    (ring.remove address).1.held address = ring.held address - 1 := by
  rw [held, addresses_remove, List.count_erase_self]
  rfl

theorem length_bonds_remove_le (ring : Keyring) (address : Address) :
    (ring.remove address).1.bonds.length ≤ ring.bonds.length := by
  rw [bonds_remove]
  exact List.eraseP_sublist.length_le

/-- Removing a bond keeps the addresses distinct. -/
theorem Distinct.remove (distinct : ring.Distinct) (address : Address) :
    (ring.remove address).1.Distinct := by
  unfold Distinct
  rw [addresses_remove]
  exact distinct.erase address

/-- A removed bond is gone if it was the only one of its address. -/
theorem find?_remove_eq_none_iff :
    (ring.remove address).1.find? address = none ↔ ring.held address ≤ 1 := by
  rw [find?_eq_none_iff, held_remove, Nat.sub_eq_zero_iff_le]

/-- There is nothing to remove a second time if there was only one bond of the address. -/
theorem remove_remove_eq_false_iff :
    ((ring.remove address).1.remove address).2 = false ↔ ring.held address ≤ 1 := by
  rw [remove_eq_false_iff, held_remove, Nat.sub_eq_zero_iff_le]

/-! ## Runs -/

theorem length_bonds_decode_le (data : Bytes) :
    (decode data).bonds.length ≤ Settings.maxBonds := by
  cases data with
  | nil => simp [decode]
  | cons count data =>
    exact Nat.le_trans (length_readRecords_le _ data) (Nat.min_le_right _ _)

/-- No call overfills a keyring. -/
theorem length_bonds_perform_le (h : ring.bonds.length ≤ Settings.maxBonds) (call : Call) :
    (ring.perform call).bonds.length ≤ Settings.maxBonds := by
  cases call with
  | insert bond => exact length_bonds_insert_le h bond
  | remove address => exact Nat.le_trans (length_bonds_remove_le ring address) h
  | markClean => exact h
  | decode data => exact length_bonds_decode_le data

/-- A keyring that began empty is never overfull. -/
theorem length_bonds_after_le (calls : List Call) :
    (after {} calls).bonds.length ≤ Settings.maxBonds := by
  induction calls using List.reverseRecOn with
  | nil => simp
  | append_singleton calls call ih =>
    rw [after_concat]
    exact length_bonds_perform_le ih call

/-- A call keeps the addresses distinct, unless it reads a stored form that has one twice. -/
theorem Distinct.perform (distinct : ring.Distinct) {call : Call}
    (h : ∀ data, call = .decode data → (decode data).Distinct) : (ring.perform call).Distinct := by
  cases call with
  | insert bond => exact distinct.insert bond
  | remove address => exact distinct.remove address
  | markClean => exact distinct
  | decode data => exact h data rfl

/-- The addresses of a keyring that began empty are distinct all along if they are in every stored
form that is read. -/
theorem distinct_after_iff (calls : List Call) :
    (∀ earlier, earlier <+: calls → (after {} earlier).Distinct) ↔
      ∀ data, .decode data ∈ calls → (decode data).Distinct := by
  constructor
  · intro h data hread
    obtain ⟨earlier, later, rfl⟩ := List.append_of_mem hread
    have hthen := h (earlier ++ [.decode data]) ⟨later, by simp⟩
    rwa [after_concat] at hthen
  · intro h earlier hearlier
    induction earlier using List.reverseRecOn with
    | nil => exact List.nodup_nil
    | append_singleton earlier call ih =>
      rw [after_concat]
      refine (ih ((List.prefix_append _ _).trans hearlier)).perform ?_
      rintro data rfl
      exact h data (hearlier.subset (by simp))

/-- **Forgetting is complete for an address that is held once.**  A keyring that began empty is
never overfull, and no two of its bonds have the same address as long as no stored form is read that
has an address twice.  After an address is removed, none of its bonds is found and there is nothing
to remove again exactly if there was at most one of them, and addresses are distinct exactly if this
is so for each. -/
theorem after_one_bond_per_address (calls : List Call) :
    (after {} calls).bonds.length ≤ Settings.maxBonds ∧
    ((∀ earlier, earlier <+: calls → (after {} earlier).Distinct) ↔
      ∀ data, .decode data ∈ calls → (decode data).Distinct) ∧
    ((after {} calls).Distinct ↔ ∀ address, (after {} calls).held address ≤ 1) ∧
    ∀ address,
      (((after {} calls).remove address).1.find? address = none ↔
        (after {} calls).held address ≤ 1) ∧
      ((((after {} calls).remove address).1.remove address).2 = false ↔
        (after {} calls).held address ≤ 1) :=
  ⟨length_bonds_after_le calls, distinct_after_iff calls, distinct_iff_held_le_one,
    fun _ => ⟨find?_remove_eq_none_iff, remove_remove_eq_false_iff⟩⟩

/-- A bond of one camera, all of whose keys consist of the same byte. -/
def bondOfKey (key : UInt8) : Bond where
  address := .ofBytes .randomStatic 1 2 3 4 5 192
  longTermKey := Vector.replicate 16 key
  keyFlags := 3
  diversifier := 4660
  random := Vector.replicate 8 key
  identityKey := Vector.replicate 16 key

/-- Reading a stored form with two bonds of one camera makes a keyring that still has a key of the
camera when the camera is forgotten. -/
theorem stale_key_survives :
    let ring := after {} [.decode (2 :: ((bondOfKey 1).encode ++ (bondOfKey 2).encode))]
    let address := (bondOfKey 1).address
    ¬ ring.Distinct ∧ (ring.remove address).2 = true ∧
      (ring.remove address).1.find? address = some (bondOfKey 2) ∧
      ((ring.remove address).1.remove address).2 = true := by
  have hring : after {} [.decode (2 :: ((bondOfKey 1).encode ++ (bondOfKey 2).encode))] =
      ⟨[bondOfKey 1, bondOfKey 2], false⟩ := by decide +kernel
  rw [hring]
  decide +kernel

end Keyring

end CameraCentral
