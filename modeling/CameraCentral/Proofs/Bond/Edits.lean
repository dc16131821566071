import CameraCentral.Proofs.Bond.Uniqueness

/-!
# Editing a keyring

Bonds are added and removed one at a time, and all bonds lie in one list, so that a bond that is
replaced, dropped or removed moves others about.  By address all of this is invisible: an edit
changes the bond of the address that it is about, takes the bond of one more address away if it adds
a bond of a new address to a full keyring (`Evicts`), and leaves every other address the bond that
it had.  This is so because no two bonds have the same address as long as a keyring is only edited.
-/

namespace CameraCentral

namespace Keyring

/-! ## Edits -/

/-- A bond is added, or the bond of an address is removed. -/
inductive Edit where
  | insert (bond : Bond)
  | remove (address : Address)
deriving DecidableEq, Repr

namespace Edit

/-- The call that makes the edit. -/
def call : Edit → Call
  | insert bond => .insert bond
  | remove address => .remove address

end Edit

/-- The keyring after an edit. -/
def edit (ring : Keyring) (edit : Edit) : Keyring := ring.perform edit.call

/-- A keyring that began empty, after some edits. -/
def edited (edits : List Edit) : Keyring := edits.foldl edit {}

variable {ring : Keyring} {bond : Bond} {address : Address}

@[simp] theorem edit_insert (ring : Keyring) (bond : Bond) :
    ring.edit (.insert bond) = ring.insert bond := rfl

@[simp] theorem edit_remove (ring : Keyring) (address : Address) :
    ring.edit (.remove address) = (ring.remove address).1 := rfl

@[simp] theorem edited_concat (edits : List Edit) (edit : Edit) :
    edited (edits ++ [edit]) = (edited edits).edit edit := by
  simp [edited]

theorem edited_eq_after (edits : List Edit) : edited edits = after {} (edits.map Edit.call) := by
  rw [after, List.foldl_map]
  rfl

/-- Edits keep the addresses distinct. -/
theorem distinct_edited (edits : List Edit) : (edited edits).Distinct := by
  rw [edited_eq_after]
  refine (distinct_after_iff (edits.map Edit.call)).2 (fun data hread => ?_) _ List.prefix_rfl
  obtain ⟨edit, -, hcall⟩ := List.mem_map.1 hread
  cases edit <;> contradiction

theorem length_bonds_edited_le (edits : List Edit) :
    (edited edits).bonds.length ≤ Settings.maxBonds := by
  rw [edited_eq_after]
  exact length_bonds_after_le _

/-! ## What an edit does to look-ups -/

/-- Adding a bond makes an address lose its own: the keyring is full, the address is the one in
front, and the bond is of a new address. -/
def Evicts (ring : Keyring) (bond : Bond) (address : Address) : Prop :=
  bond.address ∉ ring.addresses ∧ Settings.maxBonds ≤ ring.addresses.length ∧
    ring.addresses.head? = some address

instance (ring : Keyring) (bond : Bond) (address : Address) :
    Decidable (ring.Evicts bond address) :=
  inferInstanceAs (Decidable (_ ∧ _ ∧ _))

/-- The bond that is found for an address is the one that there is. -/
theorem Distinct.find?_eq_some_iff (distinct : ring.Distinct) :
    ring.find? address = some bond ↔ bond ∈ ring.bonds ∧ bond.address = address := by
  constructor
  · intro hfind
    exact ⟨List.mem_of_find?_eq_some hfind, by simpa using List.find?_some hfind⟩
  · rintro ⟨hbond, rfl⟩
    cases hfind : ring.find? bond.address with
    | none => simpa using List.find?_eq_none.1 hfind bond hbond
    | some other =>
      have hsame : other.address = bond.address := by simpa using List.find?_some hfind
      rw [List.inj_on_of_nodup_map distinct (List.mem_of_find?_eq_some hfind) hbond hsame]

/-- A removed address has no bond left, and all other bonds stay. -/
theorem Distinct.mem_bonds_remove_iff (distinct : ring.Distinct) {removed : Address} :
    bond ∈ (ring.remove removed).1.bonds ↔ bond ∈ ring.bonds ∧ bond.address ≠ removed := by
  by_cases hsame : bond.address = removed
  · refine iff_of_false (fun hmem => ?_) fun h => h.2 hsame
    have haddress : bond.address ∈ (ring.remove removed).1.addresses := List.mem_map_of_mem hmem
    rw [addresses_remove, hsame] at haddress
    exact distinct.not_mem_erase haddress
  · rw [bonds_remove, List.mem_eraseP_of_neg (by simpa using hsame), and_iff_left hsame]

/-- After a bond is removed its address has none, and every other address has the one it had. -/
theorem Distinct.find?_remove (distinct : ring.Distinct) (removed address : Address) :
    (ring.remove removed).1.find? address =
      if removed = address then none else ring.find? address := by
  refine Option.ext fun bond => ?_
  rw [(distinct.remove removed).find?_eq_some_iff, distinct.mem_bonds_remove_iff]
  split
  · next hsame => exact iff_of_false (fun h => h.1.2 (h.2.trans hsame.symm)) (by simp)
  · next hother =>
    rw [distinct.find?_eq_some_iff]
    constructor
    · rintro ⟨⟨hmem, -⟩, haddress⟩
      exact ⟨hmem, haddress⟩
    · rintro ⟨hmem, haddress⟩
      exact ⟨⟨hmem, fun hremoved => hother (hremoved.symm.trans haddress)⟩, haddress⟩

/-- The bonds that are spared for a new address are all but the one that is evicted. -/
theorem Distinct.mem_spared_iff (distinct : ring.Distinct) (hnew : bond.address ∉ ring.addresses)
    {other : Bond} :
    other ∈ spared ring.bonds ↔ other ∈ ring.bonds ∧ ¬ ring.Evicts bond other.address := by
  have hlength : ring.addresses.length = ring.bonds.length := List.length_map _
  unfold spared
  split
  · next hroom => exact (and_iff_left fun evicts => absurd evicts.2.1 (by omega)).symm
  · next hfull =>
    cases hbonds : ring.bonds with
    | nil => exact absurd (hbonds ▸ hfull) (by decide)
    | cons oldest others =>
      have haddresses : ring.addresses = oldest.address :: others.map (·.address) := by
        rw [addresses, hbonds, List.map_cons]
      have hevicts : ring.Evicts bond other.address ↔ oldest.address = other.address := by
        rw [Evicts, and_iff_right hnew, and_iff_right (by omega), haddresses, List.head?_cons,
          Option.some.injEq]
      rw [Distinct, haddresses, List.nodup_cons] at distinct
      rw [List.tail_cons, List.mem_cons, hevicts]
      constructor
      · intro hother
        exact ⟨.inr hother, fun hsame => distinct.1 (hsame ▸ List.mem_map_of_mem hother)⟩
      · rintro ⟨rfl | hother, hstays⟩
        · exact absurd rfl hstays
        · exact hother

/-- An added bond is there afterwards, and so are all bonds but one of its address and the one that
is evicted. -/
theorem Distinct.mem_bonds_insert_iff (distinct : ring.Distinct) {other : Bond} :
    other ∈ (ring.insert bond).bonds ↔
      other = bond ∨
        other ∈ ring.bonds ∧ other.address ≠ bond.address ∧ ¬ ring.Evicts bond other.address := by
  rcases insert_cases ring bond with ⟨before, old, after, hbonds, hold, hnow⟩ | ⟨hnew, hnow⟩
  · -- All others of the bonds have another address than the one that is replaced.
    have hmem : bond.address ∈ ring.addresses := by simp [addresses, hbonds, hold]
    have hothers : ∀ other ∈ before ++ after, other.address ≠ bond.address := by
      rw [Distinct, addresses, hbonds, List.map_append, List.map_cons, List.nodup_middle,
        ← List.map_append, hold, List.nodup_cons] at distinct
      exact fun other hother hsame => distinct.1 (hsame ▸ List.mem_map_of_mem hother)
    have hstays : ¬ ring.Evicts bond other.address := fun evicts => evicts.1 hmem
    rw [hnow, hbonds, and_iff_left hstays]
    simp only [List.mem_append, List.mem_cons] at hothers ⊢
    constructor
    · rintro (hother | rfl | hother)
      · exact .inr ⟨.inl hother, hothers other (.inl hother)⟩
      · exact .inl rfl
      · exact .inr ⟨.inr (.inr hother), hothers other (.inr hother)⟩
    · rintro (rfl | ⟨hother | rfl | hother, haddress⟩)
      · exact .inr (.inl rfl)
      · exact .inl hother
      · exact absurd hold haddress
      · exact .inr (.inr hother)
  · have hothers : other ∈ ring.bonds → other.address ≠ bond.address := by
      intro hother hsame
      exact hnew (hsame ▸ List.mem_map_of_mem hother)
    rw [hnow, List.mem_append, List.mem_singleton, distinct.mem_spared_iff hnew, or_comm]
    refine or_congr_right (and_congr_right fun hother => ?_)
    exact (and_iff_right (hothers hother)).symm

/-- After a bond is added its address has it, the address that is evicted has none, and every other
address has the one it had. -/
theorem Distinct.find?_insert (distinct : ring.Distinct) (bond : Bond) (address : Address) :
    (ring.insert bond).find? address =
      if bond.address = address then some bond
      else if ring.Evicts bond address then none else ring.find? address := by
  refine Option.ext fun other => ?_
  rw [(distinct.insert bond).find?_eq_some_iff, distinct.mem_bonds_insert_iff]
  split
  · next hsame =>
    subst hsame
    constructor
    · rintro ⟨rfl | ⟨-, hother, -⟩, haddress⟩
      · rfl
      · exact absurd haddress hother
    · intro h
      obtain rfl := Option.some.inj h
      exact ⟨.inl rfl, rfl⟩
  · next hother =>
    split
    · next evicts =>
      refine iff_of_false ?_ (by simp)
      rintro ⟨rfl | ⟨-, -, hstays⟩, rfl⟩
      · exact hother rfl
      · exact hstays evicts
    · next hstays =>
      rw [distinct.find?_eq_some_iff]
      constructor
      · rintro ⟨rfl | ⟨hmem, -⟩, haddress⟩
        · exact absurd haddress hother
        · exact ⟨hmem, haddress⟩
      · rintro ⟨hmem, rfl⟩
        exact ⟨.inr ⟨hmem, fun hsame => hother hsame.symm, hstays⟩, rfl⟩

end Keyring

end CameraCentral
