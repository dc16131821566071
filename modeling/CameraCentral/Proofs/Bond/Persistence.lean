import CameraCentral.Bond.Flash
import CameraCentral.Proofs.Bond.Uniqueness
import CameraCentral.Proofs.History

/-!
# What flash holds

A vault is a keyring beside the flash that it is stored in.  Bonds come and go, the keyring is saved
and loaded, the central reboots, and flash works or fails in any pattern.

Flash holds the bonds of the last save that replaced its item, all of them and no others, whatever
failed since (`after_durable`).  Whether these are the bonds that the keyring has is told by its
`dirty` flag, with one exception: a keyring that flash could not be read for is empty and yet clean.
Until it changes or is loaded again it is `Unread`, saving it does nothing and succeeds, and the
bonds that flash still holds come back with the next reboot (`saved_lists_same_iff`).
-/

namespace CameraCentral

/-- A keyring and the flash that it is stored in. -/
structure Vault where
  flash : Flash := {}
  ring : Keyring := {}
deriving DecidableEq, Repr

namespace Vault

/-! ## What can happen to a vault -/

/-- Something that happens to a vault. -/
inductive Call where
  | insert (bond : Bond)
  | remove (address : Address)
  | save
  | load
  | reboot
  /-- From now on reading and writing flash work, or fail. -/
  | work (readable writable : Bool)
deriving DecidableEq, Repr

/-- Loading the keyring from flash. -/
def load (vault : Vault) : Vault := { vault with ring := vault.flash.load }

/-- Starting again with a new keyring, which is loaded. -/
def reboot (vault : Vault) : Vault := load { vault with ring := {} }

/-- Saving the keyring to flash. -/
def save (vault : Vault) : Vault where
  flash := (vault.flash.save vault.ring).1
  ring := (vault.flash.save vault.ring).2.1

/-- How saving the keyring ends. -/
def saved (vault : Vault) : SaveResult := (vault.flash.save vault.ring).2.2

/-- The vault after a call. -/
def perform (vault : Vault) : Call → Vault
  | .insert bond => { vault with ring := vault.ring.insert bond }
  | .remove address => { vault with ring := (vault.ring.remove address).1 }
  | .save => vault.save
  | .load => vault.load
  | .reboot => vault.reboot
  | .work readable writable =>
    { vault with flash := { vault.flash with readable := readable, writable := writable } }

/-- A new keyring beside erased flash, which works or does not. -/
def fresh (readable writable : Bool) : Vault := ⟨⟨none, readable, writable⟩, {}⟩

/-- The vault after some calls. -/
def after (vault : Vault) (calls : List Call) : Vault := calls.foldl perform vault

@[simp] theorem after_concat (vault : Vault) (calls : List Call) (call : Call) :
    vault.after (calls ++ [call]) = (vault.after calls).perform call := by
  simp [after]

/-- A call, and the vault before it. -/
structure Turn where
  before : Vault
  call : Call
deriving DecidableEq, Repr

/-- What happens to a vault in some calls. -/
def history (vault : Vault) : List Call → List Turn
  | [] => []
  | call :: calls => ⟨vault, call⟩ :: history (vault.perform call) calls

@[simp] theorem history_concat (vault : Vault) (calls : List Call) (call : Call) :
    vault.history (calls ++ [call]) = vault.history calls ++ [⟨vault.after calls, call⟩] := by
  induction calls generalizing vault with
  | nil => rfl
  | cons first calls ih =>
    rw [List.cons_append, history, ih, history, List.cons_append]
    rfl

/-- What is so at first, and is kept by whatever happens next, is so after all calls. -/
theorem history_induction {p : List Turn → Vault → Prop} {vault : Vault} (start : p [] vault)
    (step : ∀ past now call, p past now → p (past ++ [⟨now, call⟩]) (now.perform call))
    (calls : List Call) : p (vault.history calls) (vault.after calls) := by
  induction calls using List.reverseRecOn with
  | nil => exact start
  | append_singleton calls call ih =>
    rw [history_concat, after_concat]
    exact step _ _ call ih

/-! ## What was stored last -/

namespace Turn

/-- The turn replaces the item in flash. -/
def Writes (turn : Turn) : Prop := turn.call = .save ∧ turn.before.saved = .written

/-- The turn fills the keyring from flash. -/
def Loads (turn : Turn) : Prop := turn.call = .load ∨ turn.call = .reboot

/-- The turn adds a bond or takes one away. -/
def Changes (turn : Turn) : Prop :=
  match turn.call with
  | .insert _ => True
  | .remove address => (turn.before.ring.remove address).2 = true
  | _ => False

instance (turn : Turn) : Decidable turn.Writes := inferInstanceAs (Decidable (_ ∧ _))

instance (turn : Turn) : Decidable turn.Loads := inferInstanceAs (Decidable (_ ∨ _))

instance : (turn : Turn) → Decidable turn.Changes
  | ⟨_, .insert _⟩ => .isTrue trivial
  | ⟨before, .remove address⟩ => inferInstanceAs (Decidable ((before.ring.remove address).2 = true))
  | ⟨_, .save⟩ | ⟨_, .load⟩ | ⟨_, .reboot⟩ | ⟨_, .work _ _⟩ => .isFalse id

end Turn

/-- The keyring that was stored last, as it was then. -/
def lastStored? (history : List Turn) : Option Keyring :=
  ((history.filter Turn.Writes).getLast?).map (·.before.ring)

/-- The bonds that were stored last, of which there are none if nothing was ever stored. -/
def kept (history : List Turn) : List Bond := ((lastStored? history).map (·.bonds)).getD []

/-- The keyring is what was made of flash that could not be read: the last time that it was loaded
reading failed, and it did not change since. -/
def Unread : List Turn → Prop :=
  Since (fun turn => ¬ turn.Loads ∧ ¬ turn.Changes)
    fun turn => turn.Loads ∧ turn.before.flash.readable = false

instance (history : List Turn) : Decidable (Unread history) :=
  inferInstanceAs (Decidable (Since ..))

variable {history : List Turn} {vault now : Vault} {turn : Turn}

theorem lastStored?_concat_of_writes (writes : turn.Writes) :
    lastStored? (history ++ [turn]) = some turn.before.ring := by
  simp [lastStored?, writes]

theorem lastStored?_concat_of_not_writes (unwritten : ¬ turn.Writes) :
    lastStored? (history ++ [turn]) = lastStored? history := by
  simp [lastStored?, unwritten]

theorem kept_concat_of_writes (writes : turn.Writes) :
    kept (history ++ [turn]) = turn.before.ring.bonds := by
  rw [kept, lastStored?_concat_of_writes writes]
  rfl

theorem kept_concat_of_not_writes (unwritten : ¬ turn.Writes) :
    kept (history ++ [turn]) = kept history := by
  rw [kept, lastStored?_concat_of_not_writes unwritten, kept]

theorem unread_concat_iff :
    Unread (history ++ [turn]) ↔ (turn.Loads ∧ turn.before.flash.readable = false) ∨
      (¬ turn.Loads ∧ ¬ turn.Changes) ∧ Unread history :=
  since_concat_iff

/-- A save that writes found the keyring dirty, and leaves it clean beside its stored form. -/
theorem save_of_written (written : vault.saved = .written) :
    vault.ring.dirty = true ∧
      vault.save = ⟨{ vault.flash with item := some vault.ring.encode }, vault.ring.markClean⟩ := by
  unfold saved save Flash.save at *
  split at written
  · next dirty =>
    split at written
    · next works => simp [dirty, works]
    · cases written
  · cases written

/-- A save that does not write changes nothing. -/
theorem save_of_not_written (unwritten : vault.saved ≠ .written) : vault.save = vault := by
  unfold saved save Flash.save at *
  split at unwritten
  · next dirty =>
    split at unwritten
    · exact absurd rfl unwritten
    · next fails => simp [dirty, fails]
  · next clean => simp [clean]

/-- Saving finds nothing to do exactly if the keyring is clean. -/
theorem saved_eq_upToDate_iff : vault.saved = .upToDate ↔ vault.ring.dirty = false := by
  unfold saved Flash.save
  split
  · next dirty => split <;> simp [dirty]
  · next clean => simpa using clean

/-! ## The item is what was stored last -/

/-- A stored keyring that is not overfull can be read. -/
theorem length_encode_le_readMax {ring : Keyring} (h : ring.bonds.length ≤ Settings.maxBonds) :
    ring.encode.length ≤ Flash.readMax := by
  have hrecords : (ring.bonds.flatMap Bond.encode).length =
      ring.bonds.length * Bond.encodedLength := by
    simp [List.length_flatMap]
  have hsize := Nat.mul_le_mul_right Bond.encodedLength h
  rw [Keyring.encode, List.length_cons, hrecords, Flash.readMax, Keyring.encodedMax]
  omega

/-- A stored keyring that is not overfull is read back, clean. -/
theorem decode_encode {ring : Keyring} (h : ring.bonds.length ≤ Settings.maxBonds) :
    Keyring.decode ring.encode = ⟨ring.bonds, false⟩ := by
  rw [← Keyring.bonds_decode_encode h, ← Keyring.dirty_decode ring.encode]

/-- The item in flash is the stored form of the keyring that was stored last, and neither that nor
the keyring of now is overfull. -/
structure Durable (history : List Turn) (vault : Vault) : Prop where
  item_eq : vault.flash.item = (lastStored? history).map Keyring.encode
  fits : vault.ring.bonds.length ≤ Settings.maxBonds
  kept_fits : (kept history).length ≤ Settings.maxBonds

namespace Durable

/-- Loading gives the bonds that were stored last, if flash can be read. -/
theorem load_eq (durable : Durable history vault) :
    vault.flash.load = if vault.flash.readable then ⟨kept history, false⟩ else {} := by
  have hitem := durable.item_eq
  have hfits := durable.kept_fits
  unfold kept at hfits ⊢
  cases hlast : lastStored? history with
  | none =>
    rw [hlast] at hitem
    simp [Flash.load, hitem]
  | some ring =>
    rw [hlast] at hitem hfits
    by_cases hreadable : vault.flash.readable = true
    · simp [Flash.load, hitem, hreadable, decode_encode hfits, length_encode_le_readMax hfits]
    · simp [Flash.load, hitem, hreadable]

/-- Loading cannot overfill a keyring. -/
theorem length_load_le (durable : Durable history vault) :
    vault.flash.load.bonds.length ≤ Settings.maxBonds := by
  rw [durable.load_eq]
  split
  · exact durable.kept_fits
  · exact Nat.zero_le _

/-- After a reboot with flash that can be read, the keyring has the bonds that were stored last. -/
theorem reboot_eq (durable : Durable history vault) (writable : Bool) :
    (vault.after [.work true writable, .reboot]).ring = ⟨kept history, false⟩ := by
  have hworking : Durable history (vault.perform (.work true writable)) :=
    { item_eq := durable.item_eq, fits := durable.fits, kept_fits := durable.kept_fits }
  exact hworking.load_eq

/-- A turn that leaves the item in flash alone, and does not overfill the keyring. -/
theorem concat_of_not_writes (durable : Durable history vault) (unwritten : ¬ turn.Writes)
    (hitem : now.flash.item = vault.flash.item)
    (hfits : now.ring.bonds.length ≤ Settings.maxBonds) : Durable (history ++ [turn]) now where
  item_eq := by rw [hitem, durable.item_eq, lastStored?_concat_of_not_writes unwritten]
  fits := hfits
  kept_fits := by
    rw [kept_concat_of_not_writes unwritten]
    exact durable.kept_fits

/-- A save that writes puts the stored form of the keyring into flash. -/
theorem concat_of_written (durable : Durable history vault) (written : vault.saved = .written) :
    Durable (history ++ [⟨vault, .save⟩]) vault.save where
  item_eq := by
    rw [(save_of_written written).2, lastStored?_concat_of_writes ⟨rfl, written⟩]
    rfl
  fits := by
    rw [(save_of_written written).2]
    exact durable.fits
  kept_fits := by
    rw [kept_concat_of_writes ⟨rfl, written⟩]
    exact durable.fits

/-- Whatever happens next. -/
theorem concat (durable : Durable history vault) (call : Call) :
    Durable (history ++ [⟨vault, call⟩]) (vault.perform call) := by
  cases call with
  | insert bond =>
    exact durable.concat_of_not_writes (by simp [Turn.Writes]) rfl
      (Keyring.length_bonds_insert_le durable.fits bond)
  | remove address =>
    exact durable.concat_of_not_writes (by simp [Turn.Writes]) rfl
      (Nat.le_trans (Keyring.length_bonds_remove_le _ address) durable.fits)
  | save =>
    by_cases written : vault.saved = .written
    · exact durable.concat_of_written written
    · rw [perform, save_of_not_written written]
      exact durable.concat_of_not_writes (fun writes => written writes.2) rfl durable.fits
  | load =>
    exact durable.concat_of_not_writes (by simp [Turn.Writes]) rfl durable.length_load_le
  | reboot =>
    exact durable.concat_of_not_writes (by simp [Turn.Writes]) rfl durable.length_load_le
  | work readable writable =>
    exact durable.concat_of_not_writes (by simp [Turn.Writes]) rfl durable.fits

end Durable

/-- The item is what was stored last all along, from erased flash on. -/
theorem durable_after (hitem : vault.flash.item = none)
    (hfits : vault.ring.bonds.length ≤ Settings.maxBonds) (calls : List Call) :
    Durable (vault.history calls) (vault.after calls) :=
  history_induction ⟨hitem, hfits, Nat.zero_le _⟩ (fun _ _ call durable => durable.concat call)
    calls

/-- **Failed saves lose nothing that was saved.**  From erased flash on, whatever happens and
whenever flash works or fails: a save that fails changes nothing, the item in flash is the stored
form of the keyring as it was at the last save that wrote, and a reboot with flash that can be read
gives a clean keyring with exactly the bonds of then. -/
theorem after_durable {calls : List Call} (hitem : vault.flash.item = none)
    (hfits : vault.ring.bonds.length ≤ Settings.maxBonds) (hnow : vault.after calls = now) :
    (now.saved = .failed → now.save = now) ∧
    now.flash.item = (lastStored? (vault.history calls)).map Keyring.encode ∧
    ∀ writable, (now.after [.work true writable, .reboot]).ring =
      ⟨kept (vault.history calls), false⟩ := by
  subst hnow
  have durable := durable_after hitem hfits calls
  refine ⟨fun failed => ?_, durable.item_eq, durable.reboot_eq⟩
  exact save_of_not_written (by rw [failed]; decide)

/-- A bond is saved, its keys are replaced, and flash fails when that is to be saved. -/
def halfSaved : List Call :=
  [.insert (Keyring.bondOfKey 1), .save, .insert (Keyring.bondOfKey 2), .work true false]

/-- What becomes of keys that could not be saved: flash holds the old ones, and they come back. -/
theorem durable_half_saved :
    (fresh true true).flash.item = none ∧
      (fresh true true).ring.bonds.length ≤ Settings.maxBonds ∧
      ((fresh true true).after halfSaved).saved = .failed ∧
      ((fresh true true).after halfSaved).save = (fresh true true).after halfSaved ∧
      ((fresh true true).after halfSaved).flash.item =
        some (Keyring.encode ⟨[Keyring.bondOfKey 1], true⟩) ∧
      (((fresh true true).after halfSaved).after [.work true false, .reboot]).ring =
        ⟨[Keyring.bondOfKey 1], false⟩ := by
  have hfailed : ((fresh true true).after halfSaved).saved = .failed := by decide +kernel
  have hlast : lastStored? ((fresh true true).history halfSaved) =
      some ⟨[Keyring.bondOfKey 1], true⟩ := by decide +kernel
  obtain ⟨hsave, hitem, hreboot⟩ :=
    @after_durable (fresh true true) _ halfSaved rfl (Nat.zero_le _) rfl
  rw [hlast] at hitem
  refine ⟨rfl, Nat.zero_le _, hfailed, hsave hfailed, hitem, ?_⟩
  rw [hreboot false, kept, hlast]
  rfl

/-! ## A clean keyring has the bonds that flash holds -/

/-- The keyring is empty and clean while it is unread.  At other times, if it is clean, its bonds
are those that were stored last. -/
structure Faithful (history : List Turn) (vault : Vault) : Prop where
  unread : Unread history → vault.ring = {}
  clean : ¬ Unread history → vault.ring.dirty = false → vault.ring.bonds = kept history

namespace Faithful

theorem not_unread_of_dirty (faithful : Faithful history vault)
    (hdirty : vault.ring.dirty = true) : ¬ Unread history := by
  intro h
  rw [faithful.unread h] at hdirty
  exact Bool.false_ne_true hdirty

/-- A turn that leaves the keyring and the item in flash alone. -/
theorem concat_of_idle (faithful : Faithful history vault) (hload : ¬ turn.Loads)
    (hchange : ¬ turn.Changes) (unwritten : ¬ turn.Writes) (hring : now.ring = vault.ring) :
    Faithful (history ++ [turn]) now := by
  have hunread : Unread (history ++ [turn]) ↔ Unread history := by
    simp [unread_concat_iff, hload, hchange]
  constructor
  · rw [hunread, hring]
    exact faithful.unread
  · rw [hunread, hring, kept_concat_of_not_writes unwritten]
    exact faithful.clean

/-- A turn that changes the keyring leaves it dirty. -/
theorem concat_of_changes (hload : ¬ turn.Loads) (hchange : turn.Changes)
    (hdirty : now.ring.dirty = true) : Faithful (history ++ [turn]) now := by
  constructor
  · intro hunread
    simp [unread_concat_iff, hload, hchange] at hunread
  · intro _ hclean
    simp [hdirty] at hclean

/-- A turn that loads the keyring. -/
theorem concat_of_loads (durable : Durable history vault) (hload : turn.Loads)
    (hbefore : turn.before = vault) (unwritten : ¬ turn.Writes)
    (hring : now.ring = vault.flash.load) : Faithful (history ++ [turn]) now := by
  have hunread : Unread (history ++ [turn]) ↔ vault.flash.readable = false := by
    simp [unread_concat_iff, hload, hbefore]
  rw [durable.load_eq] at hring
  constructor
  · intro h
    rw [hring, hunread.1 h]
    rfl
  · intro h _
    rw [hunread, Bool.not_eq_false] at h
    rw [hring, h, kept_concat_of_not_writes unwritten]
    rfl

/-- A save that writes. -/
theorem concat_of_written (faithful : Faithful history vault) (written : vault.saved = .written) :
    Faithful (history ++ [⟨vault, .save⟩]) vault.save := by
  obtain ⟨hdirty, hsave⟩ := save_of_written written
  have hread := faithful.not_unread_of_dirty hdirty
  constructor
  · intro hunread
    simp [unread_concat_iff, Turn.Loads, hread] at hunread
  · intro _ _
    rw [kept_concat_of_writes ⟨rfl, written⟩, hsave]
    rfl

/-- Whatever happens next. -/
theorem concat (faithful : Faithful history vault) (durable : Durable history vault) (call : Call) :
    Faithful (history ++ [⟨vault, call⟩]) (vault.perform call) := by
  cases call with
  | insert bond =>
    exact concat_of_changes (by simp [Turn.Loads]) trivial rfl
  | remove address =>
    -- Only a bond that is there can be taken away.
    cases hfind : vault.ring.find? address with
    | some bond =>
      exact concat_of_changes (by simp [Turn.Loads])
        (by simp [Turn.Changes, Keyring.remove, hfind])
        (by simp [perform, Keyring.remove, hfind])
    | none =>
      exact faithful.concat_of_idle (by simp [Turn.Loads])
        (by simp [Turn.Changes, Keyring.remove, hfind]) (by simp [Turn.Writes])
        (by simp [perform, Keyring.remove, hfind])
  | save =>
    by_cases written : vault.saved = .written
    · exact faithful.concat_of_written written
    · rw [perform, save_of_not_written written]
      exact faithful.concat_of_idle (by simp [Turn.Loads]) id (fun writes => written writes.2) rfl
  | load =>
    exact concat_of_loads durable (by simp [Turn.Loads]) rfl (by simp [Turn.Writes]) rfl
  | reboot =>
    exact concat_of_loads durable (by simp [Turn.Loads]) rfl (by simp [Turn.Writes]) rfl
  | work readable writable =>
    exact faithful.concat_of_idle (by simp [Turn.Loads]) id (by simp [Turn.Writes]) rfl

end Faithful

/-- A keyring that began new beside erased flash tells all along, by being clean, that it has the
bonds that were stored last, unless it is unread. -/
theorem faithful_after (readable writable : Bool) (calls : List Call) :
    Durable ((fresh readable writable).history calls) ((fresh readable writable).after calls) ∧
      Faithful ((fresh readable writable).history calls)
        ((fresh readable writable).after calls) := by
  have hread : ¬ Unread [] := not_since_nil _ _
  refine history_induction (p := fun past now => Durable past now ∧ Faithful past now)
    ⟨⟨rfl, Nat.zero_le _, Nat.zero_le _⟩, fun h => absurd h hread, fun _ _ => rfl⟩ ?_ calls
  intro past now call ⟨durable, faithful⟩
  exact ⟨durable.concat call, faithful.concat durable call⟩

/-- **A saved keyring is what flash holds, unless it is unread.**  For a keyring that began new
beside erased flash, whenever saving it succeeds, a reboot with flash that can be read directly
afterwards gives the same bonds in the same order, unless the keyring is unread and flash holds
bonds; then it does not. -/
theorem saved_lists_same_iff {readable writable : Bool} {calls : List Call}
    (hnow : (fresh readable writable).after calls = now) (hsaved : now.saved ≠ .failed)
    (workable : Bool) :
    now.save.ring.bonds = now.ring.bonds ∧
    ((now.after [.save, .work true workable, .reboot]).ring.bonds = now.ring.bonds ↔
      (Unread ((fresh readable writable).history calls) →
        kept ((fresh readable writable).history calls) = [])) := by
  subst hnow
  obtain ⟨durable, faithful⟩ := faithful_after readable writable calls
  generalize (fresh readable writable).history calls = history at durable faithful ⊢
  generalize (fresh readable writable).after calls = now at hsaved durable faithful ⊢
  have hreboot : (now.after [.save, .work true workable, .reboot]).ring.bonds =
      kept (history ++ [⟨now, .save⟩]) := by
    have hring := (durable.concat .save).reboot_eq workable
    exact congrArg Keyring.bonds hring
  rw [hreboot]
  cases hending : now.saved with
  | upToDate =>
    have unwritten : now.saved ≠ .written := by
      rw [hending]
      decide
    rw [save_of_not_written unwritten, kept_concat_of_not_writes fun writes => unwritten writes.2]
    refine ⟨rfl, ?_⟩
    by_cases hunread : Unread history
    · -- An unread keyring is empty, so flash agrees with it only if nothing is kept there.
      simp [hunread, faithful.unread hunread]
    · simp [hunread, faithful.clean hunread (saved_eq_upToDate_iff.1 hending)]
  | written =>
    obtain ⟨hdirty, hsave⟩ := save_of_written hending
    rw [hsave, kept_concat_of_writes ⟨rfl, hending⟩]
    refine ⟨rfl, iff_of_true rfl fun hunread => ?_⟩
    exact absurd hunread (faithful.not_unread_of_dirty hdirty)
  | failed => exact absurd hending hsaved

/-- A save fails, and flash works again when it is tried once more. -/
def retried : List Call := halfSaved ++ [.save, .work true true]

/-- What is saved at the second attempt is there after a reboot. -/
theorem saved_at_second_attempt :
    ((fresh true true).after retried).saved ≠ .failed ∧
      (((fresh true true).after retried).after [.save, .work true true, .reboot]).ring.bonds =
        [Keyring.bondOfKey 2] := by
  have hsaved : ((fresh true true).after retried).saved ≠ .failed := by decide +kernel
  have hbonds : ((fresh true true).after retried).ring.bonds = [Keyring.bondOfKey 2] := by
    decide +kernel
  have hread : ¬ Unread ((fresh true true).history retried) := by decide +kernel
  obtain ⟨-, hlists⟩ := @saved_lists_same_iff _ true true retried rfl hsaved true
  refine ⟨hsaved, ?_⟩
  rw [hlists.2 fun h => absurd h hread, hbonds]

/-- A bond is saved, and flash fails just when the keyring is loaded. -/
def unreadable : List Call :=
  [.insert (Keyring.bondOfKey 1), .save, .work false true, .load, .work true true]

/-- Saving a keyring that is unread succeeds and leaves it empty, and a reboot brings back the bond
that flash held all the time. -/
theorem unread_bond_returns :
    ((fresh true true).after unreadable).saved = .upToDate ∧
      ((fresh true true).after unreadable).save.ring.bonds = [] ∧
      (((fresh true true).after unreadable).after [.save, .work true true, .reboot]).ring.bonds =
        [Keyring.bondOfKey 1] := by
  have hnow : (fresh true true).after unreadable =
      ⟨⟨some (Keyring.encode ⟨[Keyring.bondOfKey 1], true⟩), true, true⟩, {}⟩ := by decide +kernel
  have hreboot : (((fresh true true).after unreadable).after
      [.save, .work true true, .reboot]).ring = ⟨[Keyring.bondOfKey 1], false⟩ := by decide +kernel
  refine ⟨?_, ?_, congrArg Keyring.bonds hreboot⟩
  · rw [hnow]
    rfl
  · rw [hnow]
    rfl

end Vault

end CameraCentral
