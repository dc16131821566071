import CameraCentral.Gatt.Basic

/-!
# Filing entries

The tables of a database are lists of bounded length.  A new entry goes to the end of its table if
there is room.  An entry that belongs under another one is filed under the first that fits.
-/

namespace CameraCentral

namespace Table

variable {α : Type}

/-- Puts an entry at the end of a table that has room for `limit` entries. -/
def push (limit : Nat) (full : Fault) (table : List α) (entry : α) : Except Fault (List α) :=
  if table.length < limit then .ok (table ++ [entry]) else .error full

/-- Changes the first entry that satisfies `p`.  The fault is `missing` if there is no such entry,
and otherwise the fault of the change. -/
def alterFirst (p : α → Prop) [DecidablePred p] (change : α → Except Fault α) (missing : Fault) :
    List α → Except Fault (List α)
  | [] => .error missing
  | entry :: table =>
    if p entry then (change entry).map (· :: table)
    else (alterFirst p change missing table).map (entry :: ·)

theorem push_eq_ok_iff {limit : Nat} {full : Fault} {table table' : List α} {entry : α} :
    push limit full table entry = .ok table' ↔
      table.length < limit ∧ table' = table ++ [entry] := by
  by_cases h : table.length < limit
  · simp [push, h, eq_comm]
  · simp [push, h]

/-- A change goes through exactly when some entry satisfies `p` and the change of the first such
entry goes through; all other entries stay as they are. -/
theorem alterFirst_eq_ok_iff {p : α → Prop} [DecidablePred p] {change : α → Except Fault α}
    {missing : Fault} {table table' : List α} :
    alterFirst p change missing table = .ok table' ↔
      ∃ before entry entry' after, table = before ++ entry :: after ∧ (∀ e ∈ before, ¬ p e) ∧
        p entry ∧ change entry = .ok entry' ∧ table' = before ++ entry' :: after := by
  induction table generalizing table' with
  | nil => simp [alterFirst]
  | cons first table ih =>
    by_cases hp : p first
    · rw [alterFirst, if_pos hp]
      constructor
      · intro h
        obtain ⟨first', hc, rfl⟩ := map_eq_ok_iff.1 h
        exact ⟨[], first, first', table, rfl, by simp, hp, hc, rfl⟩
      · rintro ⟨before, entry, entry', after, heq, hbefore, -, hc, rfl⟩
        cases before with
        | nil =>
          simp only [List.nil_append, List.cons.injEq] at heq
          obtain ⟨rfl, rfl⟩ := heq
          exact map_eq_ok_iff.2 ⟨_, hc, rfl⟩
        | cons b before =>
          simp only [List.cons_append, List.cons.injEq] at heq
          exact absurd (heq.1 ▸ hp) (hbefore b List.mem_cons_self)
    · rw [alterFirst, if_neg hp]
      constructor
      · intro h
        obtain ⟨rest, hr, rfl⟩ := map_eq_ok_iff.1 h
        obtain ⟨before, entry, entry', after, rfl, hbefore, hentry, hc, rfl⟩ := ih.1 hr
        refine ⟨first :: before, entry, entry', after, rfl, ?_, hentry, hc, rfl⟩
        simpa [hp] using hbefore
      · rintro ⟨before, entry, entry', after, heq, hbefore, hentry, hc, rfl⟩
        cases before with
        | nil =>
          simp only [List.nil_append, List.cons.injEq] at heq
          exact absurd (heq.1 ▸ hentry) hp
        | cons b before =>
          simp only [List.cons_append, List.cons.injEq] at heq
          obtain ⟨rfl, rfl⟩ := heq
          have hrest := ih.2 ⟨before, entry, entry', after, rfl,
            fun e he => hbefore e (List.mem_cons_of_mem _ he), hentry, hc, rfl⟩
          exact map_eq_ok_iff.2 ⟨_, hrest, rfl⟩

/-- The first entry that satisfies `p` is changed where it stands. -/
theorem alterFirst_append {p : α → Prop} [DecidablePred p] {change : α → Except Fault α}
    {before after : List α} {entry entry' : α} (missing : Fault) (hbefore : ∀ e ∈ before, ¬ p e)
    (hentry : p entry) (hchange : change entry = .ok entry') :
    alterFirst p change missing (before ++ entry :: after) = .ok (before ++ entry' :: after) :=
  alterFirst_eq_ok_iff.2 ⟨before, entry, entry', after, rfl, hbefore, hentry, hchange, rfl⟩

end Table

/-- Files a descriptor under its characteristic. -/
def Characteristic.add (characteristic : Characteristic) (descriptor : Descriptor) :
    Except Fault Characteristic :=
  (Table.push Settings.maxDescriptors .descriptorTableFull characteristic.descriptors
    descriptor).map fun descriptors => { characteristic with descriptors }

namespace Service

/-- Files a characteristic, still without descriptors, under its service. -/
def add (service : Service) (decl : CharacteristicDecl) : Except Fault Service :=
  (Table.push Settings.maxCharacteristics .characteristicTableFull service.characteristics
    { decl with }).map fun characteristics => { service with characteristics }

/-- Files a descriptor under the first characteristic of the service with this value handle. -/
def addDescriptor (service : Service) (value : AttHandle) (descriptor : Descriptor) :
    Except Fault Service :=
  (Table.alterFirst (·.value = value) (·.add descriptor) (.characteristicNotFound value)
    service.characteristics).map fun characteristics => { service with characteristics }

end Service

end CameraCentral
