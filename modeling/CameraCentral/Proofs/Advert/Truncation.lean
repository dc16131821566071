import CameraCentral.Proofs.Advert.Name

/-!
# Truncated payloads

A payload may have lost its end by the time it is read: a report keeps what a legacy packet carries
and no more.  The cut can go through a field anywhere, through its payload, its kind or right behind
its length byte, and what is left of that field is a length byte that promises too much.  So nothing
is read there, and the fields that are read are the whole fields in front of the cut and no others
(`isPrefix_parse_take_iff`).  Hence a truncated payload is never taken for a camera's if the full
one is not, and a name in full that survives the cut is the name of the full payload
(`truncation_invents_nothing`).
-/

namespace CameraCentral

namespace Advert

namespace Field

variable {data front bytes bytes' : Bytes} {fields : List Field}

/-- Fields have one written form. -/
theorem Written.unique (written : Written fields bytes) (written' : Written fields bytes') :
    bytes = bytes' := by
  induction written generalizing bytes' with
  | nil =>
    cases written'
    rfl
  | cons counted _ ih =>
    cases written' with
    | cons counted' written' =>
      rw [ih written', UInt8.toNat_inj.1 (counted.trans counted'.symm)]

/-- What is read of a payload is read of every longer one that starts with it. -/
theorem isPrefix_parse (h : front <+: data) : parse front <+: parse data := by
  obtain ⟨behind, rfl⟩ := h
  obtain ⟨bytes, rest, hfront, written, -⟩ := exists_written front
  have hread := written.parse_append (rest ++ behind)
  rw [← List.append_assoc, ← hfront] at hread
  exact ⟨_, hread.symm⟩

/-- Of written fields in front of a payload, all survive a cut exactly if it goes behind them. -/
theorem isPrefix_parse_take_iff (written : Written fields bytes) (rest : Bytes) (n : Nat) :
    fields <+: parse ((bytes ++ rest).take n) ↔ bytes.length ≤ n := by
  constructor
  · rintro ⟨others, hothers⟩
    obtain ⟨kept, lost, hkept, hwritten, -⟩ := exists_written ((bytes ++ rest).take n)
    rw [← hothers] at hwritten
    obtain ⟨bytes', back, rfl, written', -⟩ := written_append_iff.1 hwritten
    obtain rfl := written.unique written'
    have hlength := congrArg List.length hkept
    simp only [List.length_take, List.length_append] at hlength
    omega
  · intro hn
    rw [List.take_append, List.take_of_length_le hn, written.parse_append]
    exact List.prefix_append fields _

end Field

variable {data front : Bytes}

/-- A payload is a camera's if some truncation of it is. -/
theorem IsCamera.of_isPrefix (camera : IsCamera front) (h : front <+: data) : IsCamera data := by
  obtain ⟨field, hmem, hannounced⟩ := camera
  exact ⟨field, (Field.isPrefix_parse h).subset hmem, hannounced⟩

/-- A name in full that is read of a truncation is the name of the payload. -/
theorem deviceName_eq_of_isPrefix (h : front <+: data)
    (complete : ∃ field ∈ Field.parse front, field.kind = 0x09) :
    deviceName front = deviceName data := by
  obtain ⟨field, hmem, hkind⟩ := complete
  have names := names_deviceName front
  obtain ⟨others, hothers⟩ := Field.isPrefix_parse h
  refine (deviceName_of_names ?_).symm
  rw [← hothers]
  generalize deviceName front = text at names
  cases names with
  | complete split first displayed =>
    rw [split, List.append_assoc]
    exact .complete rfl first displayed
  | shortened incomplete _ _ _ => exact absurd hkind (incomplete field hmem)
  | unknown incomplete _ => exact absurd hkind (incomplete field hmem)

/-- **Truncation never invents a field.**  The fields that are read of the first `n` bytes of a
payload are a prefix of those that are read of all of it, and written fields in front are among them
exactly if all their bytes are.  So a truncated payload is a camera's only if the full one is, and
with a name in full it gives the name that the full one gives.  A report keeps the first 31 bytes,
and all of this is so for it. -/
theorem truncation_invents_nothing (data : Bytes) (n : Nat) :
    Field.parse (data.take n) <+: Field.parse data ∧
    (∀ fields bytes rest, data = bytes ++ rest → Field.Written fields bytes →
      (fields <+: Field.parse (data.take n) ↔ bytes.length ≤ n)) ∧
    (IsCamera (data.take n) → IsCamera data) ∧
    ((∃ field ∈ Field.parse (data.take n), field.kind = 0x09) →
      deviceName (data.take n) = deviceName data) ∧
    ∀ address rssi, (Report.receive address rssi data).data = data.take 31 ∧
      ((Report.receive address rssi data).IsCamera → IsCamera data) ∧
      ((∃ field ∈ Field.parse (data.take 31), field.kind = 0x09) →
        (Report.receive address rssi data).name = deviceName data) := by
  have hcut : ∀ n, data.take n <+: data := fun n => List.take_prefix n data
  refine ⟨Field.isPrefix_parse (hcut n), ?_, fun camera => camera.of_isPrefix (hcut n),
    deviceName_eq_of_isPrefix (hcut n), fun address rssi => ⟨rfl, ?_, ?_⟩⟩
  · rintro fields bytes rest rfl written
    exact Field.isPrefix_parse_take_iff written rest n
  · exact fun camera => IsCamera.of_isPrefix camera (hcut 31)
  · exact deviceName_eq_of_isPrefix (hcut 31)

example : ∀ n < 7, ¬ IsCamera ([0x02, 0x01, 0x06, 0x03, 0x03, 0xA6, 0xFE].take n) := by decide

end Advert

end CameraCentral
