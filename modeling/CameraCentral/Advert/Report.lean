import CameraCentral.Address
import CameraCentral.Advert.Field
import CameraCentral.Settings
import CameraCentral.Uuid

/-!
# Advertising reports

A camera makes itself known by its service: the 16-bit alias of the service stands in one of the
lists of services of the payload, or in front of service data.  A report keeps the payload as far
as a legacy packet can carry it, the address of the sender and the strength of the signal.
-/

namespace CameraCentral

namespace Advert

namespace Field

/-- The aliases of the services that a field announces: every pair of bytes of a service list, and
the first pair of service data. -/
def announced (field : Field) : List UInt16 :=
  if field.kind = incompleteServices ∨ field.kind = completeServices then
    Bytes.words field.payload
  else if field.kind = serviceData then
    (Bytes.words field.payload).take 1
  else []

end Field

/-- A payload is a camera's when one of its fields announces the camera service. -/
def IsCamera (data : Bytes) : Prop :=
  ∃ field ∈ Field.parse data, Uuid.cameraServiceAlias ∈ field.announced

instance (data : Bytes) : Decidable (IsCamera data) :=
  inferInstanceAs
    (Decidable (∃ field ∈ Field.parse data, Uuid.cameraServiceAlias ∈ field.announced))

/-! ## Local names -/

/-- The largest number of characters of a name. -/
def nameMax : Nat := 32

/-- A byte of a name as a character: printable ASCII stands for itself, and a question mark for
every other byte. -/
def nameChar (b : UInt8) : Char :=
  if 0x20 ≤ b ∧ b ≤ 0x7E then Char.ofNat b.toNat else '?'

/-- The name that the bytes of a name field spell. -/
def spell (payload : Bytes) : String :=
  String.ofList ((payload.take nameMax).map nameChar)

/-- The bytes of the local name: the first name in full if there is one, even behind a shortened
name, and otherwise the first shortened name. -/
def nameBytes? (fields : List Field) : Option Bytes :=
  ((fields.find? fun field => field.kind = Field.completeName) <|>
    (fields.find? fun field => field.kind = Field.shortenedName)).map Field.payload

/-- The local name that a payload gives, or `Unknown`. -/
def deviceName (data : Bytes) : String :=
  match nameBytes? (Field.parse data) with
  | some payload => spell payload
  | none => "Unknown"

/-! ## Reports -/

/-- One advertising report. -/
structure Report where
  /-- The address of the sender. -/
  address : Address
  /-- The strength of the signal, in dBm. -/
  rssi : Int8
  /-- The payload, as far as it is kept. -/
  data : Bytes
  /-- No more is kept than a legacy packet carries. -/
  length_data_le : data.length ≤ Settings.advertDataMax
deriving DecidableEq, Repr

namespace Report

/-- The report of a payload of any length.  What a legacy packet cannot carry is dropped. -/
def receive (address : Address) (rssi : Int8) (data : Bytes) : Report where
  address := address
  rssi := rssi
  data := data.take Settings.advertDataMax
  length_data_le := by simp only [List.length_take]; omega

/-- A report is a camera's when the payload that was kept is. -/
def IsCamera (report : Report) : Prop := Advert.IsCamera report.data

instance (report : Report) : Decidable report.IsCamera :=
  inferInstanceAs (Decidable (Advert.IsCamera report.data))

/-- The name that the payload kept gives. -/
def name (report : Report) : String := Advert.deviceName report.data

end Report

end Advert

end CameraCentral
