import CameraCentral.Bond.Flash
import CameraCentral.Host.Script
import CameraCentral.Link.Events
import CameraCentral.Panel
import CameraCentral.Proofs.Advert.Truncation
import CameraCentral.Proofs.Bond.Persistence
import CameraCentral.Proofs.Bond.Roster
import CameraCentral.Proofs.Bond.StoredForm
import CameraCentral.Proofs.Gatt.Identifier
import CameraCentral.Proofs.Gatt.Paging
import CameraCentral.Proofs.Link.Addressee
import CameraCentral.Proofs.Link.Bystander
import CameraCentral.Proofs.Link.CommandHandle
import CameraCentral.Proofs.Link.Consistency
import CameraCentral.Proofs.Link.Discovery
import CameraCentral.Proofs.Link.Exclusion
import CameraCentral.Proofs.Link.InFull
import CameraCentral.Proofs.Link.Restart
import CameraCentral.Proofs.Link.Search
import CameraCentral.Proofs.Link.Security
import CameraCentral.Proofs.Link.Stale
import CameraCentral.Proofs.Link.Stopping
import CameraCentral.Proofs.Panel.Recording
import CameraCentral.Proofs.Panel.Shutter
import CameraCentral.Proofs.Peer.Agenda
import CameraCentral.Proofs.Peer.Independence
import CameraCentral.Proofs.Peer.Outcome
import CameraCentral.Proofs.Peer.Placement
import CameraCentral.Proofs.Peer.Record
import CameraCentral.Proofs.Peer.Termination
import CameraCentral.Proofs.Peer.Zones
import CameraCentral.Proofs.Scanner.Devices
