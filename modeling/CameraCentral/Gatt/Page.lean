import CameraCentral.Fault

/-!
# Discovery in pages

A peer answers a discovery request with as many entries as fit one packet, and the request is
repeated from behind the last handle that the answer covered.  A peer that repeats itself, or that
answers beyond the range, ends the discovery.
-/

namespace CameraCentral

namespace Page

/-- Where the next page starts after a page that started at `start` and covered the handles up to
`last`: right behind `last`, if that is a handle, lies behind `start`, and does not lie behind the
end of the range. -/
def next? (start last stop : AttHandle) : Option AttHandle :=
  if last < 0xFFFF ∧ start < last + 1 ∧ last + 1 ≤ stop then some (last + 1) else none

end Page

end CameraCentral
