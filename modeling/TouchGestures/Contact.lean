import TouchGestures.Rect
import TouchGestures.Touch

namespace TouchGestures

-- A contact that is down, as its touches so far describe it.
structure Contact where
  details : ContactDetails
  place : Place
  device : DeviceId
  downTime : Time
  deriving DecidableEq

namespace Contact

def id (c : Contact) : ContactId := c.details.id

def location (c : Contact) : Point := c.place.location

def ofPress (t : Touch) : Contact := ⟨t.contact, t.place, t.device, t.time⟩

-- Takes over position, radii and force of a later touch. Identity, tool, device and
-- down time are settled by the press.
def update (c : Contact) (t : Touch) : Contact :=
  { c with
    details := { t.contact with id := c.details.id, tool := c.details.tool }
    place := t.place }

def bounds (c : Contact) : Rect :=
  Rect.ofCenter c.location c.details.radiusX c.details.radiusY

-- A touch made up for this contact, where it was last seen.
def synthesize (c : Contact) (kind : Touch.Kind) (time : Time) (id : EventId) : Touch :=
  { kind, contact := c.details, place := c.place, device := c.device, time, id,
    synthesized := true }

theorem id_ofPress (t : Touch) : (ofPress t).id = t.contact.id := rfl

theorem id_update (c : Contact) (t : Touch) : (c.update t).id = c.id := rfl

end Contact

end TouchGestures
