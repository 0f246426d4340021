import TouchGestures.Router.Basic

namespace TouchGestures.Router

-- The contacts that a device has down, with the consumers that own them.
def contactsOn (r : Router) (device : DeviceId) : List (ConsumerId × Contact) :=
  r.owners.toList.flatMap fun (consumer, key) =>
    match r.channels[key]? with
    | none => []
    | some channel =>
      (channel.contacts.live.filter fun c => c.device = device).map fun c => (consumer, c)

-- The contact nearest to a point of the root, with its squared distance. Of equally near
-- contacts the first counts.
def nearest? (point : Point) (candidates : List (ConsumerId × Contact)) :
    Option (Scalar × ConsumerId) :=
  candidates.foldl
    (fun best (consumer, contact) =>
      let distance := contact.place.root.distanceSquared point
      match best with
      | none => some (distance, consumer)
      | some (least, _) => if distance < least then some (distance, consumer) else best)
    none

-- The consumer whose contact is nearest to a point of the root, if it is near enough for
-- a new touch there to belong with it.
def consumerNear? (r : Router) (point : Point) (device : DeviceId) : Option ConsumerId :=
  match nearest? point (r.contactsOn device) with
  | none => none
  | some (distance, consumer) =>
    if distance < r.settings.separation * r.settings.separation then some consumer else none

end TouchGestures.Router
