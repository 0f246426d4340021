import TouchGestures.ContactTable

namespace TouchGestures

-- The centre of some contacts, each counted once. It is not defined for no contacts.
def centroid (contacts : List Contact) : Place :=
  (contacts.foldl (fun sum c => sum + c.place) Place.origin).divide contacts.length.toFloat32

-- The average distance of some contacts from a point, or zero for no contacts.
def spread (contacts : List Contact) (center : Point) : Scalar :=
  if contacts.isEmpty then 0
  else
    contacts.foldl (fun sum c => sum + c.location.distance center) 0
      / contacts.length.toFloat32

namespace ContactTable

-- The centre of the given contacts, and without any the place of the acting one.
def focusOf (t : ContactTable) (contacts : List Contact) : Place :=
  if contacts.isEmpty then (t.acting?.map (·.place)).getD Place.origin
  else centroid contacts

def focus (t : ContactTable) : Place := t.focusOf t.contacts

def staying (t : ContactTable) : List Contact := t.contacts.eraseIdx t.actingIndex

def bounds (t : ContactTable) : Rect :=
  match t.contacts with
  | [] => Rect.zero
  | c :: rest => rest.foldl (fun area other => area.union other.bounds) c.bounds

end ContactTable

end TouchGestures
