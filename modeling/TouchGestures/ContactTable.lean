import TouchGestures.Contact

namespace TouchGestures

-- What a touch amounts to, given the other contacts of its consumer. The first press
-- begins a stream of touches, and the last release ends it.
inductive Action
  | began
  | joined
  | moved
  | left
  | ended
  | cancelled
  deriving DecidableEq

-- The last accepted touch, as the table understood it. `index` is the position of the
-- contact that changed.
structure Change where
  action : Action
  index : Nat
  eventId : EventId
  time : Time
  synthesized : Bool
  deriving DecidableEq

-- The contacts of one consumer, oldest first. A contact that lifts or is cancelled
-- stays in the table as `leaving`, so that its last position can still be read, until
-- the next touch or `settle`.
structure ContactTable where
  limit : UInt64
  contacts : List Contact := []
  leaving : Option ContactId := none
  latest : Option Change := none
  deriving DecidableEq

namespace ContactTable

def count (t : ContactTable) : Nat := t.contacts.length

def live (t : ContactTable) : List Contact :=
  t.contacts.filter fun c => some c.id ≠ t.leaving

def find? (t : ContactTable) (id : ContactId) : Option Contact :=
  t.contacts.find? fun c => c.id = id

-- The action of the last accepted touch. An untouched table stands as after a
-- cancelled stream.
def action (t : ContactTable) : Action :=
  match t.latest with
  | some change => change.action
  | none => .cancelled

def actingIndex (t : ContactTable) : Nat :=
  match t.latest with
  | some change => change.index
  | none => 0

-- The contact that changed last. There is none once it has been dropped.
def acting? (t : ContactTable) : Option Contact := t.contacts[t.actingIndex]?

-- The number of the last accepted touch, or zero.
def eventId (t : ContactTable) : EventId :=
  match t.latest with
  | some change => change.eventId
  | none => 0

def time? (t : ContactTable) : Option Time := t.latest.map (·.time)

def synthesized (t : ContactTable) : Bool := t.latest.any (·.synthesized)

-- Changes how many contacts may be down at once. Contacts beyond that are kept.
def setLimit (t : ContactTable) (limit : UInt64) : ContactTable := { t with limit }

-- Drops the contact that is leaving.
def settle (t : ContactTable) : ContactTable :=
  match t.leaving with
  | none => t
  | some id =>
    { t with contacts := t.contacts.eraseP fun c => c.id = id, leaving := none }

def index? (t : ContactTable) (id : ContactId) : Option Nat :=
  t.contacts.findIdx? fun c => c.id = id

def note (t : ContactTable) (touch : Touch) (action : Action) (index : Nat) : ContactTable :=
  { t with latest := some ⟨action, index, touch.id, touch.time, touch.synthesized⟩ }

def press? (t : ContactTable) (touch : Touch) : Option ContactTable :=
  if t.limit.toNat ≤ t.count then none
  else
    let action := if t.contacts.isEmpty then .began else .joined
    some ({ t with contacts := t.contacts ++ [Contact.ofPress touch] }.note touch action t.count)

def move (t : ContactTable) (touch : Touch) (index : Nat) : ContactTable :=
  { t with contacts := t.contacts.modify index (·.update touch) }

-- Applies a touch to a settled table. A press needs an unknown contact and room for
-- it, and any other touch needs a contact that is down.
def accept? (t : ContactTable) (touch : Touch) : Option ContactTable :=
  match touch.kind, t.index? touch.contact.id with
  | .pressed, none => t.press? touch
  | .moved, some index => some ((t.move touch index).note touch .moved index)
  | .released, some index =>
    let action := if t.count = 1 then .ended else .left
    some ({ t.move touch index with leaving := some touch.contact.id }.note touch action index)
  | .cancelled, some index =>
    some ({ t.move touch index with leaving := some touch.contact.id }.note touch .cancelled index)
  | _, _ => none

-- Applies a touch and tells whether it was accepted. The contact that was leaving is
-- dropped in either case.
def touch (t : ContactTable) (touch : Touch) : Bool × ContactTable :=
  let settled := t.settle
  match settled.accept? touch with
  | some touched => (true, touched)
  | none => (false, settled)

def cancels (t : ContactTable) (now : Time) (ids : EventIds) : List Touch × EventIds :=
  go t.live ids
where
  go : List Contact → EventIds → List Touch × EventIds
    | [], ids => ([], ids)
    | c :: rest, ids =>
      let (id, ids) := ids.fresh
      let (touches, ids) := go rest ids
      (c.synthesize .cancelled now id :: touches, ids)

theorem settle_of_leaving_eq_none {t : ContactTable} (h : t.leaving = none) :
    t.settle = t := by
  simp [settle, h]

theorem leaving_settle (t : ContactTable) : t.settle.leaving = none := by
  unfold settle
  split <;> simp_all

theorem settle_settle (t : ContactTable) : t.settle.settle = t.settle :=
  settle_of_leaving_eq_none t.leaving_settle

theorem index?_eq_none_iff {t : ContactTable} {id : ContactId} :
    t.index? id = none ↔ ∀ c ∈ t.contacts, c.id ≠ id := by
  simp [index?]

-- A touch that is turned down leaves the table as settled.
theorem touch_of_accept?_eq_none {t : ContactTable} {touch : Touch}
    (h : t.settle.accept? touch = none) : t.touch touch = (false, t.settle) := by
  simp [ContactTable.touch, h]

theorem live_of_leaving_eq_none {t : ContactTable} (h : t.leaving = none) :
    t.live = t.contacts := by
  simp [live, h]

end ContactTable

end TouchGestures
