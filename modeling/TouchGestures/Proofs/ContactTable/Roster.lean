import TouchGestures.Proofs.ContactTable.Ids

namespace TouchGestures.ContactTable

inductive Call
  | touch (touch : Touch)
  | setLimit (limit : UInt64)
  | settle
  deriving DecidableEq

-- What a touch comes to: nothing if it is turned down, and otherwise the action and the
-- contact that changed, as it is right after.
abbrev Reply := Option (Action × Option Contact)

-- The contacts that are down, oldest first, and how many may be.
structure Roster where
  limit : UInt64
  down : List Contact := []
  deriving DecidableEq

namespace Roster

-- A press needs a contact that is not down and room for it, and any other touch one that
-- is down.
def Admits (r : Roster) (touch : Touch) : Prop :=
  if touch.kind = .pressed then
    (∀ c ∈ r.down, c.id ≠ touch.contact.id) ∧ r.down.length < r.limit.toNat
  else ∃ c ∈ r.down, c.id = touch.contact.id

instance (r : Roster) (touch : Touch) : Decidable (r.Admits touch) :=
  inferInstanceAs (Decidable (if touch.kind = .pressed then
    (∀ c ∈ r.down, c.id ≠ touch.contact.id) ∧ r.down.length < r.limit.toNat
    else ∃ c ∈ r.down, c.id = touch.contact.id))

-- The action that a touch amounts to. Only the first press begins a stream, and only the
-- release of the last contact ends it.
def action (r : Roster) (touch : Touch) : Action :=
  match touch.kind with
  | .pressed => if r.down = [] then .began else .joined
  | .moved => .moved
  | .released => if r.down.length = 1 then .ended else .left
  | .cancelled => .cancelled

-- The contact that a touch changes, as the touch leaves it.
def acting? (r : Roster) (touch : Touch) : Option Contact :=
  match touch.kind with
  | .pressed => some (Contact.ofPress touch)
  | .moved | .released | .cancelled =>
    (r.down.find? fun c => c.id = touch.contact.id).map (·.update touch)

def reply (r : Roster) (touch : Touch) : Reply :=
  if r.Admits touch then some (r.action touch, r.acting? touch) else none

-- A press appends, a move updates in place, and a release or cancel deletes.
def carry (down : List Contact) (touch : Touch) : List Contact :=
  match touch.kind with
  | .pressed => down ++ [Contact.ofPress touch]
  | .moved => down.map fun c => if c.id = touch.contact.id then c.update touch else c
  | .released | .cancelled => down.filter fun c => c.id ≠ touch.contact.id

-- A roster has nothing to settle.
def call (r : Roster) : Call → Roster
  | .touch touch => if r.Admits touch then { r with down := carry r.down touch } else r
  | .setLimit limit => { r with limit }
  | .settle => r

def after (r : Roster) (calls : List Call) : Roster := calls.foldl call r

-- The replies to the touches among some calls, each with the contacts that are down then.
def shown (r : Roster) : List Call → List (Reply × List Contact)
  | [] => []
  | c :: rest =>
    let later := (r.call c).shown rest
    match c with
    | .touch touch => (r.reply touch, (r.call c).down) :: later
    | .setLimit _ | .settle => later

end Roster

variable {t u : ContactTable} {touch : Touch} {index : Nat}

-- Does what it is asked to.
def call (t : ContactTable) : Call → ContactTable
  | .touch touch => (t.touch touch).2
  | .setLimit limit => t.setLimit limit
  | .settle => t.settle

def reply (t : ContactTable) (touch : Touch) : Reply :=
  match t.touch touch with
  | (true, touched) => some (touched.action, touched.acting?)
  | (false, _) => none

def after (t : ContactTable) (calls : List Call) : ContactTable := calls.foldl call t

-- The replies to the touches among some calls, each with the contacts that are down then.
def shown (t : ContactTable) : List Call → List (Reply × List Contact)
  | [] => []
  | c :: rest =>
    let later := (t.call c).shown rest
    match c with
    | .touch touch => (t.reply touch, (t.call c).live) :: later
    | .setLimit _ | .settle => later

def accepted (t : ContactTable) : List Call → List Touch
  | [] => []
  | c :: rest =>
    let later := (t.call c).accepted rest
    match c with
    | .touch touch => if (t.touch touch).1 then touch :: later else later
    | .setLimit _ | .settle => later

-- What a table is about: which contacts are still down does not depend on whether one
-- that is leaving has been dropped.
def roster (t : ContactTable) : Roster := ⟨t.limit, t.live⟩

theorem find?_of_index? {id : ContactId} (h : t.index? id = some index) :
    t.contacts.find? (fun c => c.id = id) = t.contacts[index]? := by
  obtain ⟨hlt, hid, hbefore⟩ := List.findIdx?_eq_some_iff_getElem.mp h
  rw [List.getElem?_eq_getElem hlt, List.find?_eq_some_iff_getElem]
  exact ⟨hid, index, hlt, rfl, fun j hj => by simpa using hbefore j hj⟩

-- No contact but the one at its position goes by its number.
theorem Distinct.id_eq_iff {id : ContactId} (h : t.Distinct) (hindex : t.index? id = some index)
    {i : Nat} (hi : i < t.contacts.length) : t.contacts[i].id = id ↔ index = i := by
  obtain ⟨hlt, hid, -⟩ := List.findIdx?_eq_some_iff_getElem.mp hindex
  have hid : t.contacts[index].id = id := by simpa using hid
  constructor
  · intro hsame
    have hnodup : (t.contacts.map Contact.id).Nodup := h
    have hlt' : index < (t.contacts.map Contact.id).length := by simpa using hlt
    have hi' : i < (t.contacts.map Contact.id).length := by simpa using hi
    have hget : (t.contacts.map Contact.id)[index] = (t.contacts.map Contact.id)[i] := by
      rw [List.getElem_map, List.getElem_map, hid, hsame]
    exact hnodup.getElem_inj_iff.mp hget
  · rintro rfl
    exact hid

theorem Distinct.contacts_move (h : t.Distinct)
    (hindex : t.index? touch.contact.id = some index) :
    (t.move touch index).contacts =
      t.contacts.map fun c => if c.id = touch.contact.id then c.update touch else c := by
  refine List.ext_getElem (by simp [move]) fun i hi hi' => ?_
  have hlt : i < t.contacts.length := by simpa [move] using hi
  simp only [move, List.getElem_modify, List.getElem_map]
  by_cases hsame : index = i
  · rw [if_pos hsame, if_pos ((h.id_eq_iff hindex hlt).mpr hsame)]
  · rw [if_neg hsame, if_neg fun hid => hsame ((h.id_eq_iff hindex hlt).mp hid)]

-- Of distinct contacts no more than one goes by a number.
theorem eraseP_eq_filter {contacts : List Contact} (h : (contacts.map Contact.id).Nodup)
    (id : ContactId) :
    (contacts.eraseP fun c => c.id = id) = contacts.filter fun c => c.id ≠ id := by
  induction contacts with
  | nil => rfl
  | cons c rest ih =>
    obtain ⟨hnew, hrest⟩ := List.nodup_cons.mp h
    by_cases hid : c.id = id
    · subst hid
      have hothers : ∀ other ∈ rest, other.id ≠ c.id := fun other hother heq =>
        hnew (heq ▸ List.mem_map_of_mem hother)
      rw [List.eraseP_cons_of_pos (by simp), List.filter_cons_of_neg (by simp),
        List.filter_eq_self.mpr (by simpa using hothers)]
    · rw [List.eraseP_cons_of_neg (by simpa using hid), List.filter_cons_of_pos (by simpa using hid),
        ih hrest]

-- Dropping the contact that is leaving does not change who is down.
theorem Distinct.live_settle (h : t.Distinct) : t.settle.live = t.live := by
  rw [live_of_leaving_eq_none t.leaving_settle]
  unfold ContactTable.settle live
  cases hleaving : t.leaving with
  | none => simp
  | some id => simpa using eraseP_eq_filter h id

theorem Distinct.roster_settle (h : t.Distinct) : t.settle.roster = t.roster := by
  rw [roster, roster, limit_settle, h.live_settle]

-- Without the contact that it updates, an update is not seen.
theorem filter_update (contacts : List Contact) (touch : Touch) :
    ((contacts.map fun c => if c.id = touch.contact.id then c.update touch else c).filter
      fun c => c.id ≠ touch.contact.id) = contacts.filter fun c => c.id ≠ touch.contact.id := by
  induction contacts with
  | nil => rfl
  | cons c rest ih =>
    rw [List.map_cons]
    by_cases hid : c.id = touch.contact.id
    · rw [if_pos hid, List.filter_cons_of_neg (by simp [Contact.id_update, hid]),
        List.filter_cons_of_neg (by simp [hid]), ih]
    · rw [if_neg hid, List.filter_cons_of_pos (by simpa using hid),
        List.filter_cons_of_pos (by simpa using hid), ih]

section Settled

variable (hsettled : t.leaving = none)

include hsettled

theorem down_roster : t.roster.down = t.contacts := live_of_leaving_eq_none hsettled

theorem admits_iff_fits : t.roster.Admits touch ↔ t.Fits touch := by
  unfold Roster.Admits Fits
  rw [index?_eq_none_iff, down_roster hsettled]
  split
  · rfl
  · simp [index?]

theorem action_of_accept? (haccept : t.accept? touch = some u) :
    u.action = t.roster.action touch := by
  unfold Roster.action
  rw [down_roster hsettled]
  obtain ⟨hkind, -, -, rfl⟩ | ⟨index, -, ⟨hkind, rfl⟩ |
    ⟨action, rfl, ⟨hkind, rfl⟩ | ⟨hkind, rfl⟩⟩⟩ := accept?_eq_some haccept <;> rw [hkind, action_note]
  · simp
  · rfl

theorem acting?_of_accept? (haccept : t.accept? touch = some u) :
    u.acting? = t.roster.acting? touch := by
  unfold Roster.acting?
  rw [down_roster hsettled]
  -- Whatever else happens to a contact that is down, it is updated.
  have hupdated : ∀ {index}, t.index? touch.contact.id = some index →
      (t.move touch index).contacts[index]? =
        (t.contacts.find? fun c => c.id = touch.contact.id).map (·.update touch) := by
    intro index hindex
    rw [find?_of_index? hindex, move, List.getElem?_modify_eq, Option.map_eq_map]
  obtain ⟨hkind, -, -, rfl⟩ | ⟨index, hindex, ⟨hkind, rfl⟩ |
    ⟨action, rfl, ⟨hkind, rfl⟩ | ⟨hkind, rfl⟩⟩⟩ := accept?_eq_some haccept <;> rw [hkind]
  · simp [ContactTable.acting?, actingIndex, note, count]
  all_goals exact hupdated hindex

theorem Distinct.live_of_accept? (h : t.Distinct) (haccept : t.accept? touch = some u) :
    u.live = Roster.carry t.live touch := by
  unfold Roster.carry
  rw [live_of_leaving_eq_none hsettled]
  have hdropped : ∀ {index}, t.index? touch.contact.id = some index →
      ((t.move touch index).contacts.filter fun c => some c.id ≠ some touch.contact.id) =
        t.contacts.filter fun c => c.id ≠ touch.contact.id := by
    intro index hindex
    rw [h.contacts_move hindex, ← filter_update]
    simp
  obtain ⟨hkind, -, -, rfl⟩ | ⟨index, hindex, ⟨hkind, rfl⟩ |
    ⟨action, rfl, ⟨hkind, rfl⟩ | ⟨hkind, rfl⟩⟩⟩ := accept?_eq_some haccept <;> rw [hkind]
  · exact live_of_leaving_eq_none hsettled
  · rw [← h.contacts_move hindex]
    exact live_of_leaving_eq_none hsettled
  all_goals exact hdropped hindex

end Settled

-- Whether a touch is accepted is for the roster to tell.
theorem Distinct.touch_cases (h : t.Distinct) (touch : Touch) :
    (¬ t.roster.Admits touch ∧ t.touch touch = (false, t.settle)) ∨
      (t.roster.Admits touch ∧
        ∃ u, t.settle.accept? touch = some u ∧ t.touch touch = (true, u)) := by
  rw [← h.roster_settle, admits_iff_fits t.leaving_settle, ← exists_accept?_iff]
  cases haccept : t.settle.accept? touch with
  | none => exact .inl ⟨by simp, touch_of_accept?_eq_none haccept⟩
  | some u => exact .inr ⟨⟨u, rfl⟩, u, rfl, by simp [ContactTable.touch, haccept]⟩

theorem Distinct.accepts_iff (h : t.Distinct) (touch : Touch) :
    (t.touch touch).1 = true ↔ t.roster.Admits touch := by
  obtain ⟨hnot, htouch⟩ | ⟨hadmits, u, -, htouch⟩ := h.touch_cases touch
  · simp [hnot, htouch]
  · simp [hadmits, htouch]

theorem Distinct.reply_eq (h : t.Distinct) (touch : Touch) :
    t.reply touch = t.roster.reply touch := by
  obtain ⟨hnot, htouch⟩ | ⟨hadmits, u, haccept, htouch⟩ := h.touch_cases touch
  · rw [Roster.reply, if_neg hnot, ContactTable.reply, htouch]
  · rw [Roster.reply, if_pos hadmits, ContactTable.reply, htouch, ← h.roster_settle,
      ← action_of_accept? t.leaving_settle haccept, ← acting?_of_accept? t.leaving_settle haccept]

theorem Distinct.call (h : t.Distinct) (c : Call) : (t.call c).Distinct := by
  cases c with
  | touch touch =>
    rw [ContactTable.call, ContactTable.touch]
    split
    · next u haccept => exact h.settle.accept? haccept
    · exact h.settle
  | setLimit limit => exact h
  | settle => exact h.settle

-- Each call does to the roster what it is there for.
theorem Distinct.roster_call (h : t.Distinct) (c : Call) :
    (t.call c).roster = t.roster.call c := by
  cases c with
  | touch touch =>
    obtain ⟨hnot, htouch⟩ | ⟨hadmits, u, haccept, htouch⟩ := h.touch_cases touch
    · rw [Roster.call, if_neg hnot, ContactTable.call, htouch, h.roster_settle]
    · have hlive := h.settle.live_of_accept? t.leaving_settle haccept
      rw [h.live_settle] at hlive
      rw [Roster.call, if_pos hadmits, ContactTable.call, htouch, roster, hlive,
        limit_accept? haccept, limit_settle]
      rfl
  | setLimit limit => rfl
  | settle => exact h.roster_settle

theorem Distinct.after (h : t.Distinct) (calls : List Call) : (t.after calls).Distinct := by
  induction calls generalizing t with
  | nil => exact h
  | cons c rest ih => exact ih (h.call c)

theorem Distinct.roster_after (h : t.Distinct) (calls : List Call) :
    (t.after calls).roster = t.roster.after calls := by
  induction calls generalizing t with
  | nil => rfl
  | cons c rest ih =>
    have hrest : (t.after (c :: rest)).roster = ((t.call c).roster).after rest := ih (h.call c)
    rw [hrest, h.roster_call c]
    rfl

-- Nor does anything show of a table but what shows of its roster.
theorem Distinct.shown_eq (h : t.Distinct) (calls : List Call) :
    t.shown calls = t.roster.shown calls := by
  induction calls generalizing t with
  | nil => rfl
  | cons c rest ih =>
    have hrest : (t.call c).shown rest = (t.roster.call c).shown rest := by
      rw [ih (h.call c), h.roster_call c]
    cases c with
    | touch touch =>
      have hlive : (t.call (.touch touch)).live = (t.roster.call (.touch touch)).down :=
        congrArg Roster.down (h.roster_call (.touch touch))
      simp only [ContactTable.shown, Roster.shown, hrest, hlive, h.reply_eq touch]
    | setLimit limit => exact hrest
    | settle => exact hrest

-- The contacts that are down are what the accepted touches make of them.
theorem Distinct.live_after (h : t.Distinct) (calls : List Call) :
    (t.after calls).live = (t.accepted calls).foldl Roster.carry t.live := by
  induction calls generalizing t with
  | nil => rfl
  | cons c rest ih =>
    have hrest : (t.after (c :: rest)).live =
        ((t.call c).accepted rest).foldl Roster.carry (t.call c).live := ih (h.call c)
    have hlive : (t.call c).live = (t.roster.call c).down :=
      congrArg Roster.down (h.roster_call c)
    rw [hrest, hlive]
    cases c with
    | touch touch =>
      simp only [accepted, h.accepts_iff, Roster.call]
      split <;> rfl
    | setLimit limit => rfl
    | settle => rfl

namespace Roster

-- The calls without those that only settle a table.
def unsettled (calls : List Call) : List Call := calls.filter (· ≠ .settle)

theorem after_unsettled (r : Roster) (calls : List Call) :
    r.after (unsettled calls) = r.after calls := by
  induction calls generalizing r with
  | nil => rfl
  | cons c rest ih =>
    cases c with
    | touch touch => exact ih (r.call (.touch touch))
    | setLimit limit => exact ih (r.call (.setLimit limit))
    | settle => exact ih r

theorem shown_unsettled (r : Roster) (calls : List Call) :
    r.shown (unsettled calls) = r.shown calls := by
  induction calls generalizing r with
  | nil => rfl
  | cons c rest ih =>
    cases c with
    | touch touch => exact congrArg (List.cons _) (ih (r.call (.touch touch)))
    | setLimit limit => exact ih (r.call (.setLimit limit))
    | settle => exact ih r

end Roster

-- A table is an ordered list of the contacts that are down, as the touches it accepts make
-- it, and no two of them go by the same number. Nothing but this list and the limit decides
-- on what becomes of a touch, so it does not show when the table is settled.
theorem refines_roster (limit : UInt64) (calls others : List Call)
    (hsame : Roster.unsettled others = Roster.unsettled calls) :
    let start : ContactTable := { limit }
    let t := start.after calls
    t.roster = ({ limit } : Roster).after calls ∧
      t.live = (start.accepted calls).foldl Roster.carry [] ∧
      (t.live.map Contact.id).Nodup ∧
      (∀ touch, ((t.touch touch).1 = true ↔ t.roster.Admits touch) ∧
        t.reply touch = t.roster.reply touch) ∧
      start.shown others = start.shown calls ∧
      (start.after others).roster = t.roster := by
  intro start t
  have hstart : start.Distinct := List.nodup_nil
  have ht : t.Distinct := hstart.after calls
  refine ⟨hstart.roster_after calls, hstart.live_after calls, ?_,
    fun touch => ⟨ht.accepts_iff touch, ht.reply_eq touch⟩, ?_, ?_⟩
  · exact List.Nodup.sublist (List.filter_sublist.map _) ht
  · calc start.shown others
        = start.roster.shown (Roster.unsettled others) := by
          rw [hstart.shown_eq, Roster.shown_unsettled]
      _ = start.shown calls := by rw [hsame, Roster.shown_unsettled, hstart.shown_eq]
  · calc (start.after others).roster
        = start.roster.after (Roster.unsettled others) := by
          rw [hstart.roster_after, Roster.after_unsettled]
      _ = t.roster := by rw [hsame, Roster.after_unsettled, hstart.roster_after]

def thumb : Contact := ⟨⟨1, .finger, 0, 0, 1⟩, ⟨⟨10, 10⟩, ⟨10, 10⟩⟩, 0, 0⟩

-- It comes down again right after it has lifted, where there is room for one contact only.
def repressed : List Call :=
  [.touch (thumb.synthesize .pressed 0 1), .touch (thumb.synthesize .released 0 2),
    .touch (thumb.synthesize .pressed 0 3)]

def repressedLater : List Call :=
  [.touch (thumb.synthesize .pressed 0 1), .settle, .touch (thumb.synthesize .released 0 2),
    .settle, .touch (thumb.synthesize .pressed 0 3)]

theorem refines_roster_of_repressed :
    Roster.unsettled repressedLater = Roster.unsettled repressed ∧
      ({ limit := 1 } : ContactTable).shown repressedLater =
        ({ limit := 1 } : ContactTable).shown repressed ∧
      (({ limit := 1 } : ContactTable).shown repressed).map (fun entry => entry.1.map (·.1)) =
        [some .began, some .ended, some .began] := by
  have hsame : Roster.unsettled repressedLater = Roster.unsettled repressed := by decide +kernel
  obtain ⟨-, -, -, -, hshown, -⟩ := refines_roster 1 repressed repressedLater hsame
  exact ⟨hsame, hshown, by decide +kernel⟩

end TouchGestures.ContactTable
