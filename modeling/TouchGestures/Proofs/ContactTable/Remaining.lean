import TouchGestures.ContactTable.Extent
import TouchGestures.Proofs.ContactTable.Fits

namespace TouchGestures.ContactTable

variable {t u : ContactTable} {touch : Touch}

theorem contacts_settle_of_leaving_eq_none (h : u.leaving = none) :
    u.settle.contacts = u.contacts := by
  rw [settle_of_leaving_eq_none h]

-- The contact that is leaving is the one that changed last, so those that stay are those
-- that are found once it has been dropped.
theorem contacts_settle_of_index? {id : ContactId} {index : Nat} {change : Change}
    (hindex : u.index? id = some index) (hleaving : u.leaving = some id)
    (hlatest : u.latest = some change) (hchange : change.index = index) :
    u.settle.contacts = u.staying := by
  have hacting : u.actingIndex = index := by simp [actingIndex, hlatest, hchange]
  have herase : (u.contacts.eraseP fun c => c.id = id) = u.contacts.eraseIdx index := by
    rw [List.eraseP_eq_eraseIdx]
    unfold index? at hindex
    simp [hindex]
  simp [settle, hleaving, herase, staying, hacting]

theorem index?_move (t : ContactTable) (touch : Touch) (index : Nat) (id : ContactId) :
    (t.move touch index).index? id = t.index? id := by
  have hsame (u : ContactTable) : u.index? id = (u.contacts.map Contact.id).findIdx? (· = id) := by
    rw [index?, List.findIdx?_map]
    rfl
  rw [hsame, hsame, map_id_move]

-- What is down after an accepted touch, once what was leaving has been dropped.
inductive Remains (t u : ContactTable) : Prop
  | began (contact : Contact) (haction : u.action = .began) (hacting : u.acting? = some contact)
    (hcontacts : u.settle.contacts = [contact]) (hfirst : t.count = 0)
  | joined (haction : u.action = .joined) (hcontacts : u.settle.contacts = u.contacts)
    (hcount : u.count = t.count + 1) (htwo : 2 ≤ u.count)
  | moved (haction : u.action = .moved) (hcontacts : u.settle.contacts = u.contacts)
    (hids : u.contacts.map Contact.id = t.contacts.map Contact.id) (hcount : 1 ≤ u.count)
  | left (haction : u.action = .left) (hcontacts : u.settle.contacts = u.staying)
    (hcount : u.count = u.staying.length + 1) (hstaying : 1 ≤ u.staying.length)
    (hsame : u.count = t.count)
  | gone (haction : u.action = .ended ∨ u.action = .cancelled)

theorem remains_press (hleaving : t.leaving = none) (touch : Touch) :
    t.Remains ({ t with contacts := t.contacts ++ [Contact.ofPress touch] }.note touch
      (if t.contacts.isEmpty then .began else .joined) t.count) := by
  by_cases hempty : t.contacts = []
  · refine .began (Contact.ofPress touch) (by simp [hempty]) ?_ ?_ (by simp [count, hempty])
    · simp [acting?, actingIndex, note, count]
    · refine (contacts_settle_of_leaving_eq_none (by exact hleaving)).trans ?_
      simp [hempty]
  · have hpos : 0 < t.contacts.length := List.length_pos_iff.mpr hempty
    refine .joined (by simp [hempty]) ?_ ?_ ?_
    · exact contacts_settle_of_leaving_eq_none (by exact hleaving)
    · simp only [count, contacts_note, List.length_append, List.length_singleton]
    · simp only [count, contacts_note, List.length_append, List.length_singleton]
      omega

theorem remains_move (hleaving : t.leaving = none) {index : Nat}
    (hindex : t.index? touch.contact.id = some index) :
    t.Remains ((t.move touch index).note touch .moved index) := by
  have hlt := lt_of_index?_eq_some hindex
  refine .moved rfl ?_ (map_id_move t touch index) ?_
  · exact contacts_settle_of_leaving_eq_none (by exact hleaving)
  · rw [count, contacts_note, length_contacts_move]
    omega

theorem remains_release {index : Nat} (hindex : t.index? touch.contact.id = some index) :
    t.Remains ({ t.move touch index with leaving := some touch.contact.id }.note touch
      (if t.count = 1 then .ended else .left) index) := by
  have hlt := lt_of_index?_eq_some hindex
  by_cases hlast : t.count = 1
  · exact .gone (.inl (by simp [hlast]))
  · have hlength : ((t.move touch index).contacts.eraseIdx index).length + 1 = t.count := by
      rw [List.length_eraseIdx, length_contacts_move, if_pos hlt, count]
      omega
    refine .left (by simp [hlast]) ?_ ?_ ?_ (length_contacts_move t touch index)
    · exact contacts_settle_of_index? (by exact (index?_move t touch index _).trans hindex) rfl
        rfl rfl
    · exact (length_contacts_move t touch index).trans hlength.symm
    · change 1 ≤ ((t.move touch index).contacts.eraseIdx index).length
      omega

theorem remains (hleaving : t.leaving = none) (h : t.accept? touch = some u) : t.Remains u := by
  obtain ⟨-, -, -, rfl⟩ | ⟨index, hindex, ⟨-, rfl⟩ | ⟨action, rfl, ⟨-, rfl⟩ | ⟨-, rfl⟩⟩⟩ :=
    accept?_eq_some h
  · exact remains_press hleaving touch
  · exact remains_move hleaving hindex
  · exact remains_release hindex
  · exact .gone (.inr rfl)

theorem Remains.of_moved (h : t.Remains u) (hmoved : u.action = .moved) :
    u.settle.contacts = u.contacts ∧ 1 ≤ u.count ∧
      u.contacts.map Contact.id = t.contacts.map Contact.id := by
  cases h with
  | moved _ hcontacts hids hcount => exact ⟨hcontacts, hcount, hids⟩
  | began _ haction | joined haction | left haction => cases hmoved.symm.trans haction
  | gone haction => rcases haction with haction | haction <;> cases hmoved.symm.trans haction

theorem Remains.count_of_began (h : t.Remains u) (hbegan : u.action = .began) :
    u.settle.count = 1 := by
  cases h with
  | began _ _ _ hcontacts => rw [count, hcontacts, List.length_singleton]
  | joined haction | moved haction | left haction => cases hbegan.symm.trans haction
  | gone haction => rcases haction with haction | haction <;> cases hbegan.symm.trans haction

theorem Remains.of_left (h : t.Remains u) (hleft : u.action = .left) :
    u.settle.contacts = u.staying ∧ 1 ≤ u.staying.length := by
  cases h with
  | left _ hcontacts _ hstaying => exact ⟨hcontacts, hstaying⟩
  | began _ haction | joined haction | moved haction => cases hleft.symm.trans haction
  | gone haction => rcases haction with haction | haction <;> cases hleft.symm.trans haction

-- Among the touches that go on with a stream, a press adds a contact, a move leaves them as
-- many as they were, and a release takes one away.
theorem Remains.count_iff (h : t.Remains u) (hdown : t.count ≠ 0)
    (hlasts : ¬(u.action = .ended ∨ u.action = .cancelled)) :
    (t.count < u.settle.count ↔ u.action = .joined) ∧
      (u.settle.count = t.count ↔ u.action = .moved) := by
  unfold count at *
  cases h with
  | began _ _ _ _ hfirst => exact absurd hfirst hdown
  | joined haction hcontacts hcount =>
    rw [hcontacts, haction]
    simp [count] at hcount ⊢
    omega
  | moved haction hcontacts hids =>
    have hlength : u.contacts.length = t.contacts.length := by
      simpa using congrArg List.length hids
    rw [hcontacts, haction]
    simp [hlength]
  | left haction hcontacts hcount _ hsame =>
    rw [hcontacts, haction]
    simp [count] at hcount hsame ⊢
    omega
  | gone haction => exact absurd haction hlasts

theorem action_of_moved (h : t.accept? touch = some u) (hkind : touch.kind = .moved) :
    u.action = .moved := by
  obtain ⟨hpressed, -⟩ | ⟨index, -, ⟨-, rfl⟩ | ⟨action, -, ⟨hreleased, -⟩ | ⟨hcancelled, -⟩⟩⟩ :=
    accept?_eq_some h
  · cases hkind.symm.trans hpressed
  · rfl
  · cases hkind.symm.trans hreleased
  · cases hkind.symm.trans hcancelled

theorem action_of_released (h : t.accept? touch = some u) (hkind : touch.kind = .released) :
    u.action = .ended ∨ u.action = .left := by
  obtain ⟨hpressed, -⟩ | ⟨index, -, ⟨hmoved, -⟩ | ⟨action, rfl, ⟨-, rfl⟩ | ⟨hcancelled, -⟩⟩⟩ :=
    accept?_eq_some h
  · cases hkind.symm.trans hpressed
  · cases hkind.symm.trans hmoved
  · rw [action_note]
    split
    · exact .inl rfl
    · exact .inr rfl
  · cases hkind.symm.trans hcancelled

-- Once the only contact is released, none is down.
theorem ended_of_released (hleaving : t.leaving = none)
    (haccept : t.accept? touch = some u) (hkind : touch.kind = .released) (hone : t.count = 1) :
    u.action = .ended := by
  obtain hended | hleft := action_of_released haccept hkind
  · exact hended
  · cases remains hleaving haccept with
    | left _ _ hcount hstaying hsame => omega
    | began _ haction | joined haction | moved haction => cases hleft.symm.trans haction
    | gone haction => rcases haction with haction | haction <;> cases hleft.symm.trans haction

end TouchGestures.ContactTable
