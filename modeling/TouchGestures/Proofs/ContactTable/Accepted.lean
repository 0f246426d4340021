import TouchGestures.ContactTable

namespace TouchGestures.ContactTable

variable {t u : ContactTable} {touch : Touch}

theorem lt_of_index?_eq_some {id : ContactId} {index : Nat} (h : t.index? id = some index) :
    index < t.contacts.length := by
  obtain ⟨hlt, -⟩ := List.findIdx?_eq_some_iff_getElem.mp h
  exact hlt

theorem length_contacts_move (t : ContactTable) (touch : Touch) (index : Nat) :
    (t.move touch index).contacts.length = t.contacts.length := by
  simp [move]

-- The four ways in which a touch is accepted: a press with room for it, a move, a release
-- and a cancel.
theorem accept?_eq_some (h : t.accept? touch = some u) :
    (touch.kind = .pressed ∧ t.index? touch.contact.id = none ∧ t.count < t.limit.toNat ∧
      u = { t with contacts := t.contacts ++ [Contact.ofPress touch] }.note touch
        (if t.contacts.isEmpty then .began else .joined) t.count) ∨
    ∃ index, t.index? touch.contact.id = some index ∧
      ((touch.kind = .moved ∧ u = (t.move touch index).note touch .moved index) ∨
        ∃ action, u = { t.move touch index with leaving := some touch.contact.id }.note touch
            action index ∧
          ((touch.kind = .released ∧ action = if t.count = 1 then .ended else .left) ∨
            (touch.kind = .cancelled ∧ action = .cancelled))) := by
  unfold accept? at h
  split at h
  · next hkind hindex =>
    unfold press? at h
    split at h
    · cases h
    · next hroom => exact .inl ⟨hkind, hindex, by omega, (Option.some.inj h).symm⟩
  · next index hkind hindex =>
    exact .inr ⟨index, hindex, .inl ⟨hkind, (Option.some.inj h).symm⟩⟩
  · next index hkind hindex =>
    exact .inr ⟨index, hindex, .inr ⟨_, (Option.some.inj h).symm, .inl ⟨hkind, rfl⟩⟩⟩
  · next index hkind hindex =>
    exact .inr ⟨index, hindex, .inr ⟨_, (Option.some.inj h).symm, .inr ⟨hkind, rfl⟩⟩⟩
  · cases h

@[simp] theorem action_note (t : ContactTable) (touch : Touch) (action : Action) (index : Nat) :
    (t.note touch action index).action = action := rfl

@[simp] theorem contacts_note (t : ContactTable) (touch : Touch) (action : Action)
    (index : Nat) : (t.note touch action index).contacts = t.contacts := rfl

@[simp] theorem leaving_note (t : ContactTable) (touch : Touch) (action : Action)
    (index : Nat) : (t.note touch action index).leaving = t.leaving := rfl

@[simp] theorem eventId_note (t : ContactTable) (touch : Touch) (action : Action)
    (index : Nat) : (t.note touch action index).eventId = touch.id := rfl

-- A table that has accepted a touch knows the contact that changed, under the number of
-- the touch.
theorem accepted_note (h : t.accept? touch = some u) :
    u.acting?.isSome ∧ u.latest.isSome ∧ u.eventId = touch.id := by
  obtain ⟨-, -, -, rfl⟩ | ⟨index, hindex, ⟨-, rfl⟩ | ⟨action, rfl, -⟩⟩ := accept?_eq_some h
  · exact ⟨by simp [acting?, actingIndex, note, count], rfl, rfl⟩
  · have hlt := lt_of_index?_eq_some hindex
    exact ⟨by simp [acting?, actingIndex, note, length_contacts_move, hlt], rfl, rfl⟩
  · have hlt := lt_of_index?_eq_some hindex
    exact ⟨by simp [acting?, actingIndex, note, length_contacts_move, hlt], rfl, rfl⟩

-- A stream begins when nothing was down.
theorem contacts_eq_nil_of_began (h : t.accept? touch = some u) (hu : u.action = .began) :
    t.contacts = [] := by
  obtain ⟨-, -, -, rfl⟩ | ⟨index, -, ⟨-, rfl⟩ | ⟨action, rfl, hkind⟩⟩ := accept?_eq_some h
  · by_cases hempty : t.contacts.isEmpty = true
    · exact List.isEmpty_iff.mp hempty
    · rw [action_note, if_neg hempty] at hu
      cases hu
  · cases hu
  · rw [action_note] at hu
    obtain ⟨-, rfl⟩ | ⟨-, rfl⟩ := hkind
    · split at hu <;> cases hu
    · cases hu

theorem length_contacts_settle_of_some {id : ContactId} (h : t.leaving = some id) :
    t.contacts.length ≤ t.settle.contacts.length + 1 := by
  unfold settle
  rw [h]
  simp only []
  have hle := List.length_eraseP (p := fun c : Contact => decide (c.id = id)) (l := t.contacts)
  split at hle <;> omega

-- When nothing stays down, the stream has ended or was cancelled.
theorem action_of_settle_contacts_eq_nil (h : t.accept? touch = some u) (hleaving : t.leaving = none)
    (hu : u.settle.contacts = []) : u.action = .ended ∨ u.action = .cancelled := by
  obtain ⟨-, -, -, rfl⟩ | ⟨index, hindex, ⟨-, rfl⟩ | ⟨action, rfl, hkind⟩⟩ := accept?_eq_some h
  · rw [settle_of_leaving_eq_none (by exact hleaving), contacts_note] at hu
    simp at hu
  · have hlt := lt_of_index?_eq_some hindex
    have hlength := length_contacts_move t touch index
    rw [settle_of_leaving_eq_none (by simpa [move] using hleaving), contacts_note] at hu
    rw [hu, List.length_nil] at hlength
    omega
  · have hlt := lt_of_index?_eq_some hindex
    have hlength := length_contacts_move t touch index
    have hle := length_contacts_settle_of_some
      (t := { t.move touch index with leaving := some touch.contact.id }.note touch action index)
      rfl
    rw [hu, contacts_note, List.length_nil] at hle
    change (t.move touch index).contacts.length ≤ 0 + 1 at hle
    simp only [action_note]
    obtain ⟨-, rfl⟩ | ⟨-, rfl⟩ := hkind
    · have hone : t.count = 1 := by
        unfold count
        omega
      exact .inl (if_pos hone)
    · exact .inr rfl

end TouchGestures.ContactTable
