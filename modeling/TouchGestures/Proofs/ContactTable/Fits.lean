import Mathlib.Data.List.Nodup
import TouchGestures.Proofs.ContactTable.Accepted

namespace TouchGestures.ContactTable

variable {t u : ContactTable} {touch : Touch}

-- The touch is consistent with the contacts: it presses one that is not down, while there
-- is room for it, or it is about one that is down.
def Fits (t : ContactTable) (touch : Touch) : Prop :=
  if touch.kind = .pressed then t.index? touch.contact.id = none ∧ t.count < t.limit.toNat
  else (t.index? touch.contact.id).isSome = true

instance (t : ContactTable) (touch : Touch) : Decidable (t.Fits touch) :=
  inferInstanceAs (Decidable (if touch.kind = .pressed then
    t.index? touch.contact.id = none ∧ t.count < t.limit.toNat
    else (t.index? touch.contact.id).isSome = true))

theorem exists_accept?_iff : (∃ u, t.accept? touch = some u) ↔ t.Fits touch := by
  unfold Fits
  constructor
  · rintro ⟨u, h⟩
    obtain ⟨hkind, hindex, hroom, -⟩ | ⟨index, hindex, ⟨hkind, -⟩ |
      ⟨_, -, ⟨hkind, -⟩ | ⟨hkind, -⟩⟩⟩ := accept?_eq_some h
    · rw [if_pos hkind]
      exact ⟨hindex, hroom⟩
    all_goals
      rw [if_neg (by simp [hkind]), hindex]
      rfl
  · intro h
    cases hkind : touch.kind with
    | pressed =>
      rw [if_pos hkind] at h
      simp [accept?, hkind, h.1, press?, h.2]
    | moved | released | cancelled =>
      rw [if_neg (by simp [hkind]), Option.isSome_iff_exists] at h
      obtain ⟨index, hindex⟩ := h
      simp [accept?, hkind, hindex]

theorem action_eq_began_iff (h : t.accept? touch = some u) :
    u.action = .began ↔ t.contacts = [] := by
  refine ⟨contacts_eq_nil_of_began h, fun hnil => ?_⟩
  obtain ⟨-, -, -, rfl⟩ | ⟨index, hindex, -⟩ := accept?_eq_some h
  · simp [hnil]
  · have hlt := lt_of_index?_eq_some hindex
    simp [hnil] at hlt

theorem action_eq_cancelled_iff (h : t.accept? touch = some u) :
    u.action = .cancelled ↔ touch.kind = .cancelled := by
  obtain ⟨hkind, -, -, rfl⟩ | ⟨index, -, ⟨hkind, rfl⟩ |
    ⟨action, rfl, ⟨hkind, rfl⟩ | ⟨hkind, rfl⟩⟩⟩ := accept?_eq_some h <;> rw [action_note, hkind]
  · split <;> simp
  · simp
  · split <;> simp
  · simp

theorem latest_of_accept? (h : t.accept? touch = some u) :
    ∃ change, u.latest = some change ∧ change.action = u.action ∧ change.time = touch.time := by
  obtain ⟨-, -, -, rfl⟩ | ⟨index, -, ⟨-, rfl⟩ | ⟨action, rfl, -⟩⟩ := accept?_eq_some h <;>
    exact ⟨_, rfl, rfl, rfl⟩

def Distinct (t : ContactTable) : Prop := (t.contacts.map Contact.id).Nodup

theorem map_id_move (t : ContactTable) (touch : Touch) (index : Nat) :
    (t.move touch index).contacts.map Contact.id = t.contacts.map Contact.id := by
  refine List.ext_getElem (by simp [move]) fun i hi hi' => ?_
  simp only [move, List.getElem_map, List.getElem_modify]
  split
  · exact Contact.id_update _ _
  · rfl

theorem sublist_settle (t : ContactTable) : t.settle.contacts.Sublist t.contacts := by
  unfold settle
  split
  · exact List.Sublist.refl _
  · exact List.eraseP_sublist

theorem Distinct.settle (h : t.Distinct) : t.settle.Distinct :=
  h.sublist ((sublist_settle t).map _)

theorem Distinct.accept? (h : t.Distinct) (haccept : t.accept? touch = some u) : u.Distinct := by
  unfold Distinct at h ⊢
  obtain ⟨-, hindex, -, rfl⟩ | ⟨index, -, ⟨-, rfl⟩ | ⟨action, rfl, -⟩⟩ := accept?_eq_some haccept
  · rw [index?_eq_none_iff] at hindex
    simp only [contacts_note, List.map_append, List.map_cons, List.map_nil, Contact.id_ofPress]
    refine h.append (List.nodup_singleton _) ?_
    simpa using hindex
  all_goals
    rw [contacts_note, ← map_id_move t touch index] at *
    exact h

theorem leaving_of_accept? (h : t.accept? touch = some u)
    (hkind : touch.kind = .released ∨ touch.kind = .cancelled) :
    u.leaving = some touch.contact.id := by
  obtain ⟨hpressed, -, -, -⟩ | ⟨index, -, ⟨hmoved, -⟩ | ⟨action, rfl, -⟩⟩ := accept?_eq_some h
  · simp [hpressed] at hkind
  · simp [hmoved] at hkind
  · rfl

end TouchGestures.ContactTable
