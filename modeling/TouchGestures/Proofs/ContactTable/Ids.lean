import TouchGestures.Proofs.ContactTable.Fits

namespace TouchGestures.ContactTable

variable {t u : ContactTable} {touch : Touch} {id : ContactId}

def ids (t : ContactTable) : List ContactId := t.contacts.map Contact.id

theorem length_ids (t : ContactTable) : t.ids.length = t.count := List.length_map _

@[simp] theorem ids_note (t : ContactTable) (touch : Touch) (action : Action) (index : Nat) :
    (t.note touch action index).ids = t.ids := rfl

theorem ids_eq_nil_iff : t.ids = [] ↔ t.contacts = [] := List.map_eq_nil_iff

theorem index?_eq_none_iff_notMem_ids : t.index? id = none ↔ id ∉ t.ids := by
  simp [index?_eq_none_iff, ids]

theorem mem_ids_of_index? {index : Nat} (h : t.index? id = some index) : id ∈ t.ids := by
  by_contra hmem
  rw [index?_eq_none_iff_notMem_ids.mpr hmem] at h
  cases h

theorem mem_ids_iff_live (h : t.leaving = none) : id ∈ t.ids ↔ ∃ c ∈ t.live, c.id = id := by
  rw [live_of_leaving_eq_none h, ids, List.mem_map]

theorem ids_settle_of_leaving (h : t.leaving = some id) : t.settle.ids = t.ids.erase id := by
  simp only [ids, settle, h, List.erase_eq_eraseP, List.eraseP_map]
  congr 2
  funext c
  simp [eq_comm, Bool.beq_eq_decide_eq]

-- What leaves a table is not in it any more.
theorem index?_settle_of_leaving (h : t.Distinct) (hleaving : t.leaving = some id) :
    t.settle.index? id = none := by
  have hnodup : t.ids.Nodup := h
  rw [index?_eq_none_iff_notMem_ids, ids_settle_of_leaving hleaving]
  exact hnodup.not_mem_erase

def idsAfter (ids : List ContactId) (touch : Touch) : List ContactId :=
  match touch.kind with
  | .pressed => ids ++ [touch.contact.id]
  | .moved => ids
  | .released | .cancelled => ids.erase touch.contact.id

theorem ids_accept? (hleaving : t.leaving = none) (h : t.accept? touch = some u) :
    u.settle.ids = idsAfter t.ids touch := by
  unfold idsAfter
  have hmove : ∀ index, (t.move touch index).ids = t.ids := map_id_move t touch
  obtain ⟨hkind, -, -, rfl⟩ | ⟨index, -, ⟨hkind, rfl⟩ | ⟨action, rfl, hkinds⟩⟩ := accept?_eq_some h
  · rw [settle_of_leaving_eq_none (by exact hleaving), hkind]
    simp [ids, Contact.id_ofPress]
  · rw [settle_of_leaving_eq_none (by exact hleaving), hkind]
    exact hmove index
  · have hids : ({ t.move touch index with leaving := some touch.contact.id }.note touch action
        index).ids = t.ids := hmove index
    rw [ids_settle_of_leaving rfl, hids]
    obtain ⟨hkind, -⟩ | ⟨hkind, -⟩ := hkinds <;> rw [hkind]

theorem limit_settle (t : ContactTable) : t.settle.limit = t.limit := by
  unfold settle
  split <;> rfl

theorem limit_accept? (h : t.accept? touch = some u) : u.limit = t.limit := by
  obtain ⟨-, -, -, rfl⟩ | ⟨index, -, ⟨-, rfl⟩ | ⟨action, rfl, -⟩⟩ := accept?_eq_some h <;> rfl

-- A press needs a number that is not in use, and any other touch one that is.
theorem mem_ids_of_accept? (h : t.accept? touch = some u) :
    touch.contact.id ∈ t.ids ↔ touch.kind ≠ .pressed := by
  obtain ⟨hkind, hindex, -⟩ | ⟨index, hindex, ⟨hkind, -⟩ | ⟨_, -, ⟨hkind, -⟩ | ⟨hkind, -⟩⟩⟩ :=
    accept?_eq_some h
  · simp [hkind, index?_eq_none_iff_notMem_ids.mp hindex]
  all_goals simp [hkind, mem_ids_of_index? hindex]

-- A stream does not end by a touch while another contact is down.
theorem action_ne_ended_of_mem (hdown : id ∈ t.ids) (h : t.accept? touch = some u)
    (hmoves : touch.contact.id = id → touch.kind = .moved) : u.action ≠ .ended := by
  obtain ⟨-, -, -, rfl⟩ | ⟨index, hindex, ⟨-, rfl⟩ | ⟨action, rfl, ⟨hkind, rfl⟩ | ⟨-, rfl⟩⟩⟩ :=
    accept?_eq_some h
  · rw [action_note]
    split <;> simp
  · simp
  · rw [action_note]
    split
    · next hcount =>
      rw [← length_ids, List.length_eq_one_iff] at hcount
      obtain ⟨only, honly⟩ := hcount
      have htouched := mem_ids_of_index? hindex
      rw [honly, List.mem_singleton] at hdown htouched
      rw [hmoves (htouched.trans hdown.symm)] at hkind
      cases hkind
    · simp
  · simp

-- No table takes in more contacts than there is room for.
theorem count_settle_le (hroom : t.count ≤ t.limit.toNat) (h : t.accept? touch = some u) :
    u.settle.count ≤ t.limit.toNat := by
  refine Nat.le_trans (sublist_settle u).length_le ?_
  obtain ⟨-, -, hcount, rfl⟩ | ⟨index, -, ⟨-, rfl⟩ | ⟨action, rfl, -⟩⟩ := accept?_eq_some h
  · simpa [count] using Nat.succ_le_of_lt hcount
  all_goals
    have hlength := length_contacts_move t touch index
    exact hlength.symm ▸ hroom

end TouchGestures.ContactTable
