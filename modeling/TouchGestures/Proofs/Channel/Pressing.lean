import TouchGestures.Proofs.Channel.Standing

namespace TouchGestures

variable {time : Time} {t : Touch}

def Contact.pressedAt (c : Contact) (time : Time) : Contact := { c with downTime := time }

@[simp] theorem Contact.id_pressedAt (c : Contact) : (c.pressedAt time).id = c.id := rfl

-- Some contacts as if they had come down one after the other.
def pressedBy (clock : Clock) (contacts : List Contact) : List Contact :=
  (clock.stamp contacts).map fun (time, c) => c.pressedAt time

theorem pressedBy_nil (clock : Clock) : pressedBy clock [] = [] := rfl

theorem map_id_pressedBy (clock : Clock) (contacts : List Contact) :
    (pressedBy clock contacts).map Contact.id = contacts.map Contact.id := by
  induction contacts generalizing clock with
  | nil => rfl
  | cons c rest ih => exact congrArg (c.id :: ·) (ih clock.rest)

-- The last of so many readings, or what was before if there was none.
def Clock.lastOf (clock : Clock) (before : Time) : Nat → Time
  | 0 => before
  | count + 1 => clock.read count

theorem Clock.lastOf_rest (clock : Clock) (before : Time) (count : Nat) :
    clock.rest.lastOf clock.now count = clock.lastOf before (count + 1) := by
  cases count <;> rfl

namespace Channel.Chronicle

variable {k : Chronicle} {clock : Clock}

-- If anything is down, a stream is under way whose last touch came at this time.
def Current (k : Chronicle) (time : Time) : Prop :=
  k.channel.contacts.ids ≠ [] →
    k.channel.detector.stream.isSome = true ∧ k.channel.detector.lastTime = some time

-- A press that is answered comes to what the press does.
theorem rests_answer (k : Chronicle) (t : Touch) (consumed : Bool) :
    Rests (k.next (.touch t)).channel (k.answer t consumed).channel := by
  unfold answer
  split
  · exact rests_next rfl
  · exact rests_refl _

theorem Rests.current {c d : Chronicle} (h : Rests c.channel d.channel) (hc : c.Current time) :
    d.Current time := by
  unfold Current at hc ⊢
  rwa [h.contacts, h.stream, h.lastTime]

-- Detection accepts the press of a contact if nothing is down or it is not too old.
theorem exists_detected_press {contacts : ContactTable} (hcurrent : k.Current time)
    (haccept : k.channel.contacts.accept? t = some contacts) (htime : time ≤ t.time) :
    ∃ result, k.channel.detector.touch contacts = some result := by
  obtain ⟨change, hlatest, haction, htouched⟩ := ContactTable.latest_of_accept? haccept
  by_cases hnil : k.channel.contacts.ids = []
  · have hbegan : change.action = .began := by
      rw [haction, ContactTable.action_eq_began_iff haccept, ← ContactTable.ids_eq_nil_iff, hnil]
    simp [Detector.touch, hlatest, Detector.refuses, hbegan]
  · obtain ⟨hstream, hlast⟩ := hcurrent hnil
    refine (Detector.exists_touch_iff hlatest fun before hlast' => ?_).mpr (.inr (.inr hstream))
    rw [hlast, Option.mem_some_iff] at hlast'
    exact hlast' ▸ htouched ▸ htime

-- While there is room, the press of a new contact is accepted, and later none is.
theorem contacts_answer_press (h : Lived (fun _ => True) k) (hcurrent : k.Current time)
    (hkind : t.kind = .pressed) (htime : time ≤ t.time)
    (hfresh : t.contact.id ∉ k.channel.contacts.ids) (consumed : Bool) :
    (k.answer t consumed).Current
        (if k.channel.contacts.count < k.channel.contacts.limit.toNat then t.time else time) ∧
      (k.answer t consumed).channel.contacts.limit = k.channel.contacts.limit ∧
      (k.answer t consumed).channel.contacts.contacts = k.channel.contacts.contacts ++
        [Contact.ofPress t].take (k.channel.contacts.limit.toNat - k.channel.contacts.count) := by
  have hanswer := rests_answer k t consumed
  rw [hanswer.contacts, (fixed_next_touch h.sound t).2]
  by_cases hroom : k.channel.contacts.count < k.channel.contacts.limit.toNat
  · have hfits : k.channel.contacts.Fits t := by
      rw [ContactTable.Fits, if_pos hkind]
      exact ⟨ContactTable.index?_eq_none_iff_notMem_ids.mpr hfresh, hroom⟩
    obtain ⟨contacts, haccept⟩ := ContactTable.exists_accept?_iff.mpr hfits
    obtain ⟨result, hdetect⟩ := exists_detected_press hcurrent haccept htime
    obtain ⟨contacts', htakes⟩ :=
      exists_takes h.sound ((accepts_iff h.sound).mpr ⟨contacts, result, haccept, hdetect⟩)
    obtain rfl : contacts' = contacts := Option.some.inj (htakes.accept.symm.trans haccept)
    obtain ⟨gestures, hdetected⟩ := htakes.detect
    obtain ⟨haction, hpressed⟩ := ContactTable.press_eq_some haccept hkind h.sound.settled
    rw [if_pos hroom]
    refine ⟨Rests.current hanswer fun _ => ⟨?_, ?_⟩, rfl, ?_⟩
    · rw [Detector.isSome_stream_touch (ContactTable.accepted_note haccept).1 hdetected, haction]
      split <;> simp
    · obtain ⟨change, hlatest, -, htouched⟩ := ContactTable.latest_of_accept? haccept
      rw [Detector.lastTime_touch hlatest hdetected, htouched]
    · rw [htakes.contacts, hpressed, List.take_of_length_le (by simp; omega)]
  · have hrejected : k.accepts t = false := by
      rw [Bool.eq_false_iff]
      intro haccepts
      obtain ⟨contacts, result, haccept, -⟩ := (accepts_iff h.sound).mp haccepts
      have hfits := ContactTable.exists_accept?_iff.mp ⟨contacts, haccept⟩
      rw [ContactTable.Fits, if_pos hkind] at hfits
      exact hroom hfits.2
    have hsame := channel_of_not_accepts h.sound hrejected
    rw [if_neg hroom]
    refine ⟨Rests.current hanswer ?_, rfl, ?_⟩
    · unfold Current
      rwa [hsame]
    · rw [hsame, Nat.sub_eq_zero_of_le (Nat.le_of_not_lt hroom), List.take_zero, List.append_nil]

-- Of some contacts that are pressed one after the other, those are down afterwards for which
-- there is room, oldest first, and the stream is as recent as the last of these.
theorem contacts_presses {contacts : List Contact} {room : Nat} (ids : EventIds)
    (h : Lived (fun _ => True) k) (hcurrent : k.Current time) (htime : time ≤ clock.now)
    (hdistinct : (k.channel.contacts.ids ++ contacts.map Contact.id).Nodup)
    (hroom : k.channel.contacts.limit.toNat - k.channel.contacts.count = room) (consumed : Bool) :
    let pressed := (synthesizeAll .pressed clock contacts ids).1.foldl
      (fun k t => k.answer t consumed) k
    pressed.Current (clock.lastOf time (min contacts.length room)) ∧
      pressed.channel.contacts.contacts =
        k.channel.contacts.contacts ++ (pressedBy clock contacts).take room := by
  induction contacts generalizing k time clock ids room with
  | nil =>
    rw [List.length_nil, Nat.zero_min, pressedBy_nil, List.take_nil, List.append_nil]
    exact ⟨hcurrent, rfl⟩
  | cons c rest ih =>
    let t := c.synthesize .pressed clock.now ids.fresh.1
    obtain ⟨-, -, hdisjoint⟩ := List.nodup_append.mp hdistinct
    have hfresh : t.contact.id ∉ k.channel.contacts.ids :=
      fun hmem => hdisjoint _ hmem _ List.mem_cons_self rfl
    obtain ⟨hcurrent', hlimit, hcontacts⟩ :=
      contacts_answer_press h hcurrent (t := t) rfl htime hfresh consumed
    have hsublist : (k.answer t consumed).channel.contacts.ids.Sublist
        (k.channel.contacts.ids ++ [c.id]) := by
      rw [ContactTable.ids, hcontacts, List.map_append]
      exact (List.Sublist.refl _).append ((List.take_sublist _ _).map Contact.id)
    have hdistinct' : ((k.answer t consumed).channel.contacts.ids ++
        rest.map Contact.id).Nodup := by
      refine (hsublist.append (List.Sublist.refl _)).nodup ?_
      simpa using hdistinct
    have hforward : clock.now ≤ clock.rest.now := clock.forward 0
    have hcount : (k.answer t consumed).channel.contacts.count =
        k.channel.contacts.count + min 1 room := by
      rw [ContactTable.count, hcontacts, hroom, List.length_append, List.length_take, Nat.min_comm]
      rfl
    have hroom' : (k.answer t consumed).channel.contacts.limit.toNat -
        (k.answer t consumed).channel.contacts.count = room - 1 := by
      rw [hlimit, hcount]
      omega
    rw [hroom] at hcontacts
    cases room with
    | zero =>
      rw [if_neg (by omega)] at hcurrent'
      obtain ⟨hlast, hdown⟩ :=
        ih ids.fresh.2 (h.answer t consumed) hcurrent' (Int.le_trans htime hforward)
          hdistinct' hroom'
      rw [Nat.min_zero] at hlast ⊢
      exact ⟨hlast, hdown.trans (by simp [hcontacts])⟩
    | succ room =>
      rw [if_pos (by omega)] at hcurrent'
      obtain ⟨hlast, hdown⟩ :=
        ih ids.fresh.2 (h.answer t consumed) hcurrent' hforward hdistinct' hroom'
      refine ⟨?_, ?_⟩
      · rw [List.length_cons, Nat.add_min_add_right, ← clock.lastOf_rest]
        exact hlast
      · refine hdown.trans ?_
        rw [hcontacts, List.append_assoc, List.take_succ_cons, List.take_nil]
        rfl

-- So it is when a channel on which nothing is down starts over.
theorem contacts_reenter {contacts : List Contact} (h : Lived (fun _ => True) k)
    (hnil : k.channel.contacts.contacts = []) (hdistinct : (contacts.map Contact.id).Nodup)
    (clock : Clock) (ids : EventIds) :
    let reentered := k.reenter (synthesizeAll .pressed clock contacts ids).1
    reentered.Current
        (clock.read ((contacts.take k.channel.contacts.limit.toNat).length - 1)) ∧
      reentered.channel.contacts.contacts =
        (pressedBy clock contacts).take k.channel.contacts.limit.toNat := by
  have hforgotten : Rests k.channel (k.next .forgetHistory).channel := rests_next rfl
  have hids : (k.next .forgetHistory).channel.contacts.ids = [] := by
    rw [hforgotten.contacts, ContactTable.ids_eq_nil_iff, hnil]
  have hroom : (k.next .forgetHistory).channel.contacts.limit.toNat -
      (k.next .forgetHistory).channel.contacts.count = k.channel.contacts.limit.toNat := by
    rw [ContactTable.count, hforgotten.contacts, hnil, List.length_nil, Nat.sub_zero]
  -- Nothing is down yet, so the stream is as recent as one likes.
  have hnone : (k.next .forgetHistory).Current clock.now := fun hne => absurd hids hne
  obtain ⟨hcurrent, hpressed⟩ := contacts_presses ids (h.next .forgetHistory) hnone
    (Int.le_refl _) (by rwa [hids, List.nil_append]) hroom true
  have hdrained : Rests _ (k.reenter (synthesizeAll .pressed clock contacts ids).1).channel :=
    rests_next rfl
  refine ⟨Rests.current hdrained ?_, ?_⟩
  · rw [List.length_take, Nat.min_comm]
    generalize min contacts.length k.channel.contacts.limit.toNat = count at hcurrent ⊢
    cases count <;> exact hcurrent
  · rw [hdrained.contacts, hpressed, hforgotten.contacts, hnil, List.nil_append]

end Channel.Chronicle

end TouchGestures
