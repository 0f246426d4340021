import TouchGestures.Proofs.Channel.Diary
import TouchGestures.Proofs.Detector.Focus

namespace TouchGestures

namespace Channel

def center (c : Channel) : Point := (centroid c.contacts.live).location

namespace Diary

variable {y : Diary} {t : Touch} {result : TouchResult} {c : Channel}

-- Whatever has been asked of a channel, its scrolls are measured from where its contacts
-- are centred, or from where its only contact is.
theorem Kept.centred (h : Kept y) {s : Detector.Stream} (hs : y.channel.detector.stream = some s) :
    Centred y.channel.contacts.contacts s.focus := by
  refine h.induct (P := fun c _ => ∀ s, c.detector.stream = some s →
    Centred c.contacts.contacts s.focus) ?_ ?_ s hs
  · intro consumer settings s hs
    cases hs
  · intro k d detections added hk houtcome hcentred s hs
    cases houtcome with
    | quiet hquiet =>
      obtain ⟨allowed, hstream⟩ := hquiet.stream
      rw [hstream, Option.map_eq_some_iff] at hs
      obtain ⟨before, hbefore, rfl⟩ := hs
      rw [hquiet.contacts]
      exact hcentred before hbefore
    | alarms now hcontacts hdetector =>
      rw [hdetector] at hs
      cases hbefore : k.channel.detector.stream with
      | none =>
        rw [Detector.stream_tick_eq_none_iff.mpr hbefore] at hs
        cases hs
      | some before =>
        obtain ⟨after, hafter, tap, alarms, rfl⟩ := Detector.focus_tick hbefore now
        obtain rfl := Option.some.inj (hafter.symm.trans hs)
        rw [hcontacts]
        exact hcentred before hbefore
    | touched t contacts gestures haccept hdetect hcontacts =>
      rw [hcontacts]
      exact Detector.centred_touch (ContactTable.remains hk.settled haccept) hdetect hs

-- What an accepted touch leaves in the channel.
theorem Kept.exists_detection (h : Kept y) (htouch : y.channel.touch t = .ok (result, c))
    (haccepted : result.accepted = true) :
    ∃ contacts gestures, y.channel.contacts.accept? t = some contacts ∧
      y.channel.contacts.Remains contacts ∧
      y.channel.detector.touch contacts = some (gestures, c.detector) ∧
      y.channel.detection? t = some ⟨contacts.latest, gestures⟩ ∧
      y.channel.contacts.live = y.channel.contacts.contacts ∧
      c.contacts.live = contacts.settle.contacts := by
  obtain ⟨k, hk, hchannel⟩ := h.lived
  have hhead : y.channel.queue.HeadPending := hchannel ▸ hk.sound.head
  have hsettled : y.channel.contacts.leaving = none := hchannel ▸ hk.sound.settled
  obtain ⟨hrejected, -, -⟩ | ⟨contacts, gestures, -, haccept, hdetect, hdetection, hcontacts⟩ :=
    detection?_cases hhead hsettled htouch
  · cases haccepted.symm.trans hrejected
  · refine ⟨contacts, gestures, haccept, ContactTable.remains hsettled haccept, hdetect,
      hdetection, ContactTable.live_of_leaving_eq_none hsettled, ?_⟩
    rw [hcontacts, ContactTable.live_of_leaving_eq_none contacts.leaving_settle]

-- A scroll that goes on is reported by how far the contacts that are down have moved their
-- centre, whatever was pressed, lifted or turned down before. Once a contact lifts, the
-- centre of those that stay is what the next move is compared with.
theorem Kept.delta_eq (h : Kept y) (htouch : y.channel.touch t = .ok (result, c))
    (haccepted : result.accepted = true) :
    (t.kind = .moved → ∀ x g delta, y.channel.detection? t = some x → g ∈ x.gestures →
      g.payload = .scrollUpdate delta →
        c.contacts.live.map Contact.id = y.channel.contacts.live.map Contact.id ∧
        delta = c.center - y.channel.center ∧
        ∀ contact, y.channel.contacts.live = [contact] → delta = c.center - contact.location) ∧
    (t.kind = .released → ∀ s, c.detector.stream = some s →
      ∃ contacts, y.channel.contacts.accept? t = some contacts ∧
        contacts.staying = c.contacts.live ∧
        s.focus = (contacts.focusOf contacts.staying).location ∧ s.focus = c.center) := by
  obtain ⟨contacts, gestures, haccept, hremains, hdetect, hdetection, hbefore, hafter⟩ :=
    h.exists_detection htouch haccepted
  refine ⟨fun hkind x g delta hx hg hdelta => ?_, fun hkind s hs => ?_⟩
  · rw [hdetection, Option.some.injEq] at hx
    subst hx
    have hmoved := ContactTable.action_of_moved haccept hkind
    obtain ⟨s, hs, rfl⟩ := Detector.delta_of_mem_touch hmoved hdetect hg hdelta
    have hcentred := h.centred hs
    rw [← hbefore] at hcentred
    obtain ⟨hcontacts, hcount, hids⟩ := hremains.of_moved hmoved
    have hsame : c.contacts.live = contacts.contacts := hafter.trans hcontacts
    rw [← hsame, ← hbefore] at hids
    have hlength : c.contacts.live.length = y.channel.contacts.live.length := by
      simpa using congrArg List.length hids
    have hcenter : c.center = contacts.focus.location := by
      rw [center, hsame, Detector.focus_of_count_pos hcount]
    have hdelta : contacts.focus.location - s.focus = c.center - y.channel.center :=
      hcenter ▸ hcentred.sub_eq hlength
    refine ⟨hids, hdelta, fun contact halone => ?_⟩
    rw [halone] at hlength
    obtain ⟨moved, hmoved⟩ := List.length_eq_one_iff.mp hlength
    rw [hdelta, center, center, halone, hmoved]
    exact centroid_sub_centroid moved contact
  · obtain hended | hleft := ContactTable.action_of_released haccept hkind
    · cases (Detector.stream_touch_of_closes (.inl hended) hdetect).symm.trans hs
    · obtain ⟨hcontacts, hstaying⟩ := hremains.of_left hleft
      have hfocus := Detector.focus_of_left hleft hstaying hdetect hs
      have hsame : contacts.staying = c.contacts.live := (hafter.trans hcontacts).symm
      refine ⟨contacts, haccept, hsame, ?_, ?_⟩
      · rw [hfocus, Detector.focusOf_of_length_pos contacts hstaying]
      · rw [hfocus, hsame, center]

def lifting : List Call :=
  [.event (.touch (finger .pressed 1 10 0 1)), .event (.touch (finger .pressed 2 50 10 2)),
    .event (.touch (finger .moved 2 150 20 3)), .event (.touch (finger .released 2 150 30 4))]

-- The finger that stays scrolls on from where it is.
theorem delta_eq_of_lifting :
    Kept (ofCalls {} lifting) ∧ ∃ result c x g,
      (ofCalls {} lifting).channel.touch (finger .moved 1 30 40 5) = .ok (result, c) ∧
      result.accepted = true ∧
      (ofCalls {} lifting).channel.detection? (finger .moved 1 30 40 5) = some x ∧
      g ∈ x.gestures ∧ g.payload = .scrollUpdate ⟨20, 0⟩ ∧
      (⟨20, 0⟩ : Point) = c.center - (ofCalls {} lifting).channel.center := by
  have hkept := kept_ofCalls {} lifting
  have htouched : ((ofCalls {} lifting).channel.touch
      (finger .moved 1 30 40 5)).toOption.map (·.1.accepted) = some true := by
    decide +kernel
  have hdetected : ((ofCalls {} lifting).channel.detection?
      (finger .moved 1 30 40 5)).map (·.gestures.map (·.payload)) =
        some [.scrollUpdate ⟨20, 0⟩] := by
    decide +kernel
  cases htouch : (ofCalls {} lifting).channel.touch (finger .moved 1 30 40 5) with
  | error violation => simp [htouch, Except.toOption] at htouched
  | ok outcome =>
    obtain ⟨result, c⟩ := outcome
    have haccepted : result.accepted = true := by
      simpa [htouch, Except.toOption] using htouched
    obtain ⟨x, hx, hpayloads⟩ := Option.map_eq_some_iff.mp hdetected
    obtain ⟨g, hg, hpayload⟩ := List.mem_map.mp (hpayloads ▸ List.mem_singleton_self _)
    obtain ⟨-, hdelta, -⟩ := (hkept.delta_eq htouch haccepted).1 rfl x g _ hx hg hpayload
    exact ⟨hkept, result, c, x, g, rfl, haccepted, hx, hg, hpayload, hdelta⟩

end Diary

end Channel

end TouchGestures
