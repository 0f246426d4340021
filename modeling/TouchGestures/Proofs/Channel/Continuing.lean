import TouchGestures.Proofs.Channel.Pressing

namespace TouchGestures.Channel

variable {c d : Channel}

-- The same contacts are down, and detection is in the same stream.
structure Idles (c d : Channel) : Prop where
  ids : d.contacts.ids = c.contacts.ids
  lastTime : d.detector.lastTime = c.detector.lastTime
  stream : d.detector.stream.isSome = c.detector.stream.isSome

theorem idles_refl (c : Channel) : Idles c c := ⟨rfl, rfl, rfl⟩

theorem Idles.trans {e : Channel} (h : Idles c d) (h' : Idles d e) : Idles c e :=
  ⟨h'.ids.trans h.ids, h'.lastTime.trans h.lastTime, h'.stream.trans h.stream⟩

theorem Rests.idles (h : Rests c d) : Idles c d :=
  ⟨by rw [h.contacts], h.lastTime, h.stream⟩

namespace Chronicle

variable {k k' : Chronicle} {t : Touch} {log : List Touch} {began : Time} {id : ContactId}

theorem idles_configure (k : Chronicle) (settings : ChannelSettings) :
    Idles k.channel (k.next (.configure settings)).channel := by
  rw [next_of_step (k := k) (e := .configure settings) rfl]
  exact ⟨rfl, rfl, Option.isSome_map⟩

-- A contact is down in a stream that began at some time and goes on, unless a touch of the
-- log has cancelled it. The last touch was the first one or is in the log.
structure Carries (k : Chronicle) (began : Time) (log : List Touch) (id : ContactId) : Prop where
  down : id ∈ k.channel.contacts.ids
  stream : k.channel.detector.stream.isSome = true ↔ ∀ u ∈ log, u.kind ≠ .cancelled
  lastTime : k.channel.detector.stream.isSome = true →
    ∃ time, k.channel.detector.lastTime = some time ∧ began ≤ time ∧
      (time = began ∨ ∃ u ∈ log, u.time = time)

theorem Current.carries (h : k.Current began) (hid : id ∈ k.channel.contacts.ids) :
    k.Carries began [] id := by
  obtain ⟨hstream, hlast⟩ := h (List.ne_nil_of_mem hid)
  exact ⟨hid, by simp [hstream], fun _ => ⟨began, hlast, Int.le_refl _, .inl rfl⟩⟩

theorem Carries.idles (h : k.Carries began log id) (hidles : Idles k.channel k'.channel) :
    k'.Carries began log id where
  down := hidles.ids ▸ h.down
  stream := hidles.stream ▸ h.stream
  lastTime := by
    rw [hidles.stream, hidles.lastTime]
    exact h.lastTime

-- Whatever else is touched, the contact stays down, and the stream goes on unless it is
-- cancelled.
theorem Carries.next_touch (h : k.Carries began log id) (hsound : k.Sound)
    (haccepts : k.accepts t = true) (hmoves : t.contact.id = id → t.kind = .moved) :
    (k.next (.touch t)).Carries began (log ++ [t]) id := by
  obtain ⟨contacts, htakes⟩ := exists_takes hsound haccepts
  obtain ⟨gestures, hdetect⟩ := htakes.detect
  obtain ⟨change, hlatest, haction, htime⟩ := ContactTable.latest_of_accept? htakes.accept
  have hended := ContactTable.action_ne_ended_of_mem h.down htakes.accept hmoves
  have hcancelled := ContactTable.action_eq_cancelled_iff htakes.accept
  have hnotBegan : change.action ≠ .began := by
    rw [haction]
    intro hbegan
    have hnil := (ContactTable.action_eq_began_iff htakes.accept).mp hbegan
    rw [← ContactTable.ids_eq_nil_iff] at hnil
    exact List.ne_nil_of_mem h.down hnil
  have hstream : (k.next (.touch t)).channel.detector.stream.isSome = true ↔
      t.kind ≠ .cancelled := by
    rw [Detector.isSome_stream_touch (ContactTable.accepted_note htakes.accept).1 hdetect,
      and_iff_right hended, ne_eq, hcancelled]
  have hbefore : t.kind ≠ .cancelled → k.channel.detector.stream.isSome = true ∧
      ∀ time ∈ k.channel.detector.lastTime, time ≤ t.time := by
    intro hkind
    obtain hbegan | hcancels | hunderway :=
      (Detector.exists_touch_iff_fresh hlatest).mp ⟨_, hdetect⟩
    · exact absurd hbegan hnotBegan
    · exact absurd (hcancelled.mp (haction ▸ hcancels)) hkind
    · exact htime ▸ hunderway
  have hlast := Detector.lastTime_touch hlatest hdetect
  refine ⟨?_, ?_, fun hunderway => ?_⟩
  · rw [htakes.contacts, ContactTable.ids_accept? hsound.settled htakes.accept]
    have hmem := h.down
    have hne : t.kind = .released ∨ t.kind = .cancelled → id ≠ t.contact.id := by
      rintro hkind rfl
      simp [hmoves rfl] at hkind
    unfold ContactTable.idsAfter
    split
    · exact List.mem_append_left _ hmem
    · exact hmem
    · next hkind => exact (List.mem_erase_of_ne (hne (.inl hkind))).mpr hmem
    · next hkind => exact (List.mem_erase_of_ne (hne (.inr hkind))).mpr hmem
  · rw [hstream]
    constructor
    · intro hkind u hu
      rcases List.mem_append.mp hu with hu | hu
      · exact h.stream.mp (hbefore hkind).1 u hu
      · rwa [List.mem_singleton.mp hu]
    · exact fun hlog => hlog t (by simp)
  · obtain ⟨hunderway', hfresh⟩ := hbefore (hstream.mp hunderway)
    obtain ⟨time, hlast', hle, -⟩ := h.lastTime hunderway'
    refine ⟨t.time, by rw [hlast, htime], Int.le_trans hle (hfresh time (by simp [hlast'])), ?_⟩
    exact .inr ⟨t, by simp, rfl⟩

-- A move or release of the contact that is no older than the touches of the log is accepted
-- just if it is no older than the first one either, and the stream was not cancelled.
theorem Carries.accepts_iff (h : k.Carries began log id) (hsound : k.Sound)
    (hid : t.contact.id = id) (hkind : t.kind = .moved ∨ t.kind = .released)
    (htimes : ∀ u ∈ log, u.time ≤ t.time) :
    k.accepts t = true ↔ began ≤ t.time ∧ ∀ u ∈ log, u.kind ≠ .cancelled := by
  have hfits : k.channel.contacts.Fits t := by
    rw [ContactTable.Fits, if_neg (by rintro hpressed; simp [hpressed] at hkind), hid,
      Option.isSome_iff_ne_none, ne_eq, ContactTable.index?_eq_none_iff_notMem_ids, not_not]
    exact h.down
  obtain ⟨contacts, haccept⟩ := ContactTable.exists_accept?_iff.mpr hfits
  obtain ⟨change, hlatest, haction, htime⟩ := ContactTable.latest_of_accept? haccept
  have hdetects : (∃ result, k.channel.detector.touch contacts = some result) ↔
      k.channel.detector.stream.isSome = true ∧
        ∀ time ∈ k.channel.detector.lastTime, time ≤ t.time := by
    rw [Detector.exists_touch_iff_fresh hlatest, haction, htime,
      ContactTable.action_eq_began_iff haccept, ContactTable.action_eq_cancelled_iff haccept,
      ← ContactTable.ids_eq_nil_iff]
    have hne := List.ne_nil_of_mem h.down
    have hkind' : t.kind ≠ .cancelled := by rintro hcancelled; simp [hcancelled] at hkind
    simp [hne, hkind']
  have haccepts : k.accepts t = true ↔
      ∃ result, k.channel.detector.touch contacts = some result := by
    rw [Chronicle.accepts_iff hsound]
    simp [haccept]
  rw [haccepts, hdetects, ← h.stream]
  constructor
  · rintro ⟨hstream, hfresh⟩
    obtain ⟨time, hlast, hle, -⟩ := h.lastTime hstream
    exact ⟨Int.le_trans hle (hfresh time (by simp [hlast])), hstream⟩
  · rintro ⟨hbegan, hstream⟩
    refine ⟨hstream, fun time hlast => ?_⟩
    obtain ⟨time', hlast', -, hfrom⟩ := h.lastTime hstream
    rw [hlast', Option.mem_some_iff] at hlast
    obtain rfl | ⟨u, hu, rfl⟩ := hfrom
    · exact hlast ▸ hbegan
    · exact hlast ▸ htimes u hu

-- A contact that is not down stays so until it is pressed.
theorem notMem_ids_next_touch (hsound : k.Sound) (hid : id ∉ k.channel.contacts.ids)
    (hmoves : k.accepts t = true → t.contact.id = id → t.kind = .moved) :
    id ∉ (k.next (.touch t)).channel.contacts.ids := by
  cases haccepts : k.accepts t with
  | false => rwa [channel_of_not_accepts hsound haccepts]
  | true =>
    obtain ⟨contacts, htakes⟩ := exists_takes hsound haccepts
    rw [htakes.contacts, ContactTable.ids_accept? hsound.settled htakes.accept]
    unfold ContactTable.idsAfter
    split
    · next hkind =>
      rw [List.mem_append, List.mem_singleton, not_or]
      refine ⟨hid, ?_⟩
      rintro rfl
      rw [hmoves haccepts rfl] at hkind
      cases hkind
    · exact hid
    · exact fun hmem => hid (List.mem_of_mem_erase hmem)
    · exact fun hmem => hid (List.mem_of_mem_erase hmem)

theorem accepts_eq_false_of_notMem (hsound : k.Sound) (hid : t.contact.id ∉ k.channel.contacts.ids)
    (hkind : t.kind ≠ .pressed) : k.accepts t = false := by
  rw [Bool.eq_false_iff]
  intro haccepts
  obtain ⟨contacts, result, haccept, -⟩ := (Chronicle.accepts_iff hsound).mp haccepts
  exact hid ((ContactTable.mem_ids_of_accept? haccept).mpr hkind)

end Chronicle

end TouchGestures.Channel
