import TouchGestures.Proofs.ContactTable.Remaining
import TouchGestures.Proofs.Detector.Family
import TouchGestures.Proofs.Scalar

namespace TouchGestures

section Centroid

variable {c d : Contact} {contacts : List Contact}

-- The centroid of a lone contact is its place, but for the sign of zero.
theorem location_centroid_singleton (c : Contact) :
    (centroid [c]).location = Point.origin + c.location := by
  have hlocation : (centroid [c]).location =
      (Point.origin + c.location).divide (1 : Nat).toFloat32 := rfl
  rw [hlocation, Point.divide, Scalar.div_one, Scalar.div_one]

-- Hence it can be compared with the place of another lone contact or with its centroid.
theorem centroid_sub_centroid (c d : Contact) :
    (centroid [c]).location - (centroid [d]).location = (centroid [c]).location - d.location := by
  simp only [location_centroid_singleton, Point.add_def, Point.sub_def]
  exact congr (congrArg Point.mk (Scalar.zero_add_sub_zero_add _ _))
    (Scalar.zero_add_sub_zero_add _ _)

-- The contacts are centred there, or there is just one of them and it is there.
def Centred (contacts : List Contact) (focus : Point) : Prop :=
  focus = (centroid contacts).location ∨ ∃ c, contacts = [c] ∧ focus = c.location

theorem Centred.sub_eq {focus : Point} (h : Centred contacts focus) {others : List Contact}
    (hlength : others.length = contacts.length) :
    (centroid others).location - focus =
      (centroid others).location - (centroid contacts).location := by
  obtain rfl | ⟨d, rfl, rfl⟩ := h
  · rfl
  · obtain ⟨c, rfl⟩ := List.length_eq_one_iff.mp hlength
    exact (centroid_sub_centroid c d).symm

end Centroid

namespace Detector

variable {d d' : Detector} {s s' : Stream} {t u : ContactTable} {time now : Time}
  {gestures : List Gesture}

namespace Stream

-- The streams differ at most in what may become of the tap and in the alarms.
def SameButTap (s s' : Stream) : Prop := ∃ tap alarms, s' = { s with tap, alarms }

theorem SameButTap.refl (s : Stream) : s.SameButTap s := ⟨s.tap, s.alarms, rfl⟩

theorem SameButTap.trans {s'' : Stream} (h : s.SameButTap s') (h' : s'.SameButTap s'') :
    s.SameButTap s'' := by
  obtain ⟨tap, alarms, rfl⟩ := h
  obtain ⟨tap', alarms', rfl⟩ := h'
  exact ⟨tap', alarms', rfl⟩

theorem sameButTap_cancelTap (s : Stream) (t : ContactTable) (time : Time) :
    s.SameButTap (s.cancelTap t time).2 := by
  unfold cancelTap
  split
  · exact ⟨.off, Alarms.off, rfl⟩
  · exact ⟨s.tap, Alarms.off, rfl⟩

theorem sameButTap_ring (s : Stream) (alarm : Alarm) (deadline : Time) :
    s.SameButTap (s.ring alarm deadline).2 := by
  unfold ring
  simp only []
  split
  · exact .refl s
  · exact ⟨.long, Alarms.off, rfl⟩
  · exact .refl s

theorem sameButTap_ringDue (s : Stream) (now : Time) (rounds : Nat) :
    s.SameButTap (s.ringDue now rounds).2 := by
  induction rounds generalizing s with
  | zero => exact .refl s
  | succ rounds ih =>
    unfold ringDue
    split
    · exact .refl s
    · next alarm deadline rest _ =>
      have hrest : s.SameButTap { s with alarms := rest } := ⟨s.tap, rest, rfl⟩
      exact (hrest.trans (sameButTap_ring _ alarm deadline)).trans (ih _)

theorem sameButTap_tick (s : Stream) (now : Time) : s.SameButTap (s.tick now).2 :=
  s.sameButTap_ringDue now 2

theorem exists_beginScroll (s : Stream) (slop : Scalar) (t : ContactTable) (time : Time) :
    ∃ tap alarms scrolling, (s.beginScroll slop t time).2 = { s with tap, alarms, scrolling } := by
  obtain ⟨tap, alarms, hcancel⟩ := s.sameButTap_cancelTap t time
  unfold beginScroll
  simp only [hcancel]
  split <;> exact ⟨_, _, _, rfl⟩

theorem focus_beginScroll (s : Stream) (slop : Scalar) (t : ContactTable) (time : Time) :
    (s.beginScroll slop t time).2.focus = s.focus := by
  obtain ⟨tap, alarms, scrolling, hbegun⟩ := s.exists_beginScroll slop t time
  rw [hbegun]

theorem kind_of_mem_cancelTap {g : Gesture} (hg : g ∈ (s.cancelTap t time).1) :
    g.kind = .tapCancel := by
  unfold cancelTap at hg
  split at hg
  · obtain ⟨c, -, rfl⟩ := Option.map_eq_some_iff.mp (Option.mem_toList.mp hg)
    rfl
  · cases hg

theorem kind_of_mem_beginScroll {slop : Scalar} {g : Gesture}
    (hg : g ∈ (s.beginScroll slop t time).1) : g.kind = .tapCancel ∨ g.kind = .scrollBegin := by
  unfold beginScroll at hg
  simp only [] at hg
  split at hg
  · rcases List.mem_append.mp hg with hg | hg
    · exact .inl (kind_of_mem_cancelTap hg)
    · obtain rfl := List.mem_singleton.mp hg
      exact .inr rfl
  · cases hg

-- A scroll is measured from where the contacts were centred before.
theorem delta_of_mem_scroll {slop : Scalar} {g : Gesture} {delta : Point}
    (hg : g ∈ (s.scroll slop t time).1) (hdelta : g.payload = .scrollUpdate delta) :
    delta = t.focus.location - s.focus := by
  have hscroll : (s.scroll slop t time).1 = (s.beginScroll slop t time).1 ++
      (s.beginScroll slop t time).2.updateScroll t time := rfl
  rw [hscroll] at hg
  rcases List.mem_append.mp hg with hg | hg
  · have hkind := kind_of_mem_beginScroll hg
    simp [Gesture.kind, hdelta, Gesture.Payload.kind] at hkind
  · rw [updateScroll, focus_beginScroll] at hg
    split at hg
    · obtain rfl := List.mem_singleton.mp hg
      cases hdelta
      rfl
    · cases hg

end Stream

theorem kind_of_mem_pinch {g : Gesture} (hg : g ∈ (d.pinch s t time).1) :
    g.kind = .tapCancel ∨ g.kind = .pinchBegin ∨ g.kind = .pinchUpdate := by
  unfold pinch at hg
  simp only [] at hg
  split at hg
  · split at hg
    · split at hg
      · rcases List.mem_append.mp hg with hg | hg
        · exact .inl (Stream.kind_of_mem_cancelTap hg)
        · obtain rfl := List.mem_singleton.mp hg
          exact .inr (.inl rfl)
      · cases hg
    · split at hg
      · obtain rfl := List.mem_singleton.mp hg
        exact .inr (.inr rfl)
      · cases hg
  · cases hg

-- The pinching part of a move leaves all of the stream alone but the tap and the pinch.
theorem exists_stream_pinch (d : Detector) (s : Stream) (t : ContactTable) (time : Time) :
    ∃ tap alarms pinching,
      (d.pinch s t time).2.stream = some { s with tap, alarms, pinching } := by
  obtain ⟨tap, alarms, hcancel⟩ := s.sameButTap_cancelTap t time
  unfold pinch
  simp only [hcancel]
  split
  · split
    · split <;> exact ⟨_, _, _, rfl⟩
    · split <;> exact ⟨_, _, _, rfl⟩
  · exact ⟨_, _, _, rfl⟩

theorem delta_of_mem_move {g : Gesture} {delta : Point} (hg : g ∈ (d.move s t time).1)
    (hdelta : g.payload = .scrollUpdate delta) : delta = t.focus.location - s.focus := by
  rcases List.mem_append.mp hg with hg | hg
  · exact Stream.delta_of_mem_scroll hg hdelta
  · have hkind := kind_of_mem_pinch hg
    simp [Gesture.kind, hdelta, Gesture.Payload.kind] at hkind

-- A move follows the contacts.
theorem exists_stream_move (d : Detector) (s : Stream) (t : ContactTable) (time : Time) :
    ∃ tap alarms scrolling pinching, (d.move s t time).2.stream = some
      { s.follow time t.focus.location with tap, alarms, scrolling, pinching } := by
  obtain ⟨tap, alarms, scrolling, hbegun⟩ :=
    s.exists_beginScroll d.settings.thresholds.touchSlop t time
  obtain ⟨tap', alarms', pinching, hpinched⟩ :=
    d.exists_stream_pinch (s.scroll d.settings.thresholds.touchSlop t time).2 t time
  have hscrolled : (s.scroll d.settings.thresholds.touchSlop t time).2 =
      (s.beginScroll d.settings.thresholds.touchSlop t time).2.follow time t.focus.location := rfl
  have hmove : (d.move s t time).2 =
      (d.pinch (s.scroll d.settings.thresholds.touchSlop t time).2 t time).2 := rfl
  refine ⟨tap', alarms', scrolling, pinching, ?_⟩
  rw [hmove, hpinched, hscrolled, hbegun]
  rfl

theorem focusOf_of_length_pos {contacts : List Contact} (t : ContactTable)
    (h : 1 ≤ contacts.length) : t.focusOf contacts = centroid contacts := by
  rw [ContactTable.focusOf, if_neg]
  rintro hempty
  rw [List.isEmpty_iff.mp hempty] at h
  cases h

theorem focus_of_count_pos (h : 1 ≤ u.count) : u.focus = centroid u.contacts :=
  focusOf_of_length_pos u h

-- A release leaves the centre of the contacts that stay as the reference of scrolls.
theorem focus_leave (hs : (d.leave s u time).2.stream = some s') (hstaying : 1 ≤ u.staying.length) :
    s'.focus = (centroid u.staying).location := by
  obtain rfl := Option.some.inj hs
  rw [← focusOf_of_length_pos u hstaying]
  rfl

theorem touch_of_began (hbegan : u.action = .began) (h : d.touch u = some (gestures, d')) :
    ∃ time, { d with lastTime := some time }.begin u time = (gestures, d') ∧
      u.time? = some time := by
  obtain ⟨change, hlatest, -, hhandle⟩ := touch_eq_some h
  have haction : change.action = .began := by simpa [ContactTable.action, hlatest] using hbegan
  refine ⟨change.time, ?_, by simp [ContactTable.time?, hlatest]⟩
  rw [← hhandle, handle, haction]

-- A touch that does not begin a stream, but is followed by gestures or by a stream, has found
-- a stream under way and is left to the handler of what it amounts to.
theorem touch_of_underway (hbegan : u.action ≠ .began) (h : d.touch u = some (gestures, d'))
    (hleaves : gestures ≠ [] ∨ d'.stream ≠ none) :
    ∃ s time, d.stream = some s ∧ (let seen : Detector := { d with lastTime := some time }
      (match u.action with
        | .began => seen.begin u time
        | .joined => seen.join s u time
        | .moved => seen.move s u time
        | .left => seen.leave s u time
        | .ended => seen.finish s u time
        | .cancelled => seen.abort s u time) = (gestures, d')) ∧ u.time? = some time := by
  obtain ⟨change, hlatest, -, hhandle⟩ := touch_eq_some h
  have haction : u.action = change.action := by simp [ContactTable.action, hlatest]
  rw [haction] at hbegan ⊢
  cases hd : d.stream with
  | none =>
    rw [handle_of_stream_eq_none (by exact hd) hbegan] at hhandle
    cases hhandle
    exact absurd hd (hleaves.resolve_left (by simp))
  | some s =>
    refine ⟨s, change.time, rfl, ?_, by simp [ContactTable.time?, hlatest]⟩
    rw [← hhandle, handle]
    cases change.action <;> simp only [hd]

-- Unless it begins a stream or cancels one, a touch that detection does not turn down is not
-- older than the touch before.
theorem le_of_touch {time : Time} (htime : u.time? = some time)
    (h : d.touch u = some (gestures, d')) (hbegan : u.action ≠ .began)
    (hcancelled : u.action ≠ .cancelled) : ∀ last ∈ d.lastTime, last ≤ time := by
  obtain ⟨change, hlatest, hrefuses, -⟩ := touch_eq_some h
  have haction : u.action = change.action := by simp [ContactTable.action, hlatest]
  obtain rfl : change.time = time := by simpa [ContactTable.time?, hlatest] using htime
  intro last hlast
  rw [haction] at hbegan hcancelled
  unfold refuses at hrefuses
  cases hchange : change.action with
  | began => exact absurd hchange hbegan
  | cancelled => exact absurd hchange hcancelled
  | joined | moved | left | ended =>
    have hfresh : d.stream.isSome = true ∧ last ≤ change.time := by
      simpa [hchange, Option.mem_def.mp hlast] using hrefuses
    exact hfresh.2

-- After a touch, the reference of scrolls is where the contacts that stay down are centred.
theorem centred_touch (hremains : t.Remains u) (h : d.touch u = some (gestures, d'))
    (hs : d'.stream = some s) : Centred u.settle.contacts s.focus := by
  have hleaves : gestures ≠ [] ∨ d'.stream ≠ none := .inr (by simp [hs])
  cases hremains with
  | began contact hbegan hacting hcontacts =>
    obtain ⟨time, hbegin, -⟩ := touch_of_began hbegan h
    simp only [begin, hacting] at hbegin
    cases hbegin
    obtain rfl := Option.some.inj hs
    exact .inr ⟨contact, hcontacts, rfl⟩
  | joined hjoined hcontacts _ htwo =>
    obtain ⟨before, time, -, hjoin, -⟩ := touch_of_underway (by simp [hjoined]) h hleaves
    simp only [hjoined] at hjoin
    obtain rfl := congrArg Prod.snd hjoin
    obtain rfl := Option.some.inj hs
    rw [hcontacts]
    exact .inl (congrArg Place.location (focus_of_count_pos (Nat.le_of_succ_le htwo)))
  | moved hmoved hcontacts hids hcount =>
    obtain ⟨before, time, -, hmove, -⟩ := touch_of_underway (by simp [hmoved]) h hleaves
    simp only [hmoved] at hmove
    obtain rfl := congrArg Prod.snd hmove
    obtain ⟨tap, alarms, scrolling, pinching, hafter⟩ := exists_stream_move _ before u time
    obtain rfl := Option.some.inj (hafter.symm.trans hs)
    rw [hcontacts]
    exact .inl (congrArg Place.location (focus_of_count_pos hcount))
  | left hleft hcontacts hcount hstaying =>
    obtain ⟨before, time, -, hleave, -⟩ := touch_of_underway (by simp [hleft]) h hleaves
    simp only [hleft] at hleave
    obtain rfl := congrArg Prod.snd hleave
    exact .inl (hcontacts ▸ focus_leave hs hstaying)
  | gone hgone => cases (stream_touch_of_closes hgone h).symm.trans hs

theorem delta_of_mem_touch {g : Gesture} {delta : Point} (hmoved : u.action = .moved)
    (h : d.touch u = some (gestures, d')) (hg : g ∈ gestures)
    (hdelta : g.payload = .scrollUpdate delta) :
    ∃ s, d.stream = some s ∧ delta = u.focus.location - s.focus := by
  obtain ⟨s, time, hd, hmove, -⟩ :=
    touch_of_underway (by simp [hmoved]) h (.inl (List.ne_nil_of_mem hg))
  simp only [hmoved] at hmove
  obtain rfl := congrArg Prod.fst hmove
  exact ⟨s, hd, delta_of_mem_move hg hdelta⟩

theorem focus_of_left (hleft : u.action = .left) (hstaying : 1 ≤ u.staying.length)
    (h : d.touch u = some (gestures, d')) (hs : d'.stream = some s) :
    s.focus = (centroid u.staying).location := by
  obtain ⟨before, time, -, hleave, -⟩ :=
    touch_of_underway (by simp [hleft]) h (.inr (by simp [hs]))
  simp only [hleft] at hleave
  obtain rfl := congrArg Prod.snd hleave
  exact focus_leave hs hstaying

theorem focus_tick (hd : d.stream = some s) (now : Time) :
    ∃ s', (d.tick now).2.stream = some s' ∧ s.SameButTap s' := by
  rw [tick, hd]
  exact ⟨_, rfl, s.sameButTap_tick now⟩

end Detector

end TouchGestures
