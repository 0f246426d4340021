import TouchGestures.Proofs.Detector.Focus

namespace TouchGestures

-- How far apart some contacts are: how far on average they are from their centre.
def spanOf (contacts : List Contact) : Scalar := spread contacts (centroid contacts).location

-- Only where the contacts are counts for how far apart they are.
theorem spanOf_congr {contacts others : List Contact}
    (h : contacts.map Contact.place = others.map Contact.place) :
    spanOf contacts = spanOf others := by
  have hcentroid (contacts : List Contact) : centroid contacts =
      ((contacts.map Contact.place).foldl (· + ·) Place.origin).divide
        (contacts.map Contact.place).length.toFloat32 := by
    rw [List.foldl_map, List.length_map, centroid]
  have hspread (contacts : List Contact) (center : Point) : spread contacts center =
      if (contacts.map Contact.place).isEmpty then 0
      else (contacts.map Contact.place).foldl (fun sum p => sum + p.location.distance center) 0
        / (contacts.map Contact.place).length.toFloat32 := by
    rw [List.foldl_map, List.length_map, List.isEmpty_map, spread]
    rfl
  rw [spanOf, spanOf, hspread, hspread, hcentroid, hcentroid, h]

namespace Detector

open Gesture (Family)

variable {d d' : Detector} {s s' : Stream} {t u : ContactTable} {time now : Time}
  {gestures : List Gesture} {g : Gesture}

theorem spread_focusOf {contacts : List Contact} (t : ContactTable) (h : 1 ≤ contacts.length) :
    spread contacts (t.focusOf contacts).location = spanOf contacts := by
  rw [focusOf_of_length_pos t h, spanOf]

namespace Stream

theorem pinching_beginScroll (s : Stream) (slop : Scalar) (t : ContactTable) (time : Time) :
    (s.beginScroll slop t time).2.pinching = s.pinching := by
  obtain ⟨tap, alarms, hcancel⟩ := s.sameButTap_cancelTap t time
  unfold beginScroll
  simp only [hcancel]
  split <;> rfl

theorem pinching_scroll (s : Stream) (slop : Scalar) (t : ContactTable) (time : Time) :
    (s.scroll slop t time).2.pinching = s.pinching :=
  s.pinching_beginScroll slop t time

theorem kind_of_mem_scroll {slop : Scalar} (hg : g ∈ (s.scroll slop t time).1) :
    g.kind ≠ .pinchUpdate := by
  have hscroll : (s.scroll slop t time).1 = (s.beginScroll slop t time).1 ++
      (s.beginScroll slop t time).2.updateScroll t time := rfl
  rw [hscroll] at hg
  rcases List.mem_append.mp hg with hg | hg
  · obtain hkind | hkind := kind_of_mem_beginScroll hg <;> simp [hkind]
  · rw [updateScroll] at hg
    split at hg
    · obtain rfl := List.mem_singleton.mp hg
      simp [Gesture.Payload.kind]
    · cases hg

end Stream

-- What the pinching part of a move does. A pinch that is not under way may begin, and one
-- that is reports the new span, if it can be compared with the old one and differs from it.
inductive Pinches (d : Detector) (s : Stream) (t : ContactTable) (span : Scalar) :
    List Gesture → Detector → Prop
  | off (hoff : d.settings.pinch = false) : Pinches d s t span [] { d with stream := some s }
  | few (hcount : t.count < 2) : Pinches d s t span [] { d with stream := some s }
  | idle (hpinching : s.pinching = false) : Pinches d s t span [] { d with stream := some s }
  | begun (gestures : List Gesture) (s' : Stream) (hpinching : s.pinching = false)
    (hcount : 2 ≤ t.count) (hkinds : ∀ g ∈ gestures, g.kind ≠ .pinchUpdate)
    (hbegun : s'.pinching = true) :
    Pinches d s t span gestures { d with stream := some s', lastSpan := span }
  | updated (g : Gesture) (hpinching : s.pinching = true) (hpos : 0 < d.lastSpan)
    (hdiffers : (span != d.lastSpan) = true) (hpayload : g.payload = .pinchUpdate (span / d.lastSpan)) :
    Pinches d s t span [g] { d with stream := some s, lastSpan := span }
  | kept (hpinching : s.pinching = true)
    (hkept : ¬0 < d.lastSpan ∨ (span == d.lastSpan) = true) :
    Pinches d s t span [] { d with stream := some s }

theorem pinches_pinch (d : Detector) (s : Stream) (t : ContactTable) (time : Time) :
    d.Pinches s t (spanOf t.contacts) (d.pinch s t time).1 (d.pinch s t time).2 := by
  unfold pinch
  simp only []
  split
  · next hboth =>
    rw [Bool.and_eq_true, decide_eq_true_eq] at hboth
    have hcount : 2 ≤ t.count := hboth.2
    rw [focus_of_count_pos (Nat.le_of_succ_le hcount)]
    split
    · next hpinching =>
      have hpinching : s.pinching = false := by simpa using hpinching
      split
      · refine .begun _ _ hpinching hcount (fun g hg => ?_) rfl
        rcases List.mem_append.mp hg with hg | hg
        · simp [Stream.kind_of_mem_cancelTap hg]
        · obtain rfl := List.mem_singleton.mp hg
          simp [Gesture.Payload.kind]
      · exact .idle hpinching
    · next hpinching =>
      have hpinching : s.pinching = true := by simpa using hpinching
      split
      · next hcond =>
        rw [Bool.and_eq_true, decide_eq_true_eq] at hcond
        exact .updated _ hpinching hcond.1 hcond.2 rfl
      · next hcond =>
        rw [Bool.and_eq_true, decide_eq_true_eq, not_and] at hcond
        refine .kept hpinching ?_
        by_cases hpos : 0 < d.lastSpan
        · exact .inr (by simpa [bne, spanOf] using hcond hpos)
        · exact .inl hpos
  · next hboth =>
    cases hon : d.settings.pinch with
    | false => exact .off hon
    | true => exact .few (by simpa [hon] using hboth)

namespace Pinches

variable {span : Scalar}

-- After a move the reference is the span of the contacts, unless it was one that nothing
-- can be compared with.
theorem lastSpan_iff (h : d.Pinches s t span gestures d') (hon : d.settings.pinch = true)
    (hcount : s.pinching = true → 2 ≤ t.count) (hs' : d'.stream = some s')
    (hpinching : s'.pinching = true) :
    d'.lastSpan = span ↔ (s.pinching = true ∧ ¬0 < d.lastSpan → d.lastSpan = span) := by
  cases h with
  | off hoff => cases hon.symm.trans hoff
  | few hfew =>
    obtain rfl := Option.some.inj hs'
    exact absurd (hcount hpinching) (Nat.not_le.mpr hfew)
  | idle hidle =>
    obtain rfl := Option.some.inj hs'
    cases hidle.symm.trans hpinching
  | begun _ _ hidle => exact iff_of_true rfl fun hstuck => by simp [hidle] at hstuck
  | updated g _ hpos => exact iff_of_true rfl fun hstuck => absurd hpos hstuck.2
  | kept hwas hkept =>
    obtain hstuck | hsame := hkept
    · exact ⟨fun heq _ => heq, fun hcurrent => hcurrent ⟨hwas, hstuck⟩⟩
    · constructor
      · exact fun heq _ => heq
      · intro hcurrent
        by_cases hpos : 0 < d.lastSpan
        · exact (Scalar.eq_of_beq hpos hsame).symm
        · exact hcurrent ⟨hwas, hpos⟩

-- An update compares the span with the reference, from which it differs.
theorem scale_eq {scale : Scalar} (h : d.Pinches s t span gestures d') (hg : g ∈ gestures)
    (hscale : g.payload = .pinchUpdate scale) :
    s.pinching = true ∧ scale = span / d.lastSpan ∧ span ≠ d.lastSpan := by
  cases h with
  | off | few | idle | kept => cases hg
  | begun _ _ _ _ hkinds =>
    have hkind : g.kind = .pinchUpdate := by simp [Gesture.kind, hscale, Gesture.Payload.kind]
    exact absurd hkind (hkinds g hg)
  | updated g hpinching hpos hdiffers hpayload =>
    obtain rfl := List.mem_singleton.mp hg
    rw [hpayload] at hscale
    refine ⟨hpinching, (Gesture.Payload.pinchUpdate.inj hscale).symm, fun heq => ?_⟩
    rw [heq, bne, Scalar.beq_self_of_pos hpos] at hdiffers
    cases hdiffers

theorem two_le_count (h : d.Pinches s t span gestures d')
    (hcount : s.pinching = true → 2 ≤ t.count) (hs' : d'.stream = some s')
    (hpinching : s'.pinching = true) : 2 ≤ t.count := by
  cases h with
  | begun _ _ _ htwo => exact htwo
  | off | few | idle | updated | kept =>
    obtain rfl := Option.some.inj hs'
    exact hcount hpinching

end Pinches

theorem pinches_move (d : Detector) (s : Stream) (t : ContactTable) (time : Time) :
    ∃ scrolled pinched s', (d.move s t time).1 = scrolled ++ pinched ∧
      (∀ g ∈ scrolled, g.kind ≠ .pinchUpdate) ∧ s'.pinching = s.pinching ∧
      d.Pinches s' t (spanOf t.contacts) pinched (d.move s t time).2 :=
  ⟨_, _, _, rfl, fun _ hg => Stream.kind_of_mem_scroll hg, s.pinching_scroll _ t time,
    pinches_pinch d _ t time⟩

theorem isOpen_pinch_iff (d : Detector) :
    d.isOpen .pinch = true ↔ ∃ s, d.stream = some s ∧ s.pinching = true := by
  simp [isOpen, Option.any_eq_true, Stream.isOpen]

-- Nothing is measured when a contact joins a pinch.
theorem lastSpan_join (d : Detector) (t : ContactTable) (time : Time)
    (hpinching : s.pinching = true) : (d.join s t time).2.lastSpan = d.lastSpan := by
  obtain ⟨tap, alarms, hcancel⟩ := s.sameButTap_cancelTap t time
  simp [join, hcancel, hpinching]

theorem pinching_join (hs' : (d.join s t time).2.stream = some s') :
    s'.pinching = s.pinching := by
  obtain ⟨tap, alarms, hcancel⟩ := s.sameButTap_cancelTap t time
  simp only [join, hcancel] at hs'
  obtain rfl := Option.some.inj hs'
  rfl

-- While enough contacts stay for a pinch, they are measured whenever one lifts.
theorem lastSpan_leave (hs' : (d.leave s u time).2.stream = some s')
    (hpinching : s'.pinching = true) (hcount : u.count = u.staying.length + 1) :
    2 ≤ u.staying.length ∧
      (d.settings.pinch = true → (d.leave s u time).2.lastSpan = spanOf u.staying) := by
  have hstaying : u.count - 1 = u.staying.length := by omega
  obtain rfl := Option.some.inj hs'
  have htwo : 2 ≤ u.staying.length := by
    have hboth : (s.pinching && decide (2 ≤ u.count - 1)) = true := hpinching
    rw [Bool.and_eq_true, decide_eq_true_eq, hstaying] at hboth
    exact hboth.2
  refine ⟨htwo, fun hon => ?_⟩
  rw [← spread_focusOf u (Nat.le_of_succ_le htwo)]
  simp [leave, hon, hstaying, htwo, measure]

-- After a touch that leaves a pinch open there are contacts enough for one, and the
-- reference is their span. The exceptions are that a contact joins a pinch and that one
-- moves while nothing can be compared with the reference, which both leave it as it was.
theorem lastSpan_touch (hcount : d.isOpen .pinch = true → 2 ≤ t.count) (hremains : t.Remains u)
    (h : d.touch u = some (gestures, d')) (hopen : d'.isOpen .pinch = true) :
    2 ≤ u.settle.count ∧ (d.settings.pinch = true →
      (d'.lastSpan = spanOf u.settle.contacts ↔
        (d.isOpen .pinch = true ∧ (u.action = .joined ∨ u.action = .moved ∧ ¬0 < d.lastSpan) →
          d.lastSpan = spanOf u.settle.contacts))) := by
  obtain ⟨s', hs', hpinching⟩ := d'.isOpen_pinch_iff.mp hopen
  have hleaves : gestures ≠ [] ∨ d'.stream ≠ none := .inr (by simp [hs'])
  cases hremains with
  | began contact hbegan hacting hcontacts =>
    obtain ⟨time, hbegin, -⟩ := touch_of_began hbegan h
    simp only [begin, hacting] at hbegin
    cases hbegin
    obtain rfl := Option.some.inj hs'
    cases hpinching
  | joined hjoined hcontacts _ htwo =>
    obtain ⟨s, time, hd, hjoin, -⟩ := touch_of_underway (by simp [hjoined]) h hleaves
    simp only [hjoined] at hjoin
    obtain rfl := congrArg Prod.snd hjoin
    have hwas : s.pinching = true := (pinching_join hs').symm.trans hpinching
    have hlast := lastSpan_join { d with lastTime := some time } u time hwas
    have hopen : d.isOpen .pinch = true := d.isOpen_pinch_iff.mpr ⟨s, hd, hwas⟩
    rw [ContactTable.count, hcontacts, hlast]
    exact ⟨htwo, fun _ => ⟨fun heq _ => heq, fun hcurrent => hcurrent ⟨hopen, .inl hjoined⟩⟩⟩
  | moved hmoved hcontacts hids hpos =>
    obtain ⟨s, time, hd, hmove, -⟩ := touch_of_underway (by simp [hmoved]) h hleaves
    simp only [hmoved] at hmove
    obtain rfl := congrArg Prod.snd hmove
    obtain ⟨_, _, scrolled, -, -, hstill, hpinches⟩ :=
      pinches_move { d with lastTime := some time } s u time
    have hsame : d.isOpen .pinch = s.pinching := isOpen_of_stream_eq_some hd
    have hlength : u.count = t.count := by
      simpa [ContactTable.count] using congrArg List.length hids
    have hopened : scrolled.pinching = true → 2 ≤ u.count := by
      rw [hstill, ← hsame, hlength]
      exact hcount
    rw [ContactTable.count, hcontacts]
    refine ⟨hpinches.two_le_count hopened hs' hpinching, fun hon => ?_⟩
    rw [hpinches.lastSpan_iff hon hopened hs' hpinching, hstill, hsame]
    simp [hmoved]
  | left hleft hcontacts hcount hstaying =>
    obtain ⟨s, time, hd, hleave, -⟩ := touch_of_underway (by simp [hleft]) h hleaves
    simp only [hleft] at hleave
    obtain rfl := congrArg Prod.snd hleave
    obtain ⟨htwo, hlast⟩ :=
      lastSpan_leave (d := { d with lastTime := some time }) hs' hpinching hcount
    rw [ContactTable.count, hcontacts]
    exact ⟨htwo, fun hon => iff_of_true (hlast hon) fun hexcepted => by simp [hleft] at hexcepted⟩
  | gone hgone =>
    cases (stream_touch_of_closes hgone h).symm.trans hs'

section Kinds

theorem kind_of_mem_ite {p : Prop} [Decidable p] {payload : Gesture.Payload} {place : Place}
    (hg : g ∈ if p then [gestureAt t time payload place] else []) : g.kind = payload.kind := by
  split at hg
  · obtain rfl := List.mem_singleton.mp hg
    rfl
  · cases hg

theorem kind_of_mem_begin (hg : g ∈ (d.begin t time).1) : g.kind = .tapDown := by
  unfold begin at hg
  split at hg
  · cases hg
  · obtain rfl := List.mem_singleton.mp hg
    rfl

-- The last release ends a pinch and completes a tap, or it ends a scroll at the velocity that
-- there is once it has been added.
theorem mem_finish (hg : g ∈ (d.finish s t time).1) :
    g.kind ∈ [Gesture.Kind.pinchEnd, .longTap, .tap, .doubleTap] ∨
      g.payload = releaseScroll d.settings.thresholds
        ((s.velocity.add time t.focus.location).velocity time) := by
  have hpinchEnd {place : Place}
      (hg : g ∈ if s.pinching = true then [gestureAt t time .pinchEnd place] else []) :
      g.kind ∈ [Gesture.Kind.pinchEnd, .longTap, .tap, .doubleTap] := by
    simp [kind_of_mem_ite hg, Gesture.Payload.kind]
  unfold finish at hg
  split at hg
  · cases hg
  · simp only [] at hg
    split at hg
    · refine (List.mem_append.mp hg).imp hpinchEnd fun hg => ?_
      obtain rfl := List.mem_singleton.mp hg
      rfl
    · refine .inl ?_
      have hcompletes {payload : Gesture.Payload} {place place' : Place}
          (hpayload : payload.kind ∈ [Gesture.Kind.pinchEnd, .longTap, .tap, .doubleTap])
          (hg : g ∈ (if s.pinching = true then [gestureAt t time .pinchEnd place] else []) ++
            [gestureAt t time payload place']) :
          g.kind ∈ [Gesture.Kind.pinchEnd, .longTap, .tap, .doubleTap] := by
        obtain hg | hg := List.mem_append.mp hg
        · exact hpinchEnd hg
        · obtain rfl := List.mem_singleton.mp hg
          exact hpayload
      split at hg
      · exact hcompletes (by simp [Gesture.Payload.kind]) hg
      · split at hg <;> exact hcompletes (by simp [Gesture.Payload.kind]) hg
      · exact hpinchEnd hg

theorem kind_of_mem_finish (hg : g ∈ (d.finish s t time).1) : g.kind ≠ .pinchUpdate := by
  obtain hkind | hrelease := mem_finish hg
  · intro hupdate
    simp [hupdate] at hkind
  · have hends := kind_releaseScroll d.settings.thresholds
      ((s.velocity.add time t.focus.location).velocity time)
    rw [← hrelease, ← Gesture.kind] at hends
    intro hupdate
    rw [hupdate] at hends
    cases hends

theorem kind_of_mem_abort (hg : g ∈ (d.abort s t time).1) : g.kind ≠ .pinchUpdate := by
  unfold abort at hg
  simp only [] at hg
  rcases List.mem_append.mp hg with hg | hg
  · rcases List.mem_append.mp hg with hg | hg <;>
      simp [kind_of_mem_ite hg, Gesture.Payload.kind]
  · split at hg
    · cases hg
    · obtain ⟨c, -, rfl⟩ := Option.map_eq_some_iff.mp (Option.mem_toList.mp hg)
      simp [Gesture.Payload.kind]

end Kinds

theorem action_of_pinchUpdate (h : d.touch u = some (gestures, d')) (hg : g ∈ gestures)
    (hkind : g.kind = .pinchUpdate) : u.action = .moved := by
  obtain ⟨change, hlatest, -, hhandle⟩ := touch_eq_some h
  have haction : u.action = change.action := by simp [ContactTable.action, hlatest]
  replace hg : g ∈ ({ d with lastTime := some change.time }.handle u change).1 := by rwa [hhandle]
  rw [haction]
  unfold handle at hg
  split at hg
  · simp [kind_of_mem_begin hg] at hkind
  · cases hg
  · simp [Stream.kind_of_mem_cancelTap hg] at hkind
  · next hmoved _ => exact hmoved
  · simp [kind_of_mem_ite hg, Gesture.Payload.kind] at hkind
  · exact absurd hkind (kind_of_mem_finish hg)
  · exact absurd hkind (kind_of_mem_abort hg)

-- Only a move in a pinch reports a change of span, and it compares the span of the contacts
-- with the reference.
theorem scale_of_mem_touch {scale : Scalar} (hremains : t.Remains u)
    (h : d.touch u = some (gestures, d')) (hg : g ∈ gestures)
    (hscale : g.payload = .pinchUpdate scale) :
    u.action = .moved ∧ d.isOpen .pinch = true ∧
      scale = spanOf u.settle.contacts / d.lastSpan ∧ spanOf u.settle.contacts ≠ d.lastSpan := by
  have hkind : g.kind = .pinchUpdate := by simp [Gesture.kind, hscale, Gesture.Payload.kind]
  have hmoved := action_of_pinchUpdate h hg hkind
  obtain ⟨hcontacts, -, -⟩ := hremains.of_moved hmoved
  refine ⟨hmoved, ?_⟩
  rw [hcontacts]
  obtain ⟨s, time, hd, hmove, -⟩ :=
    touch_of_underway (by simp [hmoved]) h (.inl (List.ne_nil_of_mem hg))
  simp only [hmoved] at hmove
  obtain ⟨scrolled, pinched, _, hgestures, hkinds, hstill, hpinches⟩ :=
    pinches_move { d with lastTime := some time } s u time
  have hsplit : gestures = scrolled ++ pinched := by rw [← hgestures, hmove]
  rw [hsplit] at hg
  rcases List.mem_append.mp hg with hg | hg
  · exact absurd hkind (hkinds g hg)
  · obtain ⟨hpinching, hscale⟩ := hpinches.scale_eq hg hscale
    exact ⟨d.isOpen_pinch_iff.mpr ⟨s, hd, hstill ▸ hpinching⟩, hscale⟩

theorem lastSpan_tick (d : Detector) (now : Time) : (d.tick now).2.lastSpan = d.lastSpan := by
  unfold tick
  split <;> rfl

end Detector

end TouchGestures
