import TouchGestures.Proofs.Channel.Acceptance
import TouchGestures.Proofs.Channel.Turns
import TouchGestures.Proofs.ContactTable.Remaining
import TouchGestures.Proofs.Detector.Flat

namespace TouchGestures

namespace Detector

variable {d : Detector} {s : Stream} {t : ContactTable}

theorem tap_of_completesTap {g : Gesture} {time : Time} (hg : g ∈ (d.finish s t time).1)
    (htap : g.kind.completesTap = true) : s.tap = .possible := by
  obtain ⟨htapless, -⟩ | ⟨hpossible, -⟩ := d.finish_cases s t time
  · cases htap.symm.trans (htapless g hg)
  · exact hpossible

theorem exists_completesTap_finish (hs : s.Poised) (htap : s.tap = .possible)
    (hacting : t.acting?.isSome = true) (d : Detector) (time : Time) :
    ∃ g ∈ (d.finish s t time).1, g.kind.completesTap = true := by
  obtain ⟨contact, hcontact⟩ := Option.isSome_iff_exists.mp hacting
  have hscrolling : s.scrolling = false := hs.scrolling_eq_false htap
  unfold finish
  simp only [hcontact, hscrolling, Bool.false_eq_true, if_false, htap]
  cases s.doubleTap <;> exact ⟨_, List.mem_concat_self, rfl⟩

theorem handle_of_ended {change : Change} (hs : d.stream = some s)
    (hended : change.action = .ended) : d.handle t change = d.finish s t change.time := by
  rw [handle, hended, hs]

-- A touch completes a tap only as the last release of a stream that can complete as one.
theorem tappable_of_touch {d' : Detector} {gestures : List Gesture} {g : Gesture}
    (h : d.touch t = some (gestures, d')) (hg : g ∈ gestures)
    (htap : g.kind.completesTap = true) : d.Tappable := by
  obtain ⟨change, -, -, hhandle⟩ := touch_eq_some h
  obtain rfl := congrArg Prod.fst hhandle
  have hended : change.action = .ended := by
    by_contra hended
    have htapless := (ongoing_handle (d := { d with lastTime := some change.time }) (t := t)
      hended).tapless
    cases htap.symm.trans (htapless g hg)
  cases hs : d.stream with
  | none =>
    rw [handle_of_stream_eq_none (by exact hs) (by simp [hended])] at hg
    cases hg
  | some s =>
    rw [handle_of_ended (by exact hs) hended] at hg
    exact ⟨s, hs, tap_of_completesTap hg htap⟩

-- The last release of a stream that can complete as a tap completes it, unless it comes from
-- the past.
theorem exists_completesTap_touch {change : Change} (hd : d.Poised) (htappable : d.Tappable)
    (hlatest : t.latest = some change) (hacting : t.acting?.isSome = true)
    (hended : change.action = .ended) (hfresh : ∀ last ∈ d.lastTime, last ≤ change.time) :
    ∃ gestures d', d.touch t = some (gestures, d') ∧
      ∃ g ∈ gestures, g.kind.completesTap = true := by
  obtain ⟨s, hs, htap⟩ := htappable
  obtain ⟨⟨gestures, d'⟩, htouch⟩ := (exists_touch_iff_fresh hlatest).mpr
    (.inr (.inr ⟨Option.isSome_of_mem hs, hfresh⟩))
  obtain ⟨other, hother, -, hhandle⟩ := touch_eq_some htouch
  obtain rfl := Option.some.inj (hlatest.symm.trans hother)
  rw [handle_of_ended (by exact hs) hended] at hhandle
  have hcompletes := exists_completesTap_finish (hd s hs) htap hacting
    { d with lastTime := some change.time } change.time
  rw [hhandle] at hcompletes
  exact ⟨gestures, d', htouch, hcompletes⟩

end Detector

namespace Channel

open Detector (Flat)

variable {c : Channel} {settings : ChannelSettings} {turns : List Turn}

-- Some touch that could come next would complete the stream as a tap.
def CanTap (c : Channel) : Prop :=
  ∃ t : Touch, ∃ x ∈ c.detection? t, ∃ g ∈ x.gestures, g.kind.completesTap = true

def detectionsOf (turns : List Turn) : List Detection :=
  turns.flatMap fun x => x.before.detectedBy (.event x.event)

theorem Ran.kept (h : Ran settings turns c) :
    Diary.Kept { channel := c, detections := detectionsOf turns } := by
  induction h with
  | start consumer => exact .start consumer settings
  | @step turns c d e gestures _ hstep ih =>
    refine ih.step (a := .event e) (map_eq_ok.mpr ⟨d, ?_, ?_⟩)
    · exact map_eq_ok.mpr ⟨_, hstep, rfl⟩
    · simp [detectionsOf]

namespace Chronicle

variable {k : Chronicle}

-- With one contact down, its release is what completes the tap.
theorem Sound.canTap_iff (h : k.Sound) (hpoised : k.channel.detector.Poised)
    (halone : ∀ s ∈ k.channel.detector.stream, s.tap = .possible → k.channel.contacts.count = 1) :
    CanTap k.channel ↔ k.channel.detector.Tappable := by
  constructor
  · rintro ⟨t, x, hx, g, hg, htap⟩
    unfold detection? at hx
    split at hx
    · cases hx
    · obtain ⟨⟨gestures, d⟩, htouch, rfl⟩ := Option.map_eq_some_iff.mp hx
      exact Detector.tappable_of_touch htouch hg htap
  · rintro ⟨s, hs, htap⟩
    obtain ⟨contact, hcontact⟩ := List.length_eq_one_iff.mp (halone s hs htap)
    obtain ⟨time, htime⟩ : ∃ time : Time, ∀ last ∈ k.channel.detector.lastTime, last ≤ time := by
      cases hlast : k.channel.detector.lastTime with
      | none => exact ⟨0, by simp⟩
      | some last => exact ⟨last, by simp⟩
    let t := contact.synthesize .released time 0
    have hfits : k.channel.contacts.Fits t := by
      simp [ContactTable.Fits, t, Contact.synthesize, ContactTable.index?, hcontact, Contact.id]
    obtain ⟨u, haccept⟩ := ContactTable.exists_accept?_iff.mpr hfits
    have hended : u.action = .ended :=
      ContactTable.ended_of_released h.settled haccept rfl (halone s hs htap)
    obtain ⟨change, hlatest, haction, hnow⟩ := ContactTable.latest_of_accept? haccept
    obtain ⟨gestures, d, htouch, g, hg, hcompletes⟩ := Detector.exists_completesTap_touch hpoised
      ⟨s, hs, htap⟩ hlatest (ContactTable.accepted_note haccept).1 (haction.trans hended)
      fun last hlast => hnow ▸ htime last hlast
    have hdetection : k.channel.detection? t = some ⟨u.latest, gestures⟩ := by
      have hsettle := ContactTable.settle_of_leaving_eq_none h.settled
      simp [detection?, ContactTable.touch, hsettle, haccept, htouch]
    exact ⟨t, _, hdetection, g, hg, hcompletes⟩

end Chronicle

namespace Diary

variable {y : Diary} {d : Channel} {k : Chronicle} {t : Touch} {contacts : ContactTable}
  {change : Change} {gestures : List Gesture} {detections : List Detection}

-- A single contact is down, and nothing was told of the stream but its press.
structure Solitary (c : Channel) (detections : List Detection) : Prop where
  one : c.contacts.count = 1
  told : ∀ stream ∈ current detections, ∀ g ∈ gesturesOf stream,
    g.kind = .tapDown ∨ g.kind = .showPress

-- What neither begins nor closes a stream, and shows its press at most, keeps it so.
theorem Solitary.concat {x : Detection} (h : Solitary c detections) (hone : d.contacts.count = 1)
    (hbegins : x.begins = false) (hcloses : x.closes = false)
    (hshows : ∀ g ∈ x.gestures, g.kind = .showPress) : Solitary d (detections ++ [x]) := by
  refine ⟨hone, fun stream hstream g hg => ?_⟩
  rw [current_concat, Detection.extend_of_stays hbegins hcloses] at hstream
  obtain ⟨before, hbefore, rfl⟩ := Option.map_eq_some_iff.mp hstream
  rw [gesturesOf_concat] at hg
  obtain hg | hg := List.mem_append.mp hg
  · exact h.told before hbefore g hg
  · exact .inr (hshows g hg)

theorem solitary_of_began (hsettled : k.channel.contacts.leaving = none)
    (haccept : k.channel.contacts.accept? t = some contacts)
    (hdetect : k.channel.detector.touch contacts = some (gestures, d.detector))
    (hcontacts : d.contacts = contacts.settle) (hbegan : contacts.action = .began) :
    Solitary d (detections ++ [⟨contacts.latest, gestures⟩]) := by
  obtain ⟨change, hlatest, haction, -⟩ := ContactTable.latest_of_accept? haccept
  obtain ⟨time, hbegin, -⟩ := Detector.touch_of_began hbegan hdetect
  obtain rfl := congrArg Prod.fst hbegin
  rw [hlatest]
  refine ⟨?_, fun stream hstream g hg => ?_⟩
  · exact hcontacts ▸ (ContactTable.remains hsettled haccept).count_of_began hbegan
  · rw [current_concat,
      Detection.extend_of_begins (Detection.begins_iff.mpr (haction.trans hbegan))] at hstream
    obtain rfl := Option.some.inj hstream
    exact .inl (Detector.kind_of_mem_begin (by simpa [gesturesOf] using hg))

-- While a single contact is down, all that can happen to it before it is gone is that it
-- moves.
theorem Solitary.touch (h : Solitary k.channel detections)
    (hsettled : k.channel.contacts.leaving = none)
    (haccept : k.channel.contacts.accept? t = some contacts)
    (hlatest : contacts.latest = some change) (hcontacts : d.contacts = contacts.settle)
    (hbegan : change.action ≠ .began) (hjoined : change.action ≠ .joined)
    (hlasts : ¬(change.action = .ended ∨ change.action = .cancelled))
    (hnothing : change.action = .moved → contacts.count < 2 → gestures = []) :
    Solitary d (detections ++ [⟨contacts.latest, gestures⟩]) := by
  have haction : contacts.action = change.action := by simp [ContactTable.action, hlatest]
  have hone := h.one
  cases ContactTable.remains hsettled haccept with
  | began _ hfirst => exact absurd (haction.symm.trans hfirst) hbegan
  | joined hjoins => exact absurd (haction.symm.trans hjoins) hjoined
  | gone hgone => exact absurd (haction ▸ hgone) hlasts
  | left _ _ hcount hstaying hsame => omega
  | moved hmoved hstill hids =>
    have hsame : contacts.count = 1 := by
      rw [← hone]
      simpa [ContactTable.count] using congrArg List.length hids
    have hempty : gestures = [] := hnothing (haction.symm.trans hmoved) (by omega)
    rw [hlatest, hempty]
    refine h.concat ?_ ?_ ?_ (by simp)
    · rw [hcontacts, ContactTable.count, hstill]
      exact hsame
    · simp [Detection.begins, hbegan]
    · rw [← Bool.not_eq_true, Detection.closes_iff]
      exact hlasts

-- As long as the stream can complete as a tap, a single contact is down.
structure Awaits (c : Channel) (detections : List Detection) : Prop where
  poised : c.detector.Poised
  solitary : ∀ s ∈ c.detector.stream, s.tap = .possible → Solitary c detections

theorem Awaits.quiet (h : Awaits c detections) (hquiet : Quiet c d) : Awaits d detections := by
  obtain ⟨allowed, hstream⟩ := hquiet.stream
  refine ⟨fun s hs => ?_, fun s hs htap => ?_⟩
  all_goals
    rw [hstream] at hs
    obtain ⟨s₀, hs₀, rfl⟩ := Option.map_eq_some_iff.mp hs
  · have hstays : s₀.Stays { s₀ with doubleTap := s₀.doubleTap && allowed } := ⟨rfl, rfl, rfl⟩
    exact hstays.poised (h.poised s₀ hs₀)
  · obtain ⟨hone, htold⟩ := h.solitary s₀ hs₀ htap
    exact ⟨by rwa [ContactTable.count, hquiet.contacts], htold⟩

theorem Awaits.tick (h : Awaits c detections) (now : Time) (hcontacts : d.contacts = c.contacts)
    (hdetector : d.detector = (c.detector.tick now).2) :
    Awaits d (detections ++ [⟨none, (c.detector.tick now).1⟩]) := by
  cases hs : c.detector.stream with
  | none =>
    have hnone : d.detector.stream = none := by
      rw [hdetector, Detector.tick_of_stream_eq_none hs, hs]
    exact ⟨Detector.poised_of_stream_eq_none hnone, fun s hs => by cases hnone.symm.trans hs⟩
  | some s =>
    obtain ⟨hpoised, hshown⟩ := (h.poised s hs).ringDue now 2
    rw [Detector.tick_of_stream_eq_some hs] at hdetector ⊢
    refine ⟨fun s' hs' => ?_, fun s' hs' htap => ?_⟩
    all_goals
      rw [hdetector] at hs'
      obtain rfl := Option.some.inj hs'
    · exact hpoised
    · obtain ⟨hpossible, hshows⟩ := hshown htap
      have hbefore := h.solitary s hs hpossible
      exact hbefore.concat (hcontacts ▸ hbefore.one) rfl rfl hshows

-- Only the first press of a stream or a move that tells nothing leaves it able to complete as
-- a tap.
theorem Awaits.touch (h : Awaits k.channel detections) (hk : k.Sound)
    (haccept : k.channel.contacts.accept? t = some contacts)
    (hdetect : k.channel.detector.touch contacts = some (gestures, d.detector))
    (hcontacts : d.contacts = contacts.settle) :
    Awaits d (detections ++ [⟨contacts.latest, gestures⟩]) := by
  obtain ⟨change, hlatest, -, hhandle⟩ := Detector.touch_eq_some hdetect
  have haction : contacts.action = change.action := by simp [ContactTable.action, hlatest]
  have hpoised := Detector.poised_handle
    (d := { k.channel.detector with lastTime := some change.time }) h.poised contacts change
  rw [hhandle] at hpoised
  refine ⟨hpoised, fun s' hs' htap => ?_⟩
  by_cases hbegan : change.action = .began
  · exact solitary_of_began hk.settled haccept hdetect hcontacts (haction.trans hbegan)
  · have hlasts : ¬(change.action = .ended ∨ change.action = .cancelled) := by
      intro hcloses
      cases (Detector.stream_touch_of_closes (haction ▸ hcloses) hdetect).symm.trans hs'
    cases hs : k.channel.detector.stream with
    | none =>
      rw [Detector.handle_of_stream_eq_none (by exact hs) hbegan] at hhandle
      have hsame := congrArg (fun x => x.2.stream) hhandle
      cases hs.symm.trans (hsame.trans hs')
    | some s =>
      obtain ⟨s'', hs'', hcases⟩ := Detector.handle_cases (t := contacts)
        (d := { k.channel.detector with lastTime := some change.time }) hs hbegan hlasts
      rw [hhandle] at hs'' hcases
      obtain rfl := Option.some.inj (hs''.symm.trans hs')
      obtain hoff | ⟨hjoined, hstays, hnothing⟩ := hcases
      · exact absurd htap hoff.tap
      · have hpossible : s.tap = .possible := hstays.tap.symm.trans htap
        have hscrolling := (h.poised s hs).scrolling_eq_false hpossible
        exact (h.solitary s hs hpossible).touch hk.settled haccept hlatest hcontacts hbegan hjoined
          hlasts fun hmoved => hnothing hmoved hscrolling

theorem Kept.awaits (h : Kept y) : Awaits y.channel y.detections := by
  refine h.induct (P := Awaits) (fun _ _ => ?_) fun hk houtcome hawaits => ?_
  · exact ⟨Detector.poised_of_stream_eq_none rfl, fun s hs => by cases hs⟩
  · cases houtcome with
    | quiet hquiet =>
      rw [List.append_nil]
      exact hawaits.quiet hquiet
    | alarms now hcontacts hdetector => exact hawaits.tick now hcontacts hdetector
    | touched t contacts gestures haccept hdetect hcontacts =>
      exact hawaits.touch hk haccept hdetect hcontacts

end Diary

-- A new detector laid out flat, after it was asked all that detection was in some turns.
def flatAfter (settings : ChannelSettings) (turns : List Turn) : Flat :=
  (Flat.performAll { settings } (turns.flatMap Turn.ops)).2

-- The timers of a channel, given what its detector holds laid out flat and what was detected.
structure Timed (f : Flat) (c : Channel) (detections : List Detection) : Prop where
  shows : f.Shows c.detector
  nextDeadline : f.nextDeadline = c.nextDeadline
  -- Timers are armed only while a touch could complete a tap.
  tappable : f.timers ≠ [] → CanTap c
  -- Then a single contact is down, and a stream is under way in which nothing else has begun.
  alone : CanTap c → c.contacts.live.length = 1 ∧ ∃ stream, current detections = some stream ∧
    ∀ g ∈ Diary.gesturesOf stream, g.kind ∉ [.scrollBegin, .pinchBegin, .longPress]
  once : ∀ alarm, (f.timers.map Prod.snd).count alarm ≤ 1
  long : .longPress ∈ f.timers.map Prod.snd ↔ CanTap c
  possible : f.tapPossible = true ↔ CanTap c
  silent : ¬CanTap c → c.nextDeadline = none
  -- Whenever timers fire, none is dropped without a gesture,
  kept : ∀ now, none ∉ (f.fire now).1
  -- and some gesture comes of waking up in time.
  heard : ∀ deadline ∈ c.nextDeadline, ∀ now, deadline ≤ now → (c.detector.tick now).1 ≠ []

namespace Ran

theorem detector_eq (h : Ran settings turns c) :
    c.detector = Detector.performAll { settings } (turns.flatMap Turn.ops) :=
  (h.detector (f := fun _ : Gesture => (none : Option Unit))
    ⟨fun _ _ => rfl, fun _ => rfl, fun _ _ _ => rfl⟩).1

theorem shows_flatAfter (h : Ran settings turns c) :
    (flatAfter settings turns).Shows c.detector ∧ c.detector.Poised := by
  have hpoised : Detector.Poised { settings } := Detector.poised_of_stream_eq_none rfl
  rw [h.detector_eq]
  exact ⟨(Flat.matches_performAll (Flat.shows_start settings) hpoised _).2,
    Detector.poised_performAll hpoised _⟩

theorem canTap_iff (h : Ran settings turns c) : CanTap c ↔ c.detector.Tappable := by
  obtain ⟨k, hk, rfl, -⟩ := h.lived
  have hawaits := h.kept.awaits
  exact hk.sound.canTap_iff hawaits.poised fun s hs htap => (hawaits.solitary s hs htap).one

-- Whatever has happened to a channel, a timer is armed only while a tap can be completed, and
-- gives its gesture when it fires.
theorem timed (h : Ran settings turns c) :
    Timed (flatAfter settings turns) c (detectionsOf turns) := by
  obtain ⟨hshows, hpoised⟩ := h.shows_flatAfter
  have hcan := h.canTap_iff
  have hnext : c.nextDeadline = c.detector.alarms.next? := c.detector.nextDeadline_eq
  have hoff : ¬CanTap c → c.detector.alarms = .off := fun hnot =>
    hpoised.alarms_eq_off (mt hcan.mpr hnot)
  refine ⟨hshows, ?_, ?_, ?_, ?_, ?_, ?_, ?_, ?_, ?_⟩
  · rw [Flat.nextDeadline, hshows.timers_eq, Detector.Alarms.min?_timers, hnext]
  · intro htimers
    by_contra hnot
    exact htimers (by rw [hshows.timers_eq, hoff hnot]; rfl)
  · intro hcan
    obtain ⟨k, hk, rfl, -⟩ := h.lived
    obtain ⟨s, hs, htap⟩ := h.canTap_iff.mp hcan
    obtain ⟨hone, htold⟩ := h.kept.awaits.solitary s hs htap
    obtain ⟨stream, hstream, -⟩ := h.kept.leads.1.course s hs
    refine ⟨by rwa [ContactTable.live_of_leaving_eq_none hk.sound.settled], stream, hstream, ?_⟩
    intro g hg
    obtain hkind | hkind := htold stream hstream g hg <;> simp [hkind]
  · rw [hshows.timers_eq]
    exact c.detector.alarms.count_timers_le_one
  · rw [hshows.timers_eq, Detector.Alarms.longPress_mem_timers_iff, hpoised.longPress_iff, hcan]
  · rw [hshows.tapPossible_iff, hcan]
  · intro hnot
    rw [hnext, hoff hnot]
    rfl
  · exact fun now => (Flat.matches_tick hshows hpoised now).2
  · exact fun deadline hdeadline now hdue => hpoised.tick_ne_nil hdeadline hdue

-- A single press arms both timers.
theorem timed_of_pressed :
    let turns := (ofSettings 1 {}).turnsOf [.touch (finger .pressed 1 10 0 1)]
    ∃ c, Ran {} turns c ∧ Timed (flatAfter {} turns) c (detectionsOf turns) ∧
      (flatAfter {} turns).timers = [⟨Duration.milliseconds 150, .showPress⟩,
        ⟨Duration.milliseconds 1000, .longPress⟩] ∧
      c.nextDeadline = some (Duration.milliseconds 150) ∧ CanTap c ∧
      c.contacts.live.length = 1 := by
  intro turns
  obtain ⟨c, hran⟩ := exists_turnsOf {} 1 [.touch (finger .pressed 1 10 0 1)]
  have htimed := hran.timed
  have htimers : (flatAfter {} turns).timers = [⟨Duration.milliseconds 150, .showPress⟩,
      ⟨Duration.milliseconds 1000, .longPress⟩] := by decide +kernel
  have hnext : c.nextDeadline = some (Duration.milliseconds 150) :=
    htimed.nextDeadline.symm.trans (by decide +kernel)
  have hcan : CanTap c := htimed.tappable (by rw [htimers]; simp)
  exact ⟨c, hran, htimed, htimers, hnext, hcan, (htimed.alone hcan).1⟩

end Ran

end Channel

end TouchGestures
