import TouchGestures.Proofs.Detector.Pinching

namespace TouchGestures

namespace Gesture

-- Whether the kind completes a tap, be it the second one of a double tap.
def Kind.completesTap : Kind → Bool
  | .tap | .doubleTap => true
  | _ => false

theorem Kind.completesTap_of_endsScroll {k : Kind} (h : k.endsScroll = true) :
    k.completesTap = false := by
  cases k <;> simp_all [endsScroll, completesTap]

-- Whether gestures of the kind come of nothing but the last release of a stream.
def Kind.isFinal : Kind → Bool
  | .tap | .doubleTap | .longTap | .flingStart => true
  | _ => false

theorem Kind.isFinal_of_completesTap {k : Kind} (h : k.completesTap = true) : k.isFinal = true := by
  cases k <;> simp_all [isFinal, completesTap]

-- There are none of some kinds among some gestures.
def Lacks (P : Kind → Bool) (gestures : List Gesture) : Prop := ∀ g ∈ gestures, P g.kind = false

abbrev Tapless (gestures : List Gesture) : Prop := Lacks Kind.completesTap gestures

-- Gestures of a stream that goes on or is cancelled.
abbrev Ongoing (gestures : List Gesture) : Prop := Lacks Kind.isFinal gestures

section Lacks

variable {P Q : Kind → Bool} {gestures first second : List Gesture}

theorem lacks_nil : Lacks P [] := by simp [Lacks]

theorem lacks_singleton {g : Gesture} (h : P g.kind = false) : Lacks P [g] :=
  fun _ hg => List.mem_singleton.mp hg ▸ h

theorem Lacks.append (hfirst : Lacks P first) (hsecond : Lacks P second) :
    Lacks P (first ++ second) := by
  intro g hg
  obtain hg | hg := List.mem_append.mp hg
  · exact hfirst g hg
  · exact hsecond g hg

theorem Ongoing.tapless (h : Ongoing gestures) : Tapless gestures := by
  intro g hg
  by_contra htap
  have hfinal := h g hg
  rw [Kind.isFinal_of_completesTap (by simpa using htap)] at hfinal
  cases hfinal

end Lacks

-- The tap that a gesture completes, as the presses after it are compared with it.
def tap? (g : Gesture) : Option Detector.LastTap :=
  match g.payload with
  | .tap _ => some ⟨g.time, g.place.location⟩
  | _ => none

theorem tap?_of_completesTap {g : Gesture} (h : g.kind.completesTap = false) : g.tap? = none := by
  unfold tap?
  split
  · next count hpayload =>
    rw [kind, hpayload] at h
    cases h
  · rfl

theorem Lacks.filterMap_tap? {gestures : List Gesture} (h : Tapless gestures) :
    gestures.filterMap tap? = [] :=
  List.filterMap_eq_nil_iff.mpr fun g hg => tap?_of_completesTap (h g hg)

theorem Lacks.filter_doubleTap {gestures : List Gesture} (h : Tapless gestures) :
    (gestures.filter fun g => g.kind = .doubleTap) = [] := by
  refine List.filter_eq_nil_iff.mpr fun g hg hkind => ?_
  have htapless := h g hg
  rw [of_decide_eq_true hkind] at htapless
  cases htapless

end Gesture

namespace Detector

open Gesture (Lacks Ongoing Tapless lacks_nil lacks_singleton)

section Handlers

variable {d : Detector} {s : Stream} {t : ContactTable} {time : Time} {gestures : List Gesture}

theorem lacks_of_kinds {P : Gesture.Kind → Bool} {Q : Gesture.Kind → Prop}
    (h : ∀ g ∈ gestures, Q g.kind) (hQ : ∀ k, Q k → P k = false) : Lacks P gestures :=
  fun g hg => hQ _ (h g hg)

theorem lacks_ite {P : Gesture.Kind → Bool} {p : Prop} [Decidable p] {payload : Gesture.Payload}
    {place : Place} (h : P payload.kind = false) :
    Lacks P (if p then [gestureAt t time payload place] else []) :=
  lacks_of_kinds (Q := (· = payload.kind)) (fun _ hg => kind_of_mem_ite hg) (by simpa using h)

theorem ongoing_begin (d : Detector) (t : ContactTable) (time : Time) :
    Ongoing (d.begin t time).1 :=
  lacks_of_kinds (Q := (· = .tapDown)) (fun _ hg => kind_of_mem_begin hg)
    (by simp [Gesture.Kind.isFinal])

theorem Stream.ongoing_cancelTap (s : Stream) (t : ContactTable) (time : Time) :
    Ongoing (s.cancelTap t time).1 :=
  lacks_of_kinds (Q := (· = .tapCancel)) (fun _ hg => kind_of_mem_cancelTap hg)
    (by simp [Gesture.Kind.isFinal])

theorem Stream.ongoing_updateScroll (s : Stream) (t : ContactTable) (time : Time) :
    Ongoing (s.updateScroll t time) := by
  unfold updateScroll
  exact lacks_ite rfl

theorem Stream.ongoing_scroll (s : Stream) (slop : Scalar) (t : ContactTable) (time : Time) :
    Ongoing (s.scroll slop t time).1 := by
  have hbegun : Ongoing (s.beginScroll slop t time).1 :=
    lacks_of_kinds (Q := fun k => k = .tapCancel ∨ k = .scrollBegin)
      (fun _ hg => kind_of_mem_beginScroll hg) (by simp [Gesture.Kind.isFinal])
  exact hbegun.append (ongoing_updateScroll _ t time)

theorem ongoing_move (d : Detector) (s : Stream) (t : ContactTable) (time : Time) :
    Ongoing (d.move s t time).1 := by
  have hpinched : ∀ s : Stream, Ongoing (d.pinch s t time).1 := fun s =>
    lacks_of_kinds (Q := fun k => k = .tapCancel ∨ k = .pinchBegin ∨ k = .pinchUpdate)
      (fun _ hg => kind_of_mem_pinch hg) (by simp [Gesture.Kind.isFinal])
  exact (s.ongoing_scroll _ t time).append (hpinched _)

theorem ongoing_abort (d : Detector) (s : Stream) (t : ContactTable) (time : Time) :
    Ongoing (d.abort s t time).1 := by
  refine ((lacks_ite rfl).append (lacks_ite rfl)).append ?_
  split
  · exact lacks_nil
  · intro g hg
    obtain ⟨c, -, rfl⟩ := Option.map_eq_some_iff.mp (Option.mem_toList.mp hg)
    rfl

-- Nothing final comes of a change that does not end the stream by a release.
theorem ongoing_handle {change : Change} (hended : change.action ≠ .ended) :
    Ongoing (d.handle t change).1 := by
  unfold handle
  cases haction : change.action with
  | began => exact ongoing_begin d t _
  | ended => exact absurd haction hended
  | joined =>
    cases d.stream with
    | none => exact lacks_nil
    | some s => exact s.ongoing_cancelTap t _
  | moved =>
    cases d.stream with
    | none => exact lacks_nil
    | some s => exact ongoing_move d s t _
  | left =>
    cases d.stream with
    | none => exact lacks_nil
    | some s => exact lacks_ite rfl
  | cancelled =>
    cases d.stream with
    | none => exact lacks_nil
    | some s => exact ongoing_abort d s t _

theorem tapless_tick (d : Detector) (now : Time) : Tapless (d.tick now).1 :=
  lacks_of_kinds (Q := fun k => k = .showPress ∨ k = .longPress)
    (fun _ hg => kind_of_mem_tick hg) (by simp [Gesture.Kind.completesTap])

-- The last release may complete a tap or a double tap, if the stream can. Otherwise it
-- ends the stream and does nothing about taps.
theorem finish_cases (d : Detector) (s : Stream) (t : ContactTable) (time : Time) :
    (Tapless (d.finish s t time).1 ∧ (d.finish s t time).2 = d.endStream) ∨
    s.tap = .possible ∧ ∃ (ending : List Gesture) (contact : Contact), Tapless ending ∧
      (s.doubleTap = true ∧ d.finish s t time =
          (ending ++ [gestureAt t time .doubleTap contact.place],
            { d.endStream with lastTap := none }) ∨
        s.doubleTap = false ∧ d.finish s t time =
          (ending ++ [gestureAt t time (.tap 1) contact.place],
            { d.endStream with lastTap := some ⟨time, contact.location⟩ })) := by
  unfold finish
  cases t.acting? with
  | none => exact .inl ⟨lacks_nil, rfl⟩
  | some contact =>
    have hpinchEnd : Tapless (if s.pinching then [gestureAt t time .pinchEnd t.focus] else []) :=
      lacks_ite rfl
    simp only []
    by_cases hscrolling : s.scrolling = true
    · have hends := kind_releaseScroll d.settings.thresholds
        ((s.velocity.add time t.focus.location).velocity time)
      rw [if_pos hscrolling]
      refine .inl ⟨hpinchEnd.append (lacks_singleton ?_), rfl⟩
      rw [kind_gestureAt]
      exact Gesture.Kind.completesTap_of_endsScroll hends
    · rw [if_neg hscrolling]
      cases s.tap with
      | long => exact .inl ⟨hpinchEnd.append (lacks_singleton rfl), rfl⟩
      | off => exact .inl ⟨hpinchEnd, rfl⟩
      | possible =>
        refine .inr ⟨rfl, _, contact, hpinchEnd, ?_⟩
        cases hdouble : s.doubleTap with
        | true => exact .inl ⟨rfl, rfl⟩
        | false => exact .inr ⟨rfl, rfl⟩

theorem lastTap_begin (d : Detector) (t : ContactTable) (time : Time) :
    (d.begin t time).2.lastTap = d.lastTap := by
  unfold begin
  split <;> rfl

theorem lastTap_join (d : Detector) (s : Stream) (t : ContactTable) (time : Time) :
    (d.join s t time).2.lastTap = d.lastTap := by
  unfold join
  simp only []
  split <;> rfl

theorem lastTap_move (d : Detector) (s : Stream) (t : ContactTable) (time : Time) :
    (d.move s t time).2.lastTap = d.lastTap := by
  have hpinch : ∀ s : Stream, (d.pinch s t time).2.lastTap = d.lastTap := by
    intro s
    unfold pinch
    simp only []
    split
    · split <;> split <;> rfl
    · rfl
  exact hpinch _

theorem lastTap_leave (d : Detector) (s : Stream) (t : ContactTable) (time : Time) :
    (d.leave s t time).2.lastTap = d.lastTap := by
  unfold leave
  simp only []
  split <;> rfl

theorem lastTap_tick (d : Detector) (now : Time) : (d.tick now).2.lastTap = d.lastTap := by
  unfold tick
  split <;> rfl

-- What does not close a stream leaves the last tap alone.
theorem lastTap_handle {change : Change} (hended : change.action ≠ .ended)
    (hcancelled : change.action ≠ .cancelled) : (d.handle t change).2.lastTap = d.lastTap := by
  unfold handle
  cases haction : change.action with
  | began => exact lastTap_begin d t _
  | ended => exact absurd haction hended
  | cancelled => exact absurd haction hcancelled
  | joined =>
    cases d.stream with
    | none => rfl
    | some s => exact lastTap_join d s t _
  | moved =>
    cases d.stream with
    | none => rfl
    | some s => exact lastTap_move d s t _
  | left =>
    cases d.stream with
    | none => rfl
    | some s => exact lastTap_leave d s t _

theorem Stream.SameButTap.doubleTap {s' : Stream} (h : s.SameButTap s') :
    s'.doubleTap = s.doubleTap := by
  obtain ⟨tap, alarms, rfl⟩ := h
  rfl

-- A stream that goes on after a change can end as a double tap if it could before.
theorem doubleTap_handle {change : Change} {s' : Stream} (hbegan : change.action ≠ .began)
    (hs' : (d.handle t change).2.stream = some s') :
    ∃ s, d.stream = some s ∧ s'.doubleTap = s.doubleTap := by
  cases hd : d.stream with
  | none =>
    rw [handle_of_stream_eq_none hd hbegan, hd] at hs'
    cases hs'
  | some s =>
    refine ⟨s, rfl, ?_⟩
    rw [handle, hd] at hs'
    cases haction : change.action with
    | began => exact absurd haction hbegan
    | joined =>
      rw [haction] at hs'
      obtain rfl := Option.some.inj hs'
      exact (s.sameButTap_cancelTap t change.time).doubleTap
    | moved =>
      rw [haction] at hs'
      obtain ⟨tap, alarms, scrolling, pinching, hmoved⟩ := d.exists_stream_move s t change.time
      obtain rfl := Option.some.inj (hmoved.symm.trans hs')
      rfl
    | left =>
      rw [haction] at hs'
      obtain rfl := Option.some.inj hs'
      rfl
    | ended =>
      rw [haction] at hs'
      exact absurd hs' (by simp [stream_finish])
    | cancelled =>
      rw [haction] at hs'
      exact absurd hs' (by simp [stream_abort])

theorem settings_handle (d : Detector) (t : ContactTable) (change : Change) :
    (d.handle t change).2.settings = d.settings := by
  have hpinch : ∀ s : Stream, (d.pinch s t change.time).2.settings = d.settings := by
    intro s
    unfold pinch
    simp only []
    split
    · split <;> split <;> rfl
    · rfl
  unfold handle
  split
  · unfold begin
    split <;> rfl
  · rfl
  · unfold join
    simp only []
    split <;> rfl
  · exact hpinch _
  · unfold leave
    simp only []
    split <;> rfl
  · unfold finish
    split
    · rfl
    · simp only []
      split
      · rfl
      · split
        · rfl
        · split <;> rfl
        · rfl
  · rfl

-- What a step means for taps, given the stream that it finds, the last tap, and whether that
-- is to be forgotten.
inductive Fate (stream : Option Stream) (last : Option LastTap) (forgets : Bool) :
    List Gesture → Detector → Prop
  | plain {gestures : List Gesture} {d' : Detector} (htapless : Tapless gestures)
    (hkept : forgets = false) (hlast : d'.lastTap = last) : Fate stream last forgets gestures d'
  | forgot {gestures : List Gesture} {d' : Detector} (htapless : Tapless gestures)
    (hforgot : forgets = true) (hlast : d'.lastTap = none) : Fate stream last forgets gestures d'
  | tapped {ending : List Gesture} {g : Gesture} {s : Stream} {d' : Detector}
    (htapless : Tapless ending) (hpayload : g.payload = .tap 1) (hstream : stream = some s)
    (hsingle : s.doubleTap = false) (hkept : forgets = false) (hended : d'.stream = none)
    (hlast : d'.lastTap = some ⟨g.time, g.place.location⟩) :
    Fate stream last forgets (ending ++ [g]) d'
  | doubled {ending : List Gesture} {g : Gesture} {s : Stream} {d' : Detector}
    (htapless : Tapless ending) (hpayload : g.payload = .doubleTap) (hstream : stream = some s)
    (hdouble : s.doubleTap = true) (hkept : forgets = false) (hended : d'.stream = none)
    (hlast : d'.lastTap = none) : Fate stream last forgets (ending ++ [g]) d'

theorem fate_handle (d : Detector) (t : ContactTable) (change : Change) :
    Fate d.stream d.lastTap (decide (change.action = .cancelled) && d.stream.isSome)
      (d.handle t change).1 (d.handle t change).2 := by
  by_cases hcancelled : change.action = .cancelled
  · rw [handle, hcancelled]
    cases hd : d.stream with
    | none => exact .plain lacks_nil rfl rfl
    | some s => exact .forgot (ongoing_abort d s t _).tapless rfl rfl
  · have hkept : (decide (change.action = .cancelled) && d.stream.isSome) = false := by
      simp [hcancelled]
    by_cases hended : change.action = .ended
    · have hnone := stream_handle_of_closes (d := d) (t := t) (.inl hended)
      rw [handle, hended] at hnone ⊢
      cases hd : d.stream with
      | none => exact .plain lacks_nil rfl rfl
      | some s =>
        rw [hd] at hnone
        change Fate (some s) d.lastTap _ (d.finish s t change.time).1 (d.finish s t change.time).2
        change (d.finish s t change.time).2.stream = none at hnone
        obtain ⟨htapless, hsame⟩ | ⟨-, ending, contact, hending, ⟨hdouble, heq⟩ |
          ⟨hsingle, heq⟩⟩ := d.finish_cases s t change.time
        · exact .plain htapless rfl (by rw [hsame]; rfl)
        · rw [heq] at hnone ⊢
          exact .doubled hending rfl rfl hdouble rfl hnone rfl
        · rw [heq] at hnone ⊢
          exact .tapped hending rfl rfl hsingle rfl hnone rfl
    · exact .plain (ongoing_handle hended).tapless hkept (lastTap_handle hended hcancelled)

variable {stream : Option Stream} {last : Option LastTap} {forgets : Bool} {d' : Detector}

-- No more than one tap or double tap is completed.
theorem Fate.length_le_one (h : Fate stream last forgets gestures d') :
    (gestures.filterMap Gesture.tap?).length +
      (gestures.filter fun g => g.kind = .doubleTap).length ≤ 1 := by
  cases h with
  | plain htapless | forgot htapless =>
    rw [htapless.filterMap_tap?, htapless.filter_doubleTap]
    decide
  | tapped htapless hpayload | doubled htapless hpayload =>
    rw [List.filterMap_append, List.filter_append, htapless.filterMap_tap?,
      htapless.filter_doubleTap]
    simp [Gesture.tap?, Gesture.kind, hpayload, Gesture.Payload.kind]

-- The last tap is the one that is completed, or the one that was there if nothing is done
-- about taps.
theorem Fate.lastTap_iff {tap : LastTap} (h : Fate stream last forgets gestures d') :
    d'.lastTap = some tap ↔ tap ∈ gestures.filterMap Gesture.tap? ∨
      (gestures.filterMap Gesture.tap? = [] ∧
        (gestures.filter fun g => g.kind = .doubleTap) = [] ∧ forgets = false) ∧
      last = some tap := by
  cases h with
  | plain htapless hkept hlast | forgot htapless hkept hlast =>
    simp [htapless.filterMap_tap?, htapless.filter_doubleTap, hkept, hlast]
  | tapped htapless hpayload _ _ _ _ hlast | doubled htapless hpayload _ _ _ _ hlast =>
    rw [List.filterMap_append, List.filter_append, htapless.filterMap_tap?,
      htapless.filter_doubleTap]
    simp [Gesture.tap?, Gesture.kind, hpayload, Gesture.Payload.kind, hlast, eq_comm]

-- A double tap ends a stream that could end as one.
theorem Fate.of_doubleTap (h : Fate stream last forgets gestures d')
    (hdouble : (gestures.filter fun g => g.kind = .doubleTap) ≠ []) :
    (∃ s, stream = some s ∧ s.doubleTap = true) ∧ d'.stream = none := by
  cases h with
  | plain htapless | forgot htapless => exact absurd htapless.filter_doubleTap hdouble
  | tapped htapless hpayload =>
    rw [List.filter_append, htapless.filter_doubleTap] at hdouble
    simp [Gesture.kind, hpayload, Gesture.Payload.kind] at hdouble
  | doubled _ _ hstream hs _ hended => exact ⟨⟨_, hstream, hs⟩, hended⟩

-- A tap ends a stream that could not end as a double tap.
theorem Fate.of_tap (h : Fate stream last forgets gestures d')
    (htap : gestures.filterMap Gesture.tap? ≠ []) :
    (∃ s, stream = some s ∧ s.doubleTap = false) ∧ d'.stream = none := by
  cases h with
  | plain htapless | forgot htapless => exact absurd htapless.filterMap_tap? htap
  | tapped _ _ hstream hs _ hended => exact ⟨⟨_, hstream, hs⟩, hended⟩
  | doubled htapless hpayload =>
    rw [List.filterMap_append, htapless.filterMap_tap?] at htap
    simp [Gesture.tap?, hpayload] at htap

end Handlers

end Detector

end TouchGestures
