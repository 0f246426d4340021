import TouchGestures.Proofs.Channel.Diary
import TouchGestures.Proofs.Detector.Polling

namespace TouchGestures

variable {earlier later : Time}

def Gesture.Kind.isTimed : Gesture.Kind → Bool
  | .showPress | .longPress => true
  | _ => false

theorem Packet.gestures_ofTimeout (g : Gesture) : (Packet.ofTimeout g).gestures = [g] := rfl

namespace Release.Outlet

-- Of an alarm its own gesture goes out or none, besides what is closed by dropping it.
theorem timed_take_alarm (o : Outlet) (g : Gesture) (suppressing : Bool) :
    ((o.take (.alarm (Packet.ofTimeout g) suppressing)).1.filter (·.kind.isTimed)).Sublist [g] := by
  have hclosed (o : Outlet) (p : Packet) :
      (o.closeTap p).1.filter (·.kind.isTimed) = [] := by
    refine List.filter_eq_nil_iff.mpr fun closed hclosed => ?_
    obtain ⟨opener, -, rfl⟩ := Option.map_eq_some_iff.mp (Option.mem_toList.mp hclosed)
    simp [Outlet.closing, Gesture.kind, Gesture.Payload.kind, Gesture.Kind.isTimed]
  have hoffer : (o.offerAll (Packet.ofTimeout g) [g]).1 = (o.offer (Packet.ofTimeout g) g).1 :=
    List.append_nil _
  rw [Outlet.take, Outlet.releaseTimeout, Packet.gestures_ofTimeout]
  split
  · rw [hoffer]
    unfold Outlet.offer
    simp only []
    split
    · rw [hclosed]
      exact List.nil_sublist _
    · exact List.filter_sublist
  · exact List.filter_sublist

-- The alarms that are heard come in the order in which they rang.
theorem timed_replay_alarms (o : Outlet) (gestures : List Gesture) (suppressing : Bool) :
    ((o.replay (gestures.map fun g => .alarm (Packet.ofTimeout g) suppressing)).1.filter
      (·.kind.isTimed)).Sublist gestures := by
  induction gestures generalizing o with
  | nil => simp
  | cons g rest ih =>
    rw [List.map_cons, Outlet.replay_cons, List.filter_append]
    exact (timed_take_alarm o g suppressing).append (ih _)

end Release.Outlet

namespace Detector

def tickAll (d : Detector) : List Time → List Gesture × Detector
  | [] => ([], d)
  | now :: rest =>
    let (first, d) := d.tick now
    let (others, d) := d.tickAll rest
    (first ++ others, d)

-- Whatever rings at the times before would have rung at the last of them as well.
theorem tickAll_concat {times : List Time} {last : Time} (h : ∀ now ∈ times, now ≤ last)
    (d : Detector) : d.tickAll (times ++ [last]) = d.tick last := by
  induction times generalizing d with
  | nil => simp [tickAll]
  | cons now rest ih =>
    have hrest : ∀ other ∈ rest, other ≤ last := fun other hother => h other (by simp [hother])
    have hlast : now ≤ last := h now (by simp)
    simp only [List.cons_append, tickAll, ih hrest]
    exact d.tick_tick hlast

end Detector

namespace Channel

variable {c d : Channel} {gestures : List Gesture}

def tickAll (c : Channel) : List Time → Except Violation (List Gesture × Channel)
  | [] => .ok ([], c)
  | now :: rest => do
    let (first, c) ← c.tick now
    let (others, c) ← c.tickAll rest
    .ok (first ++ others, c)

theorem numberAll_append (thresholds : Thresholds) (previous : Option CountedTap)
    (first second : List Gesture) :
    numberAll thresholds previous (first ++ second) =
      ((numberAll thresholds previous first).1 ++
          (numberAll thresholds (numberAll thresholds previous first).2 second).1,
        (numberAll thresholds (numberAll thresholds previous first).2 second).2) := by
  induction first generalizing previous with
  | nil => rfl
  | cons g rest ih => simp [numberAll, ih]

-- Asking twice, at times in order, comes to the same as asking once at the later one.
theorem tick_tick (hle : earlier ≤ later) (c : Channel) :
    (do
      let (first, d) ← c.tick earlier
      let (second, d) ← d.tick later
      .ok (first ++ second, d)) = c.tick later := by
  have hitems : c.itemsBy (.tick earlier) ++ ((c.detector.tick earlier).2.tick later).1.map
      (fun g => .alarm (Packet.ofTimeout g) c.queue.isEmpty) = c.itemsBy (.tick later) := by
    rw [itemsBy, itemsBy, ← c.detector.tick_tick hle, List.map_append]
  have hstate : ((c.detector.tick earlier).2.tick later).2 = (c.detector.tick later).2 := by
    rw [← c.detector.tick_tick hle]
  rw [tick_eq c later, ← hitems, ← hstate, Release.Outlet.replay_append]
  simp only [tick_eq, numberTaps, bind, Except.bind, numberAll_append, thresholds, detector,
    Detector.settings_tick]
  rfl

theorem tickAll_concat {times : List Time} {last : Time} (h : ∀ now ∈ times, now ≤ last)
    (c : Channel) : c.tickAll (times ++ [last]) = c.tick last := by
  induction times generalizing c with
  | nil => simp [tickAll, tick_eq, bind, Except.bind]
  | cons now rest ih =>
    have hrest : ∀ other ∈ rest, other ≤ last := fun other hother => h other (by simp [hother])
    have hlast : now ≤ last := h now (by simp)
    simp only [List.cons_append, tickAll, ih hrest]
    exact c.tick_tick hlast

-- Taps are numbered without regard to what alarms give.
theorem timed_numberAll (thresholds : Thresholds) (previous : Option CountedTap)
    (gestures : List Gesture) :
    (numberAll thresholds previous gestures).1.filter (·.kind.isTimed) =
      gestures.filter (·.kind.isTimed) := by
  induction gestures generalizing previous with
  | nil => rfl
  | cons g rest ih =>
    have hfirst : [(number thresholds previous g).1].filter (·.kind.isTimed) =
        [g].filter (·.kind.isTimed) := by
      unfold number
      split
      · next htap => simp [Gesture.kind, htap, Gesture.Payload.kind, Gesture.Kind.isTimed]
      · rfl
    simp only [numberAll]
    rw [← List.singleton_append, List.filter_append, hfirst, ih, ← List.filter_append,
      List.singleton_append]

theorem timed_tick {now : Time} (h : c.tick now = .ok (gestures, d)) :
    d.detector = (c.detector.tick now).2 ∧
      (gestures.filter (·.kind.isTimed)).Sublist (c.detector.tick now).1 := by
  rw [tick_eq] at h
  cases h
  refine ⟨rfl, ?_⟩
  rw [timed_numberAll]
  exact c.queue.outlet.timed_replay_alarms (c.detector.tick now).1 c.queue.isEmpty

-- How often a channel is asked for its alarms makes no difference. At times in order, it
-- gives one after the other what it would give if it were asked at the last of them only,
-- and comes to the same state. What rings does so in the order of the deadlines and at
-- the deadlines, in this order it goes out as far as it does, and nothing that is left is
-- due.
theorem tickAll_eq_tick (c : Channel) {times : List Time} {last : Time}
    (hsorted : (times ++ [last]).Pairwise (· ≤ ·)) :
    ∃ gestures d fired,
      c.tickAll (times ++ [last]) = .ok (gestures, d) ∧ c.tick last = .ok (gestures, d) ∧
      c.detector.tickAll (times ++ [last]) = (fired, d.detector) ∧
      c.detector.alarms.RingBy last fired d.detector.alarms ∧
      (gestures.filter (·.kind.isTimed)).Sublist fired := by
  have hlast : ∀ now ∈ times, now ≤ last := fun now hnow =>
    (List.pairwise_append.mp hsorted).2.2 now hnow last (by simp)
  obtain ⟨⟨gestures, d⟩, htick⟩ : ∃ result, c.tick last = .ok result := ⟨_, tick_eq c last⟩
  obtain ⟨hdetector, htimed⟩ := timed_tick htick
  refine ⟨gestures, d, (c.detector.tick last).1, ?_, htick, ?_, ?_, htimed⟩
  · rw [tickAll_concat hlast, htick]
  · rw [Detector.tickAll_concat hlast, hdetector]
  · rw [hdetector]
    exact c.detector.ringBy_tick last

-- A finger rests, and its consumer has said that it does not handle the press.
def resting : Channel :=
  (Diary.ofCalls {} [.event (.touch (finger .pressed 1 10 0 1)),
    .event (.ack 1 false false)]).channel

-- The press is shown and found long, whether or not it is asked for in between.
theorem tickAll_resting :
    ([200000000] ++ [1200000000] : List Time).Pairwise (· ≤ ·) ∧
      ∃ gestures d, resting.tickAll ([200000000] ++ [1200000000]) = .ok (gestures, d) ∧
        resting.tick 1200000000 = .ok (gestures, d) ∧
        gestures.map (·.kind) = [.showPress, .longPress] := by
  have hsorted : ([200000000] ++ [1200000000] : List Time).Pairwise (· ≤ ·) := by decide
  obtain ⟨gestures, d, -, hall, htick, -⟩ := tickAll_eq_tick resting hsorted
  have hkinds : (resting.tick 1200000000).toOption.map (·.1.map (·.kind)) =
      some [.showPress, .longPress] := by
    decide +kernel
  rw [htick] at hkinds
  exact ⟨hsorted, gestures, d, hall, htick, by simpa [Except.toOption] using hkinds⟩

end Channel

end TouchGestures
