import TouchGestures.Proofs.Channel.Turns
import TouchGestures.Proofs.Detector.DoubleTaps

namespace TouchGestures.Channel

open Detector (LastTap Missed)

section Numbers

variable {previous : Option CountedTap} {releases : List (Thresholds × Gesture)}
  {thresholds : Thresholds} {first second : LastTap}

def counted? (g : Gesture) : Option CountedTap :=
  match g.payload with
  | .tap n => some ⟨g.time, g.place.location, n⟩
  | _ => none

def lastCounted (releases : List (Thresholds × Gesture)) : Option CountedTap :=
  (releases.filterMap fun r => counted? r.2).getLast?

-- Each tap has the number that it is due after the taps before it, and the last is remembered.
structure Numbered (previous : Option CountedTap) (releases : List (Thresholds × Gesture)) :
    Prop where
  each : ∀ before r after, releases = before ++ r :: after →
    ∀ n, r.2.payload = .tap n → n = tapNumber r.1 (lastCounted before) r.2
  last : previous = lastCounted releases

theorem lastCounted_concat (releases : List (Thresholds × Gesture)) (r : Thresholds × Gesture) :
    lastCounted (releases ++ [r]) = (counted? r.2).or (lastCounted releases) := by
  rw [lastCounted, List.filterMap_append, List.getLast?_append]
  cases hr : counted? r.2 <;> simp [hr, lastCounted]

theorem counted?_of_payload {g : Gesture} {n : Nat} (h : g.payload = .tap n) :
    counted? g = some ⟨g.time, g.place.location, n⟩ := by
  rw [counted?, h]

theorem counted?_eq_some_iff {g : Gesture} {tap : CountedTap} :
    counted? g = some tap ↔ ∃ n, g.payload = .tap n ∧ tap = ⟨g.time, g.place.location, n⟩ := by
  unfold counted?
  cases g.payload <;> simp [eq_comm]

theorem counted?_eq_none_iff {g : Gesture} : counted? g = none ↔ g.tap? = none := by
  unfold counted? Gesture.tap?
  cases g.payload <;> simp

theorem tap?_eq_some_iff {g : Gesture} {tap : LastTap} :
    g.tap? = some tap ↔ ∃ n, g.payload = .tap n ∧ tap = ⟨g.time, g.place.location⟩ := by
  unfold Gesture.tap?
  cases g.payload <;> simp [eq_comm]

theorem Numbered.number (h : Numbered previous releases) (thresholds : Thresholds) (g : Gesture) :
    Numbered (number thresholds previous g).2
      (releases ++ [(thresholds, (number thresholds previous g).1)]) := by
  have hlast := h.last
  unfold Channel.number
  split
  · refine ⟨forall_split_concat h.each fun n hn => ?_, ?_⟩
    · cases hn
      rw [← hlast]
      rfl
    · rw [lastCounted_concat]
      rfl
  · next hpayload =>
    have hnone : counted? g = none := by
      unfold counted?
      split
      · next n hn => exact absurd hn (hpayload n)
      · rfl
    refine ⟨forall_split_concat h.each fun n hn => absurd hn (hpayload n), ?_⟩
    rw [lastCounted_concat, hnone, Option.none_or, hlast]

theorem Numbered.numberAll (h : Numbered previous releases) (thresholds : Thresholds)
    (more : List Gesture) :
    Numbered (numberAll thresholds previous more).2
      (releases ++ (numberAll thresholds previous more).1.map (thresholds, ·)) := by
  induction more generalizing previous releases with
  | nil => simpa [Channel.numberAll] using h
  | cons g rest ih => simpa [Channel.numberAll] using ih (h.number thresholds g)

-- Whether a tap is close enough to an earlier one to go on with its row.
def Close (thresholds : Thresholds) (first second : LastTap) : Prop :=
  elapsed first.time second.time ≤ thresholds.doubleTapTimeout ∧
    first.location.distanceSquared second.location ≤
      thresholds.doubleTapSlop * thresholds.doubleTapSlop

-- Two taps that were released one right after the other, the second close to the first.
def Successive (releases : List (Thresholds × Gesture)) (first second : LastTap) : Prop :=
  ∃ before p between q after, releases = before ++ p :: between ++ q :: after ∧
    p.2.tap? = some first ∧ q.2.tap? = some second ∧ (∀ r ∈ between, r.2.tap? = none) ∧
    Close q.1 first second

theorem tapNumber_of_close {tap : CountedTap} {g : Gesture}
    (h : Close thresholds ⟨tap.time, tap.location⟩ ⟨g.time, g.place.location⟩) :
    tapNumber thresholds (some tap) g = tap.count % 3 + 1 := by
  obtain ⟨hsoon, hnear⟩ := h
  exact if_pos (by simp [hsoon, hnear])

theorem close_of_tapNumber_ne_one {g : Gesture} (h : tapNumber thresholds previous g ≠ 1) :
    ∃ tap, previous = some tap ∧
      Close thresholds ⟨tap.time, tap.location⟩ ⟨g.time, g.place.location⟩ := by
  unfold tapNumber at h
  cases previous with
  | none => exact absurd rfl h
  | some tap =>
    refine ⟨tap, rfl, ?_⟩
    by_contra hfar
    refine h (if_neg fun hboth => hfar ?_)
    simpa [Close] using hboth

-- Some tap has another number than one just if two taps in succession are close.
theorem Numbered.exists_ne_one_iff (h : Numbered previous releases) :
    (∃ r ∈ releases, ∃ n, r.2.payload = .tap n ∧ n ≠ 1) ↔
      ∃ first second, Successive releases first second := by
  constructor
  · rintro ⟨q, hq, n, hn, hne⟩
    obtain ⟨earlier, after, rfl⟩ := List.append_of_mem hq
    rw [h.each earlier q after rfl n hn] at hne
    obtain ⟨tap, hlast, hclose⟩ := close_of_tapNumber_ne_one hne
    obtain ⟨before, p, between, rfl, hp, hbetween⟩ := getLast?_filterMap_eq_some_iff.mp hlast
    obtain ⟨m, hm, rfl⟩ := counted?_eq_some_iff.mp hp
    exact ⟨_, _, before, p, between, q, after, rfl, tap?_eq_some_iff.mpr ⟨m, hm, rfl⟩,
      tap?_eq_some_iff.mpr ⟨n, hn, rfl⟩, fun r hr => counted?_eq_none_iff.mp (hbetween r hr),
      hclose⟩
  · rintro ⟨first, second, before, p, between, q, after, rfl, hp, hq, hbetween, hclose⟩
    obtain ⟨m, hm, rfl⟩ := tap?_eq_some_iff.mp hp
    obtain ⟨n, hn, rfl⟩ := tap?_eq_some_iff.mp hq
    by_cases hone : m = 1
    · -- The second tap goes on with the row that the first one begins.
      have hlast : lastCounted (before ++ p :: between) =
          some ⟨p.2.time, p.2.place.location, m⟩ :=
        getLast?_filterMap_eq_some_iff.mpr ⟨before, p, between, rfl, counted?_of_payload hm,
          fun r hr => counted?_eq_none_iff.mpr (hbetween r hr)⟩
      have hdue := h.each (before ++ p :: between) q after (by simp) n hn
      rw [hlast, tapNumber_of_close hclose, hone] at hdue
      exact ⟨q, by simp, n, hn, by simp [hdue]⟩
    · exact ⟨p, by simp, m, hm, hone⟩

-- A step releases gestures with the numbers that are due, and remembers the last tap.
theorem Numbered.step {c d : Channel} {e : Event} {gestures : List Gesture}
    (h : Numbered c.previousTap releases) (hq : c.queue.HeadPending)
    (hstep : c.step e = .ok (gestures, d)) :
    Numbered d.previousTap (releases ++ gestures.map (c.thresholds, ·)) := by
  cases e with
  | touch t =>
    obtain ⟨⟨result, d⟩, htouch, heq⟩ := map_eq_ok.mp hstep
    cases heq
    obtain ⟨-, -, rfl | rfl⟩ | ⟨_, _, _, _, -, -, -, -, -, rfl⟩ := touch_cases hq htouch <;>
      simpa using h
  | ack id consumed nonBlocking =>
    obtain ⟨d, hack, heq⟩ := map_eq_ok.mp hstep
    cases heq
    obtain ⟨judged, -, rfl⟩ := ack_eq_ok hack
    rw [released_collect, List.drop_left]
    exact h.numberAll _ _
  | tick now =>
    rw [Channel.step, tick_eq, Except.ok.injEq] at hstep
    cases hstep
    have hthresholds : c.thresholds = (c.detector.tick now).2.settings.thresholds := by
      rw [Detector.settings_tick]
      rfl
    rw [hthresholds]
    exact h.numberAll _ _
  | drain | configure | setDoubleTap | reassign | forgetHistory =>
    cases hstep
    rw [List.map_nil, List.append_nil]
    exact h

end Numbers

-- The gestures that were released, each with the thresholds of the time.
def releases (turns : List Turn) : List (Thresholds × Gesture) :=
  turns.flatMap fun x => x.released.map (x.before.thresholds, ·)

theorem map_snd_releases (turns : List Turn) :
    (releases turns).map Prod.snd = turns.flatMap (·.released) := by
  simp [releases, List.map_flatMap, Function.comp_def]

def Event.KeepsDoubleTap : Event → Prop
  | .configure settings => settings.doubleTap = true
  | .setDoubleTap enabled => enabled = true
  | .touch _ | .ack .. | .tick _ | .drain | .reassign _ | .forgetHistory => True

instance : DecidablePred Event.KeepsDoubleTap
  | .configure settings => inferInstanceAs (Decidable (settings.doubleTap = true))
  | .setDoubleTap enabled => inferInstanceAs (Decidable (enabled = true))
  | .touch _ | .ack .. | .tick _ | .drain | .reassign _ | .forgetHistory => .isTrue trivial

theorem switch?_of_mem_opsBy {c : Channel} {e : Event} {op : Detector.Op}
    (he : e.KeepsDoubleTap) (hop : op ∈ c.opsBy e) : op.switch? ≠ some false := by
  cases e with
  | touch t =>
    simp only [opsBy] at hop
    split at hop
    · rw [List.mem_singleton.mp hop]
      simp [Detector.Op.switch?]
    · cases hop
  | tick now =>
    rw [List.mem_singleton.mp hop]
    simp [Detector.Op.switch?]
  | configure settings =>
    rw [List.mem_singleton.mp hop, Detector.Op.switch?, he]
    simp
  | setDoubleTap enabled =>
    rw [List.mem_singleton.mp hop, Detector.Op.switch?, he]
    simp
  | ack | drain | reassign | forgetHistory => cases hop

theorem view_tap? : View Gesture.tap? where
  detected := by
    intro g hkind
    unfold Gesture.tap?
    split
    · next hpayload =>
      rw [Gesture.kind, hpayload] at hkind
      simp [Gesture.Payload.kind] at hkind
    · rfl
  untallied := by
    intro g
    unfold Gesture.untallied
    split
    · next h => simp [Gesture.tap?, h]
    · rfl
  marked := fun _ _ _ => rfl

namespace Ran

variable {settings : ChannelSettings} {turns : List Turn} {c : Channel}

theorem numbered (h : Ran settings turns c) : Numbered c.previousTap (releases turns) := by
  induction h with
  | start consumer => exact ⟨by simp [releases], rfl⟩
  | @step turns c d e gestures h hstep ih =>
    obtain ⟨k, hk, rfl, -⟩ := h.lived
    have hnumbered := ih.step hk.sound.head hstep
    simpa [releases] using hnumbered

-- While double taps are on, the second of two taps that are released in succession and close
-- to each other was no double tap for a reason.
theorem missed_of_successive (h : Ran settings turns c) (hon : settings.doubleTap = true)
    (hkeeps : ∀ x ∈ turns, x.event.KeepsDoubleTap) {first second : LastTap}
    (hsuccessive : Successive (releases turns) first second) :
    Missed (Detector.history { settings } (turns.flatMap Turn.ops)) first second := by
  obtain ⟨before, p, between, q, after, hsplit, hp, hq, -, -⟩ := hsuccessive
  have hreleased : [p, q].Sublist (releases turns) := by
    rw [hsplit]
    exact (List.singleton_sublist.mpr (by simp)).append (List.singleton_sublist.mpr (by simp))
  have hpair : [first, second].Sublist ((turns.flatMap (·.released)).filterMap Gesture.tap?) := by
    rw [← map_snd_releases]
    simpa [hp, hq] using (hreleased.map Prod.snd).filterMap Gesture.tap?
  have hcompleted := hpair.trans (h.filterMap_released view_tap?)
  rw [(h.detector view_tap?).2] at hcompleted
  obtain ⟨past, x, gap, z, rest, hhistory, hx, hz⟩ :=
    exists_split_of_sublist_flatMap hcompleted fun m _ =>
      Nat.le_of_add_right_le m.length_le_one
  refine Detector.missed_of_taps hon (fun op hop => ?_) hhistory hx hz
  obtain ⟨turn, hturn, hop⟩ := List.mem_flatMap.mp hop
  exact switch?_of_mem_opsBy (hkeeps turn hturn) hop

-- While double taps are on, every tap has the number one just if no tap is released right
-- after another that is close to it. If one is, then the detector has missed a double tap.
theorem forall_eq_one_iff (h : Ran settings turns c) (hon : settings.doubleTap = true)
    (hkeeps : ∀ x ∈ turns, x.event.KeepsDoubleTap) :
    ((∀ g ∈ turns.flatMap (·.released), ∀ n, g.payload = .tap n → n = 1) ↔
        ∀ first second, ¬Successive (releases turns) first second) ∧
      ∀ first second, Successive (releases turns) first second →
        Missed (Detector.history { settings } (turns.flatMap Turn.ops)) first second := by
  refine ⟨⟨fun hone first second hsuccessive => ?_, fun hnone g hg n hn => ?_⟩,
    fun _ _ => h.missed_of_successive hon hkeeps⟩
  · obtain ⟨r, hr, n, hn, hne⟩ := h.numbered.exists_ne_one_iff.mpr ⟨first, second, hsuccessive⟩
    refine hne (hone r.2 ?_ n hn)
    rw [← map_snd_releases]
    exact List.mem_map_of_mem hr
  · by_contra hne
    rw [← map_snd_releases] at hg
    obtain ⟨r, hr, rfl⟩ := List.mem_map.mp hg
    obtain ⟨first, second, hsuccessive⟩ := h.numbered.exists_ne_one_iff.mp ⟨r, hr, n, hn, hne⟩
    exact hnone first second hsuccessive

end Ran

-- Short taps at one place that the consumer handles none of, 50 ms from one to the next.
def quickTaps (count : Nat) : List Event :=
  (List.range count).flatMap fun k =>
    let press := UInt32.ofNat (2 * k + 1)
    let release := UInt32.ofNat (2 * k + 2)
    [.touch (finger .pressed 1 10 (100 * k) press), .ack press false false,
      .touch (finger .released 1 10 (100 * k + 50) release), .ack release false false]

def quickTurns (count : Nat) : List Turn :=
  (ofSettings 1 { doubleTap := true }).turnsOf (quickTaps count)

-- The second of two quick taps goes out as a double tap.
theorem forall_eq_one_of_quickTurns :
    (∃ c, Ran { doubleTap := true } (quickTurns 2) c) ∧
      (∀ x ∈ quickTurns 2, x.event.KeepsDoubleTap) ∧
      ((quickTurns 2).flatMap (·.released)).map (·.payload) =
        [.tapDown, .tap 1, .tapDown, .doubleTap] ∧
      ∀ first second, ¬Successive (releases (quickTurns 2)) first second := by
  obtain ⟨c, hran⟩ := Ran.exists_turnsOf { doubleTap := true } 1 (quickTaps 2)
  have hkeeps : ∀ x ∈ quickTurns 2, x.event.KeepsDoubleTap := by decide +kernel
  have hpayloads : ((quickTurns 2).flatMap (·.released)).map (·.payload) =
      [.tapDown, .tap 1, .tapDown, .doubleTap] := by
    decide +kernel
  have hone : ∀ g ∈ (quickTurns 2).flatMap (·.released), ∀ n, g.payload = .tap n → n = 1 := by
    intro g hg n hn
    have hmem := List.mem_map_of_mem (f := (·.payload)) hg
    rw [hpayloads, hn] at hmem
    simpa using hmem
  exact ⟨⟨c, hran⟩, hkeeps, hpayloads, (hran.forall_eq_one_iff rfl hkeeps).1.mp hone⟩

-- The third tap comes after a double tap, so it is no double tap. It is close to the first,
-- which is the tap that was released last, and so it has the number two.
theorem not_forall_eq_one_of_quickTurns :
    (∃ c, Ran { doubleTap := true } (quickTurns 3) c) ∧
      (∀ x ∈ quickTurns 3, x.event.KeepsDoubleTap) ∧
      ((quickTurns 3).flatMap (·.released)).map (·.payload) =
        [.tapDown, .tap 1, .tapDown, .doubleTap, .tapDown, .tap 2] ∧
      ¬∀ g ∈ (quickTurns 3).flatMap (·.released), ∀ n, g.payload = .tap n → n = 1 := by
  have hpayloads : ((quickTurns 3).flatMap (·.released)).map (·.payload) =
      [.tapDown, .tap 1, .tapDown, .doubleTap, .tapDown, .tap 2] := by
    decide +kernel
  refine ⟨Ran.exists_turnsOf _ 1 _, by decide +kernel, hpayloads, fun hone => ?_⟩
  have hmem : .tap 2 ∈ ((quickTurns 3).flatMap (·.released)).map (·.payload) := by
    simp [hpayloads]
  obtain ⟨g, hg, hn⟩ := List.mem_map.mp hmem
  cases hone g hg 2 hn

end TouchGestures.Channel
