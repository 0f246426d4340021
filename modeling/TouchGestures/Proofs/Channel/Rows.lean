import TouchGestures.Proofs.Channel.Soundness
import TouchGestures.Proofs.Outcome
import TouchGestures.Proofs.Splits

namespace TouchGestures

namespace Gesture

def tapNumber? (g : Gesture) : Option Nat :=
  match g.payload with
  | .tap n => some n
  | _ => none

def latestTap (gestures : List Gesture) : Option Nat := (gestures.filterMap tapNumber?).getLast?

theorem latestTap_append (first second : List Gesture) :
    latestTap (first ++ second) = (latestTap second).or (latestTap first) := by
  rw [latestTap, List.filterMap_append, List.getLast?_append]
  rfl

@[simp] theorem latestTap_singleton (g : Gesture) : latestTap [g] = g.tapNumber? := by
  unfold latestTap
  cases hg : g.tapNumber? <;> simp [hg]

-- Every tap that does not start a row goes on with the row of the latest one before it.
def InRows (gestures : List Gesture) : Prop :=
  ∀ before g after, gestures = before ++ g :: after →
    ∀ n ∈ g.tapNumber?, 1 < n → latestTap before = some (n - 1)

end Gesture

open Gesture (InRows latestTap)

namespace Channel

variable {previous : Option CountedTap} {gestures : List Gesture}

-- The taps among some gestures come in rows of three at most, and the latest is remembered.
structure Counts (previous : Option CountedTap) (gestures : List Gesture) : Prop where
  rows : InRows gestures
  latest : latestTap gestures = previous.map (·.count)
  bounded : ∀ tap ∈ previous, tap.count ≤ 3

theorem counts_nil : Counts none [] where
  rows := by
    intro before g after hsplit
    simp at hsplit
  latest := rfl
  bounded := by simp

theorem tapNumber_le (thresholds : Thresholds) (previous : Option CountedTap) (g : Gesture) :
    tapNumber thresholds previous g ≤ 3 := by
  unfold tapNumber
  split
  · omega
  · split <;> omega

-- A tap whose number is not one has the number after that of the tap before it.
theorem Counts.latest_eq (h : Counts previous gestures) {thresholds : Thresholds} {g : Gesture}
    (hg : 1 < tapNumber thresholds previous g) :
    latestTap gestures = some (tapNumber thresholds previous g - 1) := by
  rw [h.latest]
  unfold tapNumber at hg ⊢
  cases previous with
  | none => simp at hg
  | some tap =>
    have hbounded := h.bounded tap rfl
    dsimp only at hg ⊢
    split at hg
    · rw [Option.map_some, if_pos ‹_›, Option.some.injEq]
      omega
    · omega

theorem Counts.number (h : Counts previous gestures) (thresholds : Thresholds) (g : Gesture) :
    Counts (number thresholds previous g).2 (gestures ++ [(number thresholds previous g).1]) := by
  unfold Channel.number
  split
  · refine ⟨forall_split_concat h.rows fun n hn hone => ?_, ?_, ?_⟩
    · obtain rfl := Option.some.inj hn
      exact h.latest_eq hone
    · rw [Gesture.latestTap_append, Gesture.latestTap_singleton]
      rfl
    · rintro tap ⟨⟩
      exact tapNumber_le thresholds previous g
  · next hpayload =>
    have hnone : g.tapNumber? = none := by
      unfold Gesture.tapNumber?
      split
      · next n hn => exact absurd hn (hpayload n)
      · rfl
    refine ⟨forall_split_concat h.rows fun n hn => ?_, ?_, h.bounded⟩
    · rw [hnone] at hn
      cases hn
    · rw [Gesture.latestTap_append, Gesture.latestTap_singleton, hnone, Option.none_or, h.latest]

theorem Counts.numberAll (h : Counts previous gestures) (thresholds : Thresholds)
    (more : List Gesture) :
    Counts (numberAll thresholds previous more).2
      (gestures ++ (numberAll thresholds previous more).1) := by
  induction more generalizing previous gestures with
  | nil => simpa [Channel.numberAll] using h
  | cons g rest ih => simpa [Channel.numberAll] using ih (h.number thresholds g)

-- The tap that a channel remembers is the latest that it has released.
theorem Lived.counts {allowed : Event → Prop} {k : Chronicle} (h : Lived allowed k) :
    Counts k.channel.previousTap k.released := by
  induction h with
  | start consumer settings => exact counts_nil
  | @step k k' e h _ hk ih =>
    obtain ⟨gestures, channel, hstep, rfl⟩ := Chronicle.step_eq_ok hk
    dsimp only
    cases e with
    | touch t =>
      obtain ⟨⟨result, d⟩, htouch, heq⟩ := map_eq_ok.mp hstep
      cases heq
      obtain ⟨-, -, rfl | rfl⟩ | ⟨_, _, _, _, -, -, -, -, -, rfl⟩ :=
        touch_cases h.sound.head htouch <;> simpa using ih
    | ack id consumed nonBlocking =>
      obtain ⟨d, hack, heq⟩ := map_eq_ok.mp hstep
      cases heq
      obtain ⟨judged, -, rfl⟩ := ack_eq_ok hack
      rw [released_collect, List.drop_left]
      exact ih.numberAll _ _
    | tick now =>
      rw [Channel.step, tick_eq, Except.ok.injEq] at hstep
      cases hstep
      exact ih.numberAll _ _
    | drain | configure | setDoubleTap | reassign | forgetHistory =>
      cases hstep
      rw [List.append_nil]
      exact ih

end Channel

end TouchGestures
